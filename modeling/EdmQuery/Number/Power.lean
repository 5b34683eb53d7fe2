/-! Powers of numbers are the built-in ones, also where a library brings powers of its own. -/

-- Literal exponents have no type of their own, so it is the default that decides about them.
attribute [instance (2000), default_instance (20000)] instPowNat
