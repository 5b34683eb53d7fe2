import EdmQuery.Text.Alphabetic
import EdmQuery.Text.Numeric

/-! Character classes of names and blanks, over all of Unicode. -/

namespace EdmQuery.Text

/-- Membership of a code point in a table of runs. -/
def inRanges (ranges : List (Nat × Nat)) (code : Nat) : Bool :=
  ranges.any fun range => range.1 ≤ code && code ≤ range.2

/-- The characters with the Unicode property White_Space. -/
def isBlank (c : Char) : Bool :=
  -- The class is small and closed, so it is listed instead of tabled.
  let code := c.toNat
  (9 ≤ code && code ≤ 13) || code == 0x20 || code == 0x85 || code == 0xa0 || code == 0x1680 ||
    (0x2000 ≤ code && code ≤ 0x200a) || code == 0x2028 || code == 0x2029 || code == 0x202f ||
    code == 0x205f || code == 0x3000

/-- An ASCII decimal digit. -/
def isDigit (c : Char) : Bool :=
  '0' ≤ c && c ≤ '9'

/-- An ASCII hexadecimal digit of either case. -/
def isHexDigit (c : Char) : Bool :=
  isDigit c || ('a' ≤ c && c ≤ 'f') || ('A' ≤ c && c ≤ 'F')

/-- An alphabetic character. -/
def isAlphabetic (c : Char) : Bool :=
  -- ASCII is decided without the table, which most names never reach.
  if c.toNat < 128 then ('a' ≤ c && c ≤ 'z') || ('A' ≤ c && c ≤ 'Z')
  else inRanges alphabeticRanges c.toNat

/-- A digit of any script, a letter number or another numeral. -/
def isNumeric (c : Char) : Bool :=
  if c.toNat < 128 then isDigit c else inRanges numericRanges c.toNat

/-- A decimal digit of any script. -/
def isDecimalDigit (c : Char) : Bool :=
  if c.toNat < 128 then isDigit c else inRanges decimalDigitRanges c.toNat

/-- An alphabetic or numeric character. -/
def isAlphanumeric (c : Char) : Bool :=
  isAlphabetic c || isNumeric c

/-- The value of an ASCII digit of base sixteen or less. -/
def digitValue (c : Char) : Nat :=
  if isDigit c then c.toNat - 48
  else if 'a' ≤ c && c ≤ 'f' then c.toNat - 87
  else c.toNat - 55

end EdmQuery.Text
