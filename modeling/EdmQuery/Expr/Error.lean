import EdmQuery.Text.Span

/-! Why the text of a query option is refused. -/

namespace EdmQuery

open Text

/-- The faults of filter, search, ordering and expansion texts. -/
inductive ExpressionError where
  | syntaxError (offset : Nat) (near message : String)
  | unknownProperty (name : String)
  | unknownFunction (name : String)
  | unknownEntitySet (name : String)
  | unknownEnumeration (name : String)
  | invalidEnumMember (enumeration member : String)
  | typeMismatch (operator left right : String)
  | invalidArguments (function expected found : String)
  | notBoolean (type : String)
  | unboundNavigation (name : String)
  | collectionNotQuantified (name : String)
  | duplicateVariable (name : String)
  | tooDeep (limit : Nat)
  deriving DecidableEq

namespace ExpressionError

/-- How many characters a syntax error shows of the place where it stands. -/
def nearLength : Nat := 16

/-- A syntax error in front of the given characters. -/
def before (offset : Nat) (rest : List Char) (message : String) : ExpressionError :=
  .syntaxError offset (String.ofList (rest.take nearLength)) message

/-- The characters from a byte offset on, none inside a character. -/
def charsFrom : List Char → Nat → List Char
  | chars, 0 => chars
  | [], _ => []
  | c :: rest, offset => if offset < c.utf8Size then [] else charsFrom rest (offset - c.utf8Size)

/-- A syntax error at a byte offset of a text, or at its end when the offset is beyond. -/
def at_ (input : String) (offset : Nat) (message : String) : ExpressionError :=
  before (min offset (byteLength input.toList)) (charsFrom input.toList offset) message

/-- The wording of a fault. -/
def message : ExpressionError → String
  | .syntaxError offset near message =>
    s!"Syntax error at offset {offset} near `{near}`: {message}"
  | .unknownProperty name => s!"Unknown property `{name}`"
  | .unknownFunction name => s!"Unknown function `{name}`"
  | .unknownEntitySet name => s!"Unknown entity set `{name}`"
  | .unknownEnumeration name => s!"Unknown enumeration type `{name}`"
  | .invalidEnumMember enumeration member =>
    s!"Invalid enumeration member `{member}` for `{enumeration}`"
  | .typeMismatch operator left right =>
    s!"Incompatible operand types for `{operator}`: {left} and {right}"
  | .invalidArguments function expected found =>
    s!"Function `{function}` expects {expected}, found {found}"
  | .notBoolean type => s!"Filter expression must be boolean, found {type}"
  | .unboundNavigation name => s!"Navigation property `{name}` has no entity set binding"
  | .collectionNotQuantified name => s!"Collection `{name}` must be used with any() or all()"
  | .duplicateVariable name => s!"Lambda variable `{name}` is already in scope"
  | .tooDeep limit => s!"Expression is nested deeper than {limit} levels"

end ExpressionError

end EdmQuery
