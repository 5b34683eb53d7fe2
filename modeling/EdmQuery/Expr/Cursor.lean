import EdmQuery.Expr.Error
import EdmQuery.Expr.Recognizer

/-! A place in an option text, and what can be read there; a reader that fails moves nothing. -/

namespace EdmQuery

open Text

/-- A place in a text: the bytes before it and the characters after it. -/
structure Cursor where
  offset : Nat
  rest : List Char
  deriving DecidableEq

/-- What was read together with the place behind it. -/
abbrev Read (α : Type) := Except ExpressionError (α × Cursor)

/-- The kinds of numeric literals. -/
inductive NumberKind where
  | integer
  | decimal
  | double
  deriving DecidableEq

namespace Cursor

/-- The start of a text. -/
def start (input : String) : Cursor :=
  ⟨0, input.toList⟩

/-- The place so many characters further on. -/
def advance (c : Cursor) (n : Nat) : Cursor :=
  ⟨c.offset + byteLength (c.rest.take n), c.rest.drop n⟩

/-- The text of the next characters. -/
def ahead (c : Cursor) (n : Nat) : String :=
  String.ofList (c.rest.take n)

/-- A syntax error at this place. -/
def error (c : Cursor) (message : String) : ExpressionError :=
  .before c.offset c.rest message

/-- The place behind blanks. -/
def skipBlanks (c : Cursor) : Cursor :=
  c.advance (c.rest.takeWhile isBlank).length

/-- Whether nothing but blanks is left. -/
def isFinished (c : Cursor) : Bool :=
  c.skipBlanks.rest.isEmpty

/-- The next character. -/
def peek (c : Cursor) : Option Char :=
  c.rest.head?

/-- What a recognizer matches here. -/
def recognize (c : Cursor) (class_ : Recognizer) (expected : String) : Read String :=
  match class_ c.rest with
  | some n => .ok (c.ahead n, c.advance n)
  | none => .error (c.error s!"expected {expected}")

/-- What a recognizer matches here, unless a name goes on behind it. -/
def bounded (c : Cursor) (class_ : Recognizer) (expected : String) : Read String :=
  match c.recognize class_ expected with
  | .error e => .error e
  | .ok (text, next) =>
    if next.peek.any Recognizer.isNameChar then .error (c.error s!"expected {expected}")
    else .ok (text, next)

/-- A given character. -/
def char (c : Cursor) (expected : Char) : Read String :=
  c.recognize (Recognizer.mark expected) s!"'{expected}'"

/-- A given word. -/
def keyword (c : Cursor) (word : String) : Read String :=
  c.bounded (Recognizer.tag word.toList) word

/-- A name. -/
def identifier (c : Cursor) : Read String :=
  c.recognize Recognizer.identifier "an identifier"

/-- A name with its namespace. -/
def qualifiedIdentifier (c : Cursor) : Read String :=
  c.recognize Recognizer.qualifiedIdentifier "a qualified identifier"

/-- The content of a text in single quotes and the number of characters up to its closing quote. -/
def singleQuoted : List Char → List Char → Nat → Option (List Char × Nat)
  | [], _, _ => none
  | '\'' :: '\'' :: rest, found, n => singleQuoted rest ('\'' :: found) (n + 2)
  | c :: rest, found, n =>
    if c == '\'' then some (found.reverse, n + 1) else singleQuoted rest (c :: found) (n + 1)

/-- The content of a text in double quotes and the number of characters up to its closing quote. -/
def doubleQuoted : List Char → List Char → Nat → Option (List Char × Nat)
  | [], _, _ => none
  | '\\' :: c :: rest, found, n => doubleQuoted rest (c :: found) (n + 2)
  | c :: rest, found, n =>
    if c == '\\' then none
    else if c == '"' then some (found.reverse, n + 1)
    else doubleQuoted rest (c :: found) (n + 1)

/-- A text in quotes, decoded. -/
def delimited (c : Cursor) (quote : Char)
    (content : List Char → List Char → Nat → Option (List Char × Nat)) : Read String :=
  match c.char quote with
  | .error e => .error e
  | .ok _ =>
    match content (c.rest.drop 1) [] 1 with
    | some (found, n) => .ok (String.ofList found, c.advance n)
    | none => .error (c.error "unterminated string literal")

/-- A text in single quotes, where a doubled quote stands for one. -/
def quotedString (c : Cursor) : Read String :=
  c.delimited '\'' singleQuoted

/-- A phrase in double quotes, where a backslash keeps the next character as it is. -/
def doubleQuotedString (c : Cursor) : Read String :=
  c.delimited '"' doubleQuoted

/-- The kind that the spelling of a number tells: an exponent makes a double, a point a decimal. -/
def numberKind (text : List Char) : NumberKind :=
  if text.contains 'e' || text.contains 'E' then .double
  else if text.contains '.' then .decimal
  else .integer

/-- A number with its kind. -/
def number (c : Cursor) : Read (NumberKind × String) :=
  match c.bounded Recognizer.specialDouble "a number" with
  | .ok (text, next) => .ok ((.double, text), next)
  | .error _ =>
    (c.bounded Recognizer.number "a number").map fun (text, next) =>
      ((numberKind text.toList, text), next)

/-- A date. -/
def date (c : Cursor) : Read String :=
  c.bounded Recognizer.date "a date"

/-- A date with time and offset. -/
def dateTimeOffset (c : Cursor) : Read String :=
  c.bounded Recognizer.dateTimeOffset "a date-time offset"

/-- A time of day. -/
def timeOfDay (c : Cursor) : Read String :=
  c.bounded Recognizer.timeOfDay "a time of day"

/-- A globally unique identifier. -/
def guid (c : Cursor) : Read String :=
  c.bounded Recognizer.guid "a guid"

/-- The body of a duration, quoted behind its keyword. -/
def duration (c : Cursor) : Read String :=
  match c.recognize (Recognizer.tag "duration".toList) "a duration" with
  | .error e => .error e
  | .ok (_, next) => next.quotedString

/-- The name and the quoted members of an enumeration value. -/
def enumLiteral (c : Cursor) : Read (String × String) :=
  match c.qualifiedIdentifier with
  | .error e => .error e
  | .ok (name, next) =>
    if next.peek == some '\'' then
      next.quotedString.map fun (members, next) => ((name, members), next)
    else .error (c.error "expected an enumeration literal")

/-- The number of characters up to the parenthesis that closes `depth + 1` open ones. -/
def closing : List Char → Nat → Bool → Nat → Option Nat
  | [], _, _, _ => none
  | c :: rest, depth, inString, n =>
    if c == '\'' then closing rest depth (!inString) (n + 1)
    else if c == '(' && !inString then closing rest (depth + 1) inString (n + 1)
    else if c == ')' && !inString then
      match depth with
      | 0 => some n
      | depth + 1 => closing rest depth inString (n + 1)
    else closing rest depth inString (n + 1)

/-- The text inside a balanced pair of parentheses; quoted parentheses do not count. -/
def matchingParenthesis (c : Cursor) : Read String :=
  match c.char '(' with
  | .error e => .error e
  | .ok (_, next) =>
    match closing next.rest 0 false 0 with
    | some n => .ok (next.ahead n, next.advance (n + 1))
    | none => .error (c.error "unbalanced parenthesis")

/-- A bare word of a search. -/
def searchWord (c : Cursor) : Read String :=
  c.recognize Recognizer.searchWord "a search term"

end Cursor

end EdmQuery
