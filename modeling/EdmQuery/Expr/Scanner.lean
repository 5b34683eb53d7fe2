import EdmQuery.Expr.Token

/-! The readers of option texts as steps over one text, which move a byte offset in it. -/

namespace EdmQuery

open Text

/-- A text and the byte offset up to which it is read. -/
structure Scanner where
  text : String
  offset : Nat
  deriving DecidableEq

namespace Scanner

/-- The start of a text. -/
def start (text : String) : Scanner :=
  ⟨text, 0⟩

/-- The characters from the offset on. -/
def rest (s : Scanner) : List Char :=
  ExpressionError.charsFrom s.text.toList s.offset

/-- The place in the text. -/
def cursor (s : Scanner) : Cursor :=
  ⟨s.offset, s.rest⟩

/-- The offset behind so many characters. -/
def advance (s : Scanner) (n : Nat) : Scanner :=
  { s with offset := s.offset + byteLength (s.rest.take n) }

/-- The next character. -/
def peek (s : Scanner) : Option Char :=
  s.rest.head?

/-- A step of reading: it moves the offset also when it is refused, unless it moves it back. -/
abbrev Reader (α : Type) := ExceptT ExpressionError (StateM Scanner) α

/-- What a step finds or why it is refused, and where it leaves off. -/
def Reader.outcome {α : Type} (reader : Reader α) (s : Scanner) :
    Except ExpressionError α × Scanner :=
  reader.run.run s

variable {α : Type}

/-- A refusal at the offset. -/
def refuse (message : String) : Reader α := do
  let s ← get
  throw (.at_ s.text s.offset message)

/-- What a step finds, none with the offset moved back where it is refused. -/
def attempt (reader : Reader α) : Reader (Option α) := do
  let start ← get
  tryCatch (some <$> reader) fun _ => do
    set start
    return none

/-- A step after which a refusal moves the offset back to an earlier one. -/
def orReturnTo (start : Scanner) (reader : Reader α) : Reader α :=
  tryCatch reader fun e => do
    set start
    throw e

/-- The blanks. -/
def skipBlanks : Reader Unit :=
  modify fun s => s.advance (s.rest.takeWhile isBlank).length

/-- Whether nothing but blanks is left. -/
def isFinished : Reader Bool := do
  skipBlanks
  return (← get).rest.isEmpty

/-- What a recognizer matches. -/
def recognize (class_ : Recognizer) (expected : String) : Reader String := do
  let s ← get
  match class_ s.rest with
  | some n =>
    set (s.advance n)
    return String.ofList (s.rest.take n)
  | none => refuse s!"expected {expected}"

/-- What a recognizer matches, unless a name goes on behind it. -/
def bounded (class_ : Recognizer) (expected : String) : Reader String := do
  let start ← get
  let text ← recognize class_ expected
  if (← get).peek.any Recognizer.isNameChar then
    set start
    refuse s!"expected {expected}"
  else
    return text

/-- A given character. -/
def char (expected : Char) : Reader String :=
  recognize (Recognizer.mark expected) s!"'{expected}'"

/-- A given word. -/
def keyword (word : String) : Reader String :=
  bounded (Recognizer.tag word.toList) word

/-- A name. -/
def identifier : Reader String :=
  recognize Recognizer.identifier "an identifier"

/-- A name with its namespace. -/
def qualifiedIdentifier : Reader String :=
  recognize Recognizer.qualifiedIdentifier "a qualified identifier"

/-- A text in quotes, decoded. -/
def delimited (quote : Char)
    (content : List Char → List Char → Nat → Option (List Char × Nat)) : Reader String := do
  let start ← get
  let _ ← char quote
  let inner ← get
  match content inner.rest [] 0 with
  | some (found, n) =>
    set (inner.advance n)
    return String.ofList found
  | none =>
    set start
    refuse "unterminated string literal"

/-- A text in single quotes, where a doubled quote stands for one. -/
def quotedString : Reader String :=
  delimited '\'' Cursor.singleQuoted

/-- A phrase in double quotes, where a backslash keeps the next character as it is. -/
def doubleQuotedString : Reader String :=
  delimited '"' Cursor.doubleQuoted

/-- A number with its kind. -/
def number : Reader (NumberKind × String) := do
  match ← attempt (bounded Recognizer.specialDouble "a number") with
  | some text => return (.double, text)
  | none =>
    let text ← bounded Recognizer.number "a number"
    return (Cursor.numberKind text.toList, text)

/-- A date. -/
def date : Reader String :=
  bounded Recognizer.date "a date"

/-- A date with time and offset. -/
def dateTimeOffset : Reader String :=
  bounded Recognizer.dateTimeOffset "a date-time offset"

/-- A time of day. -/
def timeOfDay : Reader String :=
  bounded Recognizer.timeOfDay "a time of day"

/-- A globally unique identifier. -/
def guid : Reader String :=
  bounded Recognizer.guid "a guid"

/-- The body of a duration, quoted behind its keyword. -/
def duration : Reader String := do
  let start ← get
  let _ ← recognize (Recognizer.tag "duration".toList) "a duration"
  orReturnTo start quotedString

/-- The name and the quoted members of an enumeration value. -/
def enumLiteral : Reader (String × String) := do
  let start ← get
  let name ← qualifiedIdentifier
  if (← get).peek == some '\'' then
    let members ← orReturnTo start quotedString
    return (name, members)
  else
    set start
    refuse "expected an enumeration literal"

/-- The text inside a balanced pair of parentheses; quoted parentheses do not count. -/
def matchingParenthesis : Reader String := do
  let start ← get
  let _ ← char '('
  let inner ← get
  match Cursor.closing inner.rest 0 false 0 with
  | some n =>
    set (inner.advance (n + 1))
    return String.ofList (inner.rest.take n)
  | none =>
    set start
    refuse "unbalanced parenthesis"

/-- A bare word of a search. -/
def searchWord : Reader String :=
  recognize Recognizer.searchWord "a search term"

/-- The next token, none at the end of the text; a refused one leaves the blanks before it read. -/
def nextToken : Reader (Option Token) := do
  skipBlanks
  let s ← get
  match s.cursor.nextToken with
  | .ok (token, next) =>
    set { s with offset := next.offset }
    return token
  | .error e => throw e

end Scanner

end EdmQuery
