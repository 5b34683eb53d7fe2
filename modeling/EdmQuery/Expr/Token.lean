import EdmQuery.Expr.Cursor

/-! The tokens of filter expressions. -/

namespace EdmQuery

open Text

/-- The kinds of tokens. -/
inductive TokenKind where
  | identifier
  | string
  | integer
  | decimal
  | double
  | boolean
  | null
  | date
  | dateTimeOffset
  | timeOfDay
  | duration
  | guid
  | enum
  | openParen
  | closeParen
  | comma
  | slash
  | colon
  | minus
  deriving DecidableEq

/-- A token; the text of a string or duration is its content, that of another its spelling. -/
structure Token where
  kind : TokenKind
  text : String
  position : Nat
  deriving DecidableEq

/-- The kind of token that a number is. -/
def NumberKind.token : NumberKind → TokenKind
  | .integer => .integer
  | .decimal => .decimal
  | .double => .double

/-- The kind of token that a character is on its own. -/
def TokenKind.punctuation? (c : Char) : Option TokenKind :=
  if c == '(' then some .openParen
  else if c == ')' then some .closeParen
  else if c == ',' then some .comma
  else if c == '/' then some .slash
  else if c == ':' then some .colon
  else none

namespace Cursor

/-- An attempt to read a token of a kind, none where it is not there. -/
def tokenOf (c : Cursor) (kind : TokenKind) (read : Read String) : Option (Token × Cursor) :=
  match read with
  | .ok (text, next) => some (⟨kind, text, c.offset⟩, next)
  | .error _ => none

/-- An enumeration value with its spelling. -/
def enumSpelling (c : Cursor) : Read String :=
  c.enumLiteral.map fun (_, next) =>
    (String.ofList (c.rest.take (c.rest.length - next.rest.length)), next)

/-- A token that is neither punctuation nor text: of several readings the first counts. -/
def wordToken (c : Cursor) (first : Char) : Option (Token × Cursor) :=
  let number : Option (Token × Cursor) :=
    match c.number with
    | .ok ((kind, text), next) => some (⟨kind.token, text, c.offset⟩, next)
    | .error _ => none
  (c.tokenOf .guid c.guid).orElse fun _ =>
  (c.tokenOf .dateTimeOffset c.dateTimeOffset).orElse fun _ =>
  (c.tokenOf .date c.date).orElse fun _ =>
  (c.tokenOf .timeOfDay c.timeOfDay).orElse fun _ =>
  number.orElse fun _ =>
  -- A minus that belongs to no number is an operator.
  if first == '-' then some (⟨.minus, "-", c.offset⟩, c.advance 1) else
  (c.tokenOf .duration c.duration).orElse fun _ =>
  (c.tokenOf .boolean (c.keyword "true")).orElse fun _ =>
  (c.tokenOf .boolean (c.keyword "false")).orElse fun _ =>
  (c.tokenOf .null (c.keyword "null")).orElse fun _ =>
  (c.tokenOf .enum c.enumSpelling).orElse fun _ =>
  c.tokenOf .identifier c.qualifiedIdentifier

/-- The token that starts here with the given character. -/
def tokenFrom (c : Cursor) (first : Char) : Read Token :=
  match TokenKind.punctuation? first with
  | some kind => .ok (⟨kind, first.toString, c.offset⟩, c.advance 1)
  | none =>
    if first == '\'' then
      c.quotedString.map fun (text, next) => (⟨.string, text, c.offset⟩, next)
    else
      match c.wordToken first with
      | some found => .ok found
      | none => .error (c.error s!"unexpected character '{first}'")

/-- The next token after blanks, none at the end of the text. -/
def nextToken (c : Cursor) : Read (Option Token) :=
  let c := c.skipBlanks
  match c.peek with
  | none => .ok (none, c)
  | some first => (c.tokenFrom first).map fun (token, next) => (some token, next)

/-- The tokens from here on, at most one per unit of fuel. -/
def tokensUpTo : Nat → Cursor → Except ExpressionError (List Token)
  | 0, _ => .ok []
  | fuel + 1, c =>
    match c.nextToken with
    | .error e => .error e
    | .ok (none, _) => .ok []
    | .ok (some token, next) => (tokensUpTo fuel next).map (token :: ·)

end Cursor

/-- The tokens of a text; every token takes a character, so its length bounds their number. -/
def tokenize (input : String) : Except ExpressionError (List Token) :=
  (Cursor.start input).tokensUpTo (input.length + 1)

end EdmQuery
