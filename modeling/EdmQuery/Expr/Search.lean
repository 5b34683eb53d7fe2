import EdmQuery.Edm.Entity
import EdmQuery.Config
import EdmQuery.Expr.Cursor
import EdmQuery.Text.Case

/-! Searches: terms joined by `AND`, `OR` and `NOT`, with `AND` between terms side by side. -/

namespace EdmQuery

open Text

/-- A search. -/
inductive Search where
  | term (text : String)
  | and (left right : Search)
  | or (left right : Search)
  | not (operand : Search)
  deriving DecidableEq

namespace Search

/-- The words that join terms. -/
def operators : List String :=
  ["AND", "OR", "NOT"]

/-- The place behind an operator, if it comes next after blanks. -/
def behind? (c : Cursor) (operator : String) : Option Cursor :=
  match c.skipBlanks.keyword operator with
  | .ok (_, next) => some next
  | .error _ => none

/-- Whether a group or the whole text ends here. -/
def endsHere (c : Cursor) : Bool :=
  match c.skipBlanks.peek with
  | none => true
  | some next => next == ')'

mutual

/-- Conjunctions joined by `OR`. -/
def parseOr (limit : Nat) : Nat → Nat → Cursor → Read Search
  | 0, _, _ => .error (.tooDeep limit)
  | fuel + 1, depth, c =>
    match parseAnd limit fuel depth c with
    | .error e => .error e
    | .ok (left, next) => parseOrRest limit fuel depth left next

/-- The conjunctions that follow with an `OR` in front of each. -/
def parseOrRest (limit : Nat) : Nat → Nat → Search → Cursor → Read Search
  | 0, _, _, _ => .error (.tooDeep limit)
  | fuel + 1, depth, left, c =>
    match behind? c "OR" with
    | none => .ok (left, c.skipBlanks)
    | some next =>
      match parseAnd limit fuel depth next with
      | .error e => .error e
      | .ok (right, next) => parseOrRest limit fuel depth (.or left right) next

/-- Operands joined by `AND` or standing side by side. -/
def parseAnd (limit : Nat) : Nat → Nat → Cursor → Read Search
  | 0, _, _ => .error (.tooDeep limit)
  | fuel + 1, depth, c =>
    match parseOperand limit fuel depth c with
    | .error e => .error e
    | .ok (left, next) => parseAndRest limit fuel depth left next

/-- The operands that follow in a conjunction. -/
def parseAndRest (limit : Nat) : Nat → Nat → Search → Cursor → Read Search
  | 0, _, _, _ => .error (.tooDeep limit)
  | fuel + 1, depth, left, c =>
    if endsHere c || (behind? c "OR").isSome then .ok (left, c.skipBlanks)
    else
      match parseOperand limit fuel depth ((behind? c "AND").getD c.skipBlanks) with
      | .error e => .error e
      | .ok (right, next) => parseAndRest limit fuel depth (.and left right) next

/-- A term or a group, with any number of `NOT` in front. -/
def parseOperand (limit : Nat) : Nat → Nat → Cursor → Read Search
  | 0, _, _ => .error (.tooDeep limit)
  | fuel + 1, depth, c =>
    if limit < depth + 1 then .error (.tooDeep limit)
    else
      match behind? c "NOT" with
      | some next =>
        (parseOperand limit fuel (depth + 1) next).map fun (x, next) => (.not x, next)
      | none => parsePrimary limit fuel (depth + 1) c.skipBlanks

/-- A word, a phrase in double quotes or a group in parentheses. -/
def parsePrimary (limit : Nat) : Nat → Nat → Cursor → Read Search
  | 0, _, _ => .error (.tooDeep limit)
  | fuel + 1, depth, c =>
    match c.peek with
    | none => .error (c.error "expected a search term")
    | some '(' =>
      match parseOr limit fuel depth (c.advance 1) with
      | .error e => .error e
      | .ok (x, next) => (next.skipBlanks.char ')').map fun (_, next) => (x, next)
    | some '"' => c.doubleQuotedString.map fun (text, next) => (.term text, next)
    | some _ =>
      if operators.any fun operator => (behind? c operator).isSome then
        .error (c.error "expected a search term")
      else c.searchWord.map fun (text, next) => (.term text, next)

end

/-- Enough fuel for a text: no character is behind more than eight calls that take none. -/
def parseFuel (input : String) : Nat :=
  8 * (input.length + 2)

/-- The search of words that a text writes. -/
def parseWords (limit : Nat) (input : String) : Except ExpressionError Search :=
  match parseOr limit (parseFuel input) 0 (.start input) with
  | .error e => .error e
  | .ok (x, next) =>
    if next.isFinished then .ok x
    else .error (next.skipBlanks.error "unexpected input in search expression")

/-- A phrase, which may stand in double quotes. -/
def phrase (chars : List Char) : Search :=
  match chars with
  | '"' :: rest =>
    if rest.getLast? == some '"' then .term (String.ofList rest.dropLast)
    else .term (String.ofList chars)
  | _ => .term (String.ofList chars)

/-- The search that a text writes. -/
def parse (config : Config) (input : String) : Except ExpressionError Search :=
  let trimmed := trimChars input.toList
  if trimmed.isEmpty then .error (.at_ input 0 "empty search expression")
  else
    match config.tokenization with
    | .phrase => .ok (phrase trimmed)
    | .words => parseWords config.maxDepth input

/-- A text as it is compared: in lower case unless cases count. -/
def folded (caseSensitive : Bool) (text : String) : String :=
  if caseSensitive then text else lower text

/-- Whether a term occurs in a searchable property of an entity. -/
def termMatches (caseSensitive : Bool) (e : Entity) (text : String) : Bool :=
  let part := folded caseSensitive text
  e.type.searchable.any fun p =>
    match e.get? p.name with
    | some (.string whole) => occurs part (folded caseSensitive whole)
    | _ => false

/-- Whether a search holds for an entity. -/
def matches_ (caseSensitive : Bool) (e : Entity) : Search → Bool
  | term text => termMatches caseSensitive e text
  | and l r => l.matches_ caseSensitive e && r.matches_ caseSensitive e
  | or l r => l.matches_ caseSensitive e || r.matches_ caseSensitive e
  | not x => !x.matches_ caseSensitive e

/-- Whether a term can do without quotes. -/
def isBare (text : String) : Bool :=
  text != "" && !operators.contains text &&
    text.toList.all fun c => !(isBlank c || ['(', ')', '"', '\''].contains c)

/-- The characters of a phrase with a backslash before each quote and backslash. -/
def escaped (chars : List Char) : List Char :=
  chars.flatMap fun c => if c == '\\' || c == '"' then ['\\', c] else [c]

/-- The text of a search, with parentheses around every conjunction and disjunction. -/
def toText : Search → String
  | term text =>
    if isBare text then text else "\"" ++ String.ofList (escaped text.toList) ++ "\""
  | and l r => "(" ++ l.toText ++ " AND " ++ r.toText ++ ")"
  | or l r => "(" ++ l.toText ++ " OR " ++ r.toText ++ ")"
  | not x => "NOT " ++ x.toText

end Search

end EdmQuery
