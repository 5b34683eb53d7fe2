import EdmQuery.Expr.Cursor

/-! The texts of expansions: navigation properties with options of their own in parentheses. -/

namespace EdmQuery

open Text

/-- A navigation property to expand, with the text of its options. -/
structure ExpandItem where
  navigation : String
  options : Option String
  deriving DecidableEq

namespace ExpandItem

/-- The item at a place. -/
def parseOne (c : Cursor) : Read ExpandItem :=
  match c.skipBlanks.identifier with
  | .error e => .error e
  | .ok (navigation, next) =>
    let next := next.skipBlanks
    if next.peek == some '(' then
      next.matchingParenthesis.map fun (text, next) => (⟨navigation, some (trim text)⟩, next)
    else .ok (⟨navigation, none⟩, next)

/-- The items from a place on; every one takes a character, which bounds their number. -/
def parseFrom : Nat → Cursor → Except ExpressionError (List ExpandItem)
  | 0, _ => .ok []
  | fuel + 1, c =>
    match parseOne c with
    | .error e => .error e
    | .ok (item, next) =>
      if next.isFinished then .ok [item]
      else
        match next.skipBlanks.char ',' with
        | .error e => .error e
        | .ok (_, next) => (parseFrom fuel next).map (item :: ·)

end ExpandItem

/-- The expansions that a text writes. -/
def parseExpand (input : String) : Except ExpressionError (List ExpandItem) :=
  ExpandItem.parseFrom (input.length + 1) (.start input)

/-- A piece of nested options and the byte offset where it starts. -/
structure OptionPiece where
  offset : Nat
  chars : List Char
  deriving DecidableEq

/-- The pieces between semicolons that stand outside of quotes and parentheses. -/
def splitPieces (offset start : Nat) (piece : List Char) (depth : Nat) (inString : Bool) :
    List Char → List OptionPiece
  | [] => [⟨start, piece.reverse⟩]
  | c :: rest =>
    let next := offset + c.utf8Size
    if c == '\'' then splitPieces next start (c :: piece) depth (!inString) rest
    else if inString then splitPieces next start (c :: piece) depth inString rest
    else if c == '(' then splitPieces next start (c :: piece) (depth + 1) inString rest
    else if c == ')' then splitPieces next start (c :: piece) (depth - 1) inString rest
    else if c == ';' && depth == 0 then
      ⟨start, piece.reverse⟩ :: splitPieces next next [] depth inString rest
    else splitPieces next start (c :: piece) depth inString rest

/-- The name and the value of an option. -/
def OptionPiece.toPair (text : String) (p : OptionPiece) :
    Except ExpressionError (String × String) :=
  match splitOnce '=' (String.ofList p.chars) with
  | none => .error (.at_ text p.offset "expected `$option=value`")
  | some (name, value) => .ok (trim name, trim value)

/-- The names and values of the options that a text lists with semicolons between them. -/
def splitNestedOptions (text : String) : Except ExpressionError (List (String × String)) :=
  let pieces := splitPieces 0 0 [] 0 false text.toList
  (pieces.filter fun p => !(trimChars p.chars).isEmpty).mapM (·.toPair text)

end EdmQuery
