import EdmQuery.Data.Node

/-! Configuration texts: block and flow collections of plain and quoted scalars, with comments. -/

namespace EdmQuery.Yaml

open Text

/-- A place in a text: the column in its line and the characters from there on. -/
structure Place where
  column : Nat
  rest : List Char

/-- A blank inside a line. -/
def isSpace (c : Char) : Bool :=
  c == ' ' || c == '\t'

/-- A character that structures flow collections. -/
def isFlowMark (c : Char) : Bool :=
  c == ',' || c == '[' || c == ']' || c == '\x7b' || c == '\x7d'

/-- Whether a mark counts here: it does in front of a blank or at the end of the text. -/
def isSetOff : List Char → Bool
  | [] => true
  | c :: _ => isSpace c || c == '\n'

/-- The characters without trailing blanks. -/
def trimSpaces (chars : List Char) : List Char :=
  (chars.reverse.dropWhile isSpace).reverse

namespace Place

/-- The place so many characters further on, all of them in one line. -/
def advance (p : Place) (n : Nat) : Place :=
  ⟨p.column + n, p.rest.drop n⟩

/-- The place behind blanks, line ends and comments, and the number of line ends among them. -/
def skipFrom (flow tabs comment : Bool) (breaks column : Nat) : List Char → Nat × Place
  | [] => (breaks, ⟨column, []⟩)
  | c :: rest =>
    -- Where a line of the block structure starts, a tab is no blank.
    if c == '\n' then skipFrom flow flow false (breaks + 1) 0 rest
    else if comment then skipFrom flow tabs true breaks (column + 1) rest
    else if c == ' ' || (c == '\t' && tabs) then skipFrom flow tabs false breaks (column + 1) rest
    else if c == '#' then skipFrom flow tabs true breaks (column + 1) rest
    else (breaks, ⟨column, c :: rest⟩)

/-- The place of the next content behind a value or a key, and the number of lines up to it. -/
def skip (p : Place) : Nat × Place :=
  skipFrom false true false 0 p.column p.rest

/-- The place of the next content. -/
def next (p : Place) : Place :=
  p.skip.2

/-- The place of the next content where a line may start. -/
def nextEntry (p : Place) : Place :=
  (skipFrom false false false 0 p.column p.rest).2

/-- The place of the next content of a flow collection. -/
def nextInFlow (p : Place) : Place :=
  (skipFrom true true false 0 p.column p.rest).2

/-- The place behind blanks in the same line. -/
def skipSpaces (p : Place) : Place :=
  p.advance (p.rest.takeWhile isSpace).length

/-- The place behind blanks and line ends, and the number of line ends among them. -/
def skipLines (breaks column : Nat) : List Char → Nat × Place
  | [] => (breaks, ⟨column, []⟩)
  | c :: rest =>
    if c == '\n' then skipLines (breaks + 1) 0 rest
    else if isSpace c then skipLines breaks (column + 1) rest
    else (breaks, ⟨column, c :: rest⟩)

/-- Whether an item of a block sequence starts here. -/
def isDash (p : Place) : Bool :=
  match p.rest with
  | '-' :: rest => isSetOff rest
  | _ => false

/-- Whether a value follows here in a block mapping. -/
def isColon (p : Place) : Bool :=
  match p.rest with
  | ':' :: rest => isSetOff rest
  | _ => false

/-- Whether a line between documents starts here. -/
def isDivider (p : Place) (mark : Char) : Bool :=
  match p.rest with
  | a :: b :: c :: rest => p.column == 0 && a == mark && b == mark && c == mark && isSetOff rest
  | _ => false

end Place

/-- The characters of a plain scalar in one line, where `fresh` tells that a blank comes before. -/
def plainLine (flow fresh : Bool) : List Char → List Char
  | [] => []
  | c :: rest =>
    if c == '\n' || (c == '#' && fresh) then []
    else if flow && isFlowMark c then []
    else if c == ':' && (isSetOff rest || (flow && rest.head?.any isFlowMark)) then []
    else c :: plainLine flow (isSpace c) rest

/-- The characters that start something else than a plain scalar. -/
def indicators : List Char :=
  [',', '[', ']', '\x7b', '\x7d', '#', '&', '*', '!', '|', '>', '\'', '"', '%', '@',
    Char.ofNat 96]

/-- Whether a plain scalar may start with these characters. -/
def startsPlain (flow : Bool) : List Char → Bool
  | [] => false
  | c :: rest =>
    if c == '-' then !isSetOff rest
    else if c == '?' || c == ':' then !flow && !isSetOff rest
    else !(isSpace c || c == '\n' || indicators.contains c)

/-- Whether a colon touches the mark behind it, which leaves open what it belongs to. -/
def isBareColon : List Char → Bool
  | ':' :: c :: _ => isFlowMark c
  | _ => false

/-- The blanks that stand for line ends inside a scalar: one end is a blank, more are line ends. -/
def folded (breaks : Nat) : List Char :=
  if breaks ≤ 1 then [' '] else List.replicate (breaks - 1) '\n'

/-- The lines that go on with a plain scalar, which have to be indented by `least` at least. -/
def plainRest (flow : Bool) (least : Nat) : Nat → Place → List Char × Place
  | 0, p => ([], p)
  | fuel + 1, p =>
    let (breaks, next) := Place.skipLines 0 p.column p.rest
    let line := trimSpaces (plainLine flow true next.rest)
    if breaks == 0 || next.column < least || line.isEmpty || next.isDivider '-' ||
        next.isDivider '.' then ([], p)
    else
      let (more, last) := plainRest flow least fuel (next.advance line.length)
      (folded breaks ++ line ++ more, last)

/-- A plain scalar. -/
def plainScalar (flow : Bool) (least : Nat) (p : Place) : Option (Node × Place) :=
  let line := plainLine flow false p.rest
  if !startsPlain flow p.rest || (flow && isBareColon (p.rest.drop line.length)) then none
  else
    let text := trimSpaces line
    let (more, last) := plainRest flow least p.rest.length (p.advance text.length)
    some (.plain (String.ofList (text ++ more)), last)

/-- The character that so many hexadecimal digits name. -/
def hexChar (count : Nat) (chars : List Char) : Option Char :=
  let digits := chars.take count
  if digits.length == count && digits.all isHexDigit then
    let code := digits.foldl (fun n c => n * 16 + digitValue c) 0
    if Nat.isValidChar code then some (Char.ofNat code) else none
  else none

/-- The character that an escape stands for, and the number of characters behind the backslash. -/
def escape? : List Char → Option (Char × Nat)
  | [] => none
  | c :: rest =>
    if c == 'x' then (hexChar 2 rest).map (·, 3)
    else if c == 'u' then (hexChar 4 rest).map (·, 5)
    else if c == 'U' then (hexChar 8 rest).map (·, 9)
    else
      let codes : List (Char × Nat) :=
        [('0', 0), ('a', 7), ('b', 8), ('t', 9), ('\t', 9), ('n', 10), ('v', 11), ('f', 12),
          ('r', 13), ('e', 27), (' ', 32), ('"', 34), ('/', 47), ('\\', 92), ('N', 0x85),
          ('_', 0xa0), ('L', 0x2028), ('P', 0x2029)]
      (codes.lookup c).map fun code => (Char.ofNat code, 1)

/-- The content of a quoted scalar, held last character first, up to its closing quote. -/
def quotedRest (quote : Char) : Nat → List Char → Place → Option (String × Place)
  | 0, _, _ => none
  | fuel + 1, found, p =>
    match p.rest with
    | [] => none
    | c :: rest =>
      if c == quote then
        if quote == '\'' && rest.head? == some '\'' then
          quotedRest quote fuel ('\'' :: found) (p.advance 2)
        else some (String.ofList found.reverse, p.advance 1)
      else if c == '\\' && quote == '"' then
        if rest.head? == some '\n' then
          quotedRest quote fuel found (Place.skipSpaces ⟨0, rest.drop 1⟩)
        else
          match escape? rest with
          | none => none
          | some (e, n) => quotedRest quote fuel (e :: found) (p.advance (n + 1))
      else if c == '\n' then
        -- Blanks around a line end are not part of the content.
        let before := found.dropWhile isSpace
        let blanks := rest.takeWhile fun d => isSpace d || d == '\n'
        let breaks := blanks.count '\n' + 1
        quotedRest quote fuel ((folded breaks).reverse ++ before)
          ⟨(blanks.reverse.takeWhile (· != '\n')).length, rest.drop blanks.length⟩
      else quotedRest quote fuel (c :: found) (p.advance 1)

/-- A quoted scalar, if one starts here. -/
def quotedScalar (p : Place) : Option (Node × Place) :=
  match p.rest with
  | c :: rest =>
    if c == '\'' || c == '"' then
      (quotedRest c (rest.length + 1) [] (p.advance 1)).map fun (text, last) => (.text text, last)
    else none
  | [] => none

/-- Whether a flow collection goes on without a value here. -/
def isNoValue (p : Place) : Bool :=
  p.rest.head?.any fun c => c == ',' || c == ']' || c == '\x7d'

mutual

/-- A value of a flow collection. -/
def flowNode : Nat → Place → Option (Node × Place)
  | 0, _ => none
  | fuel + 1, p =>
    match p.rest with
    | '[' :: _ => flowItems fuel (p.advance 1).nextInFlow
    | '\x7b' :: _ => flowFields fuel (p.advance 1).nextInFlow
    | c :: _ => if c == '\'' || c == '"' then quotedScalar p else plainScalar true 0 p
    | [] => none

/-- The value behind a key of a flow collection; there may be none. -/
def flowValue : Nat → Place → Option (Node × Place)
  | 0, _ => none
  | fuel + 1, p =>
    match p.rest with
    | ':' :: _ =>
      let p := (p.advance 1).nextInFlow
      if isNoValue p then some (.plain "", p) else flowNode fuel p
    | _ => some (.plain "", p)

/-- The items of a flow sequence up to its closing bracket. -/
def flowItems : Nat → Place → Option (Node × Place)
  | 0, _ => none
  | fuel + 1, p =>
    match p.rest with
    | ']' :: _ => some (.list [], p.advance 1)
    | _ => do
      let (first, p) ← flowNode fuel p
      let p := p.nextInFlow
      -- A key and a value in a sequence are a mapping of their own.
      let (item, p) ←
        if p.rest.head? == some ':' then do
          let name ← first.text?
          let (value, p) ← flowValue fuel p
          pure (Node.map [(name, value)], p)
        else pure (first, p)
      let p := p.nextInFlow
      match p.rest with
      | ',' :: _ =>
        match ← flowItems fuel (p.advance 1).nextInFlow with
        | (.list items, p) => some (.list (item :: items), p)
        | _ => none
      | ']' :: _ => some (.list [item], p.advance 1)
      | _ => none

/-- The fields of a flow mapping up to its closing brace. -/
def flowFields : Nat → Place → Option (Node × Place)
  | 0, _ => none
  | fuel + 1, p =>
    match p.rest with
    | '\x7d' :: _ => some (.map [], p.advance 1)
    | _ => do
      let (key, p) ← flowNode fuel p
      let name ← key.text?
      let (value, p) ← flowValue fuel p.nextInFlow
      let p := p.nextInFlow
      match p.rest with
      | ',' :: _ =>
        match ← flowFields fuel (p.advance 1).nextInFlow with
        | (.map fields, p) => some (.map ((name, value) :: fields), p)
        | _ => none
      | '\x7d' :: _ => some (.map [(name, value)], p.advance 1)
      | _ => none

end

/-- The key of a block mapping in one line, if one starts here. -/
def key? (p : Place) : Option (String × Place) :=
  let scalar : Option (Node × Place) :=
    match p.rest with
    | [] => none
    | c :: _ =>
      if c == '\'' || c == '"' then quotedScalar p
      else if startsPlain false p.rest then
        let line := trimSpaces (plainLine false false p.rest)
        some (.plain (String.ofList line), p.advance line.length)
      else none
  match scalar with
  | none => none
  | some (node, last) =>
    let colon := last.skipSpaces
    if colon.isColon then node.text?.map fun name => (name, colon.advance 1) else none

/-- A scalar or a flow collection; lines that go on with a scalar are indented by `least`. -/
def inlineNode (least : Nat) (p : Place) : Option (Node × Place) :=
  match p.rest with
  | [] => none
  | c :: _ =>
    if c == '\'' || c == '"' then quotedScalar p
    else if c == '[' || c == '\x7b' then flowNode (2 * p.rest.length + 2) p
    else plainScalar false least p

mutual

/-- A value that starts at its own place in the block structure. -/
def blockNode : Nat → Nat → Place → Option (Node × Place)
  | 0, _, _ => none
  | fuel + 1, least, p =>
    if p.isDash then blockItems fuel p.column p
    else if (key? p).isSome then blockFields fuel p.column p
    else inlineNode least p

/-- The items of a block sequence whose dashes stand in a column. -/
def blockItems : Nat → Nat → Place → Option (Node × Place)
  | 0, _, _ => none
  | fuel + 1, column, p => do
    let inner := (p.advance 1).nextEntry
    let (item, last) ←
      if inner.rest.isEmpty || inner.column ≤ column then some (Node.plain "", p.advance 1)
      else blockNode fuel (column + 1) inner
    let following := last.next
    if following.column == column && following.isDash && !following.rest.isEmpty then
      match ← blockItems fuel column following with
      | (.list items, last) => some (.list (item :: items), last)
      | _ => none
    else some (.list [item], last)

/-- The fields of a block mapping whose keys stand in a column. -/
def blockFields : Nat → Nat → Place → Option (Node × Place)
  | 0, _, _ => none
  | fuel + 1, column, p => do
    let (name, p) ← key? p
    let (breaks, inner) := p.skip
    let (value, last) ←
      -- A sequence under a key may stand in the column of the key.
      if inner.rest.isEmpty || inner.column < column ||
          (inner.column == column && !inner.isDash) then
        some (Node.plain "", p)
      else if breaks == 0 then inlineNode (column + 1) inner
      else blockNode fuel (column + 1) inner
    let (breaks, following) := last.skip
    if !following.rest.isEmpty && following.column == column && 0 < breaks && !following.isDash &&
        !following.isDivider '.' then
      match ← blockFields fuel column following with
      | (.map fields, last) => some (.map ((name, value) :: fields), last)
      | _ => none
    else some (.map [(name, value)], last)

end

/-- Whether a text may hold a character at all. -/
def isAllowed (c : Char) : Bool :=
  let code := c.toNat
  code == 9 || code == 10 || (32 ≤ code && code < 127) || code == 0x85 || 0xa0 ≤ code

/-- The characters of a text, in which every line ends in the same way. -/
def normalizeLines : List Char → List Char
  | '\r' :: '\n' :: rest => '\n' :: normalizeLines rest
  | c :: rest => (if c == '\r' then '\n' else c) :: normalizeLines rest
  | [] => []

/-- The document that a text holds; one without content holds an empty scalar. -/
def parse (text : String) : Option Node :=
  let chars := normalizeLines text.toList
  let start := (Place.mk 0 chars).nextEntry
  let start := if start.isDivider '-' then (start.advance 3).next else start
  if !chars.all isAllowed then none
  else if start.rest.isEmpty then some (.plain "")
  else
    match blockNode (2 * chars.length + 2) 0 start with
    | none => none
    | some (node, last) =>
      let last := last.next
      let last := if last.isDivider '.' then (last.advance 3).next else last
      if last.rest.isEmpty then some node else none

end EdmQuery.Yaml
