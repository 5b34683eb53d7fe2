import EdmQuery.Expr.Literal
import EdmQuery.Expr.Tree

/-! Filters read from their text: precedence climbing, with types checked on the way. -/

namespace EdmQuery

open Text

/-- An entity set and its type, against which member paths are resolved. -/
structure Frame where
  set : String
  type : EntityType
  deriving DecidableEq

/-- What a lambda variable stands for. -/
inductive Binder where
  | entity (name : String) (target : Frame)
  | element (name : String) (type : PrimitiveType)
  deriving DecidableEq

/-- The name of a lambda variable. -/
def Binder.name : Binder → String
  | entity name _ => name
  | element name _ => name

/-- What a whole filter is read against. -/
structure FilterContext where
  model : Model
  input : String
  root : Frame

/-- What was read together with the tokens behind it. -/
abbrev Parsed (α : Type) := Except ExpressionError (α × List Token)

namespace FilterContext

/-- A syntax error at a byte offset. -/
def errorAt (c : FilterContext) (offset : Nat) (message : String) : ExpressionError :=
  .at_ c.input offset message

/-- A syntax error at the next token, or at the end of the text. -/
def errorHere (c : FilterContext) (tokens : List Token) (message : String) : ExpressionError :=
  c.errorAt ((tokens.head?.map (·.position)).getD (byteLength c.input.toList)) message

/-- The next token, if it is of a kind. -/
def expect (c : FilterContext) (kind : TokenKind) (what : String) (tokens : List Token) :
    Parsed Token :=
  match tokens with
  | t :: rest =>
    if t.kind == kind then .ok (t, rest) else .error (c.errorHere tokens s!"expected {what}")
  | [] => .error (c.errorHere tokens s!"expected {what}")

/-- The next token, if it is a name. -/
def expectName (c : FilterContext) (tokens : List Token) : Parsed Token :=
  c.expect .identifier "an identifier" tokens

/-- Where a name without a path belongs: to the innermost entity variable, or else to the root. -/
def implicitFrame (c : FilterContext) : List Binder → Scope × Frame
  | [] => (.root, c.root)
  | .entity name target :: _ => (.bound name, target)
  | .element _ _ :: rest => c.implicitFrame rest

end FilterContext

namespace Expression

/-- An operation that denies a truth value. -/
def mkNot (x : Expression) : Except ExpressionError Expression :=
  if x.type.isBoolean then .ok (.not x)
  else .error (.typeMismatch "not" x.type.name "Edm.Boolean")

/-- Whether values of a type have an opposite. -/
def isNegatable : StaticType → Bool
  | .null => true
  | .primitive type => type.isNumeric || type == .duration
  | .collection _ => false

/-- An operation that takes the opposite of a number or a duration. -/
def mkNegate (x : Expression) : Except ExpressionError Expression :=
  if isNegatable x.type then .ok (.negate x)
  else .error (.typeMismatch "-" x.type.name "numeric")

/-- Whether an arithmetic operator takes operands of a type. -/
def isOperand (op : BinaryOp) : StaticType → Bool
  | .null => true
  | .primitive type => type.isNumeric && (op != .mod || type.isIntegral)
  | .collection _ => false

/-- Whether an operator takes operands of two types. -/
def fits (op : BinaryOp) (left right : StaticType) : Bool :=
  if op.isLogical then left.isBoolean && right.isBoolean
  else if op.isEquality || op.isRelational then left.comparable right
  else if op == .has then
    match left, right with
    | .primitive (.enum a), .primitive (.enum b) => a.name == b.name
    | .null, .primitive (.enum _) => true
    | _, _ => false
  else isOperand op left && isOperand op right

/-- An operation on two operands. -/
def mkBinary (op : BinaryOp) (left right : Expression) : Except ExpressionError Expression :=
  if fits op left.type right.type then .ok (.binary op left right)
  else .error (.typeMismatch op.keyword left.type.name right.type.name)

/-- A function call; a pattern that is known beforehand has to be a regular expression. -/
def mkCall (c : FilterContext) (position : Nat) (f : BuiltIn) (arguments : List Expression) :
    Except ExpressionError Expression :=
  match f.check (arguments.map Expression.type) with
  | .error e => .error e
  | .ok type =>
    match f, arguments with
    | .matchesPattern, _ :: .literal (.string pattern) :: _ =>
      if (Pattern.parse pattern).isSome then .ok (.call f arguments type)
      else .error (c.errorAt position "invalid pattern")
    | _, _ => .ok (.call f arguments type)

/-- A quantifier over a truth value. -/
def mkQuantified (scope : Scope) (source : Source) (quantifier : Quantifier) (name : String)
    (predicate : Expression) : Except ExpressionError Expression :=
  if predicate.type.isBoolean then .ok (.quantified scope source quantifier name predicate)
  else .error (.notBoolean predicate.type.name)

mutual

/-- An expression of operators that bind at least as tightly as `least`. -/
def parseExpression (c : FilterContext) : Nat → Nat → List Binder → Nat → List Token →
    Parsed Expression
  | 0, _, _, _, _ => .error (.tooDeep c.model.config.maxDepth)
  | fuel + 1, depth, binders, least, tokens =>
    if c.model.config.maxDepth < depth + 1 then .error (.tooDeep c.model.config.maxDepth)
    else
      match parseUnary c fuel (depth + 1) binders tokens with
      | .error e => .error e
      | .ok (left, rest) => parseClimb c fuel (depth + 1) binders least left rest

/-- The operators that follow an operand, as long as they bind tightly enough. -/
def parseClimb (c : FilterContext) : Nat → Nat → List Binder → Nat → Expression → List Token →
    Parsed Expression
  | 0, _, _, _, _, _ => .error (.tooDeep c.model.config.maxDepth)
  | fuel + 1, depth, binders, least, left, tokens =>
    match tokens with
    | [] => .ok (left, tokens)
    | t :: rest =>
      if t.kind != .identifier then .ok (left, tokens)
      else if t.text == "in" then
        if inPrecedence < least then .ok (left, tokens)
        else
          match c.expect .openParen "'(' after in" rest with
          | .error e => .error e
          | .ok (_, rest) =>
            match parseAlternatives c fuel depth binders left.type rest with
            | .error e => .error e
            | .ok (items, rest) =>
              match c.expect .closeParen "')'" rest with
              | .error e => .error e
              | .ok (_, rest) => parseClimb c fuel depth binders least (.oneOf left items) rest
      else
        match BinaryOp.ofKeyword? t.text with
        | none => .ok (left, tokens)
        | some op =>
          if op.precedence < least then .ok (left, tokens)
          else
            match parseExpression c fuel depth binders (op.precedence + 1) rest with
            | .error e => .error e
            | .ok (right, rest) =>
              match mkBinary op left right with
              | .error e => .error e
              | .ok node => parseClimb c fuel depth binders least node rest

/-- The alternatives of a list, each comparable with the operand before the list. -/
def parseAlternatives (c : FilterContext) : Nat → Nat → List Binder → StaticType → List Token →
    Parsed (List Expression)
  | 0, _, _, _, _ => .error (.tooDeep c.model.config.maxDepth)
  | fuel + 1, depth, binders, type, tokens =>
    match parseExpression c fuel depth binders 0 tokens with
    | .error e => .error e
    | .ok (x, rest) =>
      if !type.comparable x.type then .error (.typeMismatch "in" type.name x.type.name)
      else
        match rest with
        | t :: more =>
          if t.kind == .comma then
            (parseAlternatives c fuel depth binders type more).map fun (xs, rest) =>
              (x :: xs, rest)
          else .ok ([x], rest)
        | [] => .ok ([x], rest)

/-- An operand with the operators in front of it. -/
def parseUnary (c : FilterContext) : Nat → Nat → List Binder → List Token → Parsed Expression
  | 0, _, _, _ => .error (.tooDeep c.model.config.maxDepth)
  | fuel + 1, depth, binders, tokens =>
    match tokens with
    | [] => .error (c.errorHere [] "expected an operand")
    | t :: rest =>
      if t.kind == .identifier && t.text == "not" then
        match parseExpression c fuel depth binders unaryPrecedence rest with
        | .error e => .error e
        | .ok (operand, rest) => (mkNot operand).map fun x => (x, rest)
      else if t.kind == .minus then
        match parseExpression c fuel depth binders unaryPrecedence rest with
        | .error e => .error e
        | .ok (operand, rest) => (mkNegate operand).map fun x => (x, rest)
      else parsePrimary c fuel depth binders t rest

/-- An operand that starts with the given token. -/
def parsePrimary (c : FilterContext) : Nat → Nat → List Binder → Token → List Token →
    Parsed Expression
  | 0, _, _, _, _ => .error (.tooDeep c.model.config.maxDepth)
  | fuel + 1, depth, binders, t, rest =>
    match t.kind with
    | .openParen =>
      match parseExpression c fuel depth binders 0 rest with
      | .error e => .error e
      | .ok (x, rest) => (c.expect .closeParen "')'" rest).map fun (_, rest) => (x, rest)
    | .identifier =>
      if rest.head?.any (·.kind == .openParen) then parseCall c fuel depth binders t rest
      else parsePath c fuel depth binders t rest
    | .closeParen | .comma | .slash | .colon | .minus =>
      .error (c.errorAt t.position s!"unexpected `{t.text}`")
    | _ => (t.value c.model c.input).map fun value => (.literal value, rest)

/-- A call of the function that a token names. -/
def parseCall (c : FilterContext) : Nat → Nat → List Binder → Token → List Token →
    Parsed Expression
  | 0, _, _, _, _ => .error (.tooDeep c.model.config.maxDepth)
  | fuel + 1, depth, binders, name, tokens =>
    match BuiltIn.ofName? name.text with
    | none => .error (.unknownFunction name.text)
    | some f =>
      match c.expect .openParen "'('" tokens with
      | .error e => .error e
      | .ok (_, rest) =>
        let arguments : Parsed (List Expression) :=
          if rest.head?.any (·.kind == .closeParen) then .ok ([], rest)
          else parseArguments c fuel depth binders rest
        match arguments with
        | .error e => .error e
        | .ok (arguments, rest) =>
          match c.expect .closeParen "')'" rest with
          | .error e => .error e
          | .ok (_, rest) => (mkCall c name.position f arguments).map fun x => (x, rest)

/-- Arguments with commas between them, at least one. -/
def parseArguments (c : FilterContext) : Nat → Nat → List Binder → List Token →
    Parsed (List Expression)
  | 0, _, _, _ => .error (.tooDeep c.model.config.maxDepth)
  | fuel + 1, depth, binders, tokens =>
    match parseExpression c fuel depth binders 0 tokens with
    | .error e => .error e
    | .ok (x, rest) =>
      match rest with
      | t :: more =>
        if t.kind == .comma then
          (parseArguments c fuel depth binders more).map fun (xs, rest) => (x :: xs, rest)
        else .ok ([x], rest)
      | [] => .ok ([x], rest)

/-- A member path that starts with the given name. -/
def parsePath (c : FilterContext) : Nat → Nat → List Binder → Token → List Token →
    Parsed Expression
  | 0, _, _, _, _ => .error (.tooDeep c.model.config.maxDepth)
  | fuel + 1, depth, binders, first, rest =>
    if first.text == "$it" then
      match c.expect .slash "'/' after $it" rest with
      | .error e => .error e
      | .ok (_, rest) =>
        match c.expectName rest with
        | .error e => .error e
        | .ok (name, rest) => parseSegment c fuel depth binders .root c.root name rest
    else
      match binders.find? (·.name == first.text) with
      | some (.entity name target) =>
        match c.expect .slash "'/' after lambda variable" rest with
        | .error e => .error e
        | .ok (_, rest) =>
          match c.expectName rest with
          | .error e => .error e
          | .ok (segment, rest) =>
            parseSegment c fuel depth binders (.bound name) target segment rest
      | some (.element name type) =>
        if rest.head?.any (·.kind == .slash) then
          .error (c.errorHere rest "cannot navigate into a primitive value")
        else .ok (.item name type, rest)
      | none =>
        let (scope, frame) := c.implicitFrame binders
        parseSegment c fuel depth binders scope frame first rest

/-- One segment of a member path, resolved as a property or else as a navigation property. -/
def parseSegment (c : FilterContext) : Nat → Nat → List Binder → Scope → Frame → Token →
    List Token → Parsed Expression
  | 0, _, _, _, _, _, _ => .error (.tooDeep c.model.config.maxDepth)
  | fuel + 1, depth, binders, scope, frame, name, tokens =>
    match frame.type.property? name.text with
    | some p =>
      if p.type.isCollection then
        match tokens with
        | t :: rest =>
          if t.kind == .slash then
            parseQuantifier c fuel depth binders scope (.items p)
              (fun v => .element v p.type.element) rest
          else .error (.collectionNotQuantified name.text)
        | [] => .error (.collectionNotQuantified name.text)
      else if tokens.head?.any (·.kind == .slash) then
        .error (c.errorHere tokens s!"`{name.text}` is not a navigation property")
      else .ok (.property scope p, tokens)
    | none =>
      match frame.type.navigation? name.text with
      | none => .error (.unknownProperty name.text)
      | some navigation =>
        match c.model.target? frame.set name.text with
        | none => .error (.unboundNavigation name.text)
        | some target =>
          match c.model.set? target with
          | none => .error (.unknownEntitySet target)
          | some set =>
            let inside : Frame := ⟨target, set.type⟩
            if navigation.isCollection then
              match tokens with
              | t :: rest =>
                if t.kind == .slash then
                  parseQuantifier c fuel depth binders scope (.related navigation target)
                    (fun v => .entity v inside) rest
                else .error (.collectionNotQuantified name.text)
              | [] => .error (.collectionNotQuantified name.text)
            else
              match c.expect .slash "'/' after navigation property" tokens with
              | .error e => .error e
              | .ok (_, rest) =>
                match c.expectName rest with
                | .error e => .error e
                | .ok (next, rest) =>
                  (parseSegment c fuel depth binders .current inside next rest).map
                    fun (inner, rest) => (.hop scope navigation target inner, rest)

/-- A quantifier over what a member path led to. -/
def parseQuantifier (c : FilterContext) : Nat → Nat → List Binder → Scope → Source →
    (String → Binder) → List Token → Parsed Expression
  | 0, _, _, _, _, _, _ => .error (.tooDeep c.model.config.maxDepth)
  | fuel + 1, depth, binders, scope, source, binder, tokens =>
    match c.expectName tokens with
    | .error e => .error e
    | .ok (word, rest) =>
      match [Quantifier.any, .all].find? (·.keyword == word.text) with
      | none => .error (c.errorAt word.position "expected any or all")
      | some quantifier =>
        match c.expect .openParen "'('" rest with
        | .error e => .error e
        | .ok (_, rest) =>
          if rest.head?.any (·.kind == .closeParen) then
            if quantifier == .all then
              .error (c.errorHere rest "all() requires a lambda predicate")
            else .ok (.nonEmpty scope source, rest.drop 1)
          else
            match c.expectName rest with
            | .error e => .error e
            | .ok (name, rest) =>
              if name.text == "$it" || binders.any (·.name == name.text) then
                .error (.duplicateVariable name.text)
              else
                match c.expect .colon "':'" rest with
                | .error e => .error e
                | .ok (_, rest) =>
                  match parseExpression c fuel depth (binder name.text :: binders) 0 rest with
                  | .error e => .error e
                  | .ok (predicate, rest) =>
                    match mkQuantified scope source quantifier name.text predicate with
                    | .error e => .error e
                    | .ok x => (c.expect .closeParen "')'" rest).map fun (_, rest) => (x, rest)

end

/-- Enough fuel for the tokens: no token is behind more than eight calls that take none. -/
def parseFuel (tokens : List Token) : Nat :=
  8 * (tokens.length + 2)

/-- The filter that tokens write. -/
def ofTokens (c : FilterContext) (tokens : List Token) : Except ExpressionError Expression :=
  if tokens.isEmpty then .error (c.errorAt 0 "empty expression")
  else
    match parseExpression c (parseFuel tokens) 0 [] 0 tokens with
    | .error e => .error e
    | .ok (_, t :: _) => .error (c.errorAt t.position s!"unexpected `{t.text}`")
    | .ok (x, []) => if x.type.isBoolean then .ok x else .error (.notBoolean x.type.name)

end Expression

/-- The filter that a text writes for the entities of a set. -/
def parseFilter (m : Model) (set input : String) : Except ExpressionError Expression :=
  match m.set? set with
  | none => .error (.unknownEntitySet set)
  | some s =>
    match tokenize input with
    | .error e => .error e
    | .ok tokens => Expression.ofTokens ⟨m, input, ⟨s.name, s.type⟩⟩ tokens

end EdmQuery
