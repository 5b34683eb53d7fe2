import EdmQuery.Expr.Order
import EdmQuery.Expr.Search
import EdmQuery.Sql.Join

/-! Filters and searches as SQL conditions; literals become parameters in the order they come. -/

namespace EdmQuery

open Text

/-- What a statement has gathered so far; `depth` counts the quantifiers that are open. -/
structure Builder where
  parameters : List Value
  joins : List Join
  depth : Nat

/-- Nothing gathered yet. -/
def Builder.empty : Builder := ⟨[], [], 0⟩

/-- A step that may add to a statement and may find that something has no SQL form. -/
abbrev Compile (α : Type) := ExceptT SqlError (StateM Builder) α

/-- What a statement is written for. -/
structure SqlContext where
  dialect : Dialect
  table : Table
  resolve : Resolver

/-- A table that member paths start from, under its alias. -/
structure TableFrame where
  tableAlias : String
  type : EntityType

/-- A parameter with a value. -/
def bindValue (value : Value) : Compile SqlTerm := do
  let b ← get
  set { b with parameters := b.parameters ++ [value] }
  return .parameter (b.parameters.length + 1)

/-- A step that leaves nothing behind when it fails. -/
def attempt {α : Type} (step : Compile α) : Compile α :=
  ExceptT.mk fun b =>
    match step.run b with
    | (.ok a, after) => (.ok a, after)
    | (.error e, after) =>
      (.error e, ⟨after.parameters.take b.parameters.length, after.joins.take b.joins.length, 0⟩)

/-- The fault of something that has no SQL form. -/
def unsupported {α : Type} (reason : String) : Compile α :=
  throw (.unsupported reason)

/-- An outcome that adds nothing. -/
def known {α : Type} (r : Except SqlError α) : Compile α :=
  ExceptT.mk (pure r)

namespace SqlContext

/-- The queried table. -/
def rootFrame (ctx : SqlContext) : TableFrame :=
  ⟨rootAlias, ctx.table.type⟩

/-- The table that a scope outside of hops names. -/
def frame (ctx : SqlContext) (locals : List (String × TableFrame)) :
    Scope → Except SqlError TableFrame
  | .root => .ok ctx.rootFrame
  | .current => .error (.unsupported "member access outside a navigation path")
  | .bound name =>
    match locals.lookup name with
    | some frame => .ok frame
    | none => .error (.unsupported s!"unbound lambda variable `{name}`")

end SqlContext

/-- Whether an expression is a duration. -/
def isDuration (x : Expression) : Bool :=
  x.type.primitive? == some .duration

/-- Whether an expression is an integer. -/
def isIntegral (x : Expression) : Bool :=
  (x.type.primitive?).any (·.isIntegral)

/-- The name of an operator in messages about what has no SQL form. -/
def BinaryOp.title : BinaryOp → String
  | .eq => "Eq"
  | .ne => "Ne"
  | .lt => "Lt"
  | .le => "Le"
  | .gt => "Gt"
  | .ge => "Ge"
  | .and => "And"
  | .or => "Or"
  | .add => "Add"
  | .sub => "Sub"
  | .mul => "Mul"
  | .div => "Div"
  | .divBy => "DivBy"
  | .mod => "Mod"
  | .has => "Has"

/-- The template of a function, if the flavour can repeat parameters where the template does. -/
def templateFor (d : Dialect) (f : BuiltIn) (arity : Nat) : Except SqlError Template :=
  match Template.find? f.name arity with
  | none => .error (.unsupported s!"function `{f.name}`")
  | some template =>
    if !d.isNumbered && template.repeats d arity then
      .error (.unsupported s!"function `{f.name}` in {d.name}")
    else .ok template

/-- How the table of a quantifier is tied to the table around it. -/
def correlate (ctx : SqlContext) (parent : TableFrame) (navigation : Navigation) (target : String) :
    Except SqlError (Table × String × Column) := do
  let constraint ← soleConstraint navigation
  let table ← ctx.resolve.table target
  let column ← columnOf table.type constraint.referenced
  let related ← columnOf parent.type constraint.property
  return (table, column, ⟨parent.tableAlias, related⟩)

/-- A quantifier opened, which gives its number from the outside in. -/
def openQuantifier : Compile Nat := do
  let b ← get
  set { b with depth := b.depth + 1 }
  return b.depth + 1

/-- A quantifier closed. -/
def closeQuantifier : Compile Unit :=
  modify fun b => { b with depth := b.depth - 1 }

/-- The entities that a quantifier with an SQL form ranges over. -/
def relatedSource : Source → Except SqlError (Navigation × String)
  | .related navigation target => .ok (navigation, target)
  | .items p => .error (.unsupported s!"lambda over primitive collection `{p.name}`")

/-- The term of a literal; what stands in the text itself is nulls and enumerations only. -/
def literalTerm : Value → Compile SqlTerm
  | .null => return .null
  | .enum _ value => return .number value.toInt
  | .collection _ => unsupported "collection literal"
  | value => bindValue value

namespace Expression

mutual

/-- The term of an expression. -/
def term (ctx : SqlContext) (locals : List (String × TableFrame)) (current : TableFrame) :
    Expression → Compile SqlTerm
  | literal value => literalTerm value
  | property scope p => do
    let frame ← if scope == .current then pure current else known (ctx.frame locals scope)
    return .column ⟨frame.tableAlias, p.column⟩
  | hop scope navigation target inner => do
    if 0 < (← get).depth then
      unsupported s!"navigation `{navigation.name}` inside a lambda"
    let parent ← match scope with
      | .root => pure none
      | .current => pure (some current.tableAlias)
      | .bound _ => unsupported "navigation from a lambda variable"
    let table ← known (ctx.resolve.table target)
    inner.term ctx locals ⟨joinAlias parent navigation.name, table.type⟩
  | item name _ => unsupported s!"primitive lambda variable `{name}`"
  | not operand => return .not (← operand.term ctx locals current)
  | negate operand =>
    if isDuration operand then unsupported "arithmetic on Edm.Duration"
    else return .negate (← operand.term ctx locals current)
  | binary op left right =>
    if op.isEquality && left.isNullLiteral then
      return .nullTest (← right.term ctx locals current) (op == .eq)
    else if op.isEquality && right.isNullLiteral then
      return .nullTest (← left.term ctx locals current) (op == .eq)
    -- Durations are stored as texts, which tell no more than whether they are equal.
    else if !op.isLogical && !op.isEquality && (isDuration left || isDuration right) then
      unsupported s!"{op.title} on Edm.Duration"
    else do
      let l ← left.term ctx locals current
      let r ← right.term ctx locals current
      if op == .div && isIntegral left && isIntegral right then return .integerQuotient l r
      else return .binary op l r
  | oneOf operand items => do
    let x ← operand.term ctx locals current
    return .oneOf x (← terms ctx locals current items)
  | call function arguments _ => do
    let template ← known (templateFor ctx.dialect function arguments.length)
    return .call template (← terms ctx locals current arguments)
  | nonEmpty scope source => do
    let (navigation, target) ← known (relatedSource source)
    let parent ← known (ctx.frame locals scope)
    let (table, column, related) ← known (correlate ctx parent navigation target)
    let name := "$any" ++ toString (← openQuantifier)
    closeQuantifier
    return .exists_ ⟨table.name, name, ⟨name, column⟩, related⟩
  | quantified scope source quantifier name predicate => do
    let (navigation, target) ← known (relatedSource source)
    let parent ← known (ctx.frame locals scope)
    let (table, column, related) ← known (correlate ctx parent navigation target)
    let _ ← openQuantifier
    let frame : TableFrame := ⟨name, table.type⟩
    let condition ← predicate.term ctx ((name, frame) :: locals) frame
    closeQuantifier
    let correlation : Correlation := ⟨table.name, name, ⟨name, column⟩, related⟩
    match quantifier with
    | .any => return .existsWith correlation condition
    | .all => return .existsNoneWithout correlation condition

/-- The terms of several expressions. -/
def terms (ctx : SqlContext) (locals : List (String × TableFrame)) (current : TableFrame) :
    List Expression → Compile (List SqlTerm)
  | [] => return []
  | x :: rest => do
    let t ← x.term ctx locals current
    return t :: (← terms ctx locals current rest)

end

end Expression

/-- The condition of a filter, which adds the joins that its hops need. -/
def compileFilter (ctx : SqlContext) (filter : Expression) : Compile SqlTerm := do
  let joins ← known (discoverJoins ctx.resolve ctx.table.type filter)
  modify fun b => { b with joins := addJoins b.joins joins }
  filter.term ctx [] ctx.rootFrame

/-- A text with the characters escaped that a pattern would read as wildcards. -/
def escapeLike (text : String) : String :=
  String.ofList (text.toList.flatMap fun c =>
    if c == '!' || c == '%' || c == '_' then ['!', c] else [c])

/-- The value that a term is searched by: itself, or a pattern in lower case around it. -/
def searchValue (caseSensitive : Bool) (text : String) : Value :=
  .string (if caseSensitive then text else "%" ++ escapeLike (lower text) ++ "%")

/-- The tests of columns for a term, each with a parameter of its own. -/
def textTests (caseSensitive : Bool) (text : String) : List Column → Compile (List TextTest)
  | [] => return []
  | column :: rest => do
    let b ← get
    set { b with parameters := b.parameters ++ [searchValue caseSensitive text] }
    let test : TextTest := ⟨column, b.parameters.length + 1, caseSensitive⟩
    return test :: (← textTests caseSensitive text rest)

/-- The condition of a search over the searchable columns. -/
def compileSearch (ctx : SqlContext) (caseSensitive : Bool) : Search → Compile SqlTerm
  | .term text => do
    let columns := ctx.table.type.searchable.map fun p => (⟨rootAlias, p.column⟩ : Column)
    return .textTests (← textTests caseSensitive text columns)
  | .and l r => do
    let left ← compileSearch ctx caseSensitive l
    return .binary .and left (← compileSearch ctx caseSensitive r)
  | .or l r => do
    let left ← compileSearch ctx caseSensitive l
    return .binary .or left (← compileSearch ctx caseSensitive r)
  | .not x => return .not (← compileSearch ctx caseSensitive x)

/-- A column of the queried table to sort by. -/
structure OrderTerm where
  column : String
  descending : Bool
  deriving DecidableEq

/-- The text of a sort term. -/
def OrderTerm.text (d : Dialect) (t : OrderTerm) : String :=
  d.orderTerm ((Column.mk rootAlias t.column).text d) t.descending

/-- The sort terms of keys, with the key of the entity type last so that no ties are left. -/
def compileOrder (type : EntityType) (keys : List SortKey) : Except SqlError (List OrderTerm) :=
  match keys.find? fun k => k.property.type.element == .duration with
  | some k => .error (.unsupported s!"ordering by Edm.Duration property `{k.property.name}`")
  | none =>
    let terms := keys.map fun k => (⟨k.property.column, k.descending⟩ : OrderTerm)
    let tieBreaker := type.keyProperty?.filter fun p => !keys.any (·.property.name == p.name)
    .ok (terms ++ (tieBreaker.map fun p => (⟨p.column, false⟩ : OrderTerm)).toList)

end EdmQuery
