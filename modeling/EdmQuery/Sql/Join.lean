import EdmQuery.Expr.Tree
import EdmQuery.Sql.Error
import EdmQuery.Sql.Term

/-! The joins behind member paths that follow single-valued navigation properties. -/

namespace EdmQuery

/-- The table behind an entity set. -/
structure Table where
  name : String
  type : EntityType
  deriving DecidableEq

/-- The tables that a query may join, by the names of their entity sets. -/
abbrev Resolver := String → Option Table

/-- A join of the table that a navigation property leads to. -/
structure Join where
  tableAlias : String
  table : String
  column : String
  parent : Column
  deriving DecidableEq

/-- The text of a join; it keeps rows that have nothing to be joined with. -/
def Join.text (d : Dialect) (j : Join) : String :=
  "LEFT JOIN " ++ d.quote j.table ++ " AS " ++ d.quote j.tableAlias ++ " ON " ++
    (Column.mk j.tableAlias j.column).text d ++ " = " ++ j.parent.text d

/-- The alias of the table that a navigation property leads to, from the root or an alias. -/
def joinAlias (parent : Option String) (navigation : String) : String :=
  match parent with
  | some parent => parent ++ "_" ++ navigation
  | none => navigation

/-- Joins with others added, where the first one of an alias counts. -/
def addJoins (found : List Join) : List Join → List Join
  | [] => found
  | j :: rest =>
    if found.any (·.tableAlias == j.tableAlias) then addJoins found rest
    else addJoins (found ++ [j]) rest

/-- Joins without those whose alias came before. -/
def distinctJoins (joins : List Join) : List Join :=
  addJoins [] joins

/-- Where a member path stands: behind an alias, or at the root. -/
structure PathEnd where
  tableAlias : Option String
  type : EntityType

/-- The table that an entity set resolves to. -/
def Resolver.table (resolve : Resolver) (set : String) : Except SqlError Table :=
  match resolve set with
  | some table => .ok table
  | none => .error (.unsupported s!"entity set `{set}` has no SQL table")

/-- The constraint of a navigation property that has only one. -/
def soleConstraint (n : Navigation) : Except SqlError Constraint :=
  match n.constraint? with
  | some c => .ok c
  | none => .error (.unsupported s!"navigation `{n.name}` without a single referential constraint")

/-- The column behind a property of an entity type. -/
def columnOf (type : EntityType) (property : String) : Except SqlError String :=
  match type.property? property with
  | some p => .ok p.column
  | none => .error (.unknownProperty property)

mutual

/-- The joins that an expression needs, outermost hops first. -/
def joinsFrom (resolve : Resolver) (root current : PathEnd) :
    Expression → Except SqlError (List Join)
  | .hop scope navigation target inner =>
    match scope with
    | .bound _ => .ok []
    | scope => do
      let start := if scope == .root then root else current
      let constraint ← soleConstraint navigation
      let table ← resolve.table target
      let column ← columnOf table.type constraint.referenced
      let related ← columnOf start.type constraint.property
      let name := joinAlias start.tableAlias navigation.name
      let parent := start.tableAlias.getD rootAlias
      let more ← joinsFrom resolve root ⟨some name, table.type⟩ inner
      return ⟨name, table.name, column, ⟨parent, related⟩⟩ :: more
  | .not operand => joinsFrom resolve root current operand
  | .negate operand => joinsFrom resolve root current operand
  | .binary _ left right => do
    let l ← joinsFrom resolve root current left
    let r ← joinsFrom resolve root current right
    return l ++ r
  | .oneOf operand items => do
    let l ← joinsFrom resolve root current operand
    let r ← joinsFromList resolve root current items
    return l ++ r
  | .call _ arguments _ => joinsFromList resolve root current arguments
  -- Quantifiers select from tables of their own.
  | _ => .ok []

/-- The joins that several expressions need. -/
def joinsFromList (resolve : Resolver) (root current : PathEnd) :
    List Expression → Except SqlError (List Join)
  | [] => .ok []
  | x :: rest => do
    let found ← joinsFrom resolve root current x
    let more ← joinsFromList resolve root current rest
    return found ++ more

end

/-- The joins that a filter on a table needs. -/
def discoverJoins (resolve : Resolver) (type : EntityType) (filter : Expression) :
    Except SqlError (List Join) :=
  let root : PathEnd := ⟨none, type⟩
  (joinsFrom resolve root root filter).map distinctJoins

end EdmQuery
