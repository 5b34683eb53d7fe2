import EdmQuery.Query.Options
import EdmQuery.Sql.Statement

/-! What a database is asked for, and what is left to do with the rows that it sends. -/

namespace EdmQuery

/-- Conditions for the database, and the stages that remain. -/
structure Pushed where
  conditions : List SqlTerm
  remaining : Stages

/-- Whether the database selects all by itself. -/
def Pushed.isComplete (p : Pushed) : Bool :=
  p.remaining.filter.isNone && p.remaining.search.isNone

/-- A selection for the database with its parameters, and the stages that remain. -/
structure Plan where
  select : Select
  parameters : List Value
  remaining : Stages

/-- The statement of a plan that asks for rows. -/
def Plan.statement (p : Plan) (d : Dialect) : Statement :=
  ⟨p.select.text d, p.parameters⟩

/-- The statement of a plan that asks for their number. -/
def Plan.countStatement (p : Plan) (d : Dialect) : Statement :=
  ⟨p.select.countText d, p.parameters⟩

/-- The fault of a stage without an SQL form, unless the stage may be left to memory. -/
def fallBack (config : Config) (reason : String) : Except RequestError Unit :=
  if config.fallback then .ok () else .error (.notImplemented reason)

/-- A condition for the database, none where it is left to memory. -/
def tryCondition (config : Config) (step : Compile SqlTerm) (b : Builder) :
    Except RequestError (Option SqlTerm × Builder) :=
  match (attempt step).run b with
  | (.ok condition, b) => .ok (some condition, b)
  | (.error (.unsupported reason), b) => (fallBack config reason).map fun _ => (none, b)
  | (.error e, _) => .error (.ofSql e)

/-- A condition for the database from a stage, if there is the stage. -/
def tryStage {α : Type} (config : Config) (stage : Option α) (compile : α → Compile SqlTerm)
    (b : Builder) : Except RequestError (Option SqlTerm × Builder) :=
  match stage with
  | none => .ok (none, b)
  | some stage => tryCondition config (compile stage) b

/-- The conditions of filter and search as far as they can be pushed to the database. -/
def pushDown (config : Config) (ctx : SqlContext) (s : Stages) :
    Except RequestError (Pushed × Builder) := do
  let (filter, b) ← tryStage config s.filter (compileFilter ctx) .empty
  let (search, b) ← tryStage config s.search (compileSearch ctx config.caseSensitive) b
  let remaining := { s with
    filter := if filter.isSome then none else s.filter
    search := if search.isSome then none else s.search }
  return (⟨filter.toList ++ search.toList, remaining⟩, b)

/-- The order for the database, none where it is left to memory. -/
def pushOrder (config : Config) (ctx : SqlContext) (keys : List SortKey) :
    Except RequestError (Option (List OrderTerm)) :=
  match compileOrder ctx.table.type keys with
  | .ok terms => .ok (some terms)
  | .error (.unsupported reason) => (fallBack config reason).map fun _ => none
  | .error e => .error (.ofSql e)

/-- The plan of a query; order and window go to the database only if all before them does. -/
def planRows (config : Config) (ctx : SqlContext) (s : Stages) : Except RequestError Plan := do
  let (pushed, b) ← pushDown config ctx s
  let order ← if pushed.isComplete then pushOrder config ctx s.orderby else .ok none
  match order with
  | some order =>
    return ⟨⟨ctx.table, b.joins, pushed.conditions, order, s.skip, s.top⟩, b.parameters,
      pushed.remaining.unpaged⟩
  | none =>
    -- Rows come in the order of their keys, so that equal entities keep that order.
    let order ← (compileOrder ctx.table.type []).mapError .ofSql
    return ⟨⟨ctx.table, b.joins, pushed.conditions, order, none, none⟩, b.parameters,
      pushed.remaining⟩

/-- The plan of a count, and whether the database counts all by itself. -/
def planCount (config : Config) (ctx : SqlContext) (s : Stages) :
    Except RequestError (Plan × Bool) := do
  let (pushed, b) ← pushDown config ctx s
  return (⟨.rows ctx.table b.joins pushed.conditions, b.parameters, pushed.remaining⟩,
    pushed.isComplete)

/-- Steps of a statement, in which a stage without an SQL form is a fault. -/
def explainSteps (config : Config) (ctx : SqlContext) (s : Stages) : Compile Select := do
  let filter ← match s.filter with
    | none => pure none
    | some filter => some <$> compileFilter ctx filter
  let search ← match s.search with
    | none => pure none
    | some search => some <$> compileSearch ctx config.caseSensitive search
  let order ← known (compileOrder ctx.table.type s.orderby)
  return ⟨ctx.table, (← get).joins, filter.toList ++ search.toList, order, s.skip, s.top⟩

/-- The table that stands for a set: its own, or one of its name where it is in memory. -/
def tableOf (s : EntitySet) : Table :=
  match s.backing with
  | .table name _ => ⟨name, s.type⟩
  | .memory => ⟨s.name, s.type⟩

/-- The statement that asks for what the stages select from a set, in the configured flavour. -/
def explain (m : Model) (set : String) (s : Stages) : Except RequestError Statement :=
  let resolve : Resolver := fun name => (m.set? name).map tableOf
  match resolve set with
  | none => .error (.unknownSet set)
  | some table =>
    let d := m.config.dialect
    match (explainSteps m.config ⟨d, table, resolve⟩ s).run .empty with
    | (.error e, _) => .error (.ofSql e)
    | (.ok select, b) => .ok ⟨select.text d, b.parameters⟩

end EdmQuery
