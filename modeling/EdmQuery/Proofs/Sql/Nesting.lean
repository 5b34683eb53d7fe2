import Mathlib
import EdmQuery.Proofs.Expr.Scoping
import EdmQuery.Proofs.Query.TypeSafety
import EdmQuery.Proofs.Sql.Navigation

/-! The aliases of selections inside each other, and where an alias hides one around it. -/

namespace EdmQuery

/-- The aliases of a selection: its own, the two that it is tied by, and those around it. -/
structure Nesting where
  own : String
  tied : String
  parent : String
  enclosing : List String
  deriving DecidableEq

/-- The aliases of a correlated selection among those around it. -/
def Correlation.nesting (enclosing : List String) (source : Correlation) : Nesting :=
  ⟨source.tableAlias, source.column.table, source.parent.table, enclosing⟩

namespace SqlTerm

mutual

/-- The selections in a term, from left to right, the outer ones before those inside of them. -/
def nestings (enclosing : List String) : SqlTerm → List Nesting
  | not operand => operand.nestings enclosing
  | negate operand => operand.nestings enclosing
  | nullTest operand _ => operand.nestings enclosing
  | binary _ left right => left.nestings enclosing ++ right.nestings enclosing
  | integerQuotient left right => left.nestings enclosing ++ right.nestings enclosing
  | oneOf operand items => operand.nestings enclosing ++ allNestings enclosing items
  | call _ arguments => allNestings enclosing arguments
  | exists_ source => [source.nesting enclosing]
  | existsWith source condition =>
    source.nesting enclosing :: condition.nestings (source.tableAlias :: enclosing)
  | existsNoneWithout source condition =>
    source.nesting enclosing :: condition.nestings (source.tableAlias :: enclosing)
  | _ => []

/-- The selections in several terms. -/
def allNestings (enclosing : List String) : List SqlTerm → List Nesting
  | [] => []
  | x :: rest => x.nestings enclosing ++ allNestings enclosing rest

end

end SqlTerm

/-- The alias of the table that a quantifier starts from. -/
def Scope.tableAlias : Scope → String
  | .bound name => name
  | _ => rootAlias

/-- The alias of a quantifier without a variable, below a number of others. -/
def anyAlias (depth : Nat) : String :=
  "$any" ++ toString (depth + 1)

namespace Expression

mutual

/-- The selections that the quantifiers of a filter ask for, below a number of quantifiers. -/
def nestings (depth : Nat) (enclosing : List String) : Expression → List Nesting
  | hop _ _ _ inner => inner.nestings depth enclosing
  | not operand => operand.nestings depth enclosing
  | negate operand => operand.nestings depth enclosing
  | binary _ left right => left.nestings depth enclosing ++ right.nestings depth enclosing
  | oneOf operand items => operand.nestings depth enclosing ++ allNestings depth enclosing items
  | call _ arguments _ => allNestings depth enclosing arguments
  | nonEmpty scope _ => [⟨anyAlias depth, anyAlias depth, scope.tableAlias, enclosing⟩]
  | quantified scope _ _ name predicate =>
    ⟨name, name, scope.tableAlias, enclosing⟩ ::
      predicate.nestings (depth + 1) (name :: enclosing)
  | _ => []

/-- The selections that several filters ask for. -/
def allNestings (depth : Nat) (enclosing : List String) : List Expression → List Nesting
  | [] => []
  | x :: rest => x.nestings depth enclosing ++ allNestings depth enclosing rest

end

mutual

/--
Whether no quantifier without a variable gets the name of a variable around it as its alias.

The names are those of the variables around the expression.
-/
def sparesAliases (depth : Nat) (names : List String) : Expression → Bool
  | hop _ _ _ inner => inner.sparesAliases depth names
  | not operand => operand.sparesAliases depth names
  | negate operand => operand.sparesAliases depth names
  | binary _ left right => left.sparesAliases depth names && right.sparesAliases depth names
  | oneOf operand items => operand.sparesAliases depth names && allSpareAliases depth names items
  | call _ arguments _ => allSpareAliases depth names arguments
  | nonEmpty _ _ => !names.contains (anyAlias depth)
  | quantified _ _ _ name predicate => predicate.sparesAliases (depth + 1) (name :: names)
  | _ => true

/-- Whether that holds for several expressions. -/
def allSpareAliases (depth : Nat) (names : List String) : List Expression → Bool
  | [] => true
  | x :: rest => x.sparesAliases depth names && allSpareAliases depth names rest

end

/-- Whether terms of an expression have the selections that its quantifiers ask for. -/
def Nests (ctx : SqlContext) (enclosing : List String) (locals : List (String × TableFrame))
    (x : Expression) : Prop :=
  ∀ ⦃current b t after⦄, (x.term ctx locals current).run b = (.ok t, after) →
    after.depth = b.depth ∧ t.nestings enclosing = x.nestings b.depth enclosing

section

variable {ctx : SqlContext} {enclosing : List String} {locals : List (String × TableFrame)}
  {current : TableFrame} {b after : Builder}

-- The equations of the selections are made here, so that the proofs behind do not wait for them.
attribute [local simp] SqlTerm.nestings SqlTerm.allNestings nestings allNestings

/-- The terms of several expressions have their selections, one after the other. -/
theorem nests_terms {items : List Expression} (each : ∀ x ∈ items, x.Nests ctx enclosing locals)
    {ts : List SqlTerm} (compiled : (terms ctx locals current items).run b = (.ok ts, after)) :
    after.depth = b.depth ∧
      SqlTerm.allNestings enclosing ts = allNestings b.depth enclosing items := by
  induction items generalizing b ts with
  | nil =>
    cases compiled
    exact ⟨rfl, rfl⟩
  | cons x rest ih =>
    obtain ⟨first, others⟩ := List.forall_mem_cons.mp each
    rw [terms] at compiled
    obtain ⟨t, between, compiledFirst, compiled⟩ := run_bind_ok compiled
    obtain ⟨more, last, compiledRest, compiled⟩ := run_bind_ok compiled
    cases compiled
    obtain ⟨depth, nested⟩ := first compiledFirst
    obtain ⟨depth', nested'⟩ := ih others compiledRest
    rw [depth] at depth' nested'
    exact ⟨depth', by rw [SqlTerm.allNestings, allNestings, nested, nested']⟩

/-- A literal has no selections. -/
theorem nests_literal (value : Value) : (literal value).Nests ctx enclosing locals := by
  intro current b t after compiled
  rw [term] at compiled
  rcases value with _ | s | _
  · cases compiled
    exact ⟨rfl, rfl⟩
  · cases s <;> cases compiled <;> exact ⟨rfl, rfl⟩
  · cases compiled

/-- An operation has the selections of its operands. -/
theorem nests_binary {op : BinaryOp} {left right : Expression}
    (onLeft : left.Nests ctx enclosing locals) (onRight : right.Nests ctx enclosing locals) :
    (binary op left right).Nests ctx enclosing locals := by
  intro current b t after compiled
  rw [term] at compiled
  have silent {x : Expression} (null : x.isNullLiteral = true) (depth : Nat) :
      x.nestings depth enclosing = [] := by
    cases x <;> first | rfl | cases null
  split at compiled
  · -- The null that a test is for has no selections of its own.
    rename_i tests
    rw [Bool.and_eq_true] at tests
    obtain ⟨u, between, compiled, made⟩ := run_bind_ok compiled
    cases made
    obtain ⟨depth, nested⟩ := onRight compiled
    exact ⟨depth, by rw [SqlTerm.nestings, nested, nestings, silent tests.2, List.nil_append]⟩
  split at compiled
  · rename_i tests
    rw [Bool.and_eq_true] at tests
    obtain ⟨u, between, compiled, made⟩ := run_bind_ok compiled
    cases made
    obtain ⟨depth, nested⟩ := onLeft compiled
    exact ⟨depth, by rw [SqlTerm.nestings, nested, nestings, silent tests.2, List.append_nil]⟩
  split at compiled
  · cases compiled
  obtain ⟨l, between, compiledL, compiled⟩ := run_bind_ok compiled
  obtain ⟨r, last, compiledR, compiled⟩ := run_bind_ok compiled
  obtain ⟨depth, nested⟩ := onLeft compiledL
  obtain ⟨depth', nested'⟩ := onRight compiledR
  rw [depth] at depth' nested'
  split at compiled <;> cases compiled <;>
    exact ⟨depth', by rw [SqlTerm.nestings, nested, nested', nestings]⟩

/-- The frame of a scope has the alias of the scope. -/
theorem tableAlias_of_frame (named : ∀ entry ∈ locals, entry.2.tableAlias = entry.1)
    {scope : Scope} {parent : TableFrame} (inFrame : ctx.frame locals scope = .ok parent) :
    parent.tableAlias = scope.tableAlias := by
  cases scope with
  | root =>
    cases inFrame
    rfl
  | current => cases inFrame
  | bound name =>
    rw [SqlContext.frame] at inFrame
    split at inFrame
    · rename_i frame found
      cases inFrame
      obtain ⟨front, back, rfl, -⟩ := List.lookup_eq_some_iff.mp found
      exact named (name, parent) (List.mem_append_right _ List.mem_cons_self)
    · cases inFrame

/-- What ties a table to another names the other one by its alias. -/
theorem parent_of_correlate {parent : TableFrame} {n : Navigation} {target : String}
    {tied : Table × String × Column} (ties : correlate ctx parent n target = .ok tied) :
    tied.2.2.table = parent.tableAlias := by
  simp only [correlate, Bind.bind, Except.bind] at ties
  split at ties
  · cases ties
  split at ties
  · cases ties
  split at ties
  · cases ties
  split at ties
  · cases ties
  cases ties
  rfl

/-- A property has no selections. -/
theorem nests_property (scope : Scope) (p : Property) :
    (property scope p).Nests ctx enclosing locals := by
  intro current b t after compiled
  rw [term] at compiled
  split at compiled
  · cases compiled
    exact ⟨rfl, rfl⟩
  · obtain ⟨frame, -, made⟩ := run_known_bind_ok compiled
    cases made
    exact ⟨rfl, rfl⟩

/-- A denied truth value has the selections of its operand. -/
theorem nests_not {operand : Expression} (nests : operand.Nests ctx enclosing locals) :
    (not operand).Nests ctx enclosing locals := by
  intro current b t after compiled
  rw [term] at compiled
  obtain ⟨u, between, inner, made⟩ := run_bind_ok compiled
  cases made
  obtain ⟨depth, nested⟩ := nests inner
  exact ⟨depth, by rw [SqlTerm.nestings, nested, nestings]⟩

/-- An opposite has the selections of its operand. -/
theorem nests_negate {operand : Expression} (nests : operand.Nests ctx enclosing locals) :
    (negate operand).Nests ctx enclosing locals := by
  intro current b t after compiled
  rw [term] at compiled
  split at compiled
  · cases compiled
  obtain ⟨u, between, inner, made⟩ := run_bind_ok compiled
  cases made
  obtain ⟨depth, nested⟩ := nests inner
  exact ⟨depth, by rw [SqlTerm.nestings, nested, nestings]⟩

/-- Alternatives have the selections of their operand and then their own. -/
theorem nests_oneOf {operand : Expression} {items : List Expression}
    (nests : operand.Nests ctx enclosing locals) (each : ∀ x ∈ items, x.Nests ctx enclosing locals) :
    (oneOf operand items).Nests ctx enclosing locals := by
  intro current b t after compiled
  rw [term] at compiled
  obtain ⟨u, between, first, rest⟩ := run_bind_ok compiled
  obtain ⟨us, last, others, made⟩ := run_bind_ok rest
  cases made
  obtain ⟨depth, nested⟩ := nests first
  obtain ⟨depth', nested'⟩ := nests_terms each others
  rw [depth] at depth' nested'
  exact ⟨depth', by rw [SqlTerm.nestings, nested, nested', nestings]⟩

/-- A call has the selections of its arguments. -/
theorem nests_call {f : BuiltIn} {arguments : List Expression} {type : PrimitiveType}
    (each : ∀ x ∈ arguments, x.Nests ctx enclosing locals) :
    (call f arguments type).Nests ctx enclosing locals := by
  intro current b t after compiled
  rw [term] at compiled
  obtain ⟨template, -, compiled⟩ := run_known_bind_ok compiled
  obtain ⟨ts, between, inner, made⟩ := run_bind_ok compiled
  cases made
  exact nests_terms each inner

/-- A quantifier without a condition is one selection. -/
theorem nests_nonEmpty (named : ∀ entry ∈ locals, entry.2.tableAlias = entry.1) (scope : Scope)
    (source : Source) : (nonEmpty scope source).Nests ctx enclosing locals := by
  intro current b t after compiled
  rw [term] at compiled
  obtain ⟨n, target, parent, tied, rfl, inFrame, ties, rest⟩ := run_correlate_ok compiled
  cases rest
  refine ⟨rfl, ?_⟩
  rw [SqlTerm.nestings, nestings, Correlation.nesting, ← tableAlias_of_frame named inFrame,
    ← parent_of_correlate ties]
  rfl

/-- A quantifier with a condition is a selection around those of the condition. -/
theorem nests_quantified (named : ∀ entry ∈ locals, entry.2.tableAlias = entry.1) (scope : Scope)
    (source : Source) (quantifier : Quantifier) (name : String) {predicate : Expression}
    (nests : ∀ {frames : List (String × TableFrame)},
      (∀ entry ∈ frames, entry.2.tableAlias = entry.1) →
        predicate.Nests ctx (name :: enclosing) frames) :
    (quantified scope source quantifier name predicate).Nests ctx enclosing locals := by
  intro current b t after compiled
  rw [term] at compiled
  obtain ⟨n, target, parent, tied, rfl, inFrame, ties, rest⟩ := run_correlate_ok compiled
  obtain ⟨_, opened, isOpened, compiled⟩ := run_bind_ok rest
  cases isOpened
  obtain ⟨condition, closing, inner, compiled⟩ := run_bind_ok compiled
  -- Under the quantifier, its variable is the alias of the table that it ranges over.
  obtain ⟨depth, nested⟩ := nests (List.forall_mem_cons.mpr ⟨rfl, named⟩) inner
  have closed : closing.depth - 1 = b.depth := by
    rw [depth]
    rfl
  have first : (⟨name, name, tied.2.2.table, enclosing⟩ : Nesting) =
      ⟨name, name, scope.tableAlias, enclosing⟩ := by
    rw [parent_of_correlate ties, tableAlias_of_frame named inFrame]
  cases quantifier <;> cases compiled <;> refine ⟨closed, ?_⟩ <;>
    rw [SqlTerm.nestings, nestings, Correlation.nesting, nested, ← first]

end

/-- The term of an expression has the selections that its quantifiers ask for. -/
theorem nests_term (ctx : SqlContext) (x : Expression) {enclosing : List String}
    {locals : List (String × TableFrame)}
    (named : ∀ entry ∈ locals, entry.2.tableAlias = entry.1) : x.Nests ctx enclosing locals := by
  induction x using Expression.induction generalizing enclosing locals with
  | literal value => exact nests_literal value
  | property scope p => exact nests_property scope p
  | hop scope n target inner ih =>
    intro current b t after compiled
    obtain ⟨parent, table, -, -, inner⟩ := run_hop_ok compiled
    exact ih named inner
  | item name element =>
    intro current b t after compiled
    cases compiled
  | not operand ih => exact nests_not (ih named)
  | negate operand ih => exact nests_negate (ih named)
  | binary op left right ihLeft ihRight => exact nests_binary (ihLeft named) (ihRight named)
  | oneOf operand items ih ihItems =>
    exact nests_oneOf (ih named) fun x mem => ihItems x mem named
  | call f arguments type ihItems => exact nests_call fun x mem => ihItems x mem named
  | nonEmpty scope source => exact nests_nonEmpty named scope source
  | quantified scope source quantifier name predicate ih =>
    exact nests_quantified named scope source quantifier name fun named => ih named

end Expression

/-- A selection is tied to one of the tables around it by an alias that no two of them share. -/
structure Nesting.IsTied (n : Nesting) : Prop where
  distinct : n.enclosing.Nodup
  own : n.tied = n.own
  around : n.parent ∈ n.enclosing

/-- A selection hides none of the aliases around it. -/
def Nesting.IsApart (n : Nesting) : Prop :=
  n.own ∉ n.enclosing

namespace Expression

/-- The aliases around an expression: those of the variables and that of the root. -/
def aliasesAround (binders : List Binder) : List String :=
  binders.map (·.name) ++ [rootAlias]

/-- A generated alias is not hidden by the root, so it is apart when no variable has its name. -/
theorem anyAlias_mem_aliasesAround {depth : Nat} {binders : List Binder} :
    anyAlias depth ∈ aliasesAround binders ↔ anyAlias depth ∈ binders.map (·.name) := by
  rw [aliasesAround, List.mem_append, List.mem_singleton, anyAlias]
  exact or_iff_left (anyAlias_ne _).1

/-- The selections of an expression are tied, and apart exactly where it spares the aliases. -/
def AreTied (depth : Nat) (binders : List Binder) (x : Expression) : Prop :=
  (∀ n ∈ x.nestings depth (aliasesAround binders), n.IsTied) ∧
    (x.sparesAliases depth (binders.map (·.name)) = true ↔
      ∀ n ∈ x.nestings depth (aliasesAround binders), n.IsApart)

/-- The selections of several expressions are tied and apart where those of each of them are. -/
theorem areTied_items {depth : Nat} {binders : List Binder} {items : List Expression}
    (each : ∀ x ∈ items, x.AreTied depth binders) :
    (∀ n ∈ allNestings depth (aliasesAround binders) items, n.IsTied) ∧
      (allSpareAliases depth (binders.map (·.name)) items = true ↔
        ∀ n ∈ allNestings depth (aliasesAround binders) items, n.IsApart) := by
  induction items with
  | nil => exact ⟨nofun, fun _ => nofun, fun _ => rfl⟩
  | cons x rest ih =>
    obtain ⟨⟨tied, apart⟩, others⟩ := List.forall_mem_cons.mp each
    obtain ⟨tied', apart'⟩ := ih others
    simp only [allNestings, allSpareAliases, Bool.and_eq_true, List.forall_mem_append]
    exact ⟨⟨tied, tied'⟩, and_congr apart apart'⟩

/-- The selections of a filter that was read are tied, and apart where it spares the aliases. -/
theorem ReadFrom.areTied {c : FilterContext} {tokens : List Token} {binders : List Binder}
    {start : Option (Scope × Frame)} {x : Expression} (read : x.ReadFrom c tokens binders start)
    (distinct : (aliasesAround binders).Nodup)
    (placed : ∀ scope frame, start = some (scope, frame) →
      scope.tableAlias ∈ aliasesAround binders) (depth : Nat) : x.AreTied depth binders := by
  induction read generalizing depth with
  | literal _ _ | item _ | property _ _ _ _ => exact ⟨nofun, fun _ => nofun, fun _ => rfl⟩
  | rooted _ ih =>
    refine ih distinct (fun scope frame same => ?_) depth
    cases same
    exact List.mem_append_right _ List.mem_cons_self
  | through found _ ih =>
    refine ih distinct (fun scope frame same => ?_) depth
    cases same
    have named := List.find?_some found
    rw [beq_iff_eq] at named
    exact List.mem_append_left _ (List.mem_map.mpr ⟨_, List.mem_of_find?_eq_some found, named⟩)
  | not _ _ ih | negate _ _ ih =>
    simp only [AreTied, nestings, sparesAliases]
    exact ih distinct nofun depth
  | hop _ _ _ _ _ _ _ _ ih =>
    simp only [AreTied, nestings, sparesAliases]
    refine ih distinct (fun scope frame same => ?_) depth
    cases same
    exact List.mem_append_right _ List.mem_cons_self
  | binary _ _ _ ihLeft ihRight =>
    obtain ⟨tied, apart⟩ := ihLeft distinct nofun depth
    obtain ⟨tied', apart'⟩ := ihRight distinct nofun depth
    simp only [AreTied, nestings, sparesAliases, Bool.and_eq_true, List.forall_mem_append]
    exact ⟨⟨tied, tied'⟩, and_congr apart apart'⟩
  | oneOf _ _ _ _ ih ihItems =>
    obtain ⟨tied, apart⟩ := ih distinct nofun depth
    obtain ⟨tied', apart'⟩ := areTied_items fun x mem => ihItems x mem distinct nofun depth
    simp only [AreTied, nestings, sparesAliases, Bool.and_eq_true, List.forall_mem_append]
    exact ⟨⟨tied, tied'⟩, and_congr apart apart'⟩
  | call _ _ ihItems =>
    simp only [AreTied, nestings, sparesAliases]
    exact areTied_items fun x mem => ihItems x mem distinct nofun depth
  | nonEmpty _ _ _ _ =>
    simp only [AreTied, nestings, sparesAliases, List.forall_mem_singleton]
    refine ⟨⟨distinct, rfl, placed _ _ rfl⟩, ?_⟩
    simp [Nesting.IsApart, anyAlias_mem_aliasesAround]
  | @quantified binders scope frame source binder t v quantifier predicate _ _ _ ranges _ _ notRoot
      fresh _ _ ih =>
    have name : (binder v.text).name = v.text := ranges.binder_name _
    have new : v.text ∉ aliasesAround binders := by
      rw [aliasesAround, List.mem_append, List.mem_singleton]
      rintro (inside | root)
      · obtain ⟨b, mem, same⟩ := List.mem_map.mp inside
        exact fresh b mem same
      · exact notRoot root
    have around : aliasesAround (binder v.text :: binders) = v.text :: aliasesAround binders := by
      rw [aliasesAround, List.map_cons, name]
      rfl
    obtain ⟨tied, apart⟩ := ih (around ▸ List.nodup_cons.mpr ⟨new, distinct⟩) nofun (depth + 1)
    rw [around, List.map_cons, name] at *
    simp only [AreTied, nestings, sparesAliases, List.forall_mem_cons]
    exact ⟨⟨⟨distinct, rfl, placed _ _ rfl⟩, tied⟩,
      apart.trans ⟨fun apart => ⟨new, apart⟩, fun both => both.2⟩⟩

end Expression

/--
Each selection of a compiled filter is tied to the table that its quantifier starts from.

It does not hide any table around it, and so is never tied to itself, unless a quantifier without a
variable stands inside one whose variable has the name that is generated for it.
-/
theorem selections_stand_apart {m : Model} {set input : String} {filter : Expression}
    (read : parseFilter m set input = .ok filter) {ctx : SqlContext} {b after : Builder}
    {condition : SqlTerm} (compiled : (compileFilter ctx filter).run b = (.ok condition, after)) :
    condition.nestings [rootAlias] = filter.nestings b.depth [rootAlias] ∧
      (∀ n ∈ condition.nestings [rootAlias], n.IsTied) ∧
      (filter.sparesAliases b.depth [] = true ↔
        ∀ n ∈ condition.nestings [rootAlias], n.IsApart ∧ n.parent ≠ n.tied) := by
  obtain ⟨s, tokens, -, -, readFrom, -⟩ := parseFilter_sound read
  rw [compileFilter] at compiled
  obtain ⟨joins, -, compiled⟩ := run_known_bind_ok compiled
  obtain ⟨_, joined, adds, compiled⟩ := run_bind_ok compiled
  cases adds
  obtain ⟨-, nested⟩ := Expression.nests_term ctx filter (by simp) compiled
  have nested : condition.nestings [rootAlias] = filter.nestings b.depth [rootAlias] := nested
  obtain ⟨tied, apart⟩ := readFrom.areTied (List.nodup_singleton _) (by simp) b.depth
  rw [nested]
  refine ⟨rfl, tied, apart.trans (forall₂_congr fun n mem => ?_)⟩
  -- What ties a selection names a table around it, which is not its own if that is apart.
  refine ⟨fun apart => ⟨apart, fun same => apart ?_⟩, And.left⟩
  have isTied := tied n mem
  exact isTied.own ▸ same ▸ isTied.around

/-- Parts of parts. -/
def partType : EntityType :=
  ⟨"Part", some "id",
    [Service.plainProperty "id" (.integer .int32), Service.plainProperty "whole" (.integer .int32)],
    [⟨"parts", "Part", true, [⟨"id", "whole"⟩]⟩]⟩

/-- A set of parts, each of which leads to its own parts. -/
def partModel : Model :=
  ⟨.default, [], [partType], [⟨"parts", partType, .all, .memory⟩], [⟨"parts", "parts", "parts"⟩]⟩

/-- What conditions on parts are written for. -/
def partContext : SqlContext :=
  ⟨.sqlite, ⟨"t_parts", partType⟩, fun _ => some ⟨"t_parts", partType⟩⟩

/-- The parts behind a scope. -/
def partsOf (scope : Scope) (variable_ : Option (String × Expression)) : Expression :=
  match variable_ with
  | none => .nonEmpty scope (.related ⟨"parts", "Part", true, [⟨"id", "whole"⟩]⟩ "parts")
  | some (name, predicate) =>
    .quantified scope (.related ⟨"parts", "Part", true, [⟨"id", "whole"⟩]⟩ "parts") .any name
      predicate

/-- Parts of parts of parts are told apart even where a variable has a name like a generated one. -/
theorem selections_stand_apart_in_parts :
    ∃ filter condition after,
      parseFilter partModel "parts" "parts/any($any1:$any1/parts/any(p:p/parts/any()))"
        = .ok filter ∧
      (compileFilter partContext filter).run .empty = (.ok condition, after) ∧
      filter.sparesAliases 0 [] = true ∧
      condition.nestings [rootAlias] =
        [⟨"$any1", "$any1", "$it", ["$it"]⟩, ⟨"p", "p", "$any1", ["$any1", "$it"]⟩,
          ⟨"$any3", "$any3", "p", ["p", "$any1", "$it"]⟩] ∧
      ∀ n ∈ condition.nestings [rootAlias], n.IsTied ∧ n.IsApart := by
  have read : parseFilter partModel "parts" "parts/any($any1:$any1/parts/any(p:p/parts/any()))"
      = .ok (partsOf .root (some ("$any1", partsOf (.bound "$any1")
        (some ("p", partsOf (.bound "p") none))))) := by
    cbv
  have compiles : ∃ condition after, (compileFilter partContext (partsOf .root (some ("$any1",
      partsOf (.bound "$any1") (some ("p", partsOf (.bound "p") none)))))).run .empty
        = (.ok condition, after) := ⟨_, _, rfl⟩
  obtain ⟨condition, after, compiled⟩ := compiles
  have spares : (partsOf .root (some ("$any1", partsOf (.bound "$any1")
      (some ("p", partsOf (.bound "p") none))))).sparesAliases 0 [] = true := by decide
  obtain ⟨nested, tied, apart⟩ := selections_stand_apart read compiled
  exact ⟨_, condition, after, read, compiled, spares, nested,
    fun n mem => ⟨tied n mem, (apart.mp spares n mem).1⟩⟩

/-- The condition that a part has parts of some part; the inner alias hides the outer one. -/
def hidingCondition : SqlTerm :=
  .existsWith ⟨"t_parts", "$any2", ⟨"$any2", "whole"⟩, ⟨"$it", "id"⟩⟩
    (.exists_ ⟨"t_parts", "$any2", ⟨"$any2", "whole"⟩, ⟨"$any2", "id"⟩⟩)

/-- A quantifier inside one whose variable has its generated name is tied to itself. -/
theorem selection_is_tied_to_itself :
    let filter := partsOf .root (some ("$any2", partsOf (.bound "$any2") none))
    Draft.build ⟨.default, [], [], partModel.sets, partModel.bindings⟩ = .ok partModel ∧
    parseFilter partModel "parts" "parts/any($any2:$any2/parts/any())" = .ok filter ∧
    (compileFilter partContext filter).run .empty = (.ok hidingCondition, .empty) ∧
    ∃ n ∈ hidingCondition.nestings [rootAlias], n.own ∈ n.enclosing ∧ n.parent = n.tied := by
  refine ⟨by rfl, by cbv, by rfl, ⟨"$any2", "$any2", "$any2", ["$any2", "$it"]⟩, ?_, ?_, rfl⟩
  · exact List.mem_cons_of_mem _ List.mem_cons_self
  · exact List.mem_cons_self

end EdmQuery
