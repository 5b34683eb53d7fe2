import Mathlib
import EdmQuery.Proofs.Sql.Aliases
import EdmQuery.Proofs.Sql.Explanation
import EdmQuery.Proofs.Sql.Fallback
import EdmQuery.Proofs.Sql.Nesting

/-! Every column of a statement is that of a table that the statement binds where the column is. -/

namespace EdmQuery

/-- A column that is referred to, where some aliases are bound. -/
structure Reference where
  column : Column
  reach : List String
  deriving DecidableEq

/-- The alias in front of a column is bound. -/
def Reference.IsBound (r : Reference) : Prop :=
  r.column.table ∈ r.reach

/-- The columns by which a selection is tied to another one, which both aliases can be seen from. -/
def Correlation.references (reach : List String) (source : Correlation) : List Reference :=
  [⟨source.column, source.tableAlias :: reach⟩, ⟨source.parent, source.tableAlias :: reach⟩]

namespace SqlTerm

mutual

/-- The columns in a term, each with the aliases around the term and of the selections around it. -/
def references (reach : List String) : SqlTerm → List Reference
  | column c => [⟨c, reach⟩]
  | not operand => operand.references reach
  | negate operand => operand.references reach
  | nullTest operand _ => operand.references reach
  | binary _ left right => left.references reach ++ right.references reach
  | integerQuotient left right => left.references reach ++ right.references reach
  | oneOf operand items => operand.references reach ++ allReferences reach items
  | call _ arguments => allReferences reach arguments
  | exists_ source => source.references reach
  | existsWith source condition =>
    source.references reach ++ condition.references (source.tableAlias :: reach)
  | existsNoneWithout source condition =>
    source.references reach ++ condition.references (source.tableAlias :: reach)
  | textTests tests => tests.map fun t => ⟨t.column, reach⟩
  | _ => []

/-- The columns in several terms. -/
def allReferences (reach : List String) : List SqlTerm → List Reference
  | [] => []
  | x :: rest => x.references reach ++ allReferences reach rest

end

/-- Every column in a term has a bound alias, given those around the term. -/
def IsClosed (reach : List String) (t : SqlTerm) : Prop :=
  ∀ r ∈ t.references reach, r.IsBound

/-- Every column in several terms has a bound alias. -/
def AllClosed (reach : List String) (ts : List SqlTerm) : Prop :=
  ∀ r ∈ allReferences reach ts, r.IsBound

end SqlTerm

/-- The columns that joins are tied by, each with the aliases before and of the join. -/
def joinReferences (reach : List String) : List Join → List Reference
  | [] => []
  | j :: rest => j.correlation.references reach ++ joinReferences (j.tableAlias :: reach) rest

namespace Select

/-- The aliases of the tables that are selected from. -/
def aliases (s : Select) : List String :=
  rootAlias :: s.joins.map (·.tableAlias)

/-- The columns in a selection: those that are shown, of joins, of conditions and of the order. -/
def references (s : Select) : List Reference :=
  (s.table.type.properties.map fun p => ⟨⟨rootAlias, p.column⟩, s.aliases⟩) ++
    joinReferences [rootAlias] s.joins ++
    s.conditions.flatMap (·.references s.aliases) ++
    s.order.map fun t => ⟨⟨rootAlias, t.column⟩, s.aliases⟩

/-- Every column in a selection has a bound alias, and no alias is that of two joins. -/
structure IsClosed (s : Select) : Prop where
  bound : ∀ r ∈ s.references, r.IsBound
  distinct : (s.joins.map (·.tableAlias)).Nodup

end Select

/-- A step that, between numbers of open quantifiers, joins nothing and has results of a kind. -/
def Compile.Yields {α : Type} (opened closed : Nat) (P : α → Prop) (step : Compile α) : Prop :=
  ∀ ⦃b a after⦄, b.depth = opened → step.run b = (.ok a, after) →
    after.depth = closed ∧ after.joins = b.joins ∧ P a

namespace Compile.Yields

variable {α β : Type} {d e f : Nat} {P : α → Prop} {Q : β → Prop} {step : Compile α}

/-- A value of the kind may be returned. -/
protected theorem pure {a : α} (holds : P a) : Yields d d P (Pure.pure a) := by
  intro b _ after depth done
  cases done
  exact ⟨depth, rfl, holds⟩

/-- A refusal has no result. -/
theorem refused (reason : String) : Yields d e P (unsupported reason : Compile α) := by
  intro b a after depth done
  cases done

/-- Nor has what comes behind one. -/
theorem refused_bind (reason : String) (next : α → Compile β) :
    Yields d e Q (unsupported reason >>= next) := by
  intro b r after depth done
  cases done

/-- Two steps, one after the other, join nothing when neither does. -/
theorem bind {next : α → Compile β} (first : Yields d e P step)
    (second : ∀ a, P a → Yields e f Q (next a)) : Yields d f Q (step >>= next) := by
  intro b r after depth done
  obtain ⟨a, between, found, done⟩ := run_bind_ok done
  obtain ⟨depth, joins, holds⟩ := first depth found
  obtain ⟨depth', joins', holds'⟩ := second a holds depth done
  exact ⟨depth', joins'.trans joins, holds'⟩

/-- A step behind an outcome that is known beforehand can rely on what it is. -/
theorem known_bind {r : Except SqlError α} {next : α → Compile β}
    (second : ∀ a, r = .ok a → Yields d e Q (next a)) : Yields d e Q (known r >>= next) := by
  intro b t after depth done
  obtain ⟨a, found, done⟩ := run_known_bind_ok done
  exact second a found depth done

/-- A step that looks at the state finds the number of open quantifiers. -/
theorem get_bind {next : Builder → Compile β}
    (second : ∀ b, b.depth = d → Yields d e Q (next b)) : Yields d e Q (get >>= next) := by
  intro b t after depth done
  exact second b depth depth done

/-- A step that is refused under some condition can rely on the opposite. -/
theorem guarded {p : Prop} [Decidable p] {reason : String} {next : Unit → Compile β}
    (first : ¬p → Yields d e Q (next ())) :
    Yields d e Q (if p then unsupported reason >>= next else next ()) := by
  split
  · exact .refused_bind reason next
  · rename_i free
    exact first free

end Compile.Yields

open Compile

/-- A quantifier is opened. -/
theorem openQuantifier_yields (d : Nat) : Yields d (d + 1) (fun _ => True) openQuantifier := by
  intro b _ after depth done
  cases done
  exact ⟨congrArg (· + 1) depth, rfl, trivial⟩

/-- A quantifier is closed. -/
theorem closeQuantifier_yields (d : Nat) : Yields (d + 1) d (fun _ => True) closeQuantifier := by
  intro b _ after depth done
  cases done
  exact ⟨congrArg (· - 1) depth, rfl, trivial⟩

section

variable {ctx : SqlContext} {reach : List String} {locals : List (String × TableFrame)} {d : Nat}

/-- A literal has no columns. -/
theorem literalTerm_yields (value : Value) : Yields d d (·.IsClosed reach) (literalTerm value) := by
  have bound (value : Value) : Yields d d (·.IsClosed reach) (bindValue value) := by
    intro b t after depth done
    cases done
    exact ⟨depth, rfl, nofun⟩
  rcases value with _ | s | _
  · exact .pure nofun
  · cases s with
    | enum => exact .pure nofun
    | _ => exact bound _
  · exact .refused _

/-- The table that a scope names is the root or one of a variable. -/
theorem frame_mem (atRoot : rootAlias ∈ reach)
    (within : ∀ entry ∈ locals, entry.2.tableAlias ∈ reach) {scope : Scope} {frame : TableFrame}
    (found : ctx.frame locals scope = .ok frame) : frame.tableAlias ∈ reach := by
  cases scope with
  | root =>
    cases found
    exact atRoot
  | current => cases found
  | bound name =>
    rw [SqlContext.frame] at found
    split at found
    · rename_i known
      cases found
      obtain ⟨front, back, rfl, -⟩ := List.lookup_eq_some_iff.mp known
      exact within (name, frame) (List.mem_append_right _ List.mem_cons_self)
    · cases found

/-- A selection is tied by columns with bound aliases if the other one is around it. -/
theorem closed_correlation {source : Correlation} (own : source.column.table = source.tableAlias)
    (parent : source.parent.table ∈ reach) : ∀ r ∈ source.references reach, r.IsBound := by
  refine List.forall_mem_cons.mpr ⟨?_, List.forall_mem_singleton.mpr ?_⟩
  · exact List.mem_cons.mpr (.inl own)
  · exact List.mem_cons_of_mem _ parent

namespace Expression

/-- The joins of an expression are looked for with success, and their aliases are bound. -/
def IsJoined (ctx : SqlContext) (type : EntityType) (end_ : PathEnd) (reach : List String)
    (x : Expression) : Prop :=
  ∃ joins, joinsFrom ctx.resolve ⟨none, type⟩ end_ x = .ok joins ∧ ∀ j ∈ joins, j.tableAlias ∈ reach

/-- Several expressions have their terms, one after the other. -/
theorem terms_yield {current : TableFrame} {items : List Expression}
    (each : ∀ x ∈ items, Yields d d (·.IsClosed reach) (x.term ctx locals current)) :
    Yields d d (SqlTerm.AllClosed reach) (terms ctx locals current items) := by
  induction items with
  | nil => exact .pure nofun
  | cons x rest ih =>
    obtain ⟨first, others⟩ := List.forall_mem_cons.mp each
    rw [terms]
    exact .bind first fun t closed => .bind (ih others) fun ts closed' =>
      .pure (List.forall_mem_append.mpr ⟨closed, closed'⟩)

variable {type : EntityType} {end_ : PathEnd}

/-- The joins of several expressions are those of each of them. -/
theorem isJoined_items {items : List Expression} {joins : List Join}
    (found : joinsFromList ctx.resolve ⟨none, type⟩ end_ items = .ok joins)
    (within : ∀ j ∈ joins, j.tableAlias ∈ reach) : ∀ x ∈ items, x.IsJoined ctx type end_ reach := by
  induction items generalizing joins with
  | nil => exact nofun
  | cons x rest ih =>
    rw [joinsFromList] at found
    obtain ⟨first, foundFirst, found⟩ := bind_ok found
    obtain ⟨others, foundOthers, found⟩ := bind_ok found
    cases found
    obtain ⟨withinFirst, withinOthers⟩ := List.forall_mem_append.mp within
    exact List.forall_mem_cons.mpr ⟨⟨first, foundFirst, withinFirst⟩, ih foundOthers withinOthers⟩

/-- The joins of an operation are those of its operands. -/
theorem IsJoined.operands {op : BinaryOp} {left right : Expression}
    (joined : (binary op left right).IsJoined ctx type end_ reach) :
    left.IsJoined ctx type end_ reach ∧ right.IsJoined ctx type end_ reach := by
  obtain ⟨joins, found, within⟩ := joined
  rw [joinsFrom] at found
  obtain ⟨l, foundL, found⟩ := bind_ok found
  obtain ⟨r, foundR, found⟩ := bind_ok found
  cases found
  obtain ⟨withinL, withinR⟩ := List.forall_mem_append.mp within
  exact ⟨⟨l, foundL, withinL⟩, ⟨r, foundR, withinR⟩⟩

/-- The joins of alternatives are those of the operand and of each of them. -/
theorem IsJoined.alternatives {operand : Expression} {items : List Expression}
    (joined : (oneOf operand items).IsJoined ctx type end_ reach) :
    operand.IsJoined ctx type end_ reach ∧ ∀ x ∈ items, x.IsJoined ctx type end_ reach := by
  obtain ⟨joins, found, within⟩ := joined
  rw [joinsFrom] at found
  obtain ⟨l, foundL, found⟩ := bind_ok found
  obtain ⟨r, foundR, found⟩ := bind_ok found
  cases found
  obtain ⟨withinL, withinR⟩ := List.forall_mem_append.mp within
  exact ⟨⟨l, foundL, withinL⟩, isJoined_items foundR withinR⟩

/-- The joins of a call are those of its arguments. -/
theorem IsJoined.arguments {f : BuiltIn} {arguments : List Expression} {result : PrimitiveType}
    (joined : (call f arguments result).IsJoined ctx type end_ reach) :
    ∀ x ∈ arguments, x.IsJoined ctx type end_ reach := by
  obtain ⟨joins, found, within⟩ := joined
  rw [joinsFrom] at found
  exact isJoined_items found within

/-- The joins of a hop are the one of its target, found under its alias, and those behind it. -/
theorem IsJoined.behind {scope : Scope} {n : Navigation} {target : String} {inner : Expression}
    {start : PathEnd}
    (from_ : scope = .root ∧ start = ⟨none, type⟩ ∨ scope = .current ∧ start = end_)
    (joined : (hop scope n target inner).IsJoined ctx type end_ reach) {table : Table}
    (resolved : ctx.resolve.table target = .ok table) :
    joinAlias start.tableAlias n.name ∈ reach ∧
      inner.IsJoined ctx type ⟨some (joinAlias start.tableAlias n.name), table.type⟩ reach := by
  obtain ⟨joins, found, within⟩ := joined
  have found : (do
      let constraint ← soleConstraint n
      let table ← ctx.resolve.table target
      let column ← columnOf table.type constraint.referenced
      let related ← columnOf start.type constraint.property
      let name := joinAlias start.tableAlias n.name
      let parent := start.tableAlias.getD rootAlias
      let more ← joinsFrom ctx.resolve ⟨none, type⟩ ⟨some name, table.type⟩ inner
      return (⟨name, table.name, column, ⟨parent, related⟩⟩ : Join) :: more) = .ok joins := by
    obtain ⟨rfl, rfl⟩ | ⟨rfl, rfl⟩ := from_ <;> rw [joinsFrom] at found
    · exact found
    · simp
    · exact found
    · simp
  obtain ⟨con, sole, found⟩ := bind_ok found
  obtain ⟨table', resolved', found⟩ := bind_ok found
  cases resolved.symm.trans resolved'
  obtain ⟨column, remote, found⟩ := bind_ok found
  obtain ⟨related, local_, found⟩ := bind_ok found
  obtain ⟨more, foundMore, found⟩ := bind_ok found
  cases found
  obtain ⟨own, others⟩ := List.forall_mem_cons.mp within
  exact ⟨own, more, foundMore, others⟩

/--
The columns in the term of a filter have bound aliases, given those of its joins.

Quantifiers have no joins, and so no hops: these are refused below them.
-/
theorem ReadFrom.yields {c : FilterContext} {tokens : List Token} {binders : List Binder}
    {start : Option (Scope × Frame)} {x : Expression} (read : x.ReadFrom c tokens binders start)
    {current : TableFrame} (atRoot : rootAlias ∈ reach)
    (within : ∀ entry ∈ locals, entry.2.tableAlias ∈ reach) (atCurrent : current.tableAlias ∈ reach)
    (behind : ∀ frame, start = some (.current, frame) → end_.tableAlias = some current.tableAlias)
    (joined : d = 0 → x.IsJoined ctx type end_ reach) :
    Yields d d (·.IsClosed reach) (x.term ctx locals current) := by
  induction read generalizing reach locals d current end_ with
  | literal _ _ =>
    rw [term]
    exact literalTerm_yields _
  | rooted _ ih => exact ih atRoot within atCurrent nofun joined
  | through _ _ ih => exact ih atRoot within atCurrent nofun joined
  | item _ =>
    rw [term]
    exact .refused _
  | not _ _ ih =>
    simp only [IsJoined, joinsFrom] at joined
    rw [term]
    exact .bind (ih atRoot within atCurrent nofun joined) fun t closed => .pure closed
  | negate _ _ ih =>
    simp only [IsJoined, joinsFrom] at joined
    rw [term]
    split
    · exact .refused _
    · exact .bind (ih atRoot within atCurrent nofun joined) fun t closed => .pure closed
  | binary _ _ _ ihL ihR =>
    have left := ihL atRoot within atCurrent nofun fun outside => (joined outside).operands.1
    have right := ihR atRoot within atCurrent nofun fun outside => (joined outside).operands.2
    rw [term]
    split
    · exact .bind right fun t closed => .pure closed
    split
    · exact .bind left fun t closed => .pure closed
    split
    · exact .refused _
    · refine .bind left fun l closedL => .bind right fun r closedR => ?_
      have both := List.forall_mem_append.mpr ⟨closedL, closedR⟩
      split <;> exact .pure both
  | oneOf _ _ _ _ ih ihItems =>
    rw [term]
    refine .bind (ih atRoot within atCurrent nofun fun outside => (joined outside).alternatives.1)
      fun t closed => .bind (terms_yield fun x mem => ihItems x mem atRoot within atCurrent nofun
        fun outside => (joined outside).alternatives.2 x mem) fun ts closed' => .pure ?_
    exact List.forall_mem_append.mpr ⟨closed, closed'⟩
  | call _ _ ihItems =>
    rw [term]
    exact .known_bind fun template _ => .bind (terms_yield fun x mem => ihItems x mem atRoot within
      atCurrent nofun fun outside => (joined outside).arguments x mem) fun ts closed => .pure closed
  | property _ _ _ _ =>
    have closed {frame : TableFrame} (p : Property) (bound : frame.tableAlias ∈ reach) :
        (SqlTerm.column ⟨frame.tableAlias, p.column⟩).IsClosed reach :=
      List.forall_mem_singleton.mpr bound
    rw [term]
    split
    · exact .bind (.pure atCurrent) fun frame bound => .pure (closed _ bound)
    · exact .known_bind fun frame found => .pure (closed _ (frame_mem atRoot within found))
  | @hop binders scope frame t n target set inner mem named unshadowed found single bound present _
      ih =>
    rw [term]
    refine .get_bind fun b depth => ?_
    -- The term goes on from the alias under which the hop is joined.
    have joinedBehind {parent : PathEnd} (outside : ¬0 < b.depth)
        (from_ : scope = .root ∧ parent = ⟨none, type⟩ ∨ scope = .current ∧ parent = end_) :
        Yields d d (·.IsClosed reach) (do
          let table ← known (ctx.resolve.table target)
          inner.term ctx locals ⟨joinAlias parent.tableAlias n.name, table.type⟩) := by
      refine .known_bind fun table resolved => ?_
      have isZero : d = 0 := by omega
      obtain ⟨own, inside⟩ := (joined isZero).behind from_ resolved
      exact ih atRoot within own (fun _ _ => rfl) fun _ => inside
    cases scope with
    | root =>
      refine .guarded fun outside => .bind (P := (· = none)) (.pure rfl) ?_
      rintro _ rfl
      exact joinedBehind outside (.inl ⟨rfl, rfl⟩)
    | current =>
      refine .guarded fun outside => .bind (P := (· = some current.tableAlias)) (.pure rfl) ?_
      rintro _ rfl
      rw [← behind frame rfl]
      exact joinedBehind outside (.inr ⟨rfl, rfl⟩)
    | bound name => exact .guarded fun _ => .refused_bind _ _
  | @nonEmpty binders scope frame source binder t mem named spelled ranges =>
    rw [term]
    refine .known_bind fun ⟨n, target⟩ _ => .known_bind fun parent found =>
      .known_bind fun ⟨table, column, related⟩ ties => .bind (openQuantifier_yields d) fun i _ =>
      .bind (closeQuantifier_yields d) fun _ _ => .pure ?_
    exact closed_correlation rfl (parent_of_correlate ties ▸ frame_mem atRoot within found)
  | @quantified binders scope frame source binder t v quantifier predicate mem named spelled ranges
      memV namedV notRoot fresh _ fit ih =>
    rw [term]
    refine .known_bind fun ⟨n, target⟩ _ => .known_bind fun parent found =>
      .known_bind fun ⟨table, column, related⟩ ties => .bind (openQuantifier_yields d) fun _ _ => ?_
    have tied : ∀ r ∈ (⟨table.name, v.text, ⟨v.text, column⟩, related⟩ : Correlation).references
        reach, r.IsBound :=
      closed_correlation rfl (parent_of_correlate ties ▸ frame_mem atRoot within found)
    -- Under the quantifier, its variable is one more alias.
    have inner : Yields (d + 1) (d + 1) (·.IsClosed (v.text :: reach))
        (predicate.term ctx ((v.text, ⟨v.text, table.type⟩) :: locals) ⟨v.text, table.type⟩) :=
      @ih _ _ _ end_ _ (List.mem_cons_of_mem _ atRoot)
        (List.forall_mem_cons.mpr ⟨List.mem_cons_self, fun entry mem =>
          List.mem_cons_of_mem _ (within entry mem)⟩) List.mem_cons_self nofun nofun
    refine .bind inner fun condition closed => .bind (closeQuantifier_yields d) fun _ _ => ?_
    have all := List.forall_mem_append.mpr ⟨tied, closed⟩
    cases quantifier <;> exact .pure all

end Expression

/-- Joins, each of which is tied to a table before it. -/
inductive Linked : List String → List Join → Prop where
  | nil (known : List String) : Linked known []
  | cons {known : List String} {j : Join} {rest : List Join} (parent : j.parent.table ∈ known)
      (linked : Linked (j.tableAlias :: known) rest) : Linked known (j :: rest)

namespace Linked

variable {known more : List String} {joins others : List Join}

/-- Joins stay tied where more tables come before them. -/
theorem mono (linked : Linked known joins) (subset : known ⊆ more) : Linked more joins := by
  induction linked generalizing more with
  | nil => exact .nil _
  | cons parent _ ih => exact .cons (subset parent) (ih (List.cons_subset_cons _ subset))

/-- Joins may be followed by others that are tied to them. -/
theorem append (linked : Linked known joins)
    (next : Linked (joins.map (·.tableAlias) ++ known) others) :
    Linked known (joins ++ others) := by
  induction linked with
  | nil => exact next
  | @cons known j rest parent _ ih =>
    exact .cons parent (ih (next.mono List.perm_middle.symm.subset))

/-- The columns that joins are tied by have bound aliases. -/
theorem bound (linked : Linked known joins) : ∀ r ∈ joinReferences known joins, r.IsBound := by
  induction linked with
  | nil => exact nofun
  | cons parent _ ih => exact List.forall_mem_append.mpr ⟨closed_correlation rfl parent, ih⟩

end Linked

/-- Joins of different aliases, each of which is tied to the root or to one before it. -/
structure JoinsSound (joins : List Join) : Prop where
  distinct : (joins.map (·.tableAlias)).Nodup
  linked : Linked [rootAlias] joins

/-- No joins are sound. -/
theorem JoinsSound.nil : JoinsSound [] :=
  ⟨List.nodup_nil, .nil _⟩

/-- Joins stay sound when others are added that are tied to them or to each other. -/
theorem JoinsSound.addJoins {found joins : List Join} (sound : JoinsSound found)
    {known : List String} (linked : Linked known joins)
    (subset : known ⊆ found.map (·.tableAlias) ++ [rootAlias]) :
    JoinsSound (EdmQuery.addJoins found joins) := by
  induction linked generalizing found with
  | nil => exact sound
  | @cons known j rest parent _ ih =>
    rw [EdmQuery.addJoins]
    split
    · -- A join whose alias is there is left out, and those behind it are tied to the one there.
      rename_i present
      obtain ⟨kept, mem, same⟩ := List.any_eq_true.mp present
      have own : j.tableAlias ∈ found.map (·.tableAlias) :=
        List.mem_map.mpr ⟨kept, mem, eq_of_beq same⟩
      exact ih sound (List.cons_subset.mpr ⟨List.mem_append_left _ own, subset⟩)
    · rename_i absent
      refine ih ⟨?_, sound.linked.append (.cons (subset parent) (.nil _))⟩ ?_
      · rw [List.map_append]
        refine List.nodup_append.mpr ⟨sound.distinct, List.nodup_singleton _, ?_⟩
        rintro name among _ own rfl
        cases List.mem_singleton.mp own
        obtain ⟨kept, mem, same⟩ := List.mem_map.mp among
        exact absent (List.any_eq_true.mpr ⟨kept, mem, beq_iff_eq.mpr same⟩)
      · rw [List.map_append, List.append_assoc]
        refine List.cons_subset.mpr ⟨?_, fun name mem => ?_⟩
        · exact List.mem_append_right _ (List.mem_append_left _ List.mem_cons_self)
        · exact (List.mem_append.mp (subset mem)).elim (List.mem_append_left _)
            fun last => List.mem_append_right _ (List.mem_append_right _ last)

/-- The joins of several expressions are tied when those of each one are. -/
theorem Expression.linked_joinsFromList {resolve : Resolver} {root current : PathEnd}
    {items : List Expression} {joins : List Join} {known : List String}
    (each : ∀ x ∈ items, ∀ joins, joinsFrom resolve root current x = .ok joins → Linked known joins)
    (found : joinsFromList resolve root current items = .ok joins) : Linked known joins := by
  induction items generalizing joins with
  | nil =>
    cases found
    exact .nil _
  | cons x rest ih =>
    obtain ⟨first, others⟩ := List.forall_mem_cons.mp each
    rw [joinsFromList] at found
    obtain ⟨joinsOfFirst, foundFirst, found⟩ := bind_ok found
    obtain ⟨joinsOfRest, foundRest, found⟩ := bind_ok found
    cases found
    exact (first _ foundFirst).append ((ih others foundRest).mono (List.subset_append_right _ _))

/-- Every join of an expression is tied to the root, to where it stands or to one before. -/
theorem Expression.linked_joinsFrom {resolve : Resolver} {root current : PathEnd} {x : Expression}
    {joins : List Join} {known : List String} (atRoot : root.tableAlias.getD rootAlias ∈ known)
    (atCurrent : current.tableAlias.getD rootAlias ∈ known)
    (found : joinsFrom resolve root current x = .ok joins) : Linked known joins := by
  induction x using Expression.induction generalizing current joins known with
  | hop scope n target inner ih =>
    cases scope with
    | bound name =>
      rw [joinsFrom] at found
      cases found
      exact .nil _
    | _ =>
      rw [joinsFrom] at found
      · obtain ⟨con, sole, found⟩ := bind_ok found
        obtain ⟨table, resolved, found⟩ := bind_ok found
        obtain ⟨column, remote, found⟩ := bind_ok found
        obtain ⟨related, local_, found⟩ := bind_ok found
        obtain ⟨more, foundMore, found⟩ := bind_ok found
        cases found
        -- The join is tied to where the path stands, and what is behind it stands at its alias.
        refine .cons ?_ (ih (List.mem_cons_of_mem _ atRoot) List.mem_cons_self foundMore)
        first | exact atRoot | exact atCurrent
      · simp
  | not operand ih | negate operand ih =>
    rw [joinsFrom] at found
    exact ih atRoot atCurrent found
  | binary op left right ihLeft ihRight =>
    rw [joinsFrom] at found
    obtain ⟨l, foundL, found⟩ := bind_ok found
    obtain ⟨r, foundR, found⟩ := bind_ok found
    cases found
    exact (ihLeft atRoot atCurrent foundL).append
      ((ihRight atRoot atCurrent foundR).mono (List.subset_append_right _ _))
  | oneOf operand items ih ihItems =>
    rw [joinsFrom] at found
    obtain ⟨l, foundL, found⟩ := bind_ok found
    obtain ⟨r, foundR, found⟩ := bind_ok found
    cases found
    refine (ih atRoot atCurrent foundL).append (.mono ?_ (List.subset_append_right _ _))
    exact linked_joinsFromList (fun x mem _ => ihItems x mem atRoot atCurrent) foundR
  | call f arguments type ihItems =>
    rw [joinsFrom] at found
    exact linked_joinsFromList (fun x mem _ => ihItems x mem atRoot atCurrent) found
  | _ =>
    simp only [joinsFrom] at found
    cases found
    exact .nil _

/-- A filter adds joins, and the columns of its condition are those of tables in sound joins. -/
theorem compileFilter_closed {c : FilterContext} {tokens : List Token} {filter : Expression}
    (read : filter.ReadFrom c tokens [] none) {b after : Builder} {condition : SqlTerm}
    (sound : JoinsSound b.joins)
    (compiled : (compileFilter ctx filter).run b = (.ok condition, after)) :
    JoinsSound after.joins ∧
      condition.IsClosed (rootAlias :: after.joins.map (·.tableAlias)) := by
  rw [compileFilter] at compiled
  obtain ⟨joins, discovered, compiled⟩ := run_known_bind_ok compiled
  obtain ⟨_, joined, adds, compiled⟩ := run_bind_ok compiled
  cases adds
  obtain ⟨all, found, rfl⟩ := map_ok discovered
  have ofFilter : JoinsSound (distinctJoins all) :=
    JoinsSound.nil.addJoins
      (Expression.linked_joinsFrom List.mem_cons_self List.mem_cons_self found)
      (List.subset_append_right _ _)
  have together : JoinsSound (addJoins b.joins (distinctJoins all)) :=
    sound.addJoins ofFilter.linked (List.subset_append_right _ _)
  have within : ∀ j ∈ all, j.tableAlias ∈
      rootAlias :: (addJoins b.joins (distinctJoins all)).map (·.tableAlias) := by
    intro j mem
    -- The alias stays when the joins of the filter are merged, and again when they are added.
    obtain ⟨first, memFirst, same, -⟩ := (addJoins_keeps [] all).2 j mem
    obtain ⟨kept, memKept, same', -⟩ :=
      (addJoins_keeps b.joins (distinctJoins all)).2 first memFirst
    exact List.mem_cons_of_mem _ (List.mem_map.mpr ⟨kept, memKept, same'.trans same⟩)
  obtain ⟨-, joins, closed⟩ := read.yields List.mem_cons_self (List.forall_mem_nil _)
    List.mem_cons_self (by simp) (fun _ => ⟨all, found, within⟩) rfl compiled
  -- The term adds no joins, so those that are there when it is made are there in the end.
  rw [joins]
  exact ⟨together, closed⟩

/-- The tests for a term look at the given columns. -/
theorem textTests_columns {caseSensitive : Bool} {text : String} {columns : List Column}
    {b after : Builder} {tests : List TextTest}
    (done : (textTests caseSensitive text columns).run b = (.ok tests, after)) :
    tests.map (·.column) = columns := by
  induction columns generalizing b tests with
  | nil =>
    cases done
    rfl
  | cons column rest ih =>
    rw [textTests] at done
    obtain ⟨_, _, got, done⟩ := run_bind_ok done
    cases got
    obtain ⟨_, _, added, done⟩ := run_bind_ok done
    cases added
    obtain ⟨others, _, more, done⟩ := run_bind_ok done
    cases done
    rw [List.map_cons, ih more]

/-- The columns of a search are those of the root. -/
theorem compileSearch_closed {caseSensitive : Bool} {search : Search} (atRoot : rootAlias ∈ reach)
    {b after : Builder} {condition : SqlTerm}
    (compiled : (compileSearch ctx caseSensitive search).run b = (.ok condition, after)) :
    condition.IsClosed reach := by
  induction search generalizing b after condition with
  | term text =>
    rw [compileSearch] at compiled
    obtain ⟨tests, _, done, made⟩ := run_bind_ok compiled
    cases made
    refine List.forall_mem_map.mpr fun t mem => ?_
    have among : t.column ∈ tests.map (·.column) := List.mem_map.mpr ⟨t, mem, rfl⟩
    rw [textTests_columns done] at among
    obtain ⟨p, -, same⟩ := List.mem_map.mp among
    rw [Reference.IsBound, ← same]
    exact atRoot
  | and l r ihL ihR | or l r ihL ihR =>
    rw [compileSearch] at compiled
    obtain ⟨left, _, doneL, compiled⟩ := run_bind_ok compiled
    obtain ⟨right, _, doneR, made⟩ := run_bind_ok compiled
    cases made
    exact List.forall_mem_append.mpr ⟨ihL doneL, ihR doneR⟩
  | not x ih =>
    rw [compileSearch] at compiled
    obtain ⟨operand, _, done, made⟩ := run_bind_ok compiled
    cases made
    have closed : operand.IsClosed reach := ih done
    exact closed

variable {config : Config} {s : Stages}

/-- The condition of a stage is there with the stage, and otherwise nothing happens. -/
theorem stageTerm_ok {α : Type} {stage : Option α} {compile : α → Compile SqlTerm}
    {b after : Builder} {condition : Option SqlTerm}
    (done : (stageTerm stage compile).run b = (.ok condition, after)) :
    condition = none ∧ after = b ∨
      ∃ a ∈ stage, ∃ t, condition = some t ∧ (compile a).run b = (.ok t, after) := by
  cases stage with
  | none =>
    cases done
    exact .inl ⟨rfl, rfl⟩
  | some a =>
    rw [stageTerm, map_eq_pure_bind] at done
    obtain ⟨t, between, compiled, made⟩ := run_bind_ok done
    cases made
    exact .inr ⟨a, rfl, t, rfl, compiled⟩

/-- Conditions of a filter that was read and of a search select from tables in the joins. -/
theorem closed_of_stageTerms {m : Model} {set : String} {kept : Option Expression}
    (read : ∀ filter ∈ kept, ∃ input, parseFilter m set input = .ok filter)
    {filter search : Option SqlTerm} {between b : Builder}
    (filters : (stageTerm kept (compileFilter ctx)).run .empty = (.ok filter, between))
    (searches : (stageTerm s.search (compileSearch ctx config.caseSensitive)).run between
      = (.ok search, b)) (order : List OrderTerm) (skip top : Option Nat) :
    Select.IsClosed ⟨ctx.table, b.joins, filter.toList ++ search.toList, order, skip, top⟩ := by
  have gathered : JoinsSound between.joins ∧
      ∀ t ∈ filter, t.IsClosed (rootAlias :: between.joins.map (·.tableAlias)) := by
    obtain ⟨rfl, rfl⟩ | ⟨x, mem, t, rfl, compiled⟩ := stageTerm_ok filters
    · exact ⟨.nil, nofun⟩
    · obtain ⟨input, parsed⟩ := read x mem
      obtain ⟨_, tokens, -, -, readFrom, -⟩ := parseFilter_sound parsed
      obtain ⟨sound, closed⟩ := compileFilter_closed readFrom .nil compiled
      refine ⟨sound, ?_⟩
      rintro _ ⟨⟩
      exact closed
  have searched : b.joins = between.joins ∧
      ∀ t ∈ search, t.IsClosed (rootAlias :: between.joins.map (·.tableAlias)) := by
    obtain ⟨rfl, rfl⟩ | ⟨x, -, t, rfl, compiled⟩ := stageTerm_ok searches
    · exact ⟨rfl, nofun⟩
    · obtain ⟨_, _, done, -, joins⟩ := compileSearch_total ctx config.caseSensitive x between
      cases compiled.symm.trans done
      refine ⟨joins, ?_⟩
      rintro _ ⟨⟩
      exact compileSearch_closed List.mem_cons_self compiled
  obtain ⟨sound, closed⟩ := gathered
  obtain ⟨joins, closed'⟩ := searched
  rw [joins]
  -- Columns that are shown or sorted by are those of the root.
  have ofRoot {α : Type} (items : List α) (name : α → String) {aliases : List String} :
      ∀ r ∈ items.map fun a => (⟨⟨rootAlias, name a⟩, rootAlias :: aliases⟩ : Reference),
        r.IsBound :=
    List.forall_mem_map.mpr fun _ _ => List.mem_cons_self
  have conditions : ∀ t ∈ filter.toList ++ search.toList,
      t.IsClosed (rootAlias :: between.joins.map (·.tableAlias)) :=
    List.forall_mem_append.mpr ⟨by simpa using closed, by simpa using closed'⟩
  refine ⟨?_, sound.distinct⟩
  simp only [Select.references, List.forall_mem_append]
  refine ⟨⟨⟨ofRoot _ _, sound.linked.bound⟩, fun r mem => ?_⟩, ofRoot _ _⟩
  obtain ⟨t, memT, among⟩ := List.mem_flatMap.mp mem
  exact conditions t memT r among

/-- What is pushed for a filter that was read selects from tables in the joins. -/
theorem closed_of_pushDown {m : Model} {set : String}
    (read : ∀ filter ∈ s.filter, ∃ input, parseFilter m set input = .ok filter) {pushed : Pushed}
    {b : Builder} (done : pushDown config ctx s = .ok (pushed, b)) (order : List OrderTerm)
    (skip top : Option Nat) :
    Select.IsClosed ⟨ctx.table, b.joins, pushed.conditions, order, skip, top⟩ := by
  obtain ⟨filter, search, between, first, second, rfl⟩ := pushDown_ok done
  obtain ⟨_, _, second', given⟩ := trySearch_pushed config ctx s between
  cases second.symm.trans second'
  have searches := stageTerm_of_pushed second (search_left given)
  obtain filters | ⟨rfl, -, rest, rfl⟩ := tryStage_ok first
  · exact closed_of_stageTerms read filters searches order skip top
  · -- A filter that is left to memory adds no condition and no joins.
    have unread : ∀ filter ∈ (none : Option Expression), ∃ input,
        parseFilter m set input = .ok filter := nofun
    exact closed_of_stageTerms unread rfl searches order skip top

/--
Every column in a statement has an alias that is bound where the column is.

This is the root or the alias of a join, for what ties a join its own or that of one before it, or
that of a selection around the column; and no two joins have the same alias. It holds for statements
that ask for rows or for their number, and for those that are explained.
-/
theorem aliases_are_bound {m : Model} {set : String}
    (read : ∀ filter ∈ s.filter, ∃ input, parseFilter m set input = .ok filter) :
    (∀ plan, planRows config ctx s = .ok plan → plan.select.IsClosed) ∧
      (∀ plan whole, planCount config ctx s = .ok (plan, whole) → plan.select.IsClosed) ∧
      ∀ select b, (explainSteps config ctx s).run .empty = (.ok select, b) → select.IsClosed := by
  refine ⟨fun plan planned => ?_, fun plan whole planned => ?_, fun select b explained => ?_⟩
  · obtain ⟨pushed, b, terms, done, -, ⟨-, -, select⟩ | ⟨-, -, select⟩⟩ := planRows_ok planned
    · rw [select]
      exact closed_of_pushDown read done terms s.skip s.top
    · rw [select]
      exact closed_of_pushDown read done terms none none
  · obtain ⟨⟨pushed, b⟩, done, planned⟩ := bind_ok planned
    cases planned
    exact closed_of_pushDown read done [] none none
  · rw [explainSteps_eq] at explained
    obtain ⟨filter, between, filters, explained⟩ := run_bind_ok explained
    obtain ⟨search, last, searches, explained⟩ := run_bind_ok explained
    obtain ⟨terms, -, explained⟩ := run_known_bind_ok explained
    cases explained
    exact closed_of_stageTerms read filters searches _ _ _

end

/-- Branches have a number and a label, grow from another branch, and have twigs of their own. -/
def branchType : EntityType :=
  ⟨"Branch", some "id",
    [Service.plainProperty "id" (.integer .int32), Service.plainProperty "of" (.integer .int32),
      ⟨"label", .primitive .string, true, true, none⟩],
    [⟨"stem", "Branch", false, [⟨"of", "id"⟩]⟩, ⟨"twigs", "Branch", true, [⟨"id", "of"⟩]⟩]⟩

/-- A set of branches. -/
def branchModel : Model :=
  ⟨.default, [], [branchType], [⟨"branches", branchType, .all, .memory⟩],
    [⟨"branches", "stem", "branches"⟩, ⟨"branches", "twigs", "branches"⟩]⟩

/-- What conditions on branches are written for. -/
def branchContext : SqlContext :=
  ⟨.postgres, ⟨"t_branches", branchType⟩, fun _ => some ⟨"t_branches", branchType⟩⟩

/-- Whether the stem of a branch has a stem, and a twig has twigs. -/
def branchFilter : Expression :=
  .binary .and
    (.binary .gt (.hop .root ⟨"stem", "Branch", false, [⟨"of", "id"⟩]⟩ "branches"
      (.hop .current ⟨"stem", "Branch", false, [⟨"of", "id"⟩]⟩ "branches"
        (.property .current (Service.plainProperty "id" (.integer .int32)))))
      (.literal (.integer 1)))
    (.quantified .root (.related ⟨"twigs", "Branch", true, [⟨"id", "of"⟩]⟩ "branches") .any "t"
      (.nonEmpty (.bound "t") (.related ⟨"twigs", "Branch", true, [⟨"id", "of"⟩]⟩ "branches")))

/-- The aliases in a statement about stems, twigs and a label are those of joins and selections. -/
theorem aliases_are_bound_in_branches :
    Draft.build ⟨.default, [], [], branchModel.sets, branchModel.bindings⟩ = .ok branchModel ∧
      parseFilter branchModel "branches" "stem/stem/id gt 1 and twigs/any(t:t/twigs/any())"
        = .ok branchFilter ∧
      ∃ plan, planRows .default branchContext
          ⟨some branchFilter, some (.term "old"), [], none, none⟩ = .ok plan ∧
        (plan.select.joins.map (·.tableAlias) = ["stem", "stem_stem"] ∧
          (plan.select.conditions.flatMap (·.references [])).map (·.column.table) =
            ["stem_stem", "t", "$it", "$any2", "t", "$it"]) ∧
        plan.select.IsClosed := by
  have parsed : parseFilter branchModel "branches"
      "stem/stem/id gt 1 and twigs/any(t:t/twigs/any())" = .ok branchFilter := by cbv
  have planned : ∃ plan, planRows .default branchContext
      ⟨some branchFilter, some (.term "old"), [], none, none⟩ = .ok plan ∧
        plan.select.joins.map (·.tableAlias) = ["stem", "stem_stem"] ∧
        (plan.select.conditions.flatMap (·.references [])).map (·.column.table) =
          ["stem_stem", "t", "$it", "$any2", "t", "$it"] := ⟨_, rfl, rfl, rfl⟩
  obtain ⟨plan, planned, shown⟩ := planned
  have read : ∀ filter ∈ some branchFilter, ∃ input,
      parseFilter branchModel "branches" input = .ok filter := by
    rintro _ ⟨⟩
    exact ⟨_, parsed⟩
  exact ⟨by rfl, parsed, plan, planned, shown, (aliases_are_bound read).1 plan planned⟩

end EdmQuery
