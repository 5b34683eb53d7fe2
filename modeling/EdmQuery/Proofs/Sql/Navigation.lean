import Mathlib
import EdmQuery.Proofs.Sql.Joins

/-! Filters along navigation properties choose the same entities in memory and in joined tables. -/

namespace EdmQuery

namespace Expression

mutual

/--
Whether a filter consists of comparisons, null tests, alternatives, connectives and quantifiers.

What it compares may stand behind hops, but not within a quantifier.
-/
def isPushable : Expression → Bool
  | hop _ _ _ _ => true
  | not operand => operand.isPushable
  | binary op left right =>
    (op.isLogical || op.isEquality || op.isRelational) && left.isPushable && right.isPushable
  | oneOf operand items => operand.isPushable && arePushable items
  | x => x.isRelational

/-- Whether several expressions are such filters. -/
def arePushable : List Expression → Bool
  | [] => true
  | x :: rest => x.isPushable && arePushable rest

end

/-- Every one of several such filters is one. -/
theorem arePushable_mem {items : List Expression} (pushable : arePushable items = true)
    {x : Expression} (mem : x ∈ items) : x.isPushable = true := by
  induction items with
  | nil => cases mem
  | cons first rest ih =>
    simp only [arePushable, Bool.and_eq_true] at pushable
    rcases List.mem_cons.mp mem with rfl | later
    · exact pushable.1
    · exact ih pushable.2 later

/-- The paths of every one of several expressions are among those of all. -/
theorem paths_subset_allPaths {current : NavigationPath} {items : List Expression}
    {x : Expression} (mem : x ∈ items) : x.paths current ⊆ allPaths current items := by
  induction items with
  | nil => cases mem
  | cons first rest ih =>
    rw [allPaths]
    rcases List.mem_cons.mp mem with rfl | later
    · exact List.subset_append_left _ _
    · exact List.subset_append_of_subset_right _ (ih later)

end Expression

/-- An entity on its own and rows that are bound to paths from it. -/
def Service.InStep {m : Type → Type} [Monad m] (v : Service m) (root : Frame)
    (paths : List NavigationPath) (s : Standpoint) (env : Bindings) : Prop :=
  ∃ e, s = .ofEntity e ∧ ∀ path ∈ paths, v.Binds root e env path

section

variable {m : Type → Type} [Monad m] [LawfulMonad m] {v : Service m} {tables : Tables}
  {c : FilterContext} {ctx : SqlContext} {contents : EntitySet → List Entity} {d : Draft}
  {tokens : List Token} {all : List NavigationPath} {b after : Builder} {t : SqlTerm}

omit [LawfulMonad m] in
/-- Terms agree in fewer rows as well. -/
theorem Agrees.weaken {x : Expression} {known : List Value}
    {inStep inStep' : Standpoint → List (String × SqlRow) → Prop}
    (agrees : Agrees v tables inStep x t known) (fewer : ∀ s env, inStep' s env → inStep s env) :
    Agrees v tables inStep' x t known :=
  fun parameters more s env mem => agrees parameters more s env (fewer s env mem)

omit [LawfulMonad m] in
/-- Where rows are bound to paths from an entity, the root shows the entity itself. -/
theorem Service.InStep.consistent (atRoot : .root ∈ all) {s : Standpoint} {env : Bindings}
    (inStep : v.InStep c.root all s env) : Consistent c [] s env := by
  obtain ⟨e, rfl, binds⟩ := inStep
  obtain ⟨frame, reached, row, framed, reaches, found, shown⟩ := binds .root atRoot
  cases framed
  cases reaches
  constructor
  intro scope frame name place
  cases place with
  | root => exact ⟨e, row, rfl, found, shown⟩
  | bound found => cases found

namespace Expression

omit [Monad m] [LawfulMonad m] in
/-- A hop becomes what is behind it, read from the table that it joins. -/
theorem run_hop_ok {scope : Scope} {n : Navigation} {target : String} {inner : Expression}
    {locals : List (String × TableFrame)} {current : TableFrame}
    (compiled : ((hop scope n target inner).term ctx locals current).run b = (.ok t, after)) :
    ∃ parent table,
      (scope = .root ∧ parent = none ∨ scope = .current ∧ parent = some current.tableAlias) ∧
      ctx.resolve target = some table ∧
      (inner.term ctx locals ⟨joinAlias parent n.name, table.type⟩).run b = (.ok t, after) := by
  rw [term] at compiled
  obtain ⟨_, _, got, compiled⟩ := run_bind_ok compiled
  cases got
  by_cases inside : 0 < b.depth
  · simp only [inside, if_true] at compiled
    cases compiled
  simp only [inside, if_false] at compiled
  cases scope with
  | root =>
    obtain ⟨parent, _, made, compiled⟩ := run_bind_ok compiled
    cases made
    obtain ⟨table, resolved, inner⟩ := run_known_bind_ok compiled
    exact ⟨none, table, .inl ⟨rfl, rfl⟩, table_ok resolved, inner⟩
  | current =>
    obtain ⟨parent, _, made, compiled⟩ := run_bind_ok compiled
    cases made
    obtain ⟨table, resolved, inner⟩ := run_known_bind_ok compiled
    exact ⟨some current.tableAlias, table, .inr ⟨rfl, rfl⟩, table_ok resolved, inner⟩
  | bound name => cases compiled

/-- What is behind a hop has the values of its term in the rows that are bound to the paths. -/
theorem ReadFrom.along_agrees (own : ctx.resolve.Own c.model) (same : v.model = c.model)
    {start : Option (Scope × Frame)} {x : Expression} (read : x.ReadFrom c tokens [] start)
    {path : NavigationPath} {frame : Frame} (behind : start = some (.current, frame))
    (isHop : path.scope = .current) (framed : path.frame? v.model c.root = some frame)
    (known : path ∈ all) (subset : x.paths path ⊆ all)
    (compiled : (x.term ctx [] ⟨path.name, frame.type⟩).run b = (.ok t, after)) :
    b.parameters <+: after.parameters ∧
      Agrees v tables (v.InStep c.root all) (path.along x) t after.parameters := by
  generalize ([] : List Binder) = binders at read
  induction read generalizing path frame with
  | @property binders scope _ token p _ _ found single =>
    cases behind
    rw [term] at compiled
    cases compiled
    refine ⟨List.prefix_refl _, ?_⟩
    rintro parameters - s env ⟨e, rfl, binds⟩
    obtain ⟨frame', reached, row, framed', reaches, bound, shown⟩ := binds path known
    cases framed.symm.trans framed'
    have evaluated := reaches.evaluatesFrom (.property .current p)
    cases reached with
    | none =>
      -- Where nothing is reached, the value is null, and so is every column of the empty row.
      cases shown
      refine ⟨.null, evaluated, rfl, ?_⟩
      rw [SqlTerm.value, SqlTerm.columnIn, bound]
      rfl
    | some other =>
      have declared := (EntityType.property?_name found).symm ▸ found
      obtain ⟨admitted, filled⟩ := shown.property single declared
      refine ⟨other.get p.name, evaluated.trans ?_, ?_, ?_⟩
      · show (Expression.property .current p).eval v.related ⟨e, other, []⟩ = _
        rw [Expression.eval, Standpoint.entity, settled_ok_bind]
      · rwa [NavigationPath.type_along]
      · rw [SqlTerm.value, SqlTerm.columnIn, bound, Option.map_some, filled]
  | @hop binders scope _ token n target set inner _ _ _ _ _ _ present _ ih =>
    cases behind
    obtain ⟨parent, table, from_, resolved, compiled⟩ := run_hop_ok compiled
    obtain ⟨⟨⟩, -⟩ | ⟨-, rfl⟩ := from_
    obtain ⟨known', subset'⟩ := List.cons_subset.mp (show
      .hop path n target :: inner.paths (.hop path n target) ⊆ all by
        simpa [paths] using subset)
    have named : joinAlias (some path.name) n.name = (NavigationPath.hop path n target).name := by
      rw [← NavigationPath.alias?_eq isHop]
      rfl
    rw [named, own.type_eq present resolved] at compiled
    have agreed := ih rfl rfl (NavigationPath.frame?_hop (same ▸ present)) known' subset' compiled
    rwa [NavigationPath.along, isHop] at agreed
  | @nonEmpty _ scope _ source _ _ _ _ _ _ =>
    cases behind
    -- A selection of its own cannot be tied to a row behind a hop.
    rw [term] at compiled
    obtain ⟨_, _, _, _, _, inFrame, _, _⟩ := run_correlate_ok compiled
    cases inFrame
  | @quantified _ scope _ source _ _ _ _ _ _ _ _ _ _ _ _ _ _ _ _ =>
    cases behind
    rw [term] at compiled
    obtain ⟨_, _, _, _, _, inFrame, _, _⟩ := run_correlate_ok compiled
    cases inFrame
  | _ => cases behind

/-- The term of an expression without hops has its values in the rows that are bound to the root. -/
theorem ReadFrom.relational_faithful (built : d.build = .ok c.model)
    (own : ctx.resolve.Own c.model) (same : v.model = c.model)
    (mirrors : Mirrors v ctx.resolve tables contents) (rootKnown : c.root.Known c.model)
    (rootTyped : ctx.table.type = c.root.type) {start : Option (Scope × Frame)} {x : Expression}
    (read : x.ReadFrom c tokens [] start) (atRoot : start = none ∨ start = some (.root, c.root))
    (relational : x.isRelational = true) (fits : x.sourcesFit c.model c.root [] = true)
    (known : .root ∈ all) (current : TableFrame) :
    x.Faithful v tables (v.InStep c.root all) ctx [] current := by
  have placed (scope : Scope) (frame : Frame) (started : start = some (scope, frame)) :
      ∃ name, Place c [] scope frame name := by
    subst started
    rcases atRoot with none_ | isRoot
    · cases none_
    · cases isRoot
      exact ⟨rootAlias, .root⟩
  intro b after t compiled
  obtain ⟨kept, agrees⟩ := read.agrees built own same mirrors rootKnown rootTyped relational fits
    (fun _ _ mem => by cases mem) (fun _ mem => by cases mem) placed current compiled
  exact ⟨kept, agrees.weaken fun _ _ inStep => inStep.consistent known⟩

/-- The term of a filter with hops has its values in the rows that are bound to its paths. -/
theorem ReadFrom.pushable_faithful (built : d.build = .ok c.model)
    (own : ctx.resolve.Own c.model) (same : v.model = c.model)
    (mirrors : Mirrors v ctx.resolve tables contents) (rootKnown : c.root.Known c.model)
    (rootTyped : ctx.table.type = c.root.type) {start : Option (Scope × Frame)} {x : Expression}
    (read : x.ReadFrom c tokens [] start) (atRoot : start = none ∨ start = some (.root, c.root))
    (pushable : x.isPushable = true) (fits : x.sourcesFit c.model c.root [] = true)
    (known : .root ∈ all) (subset : x.paths .root ⊆ all) (current : TableFrame) :
    x.Faithful v tables (v.InStep c.root all) ctx [] current := by
  have unhopped {start : Option (Scope × Frame)} {x : Expression}
      (read : x.ReadFrom c tokens [] start) (atRoot : start = none ∨ start = some (.root, c.root))
      (relational : x.isRelational = true) (fits : x.sourcesFit c.model c.root [] = true) :
      x.Faithful v tables (v.InStep c.root all) ctx [] current :=
    read.relational_faithful built own same mirrors rootKnown rootTyped atRoot relational fits known
      current
  generalize none_ : ([] : List Binder) = binders at read
  induction read with
  | literal mem spelled => exact unhopped (.literal mem spelled) (.inl rfl) rfl rfl
  | rooted _ ih => exact ih (.inr rfl) pushable fits subset none_
  | through found _ _ =>
    subst none_
    cases found
  | item found =>
    subst none_
    cases found
  | not _ fit ih =>
    rw [isPushable] at pushable
    rw [sourcesFit] at fits
    rw [paths] at subset
    exact .not fit (ih (.inl rfl) pushable fits subset none_)
  | binary _ _ fit ihL ihR =>
    simp only [isPushable, Bool.and_eq_true] at pushable
    simp only [sourcesFit, Bool.and_eq_true] at fits
    rw [paths, List.append_subset] at subset
    exact .binary pushable.1.1 fit (ihL (.inl rfl) pushable.1.2 fits.1 subset.1 none_)
      (ihR (.inl rfl) pushable.2 fits.2 subset.2 none_)
  | oneOf _ _ fit nonempty ih ihItems =>
    simp only [isPushable, Bool.and_eq_true] at pushable
    simp only [sourcesFit, Bool.and_eq_true] at fits
    rw [paths, List.append_subset] at subset
    exact .oneOf nonempty fit (ih (.inl rfl) pushable.1 fits.1 subset.1 none_)
      fun y mem => ihItems y mem (.inl rfl) (arePushable_mem pushable.2 mem)
        (allSourcesFit_mem fits.2 mem) (List.Subset.trans (paths_subset_allPaths mem) subset.2)
        none_
  | property mem named found single =>
    exact unhopped (.property mem named found single) atRoot rfl rfl
  | nonEmpty mem named spelled ranges =>
    subst none_
    exact unhopped (.nonEmpty mem named spelled ranges) atRoot rfl fits
  | quantified mem named spelled ranges memV namedV notRoot fresh read fit _ =>
    subst none_
    exact unhopped (.quantified mem named spelled ranges memV namedV notRoot fresh read fit) atRoot
      pushable fits
  | @hop binders scope _ token n target set inner _ _ _ _ _ _ present read _ =>
    subst none_
    rcases atRoot with none_ | isRoot
    · cases none_
    cases isRoot
    intro b after t compiled
    obtain ⟨parent, table, from_, resolved, compiled⟩ := run_hop_ok compiled
    obtain ⟨-, rfl⟩ | ⟨⟨⟩, -⟩ := from_
    obtain ⟨known', subset'⟩ := List.cons_subset.mp (show
      .hop .root n target :: inner.paths (.hop .root n target) ⊆ all by
        simpa [paths] using subset)
    rw [own.type_eq present resolved] at compiled
    exact read.along_agrees own same rfl rfl (NavigationPath.frame?_hop (same ▸ present)) known'
      subset' compiled
  | negate _ _ _ | call _ _ _ =>
    simp only [isPushable, isRelational, Bool.false_eq_true] at pushable

end Expression

namespace Service

/-- Whether the rows of a relation show what the paths from an entity lead to. -/
def ShowsReached (v : Service m) (root : Frame) (paths : List NavigationPath) (e : Entity)
    (env : Bindings) : Prop :=
  ∀ path ∈ paths, ∃ frame reached row, path.frame? v.model root = some frame ∧
    v.EvaluatesFrom e path reached ∧ env.lookup path.name = some row ∧
    Entity.ShownOrEmpty frame.type reached row

/-- Whether each condition that a filter becomes is true, false or null in rows as the filter is. -/
def HasTruthOf (v : Service m) (tables : Tables) (ctx : SqlContext) (filter : Expression)
    (e : Entity) (env : Bindings) : Prop :=
  ∀ ⦃b condition after⦄, (compileFilter ctx filter).run b = (.ok condition, after) →
    ∀ parameters, after.parameters <+: parameters →
      ∃ truth : Option Bool, filter.eval v.related (.ofEntity e) = pure (.ofTruth truth) ∧
        condition.value tables parameters env = some (.ofTruth truth)

end Service

end

namespace Service

/-- A navigation property to an entity whose number is a property. -/
def singleBy (name target property : String) : Navigation :=
  ⟨name, target, false, [⟨property, "number"⟩]⟩

/-- Cases have a number. -/
def caseType : EntityType :=
  ⟨"Case", none, [plainProperty "number" (.integer .int32)], []⟩

/-- Volumes have a number and the number of their case. -/
def volumeType : EntityType :=
  ⟨"Volume", none,
    [plainProperty "number" (.integer .int32), plainProperty "case" (.integer .int32)],
    [singleBy "place" "Case" "case"]⟩

/-- Loans have the number of their volume and a colour. -/
def loanType : EntityType :=
  ⟨"Loan", none, [plainProperty "number" (.integer .int32), plainProperty "colour" (.enum colours)],
    [singleBy "volume" "Volume" "number", singleBy "stored" "Volume" "number",
      singleBy "matching" "Volume" "colour"]⟩

/-- Loans, volumes, cases, and volumes that cannot be queried. -/
def lendingSets : List EntitySet :=
  [⟨"loans", loanType, .all, .memory⟩, ⟨"volumes", volumeType, .all, .memory⟩,
    ⟨"cases", caseType, .all, .memory⟩, ⟨"vault", volumeType, .none, .memory⟩]

/-- The sets that loans and volumes lead to. -/
def lendingBindings : List Binding :=
  [⟨"loans", "volume", "volumes"⟩, ⟨"loans", "stored", "vault"⟩, ⟨"loans", "matching", "volumes"⟩,
    ⟨"volumes", "place", "cases"⟩]

/-- One loan of a volume, of which there may be copies with the same number, and an empty one. -/
def lending (copies : Nat) : Service Id where
  model := ⟨.default, [colours], [loanType, volumeType, caseType], lendingSets, lendingBindings⟩
  collections := [
    ⟨"loans", loanType, [⟨none, [("number", .ofInt 1), ("colour", .text "red")]⟩,
      ⟨none, [("number", .null), ("colour", .null)]⟩]⟩,
    ⟨"volumes", volumeType,
      List.replicate copies ⟨none, [("number", .ofInt 1), ("case", .ofInt 1)]⟩⟩,
    ⟨"cases", caseType, [⟨none, [("number", .ofInt 1)]⟩]⟩,
    ⟨"vault", volumeType, [⟨none, [("number", .ofInt 1), ("case", .ofInt 1)]⟩]⟩]
  databases := .none

/-- The loan of a volume. -/
def loan : Entity :=
  .mk loanType none [("number", .integer 1), ("colour", .enum colours 1)] []

/-- A loan of nothing. -/
def emptyLoan : Entity :=
  .mk loanType none [("number", .null), ("colour", .null)] []

/-- A volume. -/
def volume : Entity :=
  .mk volumeType none [("number", .integer 1), ("case", .integer 1)] []

/-- The case of the volumes. -/
def volumeCase : Entity :=
  .mk caseType none [("number", .integer 1)] []

/-- What the sets of the lending hold. -/
def lendingContents (copies : Nat) (s : EntitySet) : List Entity :=
  if s.name = "loans" then [loan, emptyLoan]
  else if s.name = "volumes" then List.replicate copies volume
  else if s.name = "cases" then [volumeCase]
  else [volume]

/-- A database that has the rows of those entities in its tables. -/
def lendingTables (copies : Nat) : Tables :=
  fun table =>
    if table = "loans" then [ones, emptyRow]
    else if table = "volumes" then List.replicate copies ones
    else [ones]

/-- What conditions on loans are written for, over tables with the names of the sets. -/
def lendingContext : SqlContext :=
  ⟨.sqlite, ⟨"loans", loanType⟩, fun name =>
    ((lending 1).model.set? name).map fun s => ⟨s.name, s.type⟩⟩

/-- The lending has a sound model. -/
theorem build_lending (copies : Nat) :
    Draft.build ⟨.default, [colours], [], lendingSets, lendingBindings⟩
      = .ok (lending copies).model := by
  cbv

/-- Tables of the lending have the types of its sets. -/
theorem own_lending (copies : Nat) : lendingContext.resolve.Own (lending copies).model := by
  intro name table resolved
  obtain ⟨s, present, rfl⟩ := Option.map_eq_some_iff.mp resolved
  exact ⟨s, present, rfl⟩

/-- Every set of the lending is one of four. -/
theorem lending_sets {copies : Nat} {P : EntitySet → Prop}
    (loans : P ⟨"loans", loanType, .all, .memory⟩)
    (volumes : P ⟨"volumes", volumeType, .all, .memory⟩)
    (cases_ : P ⟨"cases", caseType, .all, .memory⟩)
    (vault : P ⟨"vault", volumeType, .none, .memory⟩) (name : String) (s : EntitySet)
    (present : (lending copies).model.set? name = some s) : P s := by
  have mem := (Model.set?_some present).2
  simp only [lending, lendingSets, List.mem_cons, List.not_mem_nil, or_false] at mem
  rcases mem with rfl | rfl | rfl | rfl
  · exact loans
  · exact volumes
  · exact cases_
  · exact vault

/-- The rows of the loans hold a number and a colour that is stored as one, or nothing. -/
theorem fills_loan : loan.Fills loanType ones ∧ emptyLoan.Fills loanType emptyRow := by
  constructor <;> intro p declared <;> have mem := List.mem_of_find?_eq_some declared <;>
    simp only [loanType, List.mem_cons, List.not_mem_nil, or_false] at mem <;>
    rcases mem with rfl | rfl <;> rfl

/-- The row of a volume holds its number and that of its case. -/
theorem fills_volume : volume.Fills volumeType ones := by
  intro p declared
  have mem := List.mem_of_find?_eq_some declared
  simp only [volumeType, List.mem_cons, List.not_mem_nil, or_false] at mem
  rcases mem with rfl | rfl <;> rfl

/-- The row of the case holds its number. -/
theorem fills_volumeCase : volumeCase.Fills caseType ones := by
  intro p declared
  have mem := List.mem_of_find?_eq_some declared
  simp only [caseType, List.mem_cons, List.not_mem_nil, or_false] at mem
  rw [mem]
  rfl

/-- The database holds what the lending does, however many copies there are. -/
theorem mirrors_lending (copies : Nat) :
    Mirrors (lending copies) lendingContext.resolve (lendingTables copies)
      (lendingContents copies) := by
  have filled : List.Forall₂ (Entity.Fills volumeType) (List.replicate copies volume)
      (List.replicate copies ones) := by
    induction copies with
    | zero => exact .nil
    | succ copies ih => exact .cons fills_volume ih
  refine {
    inMemory := lending_sets rfl rfl rfl rfl
    own := lending_sets rfl rfl rfl rfl
    kept := lending_sets rfl ?_ rfl rfl
    filled := fun name s table present resolved => ?_ }
  · have read : (Entity.ofRecord volumeType [("number", .ofInt 1), ("case", .ofInt 1)]).mapError
        RequestError.model = .ok volume := by cbv
    show (List.replicate copies _).map _ = (List.replicate copies volume).map Except.ok
    rw [List.map_replicate, List.map_replicate]
    exact congrArg (List.replicate copies) read
  · obtain ⟨s', present', rfl⟩ := Option.map_eq_some_iff.mp resolved
    cases present.symm.trans present'
    exact lending_sets (P := fun s => List.Forall₂ (Entity.Fills s.type)
      (lendingContents copies s) (lendingTables copies s.name))
      (.cons fills_loan.1 (.cons fills_loan.2 .nil)) filled (.cons fills_volumeCase .nil)
      (.cons fills_volume .nil) name s present

/-- Whether the case of a loan's volume has the number one. -/
def placeFilter : Expression :=
  .binary .eq (.hop .root (singleBy "volume" "Volume" "number") "volumes"
    (.hop .current (singleBy "place" "Case" "case") "cases"
      (.property .current (plainProperty "number" (.integer .int32))))) (.literal (.integer 1))

/-- Whether what a loan leads to has the number one. -/
def numberFilter (name property target : String) : Expression :=
  .binary .eq (.hop .root (singleBy name "Volume" property) target
    (.property .current (plainProperty "number" (.integer .int32)))) (.literal (.integer 1))


/-- Where a lending has one copy of each volume, its loans lead to one entity at most. -/
theorem leadsToOne_lending (e : Entity) :
    ∀ path ∈ placeFilter.paths .root, (lending 1).LeadsToOne e path := by
  have atMostOne {set : EntitySet} {target name kind property : String} {q : Property}
      (present : (lending 1).model.set? target = some set)
      (queries : set.capabilities.contains .query = true)
      (remote : set.type.property? "number" = some q)
      (alone : (lendingContents 1 set).length = 1) (start : Entity) (found : List Entity)
      (related : (lending 1).related target (singleBy name kind property) start = pure found) :
      found.length ≤ 1 := by
    have mirrors := mirrors_lending 1
    have only : (singleBy name kind property).constraint? = some ⟨property, "number"⟩ := rfl
    have same := related_eq present (mirrors.inMemory _ _ present) queries only remote
      (mirrors.kept _ _ present) start
    cases Except.ok.inj (related.symm.trans same)
    exact (List.length_filter_le _ _).trans alone.le
  have volumes : (lending 1).model.set? "volumes"
      = some ⟨"volumes", volumeType, .all, .memory⟩ := rfl
  have cases_ : (lending 1).model.set? "cases" = some ⟨"cases", caseType, .all, .memory⟩ := rfl
  refine List.forall_mem_cons.mpr ⟨fun start found _ => ?_, List.forall_mem_singleton.mpr
    fun start found _ => ?_⟩
  · exact atMostOne volumes rfl rfl rfl start found
  · exact atMostOne cases_ rfl rfl rfl start found

/-- The joins behind the case of a loan's volume. -/
def placeJoins : List Join :=
  [⟨"volume", "volumes", "number", ⟨"$it", "number"⟩⟩,
    ⟨"volume_place", "cases", "number", ⟨"volume", "case"⟩⟩]

/-- The loans with the volume and the case of each. -/
def placeRelation : List Bindings :=
  [ones, emptyRow].map fun row => [("volume_place", row), ("volume", row), (rootAlias, row)]

/-- The condition that the number of that case is the parameter. -/
def placeCondition : SqlTerm :=
  .binary .eq (.column ⟨"volume_place", "number"⟩) (.parameter 1)

/-- The join behind a navigation property of loans. -/
def loanJoin (name column target : String) : Join :=
  ⟨name, target, "number", ⟨"$it", column⟩⟩

/-- The loans of some rows, each with the row that a join puts under a name. -/
def loanRelation (name : String) (rows : List (SqlRow × SqlRow)) : List Bindings :=
  rows.map fun (row, root) => [(name, row), (rootAlias, root)]

/-- What joins and evaluation make of a filter on the number of what loans lead to. -/
def ComesTo (copies : Nat) (name property target : String) (relation : List Bindings)
    (outcome : ExceptT RequestError Id Value) : Prop :=
  parseFilter (lending copies).model "loans" (name ++ "/number eq 1")
      = .ok (numberFilter name property target) ∧
    discoverJoins lendingContext.resolve loanType (numberFilter name property target)
      = .ok [loanJoin name property target] ∧
    selectFrom (lendingTables copies) lendingContext.table [loanJoin name property target]
      = some relation ∧
    (numberFilter name property target).eval (lending copies).related (.ofEntity loan) = outcome

end Service

end EdmQuery
