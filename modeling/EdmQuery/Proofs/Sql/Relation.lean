import Mathlib
import EdmQuery.Proofs.Sql.Condition
import EdmQuery.Proofs.Sql.Semantics

/-! What joins make of the rows of a table, and the paths of single-valued hops that they follow. -/

namespace EdmQuery

/-- The rows around a row of a relation, under their aliases. -/
abbrev Bindings := List (String × SqlRow)

/-- The row that a join puts where it finds none. -/
def emptyRow : SqlRow :=
  fun _ => .null

/-- The rows that a join puts: those that it has found, or an empty one. -/
def orEmpty : List SqlRow → List SqlRow
  | [] => [emptyRow]
  | found => found

/-- The condition of a join, as that of a selection from its table. -/
def Join.correlation (j : Join) : Correlation :=
  ⟨j.table, j.tableAlias, ⟨j.tableAlias, j.column⟩, j.parent⟩

/-- What a join makes of a row: one row for each that it finds, and an empty one for none. -/
def Join.extend (tables : Tables) (j : Join) (env : Bindings) : Option (List Bindings) := do
  let judged ← (tables j.table).mapM fun row => do
    return (row, ← SqlTerm.tied ((j.tableAlias, row) :: env) j.correlation)
  let found := (judged.filter (·.2 = some true)).map (·.1)
  return (orEmpty found).map fun row => (j.tableAlias, row) :: env

/-- The relation that joins make of a relation, one after the other. -/
def joined (tables : Tables) (joins : List Join) (relation : List Bindings) :
    Option (List Bindings) :=
  joins.foldlM (fun relation j => do return (← relation.mapM (j.extend tables)).flatten) relation

/-- The rows of a table under the root alias, with what joins add to them. -/
def selectFrom (tables : Tables) (table : Table) (joins : List Join) : Option (List Bindings) :=
  joined tables joins ((tables table.name).map fun row => [(rootAlias, row)])

/-- A way from the root entity by single-valued navigation properties. -/
inductive NavigationPath where
  | root
  | hop (parent : NavigationPath) (navigation : Navigation) (target : String)
  deriving DecidableEq

namespace NavigationPath

/-- The alias that is made for a path, the root having none. -/
def alias? : NavigationPath → Option String
  | root => none
  | hop parent navigation _ => some (joinAlias parent.alias? navigation.name)

/-- The name of the row that belongs to a path. -/
def name (path : NavigationPath) : String :=
  path.alias?.getD rootAlias

/-- Where a path ends: the alias of a table and the type of its entities. -/
inductive Ends (resolve : Resolver) (type : EntityType) : NavigationPath → PathEnd → Prop where
  | root : Ends resolve type .root ⟨none, type⟩
  | hop {parent : NavigationPath} {start : PathEnd} {n : Navigation} {target : String}
      {table : Table} (before : Ends resolve type parent start)
      (resolved : resolve target = some table) :
      Ends resolve type (.hop parent n target)
        ⟨some (joinAlias start.tableAlias n.name), table.type⟩

/-- The join that a hop from a path needs, by the columns of the only constraint. -/
inductive Needs (resolve : Resolver) (type : EntityType) (parent : NavigationPath)
    (n : Navigation) (target : String) : Join → Prop where
  | join {start : PathEnd} {table : Table} {con : Constraint} {column related : String}
      (before : parent.Ends resolve type start) (resolved : resolve target = some table)
      (only : n.constraint? = some con) (remote : columnOf table.type con.referenced = .ok column)
      (local_ : columnOf start.type con.property = .ok related) :
      Needs resolve type parent n target
        ⟨(hop parent n target).name, table.name, column, ⟨parent.name, related⟩⟩

/-- Paths that each go one hop on from a path that is known by then, and the joins they need. -/
inductive Hops (resolve : Resolver) (type : EntityType) :
    List NavigationPath → List NavigationPath → List Join → Prop where
  | nil (known : List NavigationPath) : Hops resolve type known [] []
  | cons {known paths : List NavigationPath} {parent : NavigationPath} {n : Navigation}
      {target : String} {j : Join} {joins : List Join} (from_ : parent ∈ known)
      (needs : Needs resolve type parent n target j)
      (rest : Hops resolve type (.hop parent n target :: known) paths joins) :
      Hops resolve type known (.hop parent n target :: paths) (j :: joins)

/-- Paths that each go one hop on from a known one under a new name, and the joins they need. -/
inductive NewHops (resolve : Resolver) (type : EntityType) :
    List NavigationPath → List NavigationPath → List Join → Prop where
  | nil (known : List NavigationPath) : NewHops resolve type known [] []
  | cons {known paths : List NavigationPath} {parent : NavigationPath} {n : Navigation}
      {target : String} {j : Join} {joins : List Join} (from_ : parent ∈ known)
      (fresh : ∀ path ∈ known, path.name ≠ (hop parent n target).name)
      (needs : Needs resolve type parent n target j)
      (rest : NewHops resolve type (.hop parent n target :: known) paths joins) :
      NewHops resolve type known (.hop parent n target :: paths) (j :: joins)

/-- Whether different paths have different names. -/
def Apart (paths : List NavigationPath) : Prop :=
  ∀ p ∈ paths, ∀ q ∈ paths, p.name = q.name → p = q

/-- Joins that were found for the known paths, one for each but the root. -/
structure Covers (joins : List Join) (known : List NavigationPath) : Prop where
  found : ∀ parent n target, hop parent n target ∈ known →
    ∃ j ∈ joins, j.tableAlias = (hop parent n target).name
  known : ∀ j ∈ joins, ∃ path ∈ known, path.name = j.tableAlias

variable {resolve : Resolver} {type : EntityType}

/-- A path ends under its alias. -/
theorem Ends.alias_eq {path : NavigationPath} {end_ : PathEnd}
    (ends : path.Ends resolve type end_) : end_.tableAlias = path.alias? := by
  induction ends with
  | root => rfl
  | hop _ _ ih => rw [alias?, ih]

/-- A path has one end. -/
theorem Ends.unique {path : NavigationPath} {a b : PathEnd} (first : path.Ends resolve type a)
    (second : path.Ends resolve type b) : a = b := by
  induction first generalizing b with
  | root =>
    cases second
    rfl
  | hop _ resolved ih =>
    cases second with
    | hop before resolved' =>
      cases resolved.symm.trans resolved'
      rw [ih before]

/-- The join of a hop is under the name of the path. -/
theorem Needs.alias_eq {parent : NavigationPath} {n : Navigation} {target : String} {j : Join}
    (needs : Needs resolve type parent n target j) : j.tableAlias = (hop parent n target).name := by
  cases needs
  rfl

/-- Only which paths are known matters to those that go on from them. -/
theorem NewHops.congr {known more paths : List NavigationPath} {joins : List Join}
    (new : NewHops resolve type known paths joins) (same : ∀ path, path ∈ known ↔ path ∈ more) :
    NewHops resolve type more paths joins := by
  induction new generalizing more with
  | nil => exact .nil _
  | cons from_ fresh needs _ ih =>
    refine .cons ((same _).mp from_) (fun path mem => fresh path ((same path).mpr mem)) needs ?_
    exact ih fun path => by rw [List.mem_cons, List.mem_cons, same]

namespace Hops

variable {known more paths others : List NavigationPath} {joins rest : List Join}

/-- Paths go on from known ones as well when more are known. -/
theorem mono (hops : Hops resolve type known paths joins) (subset : known ⊆ more) :
    Hops resolve type more paths joins := by
  induction hops generalizing more with
  | nil => exact .nil _
  | cons from_ needs _ ih => exact .cons (subset from_) needs (ih (List.cons_subset_cons _ subset))

/-- Paths that go on from known ones can be followed one group after the other. -/
theorem append (hops : Hops resolve type known paths joins)
    (hops' : Hops resolve type known others rest) :
    Hops resolve type known (paths ++ others) (joins ++ rest) := by
  induction hops with
  | nil => exact hops'
  | cons from_ needs _ ih =>
    exact .cons from_ needs (ih (hops'.mono (List.subset_cons_self _ _)))

/-- The first join of each alias follows a path that is new, and no path is left out. -/
theorem addJoins_newHops (hops : Hops resolve type known paths joins) {all : List NavigationPath}
    (apart : Apart all) (knownAmong : known ⊆ all) (among : paths ⊆ all) {found : List Join}
    (covers : Covers found known) :
    ∃ kept added, addJoins found joins = found ++ added ∧
      NewHops resolve type known kept added ∧ kept ⊆ paths ∧
      ∀ path ∈ paths, path ∈ known ∨ path ∈ kept := by
  induction hops generalizing found with
  | nil => exact ⟨[], [], (List.append_nil _).symm, .nil _, List.Subset.refl _, nofun⟩
  | @cons known paths parent n target j joins from_ needs _ ih =>
    obtain ⟨own, others⟩ := List.cons_subset.mp among
    have knownAmong' : .hop parent n target :: known ⊆ all := List.cons_subset.mpr ⟨own, knownAmong⟩
    rw [addJoins]
    by_cases old : .hop parent n target ∈ known
    · -- The path was followed before, and so its join was found before.
      obtain ⟨other, mem, same⟩ := covers.found _ _ _ old
      have present : found.any (·.tableAlias == j.tableAlias) = true :=
        List.any_eq_true.mpr ⟨other, mem, by rw [same, needs.alias_eq, beq_self_eq_true]⟩
      have equal : ∀ path, path ∈ .hop parent n target :: known ↔ path ∈ known :=
        fun path => ⟨fun mem => (List.mem_cons.mp mem).elim (· ▸ old) id, List.mem_cons_of_mem _⟩
      have covers' : Covers found (.hop parent n target :: known) := by
        refine ⟨fun p n t mem => covers.found p n t ((equal _).mp mem), fun j mem => ?_⟩
        obtain ⟨path, isKnown, same⟩ := covers.known j mem
        exact ⟨path, List.mem_cons_of_mem _ isKnown, same⟩
      obtain ⟨kept, added, same, new, subset, each⟩ := ih knownAmong' others covers'
      refine ⟨kept, added, by rw [if_pos present, same], new.congr equal,
        List.subset_cons_of_subset _ subset, ?_⟩
      intro path mem
      rcases List.mem_cons.mp mem with rfl | later
      · exact .inl old
      · exact (each path later).imp_left (equal path).mp
    · have fresh : ∀ path ∈ known, path.name ≠ (hop parent n target).name :=
        fun path mem same => old (apart _ (knownAmong mem) _ own same ▸ mem)
      have absent : found.any (·.tableAlias == j.tableAlias) = false := by
        refine List.any_eq_false.mpr fun other mem => ?_
        obtain ⟨path, isKnown, same⟩ := covers.known other mem
        rw [← same, needs.alias_eq, beq_iff_eq]
        exact fresh path isKnown
      have covers' : Covers (found ++ [j]) (.hop parent n target :: known) := by
        constructor
        · intro p m t mem
          rcases List.mem_cons.mp mem with same | later
          · exact ⟨j, by simp, by rw [same, needs.alias_eq]⟩
          · obtain ⟨other, mem, same⟩ := covers.found p m t later
            exact ⟨other, List.mem_append_left _ mem, same⟩
        · intro other mem
          rcases List.mem_append.mp mem with earlier | last
          · obtain ⟨path, isKnown, same⟩ := covers.known other earlier
            exact ⟨path, List.mem_cons_of_mem _ isKnown, same⟩
          · rw [List.mem_singleton.mp last, needs.alias_eq]
            exact ⟨_, List.mem_cons_self, rfl⟩
      obtain ⟨kept, added, same, new, subset, each⟩ := ih knownAmong' others covers'
      refine ⟨.hop parent n target :: kept, j :: added, ?_, .cons from_ fresh needs new,
        List.cons_subset_cons _ subset, ?_⟩
      · rw [absent, if_neg Bool.false_ne_true, same, List.append_assoc, List.singleton_append]
      · intro path mem
        rcases List.mem_cons.mp mem with rfl | later
        · exact .inr List.mem_cons_self
        rcases each path later with isKnown | isKept
        · rcases List.mem_cons.mp isKnown with rfl | before
          · exact .inr List.mem_cons_self
          · exact .inl before
        · exact .inr (List.mem_cons_of_mem _ isKept)

end Hops

end NavigationPath

namespace Expression

mutual

/-- The paths that an expression follows outside of quantifiers, outermost hops first. -/
def paths (current : NavigationPath) : Expression → List NavigationPath
  | hop scope n target inner =>
    match scope with
    | .bound _ => []
    | scope =>
      let path := .hop (if scope == .root then .root else current) n target
      path :: inner.paths path
  | not operand => operand.paths current
  | negate operand => operand.paths current
  | binary _ left right => left.paths current ++ right.paths current
  | oneOf operand items => operand.paths current ++ allPaths current items
  | call _ arguments _ => allPaths current arguments
  | _ => []

/-- The paths that several expressions follow. -/
def allPaths (current : NavigationPath) : List Expression → List NavigationPath
  | [] => []
  | x :: rest => x.paths current ++ allPaths current rest

end

end Expression

section

open NavigationPath

variable {c : FilterContext} {tokens : List Token} {resolve : Resolver} {type : EntityType}
  {known : List NavigationPath} {current : NavigationPath} {end_ : PathEnd} {joins : List Join}

/-- A constraint that was looked up is the only one. -/
theorem soleConstraint_ok {n : Navigation} {con : Constraint}
    (found : soleConstraint n = .ok con) : n.constraint? = some con := by
  rw [soleConstraint] at found
  split at found
  · rename_i only
    cases found
    exact only
  · cases found

/-- A column that was looked up is that of a declared property. -/
theorem columnOf_ok {property column : String} (found : columnOf type property = .ok column) :
    ∃ p, type.property? property = some p ∧ p.column = column := by
  rw [columnOf] at found
  split at found
  · rename_i p declared
    cases found
    exact ⟨p, declared, rfl⟩
  · cases found

namespace Expression

/-- The joins of several expressions follow their paths when those of each one do. -/
theorem hops_joinsFromList {items : List Expression}
    (each : ∀ x ∈ items, ∀ joins, joinsFrom resolve ⟨none, type⟩ end_ x = .ok joins →
      Hops resolve type known (x.paths current) joins)
    (found : joinsFromList resolve ⟨none, type⟩ end_ items = .ok joins) :
    Hops resolve type known (allPaths current items) joins := by
  induction items generalizing joins with
  | nil =>
    cases found
    exact .nil _
  | cons x rest ih =>
    obtain ⟨first, others⟩ := List.forall_mem_cons.mp each
    rw [joinsFromList] at found
    obtain ⟨joinsOfFirst, foundFirst, found⟩ := bind_ok found
    obtain ⟨joinsOfRest, foundRest, found⟩ := bind_ok found
    cases found
    exact (first _ foundFirst).append (ih others foundRest)

/-- The joins that are looked for in an expression follow its paths. -/
theorem ReadFrom.hops_joinsFrom {binders : List Binder} {start : Option (Scope × Frame)}
    {x : Expression} (read : x.ReadFrom c tokens binders start) (ends : current.Ends resolve type end_)
    (atRoot : .root ∈ known) (atCurrent : current ∈ known)
    (found : joinsFrom resolve ⟨none, type⟩ end_ x = .ok joins) :
    Hops resolve type known (x.paths current) joins := by
  induction read generalizing current end_ known joins with
  | rooted _ ih => exact ih ends atRoot atCurrent found
  | through _ _ ih => exact ih ends atRoot atCurrent found
  | not _ _ ih =>
    rw [joinsFrom] at found
    exact ih ends atRoot atCurrent found
  | negate _ _ ih =>
    rw [joinsFrom] at found
    exact ih ends atRoot atCurrent found
  | binary _ _ _ ihL ihR =>
    rw [joinsFrom] at found
    obtain ⟨l, foundL, found⟩ := bind_ok found
    obtain ⟨r, foundR, found⟩ := bind_ok found
    cases found
    exact (ihL ends atRoot atCurrent foundL).append (ihR ends atRoot atCurrent foundR)
  | oneOf _ _ _ _ ih ihItems =>
    rw [joinsFrom] at found
    obtain ⟨l, foundL, found⟩ := bind_ok found
    obtain ⟨r, foundR, found⟩ := bind_ok found
    cases found
    exact (ih ends atRoot atCurrent foundL).append
      (hops_joinsFromList (fun x mem _ => ihItems x mem ends atRoot atCurrent) foundR)
  | call _ _ ihItems =>
    rw [joinsFrom] at found
    exact hops_joinsFromList (fun x mem _ => ihItems x mem ends atRoot atCurrent) found
  | @hop binders scope frame t n target set inner mem named unshadowed isDeclared single bound
      present _ ih =>
    -- A hop from the root or from the end of another hop joins the table of its target.
    have followed {from_ : NavigationPath} {start : PathEnd}
        (before : from_.Ends resolve type start) (isKnown : from_ ∈ known)
        (found : (do
          let constraint ← soleConstraint n
          let table ← resolve.table target
          let column ← columnOf table.type constraint.referenced
          let related ← columnOf start.type constraint.property
          let name := joinAlias start.tableAlias n.name
          let parent := start.tableAlias.getD rootAlias
          let more ← joinsFrom resolve ⟨none, type⟩ ⟨some name, table.type⟩ inner
          return (⟨name, table.name, column, ⟨parent, related⟩⟩ : Join) :: more) = .ok joins) :
        Hops resolve type known (.hop from_ n target :: inner.paths (.hop from_ n target))
          joins := by
      obtain ⟨con, sole, found⟩ := bind_ok found
      obtain ⟨table, resolved, found⟩ := bind_ok found
      obtain ⟨column, remote, found⟩ := bind_ok found
      obtain ⟨related, local_, found⟩ := bind_ok found
      obtain ⟨more, foundMore, found⟩ := bind_ok found
      cases found
      have resolved := table_ok resolved
      have needs := Needs.join before resolved (soleConstraint_ok sole) remote local_
      rw [NavigationPath.name, NavigationPath.name, alias?, ← before.alias_eq] at needs
      refine .cons isKnown needs (ih (.hop before resolved) ?_ ?_ foundMore)
      · exact List.mem_cons_of_mem _ atRoot
      · exact List.mem_cons_self
    cases scope with
    | root =>
      rw [joinsFrom] at found
      · exact followed .root atRoot found
      · simp
    | current =>
      rw [joinsFrom] at found
      · exact followed ends atCurrent found
      · simp
    | bound name =>
      rw [joinsFrom] at found
      cases found
      exact .nil _
  | _ =>
    simp only [joinsFrom] at found
    cases found
    exact .nil _

end Expression

/-- The joins of a filter follow each of its paths once when different paths have different names. -/
theorem newHops_discoverJoins {filter : Expression} (read : filter.ReadFrom c tokens [] none)
    (apart : Apart (.root :: filter.paths .root))
    (found : discoverJoins resolve type filter = .ok joins) :
    ∃ kept, NewHops resolve type [.root] kept joins ∧ kept ⊆ filter.paths .root ∧
      ∀ path ∈ filter.paths .root, path ∈ [.root] ∨ path ∈ kept := by
  obtain ⟨all, looked, rfl⟩ := map_ok found
  have isRoot : .root ∈ [NavigationPath.root] := List.mem_singleton_self _
  have hops := read.hops_joinsFrom .root isRoot isRoot looked
  have covers : Covers [] [.root] := by
    refine ⟨fun parent n target mem => ?_, nofun⟩
    cases List.mem_singleton.mp mem
  obtain ⟨kept, added, same, new, subset, each⟩ := hops.addJoins_newHops apart
    (List.cons_subset_cons _ (List.nil_subset _)) (List.subset_cons_self _ _) covers
  rw [List.nil_append] at same
  exact ⟨kept, by rwa [distinctJoins, same], subset, each⟩

end

end EdmQuery
