import Mathlib
import EdmQuery.Edm.Model

/-! What a model that has been built keeps: its sets, types, constraints and bindings fit. -/

namespace EdmQuery

namespace Draft

/-- A check of all members of a list that succeeds has succeeded on each of them. -/
theorem checkAll_ok {α : Type} {check : α → Except ModelError Unit} {items : List α}
    (checked : checkAll check items = .ok ()) : ∀ a ∈ items, check a = .ok () := by
  induction items with
  | nil => simp
  | cons a rest ih =>
    rw [checkAll] at checked
    split at checked
    · cases checked
    · rename_i first
      exact List.forall_mem_cons.mpr ⟨first, ih checked⟩

/-- Types that agree on what their names mean. -/
def Agree (types : List EntityType) : Prop :=
  ∀ t ∈ types, types.find? (·.name == t.name) = some t

/-- A merge of types has all of them, and names keep their meaning. -/
theorem mergeTypes_ok {found added types : List EntityType} (agree : Agree found)
    (merged : mergeTypes found added = .ok types) :
    Agree types ∧ found ⊆ types ∧ added ⊆ types := by
  induction added generalizing found with
  | nil =>
    rw [mergeTypes] at merged
    cases merged
    exact ⟨agree, List.Subset.refl _, List.nil_subset _⟩
  | cons t rest ih =>
    rw [mergeTypes] at merged
    split at merged
    · -- A new name is put at the end, where it hides none before it.
      rename_i fresh
      have agree' : Agree (found ++ [t]) := by
        intro u mem
        rcases List.mem_append.mp mem with old | new
        · rw [List.find?_append, agree u old]
          rfl
        · obtain rfl := List.mem_singleton.mp new
          rw [List.find?_append, fresh]
          simp
      obtain ⟨agree, kept, more⟩ := ih agree' merged
      refine ⟨agree, fun u mem => kept (List.mem_append_left _ mem), ?_⟩
      exact List.cons_subset.mpr ⟨kept (List.mem_append_right _ List.mem_cons_self), more⟩
    · rename_i existing known
      split at merged
      · rename_i same
        obtain rfl := eq_of_beq same
        obtain ⟨agree, kept, more⟩ := ih agree merged
        exact ⟨agree, kept, List.cons_subset.mpr ⟨kept (List.mem_of_find?_eq_some known), more⟩⟩
      · cases merged

/-- Checked set names are new and do not repeat. -/
theorem checkNames_ok {seen : List String} {sets : List EntitySet}
    (checked : checkNames seen sets = .ok ()) :
    (sets.map (·.name)).Nodup ∧ ∀ s ∈ sets, s.name ∉ seen := by
  induction sets generalizing seen with
  | nil => simp
  | cons s rest ih =>
    rw [checkNames] at checked
    split at checked
    · cases checked
    · rename_i fresh
      obtain ⟨nodup, apart⟩ := ih checked
      refine ⟨List.nodup_cons.mpr ⟨fun mem => ?_, nodup⟩, List.forall_mem_cons.mpr ⟨?_, ?_⟩⟩
      · obtain ⟨t, memT, same⟩ := List.mem_map.mp mem
        exact apart t memT (same ▸ List.mem_cons_self)
      · simpa using fresh
      · exact fun t memT seenT => apart t memT (List.mem_cons_of_mem _ seenT)

/-- A checked binding leads from a navigation property to a set of its target type. -/
theorem checkBindings_ok {sets : List EntitySet} {seen bindings : List Binding}
    (checked : checkBindings sets seen bindings = .ok ()) {b : Binding} (mem : b ∈ bindings) :
    ∃ source navigation target, sets.find? (·.name == b.set) = some source ∧
      source.type.navigation? b.navigation = some navigation ∧
      sets.find? (·.name == b.target) = some target ∧ target.type.name = navigation.target := by
  induction bindings generalizing seen with
  | nil => cases mem
  | cons a rest ih =>
    rw [checkBindings] at checked
    split at checked
    · cases checked
    split at checked
    · cases checked
    split at checked
    · cases checked
    split at checked
    · cases checked
    split at checked
    · cases checked
    rename_i source found _ navigation leads _ target bound same _
    rcases List.mem_cons.mp mem with rfl | later
    · exact ⟨source, navigation, target, found, leads, bound, by simpa using same⟩
    · exact ih checked later

/-- A checked navigation property joins properties of its two types by its only constraint. -/
theorem checkNavigation_ok {types : List EntityType} {t : EntityType} {n : Navigation}
    (checked : checkNavigation types t n = .ok ()) :
    ∃ target c, types.find? (·.name == n.target) = some target ∧ n.constraint? = some c ∧
      (t.property? c.property).isSome = true ∧ (target.property? c.referenced).isSome = true := by
  rw [checkNavigation] at checked
  split at checked
  · cases checked
  rename_i target found
  split at checked
  · cases checked
  rename_i c only
  split at checked
  · cases checked
  split at checked
  · cases checked
  rename_i local_ remote
  refine ⟨target, c, found, only, ?_, ?_⟩
  · simpa [Option.isSome_iff_ne_none] using local_
  · simpa [Option.isSome_iff_ne_none] using remote

/-- What building a model checks of its parts. -/
theorem build_ok {d : Draft} {m : Model} (built : d.build = .ok m) :
    Agree m.types ∧ (∀ s ∈ m.sets, s.type ∈ m.types) ∧
      (∀ t ∈ m.types, checkType m.types t = .ok ()) ∧ checkNames [] m.sets = .ok () ∧
      checkBindings m.sets [] m.bindings = .ok () := by
  simp only [build, Bind.bind, Except.bind] at built
  split at built
  · cases built
  rename_i types merged
  split at built
  · cases built
  rename_i checked
  split at built
  · cases built
  rename_i named
  split at built
  · cases built
  rename_i bound
  cases built
  obtain ⟨agree, -, added⟩ := mergeTypes_ok (fun _ mem => absurd mem List.not_mem_nil) merged
  refine ⟨agree, fun s mem => added ?_, checkAll_ok checked, named, bound⟩
  exact List.mem_append_right _ (List.mem_map_of_mem mem)

end Draft

namespace Model

/-- A set that is found by a name has it and is one of the sets. -/
theorem set?_some {m : Model} {name : String} {s : EntitySet} (found : m.set? name = some s) :
    s.name = name ∧ s ∈ m.sets :=
  ⟨by simpa using List.find?_some found, List.mem_of_find?_eq_some found⟩

variable {d : Draft} {m : Model}

/-- Each set of a built model is found by its name. -/
theorem set?_name (built : d.build = .ok m) {s : EntitySet} (mem : s ∈ m.sets) :
    m.set? s.name = some s := by
  obtain ⟨-, -, -, named, -⟩ := Draft.build_ok built
  have nodup := (Draft.checkNames_ok named).1
  cases found : m.set? s.name with
  | none => simpa using List.find?_eq_none.mp found s mem
  | some t =>
    obtain ⟨same, memT⟩ := set?_some found
    rw [List.inj_on_of_nodup_map nodup memT mem same]

/-- The key of an entity type of a built model is one of its properties. -/
theorem key_declared (built : d.build = .ok m) {s : EntitySet} (mem : s ∈ m.sets) {key : String}
    (keyed : s.type.key = some key) : ∃ p, s.type.property? key = some p := by
  obtain ⟨-, known, sound, -, -⟩ := Draft.build_ok built
  have checked := sound _ (known s mem)
  simp only [Draft.checkType, Bind.bind, Except.bind] at checked
  split at checked
  · cases checked
  rename_i first
  rw [Draft.checkKey, keyed] at first
  simp only at first
  split at first
  · rename_i present
    exact Option.isSome_iff_exists.mp present
  · cases first

/--
In a built model, a bound navigation property joins properties of the two sets it leads between.

It does so by its only constraint, which is what both databases and memory follow.
-/
theorem navigation_joins (built : d.build = .ok m) {set target name : String}
    {source inside : EntitySet} {n : Navigation} (present : m.set? set = some source)
    (leads : source.type.navigation? name = some n) (bound : m.target? set name = some target)
    (inTarget : m.set? target = some inside) :
    ∃ c p q, n.constraint? = some c ∧ source.type.property? c.property = some p ∧
      inside.type.property? c.referenced = some q := by
  obtain ⟨agree, known, sound, -, bindings⟩ := Draft.build_ok built
  obtain ⟨-, memSource⟩ := set?_some present
  obtain ⟨-, memInside⟩ := set?_some inTarget
  -- The constraint was checked against the type that the navigation property names.
  have checked := sound _ (known source memSource)
  simp only [Draft.checkType, Bind.bind, Except.bind] at checked
  split at checked
  · cases checked
  split at checked
  · cases checked
  obtain ⟨type, c, found, only, local_, remote⟩ := Draft.checkNavigation_ok
    (Draft.checkAll_ok checked n (List.mem_of_find?_eq_some leads))
  -- The binding leads to a set of that type, and names of types have one meaning.
  obtain ⟨b, binding, rfl⟩ := Option.map_eq_some_iff.mp bound
  have memB := List.mem_of_find?_eq_some binding
  have ofB := List.find?_some binding
  simp only [Bool.and_eq_true, beq_iff_eq] at ofB
  obtain ⟨rfl, rfl⟩ := ofB
  obtain ⟨source', n', inside', found', leads', inTarget', typed⟩ :=
    Draft.checkBindings_ok bindings memB
  rw [set?] at present inTarget
  rw [present] at found'
  rw [inTarget] at inTarget'
  cases found'
  cases inTarget'
  rw [leads] at leads'
  cases leads'
  have sameType : inside.type = type := by
    have := agree _ (known inside memInside)
    rw [typed, found] at this
    exact (Option.some.inj this).symm
  obtain ⟨p, hasP⟩ := Option.isSome_iff_exists.mp local_
  obtain ⟨q, hasQ⟩ := Option.isSome_iff_exists.mp remote
  exact ⟨c, p, q, only, hasP, sameType ▸ hasQ⟩

end Model

end EdmQuery
