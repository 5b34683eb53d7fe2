import Mathlib
import EdmQuery.Expr.Order
import EdmQuery.Proofs.Edm.Typing

/-! Sorting by keys is the stable sort of the order that the keys define. -/

namespace EdmQuery

/--
Two values that sort: one of them is null, or both are of one kind and have an order.

Collections have none and count as equal to each other.
-/
def Value.Sorts (a b : Value) : Prop :=
  a.isNull = true ∨ b.isNull = true ∨
    a.kind = b.kind ∧ ((a.compare b).isSome = true ∨ a.kind = "collection")

/-- Entities that sort by keys: under every key, the values of any two of them do. -/
def Sortable (keys : List SortKey) (entities : List Entity) : Prop :=
  ∀ k ∈ keys, ∀ a ∈ entities, ∀ b ∈ entities,
    (a.get k.property.name).Sorts (b.get k.property.name)

instance (a b : Value) : Decidable (a.Sorts b) :=
  inferInstanceAs (Decidable (_ ∨ _))

instance (keys : List SortKey) (entities : List Entity) : Decidable (Sortable keys entities) :=
  inferInstanceAs (Decidable (∀ k ∈ keys, ∀ a ∈ entities, ∀ b ∈ entities,
    (a.get k.property.name).Sorts (b.get k.property.name)))

/-- Whether an entity may stand before another one. -/
def inOrder (keys : List SortKey) (a b : Entity) : Bool :=
  (compareEntities keys a b).isLE

/-- Fewer keys and fewer entities sort as well. -/
theorem Sortable.mono {keys keys' : List SortKey} {entities entities' : List Entity}
    (sortable : Sortable keys entities) (fewer : keys' ⊆ keys) (among : entities' ⊆ entities) :
    Sortable keys' entities' :=
  fun k mem a memA b memB => sortable k (fewer mem) a (among memA) b (among memB)

/-- Values of one declared type sort unless one of them is a NaN. -/
theorem Value.sorts_of_admits {type : PropertyType} {a b : Value} (left : type.admits a = true)
    (right : type.admits b = true) (number : a.isNaN = false) (number' : b.isNaN = false) :
    a.Sorts b := by
  rcases a with _ | a | _
  · exact .inl rfl
  all_goals rcases b with _ | b | _
  all_goals cases type <;> simp only [PropertyType.admits, Bool.false_eq_true] at left right
  all_goals first | exact .inr (.inl rfl) | skip
  · exact .inr (.inr ⟨Scalar.kind_eq left right, .inl (Scalar.compare_isSome left right number number')⟩)
  · exact .inr (.inr ⟨rfl, .inr rfl⟩)

/-- Entities of a type sort by its properties when they hold no NaN there. -/
theorem sortable_of_typed {type : EntityType} {keys : List SortKey} {entities : List Entity}
    (typed : ∀ e ∈ entities, e.Typed type)
    (declared : ∀ k ∈ keys, ∃ p, type.property? k.property.name = some p)
    (numbers : ∀ e ∈ entities, ∀ k ∈ keys, (e.get k.property.name).isNaN = false) :
    Sortable keys entities := by
  intro k mem a memA b memB
  obtain ⟨p, found⟩ := declared k mem
  exact Value.sorts_of_admits (typed a memA _ p found) (typed b memB _ p found)
    (numbers a memA k mem) (numbers b memB k mem)

namespace SortKey

/-- Values sort the other way round when they change places. -/
theorem compareValues_swap (a b : Value) : compareValues a b = (compareValues b a).swap := by
  have swapped : a.compare b = (b.compare a).map Ordering.swap := by
    rcases a with _ | a | _ <;> rcases b with _ | b | _ <;> try rfl
    exact Scalar.compare_swap a b
  simp only [compareValues, swapped]
  cases a.isNull <;> cases b.isNull <;> cases b.compare a <;> rfl

/-- Values that sort and stand in order twice stand in order. -/
theorem compareValues_trans {a b c : Value} (sorts : a.Sorts b) (sorts' : b.Sorts c)
    (sorts'' : a.Sorts c) (first : (compareValues a b).isLE) (second : (compareValues b c).isLE) :
    (compareValues a c).isLE := by
  -- Nulls come first, so only three values other than null are left to compare.
  cases nullA : a.isNull <;> cases nullB : b.isNull <;> cases nullC : c.isNull <;>
    simp only [compareValues, nullA, nullB, nullC, Value.Sorts, Bool.false_eq_true, false_or]
      at sorts sorts' sorts'' first second ⊢ <;>
    try trivial
  have scalarKind (s : Scalar) : s.kind ≠ "collection" := by
    cases s <;> simp [Scalar.kind]
  -- Collections have the kind of no single value, and all of them count as equal.
  rcases a with _ | a | _ <;> rcases b with _ | b | _ <;> rcases c with _ | c | _ <;>
    first
    | exact absurd nullA (by decide)
    | exact absurd nullB (by decide)
    | exact absurd nullC (by decide)
    | rfl
    | exact absurd sorts.1 (scalarKind _)
    | exact absurd sorts.1.symm (scalarKind _)
    | exact absurd sorts'.1 (scalarKind _)
    | skip
  simp only [Value.kind, Value.compare, scalarKind, or_false] at *
  obtain ⟨kind, some⟩ := sorts
  obtain ⟨kind', some'⟩ := sorts'
  obtain ⟨-, some''⟩ := sorts''
  obtain ⟨o, found⟩ := Option.isSome_iff_exists.mp some
  obtain ⟨o', found'⟩ := Option.isSome_iff_exists.mp some'
  obtain ⟨o'', found''⟩ := Option.isSome_iff_exists.mp some''
  have ascending : ascends (a.compare b) → ascends (b.compare c) → ascends (a.compare c) :=
    Scalar.compare_trans kind kind'
  simpa [found, found', found'', ascends] using ascending
    (by simpa [found, ascends] using first) (by simpa [found', ascends] using second)

/-- Entities stand the other way round when they change places. -/
theorem compare_swap (k : SortKey) (a b : Entity) : k.compare a b = (k.compare b a).swap := by
  rw [compare, compare, compareValues_swap]
  cases k.descending <;> simp

/-- Entities that sort and stand in order twice stand in order. -/
theorem compare_trans {k : SortKey} {entities : List Entity} {a b c : Entity}
    (sortable : Sortable [k] entities) (memA : a ∈ entities) (memB : b ∈ entities)
    (memC : c ∈ entities) (first : (k.compare a b).isLE) (second : (k.compare b c).isLE) :
    (k.compare a c).isLE := by
  have sorts {x y : Entity} (memX : x ∈ entities) (memY : y ∈ entities) :=
    sortable k (List.mem_singleton.mpr rfl) x memX y memY
  cases descending : k.descending with
  | false =>
    simp only [compare, descending, Bool.false_eq_true, if_false] at *
    exact compareValues_trans (sorts memA memB) (sorts memB memC) (sorts memA memC) first second
  | true =>
    -- A descending key turns every comparison round, so the chain is read from its end.
    simp only [compare, descending, if_true, ← compareValues_swap] at *
    exact compareValues_trans (sorts memC memB) (sorts memB memA) (sorts memC memA) second first

end SortKey

/-- The first key decides unless it finds two entities equal. -/
theorem compareEntities_cons (k : SortKey) (rest : List SortKey) (a b : Entity) :
    compareEntities (k :: rest) a b = (k.compare a b).then (compareEntities rest a b) := by
  rw [compareEntities]
  cases k.compare a b <;> rfl

/-- Entities that several keys do not tell apart are not told apart by any of them. -/
theorem compare_eq_of_mem {keys : List SortKey} {k : SortKey} (mem : k ∈ keys) {a b : Entity}
    (equal : compareEntities keys a b = .eq) : k.compare a b = .eq := by
  induction keys with
  | nil => cases mem
  | cons first rest ih =>
    rw [compareEntities_cons, Ordering.then_eq_eq] at equal
    rcases List.mem_cons.mp mem with rfl | later
    · exact equal.1
    · exact ih later equal.2

/-- Entities compare by several keys the other way round when they change places. -/
theorem compareEntities_swap (keys : List SortKey) (a b : Entity) :
    compareEntities keys a b = (compareEntities keys b a).swap := by
  induction keys with
  | nil => rfl
  | cons k rest ih =>
    rw [compareEntities_cons, compareEntities_cons, k.compare_swap, ih, Ordering.swap_then]

/-- Of two entities, one may stand before the other. -/
theorem inOrder_total (keys : List SortKey) (a b : Entity) :
    inOrder keys a b || inOrder keys b a := by
  rw [inOrder, inOrder, compareEntities_swap]
  cases compareEntities keys b a <;> rfl

/-- Every entity may stand before itself. -/
theorem inOrder_refl (keys : List SortKey) (a : Entity) : inOrder keys a a := by
  simpa using inOrder_total keys a a

/-- Keys order the entities that sort by them, up to those that they do not tell apart. -/
theorem transCmp_compareEntities {keys : List SortKey} {entities : List Entity}
    (sortable : Sortable keys entities) :
    Std.TransCmp fun a b : { e // e ∈ entities } => compareEntities keys a.1 b.1 := by
  induction keys with
  | nil => exact { eq_swap := rfl, isLE_trans := fun _ _ => rfl }
  | cons k rest ih =>
    have tail := ih (sortable.mono (by simp) (List.Subset.refl _))
    have head : Std.TransCmp fun a b : { e // e ∈ entities } => k.compare a.1 b.1 := {
      eq_swap := k.compare_swap _ _
      isLE_trans := by
        intro a b c
        exact SortKey.compare_trans (sortable.mono (by simp) (List.Subset.refl _)) a.2 b.2 c.2 }
    -- The keys together are the lexicographic order of the first one and the others.
    simp only [compareEntities_cons]
    exact inferInstanceAs (Std.TransCmp (compareLex
      (fun a b : { e // e ∈ entities } => k.compare a.1 b.1)
      (fun a b : { e // e ∈ entities } => compareEntities rest a.1 b.1)))

/-- Among entities that sort, being in order goes on from one pair to the next. -/
theorem inOrder_trans {keys : List SortKey} {entities : List Entity}
    (sortable : Sortable keys entities) {a b c : Entity} (memA : a ∈ entities)
    (memB : b ∈ entities) (memC : c ∈ entities) (first : inOrder keys a b)
    (second : inOrder keys b c) : inOrder keys a c :=
  have := transCmp_compareEntities sortable
  @Std.TransCmp.isLE_trans _ (fun a b : { e // e ∈ entities } => compareEntities keys a.1 b.1) _
    ⟨a, memA⟩ ⟨b, memB⟩ ⟨c, memC⟩ first second

/-- Without keys all entities are in order already. -/
theorem mergeSort_inOrder_nil (entities : List Entity) :
    entities.mergeSort (inOrder []) = entities :=
  List.mergeSort_of_pairwise (List.pairwise_of_forall fun _ _ => rfl)

/-- The entities of a list that keys do not tell apart from a given one. -/
def level (keys : List SortKey) (a : Entity) (entities : List Entity) : List Entity :=
  entities.filter fun b => inOrder keys a b && inOrder keys b a

/-- The first entity is on the level of an entity, or the level is that of the others. -/
theorem level_cons (keys : List SortKey) (a b : Entity) (rest : List Entity) :
    level keys a (b :: rest) =
      if inOrder keys a b && inOrder keys b a then b :: level keys a rest
      else level keys a rest := by
  rw [level, List.filter_cons]
  rfl

/-- An entity is on its own level. -/
theorem mem_level_self {keys : List SortKey} {a : Entity} {entities : List Entity}
    (mem : a ∈ entities) : a ∈ level keys a entities :=
  List.mem_filter.mpr ⟨mem, by simp [inOrder_refl]⟩

/-- Two lists that agree on the levels of their entities. -/
def SameLevels (keys : List SortKey) (left right : List Entity) : Prop :=
  ∀ a, a ∈ left ∨ a ∈ right → level keys a left = level keys a right

/-- Lists that agree on levels have the same entities. -/
theorem SameLevels.mem {keys : List SortKey} {left right : List Entity}
    (levels : SameLevels keys left right) {a : Entity} (mem : a ∈ left) : a ∈ right :=
  List.mem_of_mem_filter (levels a (.inl mem) ▸ mem_level_self mem)

/-- Agreement on levels goes both ways. -/
theorem SameLevels.symm {keys : List SortKey} {left right : List Entity}
    (levels : SameLevels keys left right) : SameLevels keys right left :=
  fun a mem => (levels a mem.symm).symm

/--
Two sorted lists are equal when they agree on the entities that the keys do not tell apart.

Such lists are permutations of each other in which equal entities stand in the same order.
-/
theorem SameLevels.eq {keys : List SortKey} {left right : List Entity}
    (levels : SameLevels keys left right) (sortedL : left.Pairwise (inOrder keys · ·))
    (sortedR : right.Pairwise (inOrder keys · ·)) : left = right := by
  induction left generalizing right with
  | nil =>
    refine (List.eq_nil_iff_forall_not_mem.mpr fun a mem => ?_).symm
    exact List.not_mem_nil (levels.symm.mem mem)
  | cons a left ih =>
    cases right with
    | nil => exact absurd (levels.mem List.mem_cons_self) List.not_mem_nil
    | cons b right =>
      -- Each head occurs in the other list, so neither is behind the other.
      have below : inOrder keys a b := by
        rcases List.mem_cons.mp (levels.symm.mem List.mem_cons_self) with rfl | later
        · exact inOrder_refl keys _
        · exact (List.pairwise_cons.mp sortedL).1 b later
      have above : inOrder keys b a := by
        rcases List.mem_cons.mp (levels.mem List.mem_cons_self) with rfl | later
        · exact inOrder_refl keys _
        · exact (List.pairwise_cons.mp sortedR).1 a later
      have heads : a = b := by
        have := levels a (.inl List.mem_cons_self)
        simp only [level_cons, inOrder_refl, below, above, Bool.and_self, if_true] at this
        exact (List.cons.inj this).1
      subst heads
      -- The equal heads belong to the same levels, so the tails agree on all of them.
      have tails : SameLevels keys left right := by
        intro c mem
        have := levels c (mem.imp (List.mem_cons_of_mem a) (List.mem_cons_of_mem a))
        simp only [level_cons] at this
        split at this
        · exact (List.cons.inj this).2
        · exact this
      rw [ih tails sortedL.of_cons sortedR.of_cons]

section

variable {keys : List SortKey} {entities : List Entity}

/-- A sort of the entities of a list is one of the entities with their membership in it. -/
theorem map_attach_mergeSort (keys : List SortKey) (entities : List Entity) :
    (entities.attach.mergeSort fun a b => inOrder keys a.1 b.1).map (·.1)
      = entities.mergeSort (inOrder keys) := by
  rw [List.map_mergeSort (s := inOrder keys) fun _ _ _ _ => rfl, List.attach_map_subtype_val]

/-- The stable sort of the library puts entities that sort in order. -/
theorem pairwise_mergeSort (sortable : Sortable keys entities) :
    (entities.mergeSort (inOrder keys)).Pairwise (inOrder keys · ·) := by
  -- Only the entities of the list are known to sort, so they carry their membership along.
  let le (a b : { e // e ∈ entities }) : Bool := inOrder keys a.1 b.1
  have trans (a b c : { e // e ∈ entities }) : le a b → le b c → le a c :=
    inOrder_trans sortable a.2 b.2 c.2
  have total (a b : { e // e ∈ entities }) : le a b || le b a := inOrder_total keys a.1 b.1
  rw [← map_attach_mergeSort]
  exact List.pairwise_map.mpr (List.pairwise_mergeSort trans total entities.attach)

/-- The stable sort of the library keeps entities in order that the keys do not tell apart. -/
theorem sameLevels_mergeSort (sortable : Sortable keys entities) :
    SameLevels keys (entities.mergeSort (inOrder keys)) entities := by
  intro a mem
  have memA : a ∈ entities := mem.elim List.mem_mergeSort.mp id
  let le (b c : { e // e ∈ entities }) : Bool := inOrder keys b.1 c.1
  have trans (b c d : { e // e ∈ entities }) : le b c → le c d → le b d :=
    inOrder_trans sortable b.2 c.2 d.2
  have total (b c : { e // e ∈ entities }) : le b c || le c b := inOrder_total keys b.1 c.1
  let same (b : Entity) : Bool := inOrder keys a b && inOrder keys b a
  -- A level is in order itself, so the sort keeps it as a part of the list.
  have ordered : (entities.attach.filter (same ∘ (·.1))).Pairwise (le · ·) := by
    refine List.pairwise_of_forall_mem_list fun b memB c memC => ?_
    have sameB := (List.mem_filter.mp memB).2
    have sameC := (List.mem_filter.mp memC).2
    simp only [same, Function.comp, Bool.and_eq_true] at sameB sameC
    exact inOrder_trans sortable b.2 memA c.2 sameB.2 sameC.1
  have kept := (List.sublist_mergeSort trans total ordered List.filter_sublist).map (·.1)
  rw [← List.filter_map, map_attach_mergeSort, List.attach_map_subtype_val] at kept
  have inner := kept.filter same
  simp only [List.filter_filter, Bool.and_self] at inner
  exact (inner.eq_of_length ((List.mergeSort_perm _ _).filter same).length_eq.symm).symm

/-- Inserting from the end adds the entity and nothing else. -/
theorem perm_insertFromEnd (keys : List SortKey) (e : Entity) (sorted : List Entity) :
    (insertFromEnd keys e sorted).Perm (e :: sorted) := by
  induction sorted with
  | nil => exact List.Perm.refl _
  | cons last before ih =>
    rw [insertFromEnd]
    split
    · exact (ih.cons last).trans (List.Perm.swap e last before)
    · exact List.Perm.refl _

/-- Inserting from the end puts an entity in order into a list that descends. -/
theorem pairwise_insertFromEnd {e : Entity} {sorted : List Entity}
    (sortable : Sortable keys entities) (mem : e ∈ entities) (among : sorted ⊆ entities)
    (descends : sorted.Pairwise fun b a => inOrder keys a b) :
    (insertFromEnd keys e sorted).Pairwise fun b a => inOrder keys a b := by
  induction sorted with
  | nil => exact List.pairwise_singleton _ _
  | cons last before ih =>
    obtain ⟨head, tail⟩ := List.pairwise_cons.mp descends
    rw [insertFromEnd]
    split
    · -- The last entity stays last: the new one is less, and so are those before it.
      rename_i less
      refine List.pairwise_cons.mpr ⟨fun a memA => ?_, ih (List.cons_subset.mp among).2 tail⟩
      rcases List.mem_cons.mp ((perm_insertFromEnd keys e before).mem_iff.mp memA) with rfl | memA
      · rw [inOrder, eq_of_beq less]
        rfl
      · exact head a memA
    · rename_i notLess
      have above : inOrder keys last e := by
        rw [inOrder, compareEntities_swap]
        revert notLess
        cases compareEntities keys e last <;> simp
      refine List.pairwise_cons.mpr ⟨fun a memA => ?_, descends⟩
      rcases List.mem_cons.mp memA with rfl | memA
      · exact above
      · exact inOrder_trans sortable (among (List.mem_cons_of_mem _ memA))
          (among List.mem_cons_self) mem (head a memA) above

/-- Inserting from the end puts an entity behind those that the keys do not tell apart from it. -/
theorem level_insertFromEnd {a e : Entity} {sorted : List Entity}
    (sortable : Sortable keys entities) (memA : a ∈ entities) (mem : e ∈ entities)
    (among : sorted ⊆ entities) :
    level keys a (insertFromEnd keys e sorted) = level keys a (e :: sorted) := by
  induction sorted with
  | nil => rfl
  | cons last before ih =>
    rw [insertFromEnd]
    split
    · rename_i less
      rw [level_cons, ih (List.cons_subset.mp among).2, level_cons, level_cons _ _ e, level_cons]
      -- The entity and the last one are not on one level, so their order does not show.
      have apart : (inOrder keys a e && inOrder keys e a) = true →
          ¬(inOrder keys a last && inOrder keys last a) = true := by
        intro sameE sameLast
        simp only [Bool.and_eq_true] at sameE sameLast
        have back := inOrder_trans sortable (among List.mem_cons_self) memA mem sameLast.2 sameE.1
        rw [inOrder, compareEntities_swap, eq_of_beq less] at back
        exact absurd back (by decide)
      by_cases sameE : (inOrder keys a e && inOrder keys e a) = true
      · simp only [if_pos sameE, if_neg (apart sameE)]
      · simp only [if_neg sameE]
    · exact rfl

/-- Inserting entities one after another sorts them in front of a list that descends. -/
theorem foldl_insertFromEnd {sorted added : List Entity} (sortable : Sortable keys entities)
    (among : sorted ⊆ entities) (amongAdded : added ⊆ entities)
    (descends : sorted.Pairwise fun b a => inOrder keys a b) :
    let result := added.foldl (fun sorted e => insertFromEnd keys e sorted) sorted
    (result.Pairwise fun b a => inOrder keys a b) ∧ result.Perm (added ++ sorted) ∧
      ∀ a ∈ entities, level keys a result = level keys a (added.reverse ++ sorted) := by
  induction added generalizing sorted with
  | nil => exact ⟨descends, List.Perm.refl _, fun _ _ => rfl⟩
  | cons e added ih =>
    obtain ⟨mem, amongAdded⟩ := List.cons_subset.mp amongAdded
    have perm := perm_insertFromEnd keys e sorted
    obtain ⟨pairwise, perms, levels⟩ := ih
      (fun a memA => (List.mem_cons.mp (perm.mem_iff.mp memA)).elim (· ▸ mem) (among ·)) amongAdded
      (pairwise_insertFromEnd sortable mem among descends)
    refine ⟨pairwise, ?_, fun a memA => ?_⟩
    · exact perms.trans ((perm.append_left added).trans List.perm_middle)
    · have inserted := level_insertFromEnd (a := a) sortable memA mem among
      simp only [List.foldl_cons, levels a memA, List.reverse_cons, List.append_assoc,
        List.singleton_append]
      simp only [level, List.filter_append] at inserted ⊢
      rw [inserted]

/-- Sorting by keys is the stable sort of the order that they define. -/
theorem sortEntities_eq_mergeSort (sortable : Sortable keys entities) :
    sortEntities keys entities = entities.mergeSort (inOrder keys) := by
  obtain ⟨pairwise, perm, levels⟩ := foldl_insertFromEnd sortable (List.nil_subset _)
    (List.Subset.refl entities) List.Pairwise.nil
  rw [List.append_nil] at perm
  -- Both sorts agree with the list itself on every level.
  have levels' : SameLevels keys (sortEntities keys entities) entities := by
    intro a mem
    have memA : a ∈ entities :=
      mem.elim (fun mem => perm.mem_iff.mp (List.mem_reverse.mp mem)) id
    have := levels a memA
    simp only [level, List.append_nil] at this
    rw [level, sortEntities, List.filter_reverse, this, List.filter_reverse, List.reverse_reverse]
    rfl
  have same : SameLevels keys (sortEntities keys entities) (entities.mergeSort (inOrder keys)) := by
    intro a mem
    have memA : a ∈ entities := mem.elim levels'.mem List.mem_mergeSort.mp
    rw [levels' a (.inr memA), sameLevels_mergeSort sortable a (.inr memA)]
  exact same.eq (List.pairwise_reverse.mpr pairwise) (pairwise_mergeSort sortable)

/-- Without keys entities stay in their order. -/
theorem sortEntities_nil (entities : List Entity) : sortEntities [] entities = entities := by
  rw [sortEntities_eq_mergeSort fun _ key => absurd key List.not_mem_nil, mergeSort_inOrder_nil]

/-- Further keys decide where the first ones find two entities equal. -/
theorem compareEntities_append (keys more : List SortKey) (a b : Entity) :
    compareEntities (keys ++ more) a b =
      (compareEntities keys a b).then (compareEntities more a b) := by
  induction keys with
  | nil => rfl
  | cons k rest ih =>
    rw [List.cons_append, compareEntities_cons, compareEntities_cons, ih, Ordering.then_assoc]

/-- The level under more keys is the level under the further keys within that of the first. -/
theorem level_append (keys more : List SortKey) (a : Entity) (entities : List Entity) :
    level (keys ++ more) a entities = level more a (level keys a entities) := by
  rw [level, level, level, List.filter_filter]
  refine congrArg (entities.filter ·) (funext fun b => ?_)
  simp only [inOrder, compareEntities_append, compareEntities_swap keys b a,
    compareEntities_swap more b a]
  cases compareEntities keys a b <;> cases compareEntities more a b <;> rfl

/-- The levels under two lists of keys can be taken in either order. -/
theorem level_comm (keys more : List SortKey) (a : Entity) (entities : List Entity) :
    level more a (level keys a entities) = level keys a (level more a entities) := by
  rw [level, level, level, level, List.filter_filter, List.filter_filter]
  exact congrArg (entities.filter ·) (funext fun b => Bool.and_comm _ _)

/-- Selecting from sorted entities is sorting the selected ones. -/
theorem filter_mergeSort (sortable : Sortable keys entities) (test : Entity → Bool) :
    (entities.mergeSort (inOrder keys)).filter test
      = (entities.filter test).mergeSort (inOrder keys) := by
  have sortable' : Sortable keys (entities.filter test) :=
    sortable.mono (List.Subset.refl _) fun _ => List.mem_of_mem_filter
  have same : SameLevels keys ((entities.mergeSort (inOrder keys)).filter test)
      ((entities.filter test).mergeSort (inOrder keys)) := by
    intro a mem
    have memA : a ∈ entities.filter test := by
      rcases mem with mem | mem
      · obtain ⟨memA, tested⟩ := List.mem_filter.mp mem
        exact List.mem_filter.mpr ⟨List.mem_mergeSort.mp memA, tested⟩
      · exact List.mem_mergeSort.mp mem
    have kept := sameLevels_mergeSort sortable a (.inr (List.mem_of_mem_filter memA))
    rw [sameLevels_mergeSort sortable' a (.inr memA)]
    -- The test and the level are two selections, which can be made in either order.
    simp only [level, List.filter_filter, Bool.and_comm _ (test _)] at kept ⊢
    rw [← List.filter_filter, kept, List.filter_filter]
  exact same.eq ((pairwise_mergeSort sortable).sublist List.filter_sublist)
    (pairwise_mergeSort sortable')

/-- Sorting by further keys first and then by the first ones sorts by all of them. -/
theorem mergeSort_mergeSort {more : List SortKey} (sortable : Sortable (keys ++ more) entities) :
    (entities.mergeSort (inOrder more)).mergeSort (inOrder keys)
      = entities.mergeSort (inOrder (keys ++ more)) := by
  have sortableMore := sortable.mono (List.subset_append_right keys more) (List.Subset.refl _)
  have sortableKeys : Sortable keys (entities.mergeSort (inOrder more)) :=
    sortable.mono (List.subset_append_left keys more) fun a mem => List.mem_mergeSort.mp mem
  have outer := sameLevels_mergeSort sortableKeys
  have member {a : Entity} (mem : a ∈ entities) : a ∈ entities.mergeSort (inOrder more) :=
    List.mem_mergeSort.mpr mem
  have same : SameLevels (keys ++ more)
      ((entities.mergeSort (inOrder more)).mergeSort (inOrder keys))
      (entities.mergeSort (inOrder (keys ++ more))) := by
    intro a mem
    have memA : a ∈ entities :=
      mem.elim (fun mem => List.mem_mergeSort.mp (List.mem_mergeSort.mp mem)) List.mem_mergeSort.mp
    rw [sameLevels_mergeSort sortable a (.inr memA), level_append, outer a (.inr (member memA)),
      level_comm, sameLevels_mergeSort sortableMore a (.inr memA), ← level_comm, ← level_append]
  -- Two entities that the first keys do not tell apart still stand as the further keys put them.
  have ordered : ((entities.mergeSort (inOrder more)).mergeSort (inOrder keys)).Pairwise
      (inOrder (keys ++ more) · ·) := by
    refine List.pairwise_iff_forall_sublist.mpr fun {a b} pair => ?_
    have first := List.pairwise_iff_forall_sublist.mp (pairwise_mergeSort sortableKeys) pair
    have memA := List.mem_mergeSort.mp (pair.subset List.mem_cons_self)
    rw [inOrder, compareEntities_append]
    rw [inOrder] at first
    cases decided : compareEntities keys a b with
    | lt => rfl
    | gt => simp [decided] at first
    | eq =>
      have kept : [a, b].Sublist (level keys a (entities.mergeSort (inOrder more))) := by
        rw [← outer a (.inr memA)]
        have both : inOrder keys a b = true ∧ inOrder keys b a = true := by
          rw [inOrder, inOrder, compareEntities_swap keys b a, decided]
          exact ⟨rfl, rfl⟩
        have inner := pair.filter fun c => inOrder keys a c && inOrder keys c a
        rwa [List.filter_cons_of_pos (by simp [inOrder_refl]),
          List.filter_cons_of_pos (by simp [both]), List.filter_nil] at inner
      exact List.pairwise_iff_forall_sublist.mp
        ((pairwise_mergeSort sortableMore).sublist List.filter_sublist) kept
  exact same.eq ordered (pairwise_mergeSort sortable)

end

end EdmQuery
