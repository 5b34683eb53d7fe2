import Mathlib
import EdmQuery.Proofs.Expr.Order
import EdmQuery.Proofs.Query.Pushdown

/-! Keys that a request writes put the entities made from records into one order. -/

namespace EdmQuery

/-- Whether a type has values that are no numbers. -/
def PropertyType.isFloating : PropertyType → Bool
  | .primitive .single => true
  | .primitive .double => true
  | _ => false

/-- Only the floating types have a NaN among their values. -/
theorem PropertyType.isNaN_of_admits {type : PropertyType} {v : Value}
    (admitted : type.admits v = true) (whole : type.isFloating = false) : v.isNaN = false := by
  rcases v with _ | s | _
  · rfl
  · cases s <;> try rfl
    -- A double belongs to the two floating types and to no other one.
    case double x =>
      rcases type with primitive | element
      · cases primitive <;>
          simp only [admits, PrimitiveType.admits, isFloating, Bool.false_eq_true,
            Bool.true_eq_false] at admitted whole
      · exact absurd admitted Bool.false_ne_true
  · rfl

/-- Whether an entity has a number or null under every key of a floating type. -/
def Entity.hasNumbers (keys : List SortKey) (e : Entity) : Bool :=
  keys.all fun k => !k.property.type.isFloating || !(e.get k.property.name).isNaN

/-- Entities made from records of a type have no NaN under keys when they have numbers there. -/
theorem Entity.isNaN_of_hasNumbers {type : EntityType} {record : Record} {e : Entity}
    (made : ofRecord type record = .ok e) {keys : List SortKey} {k : SortKey} (mem : k ∈ keys)
    (declared : type.property? k.property.name = some k.property)
    (numbers : e.hasNumbers keys = true) : (e.get k.property.name).isNaN = false := by
  have tested := List.all_eq_true.mp numbers k mem
  simp only [Bool.or_eq_true, Bool.not_eq_true'] at tested
  rcases tested with whole | number
  · exact PropertyType.isNaN_of_admits (typed_ofRecord made _ _ declared) whole
  · exact number

/-- Being in order is not being greater. -/
theorem inOrder_iff (keys : List SortKey) (a b : Entity) :
    inOrder keys a b = true ↔ compareEntities keys a b ≠ .gt := by
  rw [inOrder]
  cases compareEntities keys a b <;> simp

/--
Keys that a request writes put the entities made from records into one order.

Entities compare the other way round when they change places.
Unless a floating key meets a NaN, being in order goes on from one pair to the next, and sorting
gives the only list in order that keeps the places of entities the keys do not tell apart.
-/
theorem records_sort_by_written_keys {type : EntityType} {text : String} {keys : List SortKey}
    (written : parseOrder type text = .ok keys) {entities : List Entity}
    (made : ∀ e ∈ entities, ∃ record, Entity.ofRecord type record = .ok e) :
    (∀ a b, compareEntities keys a b = (compareEntities keys b a).swap) ∧
      ((∀ e ∈ entities, e.hasNumbers keys = true) →
        (∀ a ∈ entities, ∀ b ∈ entities, ∀ c ∈ entities,
          compareEntities keys a b ≠ .gt → compareEntities keys b c ≠ .gt →
            compareEntities keys a c ≠ .gt) ∧
        (∀ sorted, sorted = sortEntities keys entities ↔
          sorted.Pairwise (fun a b => compareEntities keys a b ≠ .gt) ∧
            SameLevels keys sorted entities)) := by
  refine ⟨compareEntities_swap keys, fun numbers => ?_⟩
  have declared := parseOrder_declared written
  have sortable : Sortable keys entities := by
    refine @sortable_of_typed type _ _ ?_ (fun k mem => ⟨_, declared k mem⟩) ?_
    · intro e mem
      obtain ⟨record, read⟩ := made e mem
      exact Entity.typed_ofRecord read
    · intro e mem k memK
      obtain ⟨record, read⟩ := made e mem
      exact Entity.isNaN_of_hasNumbers read memK (declared k memK) (numbers e mem)
  simp only [← inOrder_iff]
  refine ⟨fun a memA b memB c memC => inOrder_trans sortable memA memB memC, fun sorted => ?_⟩
  rw [sortEntities_eq_mergeSort sortable]
  have levels := sameLevels_mergeSort sortable
  have ordered := pairwise_mergeSort sortable
  constructor
  · rintro rfl
    exact ⟨ordered, levels⟩
  · intro ⟨inOrdered, same⟩
    -- Both lists agree with the entities on every level, and so with each other.
    have agree : SameLevels keys sorted (entities.mergeSort (inOrder keys)) := by
      intro a mem
      have memA : a ∈ entities := mem.elim same.mem List.mem_mergeSort.mp
      rw [same a (.inr memA), levels a (.inr memA)]
    exact agree.eq inOrdered ordered

/-- A reading of a gauge: its number and the level, a double. -/
def readingType : EntityType :=
  ⟨"Reading", some "id", [⟨"id", .primitive (.integer .int64), false, false, none⟩,
    ⟨"level", .primitive .double, true, false, none⟩], []⟩

/-- The key for the levels of readings. -/
def levelKey (descending : Bool) : SortKey :=
  ⟨⟨"level", .primitive .double, true, false, none⟩, descending⟩

/-- The record of a reading. -/
def readingRecord (id : Int) (level : Json) : Record :=
  [("id", .ofInt id), ("level", level)]

/-- The entity of a reading. -/
def reading (id : Int64) (level : Value) : Entity :=
  .mk readingType (some (.integer id)) [("id", .integer id), ("level", level)] []

/-- Readings are sorted by levels, highest first, and keep their places where they are equal. -/
theorem records_sort_by_written_keys_of_readings :
    parseOrder readingType "level desc" = .ok [levelKey true] ∧
      [reading 2 (.double 2.5), reading 1 (.double 1), reading 4 (.double 1), reading 3 .null] =
        sortEntities [levelKey true] [reading 1 (.double 1), reading 2 (.double 2.5),
          reading 3 .null, reading 4 (.double 1)] := by
  have written : parseOrder readingType "level desc" = .ok [levelKey true] := by cbv
  have made : ∀ e ∈ [reading 1 (.double 1), reading 2 (.double 2.5), reading 3 .null,
      reading 4 (.double 1)], ∃ record, Entity.ofRecord readingType record = .ok e := by
    simp only [List.forall_mem_cons, List.not_mem_nil, false_imp_iff, implies_true, and_true]
    exact ⟨⟨readingRecord 1 (.number (.double 1)), rfl⟩,
      ⟨readingRecord 2 (.number (.double 2.5)), rfl⟩, ⟨readingRecord 3 .null, rfl⟩,
      ⟨readingRecord 4 (.number (.double 1)), rfl⟩⟩
  refine ⟨written, ?_⟩
  refine ((records_sort_by_written_keys written made).2 ?_).2 _ |>.mpr ⟨?_, ?_⟩
  · decide +kernel
  · decide +kernel
  · -- The two equal readings are the only ones that are on one level.
    intro a mem
    simp only [List.mem_cons, List.not_mem_nil, or_false] at mem
    rcases mem with (rfl | rfl | rfl | rfl) | (rfl | rfl | rfl | rfl) <;> rfl

/-- A level that is no number stands equal beside any other, also between two out of order. -/
theorem written_keys_misplace_no_number :
    ∃ a b c, Entity.ofRecord readingType (readingRecord 1 (.number (.double 2))) = .ok a ∧
      Entity.ofRecord readingType (readingRecord 2 (.text "NaN")) = .ok b ∧
      Entity.ofRecord readingType (readingRecord 3 (.number (.double 1))) = .ok c ∧
      ∃ keys, parseOrder readingType "level" = .ok keys ∧
      compareEntities keys a b = .eq ∧
        compareEntities keys b c = .eq ∧ compareEntities keys a c = .gt ∧
        sortEntities keys [a, b, c] = [a, b, c] := by
  refine ⟨reading 1 (.double 2), reading 2 (.double (0.0 / 0.0)), reading 3 (.double 1),
    rfl, rfl, rfl, [levelKey false], by cbv, ?_, ?_, ?_, ?_⟩
  · decide +kernel
  · decide +kernel
  · decide +kernel
  · rfl

end EdmQuery
