import Mathlib
import EdmQuery.Proofs.Expr.Kinds
import EdmQuery.Proofs.Sql.Parity

/-! Filters are type-safe: what a part of one evaluates to belongs to the type that it has. -/

namespace EdmQuery

open Expression

namespace Entities

/-- Entities that pass a test were there before. -/
theorem mem_of_sift {verdict : Entity → Except RequestError Bool} {stream : Entities} {e : Entity}
    (mem : .ok e ∈ sift verdict stream) : .ok e ∈ stream := by
  obtain ⟨item, present, left⟩ := List.mem_filterMap.mp mem
  cases item with
  | error fault => cases left
  | ok other =>
    rw [tested] at left
    split at left
    · cases left
    · cases left
      exact present
    · cases left

/-- The items of a window are items of the stream. -/
theorem mem_of_window {skip : Nat} {top : Option Nat} {stream : Entities}
    {item : Except RequestError Entity} (mem : item ∈ window skip top stream) : item ∈ stream := by
  obtain ⟨⟨_, i⟩, shown, rfl⟩ := List.mem_map.mp mem
  exact List.fst_mem_of_mem_zipIdx (List.mem_filter.mp shown).1

/-- All entities of a stream are among its items. -/
theorem mem_of_all {stream : Entities} {entities : List Entity} (read : stream.all = .ok entities)
    {e : Entity} (mem : e ∈ entities) : .ok e ∈ stream := by
  induction stream generalizing entities with
  | nil =>
    cases read
    cases mem
  | cons item rest ih =>
    cases item with
    | error fault => cases read
    | ok first =>
      obtain ⟨others, more, rfl⟩ := map_ok read
      rcases List.mem_cons.mp mem with rfl | later
      · exact List.mem_cons_self
      · exact List.mem_cons_of_mem _ (ih more later)

end Entities

/-- What a reader has of a stream are items of it. -/
theorem Patience.mem_of_cut {patience : Patience} {stream : Entities}
    {item : Except RequestError Entity} (mem : item ∈ patience.cut stream) : item ∈ stream := by
  cases patience with
  | throughFaults => exact mem
  | upToFault =>
    rcases List.mem_append.mp mem with before | fault
    · exact (List.takeWhile_sublist _).mem before
    · exact (List.dropWhile_sublist _).mem (List.mem_of_mem_take fault)

namespace Service

variable {v : Service Id}

/-- All sets of a service are in memory, with contents of their types. -/
structure InMemory (v : Service Id) : Prop where
  backed : ∀ name s, v.model.set? name = some s → s.backing = .memory
  own : ∀ name s, v.model.set? name = some s → (v.collection s).type = s.type

/-- The entities in memory are of the type of their set. -/
theorem InMemory.typed (inMemory : v.InMemory) {name : String} {s : EntitySet}
    (present : v.model.set? name = some s) {e : Entity} (mem : .ok e ∈ (v.collection s).entities) :
    e.Typed s.type := by
  obtain ⟨stored, -, made⟩ := List.mem_map.mp mem
  rw [inMemory.own name s present] at made
  exact Entity.typed_ofRecord (mapError_ok made)

/-- Related entities are of the type of the set that they are looked up in. -/
theorem InMemory.related_typed (inMemory : v.InMemory) {target : String} {s : EntitySet}
    (present : v.model.set? target = some s) {n : Navigation} {e other : Entity}
    {found : List Entity} (related : v.related target n e = pure found) (mem : other ∈ found) :
    other.Typed s.type := by
  obtain ⟨condition?, -, related⟩ := bind_eq_pure related
  cases condition? with
  | none =>
    cases related
    cases mem
  | some condition =>
    simp only [collect, present] at related
    obtain ⟨stream, streamed, all⟩ := bind_eq_pure related
    have shown := Entities.mem_of_all (settled_eq_pure all) mem
    obtain ⟨_, -, streamed⟩ := bind_eq_pure streamed
    obtain ⟨⟨source, stages⟩, fetched, streamed⟩ := bind_eq_pure streamed
    rw [fetch, inMemory.backed target s present] at fetched
    cases fetched
    -- The condition has some value or fault on every entity, whichever it is.
    have evaluates : ({ Stages.empty with filter := some condition } : Stages).Evaluates
        (noLookup (m := Id)) (fun other => condition.eval (m := Id) noLookup (.ofEntity other))
        (v.collection s).entities := by
      rintro filter ⟨⟩ other -
      rfl
    have ran := Stages.run_unordered .upToFault v.model.config.caseSensitive evaluates rfl
    cases ran.symm.trans streamed
    have sifted := Entities.mem_of_window (Patience.mem_of_cut shown)
    exact inMemory.typed present (Entities.mem_of_sift sifted)

end Service

/-- A token never writes a collection. -/
theorem Token.value_single {t : Token} {m : Model} {input : String} {value : Value}
    (written : t.value m input = .ok value) (items : List (Option Scalar)) :
    value ≠ .collection items := by
  rintro rfl
  have known (what : String) (found : Option Scalar) :
      t.orInvalid input what found ≠ .ok (.collection items) := by
    cases found <;> simp [orInvalid]
  unfold Token.value at written
  split at written
  all_goals first
    | exact known _ _ written
    | cases written
    | skip
  unfold enumValue at written
  repeat' split at written
  all_goals cases written

/-- What a variable is bound to is what its binder says. -/
def Bound.Fits : Bound → Binder → Prop
  | .entity e, .entity _ frame => e.Typed frame.type
  | .value v, .element _ type => (StaticType.primitive type).admits v = true
  | _, _ => False

/-- A standpoint at which what was read among binders, behind the start of a path, can be evaluated. -/
structure Standpoint.Suits (c : FilterContext) (binders : List Binder)
    (start : Option (Scope × Frame)) (s : Standpoint) : Prop where
  root : s.root.Typed c.root.type
  locals : ∀ name binder bound, binders.find? (·.name == name) = some binder →
    s.locals.lookup name = some bound → bound.Fits binder
  start : ∀ scope frame e, start = some (scope, frame) → s.entity scope = .ok e →
    e.Typed frame.type

namespace Standpoint.Suits

variable {c : FilterContext} {binders : List Binder} {start : Option (Scope × Frame)}
  {s : Standpoint}

/-- What stands on its own needs no start of a path. -/
theorem free (suits : s.Suits c binders start) : s.Suits c binders none :=
  ⟨suits.root, suits.locals, nofun⟩

/-- A path may start at the root. -/
theorem rooted (suits : s.Suits c binders start) : s.Suits c binders (some (.root, c.root)) where
  root := suits.root
  locals := suits.locals
  start := by
    rintro _ _ e ⟨⟩ ⟨⟩
    exact suits.root

/-- A path may start at a variable for an entity. -/
theorem through (suits : s.Suits c binders start) {name : String} {target : Frame}
    (found : binders.find? (·.name == name) = some (.entity name target)) :
    s.Suits c binders (some (.bound name, target)) where
  root := suits.root
  locals := suits.locals
  start := by
    rintro _ _ e ⟨⟩ stands
    simp only [Standpoint.entity] at stands
    split at stands
    · rename_i bound
      cases stands
      exact suits.locals _ _ _ found bound
    · cases stands

/-- A path may go on at an entity of the type of its frame. -/
theorem moved (suits : s.Suits c binders start) {frame : Frame} {e : Entity}
    (typed : e.Typed frame.type) : { s with current := e }.Suits c binders (some (.current, frame)) where
  root := suits.root
  locals := suits.locals
  start := by
    rintro _ _ _ ⟨⟩ ⟨⟩
    exact typed

/-- A predicate may use its variable when that is bound to what the binder says. -/
theorem bound (suits : s.Suits c binders start) {binder : Binder} {local_ : String} {b : Bound}
    (named : binder.name = local_) (fits : b.Fits binder) :
    (s.bind local_ b).Suits c (binder :: binders) none where
  root := suits.root
  locals := by
    subst named
    intro name other bound found present
    rw [List.find?_cons] at found
    simp only [Standpoint.bind, List.lookup_cons] at present
    by_cases own : binder.name = name
    · subst own
      simp only [beq_self_eq_true] at found present
      cases found
      cases present
      exact fits
    · -- Another variable keeps what it was bound to.
      simp only [beq_eq_false_iff_ne.mpr own, beq_eq_false_iff_ne.mpr (Ne.symm own)] at found present
      exact suits.locals name other bound found present
  start := nofun

end Standpoint.Suits

namespace Expression

/-- What evaluating an expression at a standpoint may need: a part of it, at its own standpoint. -/
inductive Needs (lookup : Lookup Id) : Standpoint × Expression → Standpoint × Expression → Prop where
  | not {s : Standpoint} {x : Expression} : Needs lookup (s, .not x) (s, x)
  | negate {s : Standpoint} {x : Expression} : Needs lookup (s, .negate x) (s, x)
  | left {s : Standpoint} {op : BinaryOp} {l r : Expression} : Needs lookup (s, .binary op l r) (s, l)
  | right {s : Standpoint} {op : BinaryOp} {l r : Expression} :
      Needs lookup (s, .binary op l r) (s, r)
  | operand {s : Standpoint} {x : Expression} {items : List Expression} :
      Needs lookup (s, .oneOf x items) (s, x)
  | alternative {s : Standpoint} {x y : Expression} {items : List Expression} (mem : y ∈ items) :
      Needs lookup (s, .oneOf x items) (s, y)
  | argument {s : Standpoint} {f : BuiltIn} {x : Expression} {arguments : List Expression}
      {type : PrimitiveType} (mem : x ∈ arguments) : Needs lookup (s, .call f arguments type) (s, x)
  | hop {s : Standpoint} {scope : Scope} {n : Navigation} {target : String} {inner : Expression}
      {e first : Entity} {rest : List Entity} (stands : s.entity scope = .ok e)
      (found : lookup target n e = pure (first :: rest)) :
      Needs lookup (s, .hop scope n target inner) ({ s with current := first }, inner)
  | predicate {s : Standpoint} {scope : Scope} {source : Source} {quantifier : Quantifier}
      {name : String} {predicate : Expression} {e : Entity} {found : List Bound} {b : Bound}
      (stands : s.entity scope = .ok e) (ranges : members lookup e source = pure found)
      (mem : b ∈ found) :
      Needs lookup (s, .quantified scope source quantifier name predicate) (s.bind name b, predicate)

/-- Parts of an expression, at the standpoints that evaluating it leads to. -/
abbrev Reaches (lookup : Lookup Id) : Standpoint × Expression → Standpoint × Expression → Prop :=
  Relation.ReflTransGen (Needs lookup)

section

variable {v : Service Id} {c : FilterContext} {tokens : List Token} {binders : List Binder}
  {start : Option (Scope × Frame)} {s s' : Standpoint} {x y : Expression}

/-- A quantifier binds the variable that it names. -/
theorem Ranges.binder_name {frame : Frame} {source : Source} {binder : String → Binder}
    (ranges : Ranges c frame source binder) (name : String) : (binder name).name = name := by
  cases ranges <;> rfl

/-- What a quantifier ranges over fits the variable that it binds. -/
theorem fits_of_members (inMemory : v.InMemory) (same : c.model = v.model) {frame : Frame}
    {source : Source} {binder : String → Binder} (ranges : Ranges c frame source binder)
    {e : Entity} (typed : e.Typed frame.type) {found : List Bound}
    (ranged : members v.related e source = pure found) {b : Bound} (mem : b ∈ found)
    (name : String) : b.Fits (binder name) := by
  cases ranges with
  | items declared several =>
    rename_i p
    cases ranged
    obtain ⟨value, listed, rfl⟩ := List.mem_map.mp mem
    have admitted := typed _ p declared
    rw [← EntityType.property?_name declared, Entity.get] at admitted
    rw [itemsOf] at listed
    split at listed
    · rename_i items present
      obtain ⟨item, memItem, rfl⟩ := List.mem_map.mp listed
      rw [present, Option.getD_some] at admitted
      -- Every item of a collection that is there belongs to the type of its elements.
      cases type : p.type with
      | primitive type => simp [type, PropertyType.isCollection] at several
      | collection element =>
        rw [type] at admitted
        have own := List.all_eq_true.mp admitted item memItem
        cases item with
        | none => exact StaticType.admits_null _
        | some scalar => exact own
    · cases listed
  | related unshadowed declared several target present =>
    obtain ⟨others, looked, made⟩ := bind_eq_pure ranged
    cases made
    obtain ⟨other, listed, rfl⟩ := List.mem_map.mp mem
    exact inMemory.related_typed (same ▸ present) looked listed

/-- What evaluating a part needs was read as well, and its standpoint suits it. -/
theorem ReadFrom.needs (inMemory : v.InMemory) (same : c.model = v.model)
    (read : x.ReadFrom c tokens binders start) (suits : s.Suits c binders start)
    (needs : Needs v.related (s, x) (s', y)) :
    ∃ binders' start', y.ReadFrom c tokens binders' start' ∧ s'.Suits c binders' start' := by
  induction read with
  | literal => cases needs
  | rooted _ ih => exact ih suits.rooted needs
  | through found _ ih => exact ih (suits.through found) needs
  | item => cases needs
  | not read =>
    cases needs
    exact ⟨_, _, read, suits⟩
  | negate read =>
    cases needs
    exact ⟨_, _, read, suits⟩
  | binary readLeft readRight =>
    cases needs with
    | left => exact ⟨_, _, readLeft, suits⟩
    | right => exact ⟨_, _, readRight, suits⟩
  | oneOf read readItems =>
    cases needs with
    | operand => exact ⟨_, _, read, suits⟩
    | alternative mem => exact ⟨_, _, readItems _ mem, suits⟩
  | call readItems =>
    cases needs with
    | argument mem => exact ⟨_, _, readItems _ mem, suits⟩
  | property => cases needs
  | hop _ _ _ _ _ _ present read =>
    cases needs with
    | hop stands found =>
      have typed := inMemory.related_typed (same ▸ present) found List.mem_cons_self
      exact ⟨_, _, read, suits.moved typed⟩
  | nonEmpty => cases needs
  | quantified _ _ _ ranges _ _ _ _ read =>
    cases needs with
    | predicate stands ranged mem =>
      have typed := suits.start _ _ _ rfl stands
      exact ⟨_, _, read, suits.bound (ranges.binder_name _)
        (fits_of_members inMemory same ranges typed ranged mem _)⟩

/-- Arithmetic computes single values. -/
theorem arithmeticType_single (op : BinaryOp) (left right : StaticType) (element : PrimitiveType) :
    arithmeticType op left right ≠ .collection element := by
  unfold arithmeticType
  split
  · nofun
  split
  · nofun
  · nofun
  · nofun
  · split
    · nofun
    · split <;> nofun

/-- A single value has a type of single values. -/
theorem typeOfValue_single {value : Value} (single : ∀ items, value ≠ .collection items)
    (element : PrimitiveType) : typeOfValue value ≠ .collection element := by
  cases value with
  | null => nofun
  | scalar s => nofun
  | collection items => exact absurd rfl (single items)

/-- A single value belongs to its own type. -/
theorem admits_typeOfValue {value : Value} (single : ∀ items, value ≠ .collection items) :
    (typeOfValue value).admits value = true := by
  cases value with
  | null => rfl
  | scalar s => exact StaticType.admits_ofScalar s
  | collection items => exact absurd rfl (single items)

/-- A property of single values has a type of single values. -/
theorem ofProperty_single {type : PropertyType} (single : type.isCollection = false)
    (element : PrimitiveType) : StaticType.ofProperty type ≠ .collection element := by
  cases type with
  | primitive type => nofun
  | collection element => cases single

/-- What was read has a type of single values. -/
theorem ReadFrom.type_single (read : x.ReadFrom c tokens binders start) (element : PrimitiveType) :
    x.type ≠ .collection element := by
  induction read with
  | literal _ spelled => exact typeOfValue_single (Token.value_single spelled.2) element
  | rooted _ ih => exact ih
  | through _ _ ih => exact ih
  | negate _ _ ih => exact ih
  | binary =>
    rw [type]
    split
    · exact arithmeticType_single _ _ _ element
    · intro same
      cases same
  | property _ _ _ single =>
    rw [type]
    exact ofProperty_single single element
  | hop _ _ _ _ _ _ _ _ ih => exact ih
  | _ =>
    intro same
    cases same

/-- A property of single values has values of its static type. -/
theorem admits_ofProperty {type : PropertyType} (single : type.isCollection = false)
    {value : Value} (admitted : type.admits value = true) :
    (StaticType.ofProperty type).admits value = true := by
  cases type with
  | collection element => cases single
  | primitive type =>
    cases value with
    | null => rfl
    | scalar scalar => exact admitted
    | collection items => cases admitted

/-- An operation on two operands has values of its type when both of them do. -/
theorem binary_admits {lookup : Lookup Id} {op : BinaryOp} {left right : Expression} {value : Value}
    (fit : fits op left.type right.type = true)
    (ownLeft : ∀ {a}, left.eval lookup s = pure a → left.type.admits a = true)
    (ownRight : ∀ {b}, right.eval lookup s = pure b → right.type.admits b = true)
    (evaluated : (Expression.binary op left right).eval lookup s = pure value) :
    (Expression.binary op left right).type.admits value = true := by
  rw [type]
  have plain (truth : Option Bool) (logical : op.isArithmetic = false) :
      (if op.isArithmetic then arithmeticType op left.type right.type else .boolean).admits
        (.ofTruth truth) = true := by
    rw [logical]
    exact StaticType.admits_ofTruth truth
  unfold eval at evaluated
  split at evaluated
  · obtain ⟨a, -, evaluated⟩ := bind_eq_pure evaluated
    dsimp only at evaluated
    split at evaluated
    · cases evaluated
      exact plain (some false) rfl
    · obtain ⟨b, -, evaluated⟩ := bind_eq_pure evaluated
      cases evaluated
      exact plain _ rfl
  · obtain ⟨a, -, evaluated⟩ := bind_eq_pure evaluated
    dsimp only at evaluated
    split at evaluated
    · cases evaluated
      exact plain (some true) rfl
    · obtain ⟨b, -, evaluated⟩ := bind_eq_pure evaluated
      cases evaluated
      exact plain _ rfl
  · rename_i notAnd notOr
    have joins : op.isLogical = false := by cases op <;> simp_all [BinaryOp.isLogical]
    have tests (equality : op.isEquality = true) : op.isArithmetic = false := by
      cases op <;> simp_all [BinaryOp.isEquality, BinaryOp.isArithmetic]
    split at evaluated
    · rename_i null
      obtain ⟨b, -, evaluated⟩ := bind_eq_pure evaluated
      cases evaluated
      exact plain (some _) (tests (Bool.and_eq_true_iff.mp null).1)
    split at evaluated
    · rename_i null
      obtain ⟨a, -, evaluated⟩ := bind_eq_pure evaluated
      cases evaluated
      exact plain (some _) (tests (Bool.and_eq_true_iff.mp null).1)
    · obtain ⟨a, left, evaluated⟩ := bind_eq_pure evaluated
      obtain ⟨b, right, evaluated⟩ := bind_eq_pure evaluated
      cases evaluated
      exact BinaryOp.apply_admits fit joins (ownLeft left) (ownRight right)

/-- Alternatives have a truth value or null. -/
theorem evalAmong_admits {lookup : Lookup Id} {wanted : Value} {sawNull : Bool}
    {items : List Expression} {value : Value}
    (evaluated : evalAmong lookup s wanted sawNull items = pure value) :
    StaticType.boolean.admits value = true := by
  induction items generalizing sawNull with
  | nil =>
    rw [evalAmong] at evaluated
    cases sawNull <;> cases evaluated <;> rfl
  | cons first rest ih =>
    rw [evalAmong] at evaluated
    obtain ⟨candidate, -, evaluated⟩ := bind_eq_pure evaluated
    split at evaluated
    · exact ih evaluated
    · split at evaluated
      · cases evaluated
        rfl
      · exact ih evaluated

/-- Arguments have values of their types when each of them does. -/
theorem evalList_admits {lookup : Lookup Id} {arguments : List Expression} {values : List Value}
    (each : ∀ x ∈ arguments, ∀ value, x.eval lookup s = pure value → x.type.admits value = true)
    (evaluated : evalList lookup s arguments = pure values) :
    List.Forall₂ (fun type value => type.admits value = true) (arguments.map (·.type)) values := by
  induction arguments generalizing values with
  | nil =>
    cases evaluated
    exact .nil
  | cons first rest ih =>
    rw [evalList] at evaluated
    obtain ⟨value, own, evaluated⟩ := bind_eq_pure evaluated
    obtain ⟨others, more, made⟩ := bind_eq_pure evaluated
    cases made
    rw [List.forall_mem_cons] at each
    exact .cons (each.1 value own) (ih each.2 more)

/-- The type of a call is the result type of its function. -/
theorem resultType?_of_mkCall {position : Nat} {f : BuiltIn} {arguments : List Expression}
    {type : PrimitiveType} (made : mkCall c position f arguments = .ok (.call f arguments type)) :
    f.resultType? (arguments.map (·.type)) = some type := by
  rw [mkCall] at made
  split at made
  · cases made
  rename_i found checked
  have same : found = type := by
    split at made
    · split at made
      · cases made
        rfl
      · cases made
    · cases made
      rfl
  rw [BuiltIn.check] at checked
  split at checked
  · rename_i taken
    cases checked
    rw [taken, same]
  · cases checked

/-- What was read evaluates to values of its type. -/
theorem ReadFrom.eval_admits (inMemory : v.InMemory) (same : c.model = v.model)
    (read : x.ReadFrom c tokens binders start) (suits : s.Suits c binders start) {value : Value}
    (evaluated : x.eval v.related s = pure value) : x.type.admits value = true := by
  induction read generalizing s value with
  | literal mem spelled =>
    cases evaluated
    exact admits_typeOfValue (Token.value_single spelled.2)
  | rooted _ ih => exact ih suits.rooted evaluated
  | through found _ ih => exact ih (suits.through found) evaluated
  | item found =>
    have stands := settled_eq_pure evaluated
    simp only [Standpoint.value] at stands
    split at stands
    · rename_i bound
      cases stands
      exact suits.locals _ _ _ found bound
    · cases stands
  | not _ _ ih =>
    rw [eval] at evaluated
    obtain ⟨operand, -, evaluated⟩ := bind_eq_pure evaluated
    cases evaluated
    exact operand.denied_admits
  | negate _ _ ih =>
    rw [eval] at evaluated
    obtain ⟨operand, inner, evaluated⟩ := bind_eq_pure evaluated
    cases evaluated
    exact Value.negated_admits (ih suits inner)
  | binary _ _ fit ihLeft ihRight => exact binary_admits fit (ihLeft suits) (ihRight suits) evaluated
  | oneOf _ _ _ _ ih ihItems =>
    rw [eval] at evaluated
    obtain ⟨wanted, -, evaluated⟩ := bind_eq_pure evaluated
    split at evaluated
    · cases evaluated
      rfl
    · exact evalAmong_admits evaluated
  | call _ made ihItems =>
    rw [eval] at evaluated
    obtain ⟨values, each, evaluated⟩ := bind_eq_pure evaluated
    cases evaluated
    exact BuiltIn.evaluate_admits (resultType?_of_mkCall made)
      (evalList_admits (fun x mem value own => ihItems x mem suits own) each)
  | property _ _ found single =>
    rw [eval] at evaluated
    obtain ⟨e, stands, evaluated⟩ := bind_eq_pure evaluated
    cases evaluated
    have typed := suits.start _ _ _ rfl (settled_eq_pure stands)
    have admitted := typed _ _ found
    rw [← EntityType.property?_name found] at admitted
    exact admits_ofProperty single admitted
  | hop _ _ _ _ _ _ present _ ih =>
    rw [eval] at evaluated
    obtain ⟨e, stands, evaluated⟩ := bind_eq_pure evaluated
    obtain ⟨found, related, evaluated⟩ := bind_eq_pure evaluated
    cases found with
    | nil =>
      cases evaluated
      exact StaticType.admits_null _
    | cons first rest =>
      have typed := inMemory.related_typed (same ▸ present) related List.mem_cons_self
      exact ih (suits.moved typed) evaluated
  | nonEmpty =>
    rw [eval] at evaluated
    obtain ⟨e, -, evaluated⟩ := bind_eq_pure evaluated
    obtain ⟨found, -, evaluated⟩ := bind_eq_pure evaluated
    cases evaluated
    rfl
  | quantified =>
    rw [eval] at evaluated
    obtain ⟨e, -, evaluated⟩ := bind_eq_pure evaluated
    obtain ⟨found, -, evaluated⟩ := bind_eq_pure evaluated
    obtain ⟨outcomes, -, evaluated⟩ := bind_eq_pure evaluated
    cases evaluated
    rfl

/-- Every part that is reached was read, and its standpoint suits it. -/
theorem ReadFrom.reaches (inMemory : v.InMemory) (same : c.model = v.model)
    (read : x.ReadFrom c tokens binders start) (suits : s.Suits c binders start)
    (reached : Reaches v.related (s, x) (s', y)) :
    ∃ binders' start', y.ReadFrom c tokens binders' start' ∧ s'.Suits c binders' start' := by
  generalize same_ : (s', y) = part at reached
  induction reached generalizing s' y with
  | refl =>
    cases same_
    exact ⟨_, _, read, suits⟩
  | tail _ step ih =>
    subst same_
    obtain ⟨_, _, read, suits⟩ := ih rfl
    exact read.needs inMemory same suits step

end

end Expression

/-- Whether a value is null or a single one of the kind that a type names. -/
def Value.HasKind (type : StaticType) (value : Value) : Prop :=
  value = .null ∨ ∃ kind s, type = .primitive kind ∧ value = .scalar s ∧ kind.admits s = true

/-- A value of a type that is not one of collections has the kind that the type names. -/
theorem Value.hasKind_of_admits {type : StaticType} {value : Value}
    (single : ∀ element, type ≠ .collection element) (admitted : type.admits value = true) :
    value.HasKind type := by
  cases value with
  | null => exact .inl rfl
  | scalar s =>
    cases type with
    | null => cases admitted
    | primitive type => exact .inr ⟨type, s, rfl, rfl, admitted⟩
    | collection element => exact absurd rfl (single element)
  | collection items =>
    cases type with
    | null => cases admitted
    | primitive type => cases admitted
    | collection element => exact absurd rfl (single element)

namespace Service

/-- The number after that of the shelf of a book. -/
def nextShelf : Expression :=
  .binary .add (.property (.bound "b") (plainProperty "shelf" (.integer .int32)))
    (.literal (.integer 1))

/-- Whether a shelf has a book for which the next shelf is the second one. -/
def nextShelfFilter : Expression :=
  .quantified .root (.related (booksBy "books" "id") "books") .any "b"
    (.binary .eq nextShelf (.literal (.integer 2)))

end Service

end EdmQuery
