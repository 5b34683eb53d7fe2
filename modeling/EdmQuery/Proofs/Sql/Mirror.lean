import Mathlib
import EdmQuery.Proofs.Query.Pipeline
import EdmQuery.Proofs.Sql.Condition
import EdmQuery.Proofs.Sql.Semantics
import EdmQuery.Query.Service

/-! Sets in memory and the tables of a database that hold the same entities. -/

namespace EdmQuery

/-- The name of the enumeration that a type is. -/
def PrimitiveType.enumeration? : PrimitiveType → Option String
  | .enum e => some e.name
  | _ => none

/-- The name of the enumeration that the values of a property belong to. -/
def PropertyType.enumeration? : PropertyType → Option String
  | .primitive type => type.enumeration?
  | .collection _ => none

/-- The name of the enumeration that a value belongs to. -/
def Value.enumeration? : Value → Option String
  | .enum e _ => some e.name
  | _ => none

/-- Whether a static type has a value; null belongs to every type. -/
def StaticType.admits : StaticType → Value → Bool
  | _, .null => true
  | .primitive type, .scalar s => type.admits s
  | .collection _, .collection _ => true
  | _, _ => false

/-- A single value belongs to an enumeration when its type is that enumeration. -/
theorem PrimitiveType.enumeration?_of_admits {type : PrimitiveType} {s : Scalar}
    (admitted : type.admits s = true) : (Value.scalar s).enumeration? = type.enumeration? := by
  cases type <;> cases s <;> simp only [PrimitiveType.admits, Bool.false_eq_true] at admitted <;>
    try rfl
  -- The only types left are enumerations, which have values of their own only.
  rw [eq_of_beq admitted]
  rfl

/-- A value that is there belongs to an enumeration when the type of its property does. -/
theorem PropertyType.enumeration?_of_admits {type : PropertyType} {value : Value}
    (admitted : type.admits value = true) (there : value.isNull = false) :
    value.enumeration? = type.enumeration? := by
  rcases value with _ | s | items
  · cases there
  · cases type with
    | primitive type => exact PrimitiveType.enumeration?_of_admits admitted
    | collection element => simp [PropertyType.admits] at admitted
  · cases type with
    | primitive type => simp [PropertyType.admits] at admitted
    | collection element => rfl

/-- Types that compare are the same enumeration or both none. -/
theorem PrimitiveType.enumeration?_of_comparable {a b : PrimitiveType}
    (comparable : a.comparableWith b = true) : a.enumeration? = b.enumeration? := by
  cases a <;> cases b <;> simp_all [comparableWith, enumeration?, family]

/-- Values that are stored compare as they do themselves unless just one is an enumeration's. -/
theorem Value.compare_stored {a b : Value} (alike : a.enumeration? = b.enumeration?) :
    a.stored.compare b.stored = a.compare b := by
  rcases a with _ | a | _ <;> rcases b with _ | b | _ <;> try rfl
  · cases a <;> rfl
  · cases a <;> cases b <;> try rfl
    all_goals simp_all [enumeration?, stored, compare, Scalar.compare]
  · cases a <;> rfl

/-- A value is stored as null only when it is null. -/
@[simp] theorem Value.isNull_stored (value : Value) : value.stored.isNull = value.isNull := by
  rcases value with _ | s | _
  · rfl
  · cases s <;> rfl
  · rfl

/-- Truths are stored as they are. -/
@[simp] theorem Value.stored_ofTruth (truth : Option Bool) :
    (Value.ofTruth truth).stored = .ofTruth truth := by
  cases truth <;> rfl

/-- Truths belong to the type of truth values. -/
@[simp] theorem StaticType.admits_ofTruth (truth : Option Bool) :
    StaticType.boolean.admits (.ofTruth truth) = true := by
  cases truth <;> rfl

namespace SqlTerm

/-- Stored values have the truth of a comparison that the values have themselves. -/
theorem compared_stored {a b : Value}
    (alike : a.isNull = false → b.isNull = false → a.enumeration? = b.enumeration?)
    (op : BinaryOp) : compared op a.stored b.stored = compared op a b := by
  rw [compared, compared, Value.isNull_stored, Value.isNull_stored]
  cases nullA : a.isNull
  · cases nullB : b.isNull
    · rw [Value.compare_stored (alike nullA nullB)]
    · rfl
  · rfl

/-- A comparison of filters has the value that the truth in SQL is. -/
theorem apply_eq_compared {op : BinaryOp} (compares : op.isEquality || op.isRelational)
    (a b : Value) : op.apply a b = .ofTruth (compared op a b) := by
  simp only [BinaryOp.apply, compared, compares, if_true]
  split <;> rfl

/-- Null and truth values stand for a truth. -/
theorem truthOf_of_admits {type : StaticType} (boolean : type.isBoolean = true) {value : Value}
    (admitted : type.admits value = true) :
    truthOf value = some value.truth? ∧ value.stored = value := by
  rcases value with _ | s | _
  · exact ⟨rfl, rfl⟩
  · cases type with
    | null => simp [StaticType.admits] at admitted
    | collection element => simp [StaticType.admits] at admitted
    | primitive type =>
      cases type <;> simp only [StaticType.isBoolean, Bool.false_eq_true] at boolean
      cases s <;> simp only [StaticType.admits, PrimitiveType.admits, Bool.false_eq_true] at admitted
      exact ⟨rfl, rfl⟩
  · cases type with
    | null => simp [StaticType.admits] at admitted
    | collection element => simp [StaticType.isBoolean] at boolean
    | primitive type => simp [StaticType.admits] at admitted

end SqlTerm

/-- Values of types that compare have the truth in SQL of the values in filters. -/
theorem StaticType.compared_stored {left right : StaticType}
    (comparable : left.comparable right = true) {a b : Value} (admitted : left.admits a = true)
    (admitted' : right.admits b = true) (op : BinaryOp) :
    SqlTerm.compared op a.stored b.stored = SqlTerm.compared op a b := by
  refine SqlTerm.compared_stored (fun there there' => ?_) op
  rcases a with _ | a | _ <;> rcases b with _ | b | _ <;>
    simp only [Value.isNull, Bool.true_eq_false] at there there'
  all_goals cases left <;> cases right <;>
    simp only [admits, StaticType.comparable, Bool.false_eq_true] at admitted admitted' comparable
  rw [PrimitiveType.enumeration?_of_admits admitted, PrimitiveType.enumeration?_of_admits admitted',
    PrimitiveType.enumeration?_of_comparable comparable]

namespace Expression

mutual

/--
Whether a filter consists of comparisons, null tests, alternatives, connectives and quantifiers.

No variable of a quantifier has a name that starts with a dollar sign.
-/
def isRelational : Expression → Bool
  | literal _ => true
  | property _ _ => true
  | not operand => operand.isRelational
  | binary op left right =>
    (op.isLogical || op.isEquality || op.isRelational) && left.isRelational && right.isRelational
  | oneOf operand items => operand.isRelational && areRelational items
  | nonEmpty _ _ => true
  | quantified _ _ _ name predicate => name.toList.head? != some '$' && predicate.isRelational
  | _ => false

/-- Whether several expressions are such filters. -/
def areRelational : List Expression → Bool
  | [] => true
  | x :: rest => x.isRelational && areRelational rest

end

/-- The frame of a scope among those of variables. -/
def frameOf (root : Frame) (locals : List (String × Frame)) : Scope → Option Frame
  | .root => some root
  | .current => none
  | .bound name => locals.lookup name

/--
Whether what a quantifier ranges over can be queried and is tied to the entity by alike values.

Two properties are alike when they have the same enumeration or both have none.
-/
def sourceFits (m : Model) (frame : Option Frame) : Source → Bool
  | .items _ => true
  | .related n target =>
    match frame, m.set? target, n.constraint? with
    | some frame, some set, some c =>
      set.capabilities.contains .query &&
        match frame.type.property? c.property, set.type.property? c.referenced with
        | some p, some q => q.type.enumeration? == p.type.enumeration?
        | _, _ => false
    | _, _, _ => false

/-- The frame of the entities that a quantifier ranges over. -/
def framesIn (m : Model) (name : String) : Source → List (String × Frame)
  | .items _ => []
  | .related _ target => ((m.set? target).map fun set => (name, ⟨target, set.type⟩)).toList

mutual

/-- Whether all that the quantifiers of a filter range over can be queried and has alike ties. -/
def sourcesFit (m : Model) (root : Frame) (locals : List (String × Frame)) : Expression → Bool
  | not operand => operand.sourcesFit m root locals
  | binary _ left right => left.sourcesFit m root locals && right.sourcesFit m root locals
  | oneOf operand items => operand.sourcesFit m root locals && allSourcesFit m root locals items
  | nonEmpty scope source => sourceFits m (frameOf root locals scope) source
  | quantified scope source _ name predicate =>
    sourceFits m (frameOf root locals scope) source &&
      predicate.sourcesFit m root (framesIn m name source ++ locals)
  | _ => true

/-- Whether that holds for several expressions. -/
def allSourcesFit (m : Model) (root : Frame) (locals : List (String × Frame)) :
    List Expression → Bool
  | [] => true
  | x :: rest => x.sourcesFit m root locals && allSourcesFit m root locals rest

end

end Expression

namespace Expression

/-- Every one of several comparisons and so on is one. -/
theorem areRelational_mem {items : List Expression} (relational : areRelational items = true)
    {x : Expression} (mem : x ∈ items) : x.isRelational = true := by
  induction items with
  | nil => cases mem
  | cons first rest ih =>
    simp only [areRelational, Bool.and_eq_true] at relational
    rcases List.mem_cons.mp mem with rfl | later
    · exact relational.1
    · exact ih relational.2 later

/-- What every one of several expressions ranges over fits. -/
theorem allSourcesFit_mem {m : Model} {root : Frame} {locals : List (String × Frame)}
    {items : List Expression} (fits : allSourcesFit m root locals items = true) {x : Expression}
    (mem : x ∈ items) : x.sourcesFit m root locals = true := by
  induction items with
  | nil => cases mem
  | cons first rest ih =>
    simp only [allSourcesFit, Bool.and_eq_true] at fits
    rcases List.mem_cons.mp mem with rfl | later
    · exact fits.1
    · exact ih fits.2 later

end Expression

/-- A row holds the property values of an entity of a type in their columns. -/
def Entity.Fills (type : EntityType) (e : Entity) (row : SqlRow) : Prop :=
  ∀ p, type.property? p.name = some p → row p.column = (e.get p.name).stored

/-- An entity of a type and a row that holds its property values. -/
structure Entity.Shown (type : EntityType) (e : Entity) (row : SqlRow) : Prop where
  typed : e.Typed type
  fills : e.Fills type row

/-- Sets in memory that have the same contents as the tables that they resolve to. -/
structure Mirrors {m : Type → Type} (v : Service m) (resolve : Resolver) (tables : Tables)
    (contents : EntitySet → List Entity) : Prop where
  inMemory : ∀ name s, v.model.set? name = some s → s.backing = .memory
  own : ∀ name s, v.model.set? name = some s → (v.collection s).type = s.type
  kept : ∀ name s, v.model.set? name = some s →
    (v.collection s).entities = (contents s).map .ok
  filled : ∀ name s table, v.model.set? name = some s → resolve name = some table →
    List.Forall₂ (Entity.Fills s.type) (contents s) (tables table.name)

namespace Mirrors

variable {m : Type → Type} {v : Service m} {resolve : Resolver} {tables : Tables}
  {contents : EntitySet → List Entity}

/-- Entities in memory are those of their set's type. -/
theorem typed (mirrors : Mirrors v resolve tables contents) {name : String} {s : EntitySet}
    (present : v.model.set? name = some s) {e : Entity} (mem : e ∈ contents s) :
    e.Typed s.type := by
  have kept : .ok e ∈ (v.collection s).entities := by
    rw [mirrors.kept name s present]
    exact List.mem_map_of_mem mem
  obtain ⟨record, -, made⟩ := List.mem_map.mp kept
  rw [mirrors.own name s present] at made
  cases read : Entity.ofRecord s.type record.record with
  | error fault =>
    rw [read] at made
    cases made
  | ok e' =>
    rw [read] at made
    cases made
    exact Entity.typed_ofRecord read

/-- The entities of a set and the rows of its table come in pairs that show the same. -/
theorem pairs (mirrors : Mirrors v resolve tables contents) {name : String} {s : EntitySet}
    {table : Table} (present : v.model.set? name = some s) (resolved : resolve name = some table) :
    ∃ pairs : List (Entity × SqlRow), contents s = pairs.map (·.1) ∧
      tables table.name = pairs.map (·.2) ∧ ∀ p ∈ pairs, p.1.Shown s.type p.2 := by
  obtain ⟨length, fills⟩ := List.forall₂_iff_zip.mp (mirrors.filled name s table present resolved)
  refine ⟨(contents s).zip (tables table.name), ?_, ?_, fun p mem => ⟨?_, fills mem⟩⟩
  · exact (List.map_fst_zip length.le).symm
  · exact (List.map_snd_zip length.ge).symm
  · exact mirrors.typed present (List.of_mem_zip mem).1

end Mirrors

/-- A truth is the value true only when it is true. -/
theorem Value.ofTruth_eq_true (truth : Option Bool) :
    Value.ofTruth truth = .boolean true ↔ truth = some true := by
  rcases truth with _ | _ | _ <;> simp [Value.ofTruth]

section

variable {m : Type → Type} [Monad m] [LawfulMonad m]

/-- The condition of related entities has the truth of a comparison with a value that is there. -/
theorem Expression.eval_tie {lookup : Lookup m} {q : Property} {local_ : Value}
    (there : local_.isNull = false) (other : Entity) :
    (Expression.binary .eq (.property .root q) (.literal local_)).eval lookup (.ofEntity other)
      = pure (.ofTruth (SqlTerm.compared .eq (other.get q.name) local_)) := by
  -- Neither side is the null literal, so this is a comparison and no test for null.
  have left : (Expression.property .root q).isNullLiteral = false := rfl
  have right : (Expression.literal local_).isNullLiteral = false := by
    cases local_ <;> simp [Value.isNull] at there <;> rfl
  simp only [eval, Standpoint.ofEntity, Standpoint.entity, left, right, Bool.and_false,
    Bool.false_eq_true, if_false, settled_ok_bind, pure_bind]
  rw [SqlTerm.apply_eq_compared rfl]

namespace Service

variable {v : Service m} {s : EntitySet} {target : String} {found : List Entity}

/-- A query of a set in memory gathers what comes out of a run over what the set keeps. -/
theorem collect_eq_run {lookup : Lookup m} {stages : Stages}
    (finish : Entity → ExceptT RequestError m Entity)
    (present : v.model.set? target = some s) (inMemory : s.backing = .memory)
    (queries : s.capabilities.contains .query = true) :
    v.collect lookup finish target stages
      = stages.run .upToFault lookup v.model.config.caseSensitive finish
          (v.collection s).entities >>= fun found => settled found.all := by
  have allowed : (ensure s .query : ExceptT RequestError m Unit) = settled (.ok ()) := by
    rw [ensure, if_pos queries]
    rfl
  have streamed : v.stream .upToFault lookup finish s stages
      = stages.run .upToFault lookup v.model.config.caseSensitive finish
          (v.collection s).entities := by
    rw [stream, allowed, settled_ok_bind, fetch, inMemory]
    simp only [pure_bind]
  simp only [collect, present, streamed]

/-- A query that only filters yields the entities on which the filter is true. -/
theorem collect_filtered {lookup : Lookup m} {filter : Expression} {value : Entity → Value}
    (present : v.model.set? target = some s) (inMemory : s.backing = .memory)
    (queries : s.capabilities.contains .query = true)
    (kept : (v.collection s).entities = found.map .ok)
    (each : ∀ e ∈ found, filter.eval lookup (.ofEntity e) = pure (value e)) :
    v.collect lookup pure target { Stages.empty with filter := some filter }
      = pure (found.filter fun e => value e = .boolean true) := by
  have evaluates : ({ Stages.empty with filter := some filter } : Stages).Evaluates lookup
      (fun e => .ok (value e)) (found.map .ok) := by
    rintro _ ⟨⟩ e mem
    obtain ⟨_, among, same⟩ := List.mem_map.mp mem
    cases same
    exact each e among
  have passes : ({ Stages.empty with filter := some filter } : Stages).passes
      v.model.config.caseSensitive (fun e => .ok (value e))
      = fun e => decide (value e = .boolean true) := by
    funext e
    simp [Stages.passes, Stages.empty, Except.toOption]
  have ran : ({ Stages.empty with filter := some filter } : Stages).run .upToFault lookup
      v.model.config.caseSensitive pure (found.map .ok) = _ :=
    Stages.run_eq_page .upToFault evaluates fun e _ _ => ⟨_, rfl⟩
  rw [collect_eq_run pure present inMemory queries, kept, ran, pure_bind, Entities.all_map_ok,
    passes]
  simp only [Stages.empty, Option.getD_none, page, List.drop_zero, sortEntities_nil]
  rfl

/-- The entities that are related to one are those whose referenced values are equal to its own. -/
theorem related_eq {n : Navigation} {c : Constraint} {q : Property}
    (present : v.model.set? target = some s) (inMemory : s.backing = .memory)
    (queries : s.capabilities.contains .query = true) (only : n.constraint? = some c)
    (remote : s.type.property? c.referenced = some q)
    (kept : (v.collection s).entities = found.map .ok) (e : Entity) :
    v.related target n e = pure (found.filter fun other =>
      SqlTerm.compared .eq (other.get q.name) (e.get c.property) = some true) := by
  cases missing : (e.get c.property).isNull with
  | true =>
    -- A null is equal to nothing, so nothing is looked up for it.
    have none : found.filter (fun other =>
        SqlTerm.compared .eq (other.get q.name) (e.get c.property) = some true) = [] := by
      refine List.filter_eq_nil_iff.mpr fun other _ => ?_
      simp [SqlTerm.compared, missing]
    simp only [related, relation, only, missing, if_true, settled_ok_bind, none]
  | false =>
    have tied (other : Entity) (_ : other ∈ found) :
        (Expression.binary .eq (.property .root q) (.literal (e.get c.property))).eval
          (noLookup (m := m)) (.ofEntity other)
          = pure (.ofTruth (SqlTerm.compared .eq (other.get q.name) (e.get c.property))) :=
      Expression.eval_tie missing other
    simp only [related, relation, only, missing, Bool.false_eq_true, if_false, present, remote,
      settled_ok_bind]
    rw [collect_filtered present inMemory queries kept tied]
    simp only [Value.ofTruth_eq_true]

end Service

end

end EdmQuery
