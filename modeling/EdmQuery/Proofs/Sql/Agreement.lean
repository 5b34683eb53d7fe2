import Mathlib
import EdmQuery.Proofs.Sql.Mirror

/-! Terms of conditions that have the values of expressions, each kind of term on its own. -/

namespace EdmQuery

/-- The alias of the table that a scope starts from. -/
inductive Place (c : FilterContext) (binders : List Binder) : Scope → Frame → String → Prop where
  | root : Place c binders .root c.root rootAlias
  | bound {name : String} {target : Frame}
      (found : binders.find? (·.name == name) = some (.entity name target)) :
      Place c binders (.bound name) target name

/-- Entities and rows that scopes name and that show the same. -/
structure Consistent (c : FilterContext) (binders : List Binder) (s : Standpoint)
    (env : List (String × SqlRow)) : Prop where
  at_ : ∀ scope frame name, Place c binders scope frame name →
    ∃ e row, s.entity scope = .ok e ∧ env.lookup name = some row ∧ e.Shown frame.type row

section

variable {c : FilterContext} {binders : List Binder} {ctx : SqlContext} {scope : Scope}
  {frame : Frame} {name : String}

/-- The table of a scope has the type of its frame. -/
theorem Place.frame_eq (place : Place c binders scope frame name)
    (rootTyped : ctx.table.type = c.root.type) :
    ctx.frame (localsOf binders) scope = .ok ⟨name, frame.type⟩ := by
  cases place with
  | root => rw [SqlContext.frame, SqlContext.rootFrame, rootTyped]
  | bound found => rw [SqlContext.frame, lookup_localsOf found]

/-- The frame of a scope is the one that it is read behind. -/
theorem Place.frameOf_eq (place : Place c binders scope frame name) :
    Expression.frameOf c.root (framesOf binders) scope = some frame := by
  cases place with
  | root => rfl
  | bound found => exact lookup_framesOf found

/-- The alias of a scope is that of the queried table or a variable. -/
theorem Place.named (place : Place c binders scope frame name) :
    name = rootAlias ∨ ∃ b ∈ binders, b.name = name := by
  cases place with
  | root => exact .inl rfl
  | bound found => exact .inr ⟨_, List.mem_of_find?_eq_some found, rfl⟩

/-- Among further rows under names of their own, scopes still name the same. -/
theorem Consistent.extend {s : Standpoint} {env : List (String × SqlRow)}
    (consistent : Consistent c binders s env) {variable_ : String} {target : Frame} {e : Entity}
    {row : SqlRow} (notRoot : variable_ ≠ rootAlias) (shown : e.Shown target.type row) :
    Consistent c (.entity variable_ target :: binders) (s.bind variable_ (.entity e))
      ((variable_, row) :: env) := by
  constructor
  intro scope frame name place
  cases place with
  | root =>
    obtain ⟨e, row, isRoot, found, shown⟩ := consistent.at_ _ _ _ .root
    refine ⟨e, row, isRoot, ?_, shown⟩
    rw [List.lookup_cons, beq_eq_false_iff_ne.mpr (Ne.symm notRoot)]
    exact found
  | @bound name _ found =>
    rw [List.find?_cons] at found
    by_cases same : variable_ = name
    · simp only [Binder.name, same, beq_self_eq_true, Option.some.injEq, Binder.entity.injEq,
        true_and] at found
      subst same found
      exact ⟨e, row, by simp [Standpoint.bind, Standpoint.entity], by simp, shown⟩
    · simp only [Binder.name, beq_eq_false_iff_ne.mpr same] at found
      obtain ⟨e', row', bound, found', shown'⟩ := consistent.at_ _ _ _ (.bound found)
      have other : (name == variable_) = false := beq_eq_false_iff_ne.mpr (Ne.symm same)
      refine ⟨e', row', ?_, ?_, shown'⟩
      · simpa only [Standpoint.bind, Standpoint.entity, List.lookup_cons, other] using bound
      · simpa only [List.lookup_cons, other] using found'

end

/-- A term that has the value of an expression in rows in step with entities, under parameters. -/
def Agrees {m : Type → Type} [Monad m] (v : Service m) (tables : Tables)
    (inStep : Standpoint → List (String × SqlRow) → Prop) (x : Expression) (t : SqlTerm)
    (known : List Value) : Prop :=
  ∀ parameters, known <+: parameters → ∀ s env, inStep s env →
    ∃ value, x.eval v.related s = pure value ∧ x.type.admits value = true ∧
      t.value tables parameters env = some value.stored

/-- Terms that have the values of several expressions in all such rows. -/
def AgreeAll {m : Type → Type} [Monad m] (v : Service m) (tables : Tables)
    (inStep : Standpoint → List (String × SqlRow) → Prop) (items : List Expression)
    (ts : List SqlTerm) (known : List Value) : Prop :=
  ∀ parameters, known <+: parameters → ∀ s env, inStep s env →
    ∃ values, List.Forall₂ (fun x value => x.eval v.related s = pure value ∧
        x.type.admits value = true) items values ∧
      SqlTerm.values tables parameters env ts = some (values.map Value.stored)

section

variable {m : Type → Type} [Monad m] {v : Service m} {tables : Tables} {c : FilterContext}
  {binders : List Binder} {inStep : Standpoint → List (String × SqlRow) → Prop} {b after : Builder}
  {t : SqlTerm}

/-- A term keeps its value among further parameters. -/
theorem Agrees.mono {x : Expression} {known known' : List Value}
    (agrees : Agrees v tables inStep x t known) (more : known <+: known') :
    Agrees v tables inStep x t known' :=
  fun parameters prefix' => agrees parameters (more.trans prefix')

/-- A value that becomes a parameter is found among the parameters. -/
theorem bindValue_agrees {s : Scalar} (plain : (Value.scalar s).stored = .scalar s)
    (compiled : (bindValue (.scalar s)).run b = (.ok t, after)) :
    b.parameters <+: after.parameters ∧
      Agrees v tables inStep (.literal (.scalar s)) t after.parameters := by
  cases compiled
  refine ⟨List.prefix_append _ _, ?_⟩
  rintro parameters ⟨more, rfl⟩ standpoint env -
  refine ⟨.scalar s, rfl, ?_, ?_⟩
  · cases s <;> simp [Expression.type, Expression.typeOfValue, StaticType.admits,
      PrimitiveType.ofScalar, PrimitiveType.admits]
  · simp [SqlTerm.value, plain]

/-- A literal is its own value, as a parameter or a constant. -/
theorem literal_agrees {value : Value} (compiled : (literalTerm value).run b = (.ok t, after)) :
    b.parameters <+: after.parameters ∧
      Agrees v tables inStep (.literal value) t after.parameters := by
  rcases value with _ | s | items
  · cases compiled
    exact ⟨List.prefix_refl _, fun _ _ _ _ _ => ⟨.null, rfl, rfl, rfl⟩⟩
  · cases s with
    | enum type n =>
      cases compiled
      refine ⟨List.prefix_refl _, fun _ _ _ _ _ => ⟨.enum type n, rfl, ?_, ?_⟩⟩
      · simp [Expression.type, Expression.typeOfValue, StaticType.admits, PrimitiveType.ofScalar,
          PrimitiveType.admits]
      · simp [SqlTerm.value, Value.stored]
    | _ => exact bindValue_agrees rfl compiled
  · cases compiled

/-- The row of an entity holds a value of the property's type in the column of a property. -/
theorem Entity.Shown.property {type : EntityType} {e : Entity} {row : SqlRow}
    (shown : e.Shown type row) {p : Property} (single : p.type.isCollection = false)
    (declared : type.property? p.name = some p) :
    (StaticType.ofProperty p.type).admits (e.get p.name) = true ∧
      row p.column = (e.get p.name).stored := by
  refine ⟨?_, shown.fills p declared⟩
  have admitted := shown.typed p.name p declared
  rcases p with ⟨_, type | _, _⟩
  · cases same : e.get _ with
    | null => rfl
    | scalar _ => rwa [same] at admitted
    | collection _ =>
      rw [same] at admitted
      cases admitted
  · cases single

variable [LawfulMonad m]

/-- A property has the value of its column. -/
theorem property_agrees {scope : Scope} {frame : Frame} {name : String} {p : Property}
    (place : Place c binders scope frame name) (single : p.type.isCollection = false)
    (declared : frame.type.property? p.name = some p) (known : List Value) :
    Agrees v tables (Consistent c binders) (.property scope p) (.column ⟨name, p.column⟩)
      known := by
  intro parameters _ s env consistent
  obtain ⟨e, row, bound, found, shown⟩ := consistent.at_ scope frame name place
  obtain ⟨admitted, filled⟩ := shown.property single declared
  refine ⟨e.get p.name, ?_, admitted, ?_⟩
  · rw [Expression.eval, bound, settled_ok_bind]
  · rw [SqlTerm.value, SqlTerm.columnIn, found, Option.map_some, filled]

/-- The opposite of a truth is its opposite in SQL. -/
theorem not_agrees {x : Expression} {known : List Value} (fit : x.type.isBoolean = true)
    (agrees : Agrees v tables inStep x t known) :
    Agrees v tables inStep (.not x) (.not t) known := by
  intro parameters more s env consistent
  obtain ⟨value, evaluated, admitted, found⟩ := agrees parameters more s env consistent
  obtain ⟨truth, plain⟩ := SqlTerm.truthOf_of_admits fit admitted
  have denied : value.denied = .ofTruth (value.truth?.map (!·)) := by
    rcases value with _ | (_ | _) | _ <;> rfl
  refine ⟨.ofTruth (value.truth?.map (!·)), ?_, StaticType.admits_ofTruth _, ?_⟩
  · simp [Expression.eval, evaluated, denied]
  · simp [SqlTerm.value, found, plain, truth]

/-- A test for the null literal is one of the other operand, on whichever side the literal is. -/
theorem nullTest_agrees {op : BinaryOp} {x y z : Expression} {known : List Value}
    (equality : op.isEquality = true)
    (side : y.isNullLiteral = true ∧ x = z ∨
      y.isNullLiteral = false ∧ z.isNullLiteral = true ∧ x = y)
    (agrees : Agrees v tables inStep x t known) :
    Agrees v tables inStep (.binary op y z) (.nullTest t (op == .eq)) known := by
  intro parameters more s env consistent
  obtain ⟨value, evaluated, -, found⟩ := agrees parameters more s env consistent
  refine ⟨.boolean (value.isNull == (op == .eq)), ?_, ?_, ?_⟩
  · cases op <;> simp only [BinaryOp.isEquality, Bool.false_eq_true] at equality <;>
      rcases side with ⟨null, rfl⟩ | ⟨other, null, rfl⟩ <;>
      simp_all [Expression.eval, BinaryOp.isEquality]
  · cases op <;> simp only [BinaryOp.isEquality, Bool.false_eq_true] at equality <;> rfl
  · simp only [SqlTerm.value, found, Option.bind_eq_bind, Option.bind_some, Value.isNull_stored]
    rfl

/-- Conjunctions and disjunctions of truths are those of SQL. -/
theorem logical_agrees {op : BinaryOp} {x y : Expression} {u : SqlTerm} {known : List Value}
    (logical : op.isLogical = true) (fit : Expression.fits op x.type y.type = true)
    (agrees : Agrees v tables inStep x t known) (agrees' : Agrees v tables inStep y u known) :
    Agrees v tables inStep (.binary op x y) (.binary op t u) known := by
  intro parameters more s env consistent
  obtain ⟨a, evaluated, admitted, found⟩ := agrees parameters more s env consistent
  obtain ⟨a', evaluated', admitted', found'⟩ := agrees' parameters more s env consistent
  have fit : x.type.isBoolean = true ∧ y.type.isBoolean = true := by
    simpa [Expression.fits, logical] using fit
  obtain ⟨truth, plain⟩ := SqlTerm.truthOf_of_admits fit.1 admitted
  obtain ⟨truth', plain'⟩ := SqlTerm.truthOf_of_admits fit.2 admitted'
  cases op <;> simp only [BinaryOp.isLogical, Bool.false_eq_true] at logical
  · refine ⟨.ofTruth (both a.truth? a'.truth?), ?_, StaticType.admits_ofTruth _, ?_⟩
    · -- A left side that is false decides, and it does so whatever the right side is.
      simp only [Expression.eval, evaluated, evaluated', pure_bind]
      rcases a.truth? with _ | _ | _ <;> rfl
    · simp [SqlTerm.value, found, found', plain, plain', truth, truth', SqlTerm.andTruth_eq_both]
  · refine ⟨.ofTruth (either a.truth? a'.truth?), ?_, StaticType.admits_ofTruth _, ?_⟩
    · simp only [Expression.eval, evaluated, evaluated', pure_bind]
      rcases a.truth? with _ | _ | _ <;> rfl
    · simp [SqlTerm.value, found, found', plain, plain', truth, truth', SqlTerm.orTruth_eq_either]

/-- Comparisons of values are those of SQL on what the values are stored as. -/
theorem comparison_agrees {op : BinaryOp} {x y : Expression} {u : SqlTerm} {known : List Value}
    (compares : (op.isEquality || op.isRelational) = true) (fit : Expression.fits op x.type y.type = true)
    (tests : (op.isEquality && (x.isNullLiteral || y.isNullLiteral)) = false)
    (agrees : Agrees v tables inStep x t known) (agrees' : Agrees v tables inStep y u known) :
    Agrees v tables inStep (.binary op x y) (.binary op t u) known := by
  intro parameters more s env consistent
  obtain ⟨a, evaluated, admitted, found⟩ := agrees parameters more s env consistent
  obtain ⟨a', evaluated', admitted', found'⟩ := agrees' parameters more s env consistent
  have comparable : x.type.comparable y.type = true := by
    cases op <;> simp_all [Expression.fits, BinaryOp.isLogical, BinaryOp.isEquality, BinaryOp.isRelational]
  have stored := StaticType.compared_stored comparable admitted admitted' op
  refine ⟨.ofTruth (SqlTerm.compared op a a'), ?_, ?_, ?_⟩
  · have applied := SqlTerm.apply_eq_compared compares a a'
    cases op <;> simp only [BinaryOp.isEquality, BinaryOp.isRelational, Bool.or_self,
      Bool.false_eq_true] at compares <;>
      simp_all [Expression.eval, BinaryOp.isEquality]
  · cases op <;> simp_all [Expression.type, BinaryOp.isEquality, BinaryOp.isRelational,
      BinaryOp.isArithmetic]
  · cases op <;> simp_all [SqlTerm.value, BinaryOp.isEquality, BinaryOp.isRelational]

/-- A value is looked for among others until it is found, and a null among them is remembered. -/
theorem evalAmong_eq {wanted : Value} (there : wanted.isNull = false) {s : Standpoint}
    {items : List Expression} {values : List Value}
    (evaluated : List.Forall₂ (fun x value => x.eval v.related s = pure value) items values)
    (sawNull : Bool) :
    Expression.evalAmong v.related s wanted sawNull items =
      pure (.ofTruth
        (if values.any (SqlTerm.compared .eq wanted · == some true) then some true
        else if sawNull || values.any (SqlTerm.compared .eq wanted · == none) then none
        else some false)) := by
  induction evaluated generalizing sawNull with
  | nil => cases sawNull <;> rfl
  | @cons x value items values first _ ih =>
    rw [Expression.evalAmong, first, pure_bind, List.any_cons, List.any_cons]
    cases missing : value.isNull with
    | true =>
      have unknown : SqlTerm.compared .eq wanted value = none := by
        simp [SqlTerm.compared, missing]
      simp [ih, unknown]
    | false =>
      have compared : SqlTerm.compared .eq wanted value
          = some (wanted.compare value == some .eq) := by
        rw [SqlTerm.compared, there, missing]
        rcases wanted.compare value with _ | _ | _ | _ <;> rfl
      rw [compared]
      cases wanted.compare value == some .eq <;> simp [ih, Value.ofTruth]

/-- Alternatives hold what SQL finds among the values that they are stored as. -/
theorem oneOf_agrees {x : Expression} {items : List Expression} {ts : List SqlTerm}
    {known : List Value} (nonempty : items ≠ [])
    (fit : ∀ y ∈ items, x.type.comparable y.type = true)
    (agrees : Agrees v tables inStep x t known)
    (agreesItems : AgreeAll v tables inStep items ts known) :
    Agrees v tables inStep (.oneOf x items) (.oneOf t ts) known := by
  intro parameters more s env consistent
  obtain ⟨a, evaluated, admitted, found⟩ := agrees parameters more s env consistent
  obtain ⟨values, each, founds⟩ := agreesItems parameters more s env consistent
  let truth := values.foldr (fun b found => SqlTerm.orTruth (SqlTerm.compared .eq a b) found)
    (some false)
  -- Every alternative compares with the operand as what the two are stored as.
  have stored : ∀ value ∈ values,
      SqlTerm.compared .eq a.stored value.stored = SqlTerm.compared .eq a value := by
    intro value mem
    obtain ⟨i, bound, rfl⟩ := List.getElem_of_mem mem
    have bound' : i < items.length := each.length_eq ▸ bound
    have known := each.get bound' bound
    exact StaticType.compared_stored (fit _ (List.getElem_mem bound')) admitted known.2 .eq
  have evaluated' : List.Forall₂ (fun y value => y.eval v.related s = pure value) items values :=
    each.imp fun _ _ both => both.1
  refine ⟨.ofTruth truth, ?_, StaticType.admits_ofTruth _, ?_⟩
  · rw [Expression.eval, evaluated, pure_bind]
    cases missing : a.isNull with
    | true =>
      -- Nothing is known of a null among alternatives, of which there is at least one.
      have unknown (b : Value) : SqlTerm.compared .eq a b = none := by
        simp [SqlTerm.compared, missing]
      obtain ⟨b, rest, rfl⟩ : ∃ b rest, values = b :: rest := by
        cases each with
        | nil => exact absurd rfl nonempty
        | cons _ _ => exact ⟨_, _, rfl⟩
      have never : (b :: rest).any (SqlTerm.compared .eq a · == some true) = false := by
        simp only [unknown, List.any_eq_false]
        exact fun _ _ => Bool.false_ne_true
      have once : (b :: rest).any (SqlTerm.compared .eq a · == none) = true :=
        List.any_eq_true.mpr ⟨b, List.mem_cons_self, by rw [unknown]; rfl⟩
      simp only [truth, SqlTerm.foldr_orTruth, never, once, Bool.false_eq_true, if_true, if_false]
      rfl
    | false =>
      simp only [Bool.false_eq_true, if_false]
      rw [evalAmong_eq missing evaluated']
      simp only [truth, SqlTerm.foldr_orTruth, Bool.false_or]
  · simp only [SqlTerm.value, found, founds, Option.bind_eq_bind, Option.bind_some,
      List.foldr_map, Value.stored_ofTruth]
    refine congrArg (fun truth => some (Value.ofTruth truth)) (List.foldr_ext _ _ _ ?_)
    intro value mem found
    rw [stored value mem]

/-- Steps over mapped members whose outcomes are known beforehand are known together. -/
theorem mapM_map_eq_pure {f : Type → Type} [Monad f] [LawfulMonad f] {α β γ : Type}
    {list : List α} {via : α → β} {step : β → f γ} {outcome : α → γ}
    (each : ∀ a ∈ list, step (via a) = pure (outcome a)) :
    (list.map via).mapM step = pure (list.map outcome) := by
  induction list with
  | nil => rfl
  | cons a rest ih =>
    obtain ⟨first, others⟩ := List.forall_mem_cons.mp each
    rw [List.map_cons, List.mapM_cons, first, pure_bind, ih others, pure_bind, List.map_cons]

omit [Monad m] [LawfulMonad m] in
/-- A truth is found among those of a list when a member has it. -/
theorem contains_map {α : Type} (list : List α) (truth : α → Option Bool) :
    (list.map truth).contains (some true) = list.any fun a => truth a = some true := by
  rw [List.contains_eq_any_beq, List.any_map]
  refine List.any_congr rfl fun a => ?_
  rw [Function.comp]
  rcases truth a with _ | _ | _ <;> rfl

/-- A navigation property leads to a table whose rows are tied by the values of two properties. -/
structure Joined (v : Service m) (resolve : Resolver) (frame : Frame) (n : Navigation)
    (target : String) (set : EntitySet) (table : Table) (p q : Property) : Prop where
  present : v.model.set? target = some set
  resolved : resolve target = some table
  queries : set.capabilities.contains .query = true
  ties : ∃ con, n.constraint? = some con ∧ frame.type.property? con.property = some p ∧
    set.type.property? con.referenced = some q
  alike : q.type.enumeration? = p.type.enumeration?

namespace Joined

variable {resolve : Resolver} {contents : EntitySet → List Entity} {frame : Frame}
  {n : Navigation} {target : String} {set : EntitySet} {table : Table} {p q : Property}
  {e : Entity} {row : SqlRow}

/-- The related entities are those of the table whose tie to an entity is true. -/
theorem members (joined : Joined v resolve frame n target set table p q)
    (mirrors : Mirrors v resolve tables contents) (e : Entity) :
    ∃ pairs : List (Entity × SqlRow), tables table.name = pairs.map (·.2) ∧
      (∀ pair ∈ pairs, pair.1.Shown set.type pair.2) ∧
      v.related target n e = pure ((pairs.filter fun pair =>
        SqlTerm.compared .eq (pair.1.get q.name) (e.get p.name) = some true).map (·.1)) := by
  obtain ⟨pairs, entities, rows, shown⟩ := mirrors.pairs joined.present joined.resolved
  obtain ⟨con, only, local_, remote⟩ := joined.ties
  refine ⟨pairs, rows, shown, ?_⟩
  rw [Service.related_eq joined.present (mirrors.inMemory _ _ joined.present) joined.queries only
    remote (mirrors.kept _ _ joined.present), entities, List.filter_map,
    EntityType.property?_name local_]
  rfl

omit [Monad m] [LawfulMonad m] in
/-- A row under an alias of its own is tied as the values of the two properties compare. -/
theorem tied_eq (joined : Joined v resolve frame n target set table p q) {name alias_ : String}
    (other : alias_ ≠ name) {env : List (String × SqlRow)} (found : env.lookup name = some row)
    (shown : e.Shown frame.type row) {pair : Entity × SqlRow}
    (shown' : pair.1.Shown set.type pair.2) :
    SqlTerm.tied ((alias_, pair.2) :: env)
        ⟨table.name, alias_, ⟨alias_, q.column⟩, ⟨name, p.column⟩⟩ =
      some (SqlTerm.compared .eq (pair.1.get q.name) (e.get p.name)) := by
  obtain ⟨con, -, local_, remote⟩ := joined.ties
  rw [← EntityType.property?_name local_] at local_
  rw [← EntityType.property?_name remote] at remote
  have alike (there : (pair.1.get q.name).isNull = false) (there' : (e.get p.name).isNull = false) :
      (pair.1.get q.name).enumeration? = (e.get p.name).enumeration? := by
    rw [PropertyType.enumeration?_of_admits (shown'.typed _ _ remote) there,
      PropertyType.enumeration?_of_admits (shown.typed _ _ local_) there', joined.alike]
  simp only [SqlTerm.tied, SqlTerm.columnIn, List.lookup_cons, beq_self_eq_true,
    beq_eq_false_iff_ne.mpr (Ne.symm other), found, Option.map_some, Option.bind_eq_bind,
    Option.bind_some, shown'.fills q remote, shown.fills p local_,
    SqlTerm.compared_stored alike]
  rfl

/-- There is a related entity when a row is tied to the row of the entity. -/
theorem nonEmpty_agrees (joined : Joined v resolve frame n target set table p q)
    (mirrors : Mirrors v resolve tables contents) {scope : Scope} {name alias_ : String}
    (place : Place c binders scope frame name) (other : alias_ ≠ name) (known : List Value) :
    Agrees v tables (Consistent c binders) (.nonEmpty scope (.related n target))
      (.exists_ ⟨table.name, alias_, ⟨alias_, q.column⟩, ⟨name, p.column⟩⟩) known := by
  intro parameters _ s env consistent
  obtain ⟨e, row, bound, found, shown⟩ := consistent.at_ _ _ _ place
  obtain ⟨pairs, rows, shown', related⟩ := joined.members mirrors e
  let truth (pair : Entity × SqlRow) : Option Bool :=
    SqlTerm.compared .eq (pair.1.get q.name) (e.get p.name)
  refine ⟨.boolean ((pairs.map truth).contains (some true)), ?_, rfl, ?_⟩
  · simp only [Expression.eval, Expression.members, bound, settled_ok_bind, related, pure_bind]
    refine congrArg (fun found => pure (Value.boolean found)) ?_
    rw [contains_map, List.isEmpty_map, Bool.eq_iff_iff]
    simp [truth, List.filter_eq_nil_iff]
  · have ties : (pairs.map (·.2)).mapM (fun row => SqlTerm.tied ((alias_, row) :: env)
        ⟨table.name, alias_, ⟨alias_, q.column⟩, ⟨name, p.column⟩⟩) = some (pairs.map truth) :=
      mapM_map_eq_pure fun pair mem => joined.tied_eq other found shown (shown' pair mem)
    simp only [SqlTerm.value, rows, ties, Option.bind_eq_bind, Option.bind_some]
    rfl

/-- A quantifier holds for the related entities as its condition does for the tied rows. -/
theorem quantified_agrees (joined : Joined v resolve frame n target set table p q)
    (mirrors : Mirrors v resolve tables contents) {scope : Scope} {name variable_ : String}
    (place : Place c binders scope frame name) (other : variable_ ≠ name)
    (notRoot : variable_ ≠ rootAlias) {predicate : Expression} {known : List Value}
    (fit : predicate.type.isBoolean = true)
    (agrees : Agrees v tables
      (Consistent c (.entity variable_ ⟨target, set.type⟩ :: binders)) predicate t known)
    (quantifier : Quantifier) :
    let source : Correlation :=
      ⟨table.name, variable_, ⟨variable_, q.column⟩, ⟨name, p.column⟩⟩
    Agrees v tables (Consistent c binders)
      (.quantified scope (.related n target) quantifier variable_ predicate)
      (match quantifier with
        | .any => .existsWith source t
        | .all => .existsNoneWithout source t) known := by
  intro source parameters more s env consistent
  obtain ⟨e, row, bound, found, shown⟩ := consistent.at_ _ _ _ place
  obtain ⟨pairs, rows, shown', related⟩ := joined.members mirrors e
  let truth (pair : Entity × SqlRow) : Option Bool :=
    SqlTerm.compared .eq (pair.1.get q.name) (e.get p.name)
  -- The condition has the value of the predicate in every row of the table.
  have each : ∀ pair ∈ pairs, ∃ value,
      predicate.eval v.related (s.bind variable_ (.entity pair.1)) = pure value ∧
      predicate.type.admits value = true ∧
      t.value tables parameters ((variable_, pair.2) :: env) = some value.stored :=
    fun pair mem => agrees parameters more _ _ (consistent.extend notRoot (shown' pair mem))
  have : Inhabited Value := ⟨.null⟩
  choose! value evaluated admitted valued using each
  have held : ∀ pair ∈ pairs, SqlTerm.truthOf (value pair).stored = some (value pair).truth? := by
    intro pair mem
    obtain ⟨truth, plain⟩ := SqlTerm.truthOf_of_admits fit (admitted pair mem)
    rw [plain, truth]
  have tied : ∀ pair ∈ pairs, SqlTerm.tied ((variable_, pair.2) :: env) source
      = some (truth pair) :=
    fun pair mem => joined.tied_eq other found shown (shown' pair mem)
  let outcomes := (pairs.filter fun pair => truth pair = some true).map fun pair =>
    (value pair).truth? == some true
  refine ⟨.boolean (quantifier.holds outcomes), ?_, rfl, ?_⟩
  · simp only [Expression.eval, Expression.members, bound, settled_ok_bind, related, pure_bind,
      List.map_map]
    have judged : ((pairs.filter fun pair => truth pair = some true).map
        (Bound.entity ∘ (·.1))).mapM (fun bound => do
          return (← predicate.eval v.related (s.bind variable_ bound)).truth? == some true) =
        (pure outcomes : ExceptT RequestError m (List Bool)) := by
      refine mapM_map_eq_pure fun pair mem => ?_
      rw [Function.comp, evaluated pair (List.mem_of_mem_filter mem), pure_bind]
    rw [judged, pure_bind]
  · cases quantifier with
    | any =>
      let step (row : SqlRow) : Option (Option Bool) := do
        let held ← SqlTerm.truthOf (← t.value tables parameters ((variable_, row) :: env))
        return SqlTerm.andTruth (← SqlTerm.tied ((variable_, row) :: env) source) held
      have unfolded : (SqlTerm.existsWith source t).value tables parameters env =
          (tables source.table).mapM step >>= fun found =>
            some (.boolean (found.contains (some true))) := by
        rw [SqlTerm.value]
        rfl
      have ties : (pairs.map (·.2)).mapM step =
          some (pairs.map fun pair => SqlTerm.andTruth (truth pair) (value pair).truth?) := by
        refine mapM_map_eq_pure fun pair mem => ?_
        simp only [step, valued pair mem, held pair mem, tied pair mem, Option.bind_eq_bind,
          Option.bind_some]
      rw [unfolded, rows, ties, Option.bind_eq_bind, Option.bind_some, contains_map]
      simp only [Quantifier.holds, outcomes, List.any_map, List.any_filter]
      refine congrArg (fun found => some (Value.boolean found)) (List.any_congr rfl fun pair => ?_)
      simp only [Function.comp]
      rcases truth pair with _ | _ | _ <;> rcases (value pair).truth? with _ | _ | _ <;> rfl
    | all =>
      let step (row : SqlRow) : Option (Option Bool) := do
        let held ← SqlTerm.truthOf (← t.value tables parameters ((variable_, row) :: env))
        return SqlTerm.andTruth (← SqlTerm.tied ((variable_, row) :: env) source)
          (some (!held.getD false))
      have unfolded : (SqlTerm.existsNoneWithout source t).value tables parameters env =
          (tables source.table).mapM step >>= fun found =>
            some (.boolean (!found.contains (some true))) := by
        rw [SqlTerm.value]
        rfl
      have ties : (pairs.map (·.2)).mapM step = some (pairs.map fun pair =>
          SqlTerm.andTruth (truth pair) (some (!(value pair).truth?.getD false))) := by
        refine mapM_map_eq_pure fun pair mem => ?_
        simp only [step, valued pair mem, held pair mem, tied pair mem, Option.bind_eq_bind,
          Option.bind_some]
      rw [unfolded, rows, ties, Option.bind_eq_bind, Option.bind_some, contains_map]
      simp only [Quantifier.holds, outcomes, List.all_map, List.all_filter]
      rw [List.not_any_eq_all_not]
      refine congrArg (fun found => some (Value.boolean found)) (List.all_congr rfl fun pair => ?_)
      simp only [Function.comp]
      rcases truth pair with _ | _ | _ <;> rcases (value pair).truth? with _ | _ | _ <;> rfl

end Joined

end

end EdmQuery
