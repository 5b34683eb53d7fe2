import Mathlib
import EdmQuery.Proofs.Expr.Lexing
import EdmQuery.Proofs.Query.TypeSafety
import EdmQuery.Proofs.Sql.Navigation
import EdmQuery.Proofs.Sql.Parameters

/-! The placeholders of a compiled filter stand for the literals that they were written for. -/

namespace EdmQuery

open Text Number

namespace Braceless

variable {d : Dialect} {front back : List Char} {left right : String}

/-- A text without braces is looked through once. -/
theorem of_text {s : String} (plain : Piece.isBraceless (.text s) = true) : Braceless s.toList := by
  simpa [Piece.isBraceless, Braceless] using plain

/-- A part between texts without braces has none either. -/
theorem around {before after : String} (first : Piece.isBraceless (.text before) = true)
    (inner : Braceless left.toList) (last : Piece.isBraceless (.text after) = true) :
    Braceless (before ++ left ++ after).toList := by
  rw [String.toList_append, String.toList_append]
  exact ((of_text first).append inner).append (of_text last)

/-- Two parts with texts around and between them have no braces where none of these has. -/
theorem pair {before middle after : String} (first : Piece.isBraceless (.text before) = true)
    (inner : Braceless left.toList) (between : Piece.isBraceless (.text middle) = true)
    (second : Braceless right.toList) (last : Piece.isBraceless (.text after) = true) :
    Braceless (before ++ left ++ middle ++ right ++ after).toList := by
  rw [String.toList_append, String.toList_append]
  exact ((around first inner between).append second).append (of_text last)

/-- Doubled quotes are no braces. -/
theorem doubled (plain : Braceless front) {q : Char} (other : q ≠ openBrace) :
    Braceless (Text.doubled q front) := by
  induction front with
  | nil => exact List.not_mem_nil
  | cons c rest ih =>
    obtain ⟨first, others⟩ := not_or.mp (mt List.mem_cons.mpr plain)
    rw [Text.doubled]
    split
    · simpa [Braceless, other.symm] using ih others
    · simpa [Braceless, first] using ih others

/-- An identifier in quotes has the braces of its name. -/
theorem quote (plain : Braceless left.toList) : Braceless (d.quote left).toList := by
  have quoted {q : Char} (other : q ≠ openBrace) : Braceless (quoted q left).toList := by
    rw [Text.quoted, String.toList_ofList]
    simpa [Braceless, other.symm] using plain.doubled other
  cases d with
  | mysql => exact quoted (by decide)
  | _ => exact quoted (by decide)

/-- A column has the braces of its table's alias and of its name. -/
theorem column {c : Column} (table : Braceless c.table.toList) (name : Braceless c.name.toList) :
    Braceless (c.text d).toList := by
  rw [Column.text, String.toList_append, String.toList_append]
  exact (table.quote.append (of_text (by decide))).append name.quote

/-- The alias of a join has the braces of the names of its path. -/
theorem joinAlias {parent : Option String} (plain : ∀ name ∈ parent, Braceless name.toList)
    (name : Braceless left.toList) : Braceless (EdmQuery.joinAlias parent left).toList := by
  cases parent with
  | none => exact name
  | some parent =>
    rw [EdmQuery.joinAlias, String.toList_append, String.toList_append]
    exact ((plain parent rfl).append (of_text (by decide))).append name

/-- Placeholders have no braces. -/
theorem placeholder (d : Dialect) (index : Nat) : Braceless (d.placeholder index).toList := by
  have marker : Braceless [d.marker] := by cases d <;> simp [Braceless, Dialect.marker, openBrace]
  rw [Dialect.toList_placeholder, ← List.singleton_append]
  refine marker.append ?_
  rw [Dialect.mark]
  split
  · exact braceless_natText index
  · exact List.not_mem_nil

/-- Written integers have no braces. -/
theorem integer (n : Int) : Braceless (toString n).toList := by
  have sign : Braceless (sign (n < 0)).toList := by cases decide (n < 0) <;> exact of_text (by decide)
  rw [toList_toString]
  exact sign.append (braceless_natText n.natAbs)

/-- The quotient of integers has no braces where its operands have none. -/
theorem quotient (first : Braceless left.toList) (second : Braceless right.toList) :
    Braceless (d.integerDivision left right).toList := by
  cases d with
  | mysql => exact pair (by decide) first (by decide) second (by decide)
  | _ => exact pair (by decide) first (by decide) second (by decide)

/-- Calculations have no braces where their operands have none. -/
theorem arithmetic {op : BinaryOp} (computes : op.isArithmetic = true)
    (first : Braceless left.toList) (second : Braceless right.toList) :
    Braceless (SqlTerm.binaryText d op left right).toList := by
  have joined {symbol : String} (plain : Piece.isBraceless (.text symbol) = true) :
      Braceless ("(" ++ left ++ " " ++ symbol ++ " " ++ right ++ ")").toList := by
    have symbols : Braceless ("(" ++ left ++ " " ++ symbol).toList := by
      rw [String.toList_append]
      exact (around (by decide) first (by decide)).append (of_text plain)
    simp only [String.toList_append] at symbols ⊢
    exact ((symbols.append (of_text (by decide))).append second).append (of_text (by decide))
  cases op <;> simp only [BinaryOp.isArithmetic, Bool.false_eq_true] at computes <;>
    simp only [SqlTerm.binaryText]
  case divBy =>
    have real : Braceless (d.realCast left).toList := by
      have cast {type : String} (plain : Piece.isBraceless (.text type) = true) :
          Braceless ("CAST(" ++ left ++ " AS " ++ type ++ ")").toList :=
        pair (by decide) first (by decide) (of_text plain) (by decide)
      cases d <;> exact cast (by decide)
    exact pair (by decide) real (by decide) second (by decide)
  case mod =>
    cases d with
    | sqlite => exact pair (by decide) first (by decide) second (by decide)
    | _ => exact pair (by decide) first (by decide) second (by decide)
  all_goals exact joined (by decide)

end Braceless

/--
A term that a condition has in the place of an expression.

It shows the numbers of the expression's literals, which follow those of `before` others.
-/
structure SqlTerm.Carries (d : Dialect) (before : Nat) (x : Expression) (t : SqlTerm) : Prop where
  shown : t.shown d = x.written d before
  numbers : Numbers d before x.bound.length (x.written d before)
  fillable : t.Fillable d
  -- Truth values, which may look into tables, are never arguments of a template.
  plain : x.type ≠ .boolean → Braceless (t.text d).toList

/-- The terms that a condition has in the places of several expressions. -/
structure SqlTerm.CarryAll (d : Dialect) (before : Nat) (items : List Expression)
    (ts : List SqlTerm) : Prop where
  shown : shownEach d ts = Expression.writtenEach d before items
  numbers : Numbers d before (Expression.allBound items).length
    (Expression.writtenEach d before items).flatten
  fillable : AllFillable d ts
  plain : (∀ x ∈ items, x.type ≠ .boolean) → ∀ text ∈ texts d ts, Braceless text.toList

namespace Expression

variable {ctx : SqlContext} {locals : List (String × TableFrame)} {current : TableFrame}
  {b after : Builder} {t : SqlTerm}

/-- Whenever an expression has a term, its literals become parameters and the term carries it. -/
def Carried (ctx : SqlContext) (locals : List (String × TableFrame)) (current : TableFrame)
    (x : Expression) : Prop :=
  ∀ {b after : Builder} {t : SqlTerm},
    (x.term ctx locals current).run b = (.ok t, after) →
      after.parameters = b.parameters ++ x.bound ∧
        t.Carries ctx.dialect b.parameters.length x

/-- The terms of several expressions carry them, one after the other. -/
theorem carryAll_terms {items : List Expression} {ts : List SqlTerm}
    (each : ∀ x ∈ items, x.Carried ctx locals current)
    (compiled : (terms ctx locals current items).run b = (.ok ts, after)) :
    after.parameters = b.parameters ++ allBound items ∧
      SqlTerm.CarryAll ctx.dialect b.parameters.length items ts := by
  induction items generalizing b ts with
  | nil =>
    cases compiled
    refine ⟨(List.append_nil _).symm, rfl, .nil, trivial, fun _ text mem => ?_⟩
    cases mem
  | cons x rest ih =>
    obtain ⟨first, others⟩ := List.forall_mem_cons.mp each
    rw [terms] at compiled
    obtain ⟨t, between, compiledFirst, compiled⟩ := run_bind_ok compiled
    obtain ⟨more, between', compiledRest, compiled⟩ := run_bind_ok compiled
    cases compiled
    obtain ⟨added, carries⟩ := first compiledFirst
    obtain ⟨added', carryAll⟩ := ih others compiledRest
    rw [added, List.length_append] at carryAll
    refine ⟨by rw [added', added, allBound_cons, List.append_assoc], ?_, ?_,
      ⟨carries.fillable, carryAll.fillable⟩, fun plain => ?_⟩
    · rw [SqlTerm.shownEach, writtenEach, carries.shown, carryAll.shown]
    · rw [writtenEach, List.flatten_cons, allBound_cons, List.length_append]
      exact carries.numbers.append carryAll.numbers
    · obtain ⟨plainFirst, plainOthers⟩ := List.forall_mem_cons.mp plain
      rw [SqlTerm.texts]
      exact List.forall_mem_cons.mpr ⟨carries.plain plainFirst, carryAll.plain plainOthers⟩

/-- A literal becomes a parameter or stands in the text itself. -/
theorem carried_literal (value : Value) : (literal value).Carried ctx locals current := by
  intro b after t compiled
  rw [term] at compiled
  -- Whatever is bound becomes the next parameter.
  have bound_ (isBound : value.isBound = true)
      (made : (bindValue value).run b = (.ok t, after)) :
      after.parameters = b.parameters ++ (literal value).bound ∧
        t.Carries ctx.dialect b.parameters.length (literal value) := by
    have own : (literal value).bound = [value] := List.filter_cons_of_pos isBound
    have number : (literal value).written ctx.dialect b.parameters.length
        = [b.parameters.length + 1] := by rw [written, if_pos isBound]
    cases made
    refine ⟨by rw [own], number.symm, ?_, trivial, fun _ => .placeholder _ _⟩
    rw [own, number]
    exact .single
  rcases value with _ | s | _
  · cases compiled
    refine ⟨(List.append_nil _).symm, rfl, .nil, trivial, fun _ => ?_⟩
    rw [SqlTerm.text]
    exact .of_text (by decide)
  · cases s with
    | enum e n =>
      cases compiled
      exact ⟨(List.append_nil _).symm, rfl, .nil, trivial, fun _ => .integer _⟩
    | _ => exact bound_ rfl compiled
  · cases compiled

/-- A null has no numbers. -/
theorem null_unbound {x : Expression} (null : x.isNullLiteral = true) (d : Dialect) (before : Nat) :
    x.bound = [] ∧ x.written d before = [] := by
  unfold isNullLiteral at null
  split at null
  · exact ⟨rfl, rfl⟩
  · cases null

/-- Tests for equality are truth values. -/
theorem boolean_of_equality {op : BinaryOp} (equality : op.isEquality = true)
    (left right : Expression) : (binary op left right).type = .boolean := by
  cases op with
  | eq | ne => rfl
  | _ => cases equality

section

variable {d : Dialect} {before : Nat} {op : BinaryOp} {left right : Expression} {l r : SqlTerm}

/-- Calculations take operands that can be calculated with. -/
theorem isOperand_of_fits {left right : StaticType} (computes : op.isArithmetic = true)
    (fit : fits op left right = true) : isOperand op left = true ∧ isOperand op right = true := by
  refine Bool.and_eq_true_iff.mp ?_
  cases op <;> first | exact fit | cases computes

/-- Truth values cannot be calculated with. -/
theorem ne_boolean_of_isOperand {type : StaticType} (operand : isOperand op type = true) :
    type ≠ .boolean := by
  rintro rfl
  cases operand

/-- The numbers of two operands follow each other, and calculations have operands without braces. -/
theorem carries_operands (fit : fits op left.type right.type = true)
    (first : l.Carries d before left) (second : r.Carries d (before + left.bound.length) right) :
    Numbers d before (binary op left right).bound.length ((binary op left right).written d before) ∧
      ((binary op left right).type ≠ .boolean →
        op.isArithmetic = true ∧ Braceless (l.text d).toList ∧ Braceless (r.text d).toList) := by
  constructor
  · rw [written, bound_binary, List.length_append]
    exact first.numbers.append second.numbers
  · intro plain
    rw [type] at plain
    split at plain
    · rename_i computes
      obtain ⟨operand, operand'⟩ := isOperand_of_fits computes fit
      exact ⟨computes, first.plain (ne_boolean_of_isOperand operand),
        second.plain (ne_boolean_of_isOperand operand')⟩
    · exact absurd rfl plain

/-- An operation carries its operands; what it asks for twice has no parameters. -/
theorem carries_operation (fit : fits op left.type right.type = true)
    (flags : op = .has → right.bound = []) (first : l.Carries d before left)
    (second : r.Carries d (before + left.bound.length) right) :
    (SqlTerm.binary op l r).Carries d before (binary op left right) := by
  obtain ⟨numbers, operands⟩ := carries_operands fit first second
  have twice : (if op = .has then r.shown d else []) = [] := by
    split
    · rename_i has
      have none := second.numbers
      rw [flags has] at none
      rw [second.shown, none.eq_nil]
    · rfl
  refine ⟨?_, numbers, ⟨first.fillable, second.fillable⟩, fun plain => ?_⟩
  · rw [SqlTerm.shown, twice, List.append_nil, first.shown, second.shown, written]
  · obtain ⟨computes, plainFirst, plainSecond⟩ := operands plain
    rw [SqlTerm.text]
    exact .arithmetic computes plainFirst plainSecond

/-- A quotient of integers carries its operands. -/
theorem carries_quotient (fit : fits op left.type right.type = true)
    (first : l.Carries d before left) (second : r.Carries d (before + left.bound.length) right) :
    (SqlTerm.integerQuotient l r).Carries d before (binary op left right) := by
  obtain ⟨numbers, operands⟩ := carries_operands fit first second
  refine ⟨?_, numbers, ⟨first.fillable, second.fillable⟩, fun plain => ?_⟩
  · rw [SqlTerm.shown, first.shown, second.shown, written]
  · obtain ⟨-, plainFirst, plainSecond⟩ := operands plain
    rw [SqlTerm.text]
    exact .quotient plainFirst plainSecond

/-- A test for null carries what is tested, behind or in front of the null. -/
theorem carries_nullTest {isNull : Bool} (equality : op.isEquality = true)
    (null : left.isNullLiteral = true ∧ t.Carries d before right ∨
      right.isNullLiteral = true ∧ t.Carries d before left) :
    (SqlTerm.nullTest t isNull).Carries d before (binary op left right) := by
  have boolean := boolean_of_equality equality left right
  rcases null with ⟨null, carries⟩ | ⟨null, carries⟩
  · obtain ⟨unbound, none⟩ := null_unbound null d before
    refine ⟨?_, ?_, carries.fillable, absurd boolean⟩
    · rw [SqlTerm.shown, written, none, unbound, carries.shown]
      rfl
    · rw [written, none, bound_binary, unbound]
      exact carries.numbers
  · obtain ⟨unbound, none⟩ := null_unbound null d (before + left.bound.length)
    refine ⟨?_, ?_, carries.fillable, absurd boolean⟩
    · rw [SqlTerm.shown, written, none, carries.shown, List.append_nil]
    · rw [written, none, bound_binary, unbound, List.append_nil, List.append_nil]
      exact carries.numbers

end

/-- Operations are carried where their operands are; a null that is tested for has no term. -/
theorem carried_binary {op : BinaryOp} {left right : Expression}
    (fit : fits op left.type right.type = true) (flags : op = .has → right.bound = [])
    (onLeft : left.Carried ctx locals current) (onRight : right.Carried ctx locals current) :
    (binary op left right).Carried ctx locals current := by
  intro b after t compiled
  rw [term] at compiled
  rw [bound_binary]
  split at compiled
  · rename_i tests
    obtain ⟨equality, null⟩ := Bool.and_eq_true_iff.mp tests
    obtain ⟨t, between, compiled, made⟩ := run_bind_ok compiled
    cases made
    obtain ⟨added, carries⟩ := onRight compiled
    rw [(null_unbound null ctx.dialect 0).1, List.nil_append]
    exact ⟨added, carries_nullTest equality (.inl ⟨null, carries⟩)⟩
  split at compiled
  · rename_i tests
    obtain ⟨equality, null⟩ := Bool.and_eq_true_iff.mp tests
    obtain ⟨t, between, compiled, made⟩ := run_bind_ok compiled
    cases made
    obtain ⟨added, carries⟩ := onLeft compiled
    rw [(null_unbound null ctx.dialect 0).1, List.append_nil]
    exact ⟨added, carries_nullTest equality (.inr ⟨null, carries⟩)⟩
  split at compiled
  · cases compiled
  obtain ⟨l, between, compiledL, compiled⟩ := run_bind_ok compiled
  obtain ⟨r, between', compiledR, compiled⟩ := run_bind_ok compiled
  obtain ⟨addedL, carriesL⟩ := onLeft compiledL
  obtain ⟨addedR, carriesR⟩ := onRight compiledR
  rw [addedL, List.length_append] at carriesR
  have added : between'.parameters = b.parameters ++ (left.bound ++ right.bound) := by
    rw [addedR, addedL, List.append_assoc]
  split at compiled
  · cases compiled
    exact ⟨added, carries_quotient fit carriesL carriesR⟩
  · cases compiled
    exact ⟨added, carries_operation fit flags carriesL carriesR⟩

/-- Alternatives are carried where the operand and each of them are. -/
theorem carried_oneOf {x : Expression} {items : List Expression}
    (operand : x.Carried ctx locals current) (each : ∀ y ∈ items, y.Carried ctx locals current) :
    (oneOf x items).Carried ctx locals current := by
  intro b after t compiled
  rw [term] at compiled
  obtain ⟨u, between, compiledFirst, compiled⟩ := run_bind_ok compiled
  obtain ⟨us, between', compiledItems, made⟩ := run_bind_ok compiled
  cases made
  obtain ⟨added, carries⟩ := operand compiledFirst
  obtain ⟨added', carryAll⟩ := carryAll_terms each compiledItems
  rw [added, List.length_append] at carryAll
  refine ⟨by rw [added', added, bound_oneOf, List.append_assoc], ?_, ?_,
    ⟨carries.fillable, carryAll.fillable⟩, absurd rfl⟩
  · rw [SqlTerm.shown, written, carries.shown, carryAll.shown]
  · rw [written, bound_oneOf, List.length_append]
    exact carries.numbers.append carryAll.numbers

/-- A template that is there for a function is the one of its name, and can be numbered. -/
theorem templateFor_ok {d : Dialect} {f : BuiltIn} {arity : Nat} {template : Template}
    (found : templateFor d f arity = .ok template) :
    Template.find? f.name arity = some template ∧
      (d.isNumbered = false → template.repeats d arity = false) := by
  rw [templateFor] at found
  split at found
  · cases found
  · rename_i present
    split at found
    · cases found
    · rename_i single
      cases found
      refine ⟨present, fun unnumbered => ?_⟩
      simpa [unnumbered] using single

/-- The templates of functions are sound in each flavour. -/
theorem isSound_template {f : BuiltIn} {arity : Nat} (takes : arity ∈ f.arities)
    {template : Template} (found : Template.find? f.name arity = some template) (d : Dialect) :
    template.isSound d arity = true := by
  have sound := f.templates_sound arity takes template found
  simp only [Bool.and_eq_true] at sound
  cases d with
  | sqlite => exact sound.1.1
  | postgres => exact sound.1.2
  | mysql => exact sound.2

/-- Calls are carried where their arguments are, in the places that the template has for them. -/
theorem carried_call {f : BuiltIn} {arguments : List Expression} {result : PrimitiveType}
    (taken : f.resultType? (arguments.map (·.type)) = some result)
    (each : ∀ x ∈ arguments, x.Carried ctx locals current) :
    (call f arguments result).Carried ctx locals current := by
  intro b after t compiled
  obtain ⟨takes, noTruths, -⟩ := BuiltIn.resultType?_ok taken
  rw [List.length_map] at takes
  rw [term] at compiled
  obtain ⟨template, found, compiled⟩ := run_known_bind_ok compiled
  obtain ⟨ts, between, compiled, made⟩ := run_bind_ok compiled
  cases made
  obtain ⟨present, numbered⟩ := templateFor_ok found
  obtain ⟨added, carryAll⟩ := carryAll_terms each compiled
  have length : ts.length = arguments.length := by
    rw [← SqlTerm.length_shownEach ctx.dialect, carryAll.shown, length_writtenEach]
  have sound := isSound_template takes present ctx.dialect
  obtain ⟨quiet, separated, placed⟩ := Template.isSound_iff.mp sound
  have braceless : ∀ text ∈ SqlTerm.texts ctx.dialect ts, Braceless text.toList :=
    carryAll.plain fun x mem boolean => noTruths (boolean ▸ List.mem_map_of_mem mem)
  refine ⟨added, ?_, ?_, ⟨length ▸ sound, braceless, carryAll.fillable⟩, fun _ => ?_⟩
  · rw [SqlTerm.shown, written, present, carryAll.shown]
  · rw [written, present]
    refine carryAll.numbers.placed (fun i => ?_) fun unnumbered => ?_
    · rw [length_writtenEach]
      exact placed i
    · have single := numbered unnumbered
      rw [length_writtenEach]
      cases dialect : ctx.dialect with
      | mysql =>
        rw [dialect] at single
        exact f.templates_inOrder _ takes _ present single
      | _ =>
        rw [dialect] at unnumbered
        cases unnumbered
  · rw [SqlTerm.text, Template.render_eq (Piece.braceless_of_quiet quiet) braceless,
      String.toList_ofList]
    refine Piece.braceless_filled (Piece.braceless_of_quiet quiet) ?_ fun i mem => ?_
    · simpa using braceless
    · rw [List.length_map, SqlTerm.length_texts, length]
      exact (placed i).mp mem

/-- Operands of calculations are numbers where they have a type. -/
theorem isNumeric_of_isOperand {op : BinaryOp} {type : StaticType}
    (operand : isOperand op type = true) {p : PrimitiveType} (typed : type.primitive? = some p) :
    p.isNumeric = true := by
  cases type with
  | primitive q =>
    cases typed
    exact (Bool.and_eq_true_iff.mp operand).1
  | _ => cases typed

/-- Calculations with numbers have the type of a number. -/
theorem isNumeric_of_arithmetic {op : BinaryOp} {left right : StaticType}
    (first : isOperand op left = true) (second : isOperand op right = true) {p : PrimitiveType}
    (computed : arithmeticType op left right = .primitive p) : p.isNumeric = true := by
  have widened_ {q : PrimitiveType} (numeric : q.isNumeric = true)
      (same : StaticType.primitive (widened q) = .primitive p) : p.isNumeric = true := by
    cases same
    rw [← numeric]
    cases q <;> rfl
  rw [arithmeticType] at computed
  split at computed
  · cases computed
    rfl
  split at computed
  · cases computed
  · rename_i typed _
    exact widened_ (isNumeric_of_isOperand first typed) computed
  · rename_i typed
    exact widened_ (isNumeric_of_isOperand second typed) computed
  · split at computed
    · cases computed
      rfl
    split at computed <;> cases computed <;> rfl

/-- An enumeration is read without any literal that becomes a parameter. -/
theorem ReadFrom.unbound_of_enum {c : FilterContext} {tokens : List Token} {binders : List Binder}
    {start : Option (Scope × Frame)} {x : Expression} (read : x.ReadFrom c tokens binders start)
    {e : Enumeration} (enum : x.type = .primitive (.enum e)) : x.bound = [] := by
  induction read with
  | @literal _ _ value _ _ =>
    rcases value with _ | s | _
    · rfl
    · cases s with
      | enum => rfl
      | _ => cases enum
    · rename_i items
      rw [type, typeOfValue] at enum
      split at enum <;> cases enum
  | rooted _ ih => exact ih enum
  | through _ _ ih => exact ih enum
  | negate _ _ ih => exact ih enum
  | hop _ _ _ _ _ _ _ _ ih => exact ih enum
  | @binary _ op left right _ _ fit =>
    rw [type] at enum
    split at enum
    · rename_i computes
      obtain ⟨first, second⟩ := isOperand_of_fits computes fit
      cases isNumeric_of_arithmetic first second enum
    · cases enum
  | call _ made =>
    obtain ⟨-, -, other⟩ := BuiltIn.resultType?_ok (resultType?_of_mkCall made)
    cases enum
    exact absurd rfl (other e)
  | item _ | property _ _ _ _ | nonEmpty _ _ _ _ => rfl
  | not _ _ | oneOf _ _ _ _ | quantified _ _ _ _ _ _ _ _ _ _ => cases enum

/-- The columns of each one of several expressions are among those of all. -/
theorem columns_subset {x : Expression} {items : List Expression} (mem : x ∈ items) :
    x.columns ⊆ allColumns items := by
  induction items with
  | nil => cases mem
  | cons y rest ih =>
    rw [allColumns]
    rcases List.mem_cons.mp mem with rfl | later
    · exact List.subset_append_left _ _
    · exact List.subset_append_of_subset_right _ (ih later)

/-- The table of a scope has an alias without braces where those of all variables have. -/
theorem braceless_frame {scope : Scope} {frame : TableFrame}
    (locals_ : ∀ entry ∈ locals, Braceless entry.2.tableAlias.toList)
    (found : ctx.frame locals scope = .ok frame) : Braceless frame.tableAlias.toList := by
  cases scope with
  | root =>
    cases found
    have root : Braceless rootAlias.toList := .of_text (by decide)
    exact root
  | current => cases found
  | bound name =>
    rw [SqlContext.frame] at found
    split at found
    · rename_i looked
      cases found
      obtain ⟨before, behind, rfl, -⟩ := List.lookup_eq_some_iff.mp looked
      exact locals_ (name, frame) (by simp)
    · cases found

/-- A property is carried by its column, which has no braces. -/
theorem carried_property {scope : Scope} {p : Property}
    (locals_ : ∀ entry ∈ locals, Braceless entry.2.tableAlias.toList)
    (current_ : Braceless current.tableAlias.toList) (plain : Braceless p.column.toList) :
    (property scope p).Carried ctx locals current := by
  intro b after t compiled
  have carries (frame : TableFrame) (alias_ : Braceless frame.tableAlias.toList) :
      (SqlTerm.column ⟨frame.tableAlias, p.column⟩).Carries ctx.dialect b.parameters.length
        (property scope p) :=
    ⟨rfl, .nil, trivial, fun _ => .column alias_ plain⟩
  rw [term] at compiled
  split at compiled
  · cases compiled
    exact ⟨(List.append_nil _).symm, carries current current_⟩
  · obtain ⟨frame, found, made⟩ := run_known_bind_ok compiled
    cases made
    exact ⟨(List.append_nil _).symm, carries frame (braceless_frame locals_ found)⟩

/--
What is read from a filter is carried by its term, if no names have braces.

Paths and variables name aliases by the words that they are read from, which have none.
-/
theorem ReadFrom.carried {c : FilterContext} {tokens : List Token}
    (words : ∀ t ∈ tokens, t.kind = .identifier → Braceless t.text.toList)
    {binders : List Binder} {start : Option (Scope × Frame)} {x : Expression}
    (read : x.ReadFrom c tokens binders start)
    (columns_ : ∀ column ∈ x.columns, Braceless column.toList)
    (locals_ : ∀ entry ∈ locals, Braceless entry.2.tableAlias.toList)
    (current_ : Braceless current.tableAlias.toList) : x.Carried ctx locals current := by
  induction read generalizing locals current with
  | literal _ _ => exact carried_literal _
  | rooted _ ih => exact ih columns_ locals_ current_
  | through _ _ ih => exact ih columns_ locals_ current_
  | item _ =>
    intro b after t compiled
    cases compiled
  | not _ _ ih =>
    intro b after t compiled
    rw [term] at compiled
    obtain ⟨t, between, compiled, made⟩ := run_bind_ok compiled
    cases made
    obtain ⟨added, carries⟩ := ih columns_ locals_ current_ compiled
    exact ⟨added, carries.shown, carries.numbers, carries.fillable, absurd rfl⟩
  | negate _ _ ih =>
    intro b after t compiled
    rw [term] at compiled
    split at compiled
    · cases compiled
    obtain ⟨t, between, compiled, made⟩ := run_bind_ok compiled
    cases made
    obtain ⟨added, carries⟩ := ih columns_ locals_ current_ compiled
    refine ⟨added, carries.shown, carries.numbers, carries.fillable, fun plain => ?_⟩
    rw [SqlTerm.text]
    exact .around (by decide) (carries.plain plain) (by decide)
  | @binary _ op left right _ readRight fit ihLeft ihRight =>
    rw [columns] at columns_
    obtain ⟨first, second⟩ := List.forall_mem_append.mp columns_
    refine carried_binary fit (fun has => ?_) (ihLeft first locals_ current_)
      (ihRight second locals_ current_)
    subst has
    obtain ⟨e, enum⟩ := enum_of_fits_has fit
    exact readRight.unbound_of_enum enum
  | oneOf _ _ _ _ ih ihItems =>
    rw [columns] at columns_
    obtain ⟨first, others⟩ := List.forall_mem_append.mp columns_
    exact carried_oneOf (ih first locals_ current_) fun y mem =>
      ihItems y mem (fun column inside => others column (columns_subset mem inside)) locals_ current_
  | call _ made ihItems =>
    rw [columns] at columns_
    exact carried_call (resultType?_of_mkCall made) fun y mem =>
      ihItems y mem (fun column inside => columns_ column (columns_subset mem inside)) locals_
        current_
  | property _ _ _ _ => exact carried_property locals_ current_ (columns_ _ List.mem_cons_self)
  | @hop _ _ _ token n _ _ _ mem named _ found _ _ _ _ ih =>
    intro b after t compiled
    obtain ⟨parent, table, from_, -, inner⟩ := run_hop_ok compiled
    have same : n.name = token.text := by simpa using List.find?_some found
    have joined : Braceless (joinAlias parent n.name).toList := by
      refine .joinAlias (fun name known => ?_) (same ▸ words token mem named)
      rcases from_ with ⟨-, rfl⟩ | ⟨-, rfl⟩
      · cases known
      · cases known
        exact current_
    obtain ⟨added, carries⟩ := ih columns_ locals_ joined inner
    exact ⟨added, carries.shown, carries.numbers, carries.fillable, carries.plain⟩
  | nonEmpty _ _ _ _ =>
    intro b after t compiled
    rw [term] at compiled
    obtain ⟨n, target, parent, tied, rfl, -, -, rest⟩ := run_correlate_ok compiled
    cases rest
    exact ⟨(List.append_nil _).symm, rfl, .nil, trivial, absurd rfl⟩
  | @quantified _ _ _ _ _ _ v quantifier _ _ _ _ _ memV namedV _ _ _ _ ih =>
    intro b after t compiled
    rw [term] at compiled
    obtain ⟨n, target, parent, tied, rfl, -, -, rest⟩ := run_correlate_ok compiled
    obtain ⟨_, opened, isOpened, compiled⟩ := run_bind_ok rest
    cases isOpened
    obtain ⟨condition, closing, inner, compiled⟩ := run_bind_ok compiled
    have variable_ : Braceless v.text.toList := words v memV namedV
    obtain ⟨added, carries⟩ := ih columns_ (List.forall_mem_cons.mpr ⟨variable_, locals_⟩) variable_
      inner
    cases quantifier with
    | any =>
      cases compiled
      exact ⟨added, carries.shown, carries.numbers, carries.fillable, absurd rfl⟩
    | all =>
      cases compiled
      exact ⟨added, carries.shown, carries.numbers, carries.fillable, absurd rfl⟩

end Expression

/--
The parameters of a condition are the literals of its filter, and its placeholders stand for them.

They are the literals that are neither null nor enumerations, from left to right. Each placeholder
of the text has the number of the literal that is written there, which may come more than once.
Without numbers, each comes once and in the order of the parameters. Columns that the filter reads
must not have names that could be taken for the places of a template.
-/
theorem placeholders_stand_for_literals {m : Model} {set input : String} {filter : Expression}
    (read : parseFilter m set input = .ok filter)
    (columns : ∀ column ∈ filter.columns, Braceless column.toList) {ctx : SqlContext}
    {condition : SqlTerm} {after : Builder}
    (compiled : (compileFilter ctx filter).run .empty = (.ok condition, after)) :
    after.parameters = filter.literals.filter Value.isBound ∧
      ctx.dialect.placeholders (condition.text ctx.dialect) = filter.written ctx.dialect 0 ∧
      (∀ k, k ∈ ctx.dialect.placeholders (condition.text ctx.dialect) ↔
        1 ≤ k ∧ k ≤ after.parameters.length) ∧
      (ctx.dialect.isNumbered = false →
        ctx.dialect.placeholders (condition.text ctx.dialect)
          = List.range' 1 after.parameters.length) := by
  obtain ⟨s, tokens, -, scanned, readFrom, -⟩ := parseFilter_sound read
  -- Names are read as words, whose characters are letters, digits, points and dollar signs.
  have words (t : Token) (mem : t ∈ tokens) (named : t.kind = .identifier) :
      Braceless t.text.toList := by
    intro brace
    rcases (tokenize_identifier scanned mem named).1.mem brace with letter | dollar | point
    · revert letter
      decide
    · cases dollar
    · cases point
  rw [compileFilter] at compiled
  obtain ⟨joins, -, compiled⟩ := run_known_bind_ok compiled
  obtain ⟨_, joined, adds, compiled⟩ := run_bind_ok compiled
  cases adds
  have root : Braceless ctx.rootFrame.tableAlias.toList := by
    have root : Braceless rootAlias.toList := .of_text (by decide)
    exact root
  obtain ⟨added, carries⟩ := readFrom.carried words columns (by simp) root compiled
  have parameters : after.parameters = filter.bound := added
  have numbers : Numbers ctx.dialect 0 filter.bound.length (filter.written ctx.dialect 0) :=
    carries.numbers
  have placeholders : ctx.dialect.placeholders (condition.text ctx.dialect)
      = filter.written ctx.dialect 0 := by
    have shown : condition.shown ctx.dialect = filter.written ctx.dialect 0 := carries.shown
    rw [SqlTerm.placeholders_text carries.fillable, shown]
    cases numbered : ctx.dialect.isNumbered with
    | true => rfl
    | false =>
      rw [if_neg Bool.false_ne_true, numbers.inOrder numbered, List.length_range']
  rw [placeholders, parameters]
  refine ⟨rfl, rfl, fun k => ?_, numbers.inOrder⟩
  rw [numbers.mem, Nat.zero_add]
  exact Iff.rfl

namespace Service

/-- Whether a shelf has a rounded number, or a book that has another one. -/
def roundedFilter : Expression :=
  .binary .or
    (.binary .eq (.property .root (plainProperty "id" (.integer .int32)))
      (.call .floor [.literal (.integer 2)] (.integer .int64)))
    (.quantified .root (.related (booksBy "books" "id") "books") .any "b"
      (.binary .eq (.property (.bound "b") (plainProperty "shelf" (.integer .int32)))
        (.literal (.integer 3))))

/-- The template for the greatest integer below a number, which comes from a comparison. -/
def floorTemplate : Template :=
  ⟨"floor", Template.between "(" (Template.integer (Template.arg 0)) " - (" ++ Template.arg 0 ++
      Template.between " < " (Template.integer (Template.arg 0)) "))",
    some (Template.call "FLOOR" [Template.arg 0]), some (Template.call "FLOOR" [Template.arg 0])⟩

/-- The condition of that filter, which has a parameter for the number and one for the other. -/
def roundedCondition : SqlTerm :=
  .binary .or
    (.binary .eq (.column ⟨"$it", "id"⟩) (.call floorTemplate [.parameter 1]))
    (.existsWith ⟨"books", "b", ⟨"b", "shelf"⟩, ⟨"$it", "id"⟩⟩
      (.binary .eq (.column ⟨"b", "shelf"⟩) (.parameter 2)))

/-- In the library, the number that is rounded has three placeholders, and the other has one. -/
theorem placeholders_stand_for_literals_in_library :
    parseFilter library.model "shelves" "id eq floor(2) or books/any(b:b/shelf eq 3)"
        = .ok roundedFilter ∧
      (compileFilter libraryContext roundedFilter).run .empty
        = (.ok roundedCondition, ⟨[.integer 2, .integer 3], [], 0⟩) ∧
      Dialect.sqlite.placeholders (roundedCondition.text .sqlite) = [1, 1, 1, 2] := by
  have read : parseFilter library.model "shelves" "id eq floor(2) or books/any(b:b/shelf eq 3)"
      = .ok roundedFilter := by cbv
  have compiled : (compileFilter libraryContext roundedFilter).run .empty
      = (.ok roundedCondition, ⟨[.integer 2, .integer 3], [], 0⟩) := by cbv
  have plain : ∀ column ∈ roundedFilter.columns, Braceless column.toList := by
    have columns : roundedFilter.columns = ["id", "shelf"] := rfl
    rw [columns]
    simp [Braceless, openBrace]
  obtain ⟨-, placeholders, -, -⟩ := placeholders_stand_for_literals read plain compiled
  exact ⟨read, compiled, placeholders.trans (by decide)⟩

end Service

end EdmQuery
