import Mathlib
import EdmQuery.Expr.Tree
import EdmQuery.Proofs.Expr.Alike
import EdmQuery.Proofs.Sql.Placeholders

/-! The parameters of a condition are the literals of its filter, and placeholders stand for them. -/

namespace EdmQuery

open Text

/-- Whether a literal becomes a parameter; nulls and enumerations stand in the text itself. -/
def Value.isBound : Value → Bool
  | .null => false
  | .enum _ _ => false
  | _ => true

namespace Expression

/-- The literals of an expression that become parameters, from left to right. -/
def bound (x : Expression) : List Value :=
  x.literals.filter Value.isBound

/-- The literals of several expressions that become parameters, from left to right. -/
def allBound (items : List Expression) : List Value :=
  (allLiterals items).filter Value.isBound

mutual

/-- The columns that an expression reads outside of what ties its quantifiers. -/
@[simp] def columns : Expression → List String
  | property _ p => [p.column]
  | hop _ _ _ inner => inner.columns
  | not operand => operand.columns
  | negate operand => operand.columns
  | binary _ left right => left.columns ++ right.columns
  | oneOf operand items => operand.columns ++ allColumns items
  | call _ arguments _ => allColumns arguments
  | quantified _ _ _ _ predicate => predicate.columns
  | _ => []

/-- The columns that several expressions read. -/
@[simp] def allColumns : List Expression → List String
  | [] => []
  | x :: rest => x.columns ++ allColumns rest

end

mutual

/--
The literals that the text of a condition shows, in its order, each by its number.

The literals that become parameters are numbered from left to right, behind `before` others. A
call shows its arguments where its template has places for them, some of them more than once.
-/
@[simp] def written (d : Dialect) (before : Nat) : Expression → List Nat
  | literal value => if value.isBound then [before + 1] else []
  | hop _ _ _ inner => inner.written d before
  | not operand => operand.written d before
  | negate operand => operand.written d before
  | binary _ left right =>
    left.written d before ++ right.written d (before + left.bound.length)
  | oneOf operand items =>
    operand.written d before ++ (writtenEach d (before + operand.bound.length) items).flatten
  | call function arguments _ =>
    match Template.find? function.name arguments.length with
    | some template => (template.pieces d).flatMap (Piece.shown (writtenEach d before arguments))
    | none => []
  | quantified _ _ _ _ predicate => predicate.written d before
  | _ => []

/-- The literals that the texts of several conditions show. -/
@[simp] def writtenEach (d : Dialect) (before : Nat) : List Expression → List (List Nat)
  | [] => []
  | x :: rest => x.written d before :: writtenEach d (before + x.bound.length) rest

end

/-- The literals of two operands that become parameters are those of each one. -/
@[simp] theorem bound_binary (op : BinaryOp) (left right : Expression) :
    (binary op left right).bound = left.bound ++ right.bound :=
  List.filter_append ..

/-- The literals of alternatives that become parameters stand behind those of the operand. -/
@[simp] theorem bound_oneOf (operand : Expression) (items : List Expression) :
    (oneOf operand items).bound = operand.bound ++ allBound items :=
  List.filter_append ..

/-- The literals of the first one of several expressions come first. -/
@[simp] theorem allBound_cons (x : Expression) (rest : List Expression) :
    allBound (x :: rest) = x.bound ++ allBound rest :=
  List.filter_append ..

/-- There is a list of numbers for each expression. -/
@[simp] theorem length_writtenEach (d : Dialect) (before : Nat) (items : List Expression) :
    (writtenEach d before items).length = items.length := by
  induction items generalizing before with
  | nil => rfl
  | cons x rest ih => rw [writtenEach, List.length_cons, List.length_cons, ih]

end Expression

namespace Piece

/-- The place of the argument that a piece has. -/
def index? : Piece → Option Nat
  | text _ => none
  | argument i => some i

/-- What pieces show is what the arguments show that have places, one after the other. -/
theorem flatMap_shown (each : List (List Nat)) (pieces : List Piece) :
    pieces.flatMap (shown each) = (pieces.filterMap index?).flatMap fun i => (each[i]?).getD [] := by
  induction pieces with
  | nil => rfl
  | cons p rest ih => cases p <;> simp [List.filterMap_cons, shown, index?, ih]

end Piece

namespace BuiltIn

/-- The numbers of arguments that a function can have. -/
def arities : BuiltIn → List Nat
  | .contains | .startsWith | .endsWith | .indexOf | .concat | .matchesPattern => [2]
  | .substring => [2, 3]
  | .now => [0]
  | _ => [1]

/-- Arguments of given families are as many as those, and none of them is a truth value. -/
theorem fits_ok {families : List Family} (plain : .boolean ∉ families) {types : List StaticType}
    (fit : fits families types = true) :
    types.length = families.length ∧ .boolean ∉ types := by
  induction families generalizing types with
  | nil =>
    cases types with
    | nil => exact ⟨rfl, List.not_mem_nil⟩
    | cons type rest => cases fit
  | cons family families ih =>
    cases types with
    | nil => cases fit
    | cons type rest =>
      have fit := Bool.and_eq_true_iff.mp fit
      obtain ⟨first, others⟩ := not_or.mp fun mem => plain (List.mem_cons.mpr mem)
      obtain ⟨length, none⟩ := ih others fit.2
      refine ⟨by rw [List.length_cons, List.length_cons, length], fun mem => ?_⟩
      rcases List.mem_cons.mp mem with rfl | later
      · exact first (eq_of_beq fit.1)
      · exact none later

/-- A function that takes arguments of some types takes so many, and no truth values. -/
theorem resultType?_ok {f : BuiltIn} {types : List StaticType} {type : PrimitiveType}
    (taken : f.resultType? types = some type) :
    types.length ∈ f.arities ∧ .boolean ∉ types ∧ ∀ e, type ≠ .enum e := by
  have single {family : Family} (fit : fits [family] types = true) (plain : .boolean ≠ family) :
      types.length = 1 ∧ .boolean ∉ types := fits_ok (by simpa using plain) fit
  have texts (fit : fits [.string, .string] types = true) :
      types.length = 2 ∧ .boolean ∉ types := fits_ok (by decide) fit
  cases f <;> simp only [resultType?, Option.ite_none_right_eq_some, Option.some.injEq,
    Bool.and_eq_true, Bool.or_eq_true] at taken <;> obtain ⟨fit, rfl⟩ := taken
  case substring =>
    obtain ⟨length, none⟩ | ⟨length, none⟩ := fit.1.1.imp (fits_ok (by decide)) (fits_ok (by decide))
    · exact ⟨by simp [arities, length], none, nofun⟩
    · exact ⟨by simp [arities, length], none, nofun⟩
  case now =>
    obtain rfl := List.isEmpty_iff.mp fit
    exact ⟨by decide, List.not_mem_nil, nofun⟩
  case round | floor | ceiling =>
    obtain ⟨length, none⟩ := single fit nofun
    refine ⟨by simp [arities, length], none, fun e => ?_⟩
    -- A rounded number is a decimal, an integer or a double.
    unfold roundedType
    repeat' split
    all_goals nofun
  case contains | startsWith | endsWith | matchesPattern | indexOf | concat =>
    obtain ⟨length, none⟩ := texts fit
    exact ⟨by simp [arities, length], none, nofun⟩
  case length | toLower | toUpper | trim | date | time =>
    obtain ⟨length, none⟩ := single fit nofun
    exact ⟨by simp [arities, length], none, nofun⟩
  all_goals
    obtain ⟨length, none⟩ := fit.elim (fun fit => single fit nofun) fun fit => single fit nofun
    exact ⟨by simp [arities, length], none, nofun⟩

/-- The templates of functions are sound in every flavour. -/
theorem templates_sound (f : BuiltIn) : ∀ n ∈ f.arities, ∀ t ∈ Template.find? f.name n,
    (t.isSound .sqlite n && t.isSound .postgres n && t.isSound .mysql n) = true := by
  cases f <;> decide

/-- Where no argument comes twice, they stand in their own order, as unnumbered ones have to. -/
theorem templates_inOrder (f : BuiltIn) : ∀ n ∈ f.arities, ∀ t ∈ Template.find? f.name n,
    t.repeats .mysql n = false → (t.pieces .mysql).filterMap Piece.index? = List.range n := by
  cases f <;> decide

end BuiltIn

/--
Numbers of so many literals behind others: those of all of them, and no others.

In a flavour without numbers, they come in order and each of them once.
-/
structure Numbers (d : Dialect) (before count : Nat) (indices : List Nat) : Prop where
  mem : ∀ i, i ∈ indices ↔ before < i ∧ i ≤ before + count
  inOrder : d.isNumbered = false → indices = List.range' (before + 1) count

namespace Numbers

variable {d : Dialect} {before count count' : Nat} {indices more : List Nat}

/-- Without literals there are no numbers. -/
protected theorem nil : Numbers d before 0 [] :=
  ⟨fun i => by simp, fun _ => rfl⟩

/-- A literal has the next number. -/
theorem single : Numbers d before 1 [before + 1] :=
  ⟨fun i => by simp; omega, fun _ => rfl⟩

/-- The numbers of no literals are none. -/
theorem eq_nil (numbers : Numbers d before 0 indices) : indices = [] := by
  refine List.eq_nil_iff_forall_not_mem.mpr fun i mem => ?_
  have range := (numbers.mem i).mp mem
  omega

/-- The numbers of literals that follow others follow theirs. -/
theorem append (first : Numbers d before count indices)
    (second : Numbers d (before + count) count' more) :
    Numbers d before (count + count') (indices ++ more) where
  mem := by
    intro i
    rw [List.mem_append, first.mem, second.mem]
    omega
  inOrder := by
    intro unnumbered
    rw [first.inOrder unnumbered, second.inOrder unnumbered, Nat.add_right_comm,
      List.range'_append_1]

/-- Places for all arguments, one in order for each if need be, show the numbers of all of them. -/
theorem placed {each : List (List Nat)} (numbers : Numbers d before count each.flatten)
    {pieces : List Piece} (given : ∀ i, .argument i ∈ pieces ↔ i < each.length)
    (ordered : d.isNumbered = false → pieces.filterMap Piece.index? = List.range each.length) :
    Numbers d before count (pieces.flatMap (Piece.shown each)) where
  mem := by
    intro i
    rw [← numbers.mem, List.mem_flatMap, List.mem_flatten]
    constructor
    · rintro ⟨p, mem, inside⟩
      cases p with
      | text s => cases inside
      | argument j =>
        have below := (given j).mp mem
        rw [Piece.shown, List.getElem?_eq_getElem below] at inside
        exact ⟨each[j], List.getElem_mem below, inside⟩
    · rintro ⟨indices, mem, inside⟩
      obtain ⟨j, below, rfl⟩ := List.mem_iff_getElem.mp mem
      refine ⟨.argument j, (given j).mpr below, ?_⟩
      rwa [Piece.shown, List.getElem?_eq_getElem below]
  inOrder := by
    intro unnumbered
    have inTurn : (List.range each.length).flatMap (fun i => (each[i]?).getD []) = each.flatten := by
      rw [List.flatMap_def]
      refine congrArg List.flatten (List.ext_getElem (by simp) fun i below below' => ?_)
      simp [List.getElem?_eq_getElem below']
    rw [Piece.flatMap_shown, ordered unnumbered, inTurn]
    exact numbers.inOrder unnumbered

end Numbers

end EdmQuery
