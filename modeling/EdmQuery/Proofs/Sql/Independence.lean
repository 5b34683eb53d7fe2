import Mathlib
import EdmQuery.Proofs.Expr.Scoping
import EdmQuery.Proofs.Sql.Condition

/-! The values that filters and searches bring become parameters and never stand in SQL. -/

namespace EdmQuery

/-- A value of the kind of a scalar that says nothing else about it; enumerations are kept. -/
def Scalar.blank : Scalar → Scalar
  | .boolean _ => .boolean false
  | .integer _ => .integer 0
  | .decimal _ => .decimal .zero
  | .double _ => .double 0
  | .string _ => .string ""
  | .date _ => .date ⟨1970, 1, 1, by decide⟩
  | .dateTime _ => .dateTime ⟨⟨1970, 1, 1, by decide⟩, ⟨0, 0, 0, 0, by decide⟩, 0⟩
  | .timeOfDay _ => .timeOfDay ⟨0, 0, 0, 0, by decide⟩
  | .duration _ => .duration ⟨0, by decide⟩
  | .guid _ => .guid ⟨0⟩
  | .enum type value => .enum type value

/-- A value of the kind of another one, which is kept if it is null or a collection. -/
def Value.blank : Value → Value
  | .scalar s => .scalar s.blank
  | value => value

namespace Expression

mutual

/--
The expression with a value of its kind in the place of each literal.

Literals that are null, enumerations or collections are kept.
-/
def masked : Expression → Expression
  | literal value => literal value.blank
  | property scope p => property scope p
  | hop scope navigation target inner => hop scope navigation target inner.masked
  | item name element => item name element
  | not operand => not operand.masked
  | negate operand => negate operand.masked
  | binary op left right => binary op left.masked right.masked
  | oneOf operand items => oneOf operand.masked (allMasked items)
  | call function arguments type => call function (allMasked arguments) type
  | nonEmpty scope source => nonEmpty scope source
  | quantified scope source quantifier name predicate =>
    quantified scope source quantifier name predicate.masked

/-- Several expressions with a value of its kind in the place of each literal. -/
def allMasked : List Expression → List Expression
  | [] => []
  | x :: rest => x.masked :: allMasked rest

end

/-- A blank value has the kind that was asked for. -/
@[simp] theorem typeOfValue_blank (value : Value) : typeOfValue value.blank = typeOfValue value := by
  rcases value with _ | s | _
  · rfl
  · cases s <;> rfl
  · rfl

/-- Types do not depend on the values of literals. -/
@[simp] theorem type_masked (x : Expression) : x.masked.type = x.type := by
  induction x using Expression.induction with
  | literal value => exact typeOfValue_blank value
  | hop _ _ _ _ ih => exact ih
  | negate _ ih => exact ih
  | binary op left right ihLeft ihRight => simp only [masked, type, ihLeft, ihRight]
  | _ => rfl

/-- Null literals stay what they are, and no other literal becomes one. -/
@[simp] theorem isNullLiteral_masked (x : Expression) : x.masked.isNullLiteral = x.isNullLiteral := by
  cases x with
  | literal value => cases value <;> rfl
  | _ => rfl

/-- Durations are told by their type. -/
@[simp] theorem isDuration_masked (x : Expression) : isDuration x.masked = isDuration x := by
  rw [isDuration, isDuration, type_masked]

/-- Integers are told by their type. -/
@[simp] theorem isIntegral_masked (x : Expression) : isIntegral x.masked = isIntegral x := by
  rw [isIntegral, isIntegral, type_masked]

/-- There are as many expressions as before. -/
@[simp] theorem length_allMasked (items : List Expression) :
    (allMasked items).length = items.length := by
  induction items with
  | nil => rfl
  | cons x rest ih => rw [allMasked, List.length_cons, List.length_cons, ih]

/-- The joins of several expressions depend on values as little as those of each one. -/
theorem joinsFromList_masked {resolve : Resolver} {root current : PathEnd}
    {items : List Expression}
    (each : ∀ x ∈ items, joinsFrom resolve root current x.masked = joinsFrom resolve root current x) :
    joinsFromList resolve root current (allMasked items)
      = joinsFromList resolve root current items := by
  induction items with
  | nil => rfl
  | cons x rest ih =>
    obtain ⟨first, others⟩ := List.forall_mem_cons.mp each
    simp only [allMasked, joinsFromList, first, ih others]

/-- The joins of an expression do not depend on the values of literals. -/
theorem joinsFrom_masked (resolve : Resolver) (root current : PathEnd) (x : Expression) :
    joinsFrom resolve root current x.masked = joinsFrom resolve root current x := by
  induction x using Expression.induction generalizing current with
  | hop scope n target inner ih =>
    cases scope <;> simp only [masked, joinsFrom, ih]
  | not _ ih => exact ih current
  | negate _ ih => exact ih current
  | binary op left right ihLeft ihRight => simp only [masked, joinsFrom, ihLeft, ihRight]
  | oneOf operand items ih ihItems =>
    simp only [masked, joinsFrom, ih, joinsFromList_masked fun x mem => ihItems x mem current]
  | call f arguments type ihItems =>
    simp only [masked, joinsFrom, joinsFromList_masked fun x mem => ihItems x mem current]
  | _ => rfl

end Expression

/-- Two states of a statement that differ in the values of their parameters only. -/
structure Builder.Alike (b b' : Builder) : Prop where
  parameters : b.parameters.length = b'.parameters.length
  joins : b.joins = b'.joins
  depth : b.depth = b'.depth

namespace Builder.Alike

variable {b b' b'' : Builder}

/-- Equal states are alike. -/
protected theorem refl (b : Builder) : b.Alike b :=
  ⟨rfl, rfl, rfl⟩

/-- Being alike has no direction. -/
protected theorem symm (alike : b.Alike b') : b'.Alike b :=
  ⟨alike.parameters.symm, alike.joins.symm, alike.depth.symm⟩

/-- What is alike to a third state is alike. -/
protected theorem trans (alike : b.Alike b') (alike' : b'.Alike b'') : b.Alike b'' :=
  ⟨alike.parameters.trans alike'.parameters, alike.joins.trans alike'.joins,
    alike.depth.trans alike'.depth⟩

end Builder.Alike

/-- Two steps from states that are alike have the same outcome and lead to states that are alike. -/
def Compile.Matches {α : Type} (step step' : Compile α) : Prop :=
  ∀ b b', b.Alike b' →
    (step.run b).1 = (step'.run b').1 ∧ (step.run b).2.Alike (step'.run b').2

namespace Compile.Matches

variable {α β : Type} {step step' step'' : Compile α}

/-- Matching has no direction. -/
protected theorem symm (first : Matches step step') : Matches step' step := by
  intro b b' alike
  obtain ⟨same, after⟩ := first b' b alike.symm
  exact ⟨same.symm, after.symm⟩

/-- Steps that match a third one match. -/
protected theorem trans (first : Matches step step') (second : Matches step' step'') :
    Matches step step'' := by
  intro b b' alike
  obtain ⟨same, after⟩ := first b b (.refl b)
  obtain ⟨same', after'⟩ := second b b' alike
  exact ⟨same.trans same', after.trans after'⟩

/-- A value that is returned leaves the states as they are. -/
protected theorem pure (a : α) : Matches (Pure.pure a) (Pure.pure a) :=
  fun _ _ alike => ⟨rfl, alike⟩

/-- An outcome that is known beforehand leaves the states as they are. -/
theorem known (r : Except SqlError α) : Matches (EdmQuery.known r) (EdmQuery.known r) :=
  fun _ _ alike => ⟨rfl, alike⟩

/-- A refusal leaves the states as they are. -/
theorem unsupported (reason : String) :
    Matches (EdmQuery.unsupported reason : Compile α) (EdmQuery.unsupported reason) :=
  fun _ _ alike => ⟨rfl, alike⟩

/-- Two steps match two others when each does. -/
theorem bind {next next' : α → Compile β} (first : Matches step step')
    (second : ∀ a, Matches (next a) (next' a)) : Matches (step >>= next) (step' >>= next') := by
  intro b b' alike
  obtain ⟨same, between⟩ := first b b' alike
  rw [run_bind, run_bind]
  -- Both first steps have the same outcome, so both go on or both end.
  rcases found : step.run b with ⟨fault | a, after⟩ <;>
    rcases found' : step'.run b' with ⟨fault' | a', after'⟩ <;>
    rw [found, found'] at same between
  · cases same
    exact ⟨rfl, between⟩
  · cases same
  · cases same
  · cases same
    exact second a after after' between

/-- Steps that look at the state match when they do for states that are alike. -/
theorem get_bind {next next' : Builder → Compile β}
    (second : ∀ b b', b.Alike b' → Matches (next b) (next' b')) :
    Matches (get >>= next) (get >>= next') := by
  intro b b' alike
  exact second b b' alike b b' alike

/-- States that are alike may be set. -/
theorem set {b b' : Builder} (alike : b.Alike b') :
    Matches (MonadStateOf.set b : Compile PUnit) (MonadStateOf.set b') :=
  fun _ _ _ => ⟨rfl, alike⟩

/-- Changes that keep states alike match. -/
theorem modify {change : Builder → Builder}
    (keeps : ∀ b b', b.Alike b' → (change b).Alike (change b')) :
    Matches (modifyThe Builder change : Compile PUnit) (modifyThe Builder change) :=
  fun b b' alike => ⟨rfl, keeps b b' alike⟩

/-- Steps that are refused under some condition match when they do without it. -/
theorem guarded {p : Prop} [Decidable p] {reason : String} {next next' : Unit → Compile β}
    (first : Matches (next ()) (next' ())) :
    Matches (if p then EdmQuery.unsupported reason >>= next else next ())
      (if p then EdmQuery.unsupported reason >>= next' else next' ()) := by
  split
  · exact .bind (.unsupported reason) fun _ => first
  · exact first

/-- A parameter that is bound is numbered alike, whatever its value is. -/
theorem bindValue (value value' : Value) :
    Matches (EdmQuery.bindValue value) (EdmQuery.bindValue value') := by
  intro b b' alike
  refine ⟨?_, ?_, alike.joins, alike.depth⟩
  · show Except.ok (SqlTerm.parameter (b.parameters.length + 1))
      = Except.ok (SqlTerm.parameter (b'.parameters.length + 1))
    rw [alike.parameters]
  · show (b.parameters ++ [value]).length = (b'.parameters ++ [value']).length
    rw [List.length_append, List.length_append, alike.parameters, List.length_singleton,
      List.length_singleton]

end Compile.Matches

open Compile

/-- A literal has the term of its blank form, or both of them become parameters. -/
theorem literalTerm_matches (value : Value) :
    Matches (literalTerm value.blank) (literalTerm value) := by
  rcases value with _ | s | _
  · exact .pure _
  · cases s with
    | enum => exact .pure _
    | _ => exact .bindValue _ _
  · exact .unsupported _

/-- Quantifiers are opened alike and have the same number. -/
theorem openQuantifier_matches : Matches openQuantifier openQuantifier := by
  refine .get_bind fun b b' alike => ?_
  rw [alike.depth]
  exact .bind (.set ⟨alike.parameters, alike.joins, rfl⟩) fun _ => .pure _

/-- Quantifiers are closed alike. -/
theorem closeQuantifier_matches : Matches closeQuantifier closeQuantifier :=
  .modify fun _ _ alike => ⟨alike.parameters, alike.joins, congrArg (· - 1) alike.depth⟩

namespace Expression

variable (ctx : SqlContext)

/-- Several expressions have the same terms as their masked forms when each one has. -/
theorem terms_matches {locals : List (String × TableFrame)} {current : TableFrame}
    {items : List Expression}
    (each : ∀ x ∈ items, Matches (x.masked.term ctx locals current) (x.term ctx locals current)) :
    Matches (terms ctx locals current (allMasked items)) (terms ctx locals current items) := by
  induction items with
  | nil => exact .pure _
  | cons x rest ih =>
    obtain ⟨first, others⟩ := List.forall_mem_cons.mp each
    rw [allMasked, terms, terms]
    exact .bind first fun _ => .bind (ih others) fun _ => .pure _

/-- An expression has the term of its masked form; their parameters may have other values. -/
theorem term_matches (locals : List (String × TableFrame)) (current : TableFrame)
    (x : Expression) :
    Matches (x.masked.term ctx locals current) (x.term ctx locals current) := by
  -- Every choice that a step makes looks at shapes, types and depth, which masking keeps.
  induction x using Expression.induction generalizing locals current with
  | literal value =>
    rw [masked, term, term]
    exact literalTerm_matches value
  | property scope p =>
    rw [masked, term]
    split
    · exact .bind (.pure _) fun _ => .pure _
    · exact .bind (.known _) fun _ => .pure _
  | hop scope n target inner ih =>
    rw [masked, term, term]
    have joined (parent : Option String) : Matches
        (do
          let table ← EdmQuery.known (ctx.resolve.table target)
          inner.masked.term ctx locals ⟨joinAlias parent n.name, table.type⟩)
        (do
          let table ← EdmQuery.known (ctx.resolve.table target)
          inner.term ctx locals ⟨joinAlias parent n.name, table.type⟩) :=
      .bind (.known _) fun table => ih locals _
    refine .get_bind fun b b' alike => ?_
    rw [alike.depth]
    cases scope with
    | root => exact .guarded (.bind (.pure _) joined)
    | current => exact .guarded (.bind (.pure _) joined)
    | bound name => exact .guarded (.bind (.unsupported _) joined)
  | item name element =>
    rw [masked, term]
    exact .unsupported _
  | not operand ih =>
    rw [masked, term, term]
    exact .bind (ih locals current) fun _ => .pure _
  | negate operand ih =>
    rw [masked, term, term, isDuration_masked]
    split
    · exact .unsupported _
    · exact .bind (ih locals current) fun _ => .pure _
  | binary op left right ihLeft ihRight =>
    have first := ihLeft locals current
    have second := ihRight locals current
    rw [masked, term, term]
    simp only [isNullLiteral_masked, isDuration_masked, isIntegral_masked]
    split
    · exact .bind second fun _ => .pure _
    split
    · exact .bind first fun _ => .pure _
    split
    · exact .unsupported _
    · refine .bind first fun _ => .bind second fun _ => ?_
      split
      · exact .pure _
      · exact .pure _
  | oneOf operand items ih ihItems =>
    rw [masked, term, term]
    exact .bind (ih locals current) fun _ =>
      .bind (terms_matches ctx fun x mem => ihItems x mem locals current) fun _ => .pure _
  | call f arguments type ihItems =>
    rw [masked, term, term, length_allMasked]
    exact .bind (.known _) fun _ =>
      .bind (terms_matches ctx fun x mem => ihItems x mem locals current) fun _ => .pure _
  | nonEmpty scope source =>
    rw [masked, term]
    refine .bind (.known _) fun _ => .bind (.known _) fun _ => .bind (.known _) fun _ => ?_
    exact .bind openQuantifier_matches fun _ => .bind closeQuantifier_matches fun _ => .pure _
  | quantified scope source quantifier name predicate ih =>
    rw [masked, term, term]
    refine .bind (.known _) fun _ => .bind (.known _) fun _ => .bind (.known _) fun _ => ?_
    refine .bind openQuantifier_matches fun _ => .bind (ih _ _) fun _ => ?_
    refine .bind closeQuantifier_matches fun _ => ?_
    cases quantifier with
    | any => exact .pure _
    | all => exact .pure _

end Expression

/-- A filter has the condition of its masked form; their parameters may have other values. -/
theorem compileFilter_matches (ctx : SqlContext) (x : Expression) :
    Matches (compileFilter ctx x.masked) (compileFilter ctx x) := by
  rw [compileFilter, compileFilter, discoverJoins, discoverJoins, Expression.joinsFrom_masked]
  refine .bind (.known _) fun joins => .bind (.modify fun b b' alike => ?_) fun _ =>
    x.term_matches ctx [] ctx.rootFrame
  exact ⟨alike.parameters, congrArg (addJoins · joins) alike.joins, alike.depth⟩

/-- The search with nothing in the place of each term. -/
def Search.masked : Search → Search
  | .term _ => .term ""
  | .and left right => .and left.masked right.masked
  | .or left right => .or left.masked right.masked
  | .not operand => .not operand.masked

/-- The tests of columns are numbered alike, whatever is searched for. -/
theorem textTests_matches (caseSensitive : Bool) (text text' : String) (columns : List Column) :
    Matches (textTests caseSensitive text columns) (textTests caseSensitive text' columns) := by
  induction columns with
  | nil => exact .pure _
  | cons column rest ih =>
    rw [textTests, textTests]
    refine .get_bind fun b b' alike => ?_
    rw [alike.parameters]
    refine .bind (.set ⟨?_, alike.joins, alike.depth⟩) fun _ => .bind ih fun _ => .pure _
    rw [List.length_append, List.length_append, alike.parameters, List.length_singleton,
      List.length_singleton]

/-- A search has the condition of its masked form; their parameters may have other values. -/
theorem compileSearch_matches (ctx : SqlContext) (caseSensitive : Bool) (search : Search) :
    Matches (compileSearch ctx caseSensitive search.masked)
      (compileSearch ctx caseSensitive search) := by
  induction search with
  | term text =>
    rw [Search.masked, compileSearch, compileSearch]
    exact .bind (textTests_matches caseSensitive "" text _) fun _ => .pure _
  | and left right ihLeft ihRight =>
    rw [Search.masked, compileSearch, compileSearch]
    exact .bind ihLeft fun _ => .bind ihRight fun _ => .pure _
  | or left right ihLeft ihRight =>
    rw [Search.masked, compileSearch, compileSearch]
    exact .bind ihLeft fun _ => .bind ihRight fun _ => .pure _
  | not operand ih =>
    rw [Search.masked, compileSearch, compileSearch]
    exact .bind ih fun _ => .pure _

/-- Two outcomes with the same fault, or with the same text and joins and as many parameters. -/
def SameText (d : Dialect) (r r' : Except SqlError SqlTerm × Builder) : Prop :=
  (∃ fault, r.1 = .error fault ∧ r'.1 = .error fault) ∨
    ∃ condition condition', r.1 = .ok condition ∧ r'.1 = .ok condition' ∧
      condition.text d = condition'.text d ∧ r.2.joins = r'.2.joins ∧
      r.2.parameters.length = r'.2.parameters.length

/-- Steps that match have outcomes with the same text. -/
theorem Compile.Matches.sameText {step step' : Compile SqlTerm} (first : Matches step step')
    {b b' : Builder} (alike : b.Alike b') (d : Dialect) :
    SameText d (step.run b) (step'.run b') := by
  obtain ⟨same, alike⟩ := first b b' alike
  cases found : (step.run b).1 with
  | error fault => exact .inl ⟨fault, found, same.symm.trans found⟩
  | ok condition =>
    exact .inr ⟨condition, condition, found, same.symm.trans found, rfl, alike.joins,
      alike.parameters⟩

/--
What a filter or a search brings does not reach the text of its condition.

Filters whose literals differ in their values only, not in their kinds, are refused alike, or they
become the same text over the same joins with as many parameters; so do searches of the same shape.
-/
theorem values_stay_out_of_text (ctx : SqlContext) {b b' : Builder} (alike : b.Alike b') :
    (∀ x y : Expression, x.masked = y.masked →
      SameText ctx.dialect ((compileFilter ctx x).run b) ((compileFilter ctx y).run b')) ∧
    ∀ (caseSensitive : Bool) (x y : Search), x.masked = y.masked →
      SameText ctx.dialect ((compileSearch ctx caseSensitive x).run b)
        ((compileSearch ctx caseSensitive y).run b') := by
  -- Both members of a pair match the masked form that they have in common.
  constructor
  · intro x y same
    have first := (compileFilter_matches ctx x).symm
    rw [same] at first
    exact (first.trans (compileFilter_matches ctx y)).sameText alike ctx.dialect
  · intro caseSensitive x y same
    have first := (compileSearch_matches ctx caseSensitive x).symm
    rw [same] at first
    exact (first.trans (compileSearch_matches ctx caseSensitive y)).sameText alike ctx.dialect

/-- The column that holds the texts of memos. -/
def memoText : Property :=
  ⟨"text", .primitive .string, true, true, none⟩

/-- What conditions on memos, which have only a text, are written for. -/
def memos : SqlContext :=
  ⟨.sqlite, ⟨"memos", ⟨"Memo", none, [memoText], []⟩⟩, fun _ => none⟩

/-- Whether the text of a memo is a given one. -/
def textIs (text : String) : Expression :=
  .binary .eq (.property .root memoText) (.literal (.string text))

/-- Two memos are looked for by one text of SQL, even if what is looked for is written like SQL. -/
theorem values_stay_out_of_text_of_memos :
    (compileFilter memos (textIs "a")).run .empty
        = (.ok (.binary .eq (.column ⟨"$it", "text"⟩) (.parameter 1)), ⟨[.string "a"], [], 0⟩) ∧
      (textIs "a").masked = (textIs "' OR '1' = '1").masked ∧
      SameText .sqlite ((compileFilter memos (textIs "a")).run .empty)
        ((compileFilter memos (textIs "' OR '1' = '1")).run .empty) ∧
      (Search.term "a").masked = (Search.term "%").masked ∧
      SameText .sqlite ((compileSearch memos false (.term "a")).run .empty)
        ((compileSearch memos false (.term "%")).run .empty) := by
  have stays := values_stay_out_of_text memos (.refl .empty)
  exact ⟨rfl, rfl, stays.1 _ _ rfl, rfl, stays.2 false _ _ rfl⟩

end EdmQuery
