import Mathlib
import EdmQuery.Proofs.Expr.Rereading

/-! Filters are read from their printed form as they are, where the form is legible and shallow. -/

namespace EdmQuery

/-- A decimal that was read from a text without an exponent has a sign only if it is not zero. -/
theorem Number.Decimal.isUnsignedZero_of_plain {text : String} {d : Decimal}
    (plain : 'e' ∉ text.toList ∧ 'E' ∉ text.toList) (read : Decimal.read text = some d) :
    d.IsUnsignedZero := by
  rcases Option.or_eq_some_iff.mp read with digits | ⟨-, scientific⟩
  · exact Progress.isUnsignedZero_of_read digits
  · have unmarked : text.toList.dropWhile (fun c => !(c == 'e' || c == 'E')) = [] := by
      rw [List.dropWhile_eq_nil_iff]
      intro c mem
      have lower : c ≠ 'e' := fun same => plain.1 (same ▸ mem)
      have upper : c ≠ 'E' := fun same => plain.2 (same ▸ mem)
      simp [lower, upper]
    rw [readScientific] at scientific
    simp only [unmarked] at scientific
    cases scientific

/-- A literal is read again as what it was, unless it is a decimal without places. -/
theorem Expression.Spells.reread_eq {c : FilterContext} {tokens : List Token} {t : Token}
    {value : Value} (wrote : Spells c t value) (scanned : tokenize c.input = .ok tokens)
    (mem : t ∈ tokens) (scaled : ∀ d, value = .decimal d → d.scale ≠ 0) : value.reread = value := by
  rcases Token.value_ok wrote.2 with rfl | ⟨s, rfl, kind⟩
  · rfl
  cases s with
  | decimal d =>
    have signed := Number.Decimal.isUnsignedZero_of_plain (tokenize_number scanned mem kind.1) kind.2
    rw [Value.reread, Number.Decimal.reread,
      Number.Decimal.read_toLiteral_self (scaled d rfl) signed, Option.getD_some]
  | _ => rfl

namespace Expression

/-- The literals of an expression that was read are those of tokens. -/
theorem ReadFrom.literals_spelled {c : FilterContext} {tokens : List Token} {binders : List Binder}
    {start : Option (Scope × Frame)} {x : Expression} (read : x.ReadFrom c tokens binders start) :
    ∀ value ∈ x.literals, ∃ t ∈ tokens, Spells c t value := by
  have all {items : List Expression} (each : ∀ x ∈ items, ∀ value ∈ x.literals,
      ∃ t ∈ tokens, Spells c t value) : ∀ value ∈ allLiterals items, ∃ t ∈ tokens, Spells c t value := by
    induction items with
    | nil => exact List.forall_mem_nil _
    | cons x rest ih =>
      obtain ⟨first, others⟩ := List.forall_mem_cons.mp each
      exact List.forall_mem_append.mpr ⟨first, ih others⟩
  induction read with
  | literal mem spelled => exact List.forall_mem_singleton.mpr ⟨_, mem, spelled⟩
  | rooted _ ih => exact ih
  | through _ _ ih => exact ih
  | not _ _ ih => exact ih
  | negate _ _ ih => exact ih
  | binary _ _ _ ihLeft ihRight => exact List.forall_mem_append.mpr ⟨ihLeft, ihRight⟩
  | oneOf _ _ _ _ ih ihItems => exact List.forall_mem_append.mpr ⟨ih, all ihItems⟩
  | call _ _ ihItems => exact all ihItems
  | hop _ _ _ _ _ _ _ _ ih => exact ih
  | quantified _ _ _ _ _ _ _ _ _ _ ih => exact ih
  | item | property | nonEmpty => exact List.forall_mem_nil _

/-- Tokens that a legible condition is written in are read as the condition. -/
theorem Parses.ofTokens {c : FilterContext} {x : Expression} {tokens : List Token}
    (parses : Parses c [] false x) (told : tokens.map Token.lexeme = x.lexemes false)
    (shallow : x.nesting < c.model.config.maxDepth) (fit : x.type.isBoolean = true) :
    Expression.ofTokens c tokens = .ok (x.withLiterals Value.reread) := by
  have some_ : tokens.isEmpty = false := by
    cases tokens with
    | nil => exact absurd told.symm (lexemes_ne_nil false x)
    | cons => rfl
  have enough : 8 * tokens.length + 2 ≤ parseFuel tokens := by
    rw [parseFuel]
    omega
  have parsed : parseExpression c (parseFuel tokens) 0 [] 0 (tokens ++ [])
      = .ok (x.withLiterals Value.reread, []) :=
    parses.expression told enough (by omega) (Ends.nil.detached x) (Ends.nil.halts 0)
  rw [List.append_nil] at parsed
  rw [Expression.ofTokens, some_]
  simp only [Bool.false_eq_true, if_false, parsed, type_withLiterals Value.typeOfValue_reread, fit,
    if_true]

end Expression

/-- A filter is read from its printed form as itself, where the form is legible and shallow.

Numbers that are not are alike, and the tree is the very same unless it has a decimal without
places, which is printed with one. The printed form has parentheses that the text may lack, so
that it can be nested more deeply than the text and than is allowed. -/
theorem parseFilter_toText {m : Model} {set input : String} {x : Expression}
    (read : parseFilter m set input = .ok x) (legible : x.isLegible false = true)
    (shallow : x.nesting < m.config.maxDepth) :
    ∃ y, parseFilter m set x.toText = .ok y ∧ x.alike y = true ∧
      ((∀ d, .decimal d ∈ x.literals → d.scale ≠ 0) → y = x) := by
  obtain ⟨s, tokens, present, scanned, readFrom, fit⟩ := parseFilter_sound read
  have prints := readFrom.prints scanned (List.forall_mem_nil _) (by simp) legible
  obtain ⟨again, scannedAgain, told⟩ := (prints .nil).tokenize
  have parses : Expression.Parses ⟨m, x.toText, ⟨s.name, s.type⟩⟩ [] false x :=
    readFrom.parses scanned x.toText legible (fun _ => rfl) (List.forall_mem_nil _)
  refine ⟨x.withLiterals Value.reread, ?_, Expression.alike_withLiterals Value.alike_reread x,
    fun scaled => Expression.withLiterals_eq fun value among => ?_⟩
  · have scannedAgain : tokenize x.toText = .ok again := scannedAgain
    rw [parseFilter, present]
    simp only [scannedAgain]
    exact parses.ofTokens told shallow fit
  · obtain ⟨t, mem, spelled⟩ := readFrom.literals_spelled value among
    exact spelled.reread_eq scanned mem fun d same => scaled d (same ▸ among)

/-- Entities with a whole number as their key that are switched on or off. -/
def lampType : EntityType :=
  ⟨"Lamp", some "id", [⟨"id", .primitive (.integer .int32), false, false, none⟩,
    ⟨"on", .primitive .boolean, true, false, none⟩], []⟩

/-- A model with a set of such entities. -/
def lampModel : Model :=
  ⟨.default, [], [lampType], [⟨"lamps", lampType, .all, .memory⟩], []⟩

/-- Lamps that are on and those with one of two keys, the greater one among the opposites. -/
def lampFilter : Expression :=
  .binary .or (.not (.not (.property .root ⟨"on", .primitive .boolean, true, false, none⟩)))
    (.oneOf (.property .root ⟨"id", .primitive (.integer .int32), false, false, none⟩)
      [.literal (.integer 1), .negate (.literal (.integer (-2)))])

/-- A filter of lamps is read from its printed form. -/
theorem parseFilter_toText_of_lamps :
    parseFilter lampModel "lamps" "not not on or id in (1, - -2)" = .ok lampFilter ∧
      lampFilter.toText = "(not (not (on)) or (id in (1, -(-2))))" ∧
      parseFilter lampModel "lamps" lampFilter.toText = .ok lampFilter := by
  have read : parseFilter lampModel "lamps" "not not on or id in (1, - -2)" = .ok lampFilter := by
    cbv
  obtain ⟨y, again, -, same⟩ := parseFilter_toText read (by decide) (by decide)
  refine ⟨read, by decide, ?_⟩
  rw [again, same fun d mem => by simp [lampFilter] at mem]

/-- The printed form of a negation in front of a list of alternatives is read as another filter. -/
theorem toText_is_misread :
    let on : Expression := .property .root ⟨"on", .primitive .boolean, true, false, none⟩
    let truths : List Expression := [.literal (.boolean true), .literal (.boolean false)]
    parseFilter lampModel "lamps" "(not on) in (true, false)" = .ok (.oneOf (.not on) truths) ∧
      parseFilter lampModel "lamps" (Expression.toText (.oneOf (.not on) truths))
        = .ok (.not (.oneOf on truths)) ∧
      (Expression.oneOf (.not on) truths).alike (.not (.oneOf on truths)) = false := by
  intro on truths
  exact ⟨by cbv, by cbv, rfl⟩

end EdmQuery
