import Mathlib
import EdmQuery.Proofs.Edm.Comparison
import EdmQuery.Proofs.Edm.Enumeration
import EdmQuery.Proofs.Expr.Alike
import EdmQuery.Proofs.Expr.Literals
import EdmQuery.Proofs.Expr.Reading

/-! The literals of a tree that was read, and what they are read as when they are written again. -/

namespace EdmQuery

open Text Number Calendar Recognizer

/-! What a token with a value says. -/

namespace Token

section

variable {t : Token} {m : Model} {input : String} {value : Value}

/-- A value was found for a token that is not refused. -/
theorem orInvalid_ok {what : String} {found : Option Scalar}
    (read : t.orInvalid input what found = .ok value) : ∃ s, found = some s ∧ value = .scalar s := by
  cases found with
  | none => cases read
  | some s =>
    cases read
    exact ⟨s, rfl, rfl⟩

/-- The value of an enumeration is not one of another kind. -/
theorem enumValue_ok (read : t.enumValue m input = .ok value) : ∃ name members e number,
    enumParts t.text = some (name, members) ∧ m.enumeration? name = some e ∧
      value = .enum e number := by
  rw [enumValue] at read
  split at read
  · cases read
  rename_i name members parts
  split at read
  · cases read
  rename_i e known
  split at read
  · cases read
  rename_i number _
  cases read
  exact ⟨name, members, e, number, parts, known, rfl⟩

/-- A value that is no collection has a token of a kind that goes with its own. -/
theorem value_ok (read : t.value m input = .ok value) :
    value = .null ∨ ∃ s, value = .scalar s ∧ match s with
      | .date d => t.kind = .date ∧ parseDate t.text = some d
      | .dateTime d => t.kind = .dateTimeOffset ∧ parseDateTime t.text = some d
      | .decimal d => (t.kind = .integer ∨ t.kind = .decimal) ∧ Decimal.read t.text = some d
      | .enum e _ => t.kind = .enum ∧ ∃ name members,
          enumParts t.text = some (name, members) ∧ m.enumeration? name = some e
      | _ => True := by
  unfold Token.value at read
  split at read
  case h_6 =>
    cases read
    exact .inl rfl
  case h_12 kind =>
    obtain ⟨name, members, e, number, parts, known, rfl⟩ := enumValue_ok read
    exact .inr ⟨_, rfl, kind, name, members, parts, known⟩
  case h_13 => cases read
  case h_1 =>
    cases read
    exact .inr ⟨_, rfl, trivial⟩
  case h_5 =>
    cases read
    exact .inr ⟨_, rfl, trivial⟩
  case h_2 kind =>
    obtain ⟨s, found, rfl⟩ := orInvalid_ok read
    rw [integer?] at found
    split at found
    · cases found
      exact .inr ⟨_, rfl, trivial⟩
    · obtain ⟨d, decimal, rfl⟩ := Option.map_eq_some_iff.mp found
      exact .inr ⟨_, rfl, .inl kind, decimal⟩
  all_goals
    rename_i kind
    obtain ⟨s, found, rfl⟩ := orInvalid_ok read
    obtain ⟨d, parsed, rfl⟩ := Option.map_eq_some_iff.mp found
    refine .inr ⟨_, rfl, ?_⟩
  case h_3 => exact ⟨.inr kind, parsed⟩
  case h_7 => exact ⟨kind, parsed⟩
  case h_8 => exact ⟨kind, parsed⟩
  all_goals trivial

end

end Token

/-! The names of enumerations. -/

namespace Recognizer

/-- A name that starts with a reserved word is that word. -/
theorem Identifier.word {chars : List Char} (name : Identifier chars) (free : chars ∉ reserved) :
    Word chars := by
  refine ⟨⟨chars, [], by simp, name, by simp⟩, ?_⟩
  obtain ⟨lead, first, more, rfl, rfl | rfl, letter, all⟩ := name
  · -- Nothing of the name is behind the run that could be reserved.
    have letters : ∀ c ∈ first :: more, isNameChar c = true := by
      refine List.forall_mem_cons.mpr ⟨?_, all⟩
      rcases Bool.or_eq_true_iff.mp letter with letter | line
      · exact isNameChar_of_isAlphabetic letter
      · rw [isNameChar, line, Bool.or_true]
    rw [List.nil_append] at free ⊢
    rwa [List.takeWhile_eq_self_iff.mpr letters]
  · -- A dollar sign goes on with no word.
    rw [List.singleton_append, List.takeWhile_cons_of_neg (by decide)]
    decide

/-- The last of some names with points between them is a name. -/
theorem Qualified.last {chars : List Char} (name : Qualified chars) :
    Identifier (chars.reverse.takeWhile (· != '.')).reverse := by
  obtain ⟨first, others, rfl, start, names⟩ := name
  have plain {name : List Char} (identifier : Identifier name) :
      ∀ c ∈ name.reverse, (c != '.') = true := by
    intro c mem
    rw [bne_iff_ne]
    rintro rfl
    exact absurd (identifier.mem (List.mem_reverse.mp mem)) (by decide)
  rcases List.eq_nil_or_concat' others with rfl | ⟨front, last, rfl⟩
  · rw [List.flatMap_nil, List.append_nil, List.takeWhile_eq_self_iff.mpr (plain start),
      List.reverse_reverse]
    exact start
  · have identifier : Identifier last := names last (by simp)
    have split : (first ++ (front ++ [last]).flatMap ('.' :: ·)).reverse
        = last.reverse ++ '.' :: (first ++ front.flatMap ('.' :: ·)).reverse := by
      simp
    have point : Stops (· != '.') ('.' :: (first ++ front.flatMap ('.' :: ·)).reverse) := .cons rfl
    rw [split, point.takeWhile_append (plain identifier), List.reverse_reverse]
    exact identifier

end Recognizer

/-- The words that no literal of an enumeration starts with. -/
def unnameable : List String :=
  ["INF", "NaN", "true", "false", "null", "duration"]

/-- The text before the first quote is apart from the members between the quotes. -/
theorem enumParts_quoted {name members : List Char} (plain : '\'' ∉ name)
    (unquoted : '\'' ∉ members) {text : String}
    (split : text.toList = name ++ '\'' :: (members ++ ['\''])) :
    Token.enumParts text = some (String.ofList name, String.ofList members) := by
  have quote : Stops (· != '\'') ('\'' :: (members ++ ['\''])) := .cons rfl
  have all : ∀ c ∈ name, (c != '\'') = true := by
    intro c mem
    rw [bne_iff_ne]
    rintro rfl
    exact plain mem
  have single (chars : List Char) (none : '\'' ∉ chars) : Token.enumParts.undoubled chars = chars := by
    induction chars with
    | nil => rfl
    | cons c rest ih =>
      rw [List.mem_cons, not_or] at none
      rw [Token.enumParts.undoubled, ih none.2]
      rintro more rfl
      exact absurd rfl none.1
  rw [Token.enumParts, splitOnce, split, quote.takeWhile_append all, quote.dropWhile_append all]
  simp [single members unquoted]

section

variable {m : Model} {name : String} {e : Enumeration}

/-- An enumeration that was found by a name is found by its own one. -/
theorem Model.enumeration?_name (known : m.enumeration? name = some e) :
    (e.name = name ∨ e.name = shortName name) ∧ m.enumeration? e.name = some e := by
  rcases Option.or_eq_some_iff.mp known with whole | ⟨-, short⟩
  · have same : e.name = name := by simpa using List.find?_some whole
    refine ⟨.inl same, ?_⟩
    rw [same]
    exact known
  · have same : e.name = shortName name := by simpa using List.find?_some short
    refine ⟨.inr same, ?_⟩
    rw [enumeration?, same, short, Option.some_or]

/-- An enumeration that a token names has a name that a literal can start with. -/
theorem word_of_enumeration {input : String} {tokens : List Token} {t : Token} {members : String}
    (read : tokenize input = .ok tokens) (mem : t ∈ tokens) (kind : t.kind = .enum)
    (parts : Token.enumParts t.text = some (name, members)) (known : m.enumeration? name = some e)
    (free : e.name ∉ unnameable) : Word e.name.toList := by
  obtain ⟨front, back, text, word⟩ := tokenize_enum read mem kind
  have same : name.toList = front := by
    have plain : ∀ c ∈ front, (c != '\'') = true := by
      intro c mem
      rw [bne_iff_ne]
      rintro rfl
      exact absurd (word.1.mem mem) (by decide)
    have quote : Stops (· != '\'') ('\'' :: back) := .cons rfl
    rw [Token.enumParts, splitOnce, text] at parts
    simp only [quote.takeWhile_append plain, quote.dropWhile_append plain, Option.map_some,
      Option.some.injEq, Prod.mk.injEq] at parts
    rw [← parts.1, String.toList_ofList]
  rcases (Model.enumeration?_name known).1 with whole | short
  · rwa [whole, same]
  · rw [short, Model.shortName, String.toList_ofList, same]
    refine word.1.last.word fun listed => free ?_
    have text : e.name = String.ofList (front.reverse.takeWhile (· != '.')).reverse := by
      rw [short, Model.shortName, same]
    simp only [reserved, List.mem_cons, List.not_mem_nil, or_false] at listed
    rw [text]
    rcases listed with same | same | same | same | same <;> rw [same] <;> decide

end

/-! What literals are read as. -/

/-- The decimal that the literal of a decimal is read as. -/
def Number.Decimal.reread (d : Decimal) : Decimal :=
  (Decimal.read (Scalar.toLiteral (.decimal d))).getD d

namespace Number.Decimal

/-- The literal of a decimal is read. -/
theorem read_reread (d : Decimal) :
    Decimal.read (Scalar.toLiteral (.decimal d)) = some d.reread := by
  obtain ⟨d', read, -⟩ := read_toLiteral d
  rw [reread, read, Option.getD_some]

/-- A decimal is read as one with its value. -/
theorem compare_reread (d : Decimal) : d.compare d.reread = .eq := by
  obtain ⟨d', read, same⟩ := read_toLiteral d
  rw [reread, read, Option.getD_some]
  exact same

end Number.Decimal

/-- The value that the literal of a value is read as; only decimals are read in another form. -/
def Value.reread : Value → Value
  | .decimal d => .decimal d.reread
  | value => value

/-- A literal is read as a value of its type. -/
theorem Value.typeOfValue_reread (value : Value) :
    Expression.typeOfValue value.reread = Expression.typeOfValue value := by
  rcases value with _ | s | _
  · rfl
  · cases s <;> rfl
  · rfl

/-- A literal is read as a value like its own. -/
theorem Value.alike_reread (value : Value) : value.alike value.reread = true := by
  rcases value with _ | s | _
  · rfl
  · cases s with
    | decimal d =>
      have same : (Scalar.decimal d).same (.decimal d.reread) = true :=
        beq_iff_eq.mpr d.compare_reread
      rw [Value.alike, Value.reread, Value.same, same, Bool.true_or]
    | _ => exact Value.alike_refl _
  · exact Value.alike_refl _

/-- What the token of a literal says. -/
def Scalar.lexeme : Scalar → Lexeme
  | .boolean b => (.boolean, if b then "true" else "false")
  | .integer n => (.integer, toString n.toInt)
  | .decimal d => (.decimal, Scalar.toLiteral (.decimal d))
  | .double x => (.double, doubleText x)
  | .string s => (.string, s)
  | .date d => (.date, d.toText)
  | .dateTime t => (.dateTimeOffset, t.toText)
  | .timeOfDay t => (.timeOfDay, t.toText)
  | .duration d => (.duration, d.toText)
  | .guid g => (.guid, g.toText)
  | .enum e value => (.enum, e.name ++ "'" ++ e.written value ++ "'")

/-- What the token of a literal says; a collection has none. -/
def Value.lexeme : Value → Lexeme
  | .scalar s => s.lexeme
  | _ => (.null, "null")

/-- Whether the literal of a value tells the value; only those of enumerations may fail to. -/
def Value.isSpelled : Value → Bool
  | .enum e value => !unnameable.contains e.name && e.isSpelled value
  | _ => true

/-- A literal is one token wherever an operand may stand, and the token has its value again. -/
structure Value.IsLegible (c : FilterContext) (value : Value) : Prop where
  lexes : ∀ rest, Follows afterOperand rest → Lexes value.toLiteral.toList value.lexeme rest
  spells : ∀ t : Token, t.lexeme = value.lexeme → Expression.Spells c t value.reread

section

variable {c : FilterContext} {tokens : List Token} {t : Token} {value : Value}

/-- A legible literal is a text of some characters, for nothing is no token. -/
theorem Value.IsLegible.ne_nil (legible : value.IsLegible c) : value.toLiteral.toList ≠ [] := by
  intro none
  obtain ⟨position, behind, read⟩ := legible.lexes [] .nil 0
  rw [none] at read
  cases read

/-- A token says what its kind and its text are. -/
theorem Token.eq_of_lexeme {kind : TokenKind} {text : String} (same : t.lexeme = (kind, text)) :
    t = ⟨kind, text, t.position⟩ := by
  obtain ⟨k, s, p⟩ := t
  cases same
  rfl

/-- A literal is legible that is read as its token, from which its value is taken again. -/
theorem Value.IsLegible.of_token {kind : TokenKind} {text : String}
    (same : value.lexeme = (kind, text))
    (operand : kind ∉ [.identifier, .openParen, .closeParen, .comma, .slash, .colon, .minus])
    (lexes : ∀ rest, Follows afterOperand rest → Lexes value.toLiteral.toList (kind, text) rest)
    (taken : ∀ position, Token.value ⟨kind, text, position⟩ c.model c.input = .ok value.reread) :
    value.IsLegible c := by
  refine ⟨same ▸ lexes, fun t given => ?_⟩
  rw [Token.eq_of_lexeme (given.trans same)]
  exact ⟨operand, taken t.position⟩

/-- The value of an enumeration whose literal tells it is legible. -/
theorem Value.IsLegible.enum {e : Enumeration} {number : Int64} (word : Word e.name.toList)
    (known : c.model.enumeration? e.name = some e)
    (spelled : (Value.enum e number).isSpelled = true) : (Value.enum e number).IsLegible c := by
  simp only [Value.isSpelled, Bool.and_eq_true, Bool.not_eq_true', List.contains_eq_mem,
    decide_eq_false_iff_not] at spelled
  obtain ⟨free, spelled⟩ := spelled
  have plain := Enumeration.quote_not_mem_written spelled
  have apart : e.name.toList ≠ "duration".toList := by
    intro same
    exact free (by rw [String.toList_inj.mp same]; decide)
  have unquoted : '\'' ∉ e.name.toList := fun mem => absurd (word.1.mem mem) (by decide)
  have text : (e.name ++ "'" ++ e.written number ++ "'").toList
      = e.name.toList ++ '\'' :: ((e.written number).toList ++ ['\'']) := by
    have quote : "'".toList = ['\''] := rfl
    simp [quote]
  have parts := enumParts_quoted unquoted plain text
  rw [String.ofList_toList, String.ofList_toList] at parts
  refine .of_token rfl (by decide) (fun rest ends => ?_) fun position => ?_
  · have lexes := Lexes.enum word apart plain ends
    rw [← text, String.ofList_toList] at lexes
    exact lexes
  · simp only [Token.value, Token.enumValue, parts, known, Enumeration.parseMembers_written spelled,
      Value.reread]

/--
Whether a value can be told from its literal, whatever else there is in a model.

Years have four digits, since a sign in front of a year is none of the lexical forms of dates.
-/
def Value.IsPlain : Value → Prop
  | .scalar (.date d) => d.IsPlain
  | .scalar (.dateTime t) => t.IsPlain
  | .double _ | .enum _ _ | .collection _ => False
  | _ => True

/-- The literal of a plain value is legible. -/
theorem Value.IsLegible.of_plain (plain : value.IsPlain) : value.IsLegible c := by
  have word {letters : List Char} {kind : TokenKind} (listed : (letters, kind) ∈ keywords)
      (rest : List Char) (ends : Follows afterOperand rest) :
      Lexes letters (kind, String.ofList letters) rest := .keyword listed ends
  -- Every kind of value has a lexical form of its own, which no form that is tried before it takes.
  rcases value with _ | s | _
  · have null : (['n', 'u', 'l', 'l'], TokenKind.null) ∈ keywords := by simp [keywords]
    exact .of_token rfl (by decide) (word null) fun _ => rfl
  · cases s with
    | boolean b =>
      cases b
      · have no : (['f', 'a', 'l', 's', 'e'], TokenKind.boolean) ∈ keywords := by simp [keywords]
        exact .of_token rfl (by decide) (word no) fun _ => rfl
      · have yes : (['t', 'r', 'u', 'e'], TokenKind.boolean) ∈ keywords := by simp [keywords]
        exact .of_token rfl (by decide) (word yes) fun _ => rfl
    | integer n =>
      refine .of_token rfl (by decide) (fun rest => .integer n.toInt) fun position => ?_
      simp only [Token.value, Token.integer?, readInt64_toString]
      rfl
    | decimal d =>
      refine .of_token rfl (by decide) (fun rest => .decimal d) fun position => ?_
      simp only [Token.value, Decimal.read_reread]
      rfl
    | string text =>
      exact .of_token rfl (by decide) (fun rest ends => .string text (ends.head_ne (by decide)))
        fun _ => rfl
    | date d =>
      refine .of_token rfl (by decide) (fun rest => .date plain) fun position => ?_
      simp only [Token.value, parseDate_toText]
      rfl
    | dateTime t =>
      refine .of_token rfl (by decide) (fun rest => .dateTime plain) fun position => ?_
      simp only [Token.value, parseDateTime_toText plain]
      rfl
    | timeOfDay t =>
      refine .of_token rfl (by decide) (fun rest => .timeOfDay t) fun position => ?_
      simp only [Token.value, parseTimeOfDay_toText]
      rfl
    | duration d =>
      refine .of_token rfl (by decide) (fun rest => .duration d) fun position => ?_
      simp only [Token.value, Duration.parse_toText]
      rfl
    | guid g =>
      refine .of_token rfl (by decide) (fun rest => .guid g) fun position => ?_
      simp only [Token.value, Guid.parse_toText]
      rfl
    | double | enum => exact plain.elim
  · exact plain.elim

/-- A literal that was read is legible, unless it is of an enumeration that does not tell its value. -/
theorem Value.IsLegible.of_spells (read : tokenize c.input = .ok tokens) (mem : t ∈ tokens)
    (wrote : Expression.Spells c t value) (spelled : value.isSpelled = true) (text : String) :
    value.IsLegible { c with input := text } := by
  rcases Token.value_ok wrote.2 with rfl | ⟨s, rfl, kind⟩
  · exact .of_plain trivial
  cases s with
  | boolean | integer | decimal | string | timeOfDay | duration | guid => exact .of_plain trivial
  | double x =>
    refine .of_token rfl (by decide) (fun rest => .double x) fun position => ?_
    simp only [Token.value, double?_doubleText]
    rfl
  | date d =>
    -- A token of a date starts with a digit, so its year has no sign.
    obtain ⟨first, more, start, digit⟩ := tokenize_date read mem (by simp [kind.1])
    exact .of_plain (parseDate_plain start digit kind.2)
  | dateTime d =>
    obtain ⟨first, more, start, digit⟩ := tokenize_date read mem (by simp [kind.1])
    exact .of_plain (parseDateTime_plain start digit kind.2)
  | enum e number =>
    obtain ⟨kind, name, members, parts, known⟩ := kind
    have free : e.name ∉ unnameable := by
      simp only [Value.isSpelled, Bool.and_eq_true, Bool.not_eq_true', List.contains_eq_mem,
        decide_eq_false_iff_not] at spelled
      exact spelled.1
    exact .enum (word_of_enumeration read mem kind parts known free)
      (Model.enumeration?_name known).2 spelled

/-- A legible literal on its own is read as its value. -/
theorem parseLiteral_toLiteral (legible : value.IsLegible c) (whole : c.input = value.toLiteral) :
    parseLiteral c.model value.toLiteral = .ok value.reread := by
  have reads : Reads value.toLiteral.toList [value.lexeme] [] :=
    .one legible.ne_nil (legible.lexes [] .nil)
  obtain ⟨tokens, scanned, told⟩ := reads.tokenize
  obtain ⟨t, rfl, same⟩ := List.map_eq_singleton_iff.mp told
  -- The text has one token, and what that says is the value.
  have said := (legible.spells t same).2
  rw [whole] at said
  rw [parseLiteral, scanned]
  exact said

/-- A literal is read as the value itself, but for decimals, which may lack or have a place more. -/
theorem Value.reread_eq (exact_ : ∀ d, value ≠ .decimal d) : value.reread = value := by
  rcases value with _ | s | _
  · rfl
  · cases s with
    | decimal d => exact absurd rfl (exact_ d)
    | _ => rfl
  · rfl

/-- A literal is read as a value of the same kind. -/
theorem Value.kind_reread (value : Value) : value.reread.kind = value.kind := by
  rcases value with _ | s | _
  · rfl
  · cases s <;> rfl
  · rfl

/-- The literal of a plain value is read as a value that is equal to it. -/
theorem Value.same_reread (plain : value.IsPlain) : value.same value.reread = true := by
  rcases value with _ | s | _
  · rfl
  · cases s with
    | decimal d => exact beq_iff_eq.mpr d.compare_reread
    | dateTime t =>
      have same : t.compare t = .eq := Std.ReflCmp.compare_self
      exact beq_iff_eq.mpr same
    | double | enum => exact plain.elim
    | _ => exact beq_self_eq_true _
  · exact plain.elim

end

/--
The literal of a plain value is read, and as an equal value of its kind.

Only decimals are read in another form, since one without places is written with a place.
-/
theorem plain_literals_are_reread (m : Model) {value : Value} (plain : value.IsPlain) :
    ∃ w, parseLiteral m value.toLiteral = .ok w ∧ w.kind = value.kind ∧ value.same w = true ∧
      ((∀ d, value ≠ .decimal d) → w = value) := by
  -- A literal has no paths, so any frame will do for the text that it stands in alone.
  have legible : value.IsLegible ⟨m, value.toLiteral, ⟨"", ⟨"", none, [], []⟩⟩⟩ := .of_plain plain
  exact ⟨value.reread, parseLiteral_toLiteral legible rfl, value.kind_reread,
    value.same_reread plain, value.reread_eq⟩

/-- A leap second at the end of the last plain year, almost fourteen hours behind universal time. -/
def lastLeapSecond : DateTime :=
  ⟨⟨9999, 12, 31, by decide⟩, ⟨23, 59, 59, 1500000000, by decide⟩, -839⟩

/-- A leap second is read again with its fraction and its offset. -/
theorem plain_literals_are_reread_in_leap_seconds :
    (Value.scalar (.dateTime lastLeapSecond)).toLiteral = "9999-12-31T23:59:60.500-13:59" ∧
      parseLiteral ⟨.default, [], [], [], []⟩ "9999-12-31T23:59:60.500-13:59"
        = .ok (.scalar (.dateTime lastLeapSecond)) := by
  have text : (Value.scalar (.dateTime lastLeapSecond)).toLiteral
      = "9999-12-31T23:59:60.500-13:59" := by cbv
  have plain : (Value.scalar (.dateTime lastLeapSecond)).IsPlain :=
    ⟨⟨by decide, by decide⟩, by decide⟩
  obtain ⟨w, read, -, -, same⟩ := plain_literals_are_reread ⟨.default, [], [], [], []⟩ plain
  have exact_ : ∀ d, Value.scalar (.dateTime lastLeapSecond) ≠ .decimal d := by
    intro d decimal
    cases decimal
  rw [text, same exact_] at read
  exact ⟨text, read⟩

end EdmQuery
