import Mathlib
import EdmQuery.Proofs.Expr.SearchText

/-! Searches without phrases are legible, and legible searches within the limit are read back. -/

namespace EdmQuery

open Text Recognizer

/-- Whether no double quote is left. -/
def Cursor.Unquoted (c : Cursor) : Prop :=
  '"' ∉ c.rest

/-- Further on there is no double quote either. -/
theorem Cursor.Unquoted.advance {c : Cursor} (plain : c.Unquoted) (n : Nat) :
    (c.advance n).Unquoted :=
  fun mem => plain (List.mem_of_mem_drop mem)

namespace Search

section

variable {c next : Cursor} {operator text : String}

/-- Behind an operator no double quote is left where none was before. -/
theorem unquoted_behind? (plain : c.Unquoted) (mem : operator ∈ operators)
    (found : behind? c operator = some next) : next.Unquoted := by
  rw [behind?_eq mem] at found
  split at found
  · cases found
    exact (plain.advance _).advance _
  · cases found

/-- A word is all that stands in front of what ends it. -/
theorem searchWord_ok (read : c.searchWord = .ok (text, next)) :
    text.toList = c.rest.takeWhile isWordChar ∧ next = c.advance text.toList.length := by
  -- The run that was recognized is as long as the word characters in front.
  obtain ⟨n, found, rfl, rfl⟩ := Cursor.recognize_ok read
  have length : (c.rest.takeWhile isWordChar).length = n := by
    simp only [Recognizer.searchWord, Recognizer.run] at found
    split at found
    · cases found
    · exact Option.some.inj found
  have front := List.takeWhile_prefix isWordChar (l := c.rest)
  rw [Cursor.ahead, String.toList_ofList, ← length, ← List.prefix_iff_eq_take.mp front]
  exact ⟨rfl, rfl⟩

/-- A word that stands where no operator does starts with none. -/
theorem leadingOperator?_of_word (stops : Stops isBlank c.rest)
    (plain : ∀ operator ∈ operators, behind? c operator = none) :
    leadingOperator? (c.rest.takeWhile isWordChar) = none := by
  refine List.find?_eq_none.mpr fun operator mem run => ?_
  -- What ends the word ends the name in front of it, and so the name is the same in both.
  have ends := stops_name_of_word (.dropWhile isWordChar c.rest)
  have same : c.rest.takeWhile isNameChar = (c.rest.takeWhile isWordChar).takeWhile isNameChar := by
    have whole := List.takeWhile_append_dropWhile (p := isWordChar) (l := c.rest)
    conv_lhs => rw [← whole]
    exact Cursor.takeWhile_stopped ends
  have none_ := plain operator mem
  rw [behind?_eq mem, Cursor.rest_skipBlanks_of_stops rfl stops, same, if_pos (eq_of_beq run)] at none_
  cases none_

end

/-- What the functions that read searches with some fuel make of a text without double quotes. -/
structure Plain (limit fuel : Nat) : Prop where
  disjunction {depth : Nat} {c next : Cursor} {x : Search} (plain : c.Unquoted)
      (read : parseOr limit fuel depth c = .ok (x, next)) : x.isLegible = true ∧ next.Unquoted
  disjunctions {depth : Nat} {c next : Cursor} {left x : Search} (plain : c.Unquoted)
      (before : left.isLegible = true)
      (read : parseOrRest limit fuel depth left c = .ok (x, next)) :
      x.isLegible = true ∧ next.Unquoted
  conjunction {depth : Nat} {c next : Cursor} {x : Search} (plain : c.Unquoted)
      (read : parseAnd limit fuel depth c = .ok (x, next)) : x.isLegible = true ∧ next.Unquoted
  conjunctions {depth : Nat} {c next : Cursor} {left x : Search} (plain : c.Unquoted)
      (before : left.isLegible = true)
      (read : parseAndRest limit fuel depth left c = .ok (x, next)) :
      x.isLegible = true ∧ next.Unquoted
  operand {depth : Nat} {c next : Cursor} {x : Search} (plain : c.Unquoted)
      (read : parseOperand limit fuel depth c = .ok (x, next)) : x.isLegible = true ∧ next.Unquoted
  -- A term or a group is looked for where the blanks in front of it have been skipped.
  primary {depth : Nat} {c next : Cursor} {x : Search} (plain : c.Unquoted)
      (stops : Stops isBlank c.rest)
      (read : parsePrimary limit fuel depth c = .ok (x, next)) : x.isLegible = true ∧ next.Unquoted

/-- Without fuel nothing is read. -/
theorem plain_zero (limit : Nat) : Plain limit 0 where
  disjunction _ read := by simp [parseOr] at read
  disjunctions _ _ read := by simp [parseOrRest] at read
  conjunction _ read := by simp [parseAnd] at read
  conjunctions _ _ read := by simp [parseAndRest] at read
  operand _ read := by simp [parseOperand] at read
  primary _ _ read := by simp [parsePrimary] at read

section

variable {limit fuel depth : Nat} {c next : Cursor} {x : Search}

/-- Disjunctions are made of conjunctions. -/
theorem Plain.disjunction_step (ih : Plain limit fuel) (plain : c.Unquoted)
    (read : parseOr limit (fuel + 1) depth c = .ok (x, next)) :
    x.isLegible = true ∧ next.Unquoted := by
  rw [parseOr] at read
  split at read
  · cases read
  rename_i left more first
  obtain ⟨legible, plain⟩ := ih.conjunction plain first
  exact ih.disjunctions plain legible read

/-- Another disjunction is one of legible searches. -/
theorem Plain.disjunctions_step (ih : Plain limit fuel) {left : Search} (plain : c.Unquoted)
    (before : left.isLegible = true)
    (read : parseOrRest limit (fuel + 1) depth left c = .ok (x, next)) :
    x.isLegible = true ∧ next.Unquoted := by
  rw [parseOrRest] at read
  split at read
  · cases read
    exact ⟨before, plain.advance _⟩
  rename_i behind found
  -- The operand on the right is read behind the operator, where no quote is left either.
  have plain := unquoted_behind? plain (by decide) found
  split at read
  · cases read
  rename_i right more second
  obtain ⟨legible, plain⟩ := ih.conjunction plain second
  refine ih.disjunctions plain ?_ read
  rw [isLegible, before, legible]
  rfl

/-- Conjunctions are made of operands. -/
theorem Plain.conjunction_step (ih : Plain limit fuel) (plain : c.Unquoted)
    (read : parseAnd limit (fuel + 1) depth c = .ok (x, next)) :
    x.isLegible = true ∧ next.Unquoted := by
  rw [parseAnd] at read
  split at read
  · cases read
  rename_i left more first
  obtain ⟨legible, plain⟩ := ih.operand plain first
  exact ih.conjunctions plain legible read

/-- Another conjunction is one of legible searches, whether its `AND` is written or not. -/
theorem Plain.conjunctions_step (ih : Plain limit fuel) {left : Search} (plain : c.Unquoted)
    (before : left.isLegible = true)
    (read : parseAndRest limit (fuel + 1) depth left c = .ok (x, next)) :
    x.isLegible = true ∧ next.Unquoted := by
  rw [parseAndRest] at read
  split at read
  · cases read
    exact ⟨before, plain.advance _⟩
  -- An `AND` may be left out: the next operand then starts behind blanks only.
  have plain : ((behind? c "AND").getD c.skipBlanks).Unquoted := by
    cases found : behind? c "AND" with
    | none => exact plain.advance _
    | some next => exact unquoted_behind? plain (by decide) found
  split at read
  · cases read
  rename_i right more second
  obtain ⟨legible, plain⟩ := ih.operand plain second
  refine ih.conjunctions plain ?_ read
  rw [isLegible, before, legible]
  rfl

/-- An operand is denied or not. -/
theorem Plain.operand_step (ih : Plain limit fuel) (plain : c.Unquoted)
    (read : parseOperand limit (fuel + 1) depth c = .ok (x, next)) :
    x.isLegible = true ∧ next.Unquoted := by
  rw [parseOperand] at read
  split at read
  · cases read
  split at read
  · rename_i behind found
    obtain ⟨⟨y, last⟩, denied, same⟩ := map_ok read
    cases same
    have below := ih.operand (unquoted_behind? plain (by decide) found) denied
    rwa [isLegible]
  · have stops : Stops isBlank c.skipBlanks.rest := by
      rw [Cursor.rest_skipBlanks]
      exact .dropWhile isBlank c.rest
    exact ih.primary (plain.advance _) stops read

/-- A word is legible because no operator stands where it does, and there are no phrases. -/
theorem Plain.primary_step (ih : Plain limit fuel) (plain : c.Unquoted)
    (stops : Stops isBlank c.rest)
    (read : parsePrimary limit (fuel + 1) depth c = .ok (x, next)) :
    x.isLegible = true ∧ next.Unquoted := by
  rw [parsePrimary] at read
  split at read
  · cases read
  · split at read
    · cases read
    rename_i y more found
    -- A group is as legible as what stands in it.
    obtain ⟨legible, plain⟩ := ih.disjunction (plain.advance 1) found
    obtain ⟨⟨_, last⟩, closed, same⟩ := map_ok read
    cases same
    obtain ⟨n, -, -, rfl⟩ := Cursor.recognize_ok closed
    exact ⟨legible, (plain.advance _).advance _⟩
  -- A phrase would start with a quote.
  · rename_i quote
    exact absurd (List.mem_of_head? quote) plain
  · split at read
    · cases read
    · rename_i none_
      obtain ⟨⟨text, last⟩, word, same⟩ := map_ok read
      cases same
      obtain ⟨chars, rfl⟩ := searchWord_ok word
      refine ⟨?_, plain.advance _⟩
      -- The parser has looked for every operator at the start of the word.
      have leading := leadingOperator?_of_word stops fun operator mem => by
        have missed := List.any_eq_false.mp (Bool.not_eq_true _ ▸ none_) operator mem
        simpa using missed
      rw [isLegible, chars, leading]
      exact Bool.or_true _

end

/-- Whatever the fuel, a text without double quotes is read as a legible search. -/
theorem plain (limit fuel : Nat) : Plain limit fuel := by
  induction fuel with
  | zero => exact plain_zero limit
  | succ fuel ih =>
    exact {
      disjunction := ih.disjunction_step
      disjunctions := ih.disjunctions_step
      conjunction := ih.conjunction_step
      conjunctions := ih.conjunctions_step
      operand := ih.operand_step
      primary := ih.primary_step }

/-- A search of words in whose text no phrase stands is legible. -/
theorem isLegible_of_parse {config : Config} (words : config.tokenization = .words) {text : String}
    (plain_ : '"' ∉ text.toList) {x : Search} (read : parse config text = .ok x) :
    x.isLegible = true := by
  rw [parse, words] at read
  split at read
  · cases read
  simp only [parseWords] at read
  split at read
  · cases read
  rename_i y next found
  split at read
  · cases read
    exact ((plain _ _).disjunction (c := .start text) plain_ found).1
  · cases read

/--
The text of a search that was read from words is read as the same search exactly when it is legible
and within the limit, where each operator between operands counts as a level.

Legible is every search whose text has no phrases.
-/
theorem read_search_is_reread {config : Config} (words : config.tokenization = .words)
    {text : String} {x : Search} (read : parse config text = .ok x) :
    (parse config x.toText = .ok x ↔ x.isLegible = true ∧ x.height ≤ config.maxDepth) ∧
      ('"' ∉ text.toList → x.isLegible = true) := by
  refine ⟨?_, fun plain => isLegible_of_parse words plain read⟩
  rw [parse_toText words, reread_eq_some_self]

/-- A search with phrases and a group is written with parentheses and an `AND`, and is read back. -/
theorem read_search_is_reread_of_flights :
    let x : Search := .or (.term "late") (.and (.term "night flight")
      (.not (.and (.term "red") (.term "it's"))))
    parse .default "late OR \"night flight\" NOT (red it's)" = .ok x ∧
      x.toText = "(late OR (\"night flight\" AND NOT (red AND \"it's\")))" ∧
      parse .default x.toText = .ok x := by
  intro x
  have read : parse .default "late OR \"night flight\" NOT (red it's)" = .ok x := by
    decide +kernel
  exact ⟨read, by decide +kernel, (read_search_is_reread rfl read).1.mpr (by decide +kernel)⟩

/--
Two searches that are read and written as texts of another meaning or of none.

A phrase that starts like an operator is written without its quotes, and the parentheses of a
conjunction take a level that the conjunction itself does not have.
-/
theorem read_searches_are_lost :
    (parse .default "\"NOT-x\"" = .ok (.term "NOT-x") ∧
      parse .default (term "NOT-x").toText = .ok (.not (.term "-x"))) ∧
    ∃ config : Config, config.tokenization = .words ∧
      parse config "a b" = .ok (.and (.term "a") (.term "b")) ∧
      parse config (and (.term "a") (.term "b")).toText = .error (.tooDeep 1) := by
  refine ⟨⟨?_, ?_⟩, { Config.default with maxDepth := 1 }, rfl, ?_, ?_⟩ <;> decide +kernel

end Search

end EdmQuery
