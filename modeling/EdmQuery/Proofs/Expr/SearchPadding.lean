import Mathlib
import EdmQuery.Expr.Search
import EdmQuery.Proofs.Expr.Listing

/-! Searches are the same without the blanks around their texts. -/

namespace EdmQuery

open Text Recognizer

/-- How many characters are left behind the blanks at a place. -/
def Cursor.left (c : Cursor) : Nat :=
  c.skipBlanks.rest.length

namespace Search

section

variable {c d : Cursor}

/-- No more characters are left behind blanks than with them. -/
theorem left_le (c : Cursor) : c.left ≤ c.rest.length :=
  (Cursor.Passes.skipBlanks c).length_le

/-- An operator comes next at both places, or at neither. -/
theorem behind?_pads (operator : String) (mem : operator ∈ operators) (pads : c.skipBlanks.Pads d.skipBlanks) :
    (behind? c operator = none ∧ behind? d operator = none) ∨
      ∃ next behind, behind? c operator = some next ∧ behind? d operator = some behind ∧
        next.Pads behind ∧ behind.rest.length < d.left := by
  have letters : operator.toList.all isNameChar = true ∧ operator.toList ≠ [] := by
    simp only [operators, List.mem_cons, List.not_mem_nil, or_false] at mem
    rcases mem with rfl | rfl | rfl <;> decide
  -- An operator is a word, which is read at both places or at neither.
  have word := pads.keyword operator letters.1 letters.2
  rw [behind?, behind?]
  generalize c.skipBlanks.keyword operator = first at word ⊢
  generalize d.skipBlanks.keyword operator = second at word ⊢
  cases word with
  | error => exact .inl ⟨rfl, rfl⟩
  | ok pads less => exact .inr ⟨_, _, rfl, rfl, pads, less⟩

/-- Whether an operator comes next is the same at both places. -/
theorem isSome_behind?_pads (operator : String) (mem : operator ∈ operators) (pads : c.skipBlanks.Pads d.skipBlanks) :
    (behind? c operator).isSome = (behind? d operator).isSome := by
  obtain ⟨none_, none_'⟩ | ⟨next, behind, some_, some_', -⟩ := behind?_pads operator mem pads
  · rw [none_, none_']
  · rw [some_, some_']
    rfl

end

/-- A search is read, in front of less than so many characters and perhaps blanks behind them. -/
def Repeats (n : Nat) (x : Search) (next : Cursor) (read : Read Search) : Prop :=
  ∃ behind, read = .ok (x, behind) ∧ next.skipBlanks.Pads behind.skipBlanks ∧ behind.left < n

/-- What the functions that read searches with some fuel do without the blanks around a text. -/
structure Settles (limit fuel : Nat) : Prop where
  disjunction {depth : Nat} {c d next : Cursor} {x : Search} (more : Nat)
      (pads : c.skipBlanks.Pads d.skipBlanks) (enough : 8 * d.left + 4 ≤ more)
      (read : parseOr limit fuel depth c = .ok (x, next)) :
      Repeats d.left x next (parseOr limit more depth d)
  disjunctions {depth : Nat} {c d next : Cursor} {left x : Search} (more : Nat)
      (pads : c.skipBlanks.Pads d.skipBlanks) (enough : 8 * d.left + 1 ≤ more)
      (read : parseOrRest limit fuel depth left c = .ok (x, next)) :
      Repeats (d.left + 1) x next (parseOrRest limit more depth left d)
  conjunction {depth : Nat} {c d next : Cursor} {x : Search} (more : Nat)
      (pads : c.skipBlanks.Pads d.skipBlanks) (enough : 8 * d.left + 3 ≤ more)
      (read : parseAnd limit fuel depth c = .ok (x, next)) :
      Repeats d.left x next (parseAnd limit more depth d)
  conjunctions {depth : Nat} {c d next : Cursor} {left x : Search} (more : Nat)
      (pads : c.skipBlanks.Pads d.skipBlanks) (enough : 8 * d.left + 3 ≤ more)
      (read : parseAndRest limit fuel depth left c = .ok (x, next)) :
      Repeats (d.left + 1) x next (parseAndRest limit more depth left d)
  operand {depth : Nat} {c d next : Cursor} {x : Search} (more : Nat)
      (pads : c.skipBlanks.Pads d.skipBlanks) (enough : 8 * d.left + 2 ≤ more)
      (read : parseOperand limit fuel depth c = .ok (x, next)) :
      Repeats d.left x next (parseOperand limit more depth d)
  primary {depth : Nat} {c d next : Cursor} {x : Search} (more : Nat)
      (pads : c.skipBlanks.Pads d.skipBlanks) (enough : 8 * d.left + 1 ≤ more)
      (read : parsePrimary limit fuel depth c.skipBlanks = .ok (x, next)) :
      Repeats d.left x next (parsePrimary limit more depth d.skipBlanks)

/-- Without fuel nothing is read. -/
theorem settles_zero (limit : Nat) : Settles limit 0 where
  disjunction _ _ _ read := by simp [parseOr] at read
  disjunctions _ _ _ read := by simp [parseOrRest] at read
  conjunction _ _ _ read := by simp [parseAnd] at read
  conjunctions _ _ _ read := by simp [parseAndRest] at read
  operand _ _ _ read := by simp [parseOperand] at read
  primary _ _ _ read := by simp [parsePrimary] at read

section

variable {limit fuel depth more : Nat} {c d next : Cursor} {x : Search}

/-- A disjunction is a conjunction and what follows it. -/
theorem Settles.disjunction_step (ih : Settles limit fuel) (pads : c.skipBlanks.Pads d.skipBlanks)
    (enough : 8 * d.left + 4 ≤ more) (read : parseOr limit (fuel + 1) depth c = .ok (x, next)) :
    Repeats d.left x next (parseOr limit more depth d) := by
  obtain ⟨more, rfl⟩ : ∃ k, more = k + 1 := ⟨more - 1, by omega⟩
  rw [parseOr] at read ⊢
  split at read
  · cases read
  rename_i left between first
  -- A conjunction takes a character, which pays for the calls that follow it.
  obtain ⟨between', first, pads, less⟩ := ih.conjunction more pads (by omega) first
  obtain ⟨behind, others, pads, less'⟩ := ih.disjunctions more pads (by omega) read
  rw [first]
  exact ⟨behind, others, pads, by omega⟩

/-- Another disjunction stands behind an operator. -/
theorem Settles.disjunctions_step (ih : Settles limit fuel) {left : Search}
    (pads : c.skipBlanks.Pads d.skipBlanks) (enough : 8 * d.left + 1 ≤ more)
    (read : parseOrRest limit (fuel + 1) depth left c = .ok (x, next)) :
    Repeats (d.left + 1) x next (parseOrRest limit more depth left d) := by
  obtain ⟨more, rfl⟩ : ∃ k, more = k + 1 := ⟨more - 1, by omega⟩
  rw [parseOrRest] at read ⊢
  obtain ⟨none_, none_'⟩ | ⟨start, start', some_, some_', padsStart, less⟩ :=
    behind?_pads "OR" (by decide) pads
  · -- Without an operator the disjunction ends here.
    rw [none_] at read
    cases read
    rw [none_']
    exact ⟨d.skipBlanks, rfl, pads.skipBlanks, Nat.lt_succ_of_le (left_le d.skipBlanks)⟩
  · rw [some_] at read
    rw [some_']
    simp only at read ⊢
    split at read
    · cases read
    rename_i right between second
    have := left_le start'
    -- The operator takes a character too, and so the fuel is enough behind it.
    obtain ⟨between', second, pads, less'⟩ :=
      ih.conjunction more padsStart.skipBlanks (by omega) second
    obtain ⟨behind, others, pads, less''⟩ := ih.disjunctions more pads (by omega) read
    rw [second]
    exact ⟨behind, others, pads, by omega⟩

/-- A conjunction is an operand and what follows it. -/
theorem Settles.conjunction_step (ih : Settles limit fuel) (pads : c.skipBlanks.Pads d.skipBlanks)
    (enough : 8 * d.left + 3 ≤ more) (read : parseAnd limit (fuel + 1) depth c = .ok (x, next)) :
    Repeats d.left x next (parseAnd limit more depth d) := by
  obtain ⟨more, rfl⟩ : ∃ k, more = k + 1 := ⟨more - 1, by omega⟩
  rw [parseAnd] at read ⊢
  split at read
  · cases read
  rename_i left between first
  -- An operand takes a character, which pays for the calls that follow it.
  obtain ⟨between', first, pads, less⟩ := ih.operand more pads (by omega) first
  obtain ⟨behind, others, pads, less'⟩ := ih.conjunctions more pads (by omega) read
  rw [first]
  exact ⟨behind, others, pads, by omega⟩

/-- Another operand stands behind an operator or beside the one before it. -/
theorem Settles.conjunctions_step (ih : Settles limit fuel) {left : Search}
    (pads : c.skipBlanks.Pads d.skipBlanks) (enough : 8 * d.left + 3 ≤ more)
    (read : parseAndRest limit (fuel + 1) depth left c = .ok (x, next)) :
    Repeats (d.left + 1) x next (parseAndRest limit more depth left d) := by
  obtain ⟨more, rfl⟩ : ∃ k, more = k + 1 := ⟨more - 1, by omega⟩
  have ends : endsHere c = endsHere d := by
    rw [endsHere, endsHere, pads.peek_skipBlanks]
  rw [parseAndRest] at read ⊢
  rw [ends, isSome_behind?_pads "OR" (by decide) pads] at read
  split at read
  · rename_i stop
    cases read
    rw [if_pos stop]
    exact ⟨d.skipBlanks, rfl, pads.skipBlanks, Nat.lt_succ_of_le (left_le d.skipBlanks)⟩
  rename_i stop
  rw [if_neg stop]
  -- The operand starts behind an operator, or right here.
  have start : ((behind? c "AND").getD c.skipBlanks).Pads ((behind? d "AND").getD d.skipBlanks) ∧
      ((behind? d "AND").getD d.skipBlanks).rest.length ≤ d.left := by
    obtain ⟨none_, none_'⟩ | ⟨start, start', some_, some_', padsStart, less⟩ :=
      behind?_pads "AND" (by decide) pads
    · rw [none_, none_']
      exact ⟨pads, Nat.le_refl _⟩
    · rw [some_, some_']
      exact ⟨padsStart, Nat.le_of_lt less⟩
  generalize (behind? c "AND").getD c.skipBlanks = from_ at start read
  generalize (behind? d "AND").getD d.skipBlanks = from_' at start ⊢
  split at read
  · cases read
  rename_i right between second
  have := left_le from_'
  have := start.2
  obtain ⟨between', second, pads, less⟩ :=
    ih.operand more start.1.skipBlanks (by omega) second
  obtain ⟨behind, others, pads, less'⟩ := ih.conjunctions more pads (by omega) read
  rw [second]
  exact ⟨behind, others, pads, by omega⟩

/-- An operand is behind any number of `NOT`. -/
theorem Settles.operand_step (ih : Settles limit fuel) (pads : c.skipBlanks.Pads d.skipBlanks)
    (enough : 8 * d.left + 2 ≤ more) (read : parseOperand limit (fuel + 1) depth c = .ok (x, next)) :
    Repeats d.left x next (parseOperand limit more depth d) := by
  obtain ⟨more, rfl⟩ : ∃ k, more = k + 1 := ⟨more - 1, by omega⟩
  rw [parseOperand] at read ⊢
  split at read
  · cases read
  rename_i within
  rw [if_neg within]
  obtain ⟨none_, none_'⟩ | ⟨start, start', some_, some_', padsStart, less⟩ :=
    behind?_pads "NOT" (by decide) pads
  -- Without a `NOT` the operand is what stands behind the blanks.
  · rw [none_] at read
    rw [none_']
    exact ih.primary more pads (by omega) read
  · rw [some_] at read
    rw [some_']
    obtain ⟨⟨y, last⟩, denied, same⟩ := map_ok read
    cases same
    have := left_le start'
    obtain ⟨behind, denied, pads, less'⟩ :=
      ih.operand more padsStart.skipBlanks (by omega) denied
    simp only [denied]
    exact ⟨behind, rfl, pads, by omega⟩

/-- A word, a phrase or a group is read to its end. -/
theorem Settles.primary_step (ih : Settles limit fuel) (pads : c.skipBlanks.Pads d.skipBlanks)
    (enough : 8 * d.left + 1 ≤ more)
    (read : parsePrimary limit (fuel + 1) depth c.skipBlanks = .ok (x, next)) :
    Repeats d.left x next (parsePrimary limit more depth d.skipBlanks) := by
  obtain ⟨more, rfl⟩ : ∃ k, more = k + 1 := ⟨more - 1, by omega⟩
  -- A reading takes what it does at both places.
  have settled {read : Read String} {text : String} {next : Cursor}
      (paired : Cursor.Paired d.left (.ok (text, next)) read) :
      Repeats d.left (.term text) next (read.map fun found => (.term found.1, found.2)) := by
    cases paired with
    | @ok _ _ behind pads less =>
      exact ⟨behind, rfl, pads.skipBlanks, Nat.lt_of_le_of_lt (left_le behind) less⟩
  rw [parsePrimary] at read ⊢
  rw [pads.peek_skipBlanks] at read
  split at read
  · cases read
  · rename_i opening
    have some_ : 1 ≤ d.left := by
      rw [Cursor.left]
      cases at_ : d.skipBlanks.rest with
      | nil =>
        rw [Cursor.peek, at_] at opening
        cases opening
      | cons first rest => exact Nat.le_add_left 1 rest.length
    -- The search in the group starts behind the parenthesis, with less characters left.
    have inside := pads.advance some_
    have short : (d.skipBlanks.advance 1).left ≤ d.left - 1 := by
      refine Nat.le_trans (left_le _) ?_
      rw [Cursor.advance, List.length_drop, Cursor.left]
    split at read
    · cases read
    rename_i y last found
    obtain ⟨last', found, pads, less⟩ :=
      ih.disjunction more inside.skipBlanks (by omega) found
    obtain ⟨⟨text, next⟩, closing, same⟩ := map_ok read
    cases same
    have paired := pads.char (m := ')') rfl
    rw [closing] at paired
    simp only [found]
    generalize last'.skipBlanks.char ')' = closing' at paired ⊢
    cases paired with
    | @ok _ _ behind pads less' =>
      have := left_le behind
      have inner : last'.skipBlanks.rest.length = last'.left := rfl
      exact ⟨behind, rfl, pads.skipBlanks, by omega⟩
  · rename_i quote
    obtain ⟨⟨text, last⟩, phrase, same⟩ := map_ok read
    cases same
    have paired := pads.doubleQuotedString
    rw [phrase] at paired
    exact settled paired
  · rename_i first group quote present
    -- A word is refused where an operator stands, and operators stand at both places or at neither.
    have same : (operators.any fun operator => (behind? c.skipBlanks operator).isSome)
        = operators.any fun operator => (behind? d.skipBlanks operator).isSome := by
      simp only [operators, List.any_cons, List.any_nil,
        isSome_behind?_pads "AND" (by decide) pads.skipBlanks,
        isSome_behind?_pads "OR" (by decide) pads.skipBlanks,
        isSome_behind?_pads "NOT" (by decide) pads.skipBlanks]
    rw [same] at read
    split at read
    · cases read
    rename_i plain
    obtain ⟨⟨text, last⟩, word, same⟩ := map_ok read
    cases same
    have paired := pads.searchWord
    rw [word] at paired
    rw [if_neg plain]
    exact settled paired

end

/-- Whatever the fuel, what is read is read without the blanks around it. -/
theorem settles (limit fuel : Nat) : Settles limit fuel := by
  -- Every function calls the others with one less of the fuel that a text was read with.
  induction fuel with
  | zero => exact settles_zero limit
  | succ fuel ih =>
    exact {
      disjunction _ := ih.disjunction_step
      disjunctions _ := ih.disjunctions_step
      conjunction _ := ih.conjunction_step
      conjunctions _ := ih.conjunctions_step
      operand _ := ih.operand_step
      primary _ := ih.primary_step }

/-- A search is the same without the blanks around its text. -/
theorem parse_trim {config : Config} {text : String} {x : Search}
    (read : parse config text = .ok x) : parse config (trim text) = .ok x := by
  have chars : (trim text).toList = trimChars text.toList := String.toList_ofList
  rw [parse] at read ⊢
  rw [chars, trimChars_trimChars]
  split at read
  · cases read
  rename_i some_
  rw [if_neg some_]
  split at read
  · exact read
  · rw [parseWords] at read ⊢
    split at read
    · cases read
    rename_i y next found
    -- The shorter text still brings the fuel that it needs.
    have enough : 8 * (Cursor.start (trim text)).left + 4 ≤ parseFuel (trim text) := by
      have short := left_le (.start (trim text))
      rw [Cursor.start, String.length_toList] at short
      rw [parseFuel, Cursor.start]
      omega
    obtain ⟨behind, found, pads, -⟩ := (settles _ _).disjunction _ (pads_trim text) enough found
    split at read
    · rename_i ends
      rw [found]
      simp only [pads.isFinished.symm.trans ends, if_true]
      exact read
    · cases read

end Search

end EdmQuery
