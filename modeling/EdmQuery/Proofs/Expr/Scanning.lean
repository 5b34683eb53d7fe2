import Mathlib
import EdmQuery.Expr.Expand
import EdmQuery.Proofs.Text.Span

/-! Scans for quotes and parentheses: texts that leave nothing open stay whole among options. -/

namespace EdmQuery

open Text

/-- What is open at a place of a text: so many parentheses, and perhaps a single quote. -/
structure Scan where
  depth : Nat
  inString : Bool
  deriving DecidableEq

namespace Scan

/-- Nothing is open. -/
abbrev clear : Scan :=
  ⟨0, false⟩

/--
What is open behind a character.

A parenthesis that closes none of the text, and a semicolon outside of all, would end the text.
-/
def step (s : Scan) (c : Char) : Option Scan :=
  -- Between quotes only a quote counts.
  if c == '\'' then some ⟨s.depth, !s.inString⟩
  else if s.inString then some s
  else if c == '(' then some ⟨s.depth + 1, false⟩
  else if c == ')' then
    match s.depth with
    | 0 => none
    | depth + 1 => some ⟨depth, false⟩
  else if c == ';' && s.depth == 0 then none
  else some s

/-- What is open behind characters, if none of them ends the text. -/
def through (s : Scan) (chars : List Char) : Option Scan :=
  chars.foldlM step s

/-- Whether a character opens, closes and ends nothing. -/
def isInert (c : Char) : Bool :=
  c != '\'' && c != '(' && c != ')' && c != ';'

section

variable {s s' : Scan} {c : Char} {front rest chars : List Char} {d d' : Nat} {q q' : Bool}

@[simp] theorem through_nil (s : Scan) : s.through [] = some s :=
  rfl

theorem through_cons (s : Scan) (c : Char) (rest : List Char) :
    s.through (c :: rest) = (s.step c).bind (·.through rest) :=
  rfl

/-- A text is scanned in two parts. -/
theorem through_append (s : Scan) (front rest : List Char) :
    s.through (front ++ rest) = (s.through front).bind (·.through rest) :=
  List.foldlM_append

/-- The second part of a text is scanned from where the first one leaves off. -/
theorem through_append_of_eq (first : s.through front = some s') (rest : List Char) :
    s.through (front ++ rest) = s'.through rest := by
  rw [through_append, first, Option.bind_some]

/-- Blanks are inert. -/
theorem isInert_of_isBlank (blank : isBlank c = true) : isInert c = true := by
  have quote : c ≠ '\'' := ne_of_isBlank blank rfl
  have opening : c ≠ '(' := ne_of_isBlank blank rfl
  have closing : c ≠ ')' := ne_of_isBlank blank rfl
  have semicolon : c ≠ ';' := ne_of_isBlank blank rfl
  simp [isInert, quote, opening, closing, semicolon]

/-- Inert characters change nothing. -/
theorem step_inert (inert : isInert c = true) (s : Scan) : s.step c = some s := by
  simp only [isInert, Bool.and_eq_true, bne_iff_ne, ne_eq] at inert
  obtain ⟨⟨⟨quote, opening⟩, closing⟩, semicolon⟩ := inert
  simp [step, quote, opening, closing, semicolon]

/-- Inert characters leave open what was open before them. -/
theorem through_inert (inert : ∀ c ∈ front, isInert c = true) (s : Scan) :
    s.through front = some s := by
  -- Each character in turn leaves the state as it is.
  induction front with
  | nil => rfl
  | cons c front ih =>
    rw [List.forall_mem_cons] at inert
    rw [through_cons, step_inert inert.1, Option.bind_some, ih inert.2]

/-- What a character may open or close. -/
inductive Steps : Nat → Bool → Char → Nat → Bool → Prop where
  | quote (d : Nat) (q : Bool) : Steps d q '\'' d (!q)
  | quoted (d : Nat) {c : Char} (other : c ≠ '\'') : Steps d true c d true
  | opening (d : Nat) : Steps d false '(' (d + 1) false
  | closing (d : Nat) : Steps (d + 1) false ')' d false
  | other {d : Nat} {c : Char} (plain : c ≠ '\'' ∧ c ≠ '(' ∧ c ≠ ')')
      (inside : c = ';' → d ≠ 0) : Steps d false c d false

/-- A character that ends nothing opens or closes what it may. -/
theorem steps_of_step (found : (⟨d, q⟩ : Scan).step c = some ⟨d', q'⟩) : Steps d q c d' q' := by
  -- The cases are the tests of a step, one after the other.
  unfold step at found
  split at found
  · rename_i quote
    cases found
    rw [eq_of_beq quote]
    exact .quote d q
  rename_i quote
  rw [beq_iff_eq] at quote
  split at found
  · rename_i inside
    cases found
    simp only at inside
    subst inside
    exact .quoted d quote
  rename_i outside
  rw [Bool.not_eq_true] at outside
  simp only at outside
  subst outside
  split at found
  · rename_i opening
    cases found
    rw [eq_of_beq opening]
    exact .opening d
  rename_i opening
  rw [beq_iff_eq] at opening
  split at found
  · rename_i closing
    rw [eq_of_beq closing]
    split at found
    · cases found
    · rename_i k above
      simp only at above
      subst above
      cases found
      exact .closing _
  rename_i closing
  rw [beq_iff_eq] at closing
  split at found
  · cases found
  · rename_i semicolon
    cases found
    refine .other ⟨quote, opening, closing⟩ fun same zero => semicolon ?_
    rw [same, zero]
    rfl

end

end Scan

/-- A text closes what it opens, and nothing in it ends an option text. -/
def Enclosed (chars : List Char) : Prop :=
  Scan.clear.through chars = some .clear

instance (chars : List Char) : Decidable (Enclosed chars) :=
  inferInstanceAs (Decidable (_ = _))

namespace Enclosed

variable {front rest chars : List Char}

/-- An empty text opens nothing. -/
theorem nil : Enclosed [] :=
  rfl

/-- Enclosed texts may stand side by side. -/
theorem append (first : Enclosed front) (second : Enclosed rest) : Enclosed (front ++ rest) := by
  rw [Enclosed, Scan.through_append_of_eq first]
  exact second

/-- Inert characters are enclosed. -/
theorem of_inert (inert : ∀ c ∈ front, Scan.isInert c = true) : Enclosed front :=
  Scan.through_inert inert .clear

/-- What stands in front of inert characters in an enclosed text is enclosed. -/
theorem of_append_inert (inert : ∀ c ∈ rest, Scan.isInert c = true)
    (whole : Enclosed (front ++ rest)) : Enclosed front := by
  rw [Enclosed, Scan.through_append] at whole
  -- What is open between the two parts is still open behind the second.
  obtain ⟨s, first, second⟩ := Option.bind_eq_some_iff.mp whole
  rw [Scan.through_inert inert, Option.some.injEq] at second
  rw [Enclosed, first, second]

end Enclosed

section

variable {front rest chars : List Char} {d d' n m : Nat} {q q' : Bool}

/-- The search for a closing parenthesis goes through a text that closes none but its own. -/
theorem closing_through (found : (⟨d, q⟩ : Scan).through front = some ⟨d', q'⟩) (rest : List Char)
    (n : Nat) : Cursor.closing (front ++ rest) d q n
      = Cursor.closing rest d' q' (n + front.length) := by
  -- The search keeps the same state as the scan: it stops only where the scan has none.
  induction front generalizing d q n with
  | nil =>
    cases found
    rfl
  | cons c front ih =>
    rw [Scan.through_cons] at found
    obtain ⟨⟨e, r⟩, first, found⟩ := Option.bind_eq_some_iff.mp found
    rw [List.length_cons, Nat.add_comm front.length, ← Nat.add_assoc, ← ih found, List.cons_append]
    cases Scan.steps_of_step first with
    | quote => rfl
    | quoted _ other => simp [Cursor.closing.eq_def (c :: _), other]
    | opening => rfl
    | closing => rfl
    | other plain => simp [Cursor.closing.eq_def (c :: _), plain]

/-- A closing parenthesis that was found is the one of a text that opens it and closes all else. -/
theorem closing_some (found : Cursor.closing chars d q n = some m) : ∃ front rest,
    chars = front ++ ')' :: rest ∧ m = n + front.length ∧
      (⟨d + 1, q⟩ : Scan).through (front ++ [')']) = some .clear := by
  -- The scan counts the parenthesis that is searched for, and so is always inside of one.
  fun_induction Cursor.closing chars d q n with
  | case1 => cases found
  | case2 c rest d q n quote ih =>
    obtain ⟨front, behind, rfl, rfl, closed⟩ := ih found
    refine ⟨c :: front, behind, rfl, by rw [List.length_cons]; omega, ?_⟩
    rw [List.cons_append, Scan.through_cons, Scan.step, if_pos quote]
    exact closed
  | case3 c rest d q n quote opening ih =>
    rw [Bool.and_eq_true, Bool.not_eq_true'] at opening
    obtain ⟨opening, rfl⟩ := opening
    obtain ⟨front, behind, rfl, rfl, closed⟩ := ih found
    refine ⟨c :: front, behind, rfl, by rw [List.length_cons]; omega, ?_⟩
    rw [List.cons_append, Scan.through_cons, Scan.step, if_neg quote, if_neg Bool.false_ne_true,
      if_pos opening]
    exact closed
  | case4 c rest q n quote opening closing =>
    rw [Bool.and_eq_true, Bool.not_eq_true'] at closing
    obtain ⟨closing, rfl⟩ := closing
    cases found
    rw [beq_iff_eq] at closing
    subst closing
    exact ⟨[], rest, rfl, rfl, rfl⟩
  | case5 c rest q n quote opening closing d ih =>
    rw [Bool.and_eq_true, Bool.not_eq_true'] at closing
    obtain ⟨closing, rfl⟩ := closing
    obtain ⟨front, behind, rfl, rfl, closed⟩ := ih found
    refine ⟨c :: front, behind, rfl, by rw [List.length_cons]; omega, ?_⟩
    rw [beq_iff_eq] at closing
    subst closing
    exact closed
  | case6 c rest d q n quote opening closing ih =>
    obtain ⟨front, behind, rfl, rfl, closed⟩ := ih found
    refine ⟨c :: front, behind, rfl, by rw [List.length_cons]; omega, ?_⟩
    have same : (⟨d + 1, q⟩ : Scan).step c = some ⟨d + 1, q⟩ := by
      rw [Scan.step, if_neg quote]
      cases q with
      | true => rfl
      | false =>
        simp only [Bool.not_false, Bool.and_true] at opening closing
        simp [opening, closing]
    rw [List.cons_append, Scan.through_cons, same]
    exact closed

/-- Pieces of options are not split within a text that closes none but its own parentheses. -/
theorem splitPieces_through (found : (⟨d, q⟩ : Scan).through front = some ⟨d', q'⟩)
    (offset start : Nat) (piece rest : List Char) :
    splitPieces offset start piece d q (front ++ rest)
      = splitPieces (offset + byteLength front) start (front.reverse ++ piece) d' q' rest := by
  -- A split would be at a semicolon outside of everything, where the scan ends.
  induction front generalizing offset piece d q with
  | nil =>
    cases found
    rfl
  | cons c front ih =>
    rw [Scan.through_cons] at found
    obtain ⟨⟨e, r⟩, first, found⟩ := Option.bind_eq_some_iff.mp found
    rw [byteLength, ← Nat.add_assoc, List.reverse_cons, List.append_assoc, List.singleton_append,
      ← ih found, List.cons_append]
    cases Scan.steps_of_step first with
    | quote => rfl
    | quoted _ other => simp [splitPieces, other]
    | opening => rfl
    | closing => rfl
    | other plain inside =>
      have inside : ¬ (c = ';' ∧ d = 0) := fun both => inside both.1 both.2
      simp [splitPieces, plain, inside]

end

section

variable {pieces : List (List Char)}

/-- The parenthesis around pieces that semicolons are put between is the one that closes them. -/
theorem closing_pieces (enclosed : ∀ piece ∈ pieces, Enclosed piece) (rest : List Char) (n : Nat) :
    Cursor.closing ([';'].intercalate pieces ++ ')' :: rest) 0 false n
      = some (n + ([';'].intercalate pieces).length) := by
  induction pieces generalizing n with
  | nil => rfl
  | cons piece others ih =>
    rw [List.forall_mem_cons] at enclosed
    cases others with
    | nil => rw [List.intercalate_singleton, closing_through enclosed.1]; rfl
    | cons next more =>
      -- A semicolon is an ordinary character of the search.
      have semicolon (rest : List Char) (n : Nat) :
          Cursor.closing (';' :: rest) 0 false n = Cursor.closing rest 0 false (n + 1) := rfl
      rw [List.intercalate_cons_cons, List.append_assoc, List.append_assoc,
        closing_through enclosed.1, List.singleton_append, semicolon, ih enclosed.2,
        List.length_append, List.length_append, List.length_singleton, ← Nat.add_assoc,
        ← Nat.add_assoc]

/-- Enclosed pieces with semicolons between them are split as they are. -/
theorem splitPieces_intercalate (enclosed : ∀ piece ∈ pieces, Enclosed piece) (some_ : pieces ≠ [])
    (offset start : Nat) :
    (splitPieces offset start [] 0 false ([';'].intercalate pieces)).map (·.chars) = pieces := by
  induction pieces generalizing offset start with
  | nil => exact absurd rfl some_
  | cons piece others ih =>
    rw [List.forall_mem_cons] at enclosed
    cases others with
    | nil =>
      have whole := splitPieces_through enclosed.1 offset start [] []
      rw [List.append_nil, List.append_nil] at whole
      rw [List.intercalate_singleton, whole, splitPieces, List.reverse_reverse]
      rfl
    | cons next more =>
      -- The first piece ends at its semicolon, since nothing is open there.
      have behind := ih enclosed.2 (List.cons_ne_nil _ _)
      have semicolon (offset : Nat) (piece rest : List Char) :
          splitPieces offset start piece 0 false (';' :: rest)
            = ⟨start, piece.reverse⟩ :: splitPieces (offset + 1) (offset + 1) [] 0 false rest := rfl
      rw [List.intercalate_cons_cons, List.append_assoc, splitPieces_through enclosed.1,
        List.singleton_append, semicolon, List.map_cons, behind, List.append_nil,
        List.reverse_reverse]

end

end EdmQuery
