import Mathlib
import EdmQuery.Proofs.Expr.Scanner

/-! Parentheses outside of quoted strings: which closes another, and what a scan takes for it. -/

namespace EdmQuery

open Text

/-- A text and what is left of it without its quoted strings, in which quotes are doubled. -/
inductive Unquoted : List Char → List Char → Prop where
  | nil : Unquoted [] []
  | cons {c : Char} {chars bare : List Char} (other : c ≠ '\'') (rest : Unquoted chars bare) :
      Unquoted (c :: chars) (c :: bare)
  | string {chars bare : List Char} (content : List Char) (rest : Unquoted chars bare) :
      Unquoted ('\'' :: (doubled '\'' content ++ '\'' :: chars)) bare

/-- Outside of strings a level text opens as many parentheses as it closes, so that one behind it
closes one before it. -/
def IsLevel (chars : List Char) : Prop :=
  ∃ bare, Unquoted chars bare ∧ bare.count '(' = bare.count ')'

/-- Outside of strings a balanced text opens every parenthesis before it closes it. -/
def IsBalanced (chars : List Char) : Prop :=
  ∃ bare, Unquoted chars bare ∧ bare.count '(' = bare.count ')' ∧
    ∀ front, front <+: bare → front.count ')' ≤ front.count '('

/-- The number of open parentheses behind characters, none where more are closed than are open. -/
def depthBehind (depth : Nat) : List Char → Option Nat
  | [] => some depth
  | c :: rest =>
    if c == '(' then depthBehind (depth + 1) rest
    else if c == ')' then if depth = 0 then none else depthBehind (depth - 1) rest
    else depthBehind depth rest

section

variable {c : Char} {chars bare rest content front : List Char} {d e n m : Nat} {q : Bool}

/-- A balanced text is level. -/
theorem IsBalanced.isLevel (balanced : IsBalanced chars) : IsLevel chars := by
  obtain ⟨bare, unquoted, level, -⟩ := balanced
  exact ⟨bare, unquoted, level⟩

/-- A fact about the fronts of a text is one about the empty front and those behind its first
character. -/
theorem forall_prefix_cons {p : List Char → Prop} : (∀ front, front <+: c :: rest → p front) ↔
    p [] ∧ ∀ front, front <+: rest → p (c :: front) := by
  constructor
  · intro each
    refine ⟨each [] List.nil_prefix, fun front behind => each _ ?_⟩
    exact List.cons_prefix_cons.mpr ⟨rfl, behind⟩
  · rintro ⟨empty, each⟩ front inside
    obtain rfl | ⟨tail, rfl, behind⟩ := List.prefix_cons_iff.mp inside
    · exact empty
    · exact each tail behind

/-- A depth is left where no front closes more than is open, and it counts what stays open. -/
theorem depthBehind_eq_some : depthBehind d bare = some e ↔
    (∀ front, front <+: bare → front.count ')' ≤ d + front.count '(') ∧
      e + bare.count ')' = d + bare.count '(' := by
  -- The first character opens one, closes one of those that are open, or does neither.
  induction bare generalizing d with
  | nil => simp [depthBehind, eq_comm]
  | cons c rest ih =>
    rw [depthBehind, forall_prefix_cons]
    split
    · rename_i opening
      rw [eq_of_beq opening, ih]
      simp only [List.count_cons_self, List.count_cons_of_ne (show '(' ≠ ')' by decide)]
      simp [← Nat.add_assoc, Nat.add_right_comm d 1]
    split
    · rename_i closing
      rw [eq_of_beq closing]
      simp only [List.count_cons_self, List.count_cons_of_ne (show ')' ≠ '(' by decide)]
      cases d with
      | zero =>
        refine iff_of_false nofun ?_
        rintro ⟨⟨-, each⟩, -⟩
        exact absurd (each [] List.nil_prefix) (by decide)
      | succ d =>
        rw [if_neg (Nat.succ_ne_zero d), Nat.add_sub_cancel, ih]
        simp only [List.count_nil, Nat.zero_le, true_and, ← Nat.add_assoc, Nat.add_right_comm d 1]
        simp only [Nat.add_le_add_iff_right, Nat.add_right_cancel_iff]
    · rename_i notOpening notClosing
      rw [beq_iff_eq] at notOpening notClosing
      rw [ih]
      simp only [List.count_cons_of_ne notOpening, List.count_cons_of_ne notClosing]
      simp

/-- The depth behind a text is counted on from the one behind its first character. -/
theorem depthBehind_cons (d : Nat) (c : Char) (rest : List Char) :
    depthBehind d (c :: rest) = (depthBehind d [c]).bind (depthBehind · rest) := by
  simp only [depthBehind]
  split_ifs <;> rfl

/-- Outside of strings a scan goes on with the depth behind a character, or ends there. -/
theorem closing_outside (other : c ≠ '\'') (rest : List Char) (d n : Nat) :
    Cursor.closing (c :: rest) d false n
      = match depthBehind d [c] with
        | some e => Cursor.closing rest e false (n + 1)
        | none => some n := by
  have quote : (c == '\'') = false := beq_eq_false_iff_ne.mpr other
  rw [Cursor.closing.eq_def, depthBehind]
  simp only [quote, Bool.not_false, Bool.and_true, Bool.false_eq_true, if_false]
  split_ifs
  · rfl
  · cases d <;> trivial
  · cases d <;> trivial
  · rfl

/-- A quote starts or ends a string. -/
theorem closing_quote (rest : List Char) (d : Nat) (q : Bool) (n : Nat) :
    Cursor.closing ('\'' :: rest) d q n = Cursor.closing rest d (!q) (n + 1) :=
  rfl

/-- The content of a string is passed; a doubled quote ends one string and starts another. -/
theorem closing_doubled (content rest : List Char) (d n : Nat) :
    Cursor.closing (doubled '\'' content ++ rest) d true n
      = Cursor.closing rest d true (n + (doubled '\'' content).length) := by
  -- Only a quote could end the string, and behind its double the scan is inside one again.
  induction content generalizing n with
  | nil => rfl
  | cons c content ih =>
    rw [doubled]
    split
    · rw [List.cons_append, List.cons_append, closing_quote, closing_quote, Bool.not_not, ih,
        List.length_cons, List.length_cons]
      congr 1
      omega
    · rename_i other
      have passed : Cursor.closing (c :: (doubled '\'' content ++ rest)) d true n
          = Cursor.closing (doubled '\'' content ++ rest) d true (n + 1) := by
        simp [Cursor.closing.eq_def (c :: _), other]
      rw [List.cons_append, passed, ih, List.length_cons]
      congr 1
      omega

namespace Unquoted

/-- A string is passed as a whole. -/
theorem closing_string (content rest : List Char) (d n : Nat) :
    Cursor.closing ('\'' :: (doubled '\'' content ++ '\'' :: rest)) d false n
      = Cursor.closing rest d false (n + (doubled '\'' content).length + 2) := by
  rw [closing_quote, Bool.not_false, closing_doubled, closing_quote, Bool.not_true]
  congr 1
  omega

/-- A string is as long as its content with two quotes. -/
theorem length_string (content chars : List Char) :
    ('\'' :: (doubled '\'' content ++ '\'' :: chars)).length
      = (doubled '\'' content).length + 2 + chars.length := by
  rw [List.length_cons, List.length_append, List.length_cons]
  omega

/-- A scan passes a text that leaves some depth, and goes on with that depth. -/
theorem closing_behind (unquoted : Unquoted chars bare) (left : depthBehind d bare = some e)
    (rest : List Char) (n : Nat) :
    Cursor.closing (chars ++ rest) d false n = Cursor.closing rest e false (n + chars.length) := by
  -- Strings change no depth, and any other character counts for both.
  induction unquoted generalizing d n with
  | nil =>
    cases left
    rfl
  | cons other _ ih =>
    rw [depthBehind_cons] at left
    obtain ⟨between, first, left⟩ := Option.bind_eq_some_iff.mp left
    rw [List.cons_append, closing_outside other, first]
    dsimp only
    rw [ih left, List.length_cons, Nat.add_right_comm, Nat.add_assoc]
  | string content _ ih =>
    rw [List.cons_append, List.append_assoc, List.cons_append, closing_string, ih left,
      length_string, ← Nat.add_assoc, ← Nat.add_assoc]

/-- A scan ends inside a text that closes more than is open. -/
theorem closing_inside (unquoted : Unquoted chars bare) (beyond : depthBehind d bare = none)
    (rest : List Char) (n : Nat) :
    ∃ m < n + chars.length, Cursor.closing (chars ++ rest) d false n = some m := by
  induction unquoted generalizing d n with
  | nil => cases beyond
  | cons other _ ih =>
    rw [depthBehind_cons] at beyond
    rw [List.cons_append, closing_outside other, List.length_cons]
    split
    · rename_i between first
      rw [first] at beyond
      obtain ⟨m, less, found⟩ := ih beyond (n + 1)
      exact ⟨m, by omega, found⟩
    · exact ⟨n, by omega, rfl⟩
  | string content _ ih =>
    obtain ⟨m, less, found⟩ := ih beyond (n + (doubled '\'' content).length + 2)
    refine ⟨m, ?_, ?_⟩
    · rw [length_string]
      omega
    · rw [List.cons_append, List.append_assoc, List.cons_append, closing_string, found]

/-- A string stays one with another character at its front. -/
theorem lengthen (unquoted : Unquoted ('\'' :: chars) bare) (other : c ≠ '\'') :
    Unquoted ('\'' :: c :: chars) bare := by
  cases unquoted with
  | cons quote _ => exact absurd rfl quote
  | string content rest =>
    have longer := Unquoted.string (c :: content) rest
    rwa [doubled, if_neg (beq_iff_eq.not.mpr other)] at longer

end Unquoted

/-- A scan that ends has passed a text that leaves nothing open; a string that was open at its
start ends in the text. -/
theorem closing_found (found : Cursor.closing chars d q n = some m) :
    ∃ inside behind bare, chars = inside ++ ')' :: behind ∧ m = n + inside.length ∧
      Unquoted (if q then '\'' :: inside else inside) bare ∧ depthBehind d bare = some 0 := by
  -- Of a string that is open only the end is in the text, so its start is put in front of it.
  fun_induction Cursor.closing chars d q n with
  | case1 => cases found
  | case2 c rest d q n quote ih =>
    obtain ⟨inside, behind, bare, rfl, rfl, unquoted, left⟩ := ih found
    rw [eq_of_beq quote]
    refine ⟨'\'' :: inside, behind, bare, rfl, by rw [List.length_cons]; omega, ?_, left⟩
    cases q with
    | false => exact unquoted
    | true => exact .string [] unquoted
  | case3 c rest d q n quote opening ih =>
    rw [Bool.and_eq_true, Bool.not_eq_true'] at opening
    obtain ⟨opening, rfl⟩ := opening
    obtain ⟨inside, behind, bare, rfl, rfl, unquoted, left⟩ := ih found
    refine ⟨c :: inside, behind, c :: bare, rfl, by rw [List.length_cons]; omega, ?_, ?_⟩
    · exact .cons (beq_iff_eq.not.mp quote) unquoted
    · rw [depthBehind, if_pos opening, left]
  | case4 c rest q n quote opening closing =>
    rw [Bool.and_eq_true, Bool.not_eq_true'] at closing
    obtain ⟨closing, rfl⟩ := closing
    cases found
    rw [eq_of_beq closing]
    exact ⟨[], rest, [], rfl, rfl, .nil, rfl⟩
  | case5 c rest q n quote opening closing d ih =>
    rw [Bool.and_eq_true, Bool.not_eq_true'] at closing
    obtain ⟨closing, rfl⟩ := closing
    obtain ⟨inside, behind, bare, rfl, rfl, unquoted, left⟩ := ih found
    refine ⟨c :: inside, behind, c :: bare, rfl, by rw [List.length_cons]; omega, ?_, ?_⟩
    · exact .cons (beq_iff_eq.not.mp quote) unquoted
    · rw [eq_of_beq closing]
      exact left
  | case6 c rest d q n quote opening closing ih =>
    obtain ⟨inside, behind, bare, rfl, rfl, unquoted, left⟩ := ih found
    have other := beq_iff_eq.not.mp quote
    cases q with
    | true =>
      refine ⟨c :: inside, behind, bare, rfl, by rw [List.length_cons]; omega, ?_, left⟩
      exact unquoted.lengthen other
    | false =>
      refine ⟨c :: inside, behind, c :: bare, rfl, by rw [List.length_cons]; omega, ?_, ?_⟩
      · exact .cons other unquoted
      · rw [Bool.not_false, Bool.and_true] at opening closing
        rw [depthBehind, if_neg opening, if_neg closing, left]

/-- A scan ends no later than behind a level text. -/
theorem IsLevel.closing (level : IsLevel chars) (rest : List Char) :
    ∃ m ≤ chars.length, Cursor.closing (chars ++ ')' :: rest) 0 false 0 = some m := by
  obtain ⟨bare, unquoted, level⟩ := level
  -- Either the scan ends inside the text, or what is left of it closes as many as it opens.
  cases left : depthBehind 0 bare with
  | none =>
    obtain ⟨m, less, found⟩ := unquoted.closing_inside left (')' :: rest) 0
    exact ⟨m, by omega, found⟩
  | some e =>
    obtain ⟨-, counted⟩ := depthBehind_eq_some.mp left
    obtain rfl : e = 0 := by omega
    refine ⟨chars.length, Nat.le_refl _, ?_⟩
    rw [unquoted.closing_behind left, Nat.zero_add]
    rfl

/-- A scan ends right behind a balanced text. -/
theorem IsBalanced.closing (balanced : IsBalanced chars) (rest : List Char) :
    Cursor.closing (chars ++ ')' :: rest) 0 false 0 = some chars.length := by
  obtain ⟨bare, unquoted, level, opened⟩ := balanced
  have left : depthBehind 0 bare = some 0 := by
    refine depthBehind_eq_some.mpr ⟨fun front inside => ?_, by omega⟩
    rw [Nat.zero_add]
    exact opened front inside
  rw [unquoted.closing_behind left, Nat.zero_add]
  rfl

/-- What a scan has passed is balanced. -/
theorem isBalanced_of_closing (found : Cursor.closing chars 0 false 0 = some m) :
    ∃ inside behind, chars = inside ++ ')' :: behind ∧ m = inside.length ∧
      IsBalanced inside := by
  obtain ⟨inside, behind, bare, rfl, rfl, unquoted, left⟩ := closing_found found
  obtain ⟨opened, counted⟩ := depthBehind_eq_some.mp left
  refine ⟨inside, behind, rfl, Nat.zero_add _, bare, unquoted, by omega, fun front begins => ?_⟩
  have front_ := opened front begins
  omega

end

namespace Scanner

variable {s next : Scanner} {inner inside behind : List Char}

/-- Where characters are left the offset is not inside one. -/
theorem isAligned_of_rest (some_ : s.rest ≠ []) : s.IsAligned := by
  refine isAligned_iff.mpr ?_
  unfold Scanner.rest at *
  generalize s.text.toList = chars at *
  generalize s.offset = offset at *
  -- Whole characters are passed until no bytes are left to pass.
  fun_induction ExpressionError.charsFrom chars offset with
  | case1 chars => exact ⟨[], rfl, rfl⟩
  | case2 => exact absurd rfl some_
  | case3 c rest offset positive inside => exact absurd rfl some_
  | case4 c rest offset positive outside ih =>
    obtain ⟨front, whole, bytes⟩ := ih some_
    refine ⟨c :: front, congrArg (c :: ·) whole, ?_⟩
    rw [byteLength, ← bytes]
    omega

/-- From an opening parenthesis on, the scan behind it tells the outcome. -/
theorem outcome_matchingParenthesis (opens : s.rest = '(' :: inner) :
    matchingParenthesis.outcome s = match Cursor.closing inner 0 false 0 with
      | some n => (.ok (String.ofList (inner.take n)), s.advance (n + 2))
      | none => (.error (s.cursor.error "unbalanced parenthesis"), s) := by
  have aligned : s.IsAligned := isAligned_of_rest (by rw [opens]; exact List.cons_ne_nil _ _)
  have behind : (s.advance 1).rest = inner := by
    have place := congrArg Cursor.rest (cursor_advance aligned 1)
    rw [Cursor.advance, show s.cursor.rest = _ from opens] at place
    exact place
  have opened : (Scanner.char '(').outcome s
      = (.ok (String.ofList (s.rest.take 1)), s.advance 1) := by
    rw [Scanner.char, Scanner.recognize, outcome_get_bind, opens]
    rfl
  rw [matchingParenthesis, outcome_get_bind, outcome_bind_ok opened, outcome_get_bind, behind]
  cases Cursor.closing inner 0 false 0 with
  | none =>
    dsimp only
    rw [outcome_set_bind, outcome_refuse aligned]
  | some n =>
    dsimp only
    rw [outcome_set_bind, outcome_pure, advance_advance aligned, Nat.add_comm 1]

/-- A move over a text in parentheses takes its bytes and leaves what follows it. -/
theorem advance_enclosed (opens : s.rest = '(' :: (inside ++ ')' :: behind)) :
    (s.advance (inside.length + 2)).offset = s.offset + byteLength ('(' :: (inside ++ [')'])) ∧
      (s.advance (inside.length + 2)).rest = behind := by
  have aligned : s.IsAligned := isAligned_of_rest (by rw [opens]; exact List.cons_ne_nil _ _)
  -- As many characters are passed as the text has with its parentheses.
  have whole : s.rest = '(' :: (inside ++ [')']) ++ behind := by
    rw [opens, List.cons_append, List.append_assoc, List.singleton_append]
  have length : ('(' :: (inside ++ [')'])).length = inside.length + 2 := by
    rw [List.length_cons, List.length_append, List.length_singleton]
  constructor
  · rw [advance, whole, List.take_left' length]
  · have place := congrArg Cursor.rest (cursor_advance aligned (inside.length + 2))
    rw [Cursor.advance, show s.cursor.rest = _ from whole, List.drop_left' length] at place
    exact place

/-- A group is the text up to the first parenthesis that closes the one in front of it. -/
structure IsGroup (s : Scanner) (inside : List Char) (next : Scanner) : Prop where
  enclosed : s.rest = '(' :: (inside ++ ')' :: next.rest)
  balanced : IsBalanced inside
  first {other after : List Char} (enclosed : s.rest = '(' :: (other ++ ')' :: after))
    (level : IsLevel other) : inside.length ≤ other.length
  text : next.text = s.text
  offset : next.offset = s.offset + byteLength ('(' :: (inside ++ [')']))

/-- A balanced text in parentheses is found as it is, whatever follows it. -/
theorem matchingParenthesis_balanced (enclosed : s.rest = '(' :: (inside ++ ')' :: behind))
    (balanced : IsBalanced inside) : matchingParenthesis.outcome s
      = (.ok (String.ofList inside), s.advance (inside.length + 2)) := by
  rw [outcome_matchingParenthesis enclosed, balanced.closing behind]
  dsimp only
  rw [List.take_left' rfl]

/-- What is found behind an opening parenthesis is a group. -/
theorem isGroup_of_matchingParenthesis {text : String} (opens : s.rest = '(' :: inner)
    (found : matchingParenthesis.outcome s = (.ok text, next)) : s.IsGroup text.toList next := by
  have outcome := outcome_matchingParenthesis opens
  rw [found] at outcome
  cases closed : Cursor.closing inner 0 false 0 with
  | none =>
    rw [closed] at outcome
    cases outcome
  | some m =>
    obtain ⟨inside, behind, rfl, rfl, balanced⟩ := isBalanced_of_closing closed
    have same := found.symm.trans (matchingParenthesis_balanced opens balanced)
    obtain ⟨rfl, rfl⟩ : text = String.ofList inside ∧ next = s.advance (inside.length + 2) := by
      simpa only [Prod.mk.injEq, Except.ok.injEq] using same
    obtain ⟨offset, left⟩ := advance_enclosed opens
    rw [String.toList_ofList]
    refine ⟨by rw [left, opens], balanced, fun {other after} enclosed level => ?_, rfl, offset⟩
    -- The scan has ended no later than behind the other text.
    obtain ⟨m, within, ended⟩ := level.closing after
    obtain ⟨-, same⟩ := List.cons.inj (opens.symm.trans enclosed)
    rw [← same, closed] at ended
    exact (Option.some.inj ended).trans_le within

/-- At an opening parenthesis a group is found exactly where some parenthesis further on closes it,
and it goes up to the first that does, with the offset behind that; a balanced text in parentheses
is found as it is, whatever follows. -/
theorem matchingParenthesis_group (s : Scanner) (opens : s.peek = some '(') :
    ((∃ text, (matchingParenthesis.outcome s).1 = .ok text) ↔
      ∃ inside behind, s.rest = '(' :: (inside ++ ')' :: behind) ∧ IsLevel inside) ∧
    (∀ text next, matchingParenthesis.outcome s = (.ok text, next) →
      s.IsGroup text.toList next) ∧
    ∀ inside behind, s.rest = '(' :: (inside ++ ')' :: behind) → IsBalanced inside →
      ∃ next, matchingParenthesis.outcome s = (.ok (String.ofList inside), next) ∧
        next.rest = behind := by
  obtain ⟨inner, at_⟩ := List.head?_eq_some_iff.mp opens
  refine ⟨⟨?_, ?_⟩, fun text next => isGroup_of_matchingParenthesis at_, ?_⟩
  · rintro ⟨text, found⟩
    have group := isGroup_of_matchingParenthesis at_ (Prod.ext found rfl)
    exact ⟨_, _, group.enclosed, group.balanced.isLevel⟩
  · -- A level text need not be balanced, but then the scan ends before it does.
    rintro ⟨inside, behind, enclosed, level⟩
    obtain ⟨m, -, ended⟩ := level.closing behind
    rw [outcome_matchingParenthesis enclosed, ended]
    exact ⟨_, rfl⟩
  · intro inside behind enclosed balanced
    exact ⟨_, matchingParenthesis_balanced enclosed balanced, (advance_enclosed enclosed).2⟩

/-- Behind a character of two bytes, a group is found whose string has both parentheses. -/
theorem matchingParenthesis_group_of_string :
    (Scanner.mk "é('a)''(' (b))!" 2).peek = some '(' ∧
      ∃ next, matchingParenthesis.outcome ⟨"é('a)''(' (b))!", 2⟩ = (.ok "'a)''(' (b)", next) ∧
        next.rest = ['!'] := by
  have opens : (Scanner.mk "é('a)''(' (b))!" 2).peek = some '(' := by decide +kernel
  have unquoted : Unquoted ("'a)''(' (b)".toList) [' ', '(', 'b', ')'] :=
    .string ['a', ')', '\'', '('] (.cons (by decide) (.cons (by decide)
      (.cons (by decide) (.cons (by decide) .nil))))
  have opened : ∀ front ∈ [' ', '(', 'b', ')'].inits, front.count ')' ≤ front.count '(' := by decide
  have balanced : IsBalanced "'a)''(' (b)".toList :=
    ⟨_, unquoted, rfl, fun front begins => opened front ((List.mem_inits front _).mpr begins)⟩
  exact ⟨opens, (matchingParenthesis_group _ opens).2.2 "'a)''(' (b)".toList ['!']
    (by decide +kernel) balanced⟩

end Scanner

end EdmQuery
