import Mathlib
import EdmQuery.Expr.BuiltIn
import EdmQuery.Proofs.Sql.Search

/-! Searching, cutting and joining texts: the functions agree on where a part of a text is. -/

namespace EdmQuery

namespace Text

/-- A text that fits into memory: its bytes are counted by a number that is a value. -/
def IsHeld (text : String) : Prop :=
  byteLength text.toList < 2 ^ 63

/-- Every character takes a byte at least. -/
theorem length_le_byteLength (chars : List Char) : chars.length ≤ byteLength chars := by
  induction chars with
  | nil => rfl
  | cons c rest ih =>
    -- One more character takes some more bytes.
    have taken := c.utf8Size_pos
    rw [List.length_cons, byteLength]
    omega

/-- The characters of a text that is held are counted by a number that is a value. -/
theorem IsHeld.length_lt {text : String} (held : IsHeld text) : text.toList.length < 2 ^ 63 :=
  (length_le_byteLength _).trans_lt held

/-- A list begins in another behind so many members, and behind no fewer. -/
def FirstAt {α : Type} (part whole : List α) (n : Nat) : Prop :=
  part <+: whole.drop n ∧ n ≤ whole.length ∧ ∀ j < n, ¬ part <+: whole.drop j

/-- The number of characters before a part is that of the first place where the part begins. -/
theorem indexOf?_eq_some_iff {part whole : List Char} {k : Nat} :
    indexOf? part whole = some k ↔ FirstAt part whole k := by
  unfold FirstAt
  -- The search moves along the whole one character at a time.
  induction whole generalizing k with
  | nil =>
    cases part with
    | nil =>
      -- Nothing is found at the start of nothing.
      rw [indexOf?, List.isEmpty_nil, if_pos rfl, Option.some_inj]
      constructor
      · rintro rfl
        exact ⟨List.prefix_rfl, le_rfl, fun j less => absurd less j.not_lt_zero⟩
      · rintro ⟨-, least, -⟩
        exact (Nat.le_zero.mp least).symm
    | cons c rest => simp [indexOf?]
  | cons c rest ih =>
    rw [indexOf?]
    by_cases here : part <+: c :: rest
    · -- The part begins right here, which is before any other place.
      rw [if_pos (List.isPrefixOf_iff_prefix.mpr here)]
      constructor
      · rintro ⟨⟩
        exact ⟨here, Nat.zero_le _, fun j less => absurd less j.not_lt_zero⟩
      · rintro ⟨-, -, first⟩
        -- A later place would not be the first one.
        cases k with
        | zero => rfl
        | succ k => exact absurd here (first 0 (Nat.succ_pos k))
    · -- Otherwise its place is one further on than in the rest.
      rw [if_neg (mt List.isPrefixOf_iff_prefix.mp here)]
      cases k with
      | zero => simpa using here
      | succ k =>
        simp only [Option.map_eq_some_iff, Nat.add_right_cancel_iff, exists_eq_right, ih,
          List.drop_succ_cons, List.length_cons, Nat.add_le_add_iff_right]
        refine and_congr_right fun _ => and_congr_right fun _ => ⟨fun first j less => ?_, ?_⟩
        · cases j with
          | zero => exact here
          | succ j => exact first j (Nat.lt_of_succ_lt_succ less)
        · exact fun first j less => first (j + 1) (Nat.succ_lt_succ less)

/-- A list begins first in another behind no two numbers of members. -/
theorem FirstAt.unique {α : Type} {part whole : List α} {n k : Nat} (one : FirstAt part whole n)
    (other : FirstAt part whole k) : n = k := by
  obtain less | same | less := Nat.lt_trichotomy n k
  · exact absurd one.1 (other.2.2 n less)
  · exact same
  · exact absurd other.1 (one.2.2 k less)

/-- The bytes of characters in UTF-8. -/
def bytes (chars : List Char) : List UInt8 :=
  chars.flatMap String.utf8EncodeChar

/-- The bytes of a character stand before those of the others. -/
theorem bytes_cons (c : Char) (rest : List Char) :
    bytes (c :: rest) = String.utf8EncodeChar c ++ bytes rest :=
  List.flatMap_cons

/-- The bytes of characters are counted by what each of them takes. -/
theorem length_bytes (chars : List Char) : (bytes chars).length = byteLength chars := by
  induction chars with
  | nil => rfl
  | cons c rest ih =>
    rw [bytes_cons, List.length_append, String.length_utf8EncodeChar, ih, byteLength]

/-- Behind the bytes of the first characters come those of the others. -/
theorem drop_bytes (chars : List Char) (k : Nat) :
    (bytes chars).drop (byteLength (chars.take k)) = bytes (chars.drop k) := by
  have split : bytes chars = bytes (chars.take k) ++ bytes (chars.drop k) := by
    rw [bytes, bytes, bytes, ← List.flatMap_append, List.take_append_drop]
  rw [split, ← length_bytes, List.drop_left]

/-- The first character is known from its bytes, whatever bytes come behind them. -/
theorem eq_of_utf8EncodeChar_append {c d : Char} {behind behind' : List UInt8}
    (same : String.utf8EncodeChar c ++ behind = String.utf8EncodeChar d ++ behind') : c = d := by
  have decoded (c : Char) (behind : List UInt8) :
      (String.utf8EncodeChar c ++ behind).toByteArray.utf8DecodeChar? 0 = some c := by
    rw [List.toByteArray_append, ByteArray.utf8DecodeChar?_utf8EncodeChar_append]
  exact Option.some.inj ((decoded c behind).symm.trans (same ▸ decoded d behind'))

/-- Characters begin others exactly when their bytes begin the bytes of the others. -/
theorem bytes_prefix_iff {part whole : List Char} :
    bytes part <+: bytes whole ↔ part <+: whole := by
  induction part generalizing whole with
  | nil => exact iff_of_true (List.nil_prefix) List.nil_prefix
  | cons p part ih =>
    cases whole with
    | nil =>
      refine iff_of_false (fun same => ?_) (by simp)
      have none := List.prefix_nil.mp same
      rw [bytes_cons, List.append_eq_nil_iff] at none
      exact String.utf8EncodeChar_ne_nil none.1
    | cons c rest =>
      rw [bytes_cons, bytes_cons]
      constructor
      · rintro ⟨behind, same⟩
        rw [List.append_assoc] at same
        -- Both begin with the same character, so the bytes behind it begin alike as well.
        cases eq_of_utf8EncodeChar_append same
        have others : bytes part <+: bytes rest := ⟨behind, List.append_cancel_left same⟩
        exact List.cons_prefix_cons.mpr ⟨rfl, ih.mp others⟩
      · intro begins
        obtain ⟨rfl, others⟩ := List.cons_prefix_cons.mp begins
        exact (List.prefix_append_right_inj _).mpr (ih.mpr others)

/-- The bytes of a text with a character at least begin nowhere inside those of a character. -/
theorem not_prefix_inside {p c : Char} {part : List Char} {behind : List UInt8} {n : Nat}
    (inside : 0 < n) (within : n < (String.utf8EncodeChar c).length) :
    ¬ bytes (p :: part) <+: (String.utf8EncodeChar c ++ behind).drop n := by
  rintro ⟨more, same⟩
  have some_ := List.length_pos_iff.mpr (String.utf8EncodeChar_ne_nil (c := p))
  rw [bytes_cons, List.append_assoc] at same
  -- The byte at the place would be the first one of a character and a later one of another.
  have first : (String.utf8EncodeChar p)[0].IsUTF8FirstByte :=
    UInt8.isUTF8FirstByte_getElem_utf8EncodeChar.mpr rfl
  have equal : (String.utf8EncodeChar c)[n] = (String.utf8EncodeChar p)[0] := by
    have heads := congrArg (·[0]?) same
    simp only [List.getElem?_drop, List.getElem?_append_left some_] at heads
    rw [Nat.add_zero, List.getElem?_append_left within, List.getElem?_eq_getElem within,
      List.getElem?_eq_getElem some_] at heads
    exact (Option.some.inj heads).symm
  have start := UInt8.isUTF8FirstByte_getElem_utf8EncodeChar.mp (equal ▸ first)
  omega

/-- Where the bytes of a text with a character at least begin, so does the text. -/
theorem exists_place {part whole : List Char} {n : Nat} (some_ : part ≠ [])
    (begins : bytes part <+: (bytes whole).drop n) :
    ∃ k ≤ whole.length, n = byteLength (whole.take k) ∧ part <+: whole.drop k := by
  obtain ⟨p, part, rfl⟩ := List.exists_cons_of_ne_nil some_
  induction whole generalizing n with
  | nil =>
    simp [bytes] at begins
  | cons c rest ih =>
    rw [bytes_cons c rest] at begins
    by_cases start : n = 0
    · subst start
      rw [List.drop_zero, ← bytes_cons] at begins
      exact ⟨0, Nat.zero_le _, rfl, bytes_prefix_iff.mp begins⟩
    by_cases within : n < (String.utf8EncodeChar c).length
    · exact absurd begins (not_prefix_inside (Nat.pos_of_ne_zero start) within)
    · -- The place is behind the bytes of the first character.
      have behind := Nat.le_of_not_lt within
      rw [List.drop_append, List.drop_of_length_le behind, List.nil_append] at begins
      obtain ⟨k, bounded, place, here⟩ := ih begins
      refine ⟨k + 1, Nat.succ_le_succ bounded, ?_, here⟩
      rw [List.take_succ_cons, byteLength, ← place, ← String.length_utf8EncodeChar]
      omega

/-- Characters that begin others take no more bytes. -/
theorem byteLength_mono {part whole : List Char} (begins : part <+: whole) :
    byteLength part ≤ byteLength whole := by
  rw [← length_bytes, ← length_bytes]
  exact (bytes_prefix_iff.mpr begins).length_le

/-- A part that begins somewhere in a text is found by its search. -/
theorem exists_indexOf? {part whole : List Char} {k : Nat} (within : k ≤ whole.length)
    (here : part <+: whole.drop k) : ∃ i, indexOf? part whole = some i := by
  have somewhere : ∃ j, part <+: whole.drop j := ⟨k, here⟩
  exact ⟨Nat.find somewhere, indexOf?_eq_some_iff.mpr ⟨Nat.find_spec somewhere,
    (Nat.find_min' somewhere here).trans within, fun j less => Nat.find_min somewhere less⟩⟩

/--
Searching the bytes of a text finds the place that searching its characters does.

What comes before it is counted in bytes there and in characters here.
-/
theorem firstAt_bytes_iff {part whole : List Char} {n : Nat} :
    FirstAt (bytes part) (bytes whole) n ↔
      ∃ k, indexOf? part whole = some k ∧ n = byteLength (whole.take k) := by
  have found {k : Nat} (place : indexOf? part whole = some k) :
      FirstAt (bytes part) (bytes whole) (byteLength (whole.take k)) := by
    obtain ⟨here, -, first⟩ := indexOf?_eq_some_iff.mp place
    refine ⟨?_, ?_, fun j less earlier => ?_⟩
    · rw [drop_bytes]
      exact bytes_prefix_iff.mpr here
    · rw [length_bytes]
      exact byteLength_mono (List.take_prefix k whole)
    · -- Bytes that begin earlier would belong to characters that begin earlier.
      obtain ⟨i, before, began⟩ : ∃ i < k, part <+: whole.drop i := by
        obtain rfl | some_ := eq_or_ne part []
        · exact ⟨0, Nat.pos_of_ne_zero (by rintro rfl; exact absurd less j.not_lt_zero),
            List.nil_prefix⟩
        · obtain ⟨i, -, rfl, began⟩ := exists_place some_ earlier
          refine ⟨i, ?_, began⟩
          by_contra later
          exact less.not_ge (byteLength_mono
            (List.take_prefix_take_left (Nat.le_of_not_lt later)))
      exact first i before began
  constructor
  · intro begins
    obtain ⟨k, place⟩ : ∃ k, indexOf? part whole = some k := by
      obtain rfl | some_ := eq_or_ne part []
      · exact exists_indexOf? (Nat.zero_le _) List.nil_prefix
      · obtain ⟨k, within, -, here⟩ := exists_place some_ begins.1
        exact exists_indexOf? within here
    exact ⟨k, place, begins.unique (found place)⟩
  · rintro ⟨k, place, rfl⟩
    exact found place

end Text

namespace BuiltIn

open Text

variable {a b : String} {k n : Int64}

/-- The place of a part is what its search finds, or less than any place. -/
theorem evaluate_indexOf (a b : String) :
    indexOf.evaluate [.string a, .string b] =
      .integer (((indexOf? b.toList a.toList).map Int64.ofNat).getD (-1)) := by
  show evaluateText .indexOf [.string a, .string b] = _
  rw [evaluateText]
  cases indexOf? b.toList a.toList <;> rfl

/-- A text begins with another behind some characters exactly when that one is a prefix there. -/
theorem evaluate_startsWith_substring (a b : String) (k : Int64) :
    startsWith.evaluate [substring.evaluate [.string a, .integer k], .string b] =
      .boolean (b.toList.isPrefixOf (a.toList.drop k.toInt.toNat)) := by
  show Value.boolean (b.toList.isPrefixOf (String.ofList _).toList) = _
  rw [String.toList_ofList]

/-- The characters up to a place and those from there on are all of a text. -/
theorem concat_substring (a : String) (n : Int64) :
    concat.evaluate [substring.evaluate [.string a, .integer 0, .integer n],
      substring.evaluate [.string a, .integer n]] = .string a := by
  show Value.string (String.ofList (a.toList.take n.toInt.toNat) ++
    String.ofList (a.toList.drop n.toInt.toNat)) = _
  rw [← String.ofList_append, List.take_append_drop, String.ofList_toList]

/-- What the search for a part gives is a place in the text where it begins first, if any. -/
theorem indexOf_places (held : IsHeld a)
    (found : indexOf.evaluate [.string a, .string b] = .integer k) :
    (contains.evaluate [.string a, .string b] = .boolean (decide (0 ≤ k))) ∧
    (0 ≤ k → startsWith.evaluate [substring.evaluate [.string a, .integer k], .string b]
        = .boolean true ∧
      ∀ j, 0 ≤ j → j < k →
        startsWith.evaluate [substring.evaluate [.string a, .integer j], .string b]
          = .boolean false) := by
  rw [evaluate_indexOf] at found
  cases place : indexOf? b.toList a.toList with
  | none =>
    -- Without a place the number is less than zero.
    rw [place] at found
    cases found
    have absent : contains.evaluate [.string a, .string b] = .boolean false :=
      congrArg (fun o => Value.boolean (Option.isSome o)) place
    exact ⟨absent, fun nonneg => absurd nonneg (by decide)⟩
  | some i =>
    rw [place] at found
    cases found
    have present : contains.evaluate [.string a, .string b] = .boolean true :=
      congrArg (fun o => Value.boolean (Option.isSome o)) place
    obtain ⟨here, within, first⟩ := indexOf?_eq_some_iff.mp place
    -- The place is within a text that is held, so it is the same number as a value.
    have small : (Int64.ofNat i).toInt = i :=
      Int64.toInt_ofNat_of_lt (within.trans_lt held.length_lt)
    have nonneg : (0 : Int64) ≤ Int64.ofNat i := by
      rw [Int64.le_iff_toInt_le, small]
      exact Int.natCast_nonneg i
    refine ⟨?_, fun _ => ⟨?_, fun j least less => ?_⟩⟩
    · rw [present]
      exact congrArg Value.boolean (decide_eq_true nonneg).symm
    · rw [evaluate_startsWith_substring]
      show Value.boolean (List.isPrefixOf _ (List.drop (Int64.ofNat i).toInt.toNat _)) = _
      rw [small, Int.toNat_natCast, List.isPrefixOf_iff_prefix.mpr here]
    · -- A place before it would have been found instead.
      rw [evaluate_startsWith_substring]
      rw [Int64.le_iff_toInt_le, Int64.toInt_zero] at least
      replace less : j < Int64.ofNat i := less
      rw [Int64.lt_iff_toInt_lt, small] at less
      have earlier := first j.toInt.toNat (by omega)
      rw [← List.isPrefixOf_iff_prefix, Bool.not_eq_true] at earlier
      rw [earlier]

/-- The characters of two texts behind each other are those of both. -/
theorem length_concat (held : IsHeld (a ++ b)) :
    length.evaluate [concat.evaluate [.string a, .string b]]
      = .integer (Int64.ofNat a.toList.length + Int64.ofNat b.toList.length) ∧
    (Int64.ofNat a.toList.length + Int64.ofNat b.toList.length).toInt
      = (Int64.ofNat a.toList.length).toInt + (Int64.ofNat b.toList.length).toInt := by
  have both : (a ++ b).toList.length = a.toList.length + b.toList.length := by
    rw [String.toList_append, List.length_append]
  -- Both texts are held together, so their numbers are added without going over.
  have small := held.length_lt
  rw [both] at small
  have sum : Int64.ofNat a.toList.length + Int64.ofNat b.toList.length
      = Int64.ofNat (a.toList.length + b.toList.length) := (Int64.ofNat_add _ _).symm
  rw [sum, Int64.toInt_ofNat_of_lt small, Int64.toInt_ofNat_of_lt (by omega),
    Int64.toInt_ofNat_of_lt (by omega)]
  exact ⟨congrArg count both, Int.natCast_add _ _⟩

/-- A text that ends with another is that one from where the lengths differ. -/
theorem substring_of_endsWith (held : IsHeld a)
    (ends : endsWith.evaluate [.string a, .string b] = .boolean true) :
    (Int64.ofNat a.toList.length - Int64.ofNat b.toList.length).toInt
      = (Int64.ofNat a.toList.length).toInt - (Int64.ofNat b.toList.length).toInt ∧
    substring.evaluate [.string a,
      .integer (Int64.ofNat a.toList.length - Int64.ofNat b.toList.length)] = .string b := by
  have holds : b.toList.isSuffixOf a.toList = true := by
    injection ends with ends
    injection ends
  -- What a text ends with is not longer, so the difference of the lengths is a place in it.
  have last := List.isSuffixOf_iff_suffix.mp holds
  have shorter := last.length_le
  have small := held.length_lt
  have sizeA : (Int64.ofNat a.toList.length).toInt = a.toList.length :=
    Int64.toInt_ofNat_of_lt small
  have sizeB : (Int64.ofNat b.toList.length).toInt = b.toList.length :=
    Int64.toInt_ofNat_of_lt (by omega)
  have difference := Int64.toInt_sub_of_le (Int64.ofNat a.toList.length)
    (Int64.ofNat b.toList.length) (by rw [Int64.le_iff_toInt_le, sizeB]; exact Int.natCast_nonneg _)
    (by rw [Int64.le_iff_toInt_le, sizeA, sizeB]; omega)
  refine ⟨difference, ?_⟩
  show Value.string (String.ofList (a.toList.drop _)) = _
  rw [difference, sizeA, sizeB, ← Nat.cast_sub shorter, Int.toNat_natCast,
    ← List.suffix_iff_eq_drop.mp last, String.ofList_toList]

/-- The functions that search, cut, join and measure texts agree with each other.

A text contains another exactly when the other has a place in it, and then it is the first place
from which on the text starts with the other. The characters before and behind any number of them
make the text again, what is joined is as long as its parts together, and what a text ends with
is what is left of it from the difference of the lengths on. -/
theorem text_functions_agree (a b : String) (n : Int64) (held : IsHeld a) :
    ∃ k la lb : Int64,
      indexOf.evaluate [.string a, .string b] = .integer k ∧
      length.evaluate [.string a] = .integer la ∧ length.evaluate [.string b] = .integer lb ∧
      contains.evaluate [.string a, .string b] = .boolean (decide (0 ≤ k)) ∧
      (0 ≤ k →
        startsWith.evaluate [substring.evaluate [.string a, .integer k], .string b]
          = .boolean true ∧
        ∀ j, 0 ≤ j → j < k →
          startsWith.evaluate [substring.evaluate [.string a, .integer j], .string b]
            = .boolean false) ∧
      concat.evaluate [substring.evaluate [.string a, .integer 0, .integer n],
        substring.evaluate [.string a, .integer n]] = .string a ∧
      (IsHeld (a ++ b) →
        length.evaluate [concat.evaluate [.string a, .string b]] = .integer (la + lb) ∧
        (la + lb).toInt = la.toInt + lb.toInt) ∧
      (endsWith.evaluate [.string a, .string b] = .boolean true →
        (la - lb).toInt = la.toInt - lb.toInt ∧
        substring.evaluate [.string a, .integer (la - lb)] = .string b) := by
  have found := evaluate_indexOf a b
  obtain ⟨contained, places⟩ := indexOf_places held found
  exact ⟨_, Int64.ofNat a.toList.length, Int64.ofNat b.toList.length, found, rfl, rfl, contained,
    places, concat_substring a n, length_concat, substring_of_endsWith held⟩

/-- A part is found behind characters of several bytes, at the end of the text. -/
theorem text_functions_agree_of_accents :
    let a : Value := .string "sœur à l’été"
    let b : Value := .string "été"
    ∃ k la lb : Int64, k = 9 ∧ la - lb = 9 ∧ la + lb = 15 ∧
      indexOf.evaluate [a, b] = .integer k ∧
      startsWith.evaluate [substring.evaluate [a, .integer k], b] = .boolean true ∧
      length.evaluate [concat.evaluate [a, b]] = .integer (la + lb) ∧
      substring.evaluate [a, .integer (la - lb)] = b := by
  intro a b
  have held : IsHeld "sœur à l’été" := by unfold IsHeld; decide
  have heldBoth : IsHeld ("sœur à l’été" ++ "été") := by unfold IsHeld; decide
  obtain ⟨k, la, lb, found, whole, part, -, places, -, joined, ends⟩ :=
    text_functions_agree "sœur à l’été" "été" 3 held
  have atNine : indexOf.evaluate [a, b] = .integer 9 := by cbv
  have twelve : length.evaluate [a] = .integer 12 := by cbv
  have three : length.evaluate [b] = .integer 3 := by cbv
  cases found.symm.trans atNine
  cases whole.symm.trans twelve
  cases part.symm.trans three
  exact ⟨9, 12, 3, rfl, by decide, by decide, atNine, (places (by decide)).1,
    (joined heldBoth).1, (ends (by cbv)).2⟩

end BuiltIn

end EdmQuery
