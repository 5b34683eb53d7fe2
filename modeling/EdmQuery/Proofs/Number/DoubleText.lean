import Mathlib
import EdmQuery.Expr.Literal
import EdmQuery.Proofs.Number.Shortest
import EdmQuery.Proofs.Text.Digits

/-! Doubles written with an exponent, or by name, read back as themselves. -/

namespace EdmQuery

open Text Number

namespace Number

/-- A positive number of so many digits is between two powers of ten next to each other. -/
theorem Scientific.value_bounds {s : Scientific} (some : 0 < s.digits) :
    (10 : ℚ) ^ s.leading ≤ s.value ∧ s.value < 10 ^ (s.leading + 1) := by
  have ten : (10 : ℚ) ≠ 0 := by norm_num
  have unit : (0 : ℚ) < 10 ^ s.exponent := by positivity
  obtain ⟨length, same⟩ : ∃ length, (natText s.digits).length = length + 1 := by
    have positive := List.length_pos_of_ne_nil (natText_ne_nil s.digits)
    rw [String.length_toList] at positive
    exact ⟨(natText s.digits).length - 1, by omega⟩
  have leading : s.leading = (length : Int) + s.exponent := by
    rw [leading, same]
    push_cast
    ring
  have less : s.digits < 10 ^ (length + 1) := by
    rw [← length_natText_le (Nat.succ_pos _), String.length_toList, same]
  have most : 10 ^ length ≤ s.digits := by
    rcases Nat.eq_zero_or_pos length with rfl | positive
    · exact some
    · by_contra fewer
      have short := (length_natText_le positive).mpr (Nat.not_le.mp fewer)
      rw [String.length_toList] at short
      omega
  have next : s.leading + 1 = ((length + 1 : Nat) : Int) + s.exponent := by
    rw [leading]
    push_cast
    ring
  rw [next, leading, zpow_add₀ ten, zpow_add₀ ten, zpow_natCast, zpow_natCast, value,
    mul_le_mul_iff_left₀ unit, mul_lt_mul_iff_left₀ unit]
  constructor
  · exact_mod_cast most
  · exact_mod_cast less

/-- The magnitudes that are looked at cover the range of doubles. -/
theorem two_le_ten : (2 : ℚ) ^ (1075 : Int) ≤ 10 ^ (400 : Int) :=
  calc (2 : ℚ) ^ (1075 : Int) ≤ 2 ^ (3 * 400 : Int) :=
        zpow_le_zpow_right₀ one_le_two (by decide)
    _ = (2 ^ 3) ^ (400 : Int) := by
        rw [zpow_mul]
        rfl
    _ ≤ 10 ^ (400 : Int) := zpow_le_zpow_left₀ (by decide) (by norm_num) (by norm_num)

/-- A decimal in the interval of a canonical number reads as the double with the same bits. -/
theorem ofDecimal_eq {b : Binary} (canonical : b.Canonical) (some : 0 < b.mantissa)
    {s : Scientific} (holds : (Interval.ofBinary b).Holds s.value) :
    ofDecimal s.digits s.exponent = Float.ofBits (UInt64.ofNat b.bits) := by
  obtain ⟨low, high, -, -⟩ := holds.around some
  have unit : (0 : ℚ) < 2 ^ b.exponent := by positivity
  have mantissa : (1 : ℚ) ≤ b.mantissa := by exact_mod_cast some
  have short : (b.mantissa : ℚ) + 1 ≤ 2 ^ 53 := by exact_mod_cast canonical.mantissa_lt
  have mono {a b : Int} (le : a ≤ b) : (2 : ℚ) ^ a ≤ 2 ^ b := zpow_le_zpow_right₀ one_le_two le
  -- The number is in the range of doubles, so no power of ten is out of range.
  have least : (2 : ℚ) ^ (-1075 : Int) ≤ s.value := by
    rw [le_div_iff₀ unit] at low
    calc (2 : ℚ) ^ (-1075 : Int) ≤ 2 ^ (b.exponent - 1) := mono (by have := canonical.le_exponent; omega)
      _ = 1 / 2 * 2 ^ b.exponent := by
          rw [zpow_sub_one₀ two_ne_zero]
          ring
      _ ≤ (b.mantissa - 1 / 2) * 2 ^ b.exponent := by
          gcongr
          linarith
      _ ≤ s.value := low
  have most : s.value < (2 : ℚ) ^ (1024 : Int) := by
    rw [div_le_iff₀ unit] at high
    calc s.value ≤ (b.mantissa + 1 / 2) * 2 ^ b.exponent := high
      _ < 2 ^ 53 * 2 ^ b.exponent := by
          gcongr
          linarith
      _ ≤ 2 ^ 53 * 2 ^ (971 : Int) := by
          gcongr
          · norm_num
          · exact canonical.exponent_le
      _ = (2 : ℚ) ^ (1024 : Int) := by
          rw [← zpow_natCast, ← zpow_add₀ two_ne_zero]
          rfl
  have positive : 0 < s.digits := by
    rcases Nat.eq_zero_or_pos s.digits with zero | positive
    · rw [Scientific.value, zero, Nat.cast_zero, zero_mul] at least
      exact absurd least (not_le.mpr (by positivity))
    · exact positive
  obtain ⟨lower, upper⟩ := s.value_bounds positive
  have notHuge : ¬s.leading + 1 > 400 := by
    intro huge
    have power : (10 : ℚ) ^ (400 : Int) ≤ 10 ^ s.leading :=
      zpow_le_zpow_right₀ (by norm_num) (by omega)
    have less : (2 : ℚ) ^ (1024 : Int) ≤ 10 ^ (400 : Int) := (mono (by decide)).trans two_le_ten
    exact absurd most (not_lt.mpr ((less.trans power).trans lower))
  have notTiny : ¬s.leading + 1 < -400 := by
    intro tiny
    have power : (10 : ℚ) ^ (s.leading + 1) ≤ 10 ^ (-400 : Int) :=
      zpow_le_zpow_right₀ (by norm_num) (by omega)
    have less : (10 : ℚ) ^ (-400 : Int) ≤ 2 ^ (-1075 : Int) := by
      rw [zpow_neg, zpow_neg]
      exact inv_anti₀ (by positivity) two_le_ten
    exact absurd upper (not_lt.mpr ((power.trans less).trans least))
  have magnitude : ((natText s.digits).length : Int) + s.exponent = s.leading + 1 := by
    rw [Scientific.leading]
    ring
  obtain ⟨-, tenBelow, power⟩ := ratio_eq (by decide : 0 < 10) s.exponent
  have parts : fraction (s.digits * (ratio 10 s.exponent).1, (ratio 10 s.exponent).2) = s.value := by
    rw [Scientific.value]
    have ten : ((10 : Nat) : ℚ) = 10 := rfl
    rw [ten] at power
    rw [← power, fraction, fraction, Nat.cast_mul, mul_div_assoc]
  rw [ofDecimal]
  simp only [magnitude, beq_eq_false_iff_ne.mpr positive.ne', Bool.false_eq_true, if_false, notHuge,
    notTiny]
  rw [nearest, nearestBits_eq canonical some tenBelow (parts ▸ holds)]

/-- Digits with a point after the first one, a mark and an exponent are read as a decimal. -/
theorem readDecimal_pointed (s : Scientific) :
    readDecimal ((pointed (natText s.digits)).toList ++ 'e' :: (toString s.leading).toList) =
      some (ofDecimal s.digits s.exponent) := by
  have digits : ∀ c ∈ (natText s.digits).toList, isDigit c = true :=
    fun _ => isDigit_of_mem_natText
  have value := natOfDigits_natText s.digits
  have length : ((natText s.digits).length : Int) = (natText s.digits).toList.length := by
    rw [String.length_toList]
  have mark : Stops isDigit ('e' :: (toString s.leading).toList) := .cons rfl
  have exponent := readInteger_toString s.leading
  have shift : s.leading = s.exponent + ((natText s.digits).toList.length : Int) - 1 := by
    rw [Scientific.leading, length]
  generalize (toString s.leading).toList = tail at mark exponent ⊢
  rw [pointed]
  obtain ⟨first, more, text⟩ := List.exists_cons_of_ne_nil (natText_ne_nil s.digits)
  rw [text] at digits value shift ⊢
  obtain ⟨firstDigit, moreDigits⟩ := List.forall_mem_cons.mp digits
  cases more with
  | nil =>
    have whole := mark.takeWhile_append digits
    have rest := mark.dropWhile_append digits
    simp only [String.toList_ofList, readDecimal, whole, rest]
    simp [value, exponent, shift]
  | cons second more =>
    have point : Stops isDigit ('.' :: (second :: more ++ 'e' :: tail)) := .cons rfl
    have single : ∀ c ∈ [first], isDigit c = true := by simpa using firstDigit
    have whole := point.takeWhile_append single
    have rest := point.dropWhile_append single
    have fraction := mark.takeWhile_append moreDigits
    have behind := mark.dropWhile_append moreDigits
    have shape : first :: '.' :: second :: more ++ 'e' :: tail
        = [first] ++ '.' :: (second :: more ++ 'e' :: tail) := rfl
    have places : s.leading - ((more.length : Int) + 1) = s.exponent := by
      rw [shift]
      simp only [List.length_cons]
      push_cast
      ring
    have joined : natOfDigits ([first] ++ second :: more) = s.digits := value
    simp only [String.toList_ofList, shape, readDecimal, whole, rest, fraction, behind, joined]
    simp [exponent, places]

/-- Written digits with a point after the first one start with a digit. -/
theorem isDigit_of_head_pointed (n : Nat) {rest : List Char} :
    ∀ c ∈ ((pointed (natText n)).toList ++ rest).head?, isDigit c = true := by
  obtain ⟨first, more, text⟩ := List.exists_cons_of_ne_nil (natText_ne_nil n)
  have digit : isDigit first = true :=
    isDigit_of_mem_natText (n := n) (by rw [text]; exact List.mem_cons_self)
  rw [pointed, text]
  cases more <;> simpa using digit

/-- A digit is no letter, so it is its own lower-case form. -/
theorem toLower_of_isDigit {c : Char} (digit : isDigit c = true) : c.toLower = c := by
  have range := isDigit_iff.mp digit
  rw [Char.toLower, dif_neg]
  rintro ⟨low, -⟩
  have low : 65 ≤ c.toNat := low
  omega

/-- Characters that start with a digit are read as a decimal, behind their sign. -/
theorem readDouble_signed {negative : Bool} {chars : List Char} (some_ : chars ≠ [])
    (digit : ∀ c ∈ chars.head?, isDigit c = true) :
    readDouble (String.ofList ((sign negative).toList ++ chars)) =
      (readDecimal chars).map (withSign negative) := by
  -- No name of a special double starts with a digit.
  have unnamed {name : String} (letter : ∀ c ∈ name.toList.head?, isDigit c = false) :
      (String.ofList (chars.map Char.toLower) == name) = false := by
    rw [beq_eq_false_iff_ne]
    rintro rfl
    obtain ⟨c, rest, rfl⟩ := List.exists_cons_of_ne_nil some_
    have own := digit c rfl
    have other := letter c (by simp [toLower_of_isDigit own])
    rw [own] at other
    cases other
  rw [readDouble, String.toList_ofList, signed_sign digit]
  simp only [unnamed (by simp [isDigit] : ∀ c ∈ "inf".toList.head?, isDigit c = false),
    unnamed (by simp [isDigit] : ∀ c ∈ "infinity".toList.head?, isDigit c = false),
    unnamed (by simp [isDigit] : ∀ c ∈ "nan".toList.head?, isDigit c = false)]
  rfl

/-- The exponent form of a canonical number is read as the double with its sign and bits. -/
theorem readDouble_exponentForm {b : Binary} (canonical : b.Canonical) :
    readDouble (exponentForm b) = some (withSign b.negative (Float.ofBits (UInt64.ofNat b.bits))) := by
  rw [exponentForm]
  split
  · rename_i zero
    have zero : b.mantissa = 0 := by simpa using zero
    have none : b.bits = 0 := by
      have lowest := canonical.filled.resolve_right (by omega)
      rw [Binary.bits, zero, lowest]
      rfl
    have digit : ∀ c ∈ ['0', 'e', '0'].head?, isDigit c = true := by simp [isDigit]
    have text : sign b.negative ++ "0e0"
        = String.ofList ((sign b.negative).toList ++ ['0', 'e', '0']) := by
      rw [← String.toList_inj]
      simp
    rw [text, readDouble_signed (by simp) digit, none]
    rfl
  · rename_i some_
    have some_ : 0 < b.mantissa := Nat.pos_of_ne_zero (by simpa using some_)
    have text : sign b.negative ++ pointed (natText (shortest .away b).digits) ++ "e" ++
          toString (shortest .away b).leading
        = String.ofList ((sign b.negative).toList ++
          ((pointed (natText (shortest .away b).digits)).toList ++
            'e' :: (toString (shortest .away b).leading).toList)) := by
      rw [← String.toList_inj]
      simp
    rw [text, readDouble_signed (by simp) (isDigit_of_head_pointed _), readDecimal_pointed,
      ofDecimal_eq canonical some_ (shortest_holds canonical some_ .away)]
    rfl

end Number

/-- The names that tokens give to special doubles are read as such in any case. -/
theorem double?_eq_readDouble (text : String) : Token.double? text = readDouble text := by
  rw [Token.double?]
  split
  · rename_i named
    rw [eq_of_beq named]
    rfl
  split
  · rename_i named
    rw [eq_of_beq named]
    rfl
  split
  · rename_i named
    rw [eq_of_beq named]
    rfl
  · rfl

/-- The text of a double is read as that double. -/
theorem double?_doubleText (x : Float) : Token.double? (Scalar.doubleText x) = some x := by
  rw [double?_eq_readDouble, Scalar.doubleText]
  split
  · rename_i read
    rw [ofFloat_nan read]
    rfl
  · rename_i negative read
    rw [ofFloat_infinite read]
    cases negative <;> rfl
  · rename_i b read
    obtain ⟨canonical, same⟩ := ofFloat_finite read
    rw [readDouble_exponentForm canonical, ← same]

end EdmQuery
