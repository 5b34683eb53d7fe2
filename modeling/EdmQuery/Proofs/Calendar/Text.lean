import Mathlib
import EdmQuery.Proofs.Text.Digits

/-! Dates and times of day are read back from their texts. -/

namespace EdmQuery.Calendar

open EdmQuery.Text EdmQuery.Number

/-- A digit is no blank. -/
theorem isBlank_of_isDigit {c : Char} (digit : isDigit c = true) : isBlank c = false := by
  have range := isDigit_iff.mp digit
  simp only [isBlank, Bool.or_eq_false_iff, Bool.and_eq_false_iff, decide_eq_false_iff_not,
    beq_eq_false_iff_ne, ne_eq]
  omega

/-- A text that starts with a digit has no blanks in front. -/
theorem trimStart_of_digit {front : List Char} (digits : ∀ c ∈ front, isDigit c = true)
    (some_ : front ≠ []) (rest : List Char) : trimStart (front ++ rest) = front ++ rest := by
  cases front with
  | nil => exact absurd rfl some_
  | cons c more =>
    have first := isBlank_of_isDigit (digits c List.mem_cons_self)
    rw [trimStart, List.cons_append, List.dropWhile_cons_of_neg (by simp [first])]

/-- A padded number is not empty. -/
theorem padded_ne_nil (width n : Nat) : (padded width n).toList ≠ [] := by
  rw [toList_padded]
  exact List.append_ne_nil_of_right_ne_nil _ (natText_ne_nil n)

/-- The first character of a padded number is a digit. -/
theorem isDigit_of_head_padded (width n : Nat) (rest : List Char) :
    ∀ c ∈ ((padded width n).toList ++ rest).head?, isDigit c = true := by
  intro c mem
  rw [List.head?_append_of_ne_nil _ (padded_ne_nil width n)] at mem
  exact isDigit_of_mem_padded (List.mem_of_head? mem)

/-- A padded number of exactly the width that is taken is taken off. -/
theorem takeNumber_padded {least width n : Nat} (enough : least ≤ width) (positive : 0 < width)
    (fits : n < 10 ^ width) (rest : List Char) :
    takeNumber least width ((padded width n).toList ++ rest) = some (n, rest) := by
  have length := length_padded positive fits
  have found : (((padded width n).toList ++ rest).take width).takeWhile isDigit
      = (padded width n).toList := by
    rw [List.take_append_of_le_length length.ge, List.take_of_length_le length.le]
    exact List.takeWhile_eq_self_iff.mpr fun c => isDigit_of_mem_padded
  rw [takeNumber]
  simp only [found, length, natOfDigits_padded, if_neg (Nat.not_lt.mpr enough)]
  rw [List.drop_left' length]

/-- A number in front of something else is taken off when there is no limit to its digits. -/
theorem takeNumber_unlimited {width n : Nat} {rest : List Char} (stops : Stops isDigit rest) :
    takeNumber 1 ((padded width n).toList ++ rest).length ((padded width n).toList ++ rest)
      = some (n, rest) := by
  have found : ((padded width n).toList ++ rest).takeWhile isDigit = (padded width n).toList :=
    stops.takeWhile_append fun c => isDigit_of_mem_padded
  have enough : ¬ (padded width n).toList.length < 1 :=
    Nat.not_lt.mpr (List.length_pos_iff.mpr (padded_ne_nil width n))
  rw [takeNumber]
  simp only [List.take_length, found, natOfDigits_padded, if_neg enough, List.drop_left]

/-- A field of two digits is taken off. -/
theorem takeField_padded {n : Nat} (fits : n < 100) (rest : List Char) :
    takeField ((padded 2 n).toList ++ rest) = some (n, rest) := by
  rw [takeField, trimStart_of_digit (fun c => isDigit_of_mem_padded) (padded_ne_nil 2 n) rest]
  exact takeNumber_padded (by decide) (by decide) fits rest

/-- A signed year has any number of digits. -/
theorem takeYear_signed (negative : Bool) (n : Nat) {rest : List Char} (stops : Stops isDigit rest) :
    takeYear ((if negative then '-' else '+') :: ((padded 4 n).toList ++ rest))
      = some (if negative then -(n : Int) else n, rest) := by
  have start (c : Char) (chars : List Char) (mark : isBlank c = false) :
      trimStart (c :: chars) = c :: chars := by
    rw [trimStart, List.dropWhile_cons_of_neg (by simp [mark])]
  cases negative with
  | true =>
    rw [takeYear, if_pos rfl, start _ _ (by decide)]
    simp only [takeNumber_unlimited stops, Option.map_some, if_true]
  | false =>
    rw [takeYear, if_neg (by decide), start _ _ (by decide)]
    simp only [takeNumber_unlimited stops, Option.map_some, Bool.false_eq_true, if_false]

/-- A year of four digits stands on its own. -/
theorem takeYear_plain {n : Nat} (fits : n < 10 ^ 4) (rest : List Char) :
    takeYear ((padded 4 n).toList ++ rest) = some ((n : Int), rest) := by
  have start := trimStart_of_digit (fun c => isDigit_of_mem_padded) (padded_ne_nil 4 n) rest
  have read := takeNumber_padded (by decide : 1 ≤ 4) (by decide) fits rest
  rw [takeYear, start]
  -- The first character is a digit and so none of the signs.
  split
  · rename_i signed
    have digit := isDigit_of_head_padded 4 n rest '-' (by simp [signed])
    simp [isDigit] at digit
  · rename_i signed
    have digit := isDigit_of_head_padded 4 n rest '+' (by simp [signed])
    simp [isDigit] at digit
  · rw [read, Option.map_some]

/-- A year is taken off in front of what is no digit. -/
theorem takeYear_yearText (year : Int) {rest : List Char} (stops : Stops isDigit rest) :
    takeYear ((yearText year).toList ++ rest) = some (year, rest) := by
  have minus : "-".toList = ['-'] := rfl
  have plus : "+".toList = ['+'] := rfl
  rw [yearText]
  split
  · rename_i negative
    have read := takeYear_signed true year.natAbs stops
    have same : -(year.natAbs : Int) = year := by omega
    simp only [if_true, same] at read
    rw [String.toList_append, minus, List.append_assoc, List.singleton_append, read]
  split
  · rename_i low high
    have same : (year.toNat : Int) = year := by omega
    rw [takeYear_plain (by omega), same]
  · rename_i low high
    have read := takeYear_signed false year.toNat stops
    have same : (year.toNat : Int) = year := by omega
    simp only [Bool.false_eq_true, if_false, same] at read
    rw [String.toList_append, plus, List.append_assoc, List.singleton_append, read]

/-- The parts of a date are small enough for their fields. -/
theorem Date.bounds (d : Date) : d.month < 100 ∧ d.day < 100 := by
  have valid := d.exists_day
  simp only [isDate, Bool.and_eq_true, decide_eq_true_eq, daysIn] at valid
  -- A month has 31 days at most, and none when it is past the twelfth.
  repeat' split at valid
  all_goals simp_all
  all_goals omega

/-- A date is taken off, whatever follows it. -/
theorem takeDate_toText (d : Date) (rest : List Char) :
    takeDate (d.toText.toList ++ rest) = some (d, rest) := by
  have hyphen : "-".toList = ['-'] := rfl
  have valid : Date.of? d.year d.month d.day = some d := dif_pos d.exists_day
  have mark (rest : List Char) : takeMark '-' ('-' :: rest) = some rest := rfl
  have afterYear : Stops isDigit ('-' :: ((padded 2 d.month).toList ++
      '-' :: ((padded 2 d.day).toList ++ rest))) := .cons rfl
  simp only [Date.toText, String.toList_append, hyphen, List.append_assoc, List.cons_append,
    List.nil_append,
    takeDate, takeYear_yearText d.year afterYear, takeField_padded d.bounds.1,
    takeField_padded d.bounds.2, mark, valid, Option.bind_eq_bind, Option.bind_some]
  rfl

/-- A date is read back from its text. -/
theorem parseDate_toText (d : Date) : parseDate d.toText = some d := by
  have read := takeDate_toText d []
  rw [List.append_nil] at read
  rw [parseDate, read]
  rfl

/-- A point with so many digits is read as nanoseconds. -/
theorem takeFraction_padded {width n : Nat} (positive : 0 < width) (short : width ≤ 9)
    (fits : n < 10 ^ width) {rest : List Char} (stops : Stops isDigit rest) :
    takeFraction ('.' :: ((padded width n).toList ++ rest)) = some (n * 10 ^ (9 - width), rest) := by
  have length := length_padded positive fits
  have found : ((padded width n).toList ++ rest).takeWhile isDigit = (padded width n).toList :=
    stops.takeWhile_append fun c => isDigit_of_mem_padded
  have some_ : (padded width n).toList.isEmpty = false :=
    List.isEmpty_eq_false_iff.mpr (padded_ne_nil width n)
  have nine : ((padded width n).toList ++ List.replicate 9 '0').take 9
      = (padded width n).toList ++ List.replicate (9 - width) '0' := by
    have left : min (9 - width) 9 = 9 - width := Nat.min_eq_left (Nat.sub_le 9 width)
    rw [List.take_append, length, List.take_of_length_le (by omega), List.take_replicate, left]
  have zeros : natOfDigits (List.replicate (9 - width) '0') = 0 := by
    have none := natOfDigits_zeros (9 - width) []
    rwa [List.append_nil] at none
  rw [takeFraction]
  simp only [found, some_, nine, Bool.false_eq_true, if_false, List.drop_left]
  rw [natOfDigits_append, natOfDigits_padded, zeros, List.length_replicate, Nat.add_zero]

/-- A fraction of a second is taken off in front of what could not be a part of it. -/
theorem takeFraction_fractionText {nano : Nat} (below : nano < 10 ^ 9) {rest : List Char}
    (stops : Stops isDigit rest) (other : rest.head? ≠ some '.') :
    takeFraction ((fractionText nano).toList ++ rest) = some (nano, rest) := by
  have point : ".".toList = ['.'] := rfl
  rw [fractionText]
  split
  · rename_i zero
    rw [eq_of_beq zero, String.toList_empty, List.nil_append, takeFraction]
    rintro digits rfl
    exact other rfl
  -- Trailing groups of three zeros are left out.
  split
  · rename_i thirds
    have whole : nano / 10 ^ 6 * 10 ^ 6 = nano := by
      have := eq_of_beq thirds
      omega
    rw [String.toList_append, point, List.append_assoc, List.singleton_append,
      takeFraction_padded (by decide) (by decide) (by omega) stops, whole]
  split
  · rename_i thirds
    have whole : nano / 10 ^ 3 * 10 ^ 3 = nano := by
      have := eq_of_beq thirds
      omega
    rw [String.toList_append, point, List.append_assoc, List.singleton_append,
      takeFraction_padded (by decide) (by decide) (by omega) stops, whole]
  · rw [String.toList_append, point, List.append_assoc, List.singleton_append,
      takeFraction_padded (by decide) (by decide) below stops, Nat.sub_self, pow_zero, mul_one]

/-- The parts of a time of day are small enough for their fields. -/
theorem TimeOfDay.bounds (t : TimeOfDay) :
    t.hour < 24 ∧ t.minute < 60 ∧ t.second < 60 ∧
      (t.nano < 10 ^ 9 ∨ t.second = 59 ∧ t.nano < 2 * 10 ^ 9) := by
  simpa [isTime, and_assoc] using t.exists_time

/-- A second with its fraction is put together again, a leap second being the sixtieth. -/
theorem clock?_parts (t : TimeOfDay) :
    clock? t.hour t.minute (t.second + t.nano / 10 ^ 9) (t.nano % 10 ^ 9) = some t := by
  have bounds := t.bounds
  have valid : TimeOfDay.of? t.hour t.minute t.second t.nano = some t := dif_pos t.exists_time
  rw [clock?]
  by_cases leap : t.nano < 10 ^ 9
  · have whole : t.nano / 10 ^ 9 = 0 := Nat.div_eq_of_lt leap
    have part : t.nano % 10 ^ 9 = t.nano := Nat.mod_eq_of_lt leap
    have plain : (t.second == 60) = false := beq_eq_false_iff_ne.mpr (by omega)
    rw [whole, part, Nat.add_zero, plain, if_neg (by decide), if_pos leap, valid]
  · obtain ⟨second, below⟩ : t.second = 59 ∧ t.nano < 2 * 10 ^ 9 := by omega
    have whole : t.second + t.nano / 10 ^ 9 = 60 := by omega
    have part : t.nano % 10 ^ 9 + 10 ^ 9 = t.nano := by omega
    rw [whole, if_pos (beq_self_eq_true 60), part]
    rw [second] at valid
    exact valid

/-- A time of day is taken off in front of what could not be a part of it. -/
theorem takeClock_toText (t : TimeOfDay) {rest : List Char} (stops : Stops isDigit rest)
    (other : rest.head? ≠ some '.') : takeClock (t.toText.toList ++ rest) = some (t, rest) := by
  have colon : ":".toList = [':'] := rfl
  have mark (rest : List Char) : takeMark ':' (':' :: rest) = some rest := rfl
  have bounds := t.bounds
  have part : t.nano % 10 ^ 9 < 10 ^ 9 := Nat.mod_lt _ (by decide)
  have fraction := takeFraction_fractionText part stops other
  simp only [TimeOfDay.toText, String.toList_append, colon, List.append_assoc, List.cons_append,
    List.nil_append, takeClock, takeField_padded (by omega : t.hour < 100),
    takeField_padded (by omega : t.minute < 100),
    takeField_padded (by omega : t.second + t.nano / 10 ^ 9 < 100), fraction, mark, clock?_parts,
    Option.bind_eq_bind, Option.bind_some]
  rfl

/-- A time of day is read back from its text. -/
theorem parseTimeOfDay_toText (t : TimeOfDay) : parseTimeOfDay t.toText = some t := by
  have read := takeClock_toText t .nil nofun
  rw [List.append_nil] at read
  rw [parseTimeOfDay, read]
  rfl

end EdmQuery.Calendar
