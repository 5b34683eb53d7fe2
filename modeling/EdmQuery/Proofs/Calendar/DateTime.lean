import Mathlib
import EdmQuery.Proofs.Calendar.Text

/-! Points in time are read back from their texts, in the years of four digits. -/

namespace EdmQuery.Calendar

open EdmQuery.Text EdmQuery.Number

/-- A year that four digits write. -/
def Date.IsPlain (d : Date) : Prop :=
  0 ≤ d.year ∧ d.year < 10000

/-- A point in time with an offset that it may have, in a year of four digits. -/
def DateTime.IsPlain (t : DateTime) : Prop :=
  t.date.IsPlain ∧ DateTime.of? t.date t.time t.offset = some t

/-- An offset is shorter than a day. -/
theorem DateTime.offset_lt {date : Date} {time : TimeOfDay} {offset : Int} {t : DateTime}
    (made : DateTime.of? date time offset = some t) : offset.natAbs < 1440 := by
  rw [DateTime.of?] at made
  split at made
  · rename_i found
    exact of_decide_eq_true (Bool.and_eq_true_iff.mp found).1
  · cases made

/-- An offset with its sign, universal time being no exception. -/
def zoneText (offset : Int) : List Char :=
  (if offset < 0 then '-' else '+') ::
    ((padded 2 (offset.natAbs / 60)).toList ++ ':' :: (padded 2 (offset.natAbs % 60)).toList)

/-- Hours and minutes behind a sign are taken off. -/
theorem takeOffset_padded (negative : Bool) {hours minutes : Nat} (fit : hours < 100)
    (below : minutes < 60) :
    takeOffset (takeMark ':') ((if negative then '-' else '+') ::
        ((padded 2 hours).toList ++ ':' :: (padded 2 minutes).toList))
      = some (if negative then -(60 * hours + minutes : Int) else 60 * hours + minutes, []) := by
  have first : takeNumber 2 2 ((padded 2 hours).toList ++ ':' :: (padded 2 minutes).toList)
      = some (hours, ':' :: (padded 2 minutes).toList) :=
    takeNumber_padded (by decide) (by decide) fit _
  have mark : takeMark ':' (':' :: (padded 2 minutes).toList) = some (padded 2 minutes).toList := rfl
  have last := takeNumber_padded (by decide : 2 ≤ 2) (by decide) (by omega : minutes < 10 ^ 2) []
  rw [List.append_nil] at last
  cases negative <;>
    simp [takeOffset, first, mark, last, below]

/-- An offset is taken off the end of a text. -/
theorem takeZone_zoneText {offset : Int} (small : offset.natAbs < 1440) :
    takeZone (zoneText offset) = some (offset, []) := by
  have read := takeOffset_padded (decide (offset < 0)) (by omega : offset.natAbs / 60 < 100)
    (Nat.mod_lt offset.natAbs (by decide : 0 < 60))
  have whole : (60 * (offset.natAbs / 60 : Nat) + (offset.natAbs % 60 : Nat) : Int)
      = offset.natAbs := by
    omega
  rw [whole] at read
  simp only [decide_eq_true_eq] at read
  have value : (if offset < 0 then -(offset.natAbs : Int) else offset.natAbs) = offset := by
    split <;> omega
  rw [value] at read
  rw [zoneText, takeZone, read]
  · rintro rest same
    have := (List.cons.inj same).1
    split at this <;> simp at this
  · rintro rest same
    have := (List.cons.inj same).1
    split at this <;> simp at this

/-- A final letter for universal time is spelled out. -/
theorem spellOffset_letter (front : List Char) :
    spellOffset (front ++ ['Z']) = front ++ "+00:00".toList := by
  simp [spellOffset]

/-- A text that ends with a digit has nothing to be spelled out. -/
theorem spellOffset_digits {digits : List Char} (some_ : digits ≠ [])
    (all : ∀ c ∈ digits, isDigit c = true) (front : List Char) :
    spellOffset (front ++ digits) = front ++ digits := by
  obtain ⟨more, last, rfl⟩ := (List.eq_nil_or_concat' digits).resolve_left some_
  have digit := isDigit_iff.mp (all last (by simp))
  rw [spellOffset, List.reverse_append, List.reverse_append, List.reverse_singleton,
    List.singleton_append, List.cons_append]
  split
  · rename_i same
    cases same
    simp at digit
  · rename_i same
    cases same
    simp at digit
  · rfl

/-- The characters of a date in a year of four digits. -/
theorem Date.toList_toText {d : Date} (plain : d.IsPlain) : d.toText.toList
    = (padded 4 d.year.toNat).toList ++ '-' :: ((padded 2 d.month).toList ++
        '-' :: (padded 2 d.day).toList) := by
  have hyphen : "-".toList = ['-'] := rfl
  have low := plain.1
  have text : yearText d.year = padded 4 d.year.toNat := by
    rw [yearText, if_neg (by omega), if_pos plain.2]
  simp only [Date.toText, text, String.toList_append, hyphen, List.append_assoc,
    List.cons_append, List.nil_append]

/-- The characters of a time of day. -/
theorem TimeOfDay.toList_toText (t : TimeOfDay) : t.toText.toList
    = (padded 2 t.hour).toList ++ ':' :: ((padded 2 t.minute).toList ++
        ':' :: ((padded 2 (t.second + t.nano / 10 ^ 9)).toList ++
          (fractionText (t.nano % 10 ^ 9)).toList)) := by
  have colon : ":".toList = [':'] := rfl
  simp only [TimeOfDay.toText, String.toList_append, colon, List.append_assoc, List.cons_append,
    List.nil_append]

/-- The characters of a point in time. -/
theorem DateTime.toList_toText (t : DateTime) : t.toText.toList
    = t.date.toText.toList ++ 'T' :: (t.time.toText.toList ++ (offsetText t.offset).toList) := by
  have mark : "T".toList = ['T'] := rfl
  simp only [DateTime.toText, String.toList_append, mark, List.append_assoc, List.cons_append,
    List.nil_append]

/-- The characters of an offset other than zero. -/
theorem toList_offsetText {offset : Int} (some_ : offset ≠ 0) :
    (offsetText offset).toList = zoneText offset := by
  have colon : ":".toList = [':'] := rfl
  have sign : (if offset < 0 then "-" else "+").toList = [if offset < 0 then '-' else '+'] := by
    split <;> rfl
  rw [offsetText, if_neg (by simpa using some_), String.toList_append, String.toList_append,
    String.toList_append, sign, colon, zoneText]
  simp

/-- A written point in time has its offset spelled out. -/
theorem spellOffset_toText (t : DateTime) : spellOffset t.toText.toList
    = t.date.toText.toList ++ 'T' :: (t.time.toText.toList ++ zoneText t.offset) := by
  rw [DateTime.toList_toText]
  by_cases universal : t.offset = 0
  · have letter : (offsetText 0).toList = ['Z'] := rfl
    have zone : zoneText 0 = "+00:00".toList := rfl
    have spelled := spellOffset_letter (t.date.toText.toList ++ 'T' :: t.time.toText.toList)
    rw [universal, letter, zone]
    simpa using spelled
  · have spelled := spellOffset_digits (padded_ne_nil 2 (t.offset.natAbs % 60))
      (fun c => isDigit_of_mem_padded) (t.date.toText.toList ++ 'T' :: (t.time.toText.toList ++
        (if t.offset < 0 then '-' else '+') :: ((padded 2 (t.offset.natAbs / 60)).toList ++ [':'])))
    rw [toList_offsetText universal, zoneText]
    simpa using spelled

/-- A point in time with its offset spelled out is taken off. -/
theorem takeTimestamp_spelled {t : DateTime} (plain : t.IsPlain) :
    takeTimestamp (t.date.toText.toList ++ 'T' :: (t.time.toText.toList ++ zoneText t.offset))
      = some (t, []) := by
  obtain ⟨date, valid⟩ := plain
  obtain ⟨low, high⟩ := date
  have mark (m : Char) (rest : List Char) : takeMark m (m :: rest) = some rest :=
    if_pos (beq_self_eq_true m)
  have timeMark (rest : List Char) : takeTimeMark ('T' :: rest) = some rest := rfl
  have field {n : Nat} (fits : n < 100) (rest : List Char) :
      takeNumber 2 2 ((padded 2 n).toList ++ rest) = some (n, rest) :=
    takeNumber_padded (by decide) (by decide) fits rest
  have year (rest : List Char) : takeNumber 4 4 ((padded 4 t.date.year.toNat).toList ++ rest)
      = some (t.date.year.toNat, rest) :=
    takeNumber_padded (by decide) (by decide) (by omega) rest
  have same : (t.date.year.toNat : Int) = t.date.year := by omega
  have made : Date.of? t.date.year t.date.month t.date.day = some t.date := dif_pos t.date.exists_day
  have bounds := t.time.bounds
  have zone := takeZone_zoneText (DateTime.offset_lt valid)
  have zoneStops : Stops isDigit (zoneText t.offset) := by
    rw [zoneText]
    split <;> exact .cons rfl
  have noPoint : (zoneText t.offset).head? ≠ some '.' := by
    rw [zoneText]
    split <;> simp
  have fraction := takeFraction_fractionText (Nat.mod_lt t.time.nano (by decide : 0 < 10 ^ 9))
    zoneStops noPoint
  -- Each field is taken off in turn, with the mark in front of it.
  have step {α β : Type} {x : Option α} {next : α → Option β} {a : α} {b : β} (first : x = some a)
      (second : next a = some b) : x >>= next = some b :=
    Option.bind_eq_some_iff.mpr ⟨a, first, second⟩
  rw [Date.toList_toText ⟨low, high⟩, TimeOfDay.toList_toText]
  simp only [List.append_assoc, List.cons_append]
  refine step (year _) (step (mark _ _) (step (field t.date.bounds.1 _) ?_))
  refine step (mark _ _) (step (field t.date.bounds.2 _) (step (timeMark _) ?_))
  refine step (field (by omega) _) (step (mark _ _) (step (field (by omega) _) ?_))
  refine step (mark _ _) (step (field (by omega) _) (step fraction (step zone ?_)))
  rw [same]
  exact step made (step (clock?_parts t.time) (step valid rfl))

/-- A point in time is read back from its text. -/
theorem parseDateTime_toText {t : DateTime} (plain : t.IsPlain) :
    parseDateTime t.toText = some t := by
  rw [parseDateTime, spellOffset_toText, takeTimestamp_spelled plain]
  rfl

/-- A number that is taken off has no more digits than may be taken. -/
theorem takeNumber_lt {least most n : Nat} {chars rest : List Char}
    (read : takeNumber least most chars = some (n, rest)) : n < 10 ^ most := by
  rw [takeNumber] at read
  split at read
  · cases read
  · cases read
    refine (natOfDigits_lt fun c => List.mem_takeWhile_imp).trans_le ?_
    refine Nat.pow_le_pow_right (by decide) ?_
    exact (List.takeWhile_prefix _).length_le.trans (List.length_take_le _ _)

/-- A date is of the year, month and day that it was made of. -/
theorem Date.of?_year {year : Int} {month day : Nat} {d : Date} (made : Date.of? year month day = some d) :
    d.year = year := by
  rw [Date.of?] at made
  split at made
  · cases made
    rfl
  · cases made

/-- A year that starts with a digit has no sign, and so four digits at most. -/
theorem takeYear_bounds {d : Char} {more rest : List Char} (digit : isDigit d = true) {year : Int}
    (read : takeYear (d :: more) = some (year, rest)) : 0 ≤ year ∧ year < 10000 := by
  have start : trimStart (d :: more) = d :: more := by
    rw [trimStart, List.dropWhile_cons_of_neg (by simp [isBlank_of_isDigit digit])]
  rw [takeYear, start] at read
  split at read
  · rename_i same
    cases same
    cases digit
  · rename_i same
    cases same
    cases digit
  · obtain ⟨⟨n, behind⟩, found, same⟩ := Option.map_eq_some_iff.mp read
    cases same
    have := takeNumber_lt found
    omega

/-- A date that starts with a digit has a year of four digits. -/
theorem takeDate_plain {d : Char} {more rest : List Char} (digit : isDigit d = true) {date : Date}
    (read : takeDate (d :: more) = some (date, rest)) : date.IsPlain := by
  obtain ⟨⟨year, _⟩, found, read⟩ := Option.bind_eq_some_iff.mp read
  obtain ⟨_, -, read⟩ := Option.bind_eq_some_iff.mp read
  obtain ⟨⟨month, _⟩, -, read⟩ := Option.bind_eq_some_iff.mp read
  obtain ⟨_, -, read⟩ := Option.bind_eq_some_iff.mp read
  obtain ⟨⟨day, _⟩, -, read⟩ := Option.bind_eq_some_iff.mp read
  obtain ⟨made, valid, same⟩ := Option.bind_eq_some_iff.mp read
  cases same
  rw [Date.IsPlain, Date.of?_year valid]
  exact takeYear_bounds digit found

/-- What was read completely was taken off. -/
theorem complete_some {α : Type} {read : Option (α × List Char)} {a : α}
    (done : complete read = some a) : read = some (a, []) := by
  unfold complete at done
  split at done
  · cases done
    rfl
  · cases done

/-- A date that starts with a digit has a year of four digits. -/
theorem parseDate_plain {text : String} {d : Char} {more : List Char}
    (start : text.toList = d :: more) (digit : isDigit d = true) {date : Date}
    (read : parseDate text = some date) : date.IsPlain := by
  rw [parseDate, start] at read
  exact takeDate_plain digit (complete_some read)

/-- A point in time that was made is made of its parts again. -/
theorem DateTime.of?_parts {date : Date} {time : TimeOfDay} {offset : Int} {t : DateTime}
    (made : DateTime.of? date time offset = some t) :
    t.date = date ∧ DateTime.of? t.date t.time t.offset = some t := by
  have same : t = ⟨date, time, offset⟩ := by
    rw [DateTime.of?] at made
    split at made
    · exact (Option.some.inj made).symm
    · cases made
  subst same
  exact ⟨rfl, made⟩

/-- A timestamp that is taken off is made of a date whose year has four digits. -/
theorem takeTimestamp_parts {chars rest : List Char} {t : DateTime}
    (read : takeTimestamp chars = some (t, rest)) :
    t.date.IsPlain ∧ DateTime.of? t.date t.time t.offset = some t := by
  obtain ⟨⟨year, _⟩, found, read⟩ := Option.bind_eq_some_iff.mp read
  obtain ⟨_, -, read⟩ := Option.bind_eq_some_iff.mp read
  obtain ⟨⟨month, _⟩, -, read⟩ := Option.bind_eq_some_iff.mp read
  obtain ⟨_, -, read⟩ := Option.bind_eq_some_iff.mp read
  obtain ⟨⟨day, _⟩, -, read⟩ := Option.bind_eq_some_iff.mp read
  obtain ⟨_, -, read⟩ := Option.bind_eq_some_iff.mp read
  obtain ⟨⟨hour, _⟩, -, read⟩ := Option.bind_eq_some_iff.mp read
  obtain ⟨_, -, read⟩ := Option.bind_eq_some_iff.mp read
  obtain ⟨⟨minute, _⟩, -, read⟩ := Option.bind_eq_some_iff.mp read
  obtain ⟨_, -, read⟩ := Option.bind_eq_some_iff.mp read
  obtain ⟨⟨second, _⟩, -, read⟩ := Option.bind_eq_some_iff.mp read
  obtain ⟨⟨nano, _⟩, -, read⟩ := Option.bind_eq_some_iff.mp read
  obtain ⟨⟨offset, _⟩, -, read⟩ := Option.bind_eq_some_iff.mp read
  obtain ⟨date, valid, read⟩ := Option.bind_eq_some_iff.mp read
  obtain ⟨time, -, read⟩ := Option.bind_eq_some_iff.mp read
  obtain ⟨made, instant, same⟩ := Option.bind_eq_some_iff.mp read
  cases same
  obtain ⟨own, again⟩ := DateTime.of?_parts instant
  refine ⟨?_, again⟩
  rw [own, Date.IsPlain, Date.of?_year valid]
  have := takeNumber_lt found
  omega

/-- A timestamp in the loose form is made of the date that it starts with. -/
theorem takeShortTimestamp_parts {chars rest : List Char} {t : DateTime}
    (read : takeShortTimestamp chars = some (t, rest)) :
    (∃ more, takeDate chars = some (t.date, more)) ∧
      DateTime.of? t.date t.time t.offset = some t := by
  obtain ⟨⟨date, _⟩, found, read⟩ := Option.bind_eq_some_iff.mp read
  obtain ⟨_, -, read⟩ := Option.bind_eq_some_iff.mp read
  obtain ⟨⟨time, _⟩, -, read⟩ := Option.bind_eq_some_iff.mp read
  obtain ⟨⟨offset, _⟩, -, read⟩ := Option.bind_eq_some_iff.mp read
  obtain ⟨made, instant, same⟩ := Option.bind_eq_some_iff.mp read
  cases same
  obtain ⟨own, again⟩ := DateTime.of?_parts instant
  exact ⟨⟨_, own.symm ▸ found⟩, again⟩

/-- A spelled offset is at the end, and so a text keeps its first digit. -/
theorem spellOffset_start {d : Char} (digit : isDigit d = true) (more : List Char) :
    ∃ back, spellOffset (d :: more) = d :: back := by
  -- The letter is no digit, so it cannot be the first character.
  have keep {letter : Char} (other : isDigit letter = false) {front : List Char}
      (same : (d :: more).reverse = letter :: front) (zone : List Char) :
      ∃ back, front.reverse ++ zone = d :: back := by
    have same : d :: more = front.reverse ++ [letter] := by
      rw [← List.reverse_cons, ← same, List.reverse_reverse]
    cases begin_ : front.reverse with
    | nil =>
      rw [begin_] at same
      cases same
      rw [digit] at other
      cases other
    | cons c others =>
      rw [begin_] at same
      cases same
      exact ⟨others ++ zone, rfl⟩
  unfold spellOffset
  split
  · rename_i front same
    exact keep rfl same _
  · rename_i front same
    exact keep rfl same _
  · exact ⟨more, rfl⟩

/-- A point in time that starts with a digit is in a year of four digits. -/
theorem parseDateTime_plain {text : String} {d : Char} {more : List Char}
    (start : text.toList = d :: more) (digit : isDigit d = true) {t : DateTime}
    (read : parseDateTime text = some t) : t.IsPlain := by
  obtain ⟨back, spelled⟩ := spellOffset_start digit more
  rw [parseDateTime, start] at read
  simp only [spelled] at read
  rcases Option.or_eq_some_iff.mp read with long | ⟨-, short⟩
  · exact takeTimestamp_parts (complete_some long)
  · obtain ⟨⟨rest, found⟩, made⟩ := takeShortTimestamp_parts (complete_some short)
    exact ⟨takeDate_plain digit found, made⟩

/-- A point in time that is read is made of its parts. -/
theorem parseDateTime_made {text : String} {t : DateTime} (read : parseDateTime text = some t) :
    DateTime.of? t.date t.time t.offset = some t := by
  rcases Option.or_eq_some_iff.mp read with long | ⟨-, short⟩
  · exact (takeTimestamp_parts (complete_some long)).2
  · exact (takeShortTimestamp_parts (complete_some short)).2

/-- A point in universal time that is read is made of its parts. -/
theorem parseUniversal_made {text : String} {t : DateTime} (read : parseUniversal text = some t) :
    DateTime.of? t.date t.time t.offset = some t := by
  have read := complete_some read
  obtain ⟨⟨date, _⟩, -, read⟩ := Option.bind_eq_some_iff.mp read
  obtain ⟨⟨time, _⟩, -, read⟩ := Option.bind_eq_some_iff.mp read
  obtain ⟨made, instant, same⟩ := Option.bind_eq_some_iff.mp read
  cases same
  exact (DateTime.of?_parts instant).2

end EdmQuery.Calendar
