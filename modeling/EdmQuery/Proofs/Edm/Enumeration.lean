import Mathlib
import EdmQuery.Edm.Enumeration
import EdmQuery.Proofs.Text.Letters

/-! The member list that a value of an enumeration is written as is read as that value. -/

namespace EdmQuery

open Text Number

namespace Text

section

variable {separator : Char} {chars : List Char} {pieces : List (List Char)}

/-- Neither the first nor the last character is a blank. -/
def Trimmed (chars : List Char) : Prop :=
  (∀ c ∈ chars.head?, isBlank c = false) ∧ ∀ c ∈ chars.getLast?, isBlank c = false

/-- Characters that do not start with a blank keep their start. -/
theorem trimStart_eq (visible : ∀ c ∈ chars.head?, isBlank c = false) :
    trimStart chars = chars := by
  cases chars with
  | nil => rfl
  | cons c rest => rw [trimStart, List.dropWhile_cons_of_neg (by simp [visible c rfl])]

/-- Without blanks at the ends there is nothing to trim. -/
theorem Trimmed.trimChars_eq (trimmed : Trimmed chars) : trimChars chars = chars := by
  have back : trimStart chars.reverse = chars.reverse :=
    trimStart_eq (by rw [List.head?_reverse]; exact trimmed.2)
  rw [trimChars, trimStart_eq trimmed.1, trimEnd, ← trimStart, back, List.reverse_reverse]

/-- What is dropped from the start leaves no blank there. -/
theorem isBlank_of_head_trimStart (chars : List Char) :
    ∀ c ∈ (trimStart chars).head?, isBlank c = false := by
  intro c mem
  have outside := List.head?_dropWhile_not isBlank chars
  rw [trimStart] at mem
  rw [mem] at outside
  simpa using outside

/-- What trimming leaves as it is has no blanks at its ends. -/
theorem Trimmed.of_trim {text : String} (same : trim text = text) : Trimmed text.toList := by
  have same : trimChars text.toList = text.toList := by
    rw [← String.toList_ofList (l := trimChars text.toList), ← trim, same]
  constructor
  · -- The back was cut after the front, and cutting it leaves a first character where it is.
    intro c mem
    have start := isBlank_of_head_trimStart text.toList c
    rw [← same, trimChars, trimEnd, List.head?_reverse] at mem
    refine start ?_
    have part := List.dropWhile_suffix isBlank (l := (trimStart text.toList).reverse)
    obtain ⟨front, split⟩ := part
    rw [← List.getLast?_reverse, ← split, List.getLast?_append, mem]
    rfl
  · intro c mem
    rw [← same, trimChars, trimEnd, List.getLast?_reverse] at mem
    exact isBlank_of_head_trimStart (trimStart text.toList).reverse c mem

/-- Pieces without blanks at their ends have none when a visible mark joins them. -/
theorem Trimmed.intercalate (visible : isBlank separator = false)
    (trimmed : ∀ piece ∈ pieces, Trimmed piece) : Trimmed ([separator].intercalate pieces) := by
  induction pieces with
  | nil => exact ⟨by simp [List.intercalate], by simp [List.intercalate]⟩
  | cons piece rest ih =>
    obtain ⟨first, others⟩ := List.forall_mem_cons.mp trimmed
    cases rest with
    | nil => simpa [List.intercalate] using first
    | cons next rest =>
      obtain ⟨start, last⟩ := ih others
      rw [List.intercalate_cons_cons]
      constructor
      · intro c mem
        rw [List.append_assoc, List.head?_append] at mem
        rcases Option.or_eq_some_iff.mp mem with front | ⟨-, mark⟩
        · exact first.1 c front
        · cases mark
          exact visible
      · intro c mem
        rw [List.getLast?_append] at mem
        rcases Option.or_eq_some_iff.mp mem with back | ⟨-, mark⟩
        · exact last c back
        · rw [List.getLast?_append] at mark
          cases mark
          exact visible

/-- Pieces without the separator are what joining them is split into. -/
theorem splitChars_intercalate (some_ : pieces ≠ []) (plain : ∀ piece ∈ pieces, separator ∉ piece) :
    splitChars separator ([separator].intercalate pieces) = pieces := by
  -- A piece goes on in front of what the text behind it is split into.
  have extend (piece : List Char) (outside : separator ∉ piece) {rest first : List Char}
      {others : List (List Char)} (found : splitChars separator rest = first :: others) :
      splitChars separator (piece ++ rest) = (piece ++ first) :: others := by
    induction piece with
    | nil => exact found
    | cons c more ih =>
      rw [List.mem_cons, not_or] at outside
      rw [List.cons_append, splitChars, if_neg (by simpa using Ne.symm outside.1), ih outside.2]
      rfl
  induction pieces with
  | nil => exact absurd rfl some_
  | cons piece rest ih =>
    obtain ⟨first, others⟩ := List.forall_mem_cons.mp plain
    cases rest with
    | nil =>
      have none_ : splitChars separator [] = [[]] := rfl
      have single := extend piece first none_
      simpa [List.intercalate] using single
    | cons next rest =>
      have behind : splitChars separator (separator :: [separator].intercalate (next :: rest))
          = [] :: next :: rest := by
        rw [splitChars, if_pos (beq_self_eq_true separator), ih (List.cons_ne_nil _ _) others]
      have joined := extend piece first behind
      rw [List.append_nil] at joined
      rw [List.intercalate_cons_cons, List.append_assoc]
      exact joined

end

end Text

/-- Characters of a number that was read are digits or its sign. -/
theorem isDigit_of_readInt64 {text : String} {n : Int64} (read : readInt64 text = some n) :
    ∀ c ∈ text.toList, isDigit c = true ∨ c = '-' ∨ c = '+' := by
  obtain ⟨k, read, -⟩ := Option.bind_eq_some_iff.mp read
  have digits : ∀ c ∈ (signed text.toList).2, isDigit c = true := by
    by_contra foreign
    have none : (signed text.toList).2.all isDigit = false := by
      simpa using foreign
    rw [readInteger] at read
    simp only [none, Bool.not_false, Bool.or_true, if_true] at read
    cases read
  intro c mem
  unfold signed at digits
  split at digits
  · rename_i rest split
    rw [split] at mem
    rcases List.mem_cons.mp mem with rfl | mem
    · exact .inr (.inl rfl)
    · exact .inl (digits c mem)
  · rename_i rest split
    rw [split] at mem
    rcases List.mem_cons.mp mem with rfl | mem
    · exact .inr (.inr rfl)
    · exact .inl (digits c mem)
  · exact .inl (digits c mem)

/-- A number has no blanks at its ends. -/
theorem trim_of_readInt64 {text : String} {n : Int64} (read : readInt64 text = some n) :
    trim text = text := by
  have visible : ∀ c ∈ text.toList, isBlank c = false := by
    intro c mem
    rcases isDigit_of_readInt64 read c mem with digit | rfl | rfl
    · exact isBlank_of_isHexDigit (by rw [isHexDigit, digit, Bool.true_or, Bool.true_or])
    · rfl
    · rfl
  have trimmed : Trimmed text.toList :=
    ⟨fun c mem => visible c (List.mem_of_head? mem), fun c mem => visible c (List.mem_of_getLast? mem)⟩
  rw [trim, trimmed.trimChars_eq, String.ofList_toList]

/-- Whether the name of a member stays whole in a list of names, and is no number. -/
def Member.isPlain (m : Member) : Bool :=
  !m.name.toList.contains ',' && trim m.name == m.name && (readInt64 m.name).isNone

/-- A name that stays whole has neither commas nor blanks around it. -/
theorem Member.isPlain_iff {m : Member} : m.isPlain = true ↔
    ',' ∉ m.name.toList ∧ trim m.name = m.name ∧ readInt64 m.name = none := by
  simp [isPlain, and_assoc]

/-- Whether the name of a member stays whole in a quoted list of names, and is no number. -/
def Member.isListable (m : Member) : Bool :=
  !m.name.toList.contains ',' && !m.name.toList.contains '\'' && trim m.name == m.name &&
    (readInt64 m.name).isNone

/-- A name stays whole in a quoted list if it does in a list and has no quote. -/
theorem Member.isListable_iff {m : Member} : m.isListable = true ↔
    m.isPlain = true ∧ '\'' ∉ m.name.toList := by
  simp only [isListable, isPlain, Bool.and_eq_true, Bool.not_eq_true', List.contains_eq_mem,
    decide_eq_false_iff_not]
  tauto

/-- The names of members with commas between them. -/
def listed (members : List Member) : String :=
  join "," (members.map (·.name))

section

variable {members : List Member}

/-- The characters of a list of names. -/
theorem toList_listed (members : List Member) :
    (listed members).toList = [','].intercalate (members.map (·.name.toList)) := by
  rw [listed, join, String.toList_intercalate, List.map_map]
  rfl

/-- A list of names has no blanks at its ends. -/
theorem trim_listed (plain : ∀ m ∈ members, m.isPlain = true) :
    trim (listed members) = listed members := by
  have ends : Trimmed (listed members).toList := by
    rw [toList_listed]
    refine .intercalate rfl fun piece mem => ?_
    obtain ⟨m, member, rfl⟩ := List.mem_map.mp mem
    exact .of_trim (Member.isPlain_iff.mp (plain m member)).2.1
  rw [trim, ends.trimChars_eq, String.ofList_toList]

/-- A list of names is no number. -/
theorem readInt64_listed (plain : ∀ m ∈ members, m.isPlain = true) (some_ : members ≠ []) :
    readInt64 (listed members) = none := by
  match members, some_ with
  | [m], _ =>
    have single : listed [m] = m.name := by
      rw [String.ext_iff, toList_listed, List.map_singleton, List.intercalate_singleton]
    rw [single]
    exact (Member.isPlain_iff.mp (plain m List.mem_cons_self)).2.2
  | m :: next :: rest, _ =>
    have comma : ',' ∈ (listed (m :: next :: rest)).toList := by
      rw [toList_listed, List.map_cons, List.map_cons, List.intercalate_cons_cons]
      simp
    by_contra number
    obtain ⟨n, number⟩ := Option.ne_none_iff_exists'.mp number
    exact absurd (isDigit_of_readInt64 number ',' comma) (by decide)

/-- A list of names is cut at its commas into the names. -/
theorem split_listed (plain : ∀ m ∈ members, m.isPlain = true) (some_ : members ≠ []) :
    (split ',' (listed members)).map trim = members.map (·.name) := by
  have whole : ∀ piece ∈ members.map (·.name.toList), ',' ∉ piece := by
    intro piece mem
    obtain ⟨m, member, rfl⟩ := List.mem_map.mp mem
    exact (Member.isPlain_iff.mp (plain m member)).1
  rw [split, toList_listed, splitChars_intercalate (by simpa using some_) whole, List.map_map,
    List.map_map]
  refine List.map_congr_left fun m mem => ?_
  simpa using (Member.isPlain_iff.mp (plain m mem)).2.1

/-- A list of names has no quote inside. -/
theorem quote_not_mem_listed (listable : ∀ m ∈ members, m.isListable = true) :
    '\'' ∉ (listed members).toList := by
  rw [toList_listed]
  induction members with
  | nil => simp [List.intercalate]
  | cons m rest ih =>
    obtain ⟨first, others⟩ := List.forall_mem_cons.mp listable
    have plain := (Member.isListable_iff.mp first).2
    cases rest with
    | nil => simpa [List.intercalate] using plain
    | cons next rest =>
      have behind := ih others
      rw [List.map_cons] at behind
      rw [List.map_cons, List.map_cons, List.intercalate_cons_cons]
      simp only [List.mem_append, List.mem_singleton, not_or]
      exact ⟨⟨plain, by decide⟩, behind⟩

end

namespace Enumeration

/-- The members of a value as its literal lists them, or else its number. -/
def written (e : Enumeration) (value : Int64) : String :=
  (e.format value).getD (toString value.toInt)

/-- The value that a name stands for, and zero where no member has the name. -/
def valueOf (e : Enumeration) (name : String) : Int64 :=
  (e.member? name).elim 0 (·.value)

/-- Whether the members of a value, where it has some, stand for all of it by their names. -/
def isSpelled (e : Enumeration) (value : Int64) : Bool :=
  let members := e.membersOf value
  members.isEmpty ||
    (members.all (fun m => m.isListable && e.member? m.name == some m) &&
      (e.isFlags || members.length == 1) &&
      members.foldr (fun m rest => m.value ||| rest) 0 == value)

section

variable {e : Enumeration} {value : Int64} {members : List Member} {text : String}

/-- Names of members combine to the values that they stand for. -/
theorem combine_names (known : ∀ m ∈ members, m ∈ e.members) :
    e.combine (members.map (·.name)) =
      .ok (members.foldr (fun m rest => e.valueOf m.name ||| rest) 0) := by
  induction members with
  | nil => rfl
  | cons m others ih =>
    obtain ⟨member, others⟩ := List.forall_mem_cons.mp known
    -- Some member has the name, though it need not be the one that was listed.
    cases found : e.member? m.name with
    | none => exact absurd (beq_self_eq_true m.name) (List.find?_eq_none.mp found m member)
    | some first =>
      rw [List.map_cons, combine, found]
      simp only [ih others, Except.map, List.foldr_cons, valueOf, found, Option.elim_some]

/-- A list of names is read as the values they stand for combined, where values combine. -/
theorem parseMembers_listed (plain : ∀ m ∈ members, m.isPlain = true)
    (known : ∀ m ∈ members, m ∈ e.members) (some_ : members ≠ []) :
    e.parseMembers (listed members) =
      if e.isFlags = true ∨ members.length = 1 then
        .ok (members.foldr (fun m rest => e.valueOf m.name ||| rest) 0)
      else .error (.invalidEnumMember e.name (listed members)) := by
  have positive : 0 < members.length := List.length_pos_iff.mpr some_
  rw [parseMembers, trim_listed plain]
  simp only [readInt64_listed plain some_, split_listed plain some_, List.length_map,
    combine_names known]
  by_cases combines : e.isFlags = true ∨ members.length = 1
  · rw [if_pos combines, if_neg]
    rcases combines with flags | single
    · simp [flags]
    · simp [single]
  · rw [if_neg combines, if_pos]
    obtain ⟨flags, several⟩ := not_or.mp combines
    rw [Bool.not_eq_true] at flags
    simp only [flags, Bool.not_false, Bool.and_true, decide_eq_true_eq]
    omega

/-- The members of a value are members. -/
theorem mem_of_mem_membersOf {m : Member} (mem : m ∈ e.membersOf value) : m ∈ e.members := by
  unfold membersOf at mem
  split at mem
  · exact List.mem_of_mem_filter mem
  · exact List.mem_of_mem_filter mem

/-- What is written for a value is the list of its members, or its number where it has none. -/
theorem written_eq (e : Enumeration) (value : Int64) : e.written value =
    if e.membersOf value = [] then toString value.toInt else listed (e.membersOf value) := by
  rw [written, format]
  cases e.membersOf value with
  | nil => rfl
  | cons m others => rfl

/-- The members that spell a value can be listed, tell their values apart and combine to it. -/
theorem isSpelled_iff : e.isSpelled value = true ↔ e.membersOf value = [] ∨
    (∀ m ∈ e.membersOf value, m.isListable = true ∧ e.member? m.name = some m) ∧
      (e.isFlags = true ∨ (e.membersOf value).length = 1) ∧
      (e.membersOf value).foldr (fun m rest => m.value ||| rest) 0 = value := by
  simp [isSpelled, and_assoc]

/-- What is written for a value is read as the value. -/
theorem parseMembers_written (spelled : e.isSpelled value = true) :
    e.parseMembers (e.written value) = .ok value := by
  rw [written_eq]
  split
  · have number := readInt64_toString value
    rw [parseMembers]
    simp only [trim_of_readInt64 number, number]
  · rename_i some_
    obtain ⟨own, few, whole⟩ := (isSpelled_iff.mp spelled).resolve_left some_
    have plain : ∀ m ∈ e.membersOf value, m.isPlain = true :=
      fun m mem => (Member.isListable_iff.mp (own m mem).1).1
    -- Each name stands for the value of the member it was taken from.
    have same : (e.membersOf value).foldr (fun m rest => e.valueOf m.name ||| rest) 0 =
        (e.membersOf value).foldr (fun m rest => m.value ||| rest) 0 := by
      refine List.foldr_ext _ _ 0 fun m mem rest => ?_
      rw [valueOf, (own m mem).2, Option.elim_some]
    rw [parseMembers_listed plain (fun _ => mem_of_mem_membersOf) some_, if_pos few, same, whole]

/-- What is written for a value has no quote inside. -/
theorem quote_not_mem_written (spelled : e.isSpelled value = true) :
    '\'' ∉ (e.written value).toList := by
  rw [written_eq]
  split
  · intro mem
    exact absurd (isDigit_of_readInt64 (readInt64_toString value) '\'' mem) (by decide)
  · rename_i some_
    exact quote_not_mem_listed fun m mem =>
      (((isSpelled_iff.mp spelled).resolve_left some_).1 m mem).1

/-- The values that the names in the text for a value stand for, combined. -/
def named (e : Enumeration) (value : Int64) : Int64 :=
  (e.membersOf value).foldr (fun m rest => e.valueOf m.name ||| rest) 0

/-- The text for a value is read as what its names stand for, unless several names may not combine. -/
theorem parseMembers_format (plain : ∀ m ∈ e.membersOf value, m.isPlain = true)
    (formatted : e.format value = some text) :
    e.parseMembers text =
      if e.isFlags = true ∨ (e.membersOf value).length = 1 then .ok (e.named value)
      else .error (.invalidEnumMember e.name text) := by
  have written : e.written value = text := by
    rw [Enumeration.written, formatted, Option.getD_some]
  have some_ : e.membersOf value ≠ [] := by
    intro none_
    rw [format, none_] at formatted
    cases formatted
  rw [written_eq, if_neg some_] at written
  subst written
  rw [parseMembers_listed plain (fun _ => mem_of_mem_membersOf) some_, named]

/-- The text for a value is read as the value exactly when its names may combine and combine to it. -/
theorem parseMembers_format_iff (plain : ∀ m ∈ e.members, m.isPlain = true)
    (formatted : e.format value = some text) :
    e.parseMembers text = .ok value ↔
      (e.isFlags = true ∨ (e.membersOf value).length = 1) ∧ e.named value = value := by
  rw [parseMembers_format (fun m mem => plain m (mem_of_mem_membersOf mem)) formatted]
  by_cases combines : e.isFlags = true ∨ (e.membersOf value).length = 1
  · rw [if_pos combines]
    simp only [Except.ok.injEq, combines, true_and]
  · rw [if_neg combines]
    simp only [reduceCtorEq, combines, false_and]

/-- Three levels of priority that combine. -/
def priorities : Enumeration :=
  ⟨"Priorities", [⟨"low", 1⟩, ⟨"medium", 2⟩, ⟨"high", 4⟩], true⟩

/-- A value all of whose bits have names comes back from its text. -/
theorem parseMembers_format_iff_of_priorities :
    priorities.format 6 = some "medium,high" ∧ priorities.parseMembers "medium,high" = .ok 6 :=
  have plain : ∀ m ∈ priorities.members, m.isPlain = true := by decide
  have formatted : priorities.format 6 = some "medium,high" := by decide
  ⟨formatted, (parseMembers_format_iff plain formatted).mpr ⟨.inl rfl, by decide⟩⟩

/-- A colour with two names. -/
def colours : Enumeration :=
  ⟨"Colours", [⟨"red", 1⟩, ⟨"crimson", 1⟩], false⟩

/-- Bits without names are lost, and two names of one value are refused where names do not combine. -/
theorem format_is_misread :
    (∀ m ∈ priorities.members ++ colours.members, m.isListable = true) ∧
      (priorities.format 9 = some "low" ∧ priorities.parseMembers "low" = .ok 1) ∧
      (colours.format 1 = some "red,crimson" ∧
        colours.parseMembers "red,crimson" = .error (.invalidEnumMember "Colours" "red,crimson")) := by
  decide

/-- A bit is set in values combined when it is set in one of them. -/
theorem getLsbD_combined (f : Member → Int64) (i : Nat) :
    (members.foldr (fun m rest => f m ||| rest) 0).toBitVec.getLsbD i = true ↔
      ∃ m ∈ members, (f m).toBitVec.getLsbD i = true := by
  induction members with
  | nil => simp
  | cons m others ih =>
    rw [List.foldr_cons, Int64.toBitVec_or, BitVec.getLsbD_or, Bool.or_eq_true, ih,
      List.exists_mem_cons_iff]

/-- Where names tell members apart, the name of a member finds the member. -/
theorem member?_of_mem (distinct : (e.members.map (·.name)).Nodup) {m : Member}
    (mem : m ∈ e.members) : e.member? m.name = some m := by
  cases found : e.member? m.name with
  | none => exact absurd (beq_self_eq_true m.name) (List.find?_eq_none.mp found m mem)
  | some first =>
    have same : first.name = m.name := by simpa using List.find?_some found
    have one : first = m :=
      List.inj_on_of_nodup_map distinct (List.mem_of_find?_eq_some found) mem same
    rw [one]

/-- Where names tell members apart, each stands for the value of its own member. -/
theorem named_of_distinct (distinct : (e.members.map (·.name)).Nodup) :
    e.named value = (e.membersOf value).foldr (fun m rest => m.value ||| rest) 0 := by
  refine List.foldr_ext _ _ 0 fun m mem rest => ?_
  rw [valueOf, member?_of_mem distinct (mem_of_mem_membersOf mem), Option.elim_some]

/-- The text for a set of flags is read as the bits of it that belong to a flag that is in it. -/
theorem parseMembers_format_flags (plain : ∀ m ∈ e.members, m.isPlain = true)
    (distinct : (e.members.map (·.name)).Nodup) (flags : e.isFlags = true)
    (formatted : e.format value = some text) :
    ∃ read, e.parseMembers text = .ok read ∧
      ∀ i, read.toBitVec.getLsbD i = true ↔
        ∃ m ∈ e.members, hasFlag value m.value = true ∧ m.value.toBitVec.getLsbD i = true := by
  refine ⟨e.named value, ?_, fun i => ?_⟩
  · rw [parseMembers_format (fun m mem => plain m (mem_of_mem_membersOf mem)) formatted,
      if_pos (.inl flags)]
  rw [named_of_distinct distinct, getLsbD_combined, membersOf, if_pos flags]
  constructor
  · rintro ⟨m, mem, set_⟩
    obtain ⟨mem, within⟩ := List.mem_filter.mp mem
    exact ⟨m, mem, (Bool.and_eq_true_iff.mp within).2, set_⟩
  · rintro ⟨m, mem, within, set_⟩
    -- A flag with a bit is not zero, so it is listed.
    have some_ : m.value ≠ 0 := by
      intro zero
      rw [zero] at set_
      simp at set_
    exact ⟨m, List.mem_filter.mpr ⟨mem, by simp [some_, within]⟩, set_⟩

end

end Enumeration

end EdmQuery
