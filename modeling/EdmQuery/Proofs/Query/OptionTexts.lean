import Mathlib
import EdmQuery.Proofs.Expr.SearchPadding
import EdmQuery.Proofs.Expr.Wording
import EdmQuery.Query.Options

/-! Options are the same without blanks around their texts, and with more levels than they need. -/

namespace EdmQuery

open Text Number

namespace RawOptions

/-- Options without the blanks around their texts. -/
def trimmed (raw : RawOptions) : RawOptions :=
  ⟨raw.entries.map fun (option, text) => (option, trim text)⟩

/-- The text of an option is without the blanks around it. -/
theorem get?_trimmed (raw : RawOptions) (option : QueryOption) :
    raw.trimmed.get? option = (raw.get? option).map trim := by
  -- Trimming changes no option, and so the same entry is found.
  obtain ⟨entries⟩ := raw
  simp only [trimmed, get?]
  induction entries with
  | nil => rfl
  | cons entry entries ih =>
    rw [List.map_cons, List.lookup_cons, List.lookup_cons, ih]
    split <;> rfl

/-- No text of the options has more than so many characters. -/
def Within (raw : RawOptions) (n : Nat) : Prop :=
  ∀ entry ∈ raw.entries, entry.2.length ≤ n

section

variable {raw raw' : RawOptions} {n : Nat} {option : QueryOption} {text : String}
  {pairs : List (String × String)}

/-- The text of an option is one of the texts. -/
theorem mem_of_get? (given : raw.get? option = some text) : (option, text) ∈ raw.entries := by
  obtain ⟨front, back, split, -⟩ := List.lookup_eq_some_iff.mp given
  rw [split]
  exact List.mem_append_right front List.mem_cons_self

/-- Options are as long as the texts that they are made of. -/
theorem Within.addPairs (within : raw.Within n) (short : ∀ pair ∈ pairs, pair.2.length ≤ n)
    (added : raw.addPairs pairs = .ok raw') : raw'.Within n := by
  -- Every pair adds its own text or none.
  induction pairs generalizing raw with
  | nil =>
    cases added
    exact within
  | cons pair pairs ih =>
    obtain ⟨given, text⟩ := pair
    rw [List.forall_mem_cons] at short
    rw [RawOptions.addPairs] at added
    split at added
    · split at added
      · cases added
      split at added
      · cases added
      refine ih ?_ short.2 added
      exact List.forall_mem_append.mpr ⟨within, List.forall_mem_singleton.mpr short.1⟩
    · exact ih within short.2 added

/-- Pieces are no longer than the text that they are cut from. -/
theorem length_splitPieces (offset start : Nat) (piece : List Char) (depth : Nat) (inString : Bool)
    (chars : List Char) : ∀ p ∈ splitPieces offset start piece depth inString chars,
      p.chars.length ≤ piece.length + chars.length := by
  -- A character goes to the piece that is read or is the semicolon behind it.
  fun_induction splitPieces offset start piece depth inString chars with
  | case1 => simp
  | case6 _ _ piece _ _ c rest _ _ _ _ _ _ ih =>
    refine List.forall_mem_cons.mpr ⟨by simp, fun p mem => Nat.le_trans (ih p mem) ?_⟩
    simp only [List.length_nil, List.length_cons]
    omega
  | _ =>
    rename_i ih
    intro p mem
    have := ih p mem
    simp only [List.length_cons] at this ⊢
    omega

/-- The value of an option is no longer than the piece that it is written in. -/
theorem length_toPair {p : OptionPiece} {pair : String × String} (read : p.toPair text = .ok pair) :
    pair.2.length ≤ p.chars.length := by
  rw [OptionPiece.toPair] at read
  split at read
  · cases read
  rename_i name value found
  cases read
  rw [splitOnce, String.toList_ofList] at found
  split at found
  · cases found
  rename_i c rest behind
  cases found
  have short := length_trim_le (String.ofList rest)
  have part := (List.dropWhile_suffix (· != '=') (l := p.chars)).length_le
  rw [behind, List.length_cons] at part
  rw [String.length_ofList] at short
  exact Nat.le_trans short (Nat.le_of_succ_le part)

/-- Options that a text lists are no longer than the text. -/
theorem within_of_splitNestedOptions (split : splitNestedOptions text = .ok pairs)
    (given : ofPairs pairs = .ok raw) : raw.Within text.length := by
  rw [splitNestedOptions] at split
  have pieces : ∀ p ∈ (splitPieces 0 0 [] 0 false text.toList).filter fun p =>
      !(trimChars p.chars).isEmpty, p.chars.length ≤ text.length := by
    intro p mem
    have short := length_splitPieces _ _ _ _ _ _ p (List.mem_of_mem_filter mem)
    rwa [List.length_nil, Nat.zero_add, String.length_toList] at short
  have short := ((List.forall₂_and_left _ _).mpr ⟨pieces, mapM_ok_iff.mp split⟩).imp
    fun p pair both => show pair.2.length ≤ text.length ∧ True from
      ⟨Nat.le_trans (length_toPair both.2) both.1, trivial⟩
  exact .addPairs (List.forall_mem_nil _) ((List.forall₂_and_left _ _).mp short.flip).1 given

end

end RawOptions

section

variable {chars : List Char} {text : String}

/-- A text of inert characters with blanks around it is enclosed. -/
theorem Enclosed.of_trimChars (inert : ∀ c ∈ trimChars chars, Scan.isInert c = true) :
    Enclosed chars := by
  refine .of_inert fun c mem => ?_
  by_cases blank : isBlank c = true
  · exact Scan.isInert_of_isBlank blank
  · exact inert c (mem_trimChars mem (Bool.not_eq_true _ ▸ blank))

/-- Blanks around a text are cut off once. -/
theorem trim_trim (text : String) : trim (trim text) = trim text := by
  rw [trim, trim, String.toList_ofList, trimChars_trimChars]

namespace QueryOptions

/-- A page is the same without the blanks around its text. -/
theorem parsePage_trim {option : String} {n : Nat} (read : parsePage option text = .ok n) :
    parsePage option (trim text) = .ok n := by
  -- Only the fault would show the text as it was.
  revert read
  rw [parsePage, parsePage, trim, String.toList_ofList, trimChars_trimChars]
  split <;> split <;> intro read
  all_goals first | exact read | cases read

/-- A page opens nothing. -/
theorem enclosed_of_parsePage {option : String} {n : Nat} (read : parsePage option text = .ok n) :
    Enclosed text.toList := by
  have digits {chars : List Char}
      (number : (!chars.isEmpty && chars.all isDigit && natOfDigits chars < 2 ^ 64) = true) :
      ∀ c ∈ chars, Scan.isInert c = true := by
    intro c mem
    simp only [Bool.and_eq_true] at number
    have glyph := Recognizer.isGlyph_of_isDigit (List.all_eq_true.mp number.1.2 c mem)
    exact (Bool.and_eq_true _ _ ▸ glyph).2
  refine .of_trimChars ?_
  rw [parsePage] at read
  -- A sign may stand in front of the digits.
  split at read
  · rename_i signed
    split at read
    · rename_i number
      rw [signed]
      exact List.forall_mem_cons.mpr ⟨by decide, digits number⟩
    · cases read
  · split at read
    · rename_i number
      exact digits number
    · cases read

/-- Whether to count is the same without the blanks around its text. -/
theorem parseCount_trim (text : String) : parseCount (trim text) = parseCount text := by
  rw [parseCount, parseCount, trim_trim]

/-- Whether to count opens nothing. -/
theorem enclosed_of_parseCount {count : Bool} (read : parseCount text = .ok count) :
    Enclosed text.toList := by
  -- The text is one of two words with blanks around it.
  have word {expected : String} (same : (trim text == expected) = true)
      (inert : expected.toList.all Scan.isInert = true) : Enclosed text.toList := by
    rw [← eq_of_beq same, trim, String.toList_ofList] at inert
    exact .of_trimChars (List.all_eq_true.mp inert)
  rw [parseCount] at read
  split at read
  · rename_i same
    exact word same (by decide)
  split at read
  · rename_i same
    exact word same (by decide)
  · cases read

/-- Selected properties are the same without the blanks around their text. -/
theorem parseSelect_trim (type : EntityType) (text : String) :
    parseSelect type (trim text) = parseSelect type text := by
  -- The names are trimmed after the split, and so blanks at the ends do not matter.
  have names : (split ',' (trim text)).map trim = (split ',' text).map trim := by
    have same := splitChars_trimChars (show isBlank ',' = false from rfl) text.toList
    simp only [split, List.map_map, trim, String.toList_ofList, Function.comp_def] at same ⊢
    rw [← Function.comp_def, ← List.map_map, same, List.map_map]
  rw [parseSelect, parseSelect, names]

variable {α : Type} {raw raw' : RawOptions} {option : QueryOption} {fallback a : α}
  {read : String → Except RequestError α}

/-- What is read of an option that is given is what its text gives. -/
theorem parseGiven_some (given : raw.get? option = some text)
    (found : parseGiven raw option fallback read = .ok a) : read text = .ok a := by
  rwa [parseGiven, given] at found

/-- What is read of an option is read of one whose text gives the same. -/
theorem parseGiven_of {edit : String → String} {read' : String → Except RequestError α}
    (found : parseGiven raw option fallback read = .ok a)
    (edited : raw'.get? option = (raw.get? option).map edit)
    (same : ∀ text, raw.get? option = some text → read text = .ok a → read' (edit text) = .ok a) :
    parseGiven raw' option fallback read' = .ok a := by
  rw [parseGiven] at found ⊢
  rw [edited]
  cases given : raw.get? option with
  | none =>
    rw [given] at found
    exact found
  | some text =>
    rw [given] at found
    exact same text given found

/-- What is read of an option is read without the blanks around its text. -/
theorem parseGiven_trimmed (found : parseGiven raw option fallback read = .ok a)
    (same : ∀ text, read text = .ok a → read (trim text) = .ok a) :
    parseGiven raw.trimmed option fallback read = .ok a :=
  parseGiven_of found (raw.get?_trimmed option) fun text _ => same text

end QueryOptions

end

namespace QueryOptions

/-- The texts of options are read as the options, at most so many levels of expansions deep. -/
structure Reads (m : Model) (levels : Nat) (s : EntitySet) (raw : RawOptions) (o : QueryOptions) :
    Prop where
  able : checkCapabilities s raw = .ok ()
  filter : parseGiven raw .filter none (fun text =>
    ((parseFilter m s.name text).map some).mapError .expression) = .ok o.stages.filter
  search : parseGiven raw .search none (fun text =>
    ((Search.parse m.config text).map some).mapError .expression) = .ok o.stages.search
  orderby : parseGiven raw .orderby [] (fun text =>
    (parseOrder s.type text).mapError .expression) = .ok o.stages.orderby
  skip : parseGiven raw .skip none (fun text => (parsePage "$skip" text).map some)
    = .ok o.stages.skip
  top : parseGiven raw .top none (fun text => (parsePage "$top" text).map some) = .ok o.stages.top
  count : parseGiven raw .count false parseCount = .ok o.count
  select : parseGiven raw .select none (parseSelect s.type) = .ok o.select
  expand : parseGiven raw .expand [] (parseExpansions m (parseLevels m levels) s) = .ok o.expand

section

variable {m : Model} {s : EntitySet} {raw : RawOptions} {o : QueryOptions} {levels more : Nat}
  {option : QueryOption} {text : String}

/-- Options are read where each of their texts is. -/
theorem parseLevels_ok_iff :
    parseLevels m (levels + 1) s raw = .ok o ↔ Reads m levels s raw o := by
  constructor
  · -- A reading is a chain of steps, each of which must have succeeded.
    intro read
    rw [parseLevels] at read
    obtain ⟨⟨⟩, able, read⟩ := bind_ok read
    obtain ⟨stages, staged, read⟩ := bind_ok read
    obtain ⟨count, counted, read⟩ := bind_ok read
    obtain ⟨select, selected, read⟩ := bind_ok read
    obtain ⟨expand, expanded, read⟩ := bind_ok read
    rw [parseStages] at staged
    obtain ⟨filter, filtered, staged⟩ := bind_ok staged
    obtain ⟨search, searched, staged⟩ := bind_ok staged
    obtain ⟨orderby, ordered, staged⟩ := bind_ok staged
    obtain ⟨skip, skipped, staged⟩ := bind_ok staged
    obtain ⟨top, topped, staged⟩ := bind_ok staged
    cases staged
    cases read
    exact ⟨able, filtered, searched, ordered, skipped, topped, counted, selected, expanded⟩
  · intro reads
    rw [parseLevels, parseStages, reads.able, reads.filter, reads.search, reads.orderby, reads.skip,
      reads.top, reads.count, reads.select, reads.expand]
    rfl

/-- Options are read without the blanks around their texts. -/
theorem Reads.trimmed (reads : Reads m levels s raw o) : Reads m levels s raw.trimmed o where
  able := by
    have same : checkCapabilities s raw.trimmed = checkCapabilities s raw := by
      simp only [checkCapabilities, raw.get?_trimmed, Option.isSome_map]
    exact same.trans reads.able
  filter := parseGiven_trimmed reads.filter fun text read => by
    obtain ⟨filter, read, same⟩ := map_ok (mapError_ok read)
    rw [parseFilter_trim read, ← same]
    rfl
  search := parseGiven_trimmed reads.search fun text read => by
    obtain ⟨search, read, same⟩ := map_ok (mapError_ok read)
    rw [Search.parse_trim read, ← same]
    rfl
  orderby := parseGiven_trimmed reads.orderby fun text read => by
    rw [parseOrder_trim (mapError_ok read)]
    rfl
  skip := parseGiven_trimmed reads.skip fun text read => by
    obtain ⟨n, read, same⟩ := map_ok read
    rw [parsePage_trim read, ← same]
    rfl
  top := parseGiven_trimmed reads.top fun text read => by
    obtain ⟨n, read, same⟩ := map_ok read
    rw [parsePage_trim read, ← same]
    rfl
  count := parseGiven_trimmed reads.count fun text read => (parseCount_trim text).trans read
  select := parseGiven_trimmed reads.select fun text read =>
    (parseSelect_trim s.type text).trans read
  expand := parseGiven_trimmed reads.expand fun text read => by
    rw [parseExpansions] at read ⊢
    split at read
    · cases read
    · rename_i items found
      rw [parseExpand_trim found]
      exact read

/-- Texts that are read are enclosed, where those for searches and selected properties are. -/
theorem Reads.enclosed (reads : Reads m levels s raw o)
    (search : ∀ text, raw.get? .search = some text → Enclosed text.toList)
    (select : ∀ text, raw.get? .select = some text → Enclosed text.toList)
    (given : raw.get? option = some text) : Enclosed text.toList := by
  -- What each option is read by says that its text is enclosed.
  cases option with
  | filter =>
    obtain ⟨filter, read, -⟩ := map_ok (mapError_ok (parseGiven_some given reads.filter))
    exact enclosed_of_parseFilter read
  | search => exact search text given
  | orderby => exact enclosed_of_parseOrder (mapError_ok (parseGiven_some given reads.orderby))
  | skip =>
    obtain ⟨n, read, -⟩ := map_ok (parseGiven_some given reads.skip)
    exact enclosed_of_parsePage read
  | top =>
    obtain ⟨n, read, -⟩ := map_ok (parseGiven_some given reads.top)
    exact enclosed_of_parsePage read
  | count => exact enclosed_of_parseCount (parseGiven_some given reads.count)
  | select => exact select text given
  | expand =>
    have read := parseGiven_some given reads.expand
    rw [parseExpansions] at read
    split at read
    · cases read
    · rename_i items found
      exact enclosed_of_parseExpand found

/-- Levels for the longest text are enough for all. -/
theorem levelsOf_le {n : Nat} (within : raw.Within n) : levelsOf raw ≤ n + 2 := by
  rw [levelsOf]
  cases given : raw.get? .expand with
  | none => exact Nat.le_add_left _ _
  | some text => exact Nat.add_le_add_right (within _ (RawOptions.mem_of_get? given)) 2

/-- An item is expanded alike where nested options as long as its text are read alike. -/
theorem parseItem_of {nested nested' : EntitySet → RawOptions → Except RequestError QueryOptions}
    {item : ExpandItem} {e : Expansion} (read : parseItem m nested s item = .ok e)
    (same : ∀ set raw o, raw.Within item.size → nested set raw = .ok o → nested' set raw = .ok o) :
    parseItem m nested' s item = .ok e := by
  rw [parseItem] at read ⊢
  split at read
  · cases read
  split at read
  · cases read
  split at read
  · cases read
  rename_i set there
  obtain ⟨pairs, split, read⟩ := bind_ok read
  obtain ⟨raw, given, read⟩ := bind_ok read
  obtain ⟨o, options, read⟩ := bind_ok read
  -- The nested options come from the text of the item, which bounds their texts.
  have within := RawOptions.within_of_splitNestedOptions (mapError_ok split) given
  rw [split]
  show RawOptions.ofPairs pairs >>= _ = _
  rw [given]
  show nested' set raw >>= _ = _
  rw [same set raw o within options]
  exact read

/-- Options that are read are read with any number of levels that their texts have room for. -/
theorem parseLevels_more (read : parseLevels m levels s raw = .ok o) (enough : levelsOf raw ≤ more) :
    parseLevels m more s raw = .ok o := by
  -- The induction is on the levels: texts of nested options are shorter than those around them.
  induction levels generalizing s raw o more with
  | zero => cases read
  | succ levels ih =>
    obtain ⟨more, rfl⟩ : ∃ k, more = k + 1 := ⟨more - 1, by rw [levelsOf] at enough; omega⟩
    rw [parseLevels_ok_iff] at read ⊢
    have unedited : raw.get? .expand = (raw.get? .expand).map id := by rw [Option.map_id, id]
    refine { read with expand := parseGiven_of read.expand unedited fun text given expanded => ?_ }
    rw [levelsOf, given, Option.getD_some] at enough
    rw [parseExpansions] at expanded ⊢
    split at expanded
    · cases expanded
    rename_i items found
    simp only [id, found]
    have small : ∀ item ∈ items, item.size < text.length :=
      fun item mem => size_lt_of_parseExpand found mem
    refine mapM_ok_iff.mpr <| ((List.forall₂_and_left _ _).mpr ⟨small, mapM_ok_iff.mp expanded⟩).imp ?_
    rintro item e ⟨less, made⟩
    refine parseItem_of made fun set raw o within options => ih options ?_
    have := levelsOf_le within
    omega

end

end QueryOptions

end EdmQuery
