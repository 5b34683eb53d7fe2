import Mathlib
import EdmQuery.Proofs.Query.OptionTexts

/-! Options that are nested in the text of an expansion are read as they are on their own. -/

namespace EdmQuery

open Text Recognizer

namespace QueryOption

/-- The name of an option with its dollar sign. -/
def mark (option : QueryOption) : String :=
  "$" ++ option.name

/-- The mark of an option starts with the dollar sign. -/
theorem toList_mark (option : QueryOption) : option.mark.toList = '$' :: option.name.toList :=
  String.toList_append

/-- The mark of an option has no blanks and opens nothing, and no sign for a text is in it. -/
theorem mark_plain (option : QueryOption) {c : Char} (mem : c ∈ option.mark.toList) :
    isBlank c = false ∧ Scan.isInert c = true ∧ c ≠ '=' := by
  have letters : option.name.toList.all isNameChar = true := by cases option <;> decide
  rw [toList_mark, List.mem_cons] at mem
  rcases mem with rfl | mem
  · decide
  · have letter := List.all_eq_true.mp letters c mem
    have glyph := isGlyph_of_isNameChar letter
    rw [isGlyph, Bool.and_eq_true] at glyph
    exact ⟨isBlank_of_isNameChar letter, glyph.2, ne_of_isNameChar letter (by decide)⟩

/-- An option is the one that its name is for. -/
theorem ofName?_name (option : QueryOption) : ofName? option.name = some option := by
  cases option <;> decide

end QueryOption

namespace RawOptions

/-- An option and its text, as they stand in the text of an expansion. -/
def written (entry : QueryOption × String) : String :=
  entry.1.mark ++ "=" ++ entry.2

/-- Options as they stand in the text of an expansion. -/
def toText (raw : RawOptions) : String :=
  join ";" (raw.entries.map written)

/-- A piece of a text is for an option, whose text it may have with other blanks around it. -/
def Writes (entry : QueryOption × String) (piece : List Char) : Prop :=
  ∃ value, piece = entry.1.mark.toList ++ '=' :: value ∧
    trimChars value = trimChars entry.2.toList ∧ Enclosed piece

section

variable {entry : QueryOption × String} {entries : List (QueryOption × String)}
  {pieces : List (List Char)} {piece : List Char}

/-- An option is written with its mark in front of its text. -/
theorem toList_written (entry : QueryOption × String) :
    (written entry).toList = entry.1.mark.toList ++ '=' :: entry.2.toList := by
  rw [written, String.toList_append, String.toList_append, List.append_assoc]
  rfl

/-- Options are written with semicolons between them. -/
theorem toList_toText (raw : RawOptions) :
    raw.toText.toList = [';'].intercalate (raw.entries.map fun entry => (written entry).toList) := by
  rw [toText, join, String.toList_intercalate, List.map_map]
  rfl

/-- An option is written by its mark and its text, where that is enclosed. -/
theorem writes_written (enclosed : Enclosed entry.2.toList) :
    Writes entry (written entry).toList := by
  refine ⟨entry.2.toList, toList_written entry, rfl, ?_⟩
  have mark : Enclosed entry.1.mark.toList := .of_inert fun c mem => (entry.1.mark_plain mem).2.1
  have sign : Enclosed ['='] := rfl
  rw [toList_written]
  exact mark.append (sign.append enclosed)

/-- A piece that writes an option does so without the blanks behind it. -/
theorem Writes.trimEnd (writes : Writes entry piece) : Writes entry (trimEnd piece) := by
  -- The sign in front of the value is visible, and so the cut does not go beyond it.
  obtain ⟨value, rfl, same, enclosed⟩ := writes
  refine ⟨Text.trimEnd value, trimEnd_append_cons rfl _ _, (trimChars_trimEnd value).trans same, ?_⟩
  obtain ⟨tail, whole, blank⟩ := eq_trimEnd_append (entry.1.mark.toList ++ '=' :: value)
  rw [whole] at enclosed
  exact .of_append_inert (fun c mem => Scan.isInert_of_isBlank (blank c mem)) enclosed

/-- Pieces that write options do so without the blanks behind the last of them. -/
theorem writes_trimEnd (writes : List.Forall₂ Writes entries pieces) :
    ∃ pieces', trimEnd ([';'].intercalate pieces) = [';'].intercalate pieces' ∧
      List.Forall₂ Writes entries pieces' := by
  -- Only the last piece is cut: a semicolon stands behind the others.
  induction writes with
  | nil => exact ⟨[], rfl, .nil⟩
  | @cons entry piece entries pieces first others ih =>
    cases pieces with
    | nil =>
      refine ⟨[trimEnd piece], ?_, .cons first.trimEnd others⟩
      rw [List.intercalate_singleton, List.intercalate_singleton]
    | cons next pieces =>
      obtain ⟨pieces', same, writes⟩ := ih
      refine ⟨piece :: pieces', ?_, .cons first writes⟩
      cases others
      cases writes with
      | cons last writes =>
        rw [List.intercalate_cons_cons, List.intercalate_cons_cons, List.append_assoc,
          List.append_assoc, ← same]
        exact trimEnd_append_cons rfl piece _

/-- A piece that writes an option gives its mark and its text. -/
theorem Writes.toPair {p : OptionPiece} (writes : Writes entry p.chars) (text : String) :
    p.toPair text = .ok (entry.1.mark, trim entry.2) := by
  -- The first sign is the one behind the mark, which has none.
  obtain ⟨value, chars, same, -⟩ := writes
  have outside : ∀ c ∈ entry.1.mark.toList, (c != '=') = true :=
    fun c mem => bne_iff_ne.mpr (entry.1.mark_plain mem).2.2
  have sign : Stops (· != '=') ('=' :: value) := .cons (by decide)
  have mark : trimChars entry.1.mark.toList = entry.1.mark.toList :=
    trimChars_eq_self fun c mem => (entry.1.mark_plain mem).1
  rw [OptionPiece.toPair, splitOnce, String.toList_ofList, chars, sign.dropWhile_append outside,
    sign.takeWhile_append outside]
  simp only [trim, String.toList_ofList, mark, same, String.ofList_toList]

/-- A piece that writes an option is not left out. -/
theorem Writes.visible (writes : Writes entry piece) : (trimChars piece).isEmpty = false := by
  obtain ⟨value, rfl, -, -⟩ := writes
  rw [List.isEmpty_eq_false_iff]
  refine List.ne_nil_of_mem (mem_trimChars ?_ (rfl : isBlank '$' = false))
  rw [QueryOption.toList_mark]
  exact List.mem_cons_self

/-- Pieces that write options are enclosed. -/
theorem enclosed_of_writes (writes : List.Forall₂ Writes entries pieces) :
    ∀ piece ∈ pieces, Enclosed piece := by
  induction writes with
  | nil => exact nofun
  | cons first _ ih =>
    obtain ⟨_, -, -, enclosed⟩ := first
    exact List.forall_mem_cons.mpr ⟨enclosed, ih⟩

/-- A text whose pieces write options is split into their marks and texts. -/
theorem splitNestedOptions_of_writes (writes : List.Forall₂ Writes entries pieces) {text : String}
    (chars : text.toList = [';'].intercalate pieces) :
    splitNestedOptions text = .ok (entries.map fun entry => (entry.1.mark, trim entry.2)) := by
  rw [splitNestedOptions, chars]
  by_cases none_ : pieces = []
  · subst none_
    rw [List.forall₂_nil_right_iff.mp writes]
    rfl
  -- The text is split into just these pieces, none of them is left out, and each gives its pair.
  have split := splitPieces_intercalate (enclosed_of_writes writes) none_ 0 0
  generalize splitPieces 0 0 [] 0 false ([';'].intercalate pieces) = found at split
  rw [← split, List.forall₂_map_right_iff] at writes
  have both : List.Forall₂ (fun p entry => (!(trimChars p.chars).isEmpty) = true ∧
      p.toPair text = .ok (entry.1.mark, trim entry.2)) found entries :=
    writes.flip.imp fun p entry writes => ⟨by rw [Writes.visible writes]; rfl, Writes.toPair writes text⟩
  obtain ⟨visible, pairs⟩ := (List.forall₂_and_left _ _).mp both
  simp only [List.filter_eq_self.mpr visible]
  exact mapM_ok_iff.mpr (List.forall₂_map_right_iff.mpr pairs)

/-- Options that are given once each are made of their marks and texts. -/
theorem addPairs_mark {front : List (QueryOption × String)}
    (distinct : ((front ++ entries).map Prod.fst).Nodup) (via : String → String) :
    addPairs ⟨front⟩ (entries.map fun entry => (entry.1.mark, via entry.2))
      = .ok ⟨front ++ entries.map fun entry => (entry.1, via entry.2)⟩ := by
  induction entries generalizing front with
  | nil => rw [List.map_nil, List.map_nil, List.append_nil]; rfl
  | cons entry entries ih =>
    have mark : trim entry.1.mark = entry.1.mark := by
      rw [trim, trimChars_eq_self fun c mem => (entry.1.mark_plain mem).1, String.ofList_toList]
    -- The option is none of those in front of it.
    have new : ¬ (get? ⟨front⟩ entry.1).isSome = true := by
      intro given
      obtain ⟨text, given⟩ := Option.isSome_iff_exists.mp given
      have mem := List.mem_map_of_mem (f := Prod.fst) (mem_of_get? given)
      rw [List.map_append, List.nodup_append] at distinct
      exact distinct.2.2 _ mem _ (List.mem_map_of_mem List.mem_cons_self) rfl
    have distinct' :
        (((front ++ [(entry.1, via entry.2)]) ++ entries).map Prod.fst).Nodup := by
      simpa using distinct
    rw [List.map_cons, addPairs]
    simp only [mark, QueryOption.toList_mark, String.ofList_toList, QueryOption.ofName?_name, new]
    rw [if_neg Bool.false_ne_true, ih distinct', List.map_cons, List.append_assoc]
    rfl

end

/-- Options are read back from their text, without the blanks around what each of them says. -/
theorem ofPairs_toText {raw : RawOptions} (distinct : (raw.entries.map Prod.fst).Nodup)
    (enclosed : ∀ entry ∈ raw.entries, Enclosed entry.2.toList) :
    ∃ pairs, splitNestedOptions (trim raw.toText) = .ok pairs ∧ ofPairs pairs = .ok raw.trimmed := by
  have writes : List.Forall₂ Writes raw.entries
      (raw.entries.map fun entry => (written entry).toList) := by
    rw [List.forall₂_map_right_iff, List.forall₂_same]
    exact fun entry mem => writes_written (enclosed entry mem)
  -- A text of options starts with a dollar sign, if it has any characters.
  have start : trimStart raw.toText.toList = raw.toText.toList := by
    rw [toList_toText]
    cases raw.entries with
    | nil => rfl
    | cons entry entries =>
      obtain ⟨rest, first⟩ : ∃ rest, [';'].intercalate ((entry :: entries).map fun entry =>
          (written entry).toList) = '$' :: rest := by
        rw [List.map_cons, toList_written, QueryOption.toList_mark]
        cases entries <;> exact ⟨_, rfl⟩
      rw [first, trimStart, List.dropWhile_cons_of_neg (by decide)]
  obtain ⟨pieces, chars, writes⟩ := writes_trimEnd writes
  refine ⟨_, splitNestedOptions_of_writes writes ?_, @addPairs_mark _ [] distinct trim⟩
  rw [trim, String.toList_ofList, trimChars, start, toList_toText, chars]

end RawOptions

section

variable {navigation options : String} {pieces : List (List Char)}

/-- Pieces with semicolons between them are read up to the parenthesis behind them. -/
theorem Cursor.matchingParenthesis_pieces {c : Cursor} {rest : List Char}
    (enclosed : ∀ piece ∈ pieces, Enclosed piece)
    (at_ : c.rest = '(' :: ([';'].intercalate pieces ++ ')' :: rest)) :
    ∃ next, c.matchingParenthesis = .ok (String.ofList ([';'].intercalate pieces), next) ∧
      next.rest = rest := by
  obtain ⟨inside, opening, left⟩ : ∃ inside, c.char '(' = .ok (String.ofList ['('], inside) ∧
      inside.rest = [';'].intercalate pieces ++ ')' :: rest :=
    recognize_takes (.mark '(' _) at_ _
  have closing := closing_pieces enclosed rest 0
  rw [Nat.zero_add] at closing
  refine ⟨inside.advance (([';'].intercalate pieces).length + 1), ?_, ?_⟩
  · rw [Cursor.matchingParenthesis, opening]
    simp only [closing, ahead, left, List.take_left]
  · rw [advance, left, List.drop_length_add_append]
    rfl

/-- A navigation property with options in parentheses is a single item. -/
theorem parseExpand_nested (name : Identifier navigation.toList)
    (enclosed : ∀ piece ∈ pieces, Enclosed piece)
    (chars : options.toList = [';'].intercalate pieces) :
    parseExpand (navigation ++ "(" ++ options ++ ")")
      = .ok [⟨navigation, some (trim options)⟩] := by
  have at_ : (Cursor.start (navigation ++ "(" ++ options ++ ")")).rest
      = navigation.toList ++ '(' :: ([';'].intercalate pieces ++ [')']) := by
    rw [← chars]
    simp [Cursor.start]
  have start := Cursor.rest_skipBlanks_of_stops at_ (by
    obtain ⟨first, more, front, letter⟩ := name.head
    rw [front]
    exact .cons (isBlank_of_startsName letter))
  obtain ⟨next, word, left⟩ := Cursor.recognize_takes (name.takes (.cons (by decide))) start
    "an identifier"
  have stay := Cursor.rest_skipBlanks_of_stops left (.cons rfl)
  obtain ⟨last, options_, finished⟩ := Cursor.matchingParenthesis_pieces enclosed stay
  -- Nothing is left behind the parenthesis, and so there are no more items.
  have peek : (next.skipBlanks.peek == some '(') = true := by rw [Cursor.peek, stay]; rfl
  have ends : last.isFinished = true := by
    rw [Cursor.isFinished, Cursor.rest_skipBlanks, finished]
    rfl
  rw [← chars] at options_
  rw [parseExpand, ExpandItem.parseFrom, ExpandItem.parseOne, Cursor.identifier, word]
  simp only [peek, if_true, options_, Except.map, ends, String.ofList_toList]

end

/-- An option that is given once has the text that it is given with. -/
theorem RawOptions.get?_of_mem {raw : RawOptions} (distinct : (raw.entries.map Prod.fst).Nodup)
    {option : QueryOption} {text : String} (mem : (option, text) ∈ raw.entries) :
    raw.get? option = some text := by
  obtain ⟨front, back, split⟩ := List.append_of_mem mem
  refine List.lookup_eq_some_iff.mpr ⟨front, back, split, fun entry memEntry => ?_⟩
  rw [split, List.map_append, List.nodup_append] at distinct
  have other := distinct.2.2 entry.1 (List.mem_map_of_mem memEntry) option List.mem_cons_self
  exact bne_iff_ne.mpr other.symm

namespace QueryOptions

variable {m : Model} {s t : EntitySet} {navigation target : String} {n : Navigation}
  {raw : RawOptions} {o : QueryOptions}

/-- Options in parentheses are those of the one expansion that is read, without blanks around. -/
theorem parseExpansions_nested (declared : s.type.navigation? navigation = some n)
    (name : Identifier navigation.toList) (bound : m.target? s.name navigation = some target)
    (there : m.set? target = some t) {pairs : List (String × String)} {raw' : RawOptions}
    (enclosed : ∀ entry ∈ raw.entries, Enclosed entry.2.toList)
    (split : splitNestedOptions (trim raw.toText) = .ok pairs)
    (given : RawOptions.ofPairs pairs = .ok raw')
    {nested : EntitySet → RawOptions → Except RequestError QueryOptions}
    (read : nested t raw' = .ok o) :
    parseExpansions m nested s (navigation ++ "(" ++ raw.toText ++ ")")
      = .ok [.mk n target o.stages o.count o.select o.expand] := by
  have pieces : ∀ piece ∈ raw.entries.map fun entry => (RawOptions.written entry).toList,
      Enclosed piece := by
    refine List.forall_mem_map.mpr fun entry mem => ?_
    obtain ⟨_, -, -, whole⟩ := RawOptions.writes_written (enclosed entry mem)
    exact whole
  have item : parseItem m nested s ⟨navigation, some (trim raw.toText)⟩
      = .ok (.mk n target o.stages o.count o.select o.expand) := by
    rw [parseItem, declared]
    simp only [bound, there, Option.getD_some, split]
    show RawOptions.ofPairs pairs >>= _ = _
    rw [given]
    show nested t raw' >>= _ = _
    rw [read]
    rfl
  rw [parseExpansions, parseExpand_nested name pieces (RawOptions.toList_toText raw)]
  exact mapM_ok_iff.mpr (.cons item .nil)

/--
Options in parentheses behind a navigation property are read as they are for its target.

The texts of a search and of selected properties have to be enclosed: parentheses and semicolons in
them count also between double quotes, and so does a single quote inside a word.
-/
theorem nested_options_are_read (declared : s.type.navigation? navigation = some n)
    (name : Identifier navigation.toList) (bound : m.target? s.name navigation = some target)
    (there : m.set? target = some t) (distinct : (raw.entries.map Prod.fst).Nodup)
    (search : ∀ text, raw.get? .search = some text → Enclosed text.toList)
    (select : ∀ text, raw.get? .select = some text → Enclosed text.toList)
    (parsed : parse m t raw = .ok o) :
    parseExpansions m (parse m) s (navigation ++ "(" ++ raw.toText ++ ")")
        = .ok [.mk n target o.stages o.count o.select o.expand] ∧
      (s.capabilities.contains .expand = true →
        parse m s ⟨[(.expand, navigation ++ "(" ++ raw.toText ++ ")")]⟩
          = .ok ⟨.empty, false, none, [.mk n target o.stages o.count o.select o.expand]⟩) := by
  -- Every text is enclosed; so the scanners cut the options out as they were put in.
  have reads := parseLevels_ok_iff.mp parsed
  have enclosed : ∀ entry ∈ raw.entries, Enclosed entry.2.toList :=
    fun _ mem => reads.enclosed search select (RawOptions.get?_of_mem distinct mem)
  obtain ⟨pairs, split, given⟩ := RawOptions.ofPairs_toText distinct enclosed
  have trimmed := parseLevels_ok_iff.mpr reads.trimmed
  refine ⟨parseExpansions_nested declared name bound there enclosed split given
    (parseLevels_more trimmed (Nat.le_refl _)), fun able => parseLevels_ok_iff.mpr ?_⟩
  -- The text around the options has room for all the levels that they need.
  have room : levelsOf raw.trimmed ≤ (navigation ++ "(" ++ raw.toText ++ ")").length + 1 := by
    have levels := levelsOf_le (RawOptions.within_of_splitNestedOptions split given)
    have short := length_trim_le raw.toText
    simp only [String.length_append, show "(".length = 1 from rfl, show ")".length = 1 from rfl]
    omega
  exact {
    able := by
      have none_ : (QueryOption.all.find? fun option =>
          ((RawOptions.mk [(.expand, navigation ++ "(" ++ raw.toText ++ ")")]).get? option).isSome &&
            !s.capabilities.contains option.capability) = none := by
        refine List.find?_eq_none.mpr fun option _ => ?_
        cases option <;> simp [RawOptions.get?, QueryOption.capability, able]
      rw [checkCapabilities, none_]
    filter := rfl
    search := rfl
    orderby := rfl
    skip := rfl
    top := rfl
    count := rfl
    select := rfl
    expand := parseExpansions_nested declared name bound there enclosed split given
      (parseLevels_more trimmed room) }

/-- Folders, which may have a label and lead to the folders in them. -/
def folderType : EntityType :=
  ⟨"Folder", some "id", [⟨"id", .primitive (.integer .int32), false, false, none⟩,
      ⟨"parent", .primitive (.integer .int32), true, false, none⟩,
      ⟨"label", .primitive .string, true, true, none⟩],
    [⟨"children", "Folder", true, [⟨"id", "parent"⟩]⟩]⟩

/-- A set of folders. -/
def folders : EntitySet :=
  ⟨"folders", folderType, .all, .memory⟩

/-- A model with a set of folders. -/
def folderModel : Model :=
  ⟨.default, [], [folderType], [folders], [⟨"folders", "children", "folders"⟩]⟩

/-- Texts of options, with semicolons, parentheses and blanks in them. -/
def folderTexts : RawOptions :=
  ⟨[(.filter, "label eq 'a;b)'"), (.top, " 2 "), (.search, "(x OR y)")]⟩

/-- The options that these texts write. -/
def folderOptions : QueryOptions :=
  ⟨⟨some (.binary .eq (.property .root ⟨"label", .primitive .string, true, true, none⟩)
      (.literal (.string "a;b)"))), some (.or (.term "x") (.term "y")), [], none, some 2⟩,
    false, none, []⟩

/-- Options are read for the folders in folders as they are for folders. -/
theorem nested_options_are_read_of_folders :
    parse folderModel folders folderTexts = .ok folderOptions ∧
      parse folderModel folders
          ⟨[(.expand, "children($filter=label eq 'a;b)';$top= 2 ;$search=(x OR y))")]⟩
        = .ok ⟨.empty, false, none, [.mk ⟨"children", "Folder", true, [⟨"id", "parent"⟩]⟩ "folders"
            folderOptions.stages false none []]⟩ := by
  have filter : parseFilter folderModel "folders" "label eq 'a;b)'"
      = .ok (.binary .eq (.property .root ⟨"label", .primitive .string, true, true, none⟩)
          (.literal (.string "a;b)"))) := by cbv
  have search : Search.parse .default "(x OR y)" = .ok (.or (.term "x") (.term "y")) := by
    decide +kernel
  have parsed : parse folderModel folders folderTexts = .ok folderOptions :=
    parseLevels_ok_iff.mpr {
      able := by decide
      filter := congrArg (fun read => (read.map some).mapError RequestError.expression) filter
      search := congrArg (fun read => (read.map some).mapError RequestError.expression) search
      orderby := rfl
      skip := rfl
      top := by cbv
      count := rfl
      select := rfl
      expand := rfl }
  have text : "children($filter=label eq 'a;b)';$top= 2 ;$search=(x OR y))"
        = "children" ++ "(" ++ folderTexts.toText ++ ")" := by decide +kernel
  have name : Identifier "children".toList :=
    ⟨[], 'c', "hildren".toList, rfl, .inl rfl, by decide, List.all_eq_true.mp (by decide)⟩
  have distinct : (folderTexts.entries.map Prod.fst).Nodup := by simp [folderTexts]
  have search_ : folderTexts.get? .search = some "(x OR y)" := rfl
  have select_ : folderTexts.get? .select = none := rfl
  refine ⟨parsed, ?_⟩
  rw [text]
  refine (nested_options_are_read rfl name rfl rfl distinct ?_ ?_ parsed).2 rfl
  · intro text given
    rw [← Option.some.inj (search_.symm.trans given)]
    decide
  · intro text given
    cases select_.symm.trans given

/-- A quote in a word of a search is taken for the start of a text that hides the parenthesis. -/
theorem nested_search_is_lost :
    parse folderModel folders ⟨[(.search, "it's")]⟩
        = .ok ⟨⟨none, some (.term "it's"), [], none, none⟩, false, none, []⟩ ∧
      parse folderModel folders ⟨[(.expand, "children($search=it's)")]⟩
        = .error (.expression (.at_ "children($search=it's)" 8 "unbalanced parenthesis")) := by
  have search : Search.parse .default "it's" = .ok (.term "it's") := by decide +kernel
  have lost : parseExpand "children($search=it's)"
      = .error (.at_ "children($search=it's)" 8 "unbalanced parenthesis") := by decide +kernel
  refine ⟨parseLevels_ok_iff.mpr {
      able := by decide
      filter := rfl
      search := congrArg (fun read => (read.map some).mapError RequestError.expression) search
      orderby := rfl
      skip := rfl
      top := rfl
      count := rfl
      select := rfl
      expand := rfl }, ?_⟩
  have refused (nested : EntitySet → RawOptions → Except RequestError QueryOptions) :
      parseExpansions folderModel nested folders "children($search=it's)"
        = .error (.expression (.at_ "children($search=it's)" 8 "unbalanced parenthesis")) := by
    rw [parseExpansions, lost]
  show (parseExpansions folderModel
      (parseLevels folderModel ("children($search=it's)".length + 1)) folders
        "children($search=it's)" >>=
    fun expand => Except.ok (QueryOptions.mk .empty false none expand)) = _
  rw [refused]
  rfl

end QueryOptions

end EdmQuery
