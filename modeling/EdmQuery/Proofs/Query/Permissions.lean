import Mathlib
import EdmQuery.Proofs.Query.NestedOptions

/-! Options that are read are permitted by the sets that they are for, at every depth of nesting. -/

namespace EdmQuery

/-- An item of an expansion of a set writes options for the set that it leads to. -/
structure ExpandItem.Writes (m : Model) (s : EntitySet) (item : ExpandItem) (target : EntitySet)
    (raw : RawOptions) : Prop where
  declared : (s.type.navigation? item.navigation).isSome
  bound : (m.target? s.name item.navigation).bind m.set? = some target
  -- An item without parentheses writes no options, as one with nothing in them does.
  written : ∃ pairs, splitNestedOptions (item.options.getD "") = .ok pairs ∧
    RawOptions.ofPairs pairs = .ok raw

/-- What an item writes, and for which set, is determined. -/
theorem ExpandItem.Writes.unique {m : Model} {s target target' : EntitySet} {item : ExpandItem}
    {raw raw' : RawOptions} (writes : item.Writes m s target raw)
    (writes' : item.Writes m s target' raw') : target' = target ∧ raw' = raw := by
  obtain ⟨pairs, split, given⟩ := writes.written
  obtain ⟨pairs', split', given'⟩ := writes'.written
  cases split.symm.trans split'
  cases given.symm.trans given'
  exact ⟨Option.some.inj (writes'.bound.symm.trans writes.bound), rfl⟩

namespace QueryOptions

/-- A set has the capability for every option that is given. -/
def Permitted (s : EntitySet) (raw : RawOptions) : Prop :=
  ∀ option, (raw.get? option).isSome → s.capabilities.contains option.capability = true

/-- Options for a set are those of a request or are nested in its expansions, at any depth. -/
inductive Nested (m : Model) (s : EntitySet) (raw : RawOptions) : EntitySet → RawOptions → Prop
  | here : Nested m s raw s raw
  | item {outer inner : EntitySet} {around within : RawOptions} {text : String}
      {items : List ExpandItem} {item : ExpandItem} (reached : Nested m s raw outer around)
      (given : around.get? .expand = some text) (parsed : parseExpand text = .ok items)
      (mem : item ∈ items) (writes : item.Writes m outer inner within) :
      Nested m s raw inner within

section

variable {m : Model} {s set : EntitySet} {raw raw' within : RawOptions} {o : QueryOptions}
  {levels : Nat} {nested : EntitySet → RawOptions → Except RequestError QueryOptions}

/-- Options that pass the check of capabilities are permitted. -/
theorem permitted_of_checkCapabilities (able : checkCapabilities s raw = .ok ()) :
    Permitted s raw := by
  rw [checkCapabilities] at able
  split at able
  · cases able
  rename_i passed
  rw [List.find?_eq_none] at passed
  intro option given
  -- The list that is searched leaves no option out.
  have here := passed option (by cases option <;> decide)
  rwa [given, Bool.true_and, Bool.not_eq_true', Bool.not_eq_false] at here

/-- The check of capabilities reports an option that the set does not have the capability for. -/
theorem checkCapabilities_of_not_permitted (forbidden : ¬ Permitted s raw) :
    ∃ option, (raw.get? option).isSome ∧ s.capabilities.contains option.capability = false ∧
      checkCapabilities s raw = .error (.unsupportedOption ("$" ++ option.name)) := by
  cases found : QueryOption.all.find? fun option =>
      (raw.get? option).isSome && !s.capabilities.contains option.capability with
  | none =>
    have able : checkCapabilities s raw = .ok () := by rw [checkCapabilities, found]
    exact absurd (permitted_of_checkCapabilities able) forbidden
  | some first =>
    have lacking := List.find?_some found
    rw [Bool.and_eq_true, Bool.not_eq_true'] at lacking
    exact ⟨first, lacking.1, lacking.2, by rw [checkCapabilities, found]⟩

/-- The check of capabilities does not look at the texts of options. -/
theorem checkCapabilities_congr
    (same : ∀ option, (raw'.get? option).isSome = (raw.get? option).isSome) :
    checkCapabilities s raw' = checkCapabilities s raw := by
  simp only [checkCapabilities, same]

/-- Options that fail the check of capabilities are not read any further. -/
theorem parse_of_checkCapabilities {fault : RequestError}
    (unable : checkCapabilities s raw = .error fault) : parse m s raw = .error fault := by
  rw [parse, levelsOf, parseLevels, unable]
  rfl

/-- An item that is expanded writes options that are read for the set that it leads to. -/
theorem writes_of_parseItem {item : ExpandItem} {e : Expansion}
    (read : parseItem m nested s item = .ok e) :
    ∃ target raw o, item.Writes m s target raw ∧ nested target raw = .ok o := by
  rw [parseItem] at read
  split at read
  · cases read
  rename_i navigation declared
  split at read
  · cases read
  rename_i name bound
  split at read
  · cases read
  rename_i target there
  obtain ⟨pairs, split, read⟩ := bind_ok read
  obtain ⟨raw, given, read⟩ := bind_ok read
  obtain ⟨o, options, -⟩ := bind_ok read
  refine ⟨target, raw, o, ⟨by rw [declared]; rfl, ?_, pairs, mapError_ok split, given⟩, options⟩
  rw [bound, Option.bind_some, there]

/-- Every item of an expansion that is read writes options that are read in turn. -/
theorem writes_of_reads {text : String} (reads : Reads m levels s raw o)
    (given : raw.get? .expand = some text) :
    ∃ items, parseExpand text = .ok items ∧ ∀ item ∈ items,
      ∃ target raw o, item.Writes m s target raw ∧ parseLevels m levels target raw = .ok o := by
  have expanded := parseGiven_some given reads.expand
  rw [parseExpansions] at expanded
  split at expanded
  · cases expanded
  rename_i items parsed
  refine ⟨items, parsed, fun item mem => ?_⟩
  -- Items are all read where each of them is.
  have each := (mapM_ok_iff.mp expanded).imp fun item e read =>
    show (∃ e, parseItem m (parseLevels m levels) s item = .ok e) ∧ True from ⟨⟨e, read⟩, trivial⟩
  obtain ⟨e, read⟩ := ((List.forall₂_and_left _ _).mp each).1 item mem
  exact writes_of_parseItem read

/-- Options are read with the levels that their texts have room for. -/
theorem reads_of_parse (read : parse m s raw = .ok o) :
    Reads m (((raw.get? .expand).getD "").length + 1) s raw o :=
  parseLevels_ok_iff.mp read

/-- What is nested in options that are read is read for the set that it is for. -/
theorem Nested.read (reached : Nested m s raw set within) (read : parse m s raw = .ok o) :
    ∃ o, parse m set within = .ok o := by
  -- The induction is on the nesting: an item of options that are read is read with them.
  induction reached with
  | here => exact ⟨o, read⟩
  | item _ given parsed mem writes ih =>
    obtain ⟨o, read⟩ := ih
    obtain ⟨items, parsed', each⟩ := writes_of_reads (reads_of_parse read) given
    cases parsed.symm.trans parsed'
    obtain ⟨target, raw, o, writes', read⟩ := each _ mem
    -- The item leads to one set and writes one list of options, so these are the ones read.
    obtain ⟨rfl, rfl⟩ := writes.unique writes'
    exact ⟨o, parseLevels_more read (Nat.le_refl _)⟩

end

/--
Options that are read are permitted, and so are those nested in their expansions at any depth, each
by the set that it is for; forbidden options are refused whatever their texts and the model are.
-/
theorem options_are_permitted (m : Model) (s : EntitySet) (raw : RawOptions) :
    (∀ o, parse m s raw = .ok o → ∀ set within, Nested m s raw set within →
      Permitted set within ∧ ∀ text, within.get? .expand = some text →
        ∃ items, parseExpand text = .ok items ∧ ∀ item ∈ items,
          ∃ target deeper, item.Writes m set target deeper) ∧
    (¬ Permitted s raw → ∃ option, (raw.get? option).isSome ∧
      s.capabilities.contains option.capability = false ∧ ∀ m' raw',
        (∀ option, (raw'.get? option).isSome = (raw.get? option).isSome) →
          parse m' s raw' = .error (.unsupportedOption ("$" ++ option.name))) := by
  constructor
  · intro o read set within reached
    obtain ⟨o, read⟩ := reached.read read
    have reads := reads_of_parse read
    refine ⟨permitted_of_checkCapabilities reads.able, fun text given => ?_⟩
    obtain ⟨items, parsed, each⟩ := writes_of_reads reads given
    refine ⟨items, parsed, fun item mem => ?_⟩
    obtain ⟨target, deeper, -, writes, -⟩ := each item mem
    exact ⟨target, deeper, writes⟩
  · intro forbidden
    obtain ⟨option, given, lacking, refused⟩ := checkCapabilities_of_not_permitted forbidden
    refine ⟨option, given, lacking, fun m' raw' same => ?_⟩
    -- The check comes first and sees only which options there are.
    exact parse_of_checkCapabilities ((checkCapabilities_congr same).trans refused)

/-- A set of drawers, whose folders are shown but not counted or paged. -/
def drawers : EntitySet :=
  ⟨"drawers", folderType, .ofList [.filter, .expand], .memory⟩

/-- A set of folders that are paged but not filtered. -/
def pagedFolders : EntitySet :=
  ⟨"pagedFolders", folderType, .ofList [.paginate, .expand], .memory⟩

/-- A model in which drawers lead to folders and folders to drawers. -/
def drawerModel : Model :=
  ⟨.default, [], [folderType], [drawers, pagedFolders],
    [⟨"drawers", "children", "pagedFolders"⟩, ⟨"pagedFolders", "children", "drawers"⟩]⟩

/-- An expansion of drawers: the two first folders in each, and the unlabelled drawers in those. -/
def drawerTexts : RawOptions :=
  ⟨[(.expand, "children($top=2;$expand=children($filter=label eq null))")]⟩

/-- Folders are paged inside drawers, and drawers filtered inside folders; drawers are not paged. -/
theorem options_are_permitted_of_drawers :
    (∃ o, parse drawerModel drawers drawerTexts = .ok o) ∧
      Nested drawerModel drawers drawerTexts drawers ⟨[(.filter, "label eq null")]⟩ ∧
      Permitted drawers ⟨[(.filter, "label eq null")]⟩ ∧
      parse drawerModel drawers ⟨[(.filter, "label eq"), (.top, "two")]⟩
        = .error (.unsupportedOption "$top") := by
  have parsed : ∃ o, parse drawerModel drawers drawerTexts = .ok o := ⟨_, by cbv⟩
  -- Folders are inside the drawers of the request, and drawers are inside these folders.
  have folders : Nested drawerModel drawers drawerTexts pagedFolders
      ⟨[(.top, "2"), (.expand, "children($filter=label eq null)")]⟩ :=
    .item .here rfl (by decide +kernel : parseExpand _ = .ok [⟨"children",
        some "$top=2;$expand=children($filter=label eq null)"⟩]) List.mem_cons_self
      ⟨rfl, rfl, [("$top", "2"), ("$expand", "children($filter=label eq null)")],
        by decide +kernel, by decide +kernel⟩
  have inner : Nested drawerModel drawers drawerTexts drawers ⟨[(.filter, "label eq null")]⟩ :=
    .item folders rfl (by decide +kernel : parseExpand _ = .ok [⟨"children",
        some "$filter=label eq null"⟩]) List.mem_cons_self
      ⟨rfl, rfl, [("$filter", "label eq null")], by decide +kernel, by decide +kernel⟩
  obtain ⟨o, read⟩ := parsed
  have permitted := ((options_are_permitted drawerModel drawers drawerTexts).1 o read _ _ inner).1
  have forbidden : ¬ Permitted drawers ⟨[(.filter, "label eq"), (.top, "two")]⟩ := fun permitted =>
    absurd (permitted .top rfl) (by decide)
  obtain ⟨option, given, lacking, refused⟩ :=
    (options_are_permitted drawerModel drawers _).2 forbidden
  refine ⟨⟨o, read⟩, inner, permitted, ?_⟩
  -- Filters are permitted, and so it is the page that is refused.
  have page : option = .top := by
    revert given lacking
    cases option <;> decide
  rw [refused drawerModel _ fun _ => rfl, page]
  rfl

end QueryOptions

end EdmQuery
