import Mathlib
import EdmQuery.Proofs.Sql.Navigation

/-! The aliases of joins, which tell paths apart that no name of a hop can be confused in. -/

namespace EdmQuery

/-- The navigation properties that member paths can follow. -/
def EntityType.hops (type : EntityType) : List Navigation :=
  type.navigations.filter (!·.isCollection)

/-- Whether no hop has the name of another one with an underscore and more behind it. -/
def EntityType.tellsHopsApart (type : EntityType) : Bool :=
  type.hops.all fun n => type.hops.all fun other =>
    !(n.name.toList ++ ['_']).isPrefixOf other.name.toList

/-- Where the hop of a name leads from a frame. -/
def Model.follow (m : Model) (frame : Frame) (name : String) : Option Frame := do
  let n ← frame.type.navigation? name
  let target ← m.target? frame.set name
  if n.isCollection then none else (m.set? target).map fun set => ⟨target, set.type⟩

namespace NavigationPath

/-- A path of hops that a model has, and the frame that it leads to. -/
inductive Leads (m : Model) (root : Frame) : NavigationPath → Frame → Prop where
  | root : Leads m root .root root
  | hop {parent : NavigationPath} {frame : Frame} {n : Navigation} {target : String}
      {set : EntitySet} (before : Leads m root parent frame)
      (found : frame.type.navigation? n.name = some n) (single : n.isCollection = false)
      (bound : m.target? frame.set n.name = some target) (present : m.set? target = some set) :
      Leads m root (.hop parent n target) ⟨target, set.type⟩

/-- The names of the hops of a path, from the root on. -/
def names : NavigationPath → List String
  | root => []
  | hop parent n _ => parent.names ++ [n.name]

/-- Names with an underscore before each of them. -/
def separated (names : List String) : List Char :=
  names.flatMap fun name => '_' :: name.toList

variable {m : Model} {root : Frame}

/-- A path follows its hops from the root on. -/
theorem Leads.follow {path : NavigationPath} {frame : Frame} (leads : path.Leads m root frame) :
    path.names.foldlM m.follow root = some frame := by
  induction leads with
  | root => rfl
  | hop _ found single bound present ih =>
    rw [names, List.foldlM_append, ih]
    simp [Model.follow, found, single, bound, present]

/-- A path is known from the names of its hops. -/
theorem Leads.eq_of_names {p q : NavigationPath} {a b : Frame} (first : p.Leads m root a)
    (second : q.Leads m root b) (same : p.names = q.names) : p = q := by
  induction first generalizing q b with
  | root =>
    cases second with
    | root => rfl
    | hop => simp [names] at same
  | hop before found _ bound _ ih =>
    cases second with
    | root => simp [names] at same
    | hop before' found' _ bound' _ =>
      obtain ⟨sameParent, sameName⟩ := List.append_inj' same rfl
      -- From one frame, a name has one navigation property and one target.
      obtain rfl := ih before' sameParent
      have sameFrame := before.follow.symm.trans before'.follow
      cases sameFrame
      rw [List.singleton_inj] at sameName
      rw [← sameName, found] at found'
      cases found'
      rw [bound] at bound'
      cases bound'
      rfl

/-- The alias of a path has the names of its hops, with underscores between them. -/
theorem toList_name {path : NavigationPath} (isHop : path ≠ .root) :
    '_' :: path.name.toList = separated path.names := by
  induction path with
  | root => exact absurd rfl isHop
  | hop parent n target ih =>
    cases parent with
    | root => simp [name, alias?, joinAlias, names, separated]
    | hop before first start =>
      rw [names, separated, List.flatMap_append, ← separated, ← ih (by simp)]
      simp [name, alias?, joinAlias]

end NavigationPath

open NavigationPath

/-- What a hop of a name leads to is a frame of the model, and the hop is one of the type. -/
theorem Model.follow_some {m : Model} {frame next : Frame} {name : String}
    (followed : m.follow frame name = some next) :
    next.Known m ∧ ∃ n ∈ frame.type.hops, n.name = name := by
  simp only [follow, Option.bind_eq_bind, Option.bind_eq_some_iff] at followed
  obtain ⟨n, found, target, -, rest⟩ := followed
  split at rest
  · cases rest
  rename_i single
  obtain ⟨set, present, rfl⟩ := Option.map_eq_some_iff.mp rest
  refine ⟨⟨set, present, rfl⟩, n, ?_, by simpa using List.find?_some found⟩
  exact List.mem_filter.mpr ⟨List.mem_of_find?_eq_some found, by simpa using single⟩

/-- Of two hops of a type that tells them apart, none has the name of the other and more. -/
theorem EntityType.not_behind {type : EntityType} (apart : type.tellsHopsApart = true)
    {n other : Navigation} (mem : n ∈ type.hops) (mem' : other ∈ type.hops) (more : List Char) :
    other.name.toList ≠ n.name.toList ++ '_' :: more := by
  intro same
  have checked := List.all_eq_true.mp (List.all_eq_true.mp apart n mem) other mem'
  have behind : (n.name.toList ++ ['_']).isPrefixOf other.name.toList = true := by
    rw [same, List.isPrefixOf_iff_prefix]
    exact ⟨more, by simp⟩
  rw [behind] at checked
  cases checked

/-- What is separated begins with an underscore. -/
theorem separated_head {names : List String} {c : Char} {rest : List Char}
    (same : separated names = c :: rest) : c = '_' := by
  cases names with
  | nil => cases same
  | cons name names =>
    cases same
    rfl

/-- Hops of a type that tells them apart have the same name when the same text follows from them. -/
theorem EntityType.name_eq_of_separated {type : EntityType} (apart : type.tellsHopsApart = true)
    {n other : Navigation} (mem : n ∈ type.hops) (mem' : other ∈ type.hops)
    {behind behind' : List String}
    (same : n.name.toList ++ separated behind = other.name.toList ++ separated behind') :
    n.name = other.name := by
  -- Where one of the names is longer, it goes on with the underscore that ends the other one.
  rcases List.append_eq_append_iff.mp same with ⟨more, longer, rest⟩ | ⟨more, longer, rest⟩
  · cases more with
    | nil => exact String.toList_injective (by rw [longer, List.append_nil])
    | cons c more =>
      rw [separated_head rest] at longer
      exact absurd longer (type.not_behind apart mem mem' more)
  · cases more with
    | nil => exact String.toList_injective (by rw [longer, List.append_nil])
    | cons c more =>
      rw [separated_head rest] at longer
      exact absurd longer (type.not_behind apart mem' mem more)

/-- Hops that can be followed from one frame are known from their names with underscores. -/
theorem names_eq_of_separated {m : Model} (apart : ∀ s ∈ m.sets, s.type.tellsHopsApart = true)
    {frame a b : Frame} (known : frame.Known m) {first second : List String}
    (followed : first.foldlM m.follow frame = some a)
    (followed' : second.foldlM m.follow frame = some b)
    (same : separated first = separated second) : first = second := by
  induction first generalizing second frame with
  | nil =>
    cases second with
    | nil => rfl
    | cons v vs => cases same
  | cons w ws ih =>
    cases second with
    | nil => cases same
    | cons v vs =>
      rw [List.foldlM_cons] at followed followed'
      obtain ⟨next, hop, rest⟩ := Option.bind_eq_some_iff.mp followed
      obtain ⟨next', hop', rest'⟩ := Option.bind_eq_some_iff.mp followed'
      obtain ⟨knownNext, n, mem, rfl⟩ := Model.follow_some hop
      obtain ⟨-, n', mem', rfl⟩ := Model.follow_some hop'
      obtain ⟨set, present, typed⟩ := known
      have apartHere := apart set (Model.set?_some present).2
      rw [typed] at apartHere
      simp only [separated, List.flatMap_cons, List.cons_append, List.cons.injEq, true_and] at same
      have equal := frame.type.name_eq_of_separated apartHere mem mem' same
      rw [equal] at hop same ⊢
      rw [hop] at hop'
      cases hop'
      rw [ih knownNext rest rest' (List.append_cancel_left same)]

/-- Paths of a model that tells hops apart have names of their own. -/
theorem NavigationPath.Leads.eq_of_name {m : Model} {root a b : Frame}
    (apart : ∀ s ∈ m.sets, s.type.tellsHopsApart = true) (known : root.Known m)
    {p q : NavigationPath} (first : p.Leads m root a) (second : q.Leads m root b)
    (isHop : p ≠ .root) (isHop' : q ≠ .root) (same : p.name = q.name) : p = q := by
  refine first.eq_of_names second (names_eq_of_separated apart known first.follow second.follow ?_)
  rw [← toList_name isHop, ← toList_name isHop', same]

/-- A path has the name of the root only if it is one hop of that name. -/
theorem NavigationPath.Leads.name_ne_root {m : Model} {root frame : Frame} {path : NavigationPath}
    (leads : path.Leads m root frame) (isHop : path ≠ .root)
    (rootless : ∀ n ∈ root.type.hops, n.name ≠ rootAlias) : path.name ≠ rootAlias := by
  intro same
  have text := toList_name isHop
  have followed := leads.follow
  rw [same] at text
  cases listed : path.names with
  | nil =>
    rw [listed] at text
    cases text
  | cons first others =>
    rw [listed] at text followed
    simp only [separated, List.flatMap_cons, List.cons_append, List.cons.injEq, true_and] at text
    cases others with
    | nil =>
      obtain ⟨next, hop, -⟩ := Option.bind_eq_some_iff.mp followed
      obtain ⟨-, n, mem, named⟩ := Model.follow_some hop
      rw [List.flatMap_nil, List.append_nil] at text
      exact rootless n mem (named.trans (String.toList_injective text.symm))
    | cons second others =>
      -- Names of more than one hop have an underscore, which the alias of the root has not.
      have underscore : '_' ∈ rootAlias.toList := by
        rw [text]
        exact List.mem_append_right _ List.mem_cons_self
      revert underscore
      decide

namespace Expression

/-- The paths of several expressions are those of each of them. -/
theorem mem_allPaths {current : NavigationPath} {items : List Expression} {p : NavigationPath} :
    p ∈ allPaths current items ↔ ∃ x ∈ items, p ∈ x.paths current := by
  induction items with
  | nil => simp [allPaths]
  | cons x rest ih => simp [allPaths, ih]

/-- The paths of a filter that was read are hops that the model has. -/
theorem ReadFrom.leads {c : FilterContext} {tokens : List Token} {binders : List Binder}
    {start : Option (Scope × Frame)} {x : Expression} (read : x.ReadFrom c tokens binders start)
    {current : NavigationPath}
    (atRoot : ∀ frame, start = some (.root, frame) → frame = c.root)
    (atCurrent : ∀ frame, start = some (.current, frame) → current.Leads c.model c.root frame) :
    ∀ p ∈ x.paths current, p ≠ .root ∧ ∃ frame, p.Leads c.model c.root frame := by
  induction read generalizing current with
  | rooted _ ih => exact ih (by simp) (by simp)
  | through _ _ ih => exact ih (by simp) (by simp)
  | not _ _ ih | negate _ _ ih =>
    rw [paths]
    exact ih (by simp) (by simp)
  | binary _ _ _ ihLeft ihRight =>
    rw [paths]
    exact List.forall_mem_append.mpr ⟨ihLeft (by simp) (by simp), ihRight (by simp) (by simp)⟩
  | oneOf _ _ _ _ ih ihItems =>
    rw [paths]
    refine List.forall_mem_append.mpr ⟨ih (by simp) (by simp), fun p mem => ?_⟩
    obtain ⟨x, inside, mem⟩ := mem_allPaths.mp mem
    exact ihItems x inside (by simp) (by simp) p mem
  | call _ _ ihItems =>
    rw [paths]
    intro p mem
    obtain ⟨x, inside, mem⟩ := mem_allPaths.mp mem
    exact ihItems x inside (by simp) (by simp) p mem
  | @hop binders scope frame t n target set inner _ _ _ found single bound present _ ih =>
    have named : n.name = t.text := by simpa using List.find?_some found
    rw [← named] at found bound
    -- Behind a hop, the paths go on from where it leads to.
    have onward {parent : NavigationPath} (before : parent.Leads c.model c.root frame) :
        ∀ p ∈ .hop parent n target :: inner.paths (.hop parent n target),
          p ≠ .root ∧ ∃ frame, p.Leads c.model c.root frame := by
      have leads := before.hop found single bound present
      refine List.forall_mem_cons.mpr ⟨⟨by simp, _, leads⟩, ih (by simp) fun frame same => ?_⟩
      cases same
      exact leads
    cases scope with
    | root =>
      have rooted := atRoot _ rfl
      exact onward (rooted ▸ .root)
    | current => exact onward (atCurrent _ rfl)
    | bound name => exact List.forall_mem_nil _
  | _ => exact List.forall_mem_nil _

end Expression

/-- One path needs one join. -/
theorem NavigationPath.Needs.unique {resolve : Resolver} {type : EntityType}
    {parent : NavigationPath} {n : Navigation} {target : String} {j k : Join}
    (first : Needs resolve type parent n target j) (second : Needs resolve type parent n target k) :
    j = k := by
  cases first with
  | join before resolved only remote local_ =>
    cases second with
    | join before' resolved' only' remote' local_' =>
      cases before.unique before'
      cases resolved.symm.trans resolved'
      cases only.symm.trans only'
      cases remote.symm.trans remote'
      cases local_.symm.trans local_'
      rfl

/-- Each join that follows paths is needed by one of them. -/
theorem NavigationPath.Hops.needs {resolve : Resolver} {type : EntityType}
    {known paths : List NavigationPath} {joins : List Join}
    (hops : Hops resolve type known paths joins) : ∀ j ∈ joins, ∃ parent n target,
      .hop parent n target ∈ paths ∧ Needs resolve type parent n target j := by
  induction hops with
  | nil => exact nofun
  | cons _ needs _ ih =>
    refine List.forall_mem_cons.mpr ⟨⟨_, _, _, List.mem_cons_self, needs⟩, fun j mem => ?_⟩
    obtain ⟨parent, n, target, mem, needs⟩ := ih j mem
    exact ⟨parent, n, target, List.mem_cons_of_mem _ mem, needs⟩

/-- Adding joins keeps those that were found and one of each alias that is added. -/
theorem addJoins_keeps (found joins : List Join) :
    (∀ j ∈ found, j ∈ addJoins found joins) ∧
      ∀ j ∈ joins, ∃ kept ∈ addJoins found joins,
        kept.tableAlias = j.tableAlias ∧ (kept ∈ found ∨ kept ∈ joins) := by
  induction joins generalizing found with
  | nil => exact ⟨fun j mem => mem, nofun⟩
  | cons j rest ih =>
    rw [addJoins]
    split
    · rename_i present
      obtain ⟨stay, each⟩ := ih found
      refine ⟨stay, List.forall_mem_cons.mpr ⟨?_, fun k mem => ?_⟩⟩
      · obtain ⟨kept, mem, same⟩ := List.any_eq_true.mp present
        exact ⟨kept, stay kept mem, eq_of_beq same, .inl mem⟩
      · obtain ⟨kept, mem, same, from_⟩ := each k mem
        exact ⟨kept, mem, same, from_.imp_right (List.mem_cons_of_mem _)⟩
    · obtain ⟨stay, each⟩ := ih (found ++ [j])
      refine ⟨fun k mem => stay k (List.mem_append_left _ mem),
        List.forall_mem_cons.mpr ⟨?_, fun k mem => ?_⟩⟩
      · exact ⟨j, stay j (by simp), rfl, .inr List.mem_cons_self⟩
      · obtain ⟨kept, mem, same, from_⟩ := each k mem
        refine ⟨kept, mem, same, ?_⟩
        rcases from_ with before | later
        · exact (List.mem_append.mp before).imp_right fun last =>
            List.mem_cons.mpr (.inl (List.mem_singleton.mp last))
        · exact .inr (List.mem_cons_of_mem _ later)

/--
Where a model tells hops apart, the aliases of a filter's joins do the same with its paths.

No path has the alias of the root, unless the type that is queried has a hop of that name. So a
join is left out only where the same join is kept.
-/
theorem aliases_tell_paths_apart {m : Model} {set input : String} {s : EntitySet}
    {filter : Expression} (queried : m.set? set = some s)
    (read : parseFilter m set input = .ok filter)
    (apart : ∀ s ∈ m.sets, s.type.tellsHopsApart = true)
    (rootless : ∀ n ∈ s.type.hops, n.name ≠ rootAlias) :
    (∀ p ∈ filter.paths .root, ∀ q ∈ filter.paths .root, p.name = q.name → p = q) ∧
      (∀ p ∈ filter.paths .root, p.name ≠ rootAlias) ∧
      ∀ (resolve : Resolver) (type : EntityType) (joins : List Join),
        joinsFrom resolve ⟨none, type⟩ ⟨none, type⟩ filter = .ok joins →
          ∀ j ∈ joins, j ∈ distinctJoins joins := by
  obtain ⟨s', tokens, queried', -, readFrom, -⟩ := parseFilter_sound read
  cases queried.symm.trans queried'
  have leads : ∀ p ∈ filter.paths .root, p ≠ .root ∧
      ∃ frame, p.Leads m ⟨s.name, s.type⟩ frame := readFrom.leads nofun nofun
  have known : Frame.Known m ⟨s.name, s.type⟩ := by
    obtain ⟨rfl, -⟩ := Model.set?_some queried
    exact ⟨s, queried, rfl⟩
  have injective : ∀ p ∈ filter.paths .root, ∀ q ∈ filter.paths .root, p.name = q.name → p = q := by
    intro p memP q memQ same
    obtain ⟨isHop, _, leadsP⟩ := leads p memP
    obtain ⟨isHop', _, leadsQ⟩ := leads q memQ
    exact leadsP.eq_of_name apart known leadsQ isHop isHop' same
  refine ⟨injective, fun p mem => ?_, fun resolve type joins found j mem => ?_⟩
  · obtain ⟨isHop, _, leadsP⟩ := leads p mem
    exact leadsP.name_ne_root isHop rootless
  · have isRoot : .root ∈ [NavigationPath.root] := List.mem_singleton_self _
    have hops := readFrom.hops_joinsFrom .root isRoot isRoot found
    obtain ⟨kept, isKept, sameAlias, from_⟩ := (addJoins_keeps [] joins).2 j mem
    obtain ⟨parent, n, target, path, needs⟩ := hops.needs j mem
    obtain ⟨parent', n', target', path', needs'⟩ := hops.needs kept (from_.resolve_left nofun)
    -- The join that is kept has the same alias, so it follows the same path.
    have samePath := injective _ path' _ path (by rw [← needs'.alias_eq, sameAlias, needs.alias_eq])
    cases samePath
    cases needs.unique needs'
    exact isKept

namespace Service

/-- Whether a loan's volume and its case both have the number one. -/
def volumeAndPlaceFilter : Expression :=
  .binary .and (numberFilter "volume" "number" "volumes") placeFilter

/-- The volume of a loan is joined once for itself and its case. -/
theorem aliases_tell_paths_apart_in_lending :
    (lending 1).model.set? "loans" = some ⟨"loans", loanType, .all, .memory⟩ ∧
      parseFilter (lending 1).model "loans" "volume/number eq 1 and volume/place/number eq 1"
        = .ok volumeAndPlaceFilter ∧
      (∀ s ∈ (lending 1).model.sets, s.type.tellsHopsApart = true) ∧
      (∀ n ∈ loanType.hops, n.name ≠ rootAlias) ∧
      volumeAndPlaceFilter.paths .root ≠ [] ∧
      joinsFrom lendingContext.resolve ⟨none, loanType⟩ ⟨none, loanType⟩ volumeAndPlaceFilter
        = .ok (placeJoins.take 1 ++ placeJoins) ∧
      ∀ j ∈ placeJoins.take 1 ++ placeJoins, j ∈ distinctJoins (placeJoins.take 1 ++ placeJoins) := by
  have queried : (lending 1).model.set? "loans" = some ⟨"loans", loanType, .all, .memory⟩ := rfl
  have read : parseFilter (lending 1).model "loans"
      "volume/number eq 1 and volume/place/number eq 1" = .ok volumeAndPlaceFilter := by cbv
  have apart : ∀ s ∈ (lending 1).model.sets, s.type.tellsHopsApart = true := by decide
  have rootless : ∀ n ∈ loanType.hops, n.name ≠ rootAlias := by decide
  have found : joinsFrom lendingContext.resolve ⟨none, loanType⟩ ⟨none, loanType⟩
      volumeAndPlaceFilter = .ok (placeJoins.take 1 ++ placeJoins) := by cbv
  obtain ⟨-, -, kept⟩ := aliases_tell_paths_apart queried read apart rootless
  exact ⟨queried, read, apart, rootless, by decide, found, kept _ _ _ found⟩

/-- A type with a hop whose name is that of two others behind each other, and one like the root. -/
def crossingType : EntityType :=
  ⟨"Crossing", none, [plainProperty "number" (.integer .int32)],
    [singleBy "a" "Crossing" "number", singleBy "b" "Crossing" "number",
      singleBy "a_b" "Crossing" "number", singleBy "$it" "Crossing" "number"]⟩

/-- A set of crossings, in which all hops stay. -/
def crossingModel : Model :=
  ⟨.default, [], [crossingType], [⟨"crossings", crossingType, .all, .memory⟩],
    ["a", "b", "a_b", "$it"].map fun name => ⟨"crossings", name, "crossings"⟩⟩

/-- The hop of a name between crossings. -/
def crossingHop (scope : Scope) (name : String) (inner : Expression) : Expression :=
  .hop scope (singleBy name "Crossing" "number") "crossings" inner

/-- Whether the number at the end of some hops between crossings is one. -/
def crossingFilter (hops : Expression → Expression) : Expression :=
  .binary .eq (hops (.property .current (plainProperty "number" (.integer .int32))))
    (.literal (.integer 1))

/-- The join that puts the crossing of a number behind an alias. -/
def crossingJoin (name parent : String) : Join :=
  ⟨name, "crossings", "number", ⟨parent, "number"⟩⟩

/-- Two paths share an alias when the name of one is that of the hops of the other; one is lost. -/
theorem aliases_confuse_paths :
    let resolve : Resolver := fun name => some ⟨name, crossingType⟩
    let forked := Expression.binary .and
      (crossingFilter fun x => crossingHop .root "a" (crossingHop .current "b" x))
      (crossingFilter (crossingHop .root "a_b"))
    Draft.build ⟨.default, [], [], crossingModel.sets, crossingModel.bindings⟩ = .ok crossingModel ∧
      parseFilter crossingModel "crossings" "a/b/number eq 1 and a_b/number eq 1" = .ok forked ∧
      joinsFrom resolve ⟨none, crossingType⟩ ⟨none, crossingType⟩ forked =
        .ok [crossingJoin "a" "$it", crossingJoin "a_b" "a", crossingJoin "a_b" "$it"] ∧
      discoverJoins resolve crossingType forked =
        .ok [crossingJoin "a" "$it", crossingJoin "a_b" "a"] ∧
      (∃ p ∈ forked.paths .root, ∃ q ∈ forked.paths .root, p.name = q.name ∧ p ≠ q) ∧
      parseFilter crossingModel "crossings" "$it/$it/number eq 1" =
        .ok (crossingFilter (crossingHop .root "$it")) ∧
      ∃ p ∈ (crossingFilter (crossingHop .root "$it")).paths .root, p.name = rootAlias := by
  intro resolve forked
  refine ⟨by cbv, by cbv, by cbv, by cbv, ?_, by cbv, ?_⟩
  · refine ⟨.hop (.hop .root (singleBy "a" "Crossing" "number") "crossings")
      (singleBy "b" "Crossing" "number") "crossings", ?_, .hop .root
      (singleBy "a_b" "Crossing" "number") "crossings", ?_, ?_, ?_⟩
    · exact List.mem_cons_of_mem _ List.mem_cons_self
    · exact List.mem_cons_of_mem _ (List.mem_cons_of_mem _ List.mem_cons_self)
    · rfl
    · simp
  · exact ⟨.hop .root (singleBy "$it" "Crossing" "number") "crossings", List.mem_cons_self, rfl⟩

end Service

end EdmQuery
