import Mathlib
import EdmQuery.Proofs.Sql.Parity
import EdmQuery.Proofs.Sql.Relation

/-! The rows that joins bring along are those of the entities that filters reach in memory. -/

namespace EdmQuery

namespace NavigationPath

/-- The frame of the entities that a path leads to. -/
def frame? (m : Model) (root : Frame) : NavigationPath → Option Frame
  | .root => some root
  | .hop _ _ target => (m.set? target).map fun set => ⟨target, set.type⟩

/-- The scope that members behind a path start from. -/
def scope : NavigationPath → Scope
  | .root => .root
  | .hop _ _ _ => .current

/-- What is behind a path, as an expression from the root on. -/
def along : NavigationPath → Expression → Expression
  | .root, x => x
  | .hop parent n target, x => parent.along (.hop parent.scope n target x)

/-- A path with a hop has a name of its own. -/
theorem alias?_eq {path : NavigationPath} (isHop : path.scope = .current) :
    path.alias? = some path.name := by
  cases path with
  | root => cases isHop
  | hop _ _ _ => rfl

/-- Behind a hop are the entities of its target. -/
theorem frame?_hop {m : Model} {root : Frame} {parent : NavigationPath} {n : Navigation}
    {target : String} {set : EntitySet} (present : m.set? target = some set) :
    (hop parent n target).frame? m root = some ⟨target, set.type⟩ := by
  rw [frame?, present]
  rfl

/-- What is behind a path has the type that it has there. -/
@[simp] theorem type_along (path : NavigationPath) (x : Expression) :
    (path.along x).type = x.type := by
  induction path generalizing x with
  | root => rfl
  | hop parent n target ih => exact ih _

/-- Whether the last hop of a path leads to a set that can be queried, tied by alike values. -/
def fits (m : Model) (root : Frame) : NavigationPath → Bool
  | .root => true
  | .hop parent n target => Expression.sourceFits m (parent.frame? m root) (.related n target)

end NavigationPath

/-- A row that shows an entity of a type, or an empty one where there is no entity. -/
def Entity.ShownOrEmpty (type : EntityType) : Option Entity → SqlRow → Prop
  | some e, row => e.Shown type row
  | none, row => row = emptyRow

namespace Service

section

variable {m : Type → Type} [Monad m]

/-- The entity that a path leads to, the first one of those that each hop relates. -/
inductive Reaches (v : Service m) (e : Entity) : NavigationPath → Option Entity → Prop where
  | root : Reaches v e .root (some e)
  | lost {parent : NavigationPath} (n : Navigation) (target : String)
      (before : Reaches v e parent none) : Reaches v e (.hop parent n target) none
  | hop {parent : NavigationPath} {n : Navigation} {target : String} {start : Entity}
      {found : List Entity} (before : Reaches v e parent (some start))
      (related : v.related target n start = pure found) :
      Reaches v e (.hop parent n target) found.head?

/-- Whether evaluation behind a path goes on from an entity, and ends in null without one. -/
def EvaluatesFrom (v : Service m) (e : Entity) (path : NavigationPath) (reached : Option Entity) :
    Prop :=
  ∀ x, (path.along x).eval v.related (.ofEntity e) = match reached with
    | none => pure .null
    | some other => x.eval v.related ⟨e, other, []⟩

/-- Whether the last hop of a path relates no more than one entity. -/
def LeadsToOne (v : Service m) (e : Entity) : NavigationPath → Prop
  | .root => True
  | .hop parent n target => ∀ start found, v.Reaches e parent (some start) →
      v.related target n start = pure found → found.length ≤ 1

/-- Whether the row under the name of a path is that of the entity that the path leads to. -/
def Binds (v : Service m) (root : Frame) (e : Entity) (env : Bindings) (path : NavigationPath) :
    Prop :=
  ∃ frame reached row, path.frame? v.model root = some frame ∧ v.Reaches e path reached ∧
    env.lookup path.name = some row ∧ Entity.ShownOrEmpty frame.type reached row

end

section

open NavigationPath

variable {m : Type → Type} [Monad m] [LawfulMonad m] {v : Service m} {tables : Tables}
  {resolve : Resolver} {contents : EntitySet → List Entity} {root : Frame} {e : Entity}
  {env : Bindings} {parent : NavigationPath} {n : Navigation} {target : String} {j : Join}

omit [LawfulMonad m] in
/-- Members behind a path that reaches an entity start from that entity. -/
theorem Reaches.entity_eq {path : NavigationPath} {other : Entity}
    (reaches : v.Reaches e path (some other)) :
    (Standpoint.mk e other []).entity path.scope = .ok other := by
  generalize same : some other = reached at reaches
  cases reaches with
  | root =>
    cases same
    rfl
  | lost _ _ _ => cases same
  | hop _ _ => rfl

/-- Evaluation behind a path goes on from the entity that the path leads to. -/
theorem Reaches.evaluatesFrom {path : NavigationPath} {reached : Option Entity}
    (reaches : v.Reaches e path reached) : v.EvaluatesFrom e path reached := by
  -- What is behind the last hop stays open, as each hop further out has more behind it.
  intro x
  induction reaches generalizing x with
  | root => rfl
  | lost n target _ ih => exact ih _
  | @hop parent n target start found before related ih =>
    rw [along, ih]
    show (Expression.hop parent.scope n target x).eval v.related ⟨e, start, []⟩ = _
    rw [Expression.eval, before.entity_eq, settled_ok_bind, related, pure_bind]
    cases found <;> rfl

omit [Monad m] [LawfulMonad m] in
/-- A path ends in a table of the type that its frame has. -/
theorem frame?_of_ends (own : resolve.Own v.model) {path : NavigationPath} {end_ : PathEnd}
    (ends : path.Ends resolve root.type end_) :
    ∃ frame, path.frame? v.model root = some frame ∧ frame.type = end_.type := by
  cases ends with
  | root => exact ⟨root, rfl, rfl⟩
  | @hop _ _ _ target table _ resolved =>
    obtain ⟨set, present, typed⟩ := own _ _ resolved
    exact ⟨⟨target, set.type⟩, frame?_hop present, typed.symm⟩

omit [Monad m] [LawfulMonad m] in
/-- A join finds the rows for which its condition is true. -/
theorem extend_eq {α : Type} {members : List α} {row : α → SqlRow} {truth : α → Option Bool}
    (rows : tables j.table = members.map row)
    (each : ∀ a ∈ members, SqlTerm.tied ((j.tableAlias, row a) :: env) j.correlation
      = some (truth a)) :
    j.extend tables env = some
      ((orEmpty ((members.filter fun a => truth a = some true).map row)).map fun row =>
        (j.tableAlias, row) :: env) := by
  have judged : (members.map row).mapM (fun row => do
      return (row, ← SqlTerm.tied ((j.tableAlias, row) :: env) j.correlation))
      = some (members.map fun a => (row a, truth a)) := by
    refine mapM_map_eq_pure fun a mem => ?_
    rw [each a mem]
    rfl
  have found : ((members.map fun a => (row a, truth a)).filter (·.2 = some true)).map (·.1)
      = (members.filter fun a => truth a = some true).map row := by
    rw [List.filter_map, List.map_map]
    rfl
  rw [Join.extend, rows, judged, Option.bind_eq_bind, Option.bind_some, found]
  rfl

omit [Monad m] [LawfulMonad m] in
/-- A join under a new name finds nothing for a row whose parent is empty. -/
theorem extend_empty (needs : Needs resolve root.type parent n target j)
    (other : parent.name ≠ (hop parent n target).name)
    (found : env.lookup parent.name = some emptyRow) :
    j.extend tables env = some [(j.tableAlias, emptyRow) :: env] := by
  -- No value is equal to the null that the parent has in every column.
  have each : ∀ row ∈ tables j.table,
      SqlTerm.tied ((j.tableAlias, row) :: env) j.correlation = some none := by
    intro row _
    cases needs with
    | join before resolved only remote local_ =>
      simp only [SqlTerm.tied, Join.correlation, SqlTerm.columnIn, List.lookup_cons,
        beq_self_eq_true, beq_eq_false_iff_ne.mpr other, found, Option.map_some,
        Option.bind_eq_bind, Option.bind_some, emptyRow]
      simp [SqlTerm.compared, Value.isNull]
  have none_ : (tables j.table).filter (fun _ => (none : Option Bool) = some true) = [] :=
    List.filter_eq_nil_iff.mpr fun _ _ => Bool.false_ne_true
  have extended := extend_eq (List.map_id _).symm each
  rwa [none_] at extended

omit [Monad m] [LawfulMonad m] in
/-- A hop that needs a join and fits is tied by the values of two properties. -/
theorem joined_of_needs (own : resolve.Own v.model)
    (needs : Needs resolve root.type parent n target j) {frame : Frame}
    (framed : parent.frame? v.model root = some frame)
    (fits : (NavigationPath.hop parent n target).fits v.model root = true) :
    ∃ set table p q, Joined v resolve frame n target set table p q ∧
      j = ⟨(NavigationPath.hop parent n target).name, table.name, q.column,
        ⟨parent.name, p.column⟩⟩ := by
  cases needs with
  | @join start table con _ _ before resolved only remote local_ =>
    obtain ⟨set, present, typed⟩ := own _ _ resolved
    obtain ⟨q, referenced, rfl⟩ := columnOf_ok remote
    obtain ⟨p, referring, rfl⟩ := columnOf_ok local_
    obtain ⟨frame', framed', sameType⟩ := frame?_of_ends own before
    cases framed.symm.trans framed'
    rw [← sameType] at referring
    rw [typed] at referenced
    simp only [NavigationPath.fits, framed, Expression.sourceFits, present, only, referring,
      referenced, Bool.and_eq_true, beq_iff_eq] at fits
    exact ⟨set, table, p, q, ⟨present, resolved, fits.1, ⟨con, only, referring, referenced⟩,
      fits.2⟩, rfl⟩

/-- A hop binds the row of its join as the row of its parent was bound. -/
theorem Binds.hop (mirrors : Mirrors v resolve tables contents) (own : resolve.Own v.model)
    (needs : Needs resolve root.type parent n target j)
    (other : parent.name ≠ (NavigationPath.hop parent n target).name)
    (fits : (NavigationPath.hop parent n target).fits v.model root = true)
    (single : v.LeadsToOne e (.hop parent n target)) (binds : v.Binds root e env parent) :
    ∃ row, j.extend tables env = some [(j.tableAlias, row) :: env] ∧
      v.Binds root e ((j.tableAlias, row) :: env) (.hop parent n target) := by
  obtain ⟨frame, reached, row, framed, before, found, shown⟩ := binds
  obtain ⟨set, table, p, q, joined, same⟩ := joined_of_needs own needs framed fits
  have framed' : (NavigationPath.hop parent n target).frame? v.model root
      = some ⟨target, set.type⟩ := frame?_hop joined.present
  have own_ (row : SqlRow) : ((j.tableAlias, row) :: env).lookup
      (NavigationPath.hop parent n target).name = some row := by
    rw [needs.alias_eq, List.lookup_cons_self]
  cases reached with
  | none =>
    -- Behind an entity that is not there, no hop reaches one and no join finds a row.
    cases shown
    exact ⟨emptyRow, extend_empty needs other found, _, none, emptyRow, framed',
      .lost n target before, own_ _, rfl⟩
  | some start =>
    obtain ⟨pairs, rows, shown', related⟩ := joined.members mirrors start
    have alias_ := needs.alias_eq
    subst same
    -- The join judges a row as the look-up judges the entity that the row shows.
    have each : ∀ pair ∈ pairs, SqlTerm.tied
        (((NavigationPath.hop parent n target).name, pair.2) :: env)
        (Join.correlation ⟨(NavigationPath.hop parent n target).name, table.name, q.column,
          ⟨parent.name, p.column⟩⟩)
        = some (SqlTerm.compared .eq (pair.1.get q.name) (start.get p.name)) :=
      fun pair mem => joined.tied_eq other.symm found shown (shown' pair mem)
    have extended := extend_eq rows each
    have atMostOne := single start _ before related
    rw [List.length_map] at atMostOne
    have next := Reaches.hop before related
    -- There is one related entity at most, and its row is the only one that the join finds.
    cases chosen : pairs.filter fun pair =>
        SqlTerm.compared .eq (pair.1.get q.name) (start.get p.name) = some true with
    | nil =>
      rw [chosen] at extended next
      exact ⟨emptyRow, extended, _, none, emptyRow, framed', next, own_ _, rfl⟩
    | cons pair rest =>
      rw [chosen] at extended next atMostOne
      have alone : rest = [] := by simpa using atMostOne
      subst alone
      have mem : pair ∈ pairs := List.mem_of_mem_filter (chosen ▸ List.mem_cons_self)
      exact ⟨pair.2, extended, _, some pair.1, pair.2, framed', next, own_ _, shown' pair mem⟩

omit [LawfulMonad m] in
/-- A row that is bound to a path stays bound behind a row under another name. -/
theorem Binds.behind {path : NavigationPath} (binds : v.Binds root e env path) {alias_ : String}
    (other : path.name ≠ alias_) (row : SqlRow) : v.Binds root e ((alias_, row) :: env) path := by
  obtain ⟨frame, reached, own, framed, before, found, shown⟩ := binds
  refine ⟨frame, reached, own, framed, before, ?_, shown⟩
  rw [List.lookup_cons, beq_eq_false_iff_ne.mpr other]
  exact found

/-- Whether the rows of a relation are bound to paths, each for an entity in step. -/
def AllBind (v : Service m) (root : Frame) (paths : List NavigationPath) (entities : List Entity)
    (relation : List Bindings) : Prop :=
  List.Forall₂ (fun e env => ∀ path ∈ paths, v.Binds root e env path) entities relation

/-- A join under a new name keeps the rows of a relation and binds them to its path. -/
theorem AllBind.extend (mirrors : Mirrors v resolve tables contents) (own : resolve.Own v.model)
    {known : List NavigationPath} (from_ : parent ∈ known)
    (fresh : ∀ path ∈ known, path.name ≠ (NavigationPath.hop parent n target).name)
    (needs : Needs resolve root.type parent n target j)
    (fits : (NavigationPath.hop parent n target).fits v.model root = true)
    {entities : List Entity} {relation : List Bindings}
    (single : ∀ e ∈ entities, v.LeadsToOne e (.hop parent n target))
    (bind : v.AllBind root known entities relation) :
    ∃ extended : List Bindings,
      relation.mapM (j.extend tables) = some (extended.map fun env => [env]) ∧
      v.AllBind root (.hop parent n target :: known) entities extended ∧
      ∀ name, (∃ path ∈ known, path.name = name) →
        extended.map (·.lookup name) = relation.map (·.lookup name) := by
  induction bind with
  | nil => exact ⟨[], rfl, .nil, fun _ _ => rfl⟩
  | @cons e env entities relation first _ ih =>
    obtain ⟨own_, others⟩ := List.forall_mem_cons.mp single
    obtain ⟨row, found, binds⟩ := (first parent from_).hop mirrors own needs (fresh _ from_) fits own_
    obtain ⟨extended, more, bound, same⟩ := ih others
    refine ⟨((j.tableAlias, row) :: env) :: extended, ?_, .cons ?_ bound, ?_⟩
    · rw [List.mapM_cons, found, more]
      rfl
    · refine List.forall_mem_cons.mpr ⟨binds, fun path mem => ?_⟩
      exact (first path mem).behind (needs.alias_eq ▸ fresh path mem) row
    · rintro name ⟨path, mem, rfl⟩
      have other := fresh path mem
      rw [← needs.alias_eq] at other
      rw [List.map_cons, List.map_cons, same _ ⟨path, mem, rfl⟩, List.lookup_cons,
        beq_eq_false_iff_ne.mpr other]

/-- Joins along new paths keep the rows of a relation and bind them to all of the paths. -/
theorem joined_newHops (mirrors : Mirrors v resolve tables contents) (own : resolve.Own v.model)
    {known paths : List NavigationPath} {joins : List Join}
    (hops : NewHops resolve root.type known paths joins)
    (fits : ∀ path ∈ paths, path.fits v.model root = true) {entities : List Entity}
    {relation : List Bindings} (single : ∀ e ∈ entities, ∀ path ∈ paths, v.LeadsToOne e path)
    (bind : v.AllBind root known entities relation) (atRoot : .root ∈ known) :
    ∃ final, joined tables joins relation = some final ∧
      final.map (·.lookup rootAlias) = relation.map (·.lookup rootAlias) ∧
      v.AllBind root (paths ++ known) entities final := by
  induction hops generalizing relation with
  | nil => exact ⟨relation, rfl, rfl, bind⟩
  | @cons known paths parent n target j joins from_ fresh needs _ ih =>
    obtain ⟨fitsFirst, fitsRest⟩ := List.forall_mem_cons.mp fits
    obtain ⟨extended, found, bound, same⟩ := AllBind.extend mirrors own from_ fresh needs fitsFirst
      (fun e mem => single e mem _ List.mem_cons_self) bind
    obtain ⟨final, rest, kept, binds⟩ := ih fitsRest
      (fun e mem path isLater => single e mem path (List.mem_cons_of_mem _ isLater)) bound
      (List.mem_cons_of_mem _ atRoot)
    have flat : (extended.map fun env => [env]).flatten = extended := by
      rw [← List.flatMap_def, List.flatMap_singleton']
    refine ⟨final, ?_, kept.trans (same _ ⟨.root, atRoot, rfl⟩), ?_⟩
    · rw [joined, List.foldlM_cons, found]
      show joined tables joins (extended.map fun env => [env]).flatten = some final
      rw [flat, rest]
    · refine binds.imp fun e env each path mem => each path ?_
      simp only [List.mem_append, List.mem_cons] at mem ⊢
      tauto

omit [LawfulMonad m] in
/-- The rows of a table are those of the entities of its set, each bound to the root. -/
theorem allBind_rows (mirrors : Mirrors v resolve tables contents) {name : String}
    {s : EntitySet} {table : Table} (present : v.model.set? name = some s)
    (resolved : resolve name = some table) :
    v.AllBind ⟨s.name, s.type⟩ [.root] (contents s)
      ((tables table.name).map fun row => [(rootAlias, row)]) := by
  obtain ⟨pairs, entities, rows, shown⟩ := mirrors.pairs present resolved
  rw [AllBind, entities, rows, List.map_map, List.forall₂_map_left_iff, List.forall₂_map_right_iff,
    List.forall₂_same]
  rintro ⟨e, row⟩ mem
  refine List.forall_mem_singleton.mpr ⟨⟨s.name, s.type⟩, some e, row, rfl, .root, ?_, shown _ mem⟩
  exact List.lookup_cons_self

end

end Service

end EdmQuery
