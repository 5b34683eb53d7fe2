import Mathlib
import EdmQuery.Proofs.Sql.Agreement

/-! Filters have the same truth in memory and, as conditions, in a database with the same data. -/

namespace EdmQuery

section

variable {m : Type → Type} [Monad m] [LawfulMonad m] {v : Service m} {tables : Tables}
  {c : FilterContext} {binders : List Binder} {b after : Builder} {t : SqlTerm}

variable {d : Draft} {tokens : List Token} {ctx : SqlContext} {contents : EntitySet → List Entity}
  {scope : Scope} {frame : Frame} {name : String}

omit [Monad m] [LawfulMonad m] in
/-- Scopes start from frames of the model's sets. -/
theorem Place.known (place : Place c binders scope frame name) (rootKnown : c.root.Known c.model)
    (known : KnownBinders c.model binders) : frame.Known c.model := by
  cases place with
  | root => exact rootKnown
  | bound found => exact known _ _ (List.mem_of_find?_eq_some found)

omit [Monad m] [LawfulMonad m] in
/-- Tables that were tied together hold the entities that a navigation property leads to. -/
theorem joined_of_correlate (built : d.build = .ok c.model) (own : ctx.resolve.Own c.model)
    (same : v.model = c.model) (rootTyped : ctx.table.type = c.root.type)
    (place : Place c binders scope frame name) (frameKnown : frame.Known c.model) {title : String}
    {n : Navigation} {target : String} {set : EntitySet}
    (found : frame.type.navigation? title = some n)
    (bound : c.model.target? frame.set title = some target)
    (present : c.model.set? target = some set)
    (fits : Expression.sourceFits c.model
      (Expression.frameOf c.root (framesOf binders) scope) (.related n target) = true)
    {parent : TableFrame} (inFrame : ctx.frame (localsOf binders) scope = .ok parent)
    {tied : Table × String × Column} (ties : correlate ctx parent n target = .ok tied) :
    ∃ table p q, Joined v ctx.resolve frame n target set table p q ∧
      tied = (table, q.column, ⟨name, p.column⟩) := by
  rw [place.frame_eq rootTyped] at inFrame
  cases inFrame
  have sameType : (TableFrame.mk name frame.type).type = frame.type := rfl
  obtain ⟨con, p, q, only, local_, remote, eq⟩ :=
    correlate_eq built own frameKnown found bound present sameType
  rw [eq] at ties
  obtain ⟨table, resolved, rfl⟩ := map_ok ties
  rw [place.frameOf_eq] at fits
  simp only [Expression.sourceFits, present, only, local_, remote, Bool.and_eq_true,
    beq_iff_eq] at fits
  exact ⟨table, p, q, ⟨same ▸ present, table_ok resolved, fits.1, ⟨con, only, local_, remote⟩,
    fits.2⟩, rfl⟩

/-- Whether terms of an expression keep the parameters before them and have its values. -/
def Expression.Faithful (v : Service m) (tables : Tables)
    (inStep : Standpoint → List (String × SqlRow) → Prop) (ctx : SqlContext)
    (locals : List (String × TableFrame)) (current : TableFrame) (x : Expression) : Prop :=
  ∀ ⦃b after t⦄, (x.term ctx locals current).run b = (.ok t, after) →
    b.parameters <+: after.parameters ∧ Agrees v tables inStep x t after.parameters

namespace Expression

variable {inStep : Standpoint → List (String × SqlRow) → Prop}
  {locals : List (String × TableFrame)} {current : TableFrame} {items : List Expression}

omit [LawfulMonad m] in
/-- Terms one after the other agree with expressions that their terms agree with. -/
theorem agreeAll_terms {ts : List SqlTerm}
    (each : ∀ x ∈ items, x.Faithful v tables inStep ctx locals current)
    (compiled : (terms ctx locals current items).run b = (.ok ts, after)) :
    b.parameters <+: after.parameters ∧
      AgreeAll v tables inStep items ts after.parameters := by
  induction items generalizing b ts with
  | nil =>
    cases compiled
    exact ⟨List.prefix_refl _, fun _ _ _ _ _ => ⟨[], .nil, rfl⟩⟩
  | cons x rest ih =>
    obtain ⟨first, others⟩ := List.forall_mem_cons.mp each
    rw [terms] at compiled
    obtain ⟨t, between, compiledFirst, compiled⟩ := run_bind_ok compiled
    obtain ⟨more, between', compiledRest, compiled⟩ := run_bind_ok compiled
    cases compiled
    obtain ⟨kept, agrees⟩ := first compiledFirst
    obtain ⟨kept', agreeAll⟩ := ih others compiledRest
    refine ⟨kept.trans kept', fun parameters prefix' s env consistent => ?_⟩
    obtain ⟨value, evaluated, admitted, found⟩ :=
      agrees.mono kept' parameters prefix' s env consistent
    obtain ⟨values, eachValue, founds⟩ := agreeAll parameters prefix' s env consistent
    refine ⟨value :: values, .cons ⟨evaluated, admitted⟩ eachValue, ?_⟩
    simp only [SqlTerm.values, found, founds, Option.bind_eq_bind, Option.bind_some, List.map_cons]
    rfl

/-- The opposite of a truth has a faithful term when the truth has one. -/
theorem Faithful.not {x : Expression} (fit : x.type.isBoolean = true)
    (operand : x.Faithful v tables inStep ctx locals current) :
    (Expression.not x).Faithful v tables inStep ctx locals current := by
  intro b after t compiled
  rw [term] at compiled
  obtain ⟨t, between, compiled, made⟩ := run_bind_ok compiled
  cases made
  obtain ⟨kept, agrees⟩ := operand compiled
  exact ⟨kept, not_agrees fit agrees⟩

/-- Comparisons and connectives have faithful terms when their operands have such. -/
theorem Faithful.binary {op : BinaryOp} {left right : Expression}
    (class_ : (op.isLogical || op.isEquality || op.isRelational) = true)
    (fit : Expression.fits op left.type right.type = true)
    (onLeft : left.Faithful v tables inStep ctx locals current)
    (onRight : right.Faithful v tables inStep ctx locals current) :
    (Expression.binary op left right).Faithful v tables inStep ctx locals current := by
  intro b after t compiled
  rw [term] at compiled
  split at compiled
  · rename_i tests
    rw [Bool.and_eq_true] at tests
    obtain ⟨t, between, compiled, made⟩ := run_bind_ok compiled
    cases made
    obtain ⟨kept, agrees⟩ := onRight compiled
    exact ⟨kept, nullTest_agrees tests.1 (.inl ⟨tests.2, rfl⟩) agrees⟩
  rename_i noTest
  split at compiled
  · rename_i tests
    rw [Bool.and_eq_true] at tests
    obtain ⟨t, between, compiled, made⟩ := run_bind_ok compiled
    cases made
    obtain ⟨kept, agrees⟩ := onLeft compiled
    have first : left.isNullLiteral = false := by simpa [tests.1] using noTest
    exact ⟨kept, nullTest_agrees tests.1 (.inr ⟨first, tests.2, rfl⟩) agrees⟩
  rename_i noTest'
  split at compiled
  · cases compiled
  obtain ⟨l, between, compiledL, compiled⟩ := run_bind_ok compiled
  obtain ⟨r, between', compiledR, compiled⟩ := run_bind_ok compiled
  obtain ⟨keptL, agreesL⟩ := onLeft compiledL
  obtain ⟨keptR, agreesR⟩ := onRight compiledR
  have noDiv : (op == .div) = false := by
    cases op <;> first | rfl | cases class_
  simp only [noDiv, Bool.false_and, Bool.false_eq_true, if_false] at compiled
  cases compiled
  refine ⟨keptL.trans keptR, ?_⟩
  cases logical : op.isLogical with
  | true => exact logical_agrees logical fit (agreesL.mono keptR) agreesR
  | false =>
    rw [logical, Bool.false_or] at class_
    refine comparison_agrees class_ fit ?_ (agreesL.mono keptR) agreesR
    simp only [Bool.not_eq_true] at noTest noTest'
    rw [Bool.and_or_distrib_left, noTest, noTest']
    rfl

/-- Alternatives have faithful terms when the operand and the items have such. -/
theorem Faithful.oneOf {x : Expression} (nonempty : items ≠ [])
    (fit : ∀ y ∈ items, x.type.comparable y.type = true)
    (operand : x.Faithful v tables inStep ctx locals current)
    (each : ∀ y ∈ items, y.Faithful v tables inStep ctx locals current) :
    (Expression.oneOf x items).Faithful v tables inStep ctx locals current := by
  intro b after t compiled
  rw [term] at compiled
  obtain ⟨u, between, compiledFirst, compiled⟩ := run_bind_ok compiled
  obtain ⟨us, between', compiledItems, made⟩ := run_bind_ok compiled
  cases made
  obtain ⟨kept, agrees⟩ := operand compiledFirst
  obtain ⟨kept', agreeAll⟩ := agreeAll_terms each compiledItems
  exact ⟨kept.trans kept', oneOf_agrees nonempty fit (agrees.mono kept') agreeAll⟩

end Expression

/-- The alias of a table that is only looked into starts with a dollar sign, unlike variables. -/
theorem anyAlias_ne (n : Nat) :
    "$any" ++ toString n ≠ rootAlias ∧ ("$any" ++ toString n).toList.head? = some '$' := by
  have characters : ("$any" ++ toString n).toList = '$' :: 'a' :: 'n' :: 'y' :: (toString n).toList := by
    rw [String.toList_append]
    rfl
  refine ⟨fun same => ?_, by rw [characters]; rfl⟩
  have letters := congrArg String.toList same
  rw [characters] at letters
  cases letters

omit [Monad m] [LawfulMonad m] in
/-- A quantifier that becomes SQL ranges over the entities of a table that is tied to another. -/
theorem run_correlate_ok {locals : List (String × TableFrame)} {source : Source}
    {next : Table × String × Column → Compile SqlTerm}
    (compiled : (do
      let (navigation, target) ← known (relatedSource source)
      let parent ← known (ctx.frame locals scope)
      let tied ← known (correlate ctx parent navigation target)
      next tied : Compile SqlTerm).run b = (.ok t, after)) :
    ∃ n target parent tied, source = .related n target ∧ ctx.frame locals scope = .ok parent ∧
      correlate ctx parent n target = .ok tied ∧ (next tied).run b = (.ok t, after) := by
  cases source with
  | items p => cases compiled
  | related n target =>
    obtain ⟨_, ⟨⟩, linked⟩ := run_known_bind_ok compiled
    obtain ⟨parent, inFrame, linked⟩ := run_known_bind_ok linked
    obtain ⟨tied, ties, rest⟩ := run_known_bind_ok linked
    exact ⟨n, target, parent, tied, rfl, inFrame, ties, rest⟩

namespace Expression

/-- The term of a filter that was read over a built model has the values of the filter. -/
theorem ReadFrom.agrees (built : d.build = .ok c.model) (own : ctx.resolve.Own c.model)
    (same : v.model = c.model) (mirrors : Mirrors v ctx.resolve tables contents)
    (rootKnown : c.root.Known c.model) (rootTyped : ctx.table.type = c.root.type)
    {start : Option (Scope × Frame)} {x : Expression} (read : x.ReadFrom c tokens binders start)
    (relational : x.isRelational = true)
    (fits : x.sourcesFit c.model c.root (framesOf binders) = true)
    (known : KnownBinders c.model binders)
    (plain : ∀ b ∈ binders, b.name.toList.head? ≠ some '$')
    (placed : ∀ scope frame, start = some (scope, frame) →
      ∃ name, Place c binders scope frame name)
    (current : TableFrame) :
    x.Faithful v tables (Consistent c binders) ctx (localsOf binders) current := by
  induction read generalizing current with
  | literal _ _ => exact fun _ _ _ compiled => literal_agrees compiled
  | rooted _ ih =>
    exact ih relational fits known plain (by rintro _ _ ⟨⟩; exact ⟨_, .root⟩) _
  | through found _ ih =>
    exact ih relational fits known plain (by rintro _ _ ⟨⟩; exact ⟨_, .bound found⟩) _
  | item _ | negate _ _ _ | call _ _ _ | hop _ _ _ _ _ _ _ _ _ =>
    simp only [isRelational, Bool.false_eq_true] at relational
  | not _ fit ih =>
    rw [isRelational] at relational
    rw [sourcesFit] at fits
    exact .not fit (ih relational fits known plain (by simp) _)
  | binary _ _ fit ihL ihR =>
    simp only [isRelational, Bool.and_eq_true] at relational
    simp only [sourcesFit, Bool.and_eq_true] at fits
    exact .binary relational.1.1 fit (ihL relational.1.2 fits.1 known plain (by simp) _)
      (ihR relational.2 fits.2 known plain (by simp) _)
  | oneOf _ _ fit nonempty ih ihItems =>
    simp only [isRelational, Bool.and_eq_true] at relational
    simp only [sourcesFit, Bool.and_eq_true] at fits
    exact .oneOf nonempty fit (ih relational.1 fits.1 known plain (by simp) _)
      fun x mem => ihItems x mem (areRelational_mem relational.2 mem)
        (allSourcesFit_mem fits.2 mem) known plain (by simp) _
  | @property binders scope frame t p _ _ found single =>
    intro b after t compiled
    obtain ⟨name, place⟩ := placed _ _ rfl
    have inScope : (scope == Scope.current) = false := by
      cases place <;> rfl
    rw [term] at compiled
    simp only [inScope, Bool.false_eq_true, if_false, place.frame_eq rootTyped] at compiled
    cases compiled
    exact ⟨List.prefix_refl _,
      property_agrees place single ((EntityType.property?_name found).symm ▸ found) _⟩
  | @nonEmpty binders scope frame source binder t mem named spelled ranges =>
    intro b after t compiled
    obtain ⟨name, place⟩ := placed _ _ rfl
    rw [sourcesFit] at fits
    rw [term] at compiled
    obtain ⟨n, target, parent, tied, rfl, inFrame, ties, rest⟩ := run_correlate_ok compiled
    cases ranges with
    | @related title _ _ set unshadowed found several bound present =>
      obtain ⟨table, p, q, joined, rfl⟩ := joined_of_correlate built own same rootTyped place
        (place.known rootKnown known) found bound present fits inFrame ties
      cases rest
      refine ⟨List.prefix_refl _, joined.nonEmpty_agrees mirrors place ?_ _⟩
      rcases place.named with rfl | ⟨binder, mem, rfl⟩
      · exact (anyAlias_ne _).1
      · intro alike
        exact plain _ mem (alike ▸ (anyAlias_ne _).2)
  | @quantified binders scope frame source binder t v quantifier predicate mem named spelled ranges
      memV namedV notRoot fresh _ fit ih =>
    intro b after t compiled
    obtain ⟨name, place⟩ := placed _ _ rfl
    simp only [isRelational, Bool.and_eq_true, bne_iff_ne, ne_eq] at relational
    simp only [sourcesFit, Bool.and_eq_true] at fits
    rw [term] at compiled
    obtain ⟨n, target, parent, tied, rfl, inFrame, ties, rest⟩ := run_correlate_ok compiled
    cases ranges with
    | @related title _ _ set unshadowed found several bound present =>
      obtain ⟨table, p, q, joined, rfl⟩ := joined_of_correlate built own same rootTyped place
        (place.known rootKnown known) found bound present fits.1 inFrame ties
      -- Under the variable, the condition is about the rows of the table that was tied.
      have typedTable : table.type = set.type := own.type_eq present joined.resolved
      have known' : KnownBinders c.model (.entity v.text ⟨target, set.type⟩ :: binders) := by
        intro name frame mem
        rcases List.mem_cons.mp mem with same | later
        · cases same
          exact ⟨set, present, rfl⟩
        · exact known name frame later
      have plain' : ∀ b ∈ Binder.entity v.text ⟨target, set.type⟩ :: binders,
          b.name.toList.head? ≠ some '$' :=
        List.forall_mem_cons.mpr ⟨relational.1, plain⟩
      have other : v.text ≠ name := by
        rcases place.named with rfl | ⟨binder, mem, rfl⟩
        · exact notRoot
        · exact (fresh _ mem).symm
      have fits' : predicate.sourcesFit c.model c.root
          (framesOf (.entity v.text ⟨target, set.type⟩ :: binders)) = true := by
        simpa [framesIn, present, framesOf] using fits.2
      obtain ⟨_, opened, isOpened, compiled⟩ := run_bind_ok rest
      have opening : opened.parameters = b.parameters := by
        cases isOpened
        rfl
      obtain ⟨condition, closing, inner, compiled⟩ := run_bind_ok compiled
      rw [typedTable] at inner
      obtain ⟨kept, agrees⟩ := ih relational.2 fits' known' plain' (by simp) _ inner
      rw [opening] at kept
      have quantified := joined.quantified_agrees mirrors place other notRoot fit agrees quantifier
      cases quantifier <;> cases compiled <;> exact ⟨kept, quantified⟩

omit [LawfulMonad m] in
/-- The condition of a filter with a faithful term has the truth of the filter. -/
theorem Faithful.truth {inStep : Standpoint → List (String × SqlRow) → Prop} {filter : Expression}
    {condition : SqlTerm} {parameters : List Value} {s : Standpoint}
    {env : List (String × SqlRow)}
    (faithful : filter.Faithful v tables inStep ctx [] ctx.rootFrame)
    (boolean : filter.type.isBoolean = true)
    (compiled : (compileFilter ctx filter).run b = (.ok condition, after))
    (bound : after.parameters <+: parameters) (step : inStep s env) :
    ∃ truth : Option Bool, filter.eval v.related s = pure (.ofTruth truth) ∧
      condition.value tables parameters env = some (.ofTruth truth) := by
  -- The joins are looked for first; they bind no parameters.
  rw [compileFilter] at compiled
  obtain ⟨joins, -, compiled⟩ := run_known_bind_ok compiled
  obtain ⟨_, joined, -, compiled⟩ := run_bind_ok compiled
  obtain ⟨-, agrees⟩ := faithful compiled
  obtain ⟨value, evaluated, admitted, found⟩ := agrees parameters bound s env step
  obtain ⟨truth, plain⟩ := SqlTerm.truthOf_of_admits boolean admitted
  rw [plain] at found
  rw [SqlTerm.eq_ofTruth truth] at evaluated found
  exact ⟨value.truth?, evaluated, found⟩

end Expression

namespace Service

end Service

end

namespace Service

/-- The colours of shelves. -/
def colours : Enumeration :=
  ⟨"Colour", [⟨"red", 1⟩], false⟩

/-- A property that is stored in a column of its name. -/
def plainProperty (name : String) (type : PrimitiveType) : Property :=
  ⟨name, .primitive type, true, false, none⟩

/-- A collection of books that are related by a property of shelves. -/
def booksBy (name property : String) : Navigation :=
  ⟨name, "Book", true, [⟨property, "shelf"⟩]⟩

/-- Shelves have a number and a colour, and their books are related by either. -/
def shelfType : EntityType :=
  ⟨"Shelf", some "id", [plainProperty "id" (.integer .int32), plainProperty "colour" (.enum colours)],
    [booksBy "books" "id", booksBy "stored" "id", booksBy "matching" "colour"]⟩

/-- Books have the number of their shelf. -/
def bookType : EntityType :=
  ⟨"Book", none, [plainProperty "shelf" (.integer .int32)], []⟩

/-- Shelves, books, and books that cannot be queried. -/
def librarySets : List EntitySet :=
  [⟨"shelves", shelfType, .all, .memory⟩, ⟨"books", bookType, .all, .memory⟩,
    ⟨"archive", bookType, .none, .memory⟩]

/-- The sets that the books of shelves are in. -/
def libraryBindings : List Binding :=
  [⟨"shelves", "books", "books"⟩, ⟨"shelves", "stored", "archive"⟩, ⟨"shelves", "matching", "books"⟩]

/-- One shelf with a book, of which the archive has another copy. -/
def library : Service Id where
  model := ⟨.default, [colours], [shelfType, bookType], librarySets, libraryBindings⟩
  collections := [
    ⟨"shelves", shelfType, [⟨some (.integer 1), [("id", .ofInt 1), ("colour", .text "red")]⟩]⟩,
    ⟨"books", bookType, [⟨none, [("shelf", .ofInt 1)]⟩]⟩,
    ⟨"archive", bookType, [⟨none, [("shelf", .ofInt 1)]⟩]⟩]
  databases := .none

/-- The shelf. -/
def shelf : Entity :=
  .mk shelfType (some (.integer 1)) [("id", .integer 1), ("colour", .enum colours 1)] []

/-- The book. -/
def book : Entity :=
  .mk bookType none [("shelf", .integer 1)] []

/-- What the sets of the library hold. -/
def libraryContents (s : EntitySet) : List Entity :=
  if s.type = shelfType then [shelf] else [book]

/-- A row with the number one in every column. -/
def ones : SqlRow :=
  fun _ => .integer 1

/-- A database that has such a row in each of its tables. -/
def libraryTables : Tables :=
  fun _ => [ones]

/-- What conditions on shelves are written for, over tables with the names of the sets. -/
def libraryContext : SqlContext :=
  ⟨.sqlite, ⟨"shelves", shelfType⟩, fun name =>
    (library.model.set? name).map fun s => ⟨s.name, s.type⟩⟩

/-- The library has a sound model. -/
theorem build_library :
    Draft.build ⟨.default, [colours], [], librarySets, libraryBindings⟩ = .ok library.model := by
  cbv

/-- Tables of the library have the types of its sets. -/
theorem own_library : libraryContext.resolve.Own library.model := by
  intro name table resolved
  obtain ⟨s, present, rfl⟩ := Option.map_eq_some_iff.mp resolved
  exact ⟨s, present, rfl⟩

/-- The shelf has the number one and a colour that is stored as one. -/
theorem fills_shelf : shelf.Fills shelfType ones := by
  intro p declared
  have mem := List.mem_of_find?_eq_some declared
  simp only [shelfType, List.mem_cons, List.not_mem_nil, or_false] at mem
  rcases mem with rfl | rfl <;> rfl

/-- The book has the number of the shelf. -/
theorem fills_book : book.Fills bookType ones := by
  intro p declared
  have mem := List.mem_of_find?_eq_some declared
  simp only [bookType, List.mem_cons, List.not_mem_nil, or_false] at mem
  rw [mem]
  rfl

/-- The database holds what the library does. -/
theorem mirrors_library :
    Mirrors library libraryContext.resolve libraryTables libraryContents := by
  have every {P : EntitySet → Prop} (shelves : P ⟨"shelves", shelfType, .all, .memory⟩)
      (books : P ⟨"books", bookType, .all, .memory⟩)
      (archive : P ⟨"archive", bookType, .none, .memory⟩) (name : String) (s : EntitySet)
      (present : library.model.set? name = some s) : P s := by
    have mem := (Model.set?_some present).2
    simp only [library, librarySets, List.mem_cons, List.not_mem_nil, or_false] at mem
    rcases mem with rfl | rfl | rfl
    · exact shelves
    · exact books
    · exact archive
  exact {
    inMemory := every rfl rfl rfl
    own := every rfl rfl rfl
    kept := every rfl rfl rfl
    filled := fun name s _ present _ =>
      every (P := fun s => List.Forall₂ (Entity.Fills s.type) (libraryContents s) [ones])
        (.cons fills_shelf .nil) (.cons fills_book .nil) (.cons fills_book .nil) name s present }

/-- Whether a shelf has a book with its number. -/
def booksFilter : Expression :=
  .quantified .root (.related (booksBy "books" "id") "books") .any "b"
    (.binary .eq (.property (.bound "b") (plainProperty "shelf" (.integer .int32)))
      (.literal (.integer 1)))

/-- The condition that a shelf has a book with the number that is the parameter. -/
def booksCondition : SqlTerm :=
  .existsWith ⟨"books", "b", ⟨"b", "shelf"⟩, ⟨"$it", "id"⟩⟩
    (.binary .eq (.column ⟨"b", "shelf"⟩) (.parameter 1))

/-- The condition that a table has a book with a number of the shelf's in it. -/
def someBook (set column : String) : SqlTerm :=
  .exists_ ⟨set, "$any1", ⟨"$any1", "shelf"⟩, ⟨"$it", column⟩⟩

/-- Whether a shelf has books by a navigation property. -/
def hasBooks (navigation property target : String) : Expression :=
  .nonEmpty .root (.related (booksBy navigation property) target)

end Service

end EdmQuery
