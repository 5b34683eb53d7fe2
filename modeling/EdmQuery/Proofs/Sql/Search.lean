import Mathlib
import EdmQuery.Edm.Model
import EdmQuery.Proofs.Edm.Typing
import EdmQuery.Proofs.Sql.Condition
import EdmQuery.Proofs.Sql.Semantics

/-! The condition of a search holds on the row of an entity exactly when the search matches it. -/

namespace EdmQuery

open Text

/-- What a place in a pattern stands for: any characters, one character, or a given one. -/
inductive LikePart where
  | any
  | one
  | same (c : Char)
  deriving DecidableEq

namespace LikePart

/-- The characters that mean something in a pattern unless an escape stands before them. -/
def isSpecial (c : Char) : Bool :=
  c == '!' || c == '%' || c == '_'

/-- What a character stands for that no escape stands before. -/
def ofChar (c : Char) : LikePart :=
  if c == '%' then any else if c == '_' then one else same c

/-- The parts of a pattern, unless an escape in it stands before a character of no meaning. -/
def read : List Char → Option (List LikePart)
  | [] => some []
  | [c] => if c == '!' then none else some [ofChar c]
  | c :: d :: rest =>
    if c == '!' then
      if isSpecial d then (read rest).map (same d :: ·) else none
    else (read (d :: rest)).map (ofChar c :: ·)

/-- Whether a pattern matches all of a text. -/
def match_ : List LikePart → List Char → Bool
  | [], text => text.isEmpty
  | any :: rest, text => text.tails.any fun tail => match_ rest tail
  | one :: rest, text =>
    match text with
    | [] => false
    | _ :: tail => match_ rest tail
  | same c :: rest, text =>
    match text with
    | [] => false
    | d :: tail => d == c && match_ rest tail

end LikePart

/-- Whether a text is like a pattern with `!` as the escape; a pattern that is wrong has no say. -/
def like (pattern text : String) : Option Bool :=
  (LikePart.read pattern.toList).map fun parts => LikePart.match_ parts text.toList

/--
The truth that a text column passes a test, unknown when the column or the parameter is null.

Where cases count, the parameter has to be a part of the column, and else it is a pattern for the
column in lower case; nothing but a text can be tested.
-/
def TextTest.compared (caseSensitive : Bool) : Value → Value → Option (Option Bool)
  | .null, _ => some none
  | _, .null => some none
  | .string whole, .string sought =>
    if caseSensitive then some (some (decide (sought.toList <:+: whole.toList)))
    else (like sought (lower whole)).map some
  | _, _ => none

/-- The truth of a test, in which what is unknown counts as false. -/
def TextTest.truth (parameters : List Value) (env : List (String × SqlRow)) (t : TextTest) :
    Option (Option Bool) := do
  let whole ← SqlTerm.columnIn env t.column
  let sought ← if t.parameter = 0 then none else parameters[t.parameter - 1]?
  let found ← compared t.caseSensitive whole sought
  return some (found.getD false)

/-- The truth of the condition of a search in the rows around it; other terms have none here. -/
def SqlTerm.searchTruth (parameters : List Value) (env : List (String × SqlRow)) :
    SqlTerm → Option (Option Bool)
  | textTests tests => do
    let found ← tests.mapM (TextTest.truth parameters env)
    return found.foldr orTruth (some false)
  | not operand => do
    return (← operand.searchTruth parameters env).map (!·)
  | binary .and left right => do
    return andTruth (← left.searchTruth parameters env) (← right.searchTruth parameters env)
  | binary .or left right => do
    return orTruth (← left.searchTruth parameters env) (← right.searchTruth parameters env)
  | _ => none

/-- A row holds an entity: each property has a value of its type, and its column has it too. -/
def Entity.HeldIn (e : Entity) (row : SqlRow) : Prop :=
  ∀ p ∈ e.type.properties,
    p.type.admits (e.get p.name) = true ∧ row p.column = (e.get p.name).stored

namespace Text

/-- The place where a part begins is found exactly when it is a part. -/
theorem indexOf?_isSome_iff (part whole : List Char) :
    (indexOf? part whole).isSome = true ↔ part <:+: whole := by
  induction whole with
  | nil => cases part <;> simp [indexOf?]
  | cons c rest ih =>
    rw [indexOf?, List.infix_cons_iff, ← ih, ← List.isPrefixOf_iff_prefix]
    by_cases here : part.isPrefixOf (c :: rest) = true
    · simp [here]
    · simp [here]

/-- A text occurs in another exactly when its characters follow each other there. -/
theorem occurs_eq (part whole : String) :
    occurs part whole = decide (part.toList <:+: whole.toList) := by
  rw [Bool.eq_iff_iff, occurs, indexOf?_isSome_iff, decide_eq_true_iff]

end Text

namespace LikePart

/-- A character that is no escape is read on its own. -/
theorem read_cons {c : Char} (plain : (c == '!') = false) (rest : List Char) :
    read (c :: rest) = (read rest).map (ofChar c :: ·) := by
  cases rest <;> simp [read, plain]

/-- Characters that are escaped stand for themselves in a pattern. -/
theorem read_escaped (text behind : List Char) :
    read ((text.flatMap fun c => if c == '!' || c == '%' || c == '_' then ['!', c] else [c]) ++
      behind) = (read behind).map (text.map same ++ ·) := by
  induction text with
  | nil => simp
  | cons c rest ih =>
    rw [List.flatMap_cons, List.append_assoc]
    by_cases special : isSpecial c = true
    · -- An escaped character takes two places.
      have escape : (c == '!' || c == '%' || c == '_') = true := special
      rw [escape, if_pos rfl, List.cons_append, List.cons_append, List.nil_append, read, special,
        ih, Option.map_map]
      rfl
    · obtain ⟨⟨noEscape, noAny⟩, noOne⟩ : ((c == '!') = false ∧ (c == '%') = false) ∧
          (c == '_') = false := by
        simpa [isSpecial] using special
      have plain : ofChar c = same c := by simp [ofChar, noAny, noOne]
      simp only [noEscape, noAny, noOne, Bool.or_self, Bool.false_eq_true, if_false,
        List.singleton_append]
      rw [read_cons noEscape, ih, plain, Option.map_map]
      rfl

/-- A pattern of given characters with anything behind matches what begins with them. -/
theorem match_same_any (part text : List Char) :
    match_ (part.map same ++ [any]) text = part.isPrefixOf text := by
  induction part generalizing text with
  | nil => simp [match_]
  | cons c rest ih =>
    cases text with
    | nil => rfl
    | cons d tail =>
      rw [List.map_cons, List.cons_append, match_, List.isPrefixOf_cons_cons, ih, Bool.beq_comm]

/-- A pattern of given characters with anything around matches what has them as a part. -/
theorem match_around (part text : List Char) :
    match_ (any :: (part.map same ++ [any])) text = decide (part <:+: text) := by
  rw [Bool.eq_iff_iff, decide_eq_true_iff, match_]
  simp only [match_same_any, List.any_eq_true, List.mem_tails, List.isPrefixOf_iff_prefix]
  constructor
  · rintro ⟨tail, behind, begins⟩
    exact begins.isInfix.trans behind.isInfix
  · rintro ⟨before, after, rfl⟩
    exact ⟨part ++ after, ⟨before, by simp⟩, ⟨after, rfl⟩⟩

end LikePart

/-- The pattern around an escaped text is like exactly the texts that it is a part of. -/
theorem like_escapeLike (part whole : String) :
    like ("%" ++ escapeLike part ++ "%") whole = some (decide (part.toList <:+: whole.toList)) := by
  have reads : LikePart.read ("%" ++ escapeLike part ++ "%").toList =
      some (.any :: (part.toList.map .same ++ [.any])) := by
    have wild : "%".toList = ['%'] := rfl
    rw [String.toList_append, String.toList_append, wild, escapeLike, String.toList_ofList,
      List.append_assoc, List.singleton_append, LikePart.read_cons rfl, LikePart.read_escaped]
    rfl
  rw [like, reads, Option.map_some, LikePart.match_around]

/-- Whether a value is a text in which a term occurs. -/
def Value.mentions (caseSensitive : Bool) (text : String) : Value → Bool
  | .string whole => occurs (Search.folded caseSensitive text) (Search.folded caseSensitive whole)
  | _ => false

/-- A term matches an entity when it occurs in the text of a searchable property. -/
theorem Search.termMatches_eq (caseSensitive : Bool) (e : Entity) (text : String) :
    termMatches caseSensitive e text =
      e.type.searchable.any fun p => (e.get p.name).mentions caseSensitive text := by
  rw [termMatches]
  refine List.any_congr rfl fun p => ?_
  rw [Entity.get]
  rcases e.get? p.name with _ | (_ | s | _)
  · rfl
  · rfl
  · cases s <;> rfl
  · rfl

/-- A text that a row holds passes the test for a term exactly when the term occurs in it. -/
theorem TextTest.compared_searchValue (caseSensitive : Bool) (text : String) {value : Value}
    (admitted : (PropertyType.primitive .string).admits value = true) :
    ∃ found, compared caseSensitive value.stored (searchValue caseSensitive text) = some found ∧
      found.getD false = value.mentions caseSensitive text := by
  rcases value with _ | s | _
  · exact ⟨none, rfl, rfl⟩
  · cases s <;> simp only [PropertyType.admits, PrimitiveType.admits, Bool.false_eq_true] at admitted
    rename_i whole
    refine ⟨some ((Value.string whole).mentions caseSensitive text), ?_, rfl⟩
    rw [Value.mentions, occurs_eq]
    cases caseSensitive with
    | true => rfl
    | false =>
      show (like ("%" ++ escapeLike (lower text) ++ "%") (lower whole)).map some = _
      rw [like_escapeLike]
      rfl
  · simp [PropertyType.admits] at admitted

/-- The tests for a term have the truths that it occurs in the texts of the properties. -/
theorem textTests_truth {caseSensitive : Bool} {text : String} {e : Entity}
    {env : List (String × SqlRow)} {properties : List Property}
    (held : ∀ p ∈ properties, (PropertyType.primitive .string).admits (e.get p.name) = true ∧
      SqlTerm.columnIn env ⟨rootAlias, p.column⟩ = some (e.get p.name).stored)
    {b after : Builder} {tests : List TextTest}
    (done : (textTests caseSensitive text
      (properties.map fun p => ⟨rootAlias, p.column⟩)).run b = (.ok tests, after))
    {parameters : List Value} (kept : after.parameters <+: parameters) :
    tests.mapM (TextTest.truth parameters env) =
      some (properties.map fun p => some ((e.get p.name).mentions caseSensitive text)) := by
  induction properties generalizing b tests with
  | nil =>
    cases done
    rfl
  | cons p rest ih =>
    obtain ⟨⟨admitted, present⟩, later⟩ := List.forall_mem_cons.mp held
    let next : Builder := { b with parameters := b.parameters ++ [searchValue caseSensitive text] }
    obtain ⟨others, after', doneRest, more, -⟩ := textTests_total caseSensitive text
      (rest.map fun p => ⟨rootAlias, p.column⟩) next
    have doneAll : (textTests caseSensitive text
        ((p :: rest).map fun p => ⟨rootAlias, p.column⟩)).run b =
          (.ok (⟨⟨rootAlias, p.column⟩, b.parameters.length + 1, caseSensitive⟩ :: others),
            after') := by
      rw [List.map_cons, textTests]
      show ((textTests caseSensitive text _ >>= _) : Compile _).run next = _
      rw [run_bind, doneRest]
      rfl
    rw [doneAll] at done
    cases done
    -- The parameter of the first test keeps its number among those that are added later.
    obtain ⟨behind, rfl⟩ := more.trans kept
    obtain ⟨found, compared, mentions⟩ := TextTest.compared_searchValue caseSensitive text admitted
    have first : TextTest.truth (next.parameters ++ behind) env
        ⟨⟨rootAlias, p.column⟩, b.parameters.length + 1, caseSensitive⟩ =
          some (some ((e.get p.name).mentions caseSensitive text)) := by
      simp [TextTest.truth, present, next, compared, mentions]
    rw [List.mapM_cons, first, ih later doneRest]
    rfl

/-- A disjunction of truths that are known is true when one of them is. -/
theorem SqlTerm.foldr_orTruth_known {α : Type} (list : List α) (holds : α → Bool) :
    (list.map fun a => some (holds a)).foldr orTruth (some false) = some (list.any holds) := by
  induction list with
  | nil => rfl
  | cons a rest ih =>
    rw [List.map_cons, List.foldr_cons, ih, List.any_cons]
    cases holds a <;> cases rest.any holds <;> rfl

/-- The searchable properties of a type that was checked are texts. -/
theorem Draft.checkSearchable_ok {type : EntityType} (checked : checkSearchable type = .ok ()) :
    ∀ p ∈ type.searchable, p.type = .primitive .string := by
  rw [checkSearchable] at checked
  split at checked
  · cases checked
  · rename_i unfound
    simpa using List.find?_eq_none.mp unfound

/-- A row that holds an entity shows the values of its searchable properties as texts. -/
theorem Entity.HeldIn.searchable {e : Entity} {row : SqlRow} (held : e.HeldIn row)
    (checked : Draft.checkSearchable e.type = .ok ()) {env : List (String × SqlRow)}
    (rooted : env.lookup rootAlias = some row) : ∀ p ∈ e.type.searchable,
      (PropertyType.primitive .string).admits (e.get p.name) = true ∧
        SqlTerm.columnIn env ⟨rootAlias, p.column⟩ = some (e.get p.name).stored := by
  intro p mem
  obtain ⟨admitted, filled⟩ := held p (List.mem_filter.mp mem).1
  rw [Draft.checkSearchable_ok checked p mem] at admitted
  exact ⟨admitted, by rw [SqlTerm.columnIn, rooted, Option.map_some, filled]⟩

/-- Two searches under a connective become their conditions, and the second adds parameters. -/
theorem run_searches {ctx : SqlContext} {caseSensitive : Bool} {left right : Search}
    {op : BinaryOp} {b after : Builder} {condition : SqlTerm}
    (done : ((do
      let l ← compileSearch ctx caseSensitive left
      return .binary op l (← compileSearch ctx caseSensitive right)) : Compile SqlTerm).run b =
        (.ok condition, after)) :
    ∃ first second between, condition = .binary op first second ∧
      (compileSearch ctx caseSensitive left).run b = (.ok first, between) ∧
      (compileSearch ctx caseSensitive right).run between = (.ok second, after) ∧
      between.parameters <+: after.parameters := by
  obtain ⟨first, between, doneLeft, done⟩ := run_bind_ok done
  obtain ⟨second, last, doneRight, done⟩ := run_bind_ok done
  cases done
  obtain ⟨second', last', doneRight', more, -⟩ :=
    compileSearch_total ctx caseSensitive right between
  rw [doneRight] at doneRight'
  cases doneRight'
  exact ⟨first, second, between, rfl, doneLeft, doneRight, more⟩

/--
A search always becomes a condition, whose truth on a row is that the search matches the entity.

The truth is known on every row that holds an entity of the type, also where columns are null, and
further parameters behind those of the search do not matter.
-/
theorem search_and_condition_agree (ctx : SqlContext)
    (checked : Draft.checkSearchable ctx.table.type = .ok ()) (caseSensitive : Bool)
    (search : Search) (b : Builder) :
    ∃ condition after,
      (compileSearch ctx caseSensitive search).run b = (.ok condition, after) ∧
        ∀ (e : Entity) (row : SqlRow), e.type = ctx.table.type → e.HeldIn row →
          ∀ env : List (String × SqlRow), env.lookup rootAlias = some row →
            ∀ parameters, after.parameters <+: parameters →
              condition.searchTruth parameters env = some (some (search.matches_ caseSensitive e)) := by
  obtain ⟨condition, after, done, -, -⟩ := compileSearch_total ctx caseSensitive search b
  refine ⟨condition, after, done, fun e row ofType held env rooted parameters kept => ?_⟩
  induction search generalizing b condition after with
  | term text =>
    rw [compileSearch] at done
    obtain ⟨tests, between, doneTests, doneRest⟩ := run_bind_ok done
    cases doneRest
    have texts := held.searchable (ofType ▸ checked) rooted
    rw [ofType] at texts
    rw [SqlTerm.searchTruth, textTests_truth texts doneTests kept, Search.matches_,
      Search.termMatches_eq, ofType]
    exact congrArg some (SqlTerm.foldr_orTruth_known _ _)
  | and left right ihLeft ihRight =>
    rw [compileSearch] at done
    obtain ⟨first, second, between, rfl, doneLeft, doneRight, more⟩ := run_searches done
    rw [SqlTerm.searchTruth, ihLeft b first between doneLeft (more.trans kept),
      ihRight between second after doneRight kept, Search.matches_]
    cases left.matches_ caseSensitive e <;> cases right.matches_ caseSensitive e <;> rfl
  | or left right ihLeft ihRight =>
    rw [compileSearch] at done
    obtain ⟨first, second, between, rfl, doneLeft, doneRight, more⟩ := run_searches done
    rw [SqlTerm.searchTruth, ihLeft b first between doneLeft (more.trans kept),
      ihRight between second after doneRight kept, Search.matches_]
    cases left.matches_ caseSensitive e <;> cases right.matches_ caseSensitive e <;> rfl
  | not operand ih =>
    rw [compileSearch] at done
    obtain ⟨inner, between, doneInner, doneRest⟩ := run_bind_ok done
    cases doneRest
    rw [SqlTerm.searchTruth, ih b inner after doneInner kept]
    rfl

/-- The text of an offer. -/
def offerText : Property :=
  ⟨"text", .primitive .string, false, true, none⟩

/-- Who makes an offer, in a column of another name. -/
def offerSeller : Property :=
  ⟨"seller", .primitive .string, true, true, some "made_by"⟩

/-- What conditions on offers are written for. -/
def offers : SqlContext :=
  ⟨.sqlite, ⟨"offers", ⟨"Offer", none, [offerText, offerSeller], []⟩⟩, fun _ => none⟩

/-- An offer that nobody is known to make. -/
def offer : Entity :=
  .mk offers.table.type none [("text", .string "10% OFF!"), ("seller", .null)] []

/-- The row of the offer. -/
def offerRow : SqlRow := fun column =>
  if column == "text" then .string "10% OFF!" else .null

/-- The offer is found by a percent sign and an exclamation mark, which its wildcard is not. -/
theorem search_and_condition_agree_on_offers :
    let search := Search.and (.term "0% off!") (.not (.term "1_%"))
    Draft.checkSearchable offers.table.type = .ok () ∧ offer.type = offers.table.type ∧
      offer.HeldIn offerRow ∧ search.matches_ false offer = true ∧
      ∃ condition after, (compileSearch offers false search).run .empty = (.ok condition, after) ∧
        after.parameters =
          [.string "%0!% off!!%", .string "%0!% off!!%", .string "%1!_!%%", .string "%1!_!%%"] ∧
        condition.searchTruth after.parameters [(rootAlias, offerRow)] = some (some true) := by
  intro search
  have sound : Draft.checkSearchable offers.table.type = .ok () := rfl
  have held : offer.HeldIn offerRow := by
    intro p mem
    simp only [offer, offers, Entity.type, List.mem_cons, List.not_mem_nil, or_false] at mem
    obtain rfl | rfl := mem <;> exact ⟨rfl, rfl⟩
  have found : search.matches_ false offer = true := by cbv
  obtain ⟨condition, after, done, agrees⟩ :=
    search_and_condition_agree offers sound false search .empty
  refine ⟨sound, rfl, held, found, condition, after, done, ?_, ?_⟩
  · have parameters : ((compileSearch offers false search).run .empty).2.parameters =
        [.string "%0!% off!!%", .string "%0!% off!!%", .string "%1!_!%%", .string "%1!_!%%"] := by
      cbv
    rwa [done] at parameters
  · have truth := agrees offer offerRow rfl held [(rootAlias, offerRow)] rfl after.parameters
      (List.prefix_refl _)
    rwa [found] at truth

end EdmQuery
