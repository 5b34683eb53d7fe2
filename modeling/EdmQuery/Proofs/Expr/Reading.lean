import Mathlib
import EdmQuery.Expr.Parser
import EdmQuery.Proofs.Expr.Settled

/-! What the trees of read filters are like: names resolved, scopes bound, operands typed. -/

namespace EdmQuery

namespace Expression

/-- What a quantifier may range over behind a frame, and what it binds its variable to. -/
inductive Ranges (c : FilterContext) (frame : Frame) : Source → (String → Binder) → Prop where
  | items {name : String} {p : Property} (found : frame.type.property? name = some p)
      (several : p.type.isCollection = true) :
      Ranges c frame (.items p) fun v => .element v p.type.element
  | related {name target : String} {n : Navigation} {set : EntitySet}
      (unshadowed : frame.type.property? name = none)
      (found : frame.type.navigation? name = some n) (several : n.isCollection = true)
      (bound : c.model.target? frame.set name = some target)
      (present : c.model.set? target = some set) :
      Ranges c frame (.related n target) fun v => .entity v ⟨target, set.type⟩

/-- A token that a literal of a value was read from. -/
def Spells (c : FilterContext) (t : Token) (value : Value) : Prop :=
  t.kind ∉ [.identifier, .openParen, .closeParen, .comma, .slash, .colon, .minus] ∧
    t.value c.model c.input = .ok value

/--
An expression that was read from some of the tokens of a filter, among lambda variables.

A path that still lacks its start is read behind a scope, whose frame resolves its first name.
-/
inductive ReadFrom (c : FilterContext) (tokens : List Token) :
    List Binder → Option (Scope × Frame) → Expression → Prop where
  | literal {binders : List Binder} {t : Token} {value : Value} (mem : t ∈ tokens)
      (spelled : Spells c t value) : ReadFrom c tokens binders none (.literal value)
  | rooted {binders : List Binder} {path : Expression}
      (read : ReadFrom c tokens binders (some (.root, c.root)) path) :
      ReadFrom c tokens binders none path
  | through {binders : List Binder} {name : String} {target : Frame} {path : Expression}
      (found : binders.find? (·.name == name) = some (.entity name target))
      (read : ReadFrom c tokens binders (some (.bound name, target)) path) :
      ReadFrom c tokens binders none path
  | item {binders : List Binder} {name : String} {element : PrimitiveType}
      (found : binders.find? (·.name == name) = some (.element name element)) :
      ReadFrom c tokens binders none (.item name element)
  | not {binders : List Binder} {operand : Expression}
      (read : ReadFrom c tokens binders none operand) (fit : operand.type.isBoolean = true) :
      ReadFrom c tokens binders none (.not operand)
  | negate {binders : List Binder} {operand : Expression}
      (read : ReadFrom c tokens binders none operand) (fit : isNegatable operand.type = true) :
      ReadFrom c tokens binders none (.negate operand)
  | binary {binders : List Binder} {op : BinaryOp} {left right : Expression}
      (readLeft : ReadFrom c tokens binders none left)
      (readRight : ReadFrom c tokens binders none right)
      (fit : fits op left.type right.type = true) :
      ReadFrom c tokens binders none (.binary op left right)
  | oneOf {binders : List Binder} {operand : Expression} {items : List Expression}
      (read : ReadFrom c tokens binders none operand)
      (readItems : ∀ x ∈ items, ReadFrom c tokens binders none x)
      (fit : ∀ x ∈ items, operand.type.comparable x.type = true) (nonempty : items ≠ []) :
      ReadFrom c tokens binders none (.oneOf operand items)
  | call {binders : List Binder} {position : Nat} {f : BuiltIn} {arguments : List Expression}
      {type : PrimitiveType} (readItems : ∀ x ∈ arguments, ReadFrom c tokens binders none x)
      (made : mkCall c position f arguments = .ok (.call f arguments type)) :
      ReadFrom c tokens binders none (.call f arguments type)
  | property {binders : List Binder} {scope : Scope} {frame : Frame} {t : Token} {p : Property}
      (mem : t ∈ tokens) (named : t.kind = .identifier)
      (found : frame.type.property? t.text = some p) (single : p.type.isCollection = false) :
      ReadFrom c tokens binders (some (scope, frame)) (.property scope p)
  | hop {binders : List Binder} {scope : Scope} {frame : Frame} {t : Token} {n : Navigation}
      {target : String} {set : EntitySet} {inner : Expression} (mem : t ∈ tokens)
      (named : t.kind = .identifier) (unshadowed : frame.type.property? t.text = none)
      (found : frame.type.navigation? t.text = some n) (single : n.isCollection = false)
      (bound : c.model.target? frame.set t.text = some target)
      (present : c.model.set? target = some set)
      (read : ReadFrom c tokens binders (some (.current, ⟨target, set.type⟩)) inner) :
      ReadFrom c tokens binders (some (scope, frame)) (.hop scope n target inner)
  | nonEmpty {binders : List Binder} {scope : Scope} {frame : Frame} {source : Source}
      {binder : String → Binder} {t : Token} (mem : t ∈ tokens) (named : t.kind = .identifier)
      (spelled : t.text = source.name) (ranges : Ranges c frame source binder) :
      ReadFrom c tokens binders (some (scope, frame)) (.nonEmpty scope source)
  | quantified {binders : List Binder} {scope : Scope} {frame : Frame} {source : Source}
      {binder : String → Binder} {t v : Token} {quantifier : Quantifier} {predicate : Expression}
      (mem : t ∈ tokens) (named : t.kind = .identifier) (spelled : t.text = source.name)
      (ranges : Ranges c frame source binder) (memV : v ∈ tokens) (namedV : v.kind = .identifier)
      (notRoot : v.text ≠ "$it") (fresh : ∀ b ∈ binders, b.name ≠ v.text)
      (read : ReadFrom c tokens (binder v.text :: binders) none predicate)
      (fit : predicate.type.isBoolean = true) :
      ReadFrom c tokens binders (some (scope, frame))
        (.quantified scope source quantifier v.text predicate)

/-- Flags are asked for as values of an enumeration. -/
theorem enum_of_fits_has {left right : StaticType} (fit : fits .has left right = true) :
    ∃ e, right = .primitive (.enum e) := by
  simp only [fits, BinaryOp.isLogical, BinaryOp.isEquality, BinaryOp.isRelational, Bool.or_self,
    Bool.false_eq_true, if_false, beq_self_eq_true, if_true] at fit
  split at fit
  · exact ⟨_, rfl⟩
  · exact ⟨_, rfl⟩
  · cases fit

/-- What the functions that read filters with some fuel have to do with the tokens they take. -/
structure Sound (c : FilterContext) (tokens : List Token) (fuel : Nat) : Prop where
  expression {depth least : Nat} {binders : List Binder} {from_ rest : List Token}
      {x : Expression} (part : from_ <:+ tokens) (distinct : binders.Pairwise (·.name ≠ ·.name))
      (read : parseExpression c fuel depth binders least from_ = .ok (x, rest)) :
      ReadFrom c tokens binders none x ∧ rest <:+ tokens
  climb {depth least : Nat} {binders : List Binder} {from_ rest : List Token}
      {left x : Expression} (part : from_ <:+ tokens)
      (distinct : binders.Pairwise (·.name ≠ ·.name)) (readLeft : ReadFrom c tokens binders none left)
      (read : parseClimb c fuel depth binders least left from_ = .ok (x, rest)) :
      ReadFrom c tokens binders none x ∧ rest <:+ tokens
  alternatives {depth : Nat} {binders : List Binder} {type : StaticType}
      {from_ rest : List Token} {items : List Expression} (part : from_ <:+ tokens)
      (distinct : binders.Pairwise (·.name ≠ ·.name))
      (read : parseAlternatives c fuel depth binders type from_ = .ok (items, rest)) :
      ((∀ x ∈ items, ReadFrom c tokens binders none x) ∧
        (∀ x ∈ items, type.comparable x.type = true) ∧ items ≠ []) ∧ rest <:+ tokens
  unary {depth : Nat} {binders : List Binder} {from_ rest : List Token} {x : Expression}
      (part : from_ <:+ tokens) (distinct : binders.Pairwise (·.name ≠ ·.name))
      (read : parseUnary c fuel depth binders from_ = .ok (x, rest)) :
      ReadFrom c tokens binders none x ∧ rest <:+ tokens
  primary {depth : Nat} {binders : List Binder} {t : Token} {from_ rest : List Token}
      {x : Expression} (part : t :: from_ <:+ tokens)
      (distinct : binders.Pairwise (·.name ≠ ·.name))
      (read : parsePrimary c fuel depth binders t from_ = .ok (x, rest)) :
      ReadFrom c tokens binders none x ∧ rest <:+ tokens
  call {depth : Nat} {binders : List Binder} {t : Token} {from_ rest : List Token}
      {x : Expression} (part : from_ <:+ tokens) (distinct : binders.Pairwise (·.name ≠ ·.name))
      (read : parseCall c fuel depth binders t from_ = .ok (x, rest)) :
      ReadFrom c tokens binders none x ∧ rest <:+ tokens
  arguments {depth : Nat} {binders : List Binder} {from_ rest : List Token}
      {items : List Expression} (part : from_ <:+ tokens)
      (distinct : binders.Pairwise (·.name ≠ ·.name))
      (read : parseArguments c fuel depth binders from_ = .ok (items, rest)) :
      (∀ x ∈ items, ReadFrom c tokens binders none x) ∧ rest <:+ tokens
  path {depth : Nat} {binders : List Binder} {t : Token} {from_ rest : List Token}
      {x : Expression} (part : t :: from_ <:+ tokens) (named : t.kind = .identifier)
      (distinct : binders.Pairwise (·.name ≠ ·.name))
      (read : parsePath c fuel depth binders t from_ = .ok (x, rest)) :
      ReadFrom c tokens binders none x ∧ rest <:+ tokens
  segment {depth : Nat} {binders : List Binder} {scope : Scope} {frame : Frame} {t : Token}
      {from_ rest : List Token} {x : Expression} (part : t :: from_ <:+ tokens)
      (named : t.kind = .identifier) (distinct : binders.Pairwise (·.name ≠ ·.name))
      (read : parseSegment c fuel depth binders scope frame t from_ = .ok (x, rest)) :
      ReadFrom c tokens binders (some (scope, frame)) x ∧ rest <:+ tokens
  quantifier {depth : Nat} {binders : List Binder} {scope : Scope} {frame : Frame} {t : Token}
      {source : Source} {binder : String → Binder} {from_ rest : List Token} {x : Expression}
      (part : from_ <:+ tokens) (distinct : binders.Pairwise (·.name ≠ ·.name)) (mem : t ∈ tokens)
      (named : t.kind = .identifier) (spelled : t.text = source.name)
      (ranges : Ranges c frame source binder)
      (read : parseQuantifier c fuel depth binders scope source binder from_ = .ok (x, rest)) :
      ReadFrom c tokens binders (some (scope, frame)) x ∧ rest <:+ tokens

/-- An expected token is the next one. -/
theorem expect_ok {c : FilterContext} {kind : TokenKind} {what : String} {from_ rest : List Token}
    {t : Token} (read : c.expect kind what from_ = .ok (t, rest)) :
    from_ = t :: rest ∧ t.kind = kind := by
  cases from_ with
  | nil => simp [FilterContext.expect] at read
  | cons u more =>
    rw [FilterContext.expect] at read
    split at read
    · rename_i same
      cases read
      exact ⟨rfl, eq_of_beq same⟩
    · cases read

/-- Tokens behind an expected one are the end of those that it was expected among. -/
theorem expect_suffix {c : FilterContext} {kind : TokenKind} {what : String}
    {from_ rest tokens : List Token} {t : Token} (part : from_ <:+ tokens)
    (read : c.expect kind what from_ = .ok (t, rest)) : rest <:+ tokens := by
  obtain ⟨rfl, -⟩ := expect_ok read
  exact (List.suffix_cons t rest).trans part

section

variable {c : FilterContext} {tokens : List Token}

/-- Without fuel nothing is read. -/
theorem sound_zero : Sound c tokens 0 where
  expression _ _ read := by simp [parseExpression] at read
  climb _ _ _ read := by simp [parseClimb] at read
  alternatives _ _ read := by simp [parseAlternatives] at read
  unary _ _ read := by simp [parseUnary] at read
  primary _ _ read := by simp [parsePrimary] at read
  call _ _ read := by simp [parseCall] at read
  arguments _ _ read := by simp [parseArguments] at read
  path _ _ _ read := by simp [parsePath] at read
  segment _ _ _ read := by simp [parseSegment] at read
  quantifier _ _ _ _ _ _ read := by simp [parseQuantifier] at read

variable {fuel depth : Nat} {binders : List Binder} {from_ rest : List Token}

/-- An expression is an operand and the operators that follow it. -/
theorem Sound.expression_step (ih : Sound c tokens fuel) {least : Nat} {x : Expression}
    (part : from_ <:+ tokens) (distinct : binders.Pairwise (·.name ≠ ·.name))
    (read : parseExpression c (fuel + 1) depth binders least from_ = .ok (x, rest)) :
    ReadFrom c tokens binders none x ∧ rest <:+ tokens := by
  rw [parseExpression] at read
  split at read
  · cases read
  · split at read
    · cases read
    · rename_i left next operand
      obtain ⟨readLeft, part⟩ := ih.unary part distinct operand
      exact ih.climb part distinct readLeft read

/-- Operators that follow an operand take it as their left one. -/
theorem Sound.climb_step (ih : Sound c tokens fuel) {least : Nat} {left x : Expression}
    (part : from_ <:+ tokens) (distinct : binders.Pairwise (·.name ≠ ·.name))
    (readLeft : ReadFrom c tokens binders none left)
    (read : parseClimb c (fuel + 1) depth binders least left from_ = .ok (x, rest)) :
    ReadFrom c tokens binders none x ∧ rest <:+ tokens := by
  -- Whatever does not go on ends the expression where it is.
  have stop (same : Except.ok (left, from_) = (.ok (x, rest) : Parsed Expression)) :
      ReadFrom c tokens binders none x ∧ rest <:+ tokens := by
    cases same
    exact ⟨readLeft, part⟩
  rcases from_ with _ | ⟨t, more⟩
  · rw [parseClimb] at read
    exact stop read
  rw [parseClimb] at read
  have part' : more <:+ tokens := (List.suffix_cons t more).trans part
  split at read
  · exact stop read
  split at read
  · split at read
    · exact stop read
    split at read
    · cases read
    rename_i opened
    split at read
    · cases read
    rename_i items next listed
    obtain ⟨⟨readItems, fit, nonempty⟩, part'⟩ :=
      ih.alternatives (expect_suffix part' opened) distinct listed
    split at read
    · cases read
    rename_i closed
    exact ih.climb (expect_suffix part' closed) distinct
      (.oneOf readLeft readItems fit nonempty) read
  · split at read
    · exact stop read
    rename_i op _
    split at read
    · exact stop read
    split at read
    · cases read
    rename_i right next operand
    obtain ⟨readRight, part'⟩ := ih.expression part' distinct operand
    split at read
    · cases read
    rename_i node made
    rw [mkBinary] at made
    split at made
    · rename_i fit
      cases made
      exact ih.climb part' distinct (.binary readLeft readRight fit) read
    · cases made

/-- Alternatives are expressions that compare with the operand before their list. -/
theorem Sound.alternatives_step (ih : Sound c tokens fuel) {type : StaticType}
    {items : List Expression} (part : from_ <:+ tokens)
    (distinct : binders.Pairwise (·.name ≠ ·.name))
    (read : parseAlternatives c (fuel + 1) depth binders type from_ = .ok (items, rest)) :
    ((∀ x ∈ items, ReadFrom c tokens binders none x) ∧
      (∀ x ∈ items, type.comparable x.type = true) ∧ items ≠ []) ∧ rest <:+ tokens := by
  rw [parseAlternatives] at read
  split at read
  · cases read
  rename_i x next first
  obtain ⟨readFirst, part⟩ := ih.expression part distinct first
  split at read
  · cases read
  rename_i fit
  have fit : type.comparable x.type = true := by simpa using fit
  have single : ((∀ y ∈ [x], ReadFrom c tokens binders none y) ∧
      (∀ y ∈ [x], type.comparable y.type = true) ∧ [x] ≠ []) := by
    simp [readFirst, fit]
  split at read
  · rename_i t more
    split at read
    · obtain ⟨⟨others, last⟩, found, same⟩ := map_ok read
      cases same
      obtain ⟨⟨readOthers, fits, -⟩, part'⟩ :=
        ih.alternatives ((List.suffix_cons t more).trans part) distinct found
      refine ⟨⟨?_, ?_, List.cons_ne_nil _ _⟩, part'⟩
      · exact List.forall_mem_cons.mpr ⟨readFirst, readOthers⟩
      · exact List.forall_mem_cons.mpr ⟨fit, fits⟩
    · cases read
      exact ⟨single, part⟩
  · cases read
    exact ⟨single, part⟩

/-- An operand may have operators in front of it. -/
theorem Sound.unary_step (ih : Sound c tokens fuel) {x : Expression} (part : from_ <:+ tokens)
    (distinct : binders.Pairwise (·.name ≠ ·.name))
    (read : parseUnary c (fuel + 1) depth binders from_ = .ok (x, rest)) :
    ReadFrom c tokens binders none x ∧ rest <:+ tokens := by
  rcases from_ with _ | ⟨t, more⟩
  · rw [parseUnary] at read
    cases read
  rw [parseUnary] at read
  have part' : more <:+ tokens := (List.suffix_cons t more).trans part
  split at read
  · split at read
    · cases read
    rename_i operand next inner
    obtain ⟨readInner, part'⟩ := ih.expression part' distinct inner
    obtain ⟨node, made, same⟩ := map_ok read
    cases same
    rw [mkNot] at made
    split at made
    · rename_i fit
      cases made
      exact ⟨.not readInner fit, part'⟩
    · cases made
  split at read
  · split at read
    · cases read
    rename_i operand next inner
    obtain ⟨readInner, part'⟩ := ih.expression part' distinct inner
    obtain ⟨node, made, same⟩ := map_ok read
    cases same
    rw [mkNegate] at made
    split at made
    · rename_i fit
      cases made
      exact ⟨.negate readInner fit, part'⟩
    · cases made
  · exact ih.primary part distinct read

/-- An operand is in parentheses, a call, a path or a literal. -/
theorem Sound.primary_step (ih : Sound c tokens fuel) {t : Token} {x : Expression}
    (part : t :: from_ <:+ tokens) (distinct : binders.Pairwise (·.name ≠ ·.name))
    (read : parsePrimary c (fuel + 1) depth binders t from_ = .ok (x, rest)) :
    ReadFrom c tokens binders none x ∧ rest <:+ tokens := by
  have part' : from_ <:+ tokens := (List.suffix_cons t from_).trans part
  rw [parsePrimary] at read
  split at read
  · split at read
    · cases read
    rename_i inner next found
    obtain ⟨readInner, part'⟩ := ih.expression part' distinct found
    obtain ⟨⟨u, last⟩, closed, same⟩ := map_ok read
    cases same
    exact ⟨readInner, expect_suffix part' closed⟩
  · rename_i named
    split at read
    · exact ih.call part' distinct read
    · exact ih.path part named distinct read
  any_goals cases read
  · obtain ⟨value, spelled, same⟩ := map_ok read
    cases same
    refine ⟨.literal (part.subset List.mem_cons_self) ⟨?_, spelled⟩, part'⟩
    simp_all

/-- A call that is made is one of the function with the arguments. -/
theorem mkCall_ok {position : Nat} {f : BuiltIn} {arguments : List Expression} {x : Expression}
    (made : mkCall c position f arguments = .ok x) : ∃ type, x = .call f arguments type := by
  rw [mkCall] at made
  split at made
  · cases made
  rename_i type _
  split at made
  · split at made
    · cases made
      exact ⟨type, rfl⟩
    · cases made
  · cases made
    exact ⟨type, rfl⟩

/-- A call names a function and has its arguments in parentheses. -/
theorem Sound.call_step (ih : Sound c tokens fuel) {t : Token} {x : Expression}
    (part : from_ <:+ tokens) (distinct : binders.Pairwise (·.name ≠ ·.name))
    (read : parseCall c (fuel + 1) depth binders t from_ = .ok (x, rest)) :
    ReadFrom c tokens binders none x ∧ rest <:+ tokens := by
  rw [parseCall] at read
  split at read
  · cases read
  split at read
  · cases read
  rename_i opened
  have part := expect_suffix part opened
  dsimp only at read
  split at read
  · cases read
  rename_i f _ _ inside _ _ items next listed
  have readItems : (∀ x ∈ items, ReadFrom c tokens binders none x) ∧ next <:+ tokens := by
    split at listed
    · cases listed
      exact ⟨by simp, part⟩
    · exact ih.arguments part distinct listed
  split at read
  · cases read
  rename_i closed
  obtain ⟨node, made, same⟩ := map_ok read
  cases same
  obtain ⟨type, rfl⟩ := mkCall_ok made
  exact ⟨.call readItems.1 made, expect_suffix readItems.2 closed⟩

/-- Arguments are expressions. -/
theorem Sound.arguments_step (ih : Sound c tokens fuel) {items : List Expression}
    (part : from_ <:+ tokens) (distinct : binders.Pairwise (·.name ≠ ·.name))
    (read : parseArguments c (fuel + 1) depth binders from_ = .ok (items, rest)) :
    (∀ x ∈ items, ReadFrom c tokens binders none x) ∧ rest <:+ tokens := by
  rw [parseArguments] at read
  split at read
  · cases read
  rename_i x next first
  obtain ⟨readFirst, part⟩ := ih.expression part distinct first
  split at read
  · rename_i t more
    split at read
    · obtain ⟨⟨others, last⟩, found, same⟩ := map_ok read
      cases same
      obtain ⟨readOthers, part'⟩ := ih.arguments ((List.suffix_cons t more).trans part) distinct found
      exact ⟨List.forall_mem_cons.mpr ⟨readFirst, readOthers⟩, part'⟩
    · cases read
      exact ⟨by simpa using readFirst, part⟩
  · cases read
    exact ⟨by simpa using readFirst, part⟩

/-- A name without a path belongs to the root or to a variable that it cannot be mistaken for. -/
theorem implicitFrame_cases (c : FilterContext) {binders : List Binder}
    (distinct : binders.Pairwise (·.name ≠ ·.name)) :
    c.implicitFrame binders = (.root, c.root) ∨ ∃ name target,
      c.implicitFrame binders = (.bound name, target) ∧
        binders.find? (·.name == name) = some (.entity name target) := by
  induction binders with
  | nil => exact .inl rfl
  | cons b rest ih =>
    cases b with
    | entity name target => exact .inr ⟨name, target, rfl, by simp [Binder.name]⟩
    | element name type =>
      rcases ih distinct.of_cons with root | ⟨outer, target, implicit, found⟩
      · exact .inl root
      · refine .inr ⟨outer, target, implicit, ?_⟩
        -- The element variable has another name than the one that was found.
        have apart : name ≠ outer :=
          (List.pairwise_cons.mp distinct).1 _ (List.mem_of_find?_eq_some found)
        rw [List.find?_cons_of_neg (by simpa [Binder.name] using apart)]
        exact found

/-- A path starts at the root, at a variable, or where names without a path belong. -/
theorem Sound.path_step (ih : Sound c tokens fuel) {t : Token} {x : Expression}
    (part : t :: from_ <:+ tokens) (named : t.kind = .identifier)
    (distinct : binders.Pairwise (·.name ≠ ·.name))
    (read : parsePath c (fuel + 1) depth binders t from_ = .ok (x, rest)) :
    ReadFrom c tokens binders none x ∧ rest <:+ tokens := by
  have part' : from_ <:+ tokens := (List.suffix_cons t from_).trans part
  rw [parsePath] at read
  split at read
  · split at read
    · cases read
    rename_i slash
    split at read
    · cases read
    rename_i name next word
    obtain ⟨rfl, kind⟩ := expect_ok word
    obtain ⟨readPath, part'⟩ := ih.segment (expect_suffix part' slash) kind distinct read
    exact ⟨.rooted readPath, part'⟩
  split at read
  · rename_i name target found
    split at read
    · cases read
    rename_i slash
    split at read
    · cases read
    rename_i segment next word
    obtain ⟨rfl, kind⟩ := expect_ok word
    obtain ⟨readPath, part'⟩ := ih.segment (expect_suffix part' slash) kind distinct read
    have same : name = t.text := by simpa [Binder.name] using List.find?_some found
    exact ⟨.through (same ▸ found) readPath, part'⟩
  · rename_i name type found
    split at read
    · cases read
    cases read
    have same : name = t.text := by simpa [Binder.name] using List.find?_some found
    exact ⟨.item (same ▸ found), part'⟩
  · rcases implicitFrame_cases c distinct with implicit | ⟨name, target, implicit, found⟩
    · simp only [implicit] at read
      obtain ⟨readPath, part'⟩ := ih.segment part named distinct read
      exact ⟨.rooted readPath, part'⟩
    · simp only [implicit] at read
      obtain ⟨readPath, part'⟩ := ih.segment part named distinct read
      exact ⟨.through found readPath, part'⟩

/-- A segment names a property, a quantifier's range, or a navigation property to follow. -/
theorem Sound.segment_step (ih : Sound c tokens fuel) {scope : Scope} {frame : Frame} {t : Token}
    {x : Expression} (part : t :: from_ <:+ tokens) (named : t.kind = .identifier)
    (distinct : binders.Pairwise (·.name ≠ ·.name))
    (read : parseSegment c (fuel + 1) depth binders scope frame t from_ = .ok (x, rest)) :
    ReadFrom c tokens binders (some (scope, frame)) x ∧ rest <:+ tokens := by
  have part' : from_ <:+ tokens := (List.suffix_cons t from_).trans part
  have mem : t ∈ tokens := part.subset List.mem_cons_self
  rw [parseSegment] at read
  split at read
  · rename_i p found
    have same : p.name = t.text := by simpa using List.find?_some found
    split at read
    · rename_i several
      split at read
      · rename_i u more
        split at read
        · have spelled : t.text = (Source.items p).name := same.symm
          exact ih.quantifier ((List.suffix_cons u more).trans part') distinct mem named spelled
            (.items found several) read
        · cases read
      · cases read
    · rename_i single
      split at read
      · cases read
      · cases read
        exact ⟨.property mem named found (by simpa using single), part'⟩
  rename_i unshadowed
  split at read
  · cases read
  rename_i n found
  have same : n.name = t.text := by simpa using List.find?_some found
  split at read
  · cases read
  rename_i target bound
  split at read
  · cases read
  rename_i set present
  dsimp only at read
  split at read
  · rename_i several
    split at read
    · rename_i u more
      split at read
      · have spelled : t.text = (Source.related n target).name := same.symm
        exact ih.quantifier ((List.suffix_cons u more).trans part') distinct mem named spelled
          (.related unshadowed found several bound present) read
      · cases read
    · cases read
  · rename_i single
    split at read
    · cases read
    rename_i slash
    split at read
    · cases read
    rename_i name next word
    obtain ⟨rfl, kind⟩ := expect_ok word
    obtain ⟨⟨inner, last⟩, walked, same⟩ := map_ok read
    cases same
    obtain ⟨readInner, part'⟩ := ih.segment (expect_suffix part' slash) kind distinct walked
    exact ⟨.hop mem named unshadowed found (by simpa using single) bound present readInner, part'⟩

/-- A quantifier has a condition on a new variable, or none when it asks for any member. -/
theorem Sound.quantifier_step (ih : Sound c tokens fuel) {scope : Scope} {frame : Frame}
    {t : Token} {source : Source} {binder : String → Binder} {x : Expression}
    (part : from_ <:+ tokens) (distinct : binders.Pairwise (·.name ≠ ·.name)) (mem : t ∈ tokens)
    (named : t.kind = .identifier) (spelled : t.text = source.name)
    (ranges : Ranges c frame source binder)
    (read : parseQuantifier c (fuel + 1) depth binders scope source binder from_ = .ok (x, rest)) :
    ReadFrom c tokens binders (some (scope, frame)) x ∧ rest <:+ tokens := by
  rw [parseQuantifier] at read
  split at read
  · cases read
  rename_i word next keyword
  have part := expect_suffix part keyword
  split at read
  · cases read
  split at read
  · cases read
  rename_i opened
  have part := expect_suffix part opened
  split at read
  · split at read
    · cases read
    · cases read
      exact ⟨.nonEmpty mem named spelled ranges, (List.drop_suffix 1 _).trans part⟩
  split at read
  · cases read
  rename_i v next variable_
  have memV : v ∈ tokens := by
    obtain ⟨rfl, -⟩ := expect_ok variable_
    exact part.subset List.mem_cons_self
  have namedV := (expect_ok variable_).2
  have part := expect_suffix part variable_
  split at read
  · cases read
  rename_i fresh
  simp only [Bool.or_eq_true, beq_iff_eq, List.any_eq_true, not_or, not_exists, not_and] at fresh
  split at read
  · cases read
  rename_i colon
  split at read
  · cases read
  rename_i predicate next inner
  have binderName : (binder v.text).name = v.text := by
    cases ranges <;> rfl
  have distinct' : (binder v.text :: binders).Pairwise (·.name ≠ ·.name) := by
    refine List.pairwise_cons.mpr ⟨fun b memB => ?_, distinct⟩
    rw [binderName]
    exact fun same => fresh.2 b memB same.symm
  obtain ⟨readInner, part⟩ := ih.expression (expect_suffix part colon) distinct' inner
  split at read
  · cases read
  rename_i node made
  obtain ⟨⟨u, last⟩, closed, same⟩ := map_ok read
  cases same
  rw [mkQuantified] at made
  split at made
  · rename_i fit
    cases made
    exact ⟨.quantified mem named spelled ranges memV namedV fresh.1 fresh.2 readInner fit,
      expect_suffix part closed⟩
  · cases made

end

/-- Whatever the fuel, what is read from tokens has the form of a filter over them. -/
theorem sound (c : FilterContext) (tokens : List Token) (fuel : Nat) : Sound c tokens fuel := by
  induction fuel with
  | zero => exact sound_zero
  | succ fuel ih =>
    exact {
      expression := ih.expression_step
      climb := ih.climb_step
      alternatives := ih.alternatives_step
      unary := ih.unary_step
      primary := ih.primary_step
      call := ih.call_step
      arguments := ih.arguments_step
      path := ih.path_step
      segment := ih.segment_step
      quantifier := ih.quantifier_step }

end Expression

/-- A filter that is read from a text is read from its tokens, and it is a condition. -/
theorem parseFilter_sound {m : Model} {set input : String} {x : Expression}
    (read : parseFilter m set input = .ok x) :
    ∃ s tokens, m.set? set = some s ∧ tokenize input = .ok tokens ∧
      x.ReadFrom ⟨m, input, ⟨s.name, s.type⟩⟩ tokens [] none ∧ x.type.isBoolean = true := by
  rw [parseFilter] at read
  split at read
  · cases read
  rename_i s found
  split at read
  · cases read
  rename_i tokens scanned
  rw [Expression.ofTokens] at read
  split at read
  · cases read
  split at read
  · cases read
  · cases read
  rename_i y parsed
  split at read
  · rename_i fit
    cases read
    exact ⟨s, tokens, found, scanned, ((Expression.sound _ tokens _).expression
      (List.suffix_refl tokens) List.Pairwise.nil parsed).1, fit⟩
  · cases read

end EdmQuery
