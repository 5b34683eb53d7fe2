import Mathlib
import EdmQuery.Proofs.Expr.Phrases
import EdmQuery.Proofs.Expr.RoundTrip
import EdmQuery.Proofs.Expr.Spans
import EdmQuery.Proofs.Expr.Wording

/-! Filters are read as phrases whose operators group by how tightly they bind. -/

namespace EdmQuery

open Lexeme

/-- The word that a token is; the parser tells punctuation by its kind alone. -/
def Token.word (t : Token) : Lexeme :=
  (t.kind, t.kind.mark?.getD t.text)

section

variable {t : Token} {kind : TokenKind} {mark what : String} {c : FilterContext} {text : String}
  {tokens rest : List Token}

/-- A token without a mark of its own is told by its text. -/
theorem Token.word_plain (plain : t.kind.mark? = none) : t.word = (t.kind, t.text) := by
  rw [word, plain]
  rfl

/-- A name is the word for it. -/
theorem Token.word_named (name : t.kind = .identifier) : t.word = named t.text := by
  rw [word_plain (by rw [name]; rfl), name]
  rfl

/-- Punctuation is the word for its mark. -/
theorem Token.word_mark (same : t.kind = kind) (marked : kind.mark? = some mark) :
    t.word = (kind, mark) := by
  rw [word, same, marked]
  rfl

/-- Expected punctuation is the next word. -/
theorem words_of_expect (read : c.expect kind what tokens = .ok (t, rest))
    (marked : kind.mark? = some mark) :
    tokens.map Token.word = (kind, mark) :: rest.map Token.word := by
  obtain ⟨rfl, same⟩ := Expression.expect_ok read
  rw [List.map_cons, Token.word_mark same marked]

/-- An expected name is the next word. -/
theorem words_of_expectName (read : c.expectName tokens = .ok (t, rest)) :
    tokens.map Token.word = named t.text :: rest.map Token.word := by
  obtain ⟨rfl, name⟩ := Expression.expect_ok read
  rw [List.map_cons, Token.word_named name]

/-- The words of a text are what its tokens say. -/
theorem words_of_tokenize (read : tokenize text = .ok tokens) :
    tokens.map Token.word = tokens.map Token.lexeme := by
  -- A token of punctuation has its mark as its text, since it was read from that character.
  have marked := lexemes_marked (lexemes_of_tokenize read)
  refine List.map_congr_left fun t mem => ?_
  exact congrArg (t.kind, ·) (marked t.lexeme (List.mem_map_of_mem mem))

/-- The value of a literal is that of its word. -/
theorem literalOf_word {m : Model} {input : String} {value : Value}
    (plain : t.kind.mark? = none) (read : t.value m input = .ok value) :
    literalOf m t.word = value := by
  -- Neither the place of a token nor the text around it makes a difference to its value.
  have again : (⟨t.kind, t.text, 0⟩ : Token).value m "" = .ok value :=
    Token.value_of_lexeme (t := t) (u := ⟨t.kind, t.text, 0⟩) rfl rfl "" read
  rw [literalOf, Token.word_plain plain, again]
  rfl

end

namespace Expression

/-- A phrase of grouping operators that was read from tokens up to others as an expression. -/
structure Writes (m : Model) (tokens rest : List Token) (x : Expression) (p : Phrase) : Prop where
  tree : p.tree m = x
  words : tokens.map Token.word = p.words ++ rest.map Token.word
  grouped : p.Grouped

/-- Phrases of grouping operators that were read from tokens up to others, with commas between. -/
structure WritesAll (m : Model) (tokens rest : List Token) (items : List Expression)
    (ps : List Phrase) : Prop where
  trees : Phrase.trees m ps = items
  words : tokens.map Token.word = Phrase.separated ps ++ rest.map Token.word
  grouped : ∀ p ∈ ps, p.Grouped
  some_ : ps ≠ []

/-- A phrase binds tightly enough for an operand, or an operator in front of it makes it one; then
it is no value of an enumeration. -/
def Tight (least : Nat) (x : Expression) (p : Phrase) : Prop :=
  least ≤ p.binding ∨ p.binding = unaryPrecedence ∧ ∀ e, x.type ≠ .primitive (.enum e)

/-- What the functions that read filters with some fuel make of the words that they take. -/
structure Groups (c : FilterContext) (fuel : Nat) : Prop where
  expression {depth least : Nat} {binders : List Binder} {tokens rest : List Token}
      {x : Expression} (bounded : least ≤ operandPrecedence)
      (read : parseExpression c fuel depth binders least tokens = .ok (x, rest)) :
      ∃ p, Writes c.model tokens rest x p ∧ Tight least x p ∧ Halts least rest
  climb {depth least : Nat} {binders : List Binder} {tokens from_ rest : List Token}
      {left x : Expression} {l : Phrase} (writes : Writes c.model tokens from_ left l)
      (tight : Tight least left l) (waits : Halts (l.binding + 1) from_)
      (read : parseClimb c fuel depth binders least left from_ = .ok (x, rest)) :
      ∃ p, Writes c.model tokens rest x p ∧ Tight least x p ∧ Halts least rest
  alternatives {depth : Nat} {binders : List Binder} {type : StaticType}
      {tokens rest : List Token} {items : List Expression}
      (read : parseAlternatives c fuel depth binders type tokens = .ok (items, rest)) :
      ∃ ps, WritesAll c.model tokens rest items ps
  unary {depth : Nat} {binders : List Binder} {tokens rest : List Token} {x : Expression}
      (read : parseUnary c fuel depth binders tokens = .ok (x, rest)) :
      ∃ p, Writes c.model tokens rest x p ∧ Tight operandPrecedence x p ∧
        Halts (p.binding + 1) rest
  primary {depth : Nat} {binders : List Binder} {t : Token} {tokens rest : List Token}
      {x : Expression} (read : parsePrimary c fuel depth binders t tokens = .ok (x, rest)) :
      ∃ p, Writes c.model (t :: tokens) rest x p ∧ p.binding = operandPrecedence
  call {depth : Nat} {binders : List Binder} {t : Token} {tokens rest : List Token}
      {x : Expression} (name : t.kind = .identifier)
      (read : parseCall c fuel depth binders t tokens = .ok (x, rest)) :
      ∃ p, Writes c.model (t :: tokens) rest x p ∧ p.binding = operandPrecedence
  arguments {depth : Nat} {binders : List Binder} {tokens rest : List Token}
      {items : List Expression}
      (read : parseArguments c fuel depth binders tokens = .ok (items, rest)) :
      ∃ ps, WritesAll c.model tokens rest items ps
  path {depth : Nat} {binders : List Binder} {t : Token} {tokens rest : List Token}
      {x : Expression} (name : t.kind = .identifier)
      (read : parsePath c fuel depth binders t tokens = .ok (x, rest)) :
      ∃ p, Writes c.model (t :: tokens) rest x p ∧ p.binding = operandPrecedence
  segment {depth : Nat} {binders : List Binder} {scope : Scope} {frame : Frame} {t : Token}
      {tokens rest : List Token} {x : Expression} (name : t.kind = .identifier)
      (read : parseSegment c fuel depth binders scope frame t tokens = .ok (x, rest)) :
      ∃ p, Writes c.model (t :: tokens) rest x p ∧ p.binding = operandPrecedence
  quantifier {depth : Nat} {binders : List Binder} {scope : Scope} {source : Source}
      {binder : String → Binder} {t u : Token} {tokens rest : List Token} {x : Expression}
      (name : t.kind = .identifier) (spelled : t.text = source.name) (slash : u.kind = .slash)
      (read : parseQuantifier c fuel depth binders scope source binder tokens = .ok (x, rest)) :
      ∃ p, Writes c.model (t :: u :: tokens) rest x p ∧ p.binding = operandPrecedence

section

variable {c : FilterContext} {fuel depth least more : Nat} {binders : List Binder}
  {t : Token} {tokens from_ rest : List Token} {left x : Expression} {l p : Phrase}

/-- Without fuel nothing is read. -/
theorem groups_zero : Groups c 0 where
  expression _ read := by simp [parseExpression] at read
  climb _ _ _ read := by simp [parseClimb] at read
  alternatives read := by simp [parseAlternatives] at read
  unary read := by simp [parseUnary] at read
  primary read := by simp [parsePrimary] at read
  call _ read := by simp [parseCall] at read
  arguments read := by simp [parseArguments] at read
  path _ read := by simp [parsePath] at read
  segment _ read := by simp [parseSegment] at read
  quantifier _ _ _ read := by simp [parseQuantifier] at read

/-- Where no operator binds so tightly, none binds more tightly. -/
theorem Halts.mono (halts : Halts least rest) (le : least ≤ more) : Halts more rest := by
  intro t mem name
  obtain ⟨alternatives, operators⟩ := halts t mem name
  exact ⟨fun word => (alternatives word).trans_le le, fun op known => (operators op known).trans_le le⟩

/-- A word whose operator is loose lets no tighter one go on. -/
theorem Halts.cons (alternatives : t.text = "in" → inPrecedence < least)
    (operators : ∀ op, BinaryOp.ofKeyword? t.text = some op → op.precedence < least) :
    Halts least (t :: rest) := by
  rintro _ ⟨⟩ -
  exact ⟨alternatives, operators⟩

/-- No operator binds tighter than a list of alternatives. -/
theorem halts_above (rest : List Token) : Halts (inPrecedence + 1) rest := by
  intro t mem name
  refine ⟨fun _ => Nat.lt_succ_self _, fun op _ => ?_⟩
  cases op <;> decide

/-- Only the operator of enumerations binds tighter than those in front of an operand. -/
theorem precedence_lt_unary {op : BinaryOp} (other : op ≠ .has) :
    op.precedence < unaryPrecedence := by
  cases op <;> first | decide | exact absurd rfl other

/-- The right operand of an operator binds tighter than the operator. -/
theorem Tight.right {op : BinaryOp} {right : Expression}
    (tight : Tight (op.precedence + 1) right p) (fit : fits op left.type right.type = true) :
    op.precedence < p.binding := by
  obtain tight | ⟨signed, plain⟩ := tight
  · exact tight
  -- An operator in front makes no enumeration, so that the operator is not the tightest one.
  have other : op ≠ .has := by
    rintro rfl
    obtain ⟨e, same⟩ := enum_of_fits_has fit
    exact plain e same
  rw [signed]
  exact precedence_lt_unary other

/-- What an operator in front of a truth value makes of it is no value of an enumeration. -/
theorem mkNot_ok (made : mkNot left = .ok x) : x = .not left ∧ ∀ e, x.type ≠ .primitive (.enum e) := by
  rw [mkNot] at made
  split at made
  · -- The type is that of truth values.
    cases made
    refine ⟨rfl, fun e enum => ?_⟩
    cases enum
  · cases made

/-- What a minus in front of a number or a duration makes of it is no value of an enumeration. -/
theorem mkNegate_ok (made : mkNegate left = .ok x) :
    x = .negate left ∧ ∀ e, x.type ≠ .primitive (.enum e) := by
  rw [mkNegate] at made
  split at made
  · rename_i fit
    cases made
    refine ⟨rfl, fun e enum => ?_⟩
    -- The opposite has the type of the operand, which has opposites.
    rw [type] at enum
    rw [enum] at fit
    cases fit
  · cases made

/-- A phrase and what an operator in front makes of it are read in front of looser operators. -/
theorem Writes.prefixed {sign : Sign} (writes : Writes c.model from_ rest left p)
    (tight : Tight unaryPrecedence left p) (halts : Halts unaryPrecedence rest)
    (word : t.word = sign.word) (plain : ∀ e, (sign.apply left).type ≠ .primitive (.enum e)) :
    ∃ q, Writes c.model (t :: from_) rest (sign.apply left) q ∧
      Tight operandPrecedence (sign.apply left) q ∧ Halts (q.binding + 1) rest := by
  refine ⟨.prefixed sign p, ⟨?_, ?_, ?_⟩, .inr ⟨rfl, plain⟩, halts.mono (Nat.le_succ _)⟩
  · rw [Phrase.tree, writes.tree]
  · rw [List.map_cons, word, writes.words, Phrase.words, List.cons_append]
  · refine .prefixed writes.grouped ?_
    obtain tight | ⟨same, -⟩ := tight
    · exact tight
    · exact same.ge

/-- Phrases around an operator are read as a phrase, if they bind tightly enough for it. -/
theorem Writes.infixed {op : BinaryOp} {right : Expression} {r : Phrase}
    (writes : Writes c.model tokens (t :: from_) left l) (word : t.word = named op.keyword)
    (writes' : Writes c.model from_ rest right r) (tightLeft : op.precedence ≤ l.binding)
    (tightRight : op.precedence < r.binding) :
    Writes c.model tokens rest (.binary op left right) (.infixed op l r) where
  tree := by rw [Phrase.tree, writes.tree, writes'.tree]
  words := by
    rw [writes.words, List.map_cons, word, writes'.words, Phrase.words, List.append_assoc,
      List.cons_append]
  grouped := .infixed writes.grouped writes'.grouped tightLeft tightRight

/-- A phrase is read with the alternatives behind it as a phrase, if it binds tightly enough. -/
theorem Writes.among {items : List Expression} {ps : List Phrase} {u v : Token} {what what' : String}
    {next behind : List Token} (writes : Writes c.model tokens (t :: from_) left l)
    (word : t.word = named "in") (opened : c.expect .openParen what from_ = .ok (u, next))
    (all : WritesAll c.model next behind items ps)
    (closed : c.expect .closeParen what' behind = .ok (v, rest))
    (tight : inPrecedence ≤ l.binding) :
    Writes c.model tokens rest (.oneOf left items) (.among l ps) where
  tree := by rw [Phrase.tree, writes.tree, all.trees]
  words := by
    rw [writes.words, List.map_cons, word, words_of_expect opened rfl, all.words,
      words_of_expect closed rfl, Phrase.words]
    simp only [List.append_assoc, List.cons_append, List.nil_append]
    rfl
  grouped := .among writes.grouped all.grouped tight

/-- An expression is an operand with the operators that follow it. -/
theorem Groups.expression_step (ih : Groups c fuel) (bounded : least ≤ operandPrecedence)
    (read : parseExpression c (fuel + 1) depth binders least tokens = .ok (x, rest)) :
    ∃ p, Writes c.model tokens rest x p ∧ Tight least x p ∧ Halts least rest := by
  rw [parseExpression] at read
  -- Neither an expression that is nested too deeply nor one without an operand is read.
  split at read
  · cases read
  split at read
  · cases read
  rename_i left next operand
  obtain ⟨l, writes, tight, waits⟩ := ih.unary operand
  exact ih.climb writes (tight.imp_left bounded.trans) waits read

/-- Operators that follow an operand take it as their left one, which binds as tightly. -/
theorem Groups.climb_step (ih : Groups c fuel) (writes : Writes c.model tokens from_ left l)
    (tight : Tight least left l) (waits : Halts (l.binding + 1) from_)
    (read : parseClimb c (fuel + 1) depth binders least left from_ = .ok (x, rest)) :
    ∃ p, Writes c.model tokens rest x p ∧ Tight least x p ∧ Halts least rest := by
  -- Whatever does not go on ends the expression where it is.
  have stop (halts : Halts least from_)
      (same : Except.ok (left, from_) = (.ok (x, rest) : Parsed Expression)) :
      ∃ p, Writes c.model tokens rest x p ∧ Tight least x p ∧ Halts least rest := by
    cases same
    exact ⟨l, writes, tight, halts⟩
  rcases from_ with _ | ⟨t, more⟩
  · rw [parseClimb] at read
    exact stop (Ends.nil.halts least) read
  rw [parseClimb] at read
  split at read
  · rename_i other
    refine stop (fun u mem name => ?_) read
    cases mem
    simp [name] at other
  rename_i name
  have name : t.kind = .identifier := by simpa using name
  obtain ⟨alternatives, operators⟩ := waits t rfl name
  split at read
  · rename_i word
    have word : t.text = "in" := eq_of_beq word
    have unknown : BinaryOp.ofKeyword? t.text = none := by rw [word]; rfl
    split at read
    · rename_i loose
      exact stop (.cons (fun _ => loose) fun op known => by rw [unknown] at known; cases known) read
    rename_i bound
    split at read
    · cases read
    rename_i opened
    split at read
    · cases read
    rename_i listed
    obtain ⟨ps, all⟩ := ih.alternatives listed
    split at read
    · cases read
    rename_i closed
    -- Nothing binds tighter than the list, so that nothing behind it takes only its end.
    have tight' : inPrecedence ≤ l.binding := Nat.le_of_lt_succ (alternatives word)
    have word : t.word = named "in" := by rw [Token.word_named name, word]
    exact ih.climb (writes.among word opened all closed tight') (.inl (Nat.le_of_not_lt bound))
      (halts_above _) read
  · rename_i word
    have word : t.text ≠ "in" := by simpa using word
    split at read
    · rename_i unknown
      refine stop (.cons (absurd · word) fun op known => ?_) read
      rw [unknown] at known
      cases known
    rename_i op known
    split at read
    · rename_i loose
      refine stop (.cons (absurd · word) fun other known' => ?_) read
      rw [known] at known'
      cases known'
      exact loose
    rename_i bound
    split at read
    · cases read
    rename_i right next operand
    -- The right operand takes what binds tighter, so that what follows binds at most as tightly.
    have bounded : op.precedence + 1 ≤ operandPrecedence := by cases op <;> decide
    obtain ⟨r, writes', tight', halts⟩ := ih.expression bounded operand
    split at read
    · cases read
    rename_i node made
    rw [mkBinary] at made
    split at made
    · rename_i fit
      cases made
      have keyword := List.find?_some known
      have word : t.word = named op.keyword := by rw [Token.word_named name, eq_of_beq keyword]
      have tightLeft : op.precedence ≤ l.binding := Nat.le_of_lt_succ (operators op known)
      exact ih.climb (writes.infixed word writes' tightLeft (tight'.right fit))
        (.inl (Nat.le_of_not_lt bound)) halts read
    · cases made

/-- A phrase is a list of its own. -/
theorem Writes.single (writes : Writes c.model tokens rest x p) :
    WritesAll c.model tokens rest [x] [p] where
  trees := by rw [Phrase.trees, Phrase.trees, writes.tree]
  words := by rw [Phrase.separated, writes.words]
  grouped := List.forall_mem_singleton.mpr writes.grouped
  some_ := List.cons_ne_nil _ _

/-- A phrase may stand in front of a list, with a comma behind it. -/
theorem WritesAll.cons {items : List Expression} {ps : List Phrase}
    (writes : Writes c.model tokens (t :: from_) x p) (comma : t.kind = .comma)
    (all : WritesAll c.model from_ rest items ps) :
    WritesAll c.model tokens rest (x :: items) (p :: ps) where
  trees := by rw [Phrase.trees, writes.tree, all.trees]
  words := by
    rw [writes.words, List.map_cons, Token.word_mark comma rfl, all.words,
      Phrase.separated_cons p all.some_, List.append_assoc, List.cons_append]
    rfl
  grouped := List.forall_mem_cons.mpr ⟨writes.grouped, all.grouped⟩
  some_ := List.cons_ne_nil _ _

/-- Alternatives are expressions with commas between them. -/
theorem Groups.alternatives_step (ih : Groups c fuel) {type : StaticType} {items : List Expression}
    (read : parseAlternatives c (fuel + 1) depth binders type tokens = .ok (items, rest)) :
    ∃ ps, WritesAll c.model tokens rest items ps := by
  rw [parseAlternatives] at read
  split at read
  · cases read
  -- Parentheses around the list let any operator stand in its items.
  rename_i x next first
  obtain ⟨p, writes, -, -⟩ := ih.expression (Nat.zero_le _) first
  split at read
  · cases read
  split at read
  · rename_i t more
    split at read
    · rename_i comma
      obtain ⟨⟨others, last⟩, found, same⟩ := map_ok read
      cases same
      obtain ⟨ps, all⟩ := ih.alternatives found
      exact ⟨p :: ps, .cons writes (eq_of_beq comma) all⟩
    · cases read
      exact ⟨[p], writes.single⟩
  · cases read
    exact ⟨[p], writes.single⟩

/-- Arguments are expressions with commas between them. -/
theorem Groups.arguments_step (ih : Groups c fuel) {items : List Expression}
    (read : parseArguments c (fuel + 1) depth binders tokens = .ok (items, rest)) :
    ∃ ps, WritesAll c.model tokens rest items ps := by
  rw [parseArguments] at read
  split at read
  · cases read
  -- Parentheses around the arguments let any operator stand in them.
  rename_i x next first
  obtain ⟨p, writes, -, -⟩ := ih.expression (Nat.zero_le _) first
  split at read
  · rename_i t more
    split at read
    · rename_i comma
      obtain ⟨⟨others, last⟩, found, same⟩ := map_ok read
      cases same
      obtain ⟨ps, all⟩ := ih.arguments found
      exact ⟨p :: ps, .cons writes (eq_of_beq comma) all⟩
    · cases read
      exact ⟨[p], writes.single⟩
  · cases read
    exact ⟨[p], writes.single⟩

/-- An operand may have operators in front of it, which take all tighter ones behind it. -/
theorem Groups.unary_step (ih : Groups c fuel)
    (read : parseUnary c (fuel + 1) depth binders tokens = .ok (x, rest)) :
    ∃ p, Writes c.model tokens rest x p ∧ Tight operandPrecedence x p ∧
      Halts (p.binding + 1) rest := by
  rcases tokens with _ | ⟨t, more⟩
  · rw [parseUnary] at read
    cases read
  -- Behind an operator in front, an expression of tighter operators is its operand.
  have bounded : unaryPrecedence ≤ operandPrecedence := by decide
  rw [parseUnary] at read
  split at read
  · rename_i word
    rw [Bool.and_eq_true, beq_iff_eq, beq_iff_eq] at word
    split at read
    · cases read
    rename_i operand next inner
    obtain ⟨p, writes, tight, halts⟩ := ih.expression bounded inner
    obtain ⟨node, made, same⟩ := map_ok read
    cases same
    obtain ⟨rfl, plain⟩ := mkNot_ok made
    have word : t.word = Sign.not.word := by rw [Token.word_named word.1, word.2]; rfl
    exact writes.prefixed tight halts word plain
  split at read
  · rename_i minus
    split at read
    · cases read
    rename_i operand next inner
    obtain ⟨p, writes, tight, halts⟩ := ih.expression bounded inner
    obtain ⟨node, made, same⟩ := map_ok read
    cases same
    obtain ⟨rfl, plain⟩ := mkNegate_ok made
    have word : t.word = Sign.minus.word := Token.word_mark (eq_of_beq minus) rfl
    exact writes.prefixed tight halts word plain
  · -- Any operator may follow an operand without one in front.
    obtain ⟨p, writes, whole⟩ := ih.primary read
    refine ⟨p, writes, .inl whole.ge, ?_⟩
    rw [whole]
    exact (halts_above rest).mono (by decide)

/-- An operand is in parentheses, a call, a path or a literal. -/
theorem Groups.primary_step (ih : Groups c fuel)
    (read : parsePrimary c (fuel + 1) depth binders t tokens = .ok (x, rest)) :
    ∃ p, Writes c.model (t :: tokens) rest x p ∧ p.binding = operandPrecedence := by
  rw [parsePrimary] at read
  split at read
  · rename_i open_
    split at read
    · cases read
    -- The tree loses the parentheses, but the phrase keeps them.
    rename_i inner next found
    obtain ⟨p, writes, -, -⟩ := ih.expression (Nat.zero_le _) found
    obtain ⟨⟨u, last⟩, closed, same⟩ := map_ok read
    cases same
    refine ⟨.enclosed p, ⟨?_, ?_, .enclosed writes.grouped⟩, rfl⟩
    · rw [Phrase.tree, writes.tree]
    · rw [List.map_cons, Token.word_mark open_ rfl, writes.words, words_of_expect closed rfl,
        Phrase.words, List.cons_append, List.append_assoc]
      rfl
  · rename_i name
    split at read
    · exact ih.call name read
    · exact ih.path name read
  any_goals cases read
  · rename_i open_ name close_ comma slash colon minus
    obtain ⟨value, spelled, same⟩ := map_ok read
    cases same
    -- The kinds that have marks are none of literals.
    have plain : t.kind.mark? = none := by
      unfold TokenKind.mark?
      split <;> first | rfl | contradiction
    refine ⟨.literal t.word, ⟨?_, rfl, .literal _⟩, rfl⟩
    rw [Phrase.tree, literalOf_word plain spelled]

/-- A call names a function and has its arguments in parentheses. -/
theorem Groups.call_step (ih : Groups c fuel) (name : t.kind = .identifier)
    (read : parseCall c (fuel + 1) depth binders t tokens = .ok (x, rest)) :
    ∃ p, Writes c.model (t :: tokens) rest x p ∧ p.binding = operandPrecedence := by
  rw [parseCall] at read
  split at read
  · cases read
  rename_i f known
  have named_ := List.find?_some known
  have named_ : f.name = t.text := eq_of_beq named_
  split at read
  · cases read
  rename_i open_ inside opened
  dsimp only at read
  split at read
  · cases read
  rename_i items next listed
  -- There may be nothing between the parentheses.
  have listed : ∃ ps, Phrase.trees c.model ps = items ∧ (∀ p ∈ ps, p.Grouped) ∧
      inside.map Token.word = Phrase.separated ps ++ next.map Token.word := by
    split at listed
    · cases listed
      exact ⟨[], rfl, List.forall_mem_nil _, rfl⟩
    · obtain ⟨ps, all⟩ := ih.arguments listed
      exact ⟨ps, all.trees, all.grouped, all.words⟩
  obtain ⟨ps, trees, grouped, words⟩ := listed
  split at read
  · cases read
  rename_i close_ behind closed
  obtain ⟨node, made, same⟩ := map_ok read
  cases same
  obtain ⟨type, rfl⟩ := mkCall_ok made
  refine ⟨.call f ps type, ⟨?_, ?_, .call grouped⟩, rfl⟩
  · rw [Phrase.tree, trees]
  · rw [List.map_cons, Token.word_named name, words_of_expect opened rfl, words,
      words_of_expect closed rfl, Phrase.words, named_, List.cons_append, List.cons_append,
      List.append_assoc]
    rfl

/-- A path starts at the root, at a variable, or where names without a path belong. -/
theorem Groups.path_step (ih : Groups c fuel) (name : t.kind = .identifier)
    (read : parsePath c (fuel + 1) depth binders t tokens = .ok (x, rest)) :
    ∃ p, Writes c.model (t :: tokens) rest x p ∧ p.binding = operandPrecedence := by
  -- A path that names where it starts goes on behind a slash.
  have start {u v : Token} {next more : List Token} {what : String}
      (slash : c.expect .slash what tokens = .ok (u, next))
      (word : c.expectName next = .ok (v, more))
      (inner : ∃ p, Writes c.model (v :: more) rest x p ∧ p.binding = operandPrecedence) :
      ∃ p, Writes c.model (t :: tokens) rest x p ∧ p.binding = operandPrecedence := by
    obtain ⟨p, writes, whole⟩ := inner
    obtain ⟨rfl, -⟩ := expect_ok word
    refine ⟨.start t.text p, ⟨?_, ?_, .start writes.grouped whole⟩, rfl⟩
    · rw [Phrase.tree, writes.tree]
    · rw [List.map_cons, Token.word_named name, words_of_expect slash rfl, writes.words,
        Phrase.words]
      rfl
  rw [parsePath] at read
  split at read
  · split at read
    · cases read
    rename_i slash
    split at read
    · cases read
    rename_i word
    exact start slash word (ih.segment (expect_ok word).2 read)
  split at read
  · split at read
    · cases read
    rename_i slash
    split at read
    · cases read
    rename_i word
    exact start slash word (ih.segment (expect_ok word).2 read)
  · rename_i variable_ type found
    split at read
    · cases read
    cases read
    have same : variable_ = t.text := by simpa [Binder.name] using List.find?_some found
    refine ⟨.item variable_ type, ⟨rfl, ?_, .item _ _⟩, rfl⟩
    rw [List.map_cons, Token.word_named name, same]
    rfl
  · exact ih.segment name read

/-- A segment names a property, a quantifier's range, or a navigation property to follow. -/
theorem Groups.segment_step (ih : Groups c fuel) {scope : Scope} {frame : Frame}
    (name : t.kind = .identifier)
    (read : parseSegment c (fuel + 1) depth binders scope frame t tokens = .ok (x, rest)) :
    ∃ p, Writes c.model (t :: tokens) rest x p ∧ p.binding = operandPrecedence := by
  -- What a segment names was found by its name, which is therefore the word for it.
  rw [parseSegment] at read
  split at read
  · rename_i p found
    have same : p.name = t.text := by simpa using List.find?_some found
    split at read
    · split at read
      · rename_i u more
        split at read
        · rename_i slash
          have spelled : t.text = (Source.items p).name := same.symm
          exact ih.quantifier name spelled (eq_of_beq slash) read
        · cases read
      · cases read
    · split at read
      · cases read
      · cases read
        refine ⟨.property scope p, ⟨rfl, ?_, .property _ _⟩, rfl⟩
        rw [List.map_cons, Token.word_named name, ← same]
        rfl
  split at read
  · cases read
  rename_i n found
  have same : n.name = t.text := by simpa using List.find?_some found
  split at read
  · cases read
  rename_i target bound
  split at read
  · cases read
  dsimp only at read
  split at read
  · split at read
    · rename_i u more
      split at read
      · rename_i slash
        have spelled : t.text = (Source.related n target).name := same.symm
        exact ih.quantifier name spelled (eq_of_beq slash) read
      · cases read
    · cases read
  · split at read
    · cases read
    rename_i slash
    split at read
    · cases read
    rename_i word
    obtain ⟨rfl, next⟩ := expect_ok word
    obtain ⟨⟨inner, last⟩, walked, same'⟩ := map_ok read
    cases same'
    obtain ⟨p, writes, whole⟩ := ih.segment next walked
    refine ⟨.hop scope n target p, ⟨?_, ?_, .hop writes.grouped whole⟩, rfl⟩
    · rw [Phrase.tree, writes.tree]
    · rw [List.map_cons, Token.word_named name, words_of_expect slash rfl, writes.words,
        Phrase.words, same]
      rfl

/-- A quantifier has a condition on a new variable, or none when it asks for any member. -/
theorem Groups.quantifier_step (ih : Groups c fuel) {scope : Scope} {source : Source}
    {binder : String → Binder} {u : Token} (name : t.kind = .identifier)
    (spelled : t.text = source.name) (slash : u.kind = .slash)
    (read : parseQuantifier c (fuel + 1) depth binders scope source binder tokens = .ok (x, rest)) :
    ∃ p, Writes c.model (t :: u :: tokens) rest x p ∧ p.binding = operandPrecedence := by
  rw [parseQuantifier] at read
  split at read
  · cases read
  rename_i word next keyword
  split at read
  · cases read
  rename_i quantifier known
  have known := List.find?_some known
  have known : quantifier.keyword = word.text := eq_of_beq known
  split at read
  · cases read
  rename_i open_ inside opened
  -- Both forms start with the same words.
  have words : (t :: u :: tokens).map Token.word = named source.name :: Lexeme.slash ::
      named quantifier.keyword :: opening :: inside.map Token.word := by
    rw [List.map_cons, List.map_cons, Token.word_named name, spelled, Token.word_mark slash rfl,
      words_of_expectName keyword, ← known, words_of_expect opened rfl]
    rfl
  split at read
  · rename_i closed
    split at read
    · cases read
    · rename_i any_
      cases read
      refine ⟨.nonEmpty scope source, ⟨rfl, ?_, .nonEmpty _ _⟩, rfl⟩
      cases inside with
      | nil => cases closed
      | cons w behind =>
        have kind : w.kind = .closeParen := by simpa using closed
        cases quantifier with
        | any => rw [words, List.map_cons, Token.word_mark kind rfl, Phrase.words]; rfl
        | all => exact absurd rfl any_
  split at read
  · cases read
  rename_i v next variable_
  split at read
  · cases read
  split at read
  · cases read
  rename_i colon_ next colon
  split at read
  · cases read
  -- Parentheses around the condition let any operator stand in it.
  rename_i predicate next inner
  obtain ⟨p, writes, -, -⟩ := ih.expression (Nat.zero_le _) inner
  split at read
  · cases read
  rename_i node made
  obtain ⟨⟨w, last⟩, closed, same⟩ := map_ok read
  cases same
  rw [mkQuantified] at made
  split at made
  · cases made
    refine ⟨.quantified scope source quantifier v.text p, ⟨?_, ?_, .quantified writes.grouped⟩, rfl⟩
    · rw [Phrase.tree, writes.tree]
    · rw [words, words_of_expectName variable_, words_of_expect colon rfl, writes.words,
        words_of_expect closed rfl, Phrase.words]
      simp only [List.append_assoc, List.cons_append]
      rfl
  · cases made

end

/-- Whatever the fuel, operators are read as those of phrases in which they group. -/
theorem groups (c : FilterContext) (fuel : Nat) : Groups c fuel := by
  induction fuel with
  | zero => exact groups_zero
  | succ fuel ih =>
    exact {
      expression := ih.expression_step
      climb := ih.climb_step
      alternatives := ih.alternatives_step
      unary := ih.unary_step
      primary := ih.primary_step
      call := ih.call_step
      arguments := ih.arguments_step
      path := ih.path_step
      segment := ih.segment_step
      quantifier := ih.quantifier_step }

end Expression

/--
The words of a filter that is read are those of a phrase that writes it, in which the operands of
every operator bind tightly enough, and those in front of one leave no tighter operator out.

The operands and operators of the phrase, in their order, group like this in no other way.
-/
theorem filters_group_by_precedence {m : Model} {set input : String} {x : Expression}
    (read : parseFilter m set input = .ok x) :
    ∃ tokens p, tokenize input = .ok tokens ∧ p.words = tokens.map Token.lexeme ∧ p.tree m = x ∧
      (∀ q after, Phrase.Part p q after →
        q.words ++ after <:+ tokens.map Token.lexeme ∧ q.IsGrouped after) ∧
      ∀ q : Phrase, q.Grouped → q.links = p.links → q = p := by
  rw [parseFilter] at read
  split at read
  · cases read
  rename_i s found
  split at read
  · cases read
  rename_i tokens scanned
  rw [Expression.ofTokens] at read
  split at read
  · cases read
  split at read
  · cases read
  · cases read
  rename_i y parsed
  split at read
  · cases read
    -- The filter is an expression of any operators, and no token is left behind it.
    obtain ⟨p, writes, -, -⟩ := (Expression.groups _ _).expression (Nat.zero_le _) parsed
    have words : p.words = tokens.map Token.lexeme := by
      rw [← words_of_tokenize scanned, writes.words, List.map_nil, List.append_nil]
    refine ⟨tokens, p, scanned, words, writes.tree, fun q after part => ?_, fun q grouped same => ?_⟩
    · exact ⟨words ▸ part.words_suffix, writes.grouped.isGrouped part⟩
    · exact grouped.unique writes.grouped same
  · cases read

/-- Lamps with neither of two keys and a key that is added to a product. -/
def lampChain : Expression :=
  let id : Expression := .property .root ⟨"id", .primitive (.integer .int32), false, false, none⟩
  let product : Expression := .binary .mul (.literal (.integer 2)) (.literal (.integer 3))
  .binary .and (.not (.oneOf id [.literal (.integer 1), .literal (.integer (-2))]))
    (.binary .eq (.binary .add id product) (.literal (.integer 7)))

/-- An operator in front takes a list of alternatives with its operand, but nothing behind it. -/
theorem filters_group_by_precedence_of_lamps :
    parseFilter lampModel "lamps" "not id in (1, -2) and id add 2 mul 3 eq 7" = .ok lampChain ∧
      ∃ tokens p, tokenize "not id in (1, -2) and id add 2 mul 3 eq 7" = .ok tokens ∧
        p.words = tokens.map Token.lexeme ∧ p.tree lampModel = lampChain ∧
        (∀ q after, Phrase.Part p q after →
          q.words ++ after <:+ tokens.map Token.lexeme ∧ q.IsGrouped after) ∧
        ∀ q : Phrase, q.Grouped → q.links = p.links → q = p := by
  have read : parseFilter lampModel "lamps" "not id in (1, -2) and id add 2 mul 3 eq 7"
      = .ok lampChain := by cbv
  exact ⟨read, filters_group_by_precedence read⟩

end EdmQuery
