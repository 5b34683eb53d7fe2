import Mathlib
import EdmQuery.Proofs.Expr.Printing

/-! Tokens that a legible tree is written in are parsed as the tree, however they came about. -/

namespace EdmQuery

/-- Tokens that say something first start with a token that told it. -/
theorem lexemes_cons {front : List Token} {kind : TokenKind} {text : String} {ls : List Lexeme}
    (told : front.map Token.lexeme = (kind, text) :: ls) :
    ∃ position more, front = ⟨kind, text, position⟩ :: more ∧ more.map Token.lexeme = ls := by
  obtain ⟨t, more, rfl, first, others⟩ := List.map_eq_cons_iff.mp told
  exact ⟨t.position, more, by rw [← Token.eq_of_lexeme first], others⟩

/-- Tokens that say something last end with a token that told it. -/
theorem lexemes_concat {front : List Token} {kind : TokenKind} {text : String} {ls : List Lexeme}
    (told : front.map Token.lexeme = ls ++ [(kind, text)]) :
    ∃ inner position, front = inner ++ [⟨kind, text, position⟩] ∧ inner.map Token.lexeme = ls := by
  obtain ⟨inner, last, rfl, others, told⟩ := List.map_eq_append_iff.mp told
  obtain ⟨position, more, rfl, none⟩ := lexemes_cons told
  cases List.map_eq_nil_iff.mp none
  exact ⟨inner, position, rfl, others⟩

/-- An operator is known by its keyword. -/
theorem BinaryOp.ofKeyword?_keyword (op : BinaryOp) : ofKeyword? op.keyword = some op := by
  cases op <;> rfl

/-- A function is known by its name. -/
theorem BuiltIn.ofName?_name (f : BuiltIn) : ofName? f.name = some f := by
  cases f <;> rfl

namespace Expression

mutual

/-- How many expressions deep the parser gets inside the printed form of an expression. -/
def nesting : Expression → Nat
  | hop _ _ _ inner => inner.nesting
  | not operand => operand.nesting + 2
  | negate operand => operand.nesting + 2
  | binary _ left right => max (left.nesting + 1) (right.nesting + 2)
  | oneOf operand items => max (operand.nesting + 1) (deepest items + 1)
  | call _ arguments _ => deepest arguments
  | quantified _ _ _ _ predicate => predicate.nesting + 1
  | _ => 0

/-- How many expressions deep the parser gets in a list of printed expressions. -/
def deepest : List Expression → Nat
  | [] => 0
  | x :: rest => max (x.nesting + 1) (deepest rest)

end

/-- No operator behind an operand binds at least so tightly. -/
def Halts (least : Nat) (rest : List Token) : Prop :=
  ∀ t ∈ rest.head?, t.kind = .identifier →
    (t.text = "in" → inPrecedence < least) ∧
      ∀ op, BinaryOp.ofKeyword? t.text = some op → op.precedence < least

/-- Neither arguments nor a path go on behind an operand. -/
def Apart (rest : List Token) : Prop :=
  ∀ t ∈ rest.head?, t.kind ≠ .openParen ∧ t.kind ≠ .slash

/-- What is behind an expression ends it: a closing parenthesis, a comma or nothing. -/
def Ends (rest : List Token) : Prop :=
  ∀ t ∈ rest.head?, t.kind = .closeParen ∨ t.kind = .comma

/-- Nothing ends an expression. -/
theorem Ends.nil : Ends [] :=
  nofun

/-- A closing parenthesis ends an expression. -/
theorem Ends.closing {text : String} {position : Nat} {rest : List Token} :
    Ends (⟨.closeParen, text, position⟩ :: rest) := by
  rintro _ ⟨⟩
  exact .inl rfl

/-- A comma ends an expression. -/
theorem Ends.comma {text : String} {position : Nat} {rest : List Token} :
    Ends (⟨.comma, text, position⟩ :: rest) := by
  rintro _ ⟨⟩
  exact .inr rfl

/-- What ends an expression is no operator. -/
theorem Ends.halts {rest : List Token} (ends : Ends rest) (least : Nat) : Halts least rest := by
  intro t mem name
  rcases ends t mem with kind | kind <;> cases name.symm.trans kind

/-- What ends an expression is apart from it. -/
theorem Ends.apart {rest : List Token} (ends : Ends rest) : Apart rest := by
  intro t mem
  rcases ends t mem with kind | kind <;> simp [kind]

/-- An operator is apart from its left operand. -/
theorem Apart.name {text : String} {position : Nat} {rest : List Token} :
    Apart (⟨.identifier, text, position⟩ :: rest) := by
  rintro _ ⟨⟩
  simp

/-- What is behind an operand leaves it alone. -/
structure Detached (x : Expression) (rest : List Token) : Prop where
  apart : Apart rest
  loose : x.isPrefixed = true → Halts unaryPrecedence rest

/-- What ends an expression leaves its last operand alone. -/
theorem Ends.detached {rest : List Token} (ends : Ends rest) (x : Expression) : Detached x rest :=
  ⟨ends.apart, fun _ => ends.halts _⟩

section

variable {c : FilterContext} {fuel depth least : Nat} {binders : List Binder} {x y : Expression}
  {tokens rest : List Token} {t : Token} {position position' : Nat}

/-- The next token is of the kind that it is expected to be of. -/
theorem expect_eq (c : FilterContext) (kind : TokenKind) (text what : String) (position : Nat)
    (rest : List Token) :
    c.expect kind what (⟨kind, text, position⟩ :: rest) = .ok (⟨kind, text, position⟩, rest) := by
  rw [FilterContext.expect, beq_self_eq_true, if_pos rfl]

/-- An operand that no operator follows is an expression. -/
theorem parseClimb_halts (c : FilterContext) (fuel depth : Nat) (binders : List Binder)
    (x : Expression) (halts : Halts least rest) :
    parseClimb c (fuel + 1) depth binders least x rest = .ok (x, rest) := by
  cases rest with
  | nil => rw [parseClimb]
  | cons t more =>
    rw [parseClimb]
    split
    · rfl
    rename_i name
    obtain ⟨alternatives, operators⟩ := halts t rfl (by simpa using name)
    split
    · rename_i word
      rw [if_pos (alternatives (by simpa using word))]
    · split
      · rfl
      · rename_i op known
        rw [if_pos (operators op known)]

/-- An expression is an operand with what follows it. -/
theorem parseExpression_eq (within : depth < c.model.config.maxDepth)
    (operand : parseUnary c fuel (depth + 1) binders tokens = .ok (x, rest)) :
    parseExpression c (fuel + 1) depth binders least tokens
      = parseClimb c fuel (depth + 1) binders least x rest := by
  rw [parseExpression, if_neg (by omega), operand]

/-- A token that is no operator is what an operand starts with. -/
theorem parseUnary_primary (word : t.kind = .identifier → t.text ≠ "not") (sign : t.kind ≠ .minus) :
    parseUnary c (fuel + 1) depth binders (t :: rest) = parsePrimary c fuel depth binders t rest := by
  have noWord : ¬ ((t.kind == .identifier && t.text == "not") = true) := by
    simpa using word
  have noSign : ¬ ((t.kind == .minus) = true) := by
    simpa using sign
  rw [parseUnary, if_neg noWord, if_neg noSign]

/-- An expression in parentheses is an operand. -/
theorem parseUnary_enclosed {n : Nat}
    (inner : parseExpression c fuel depth binders 0 tokens
      = .ok (x, ⟨.closeParen, ")", n⟩ :: rest)) :
    parseUnary c (fuel + 2) depth binders (⟨.openParen, "(", position⟩ :: tokens)
      = .ok (x, rest) := by
  rw [parseUnary_primary (fun name => by cases name) (by simp), parsePrimary]
  simp only [inner, expect_eq, Except.map]

/-- A truth value behind its operator is denied. -/
theorem parseUnary_not
    (operand : parseExpression c fuel depth binders unaryPrecedence tokens = .ok (x, rest))
    (fit : x.type.isBoolean = true) :
    parseUnary c (fuel + 1) depth binders (⟨.identifier, "not", position⟩ :: tokens)
      = .ok (.not x, rest) := by
  rw [parseUnary]
  simp [operand, mkNot, fit, Except.map]

/-- A number or a duration behind a minus is taken to its opposite. -/
theorem parseUnary_minus
    (operand : parseExpression c fuel depth binders unaryPrecedence tokens = .ok (x, rest))
    (fit : isNegatable x.type = true) :
    parseUnary c (fuel + 1) depth binders (⟨.minus, "-", position⟩ :: tokens)
      = .ok (.negate x, rest) := by
  rw [parseUnary]
  simp [operand, mkNegate, fit, Except.map]

/-- An operator that binds tightly enough takes the operand on its right. -/
theorem parseClimb_operator {op : BinaryOp} (tight : least ≤ op.precedence)
    (operand : parseExpression c fuel depth binders (op.precedence + 1) tokens = .ok (y, rest))
    (fit : fits op x.type y.type = true) :
    parseClimb c (fuel + 1) depth binders least x (⟨.identifier, op.keyword, position⟩ :: tokens)
      = parseClimb c fuel depth binders least (.binary op x y) rest := by
  have noList : (op.keyword == "in") = false := by
    cases op <;> rfl
  rw [parseClimb]
  simp [noList, BinaryOp.ofKeyword?_keyword, Nat.not_lt.mpr tight, operand, mkBinary, fit]

/-- A list of alternatives that binds tightly enough is taken up to its closing parenthesis. -/
theorem parseClimb_alternatives {items : List Expression} {n : Nat}
    (tight : least ≤ inPrecedence)
    (listed : parseAlternatives c fuel depth binders x.type tokens
      = .ok (items, ⟨.closeParen, ")", n⟩ :: rest)) :
    parseClimb c (fuel + 1) depth binders least x
        (⟨.identifier, "in", position⟩ :: ⟨.openParen, "(", position'⟩ :: tokens)
      = parseClimb c fuel depth binders least (.oneOf x items) rest := by
  rw [parseClimb]
  simp [Nat.not_lt.mpr tight, expect_eq, listed]

/-- A call is an operand, with the arguments between its parentheses if there are any. -/
theorem parseUnary_call {f : BuiltIn} {items : List Expression} {n : Nat}
    (listed : items = [] ∧ tokens = ⟨.closeParen, ")", n⟩ :: rest ∨
      tokens.head?.any (·.kind == .closeParen) = false ∧
        parseArguments c fuel depth binders tokens = .ok (items, ⟨.closeParen, ")", n⟩ :: rest))
    (made : mkCall c position f items = .ok x) :
    parseUnary c (fuel + 3) depth binders
        (⟨.identifier, f.name, position⟩ :: ⟨.openParen, "(", position'⟩ :: tokens)
      = .ok (x, rest) := by
  have word : f.name ≠ "not" := by
    cases f <;> decide
  rw [parseUnary_primary (fun _ => word) (by simp), parsePrimary]
  simp only [List.head?_cons, Option.any_some, beq_self_eq_true, if_true]
  rw [parseCall]
  simp only [BuiltIn.ofName?_name, expect_eq]
  rcases listed with ⟨rfl, rfl⟩ | ⟨some_, listed⟩
  · simp [expect_eq, made, Except.map]
  · simp [some_, listed, expect_eq, made, Except.map]

/-- A text comes from the same text. -/
theorem eq_string_of_withLiterals {text : String}
    (same : x.withLiterals Value.reread = .literal (.string text)) : x = .literal (.string text) := by
  cases x with
  | literal value =>
    rcases value with _ | s | _
    · cases same
    · cases s <;> cases same
      rfl
    · cases same
  | _ => cases same

/-- A call is made again with the literals as they are read again, wherever it stands. -/
theorem mkCall_withLiterals {made : FilterContext} {f : BuiltIn} {items : List Expression}
    {type : PrimitiveType} (makes : mkCall made position f items = .ok (.call f items type)) :
    mkCall c position' f (allWithLiterals Value.reread items)
      = .ok (.call f (allWithLiterals Value.reread items) type) := by
  have types : (allWithLiterals Value.reread items).map Expression.type
      = items.map Expression.type := by
    rw [allWithLiterals_eq, List.map_map]
    exact List.map_congr_left fun x _ => type_withLiterals Value.typeOfValue_reread x
  rw [mkCall] at makes ⊢
  rw [types]
  cases checked : f.check (items.map Expression.type) with
  | error e => simp [checked] at makes
  | ok known =>
    simp only [checked] at makes ⊢
    split at makes
    · -- A pattern that is known beforehand is read as itself.
      split at makes
      · rename_i parsed
        cases makes
        simp only [allWithLiterals, withLiterals, Value.reread, parsed, if_true]
      · cases makes
    · rename_i unknown
      cases makes
      split
      · rename_i first pattern others same
        rcases items with _ | ⟨a, _ | ⟨b, rest⟩⟩
        · cases same
        · cases same
        · rw [allWithLiterals, allWithLiterals, List.cons.injEq, List.cons.injEq] at same
          rw [eq_string_of_withLiterals same.2.1] at unknown
          exact (unknown a pattern rest rfl rfl).elim
      · rfl

/-- No expression starts with a closing parenthesis. -/
theorem lexemes_head {inLambda : Bool} {l : Lexeme} (mem : l ∈ (x.lexemes inLambda).head?) :
    l.1 ≠ .closeParen := by
  have lead {scope : Scope} {name : String} {ls : List Lexeme}
      (mem : l ∈ (scope.leadLexemes inLambda ++ .named name :: ls).head?) : l.1 ≠ .closeParen := by
    cases scope with
    | root => cases inLambda <;> cases mem <;> nofun
    | current => cases mem; nofun
    | bound => cases mem; nofun
  cases x with
  | literal value =>
    cases mem
    rcases value with _ | s | _
    · nofun
    · cases s <;> nofun
    · nofun
  | property => exact lead mem
  | hop => exact lead mem
  | nonEmpty => exact lead mem
  | quantified => exact lead mem
  | _ => cases mem; nofun

/-- A name that is neither an operator nor called starts a member path. -/
theorem parseUnary_path {name : String} (word : name ≠ "not")
    (uncalled : ∀ t ∈ tokens.head?, t.kind ≠ .openParen) :
    parseUnary c (fuel + 2) depth binders (⟨.identifier, name, position⟩ :: tokens)
      = parsePath c fuel depth binders ⟨.identifier, name, position⟩ tokens := by
  have plain : tokens.head?.any (·.kind == .openParen) = false := by
    rw [Option.any_eq_false]
    simpa using uncalled
  rw [parseUnary_primary (fun _ => word) (by simp), parsePrimary]
  simp only [plain, Bool.false_eq_true, if_false]

/-- A name that a quantifier ranges over leads to the quantifier behind its slash. -/
theorem parseSegment_ranges {scope : Scope} {frame : Frame} {source : Source}
    {binder : String → Binder} (ranges : Ranges c frame source binder) :
    parseSegment c (fuel + 1) depth binders scope frame ⟨.identifier, source.name, position⟩
        (⟨.slash, "/", position'⟩ :: tokens)
      = parseQuantifier c fuel depth binders scope source binder tokens := by
  cases ranges with
  | @items name p found several =>
    have own : p.name = name := by simpa using List.find?_some found
    rw [parseSegment]
    simp [Source.name, own, found, several]
  | @related name target n set unshadowed found several bound present =>
    have own : n.name = name := by simpa using List.find?_some found
    rw [parseSegment]
    simp [Source.name, own, unshadowed, found, several, bound, present]

end

/-- An expression is parsed from the tokens that it is written in, in front of what leaves it. -/
def Parses (c : FilterContext) (binders : List Binder) (inLambda : Bool) (x : Expression) : Prop :=
  -- Eight units of fuel for a token are what the whole filter is given, so that the parts add up.
  ∀ ⦃fuel depth front rest⦄, front.map Token.lexeme = x.lexemes inLambda →
    8 * front.length ≤ fuel → depth + x.nesting ≤ c.model.config.maxDepth → Detached x rest →
      parseUnary c fuel depth binders (front ++ rest) = .ok (x.withLiterals Value.reread, rest)

namespace Parses

variable {c : FilterContext} {binders : List Binder} {inLambda : Bool} {x operand : Expression}
  {fuel depth least : Nat} {front rest : List Token}

/-- What is parsed as an operand is parsed as an expression where no operator follows. -/
theorem expression (parses : Parses c binders inLambda x)
    (told : front.map Token.lexeme = x.lexemes inLambda) (enough : 8 * front.length + 2 ≤ fuel)
    (within : depth + (x.nesting + 1) ≤ c.model.config.maxDepth) (behind : Detached x rest)
    (halts : Halts least rest) :
    parseExpression c fuel depth binders least (front ++ rest)
      = .ok (x.withLiterals Value.reread, rest) := by
  obtain ⟨fuel, rfl⟩ : ∃ k, fuel = k + 2 := ⟨fuel - 2, by omega⟩
  rw [parseExpression_eq (by omega) (parses told (by omega) (by omega) behind),
    parseClimb_halts _ _ _ _ _ halts]

/-- What is parsed as an operand is parsed in parentheses. -/
theorem enclosed (parses : Parses c binders inLambda x)
    (told : front.map Token.lexeme = x.lexemes inLambda) (enough : 8 * front.length + 4 ≤ fuel)
    (within : depth + (x.nesting + 1) ≤ c.model.config.maxDepth) {position behind : Nat} :
    parseUnary c fuel depth binders
        (⟨.openParen, "(", position⟩ :: (front ++ ⟨.closeParen, ")", behind⟩ :: rest))
      = .ok (x.withLiterals Value.reread, rest) := by
  obtain ⟨fuel, rfl⟩ : ∃ k, fuel = k + 2 := ⟨fuel - 2, by omega⟩
  exact parseUnary_enclosed (parses.expression told (by omega) within (Ends.closing.detached x)
    (Ends.closing.halts 0))

/-- A literal is parsed as the value that its token has. -/
theorem literal {value : Value}
    (spells : ∀ t : Token, t.lexeme = value.lexeme → Spells c t value.reread) :
    Parses c binders inLambda (.literal value) := by
  intro fuel depth front rest told enough within behind
  obtain ⟨t, more, rfl, same, none⟩ := List.map_eq_cons_iff.mp told
  cases List.map_eq_nil_iff.mp none
  obtain ⟨fuel, rfl⟩ : ∃ k, fuel = k + 2 :=
    ⟨fuel - 2, by simp only [List.length_cons] at enough; omega⟩
  obtain ⟨kind, found⟩ := spells t same
  simp only [List.mem_cons, List.not_mem_nil, or_false, not_or] at kind
  rw [List.singleton_append, parseUnary_primary (fun name => absurd name kind.1) kind.2.2.2.2.2.2,
    parsePrimary]
  split
  · rename_i h; exact absurd h kind.2.1
  · rename_i h; exact absurd h kind.1
  all_goals first
    | rw [found]; rfl
    | (rename_i h; simp [h] at kind)

/-- What is parsed as an operand is the operand of an operator in front of its parentheses. -/
theorem behindOperator (parses : Parses c binders inLambda x)
    (told : front.map Token.lexeme = x.lexemes inLambda) (enough : 8 * front.length + 6 ≤ fuel)
    (within : depth + (x.nesting + 2) ≤ c.model.config.maxDepth)
    (halts : Halts unaryPrecedence rest) {position behind : Nat} :
    parseExpression c fuel depth binders unaryPrecedence
        (⟨.openParen, "(", position⟩ :: (front ++ ⟨.closeParen, ")", behind⟩ :: rest))
      = .ok (x.withLiterals Value.reread, rest) := by
  obtain ⟨fuel, rfl⟩ : ∃ k, fuel = k + 2 := ⟨fuel - 2, by omega⟩
  rw [parseExpression_eq (by omega) (parses.enclosed told (by omega) (by omega)),
    parseClimb_halts _ _ _ _ _ halts]

/-- A denied truth value is parsed behind the operator. -/
theorem not (parses : Parses c binders inLambda operand) (fit : operand.type.isBoolean = true) :
    Parses c binders inLambda (.not operand) := by
  intro fuel depth front rest told enough within behind
  obtain ⟨p, _, rfl, told'⟩ := lexemes_cons told
  obtain ⟨q, _, rfl, inside⟩ := lexemes_cons told'
  obtain ⟨inner, r, rfl, told''⟩ := lexemes_concat inside
  simp only [List.length_cons, List.length_append, List.length_nil] at enough
  obtain ⟨fuel, rfl⟩ : ∃ k, fuel = k + 1 := ⟨fuel - 1, by omega⟩
  rw [List.cons_append, List.cons_append, List.append_assoc, List.singleton_append]
  refine parseUnary_not (parses.behindOperator told'' (by omega) within (behind.loose rfl)) ?_
  rwa [type_withLiterals Value.typeOfValue_reread]

/-- An opposite is parsed behind the minus. -/
theorem negate (parses : Parses c binders inLambda operand)
    (fit : isNegatable operand.type = true) : Parses c binders inLambda (.negate operand) := by
  intro fuel depth front rest told enough within behind
  obtain ⟨p, _, rfl, told'⟩ := lexemes_cons told
  obtain ⟨q, _, rfl, inside⟩ := lexemes_cons told'
  obtain ⟨inner, r, rfl, told''⟩ := lexemes_concat inside
  simp only [List.length_cons, List.length_append, List.length_nil] at enough
  obtain ⟨fuel, rfl⟩ : ∃ k, fuel = k + 1 := ⟨fuel - 1, by omega⟩
  rw [List.cons_append, List.cons_append, List.append_assoc, List.singleton_append]
  refine parseUnary_minus (parses.behindOperator told'' (by omega) within (behind.loose rfl)) ?_
  rwa [type_withLiterals Value.typeOfValue_reread]

/-- An operation on two operands is parsed in its parentheses. -/
theorem binary {op : BinaryOp} {left right : Expression} (parsesLeft : Parses c binders inLambda left)
    (parsesRight : Parses c binders inLambda right)
    (fit : fits op left.type right.type = true) (loose : op = .has → left.isPrefixed = false) :
    Parses c binders inLambda (.binary op left right) := by
  intro fuel depth front rest told enough within behind
  obtain ⟨p, _, rfl, told'⟩ := lexemes_cons told
  obtain ⟨first, _, rfl, toldLeft, told''⟩ := List.map_eq_append_iff.mp told'
  obtain ⟨q, _, rfl, inside⟩ := lexemes_cons told''
  obtain ⟨second, r, rfl, toldRight⟩ := lexemes_concat inside
  simp only [List.length_cons, List.length_append, List.length_nil] at enough
  simp only [nesting] at within
  obtain ⟨fuel, rfl⟩ : ∃ k, fuel = k + 5 := ⟨fuel - 5, by omega⟩
  have tokens : (⟨.openParen, "(", p⟩ :: (first ++ ⟨.identifier, op.keyword, q⟩ ::
      (second ++ [⟨.closeParen, ")", r⟩])) : List Token) ++ rest = ⟨.openParen, "(", p⟩ ::
        (first ++ ⟨.identifier, op.keyword, q⟩ :: (second ++ ⟨.closeParen, ")", r⟩ :: rest)) := by
    simp
  -- Only `has` binds tighter than an operator in front of the left operand.
  have apart : Detached left (⟨.identifier, op.keyword, q⟩ ::
      (second ++ ⟨.closeParen, ")", r⟩ :: rest)) := by
    refine ⟨.name, fun isPrefixed => ?_⟩
    rintro _ ⟨⟩ -
    refine ⟨fun word => ?_, fun op' known => ?_⟩
    · cases op <;> simp [BinaryOp.keyword] at word
    · rw [BinaryOp.ofKeyword?_keyword] at known
      cases known
      cases op <;> simp_all [BinaryOp.precedence, unaryPrecedence]
  have fit' : fits op (left.withLiterals Value.reread).type (right.withLiterals Value.reread).type
      = true := by
    rwa [type_withLiterals Value.typeOfValue_reread, type_withLiterals Value.typeOfValue_reread]
  rw [tokens]
  refine parseUnary_enclosed (n := r) ?_
  rw [parseExpression_eq (by omega) (parsesLeft toldLeft (by omega) (by omega) apart),
    parseClimb_operator (Nat.zero_le _) (parsesRight.expression toldRight (by omega) (by omega)
      (Ends.closing.detached _) (Ends.closing.halts _)) fit',
    parseClimb_halts _ _ _ _ _ (Ends.closing.halts 0)]
  rfl

/-- Alternatives that compare with an operand are parsed up to the closing parenthesis. -/
theorem alternatives {items : List Expression} (each : ∀ x ∈ items, Parses c binders inLambda x)
    (some_ : items ≠ []) {type : StaticType} (fit : ∀ x ∈ items, type.comparable x.type = true)
    (told : front.map Token.lexeme = allLexemes inLambda items)
    (enough : 8 * front.length + 3 ≤ fuel)
    (within : depth + deepest items ≤ c.model.config.maxDepth) {n : Nat} :
    parseAlternatives c fuel depth binders type (front ++ ⟨.closeParen, ")", n⟩ :: rest)
      = .ok (allWithLiterals Value.reread items, ⟨.closeParen, ")", n⟩ :: rest) := by
  induction items generalizing front fuel with
  | nil => exact absurd rfl some_
  | cons x others ih =>
    obtain ⟨first, each⟩ := List.forall_mem_cons.mp each
    obtain ⟨fits, fit⟩ := List.forall_mem_cons.mp fit
    obtain ⟨fuel, rfl⟩ : ∃ k, fuel = k + 1 := ⟨fuel - 1, by omega⟩
    rw [deepest] at within
    rw [← type_withLiterals Value.typeOfValue_reread] at fits
    -- A comma tells that another alternative follows, the parenthesis that none does.
    cases others with
    | nil =>
      rw [parseAlternatives, first.expression told (by omega) (by omega) (Ends.closing.detached x)
        (Ends.closing.halts 0)]
      simp [fits, allWithLiterals]
    | cons y others =>
      obtain ⟨head, _, rfl, toldFirst, told'⟩ := List.map_eq_append_iff.mp told
      obtain ⟨q, tail, rfl, toldOthers⟩ := lexemes_cons told'
      simp only [List.length_append, List.length_cons] at enough
      rw [List.append_assoc, List.cons_append, parseAlternatives,
        first.expression toldFirst (by omega) (by omega) (Ends.comma.detached x) (Ends.comma.halts 0)]
      simp only [fits, Bool.not_true, Bool.false_eq_true, if_false, beq_self_eq_true, if_true]
      rw [ih each (List.cons_ne_nil _ _) fit toldOthers (by omega) (by omega)]
      rfl

/-- Arguments are parsed up to the closing parenthesis. -/
theorem arguments {items : List Expression} (each : ∀ x ∈ items, Parses c binders inLambda x)
    (some_ : items ≠ []) (told : front.map Token.lexeme = allLexemes inLambda items)
    (enough : 8 * front.length + 3 ≤ fuel)
    (within : depth + deepest items ≤ c.model.config.maxDepth) {n : Nat} :
    parseArguments c fuel depth binders (front ++ ⟨.closeParen, ")", n⟩ :: rest)
      = .ok (allWithLiterals Value.reread items, ⟨.closeParen, ")", n⟩ :: rest) := by
  induction items generalizing front fuel with
  | nil => exact absurd rfl some_
  | cons x others ih =>
    obtain ⟨first, each⟩ := List.forall_mem_cons.mp each
    obtain ⟨fuel, rfl⟩ : ∃ k, fuel = k + 1 := ⟨fuel - 1, by omega⟩
    rw [deepest] at within
    cases others with
    | nil =>
      rw [parseArguments, first.expression told (by omega) (by omega) (Ends.closing.detached x)
        (Ends.closing.halts 0)]
      simp [allWithLiterals]
    | cons y others =>
      obtain ⟨head, _, rfl, toldFirst, told'⟩ := List.map_eq_append_iff.mp told
      obtain ⟨q, tail, rfl, toldOthers⟩ := lexemes_cons told'
      simp only [List.length_append, List.length_cons] at enough
      rw [List.append_assoc, List.cons_append, parseArguments,
        first.expression toldFirst (by omega) (by omega) (Ends.comma.detached x) (Ends.comma.halts 0)]
      simp only [beq_self_eq_true, if_true]
      rw [ih each (List.cons_ne_nil _ _) toldOthers (by omega) (by omega)]
      rfl

/-- A list of alternatives is parsed with its operand, in its parentheses. -/
theorem oneOf {items : List Expression} (parses : Parses c binders inLambda operand)
    (each : ∀ x ∈ items, Parses c binders inLambda x)
    (fit : ∀ x ∈ items, operand.type.comparable x.type = true) (some_ : items ≠ [])
    (loose : operand.isPrefixed = false) : Parses c binders inLambda (.oneOf operand items) := by
  intro fuel depth front rest told enough within behind
  obtain ⟨p, _, rfl, told'⟩ := lexemes_cons told
  obtain ⟨first, _, rfl, toldOperand, told''⟩ := List.map_eq_append_iff.mp told'
  obtain ⟨q, _, rfl, toldList⟩ := lexemes_cons told''
  obtain ⟨r, _, rfl, toldRest⟩ := lexemes_cons toldList
  obtain ⟨second, _, rfl, toldItems, toldLast⟩ := List.map_eq_append_iff.mp toldRest
  obtain ⟨n, _, rfl, toldLast'⟩ := lexemes_cons toldLast
  obtain ⟨k, _, rfl, none⟩ := lexemes_cons toldLast'
  cases List.map_eq_nil_iff.mp none
  simp only [List.length_cons, List.length_append, List.length_nil] at enough
  simp only [nesting] at within
  obtain ⟨fuel, rfl⟩ : ∃ k, fuel = k + 5 := ⟨fuel - 5, by omega⟩
  have tokens : (⟨.openParen, "(", p⟩ :: (first ++ ⟨.identifier, "in", q⟩ :: ⟨.openParen, "(", r⟩ ::
      (second ++ [⟨.closeParen, ")", n⟩, ⟨.closeParen, ")", k⟩])) : List Token) ++ rest =
        ⟨.openParen, "(", p⟩ :: (first ++ ⟨.identifier, "in", q⟩ :: ⟨.openParen, "(", r⟩ ::
          (second ++ ⟨.closeParen, ")", n⟩ :: ⟨.closeParen, ")", k⟩ :: rest)) := by
    simp
  have apart : Detached operand (⟨.identifier, "in", q⟩ :: ⟨.openParen, "(", r⟩ ::
      (second ++ ⟨.closeParen, ")", n⟩ :: ⟨.closeParen, ")", k⟩ :: rest)) :=
    ⟨.name, fun isPrefixed => by simp [loose] at isPrefixed⟩
  rw [← type_withLiterals Value.typeOfValue_reread] at fit
  rw [tokens]
  refine parseUnary_enclosed (n := k) ?_
  rw [parseExpression_eq (by omega) (parses toldOperand (by omega) (by omega) apart),
    parseClimb_alternatives (Nat.zero_le _) (alternatives each some_ fit toldItems (by omega)
      (by omega)), parseClimb_halts _ _ _ _ _ (Ends.closing.halts 0)]
  rfl

/-- A call is parsed with its arguments in parentheses. -/
theorem call {made : FilterContext} {position : Nat} {f : BuiltIn} {items : List Expression}
    {type : PrimitiveType} (each : ∀ x ∈ items, Parses c binders inLambda x)
    (makes : mkCall made position f items = .ok (.call f items type)) :
    Parses c binders inLambda (.call f items type) := by
  intro fuel depth front rest told enough within behind
  obtain ⟨p, _, rfl, told'⟩ := lexemes_cons told
  obtain ⟨q, _, rfl, told''⟩ := lexemes_cons told'
  obtain ⟨inner, r, rfl, toldItems⟩ := lexemes_concat told''
  simp only [List.length_cons, List.length_append, List.length_nil] at enough
  obtain ⟨fuel, rfl⟩ : ∃ k, fuel = k + 3 := ⟨fuel - 3, by omega⟩
  rw [List.cons_append, List.cons_append, List.append_assoc, List.singleton_append]
  refine parseUnary_call (n := r) ?_ (mkCall_withLiterals makes)
  -- The parser looks for a closing parenthesis first, with which no argument starts.
  cases items with
  | nil =>
    cases List.map_eq_nil_iff.mp toldItems
    exact .inl ⟨rfl, rfl⟩
  | cons x others =>
    refine .inr ⟨?_, arguments each (List.cons_ne_nil _ _) toldItems (by omega) within⟩
    cases inner with
    | nil =>
      cases others with
      | nil => exact absurd toldItems.symm (lexemes_ne_nil inLambda x)
      | cons => simp [allLexemes] at toldItems
    | cons t inner =>
      have first : t.lexeme ∈ (x.lexemes inLambda).head? := by
        cases others with
        | nil => rw [← show _ = x.lexemes inLambda from toldItems]; rfl
        | cons =>
          obtain ⟨l, ls, same⟩ := List.exists_cons_of_ne_nil (lexemes_ne_nil inLambda x)
          rw [allLexemes, same] at toldItems
          · rw [same]
            exact (List.cons.inj toldItems).1 ▸ rfl
          · rintro ⟨⟩
      simpa [Token.lexeme] using lexemes_head first

end Parses

/-- A member path from a scope is parsed from its first name on. -/
structure Continues (c : FilterContext) (binders : List Binder) (inLambda : Bool) (scope : Scope)
    (frame : Frame) (x : Expression) (name : String) (tail : List Lexeme) : Prop where
  clear : scope.isClear inLambda name = true
  lexemes : x.lexemes inLambda = scope.leadLexemes inLambda ++ .named name :: tail
  follows : ∀ l ∈ tail.head?, l.1 = .slash
  parses : ∀ ⦃fuel depth position more rest⦄, more.map Token.lexeme = tail →
    8 * more.length + 4 ≤ fuel → depth + x.nesting ≤ c.model.config.maxDepth → Apart rest →
      parseSegment c fuel depth binders scope frame ⟨.identifier, name, position⟩ (more ++ rest)
        = .ok (x.withLiterals Value.reread, rest)

namespace Continues

variable {c : FilterContext} {binders : List Binder} {inLambda : Bool} {x inner : Expression}
  {scope : Scope} {frame : Frame} {name : String} {tail : List Lexeme}

/-- A property with a single value ends its path. -/
theorem property {p : Property} (found : frame.type.property? p.name = some p)
    (single : p.type.isCollection = false) (clear : scope.isClear inLambda p.name = true) :
    Continues c binders inLambda scope frame (.property scope p) p.name [] where
  clear
  lexemes := rfl
  follows := nofun
  parses fuel depth position more rest told enough within apart := by
    cases List.map_eq_nil_iff.mp told
    obtain ⟨fuel, rfl⟩ : ∃ k, fuel = k + 1 := ⟨fuel - 1, by omega⟩
    have ends : rest.head?.any (·.kind == .slash) = false := by
      rw [Option.any_eq_false]
      exact fun t mem => by simpa using (apart t mem).2
    rw [parseSegment]
    simp [found, single, ends, withLiterals]

/-- A navigation property to one entity goes on with a path from that entity. -/
theorem hop {n : Navigation} {target : String} {set : EntitySet}
    (continues : Continues c binders inLambda .current ⟨target, set.type⟩ inner name tail)
    (unshadowed : frame.type.property? n.name = none)
    (found : frame.type.navigation? n.name = some n) (single : n.isCollection = false)
    (bound : c.model.target? frame.set n.name = some target)
    (present : c.model.set? target = some set) (clear : scope.isClear inLambda n.name = true) :
    Continues c binders inLambda scope frame (.hop scope n target inner) n.name
      (.slash :: inner.lexemes inLambda) where
  clear
  lexemes := rfl
  follows := by
    rintro _ ⟨⟩
    rfl
  parses fuel depth position more rest told enough within apart := by
    obtain ⟨p, _, rfl, told'⟩ := lexemes_cons told
    rw [continues.lexemes] at told'
    obtain ⟨q, more, rfl, told''⟩ := lexemes_cons told'
    simp only [List.length_cons] at enough
    obtain ⟨fuel, rfl⟩ : ∃ k, fuel = k + 1 := ⟨fuel - 1, by omega⟩
    rw [List.cons_append, List.cons_append, parseSegment]
    simp only [unshadowed, found, bound, present, single, Bool.false_eq_true, if_false, expect_eq,
      FilterContext.expectName]
    rw [continues.parses told'' (by omega) within apart]
    rfl

/-- A quantifier without a condition ends its path. -/
theorem nonEmpty {source : Source} {binder : String → Binder}
    (ranges : Ranges c frame source binder) (clear : scope.isClear inLambda source.name = true) :
    Continues c binders inLambda scope frame (.nonEmpty scope source) source.name
      [.slash, .named "any", .opening, .closing] where
  clear
  lexemes := rfl
  follows := by
    rintro _ ⟨⟩
    rfl
  parses fuel depth position more rest told enough within apart := by
    obtain ⟨p, _, rfl, told'⟩ := lexemes_cons told
    obtain ⟨q, _, rfl, told''⟩ := lexemes_cons told'
    obtain ⟨r, _, rfl, toldLast⟩ := lexemes_cons told''
    obtain ⟨n, _, rfl, none⟩ := lexemes_cons toldLast
    cases List.map_eq_nil_iff.mp none
    obtain ⟨fuel, rfl⟩ : ∃ k, fuel = k + 2 :=
      ⟨fuel - 2, by simp only [List.length_cons] at enough; omega⟩
    have known : [Quantifier.any, .all].find? (·.keyword == "any") = some .any := rfl
    rw [List.cons_append, parseSegment_ranges ranges, List.cons_append, List.cons_append,
      List.cons_append, parseQuantifier]
    simp only [FilterContext.expectName, expect_eq, known]
    rfl

/-- A quantifier with a condition ends its path behind the condition. -/
theorem quantified {source : Source} {binder : String → Binder} {quantifier : Quantifier}
    {v : String} {predicate : Expression} (ranges : Ranges c frame source binder)
    (parses : Parses c (binder v :: binders) true predicate)
    (fit : predicate.type.isBoolean = true) (notRoot : v ≠ "$it")
    (fresh : ∀ b ∈ binders, b.name ≠ v) (clear : scope.isClear inLambda source.name = true) :
    Continues c binders inLambda scope frame (.quantified scope source quantifier v predicate)
      source.name (.slash :: .named quantifier.keyword :: .opening :: .named v :: .colon ::
        (predicate.lexemes true ++ [.closing])) where
  clear
  lexemes := rfl
  follows := by
    rintro _ ⟨⟩
    rfl
  parses fuel depth position more rest told enough within apart := by
    obtain ⟨p, _, rfl, told₁⟩ := lexemes_cons told
    obtain ⟨q, _, rfl, told₂⟩ := lexemes_cons told₁
    obtain ⟨r, _, rfl, told₃⟩ := lexemes_cons told₂
    obtain ⟨n, _, rfl, told₄⟩ := lexemes_cons told₃
    obtain ⟨k, _, rfl, told₅⟩ := lexemes_cons told₄
    obtain ⟨inner, e, rfl, toldInner⟩ := lexemes_concat told₅
    simp only [List.length_cons, List.length_append, List.length_nil] at enough
    simp only [nesting] at within
    obtain ⟨fuel, rfl⟩ : ∃ k, fuel = k + 2 := ⟨fuel - 2, by omega⟩
    have known : [Quantifier.any, .all].find? (·.keyword == quantifier.keyword)
        = some quantifier := by
      cases quantifier <;> rfl
    have new : (v == "$it" || binders.any (·.name == v)) = false := by
      simpa [notRoot] using fresh
    have tokens : (⟨.slash, "/", p⟩ :: ⟨.identifier, quantifier.keyword, q⟩ ::
        ⟨.openParen, "(", r⟩ :: ⟨.identifier, v, n⟩ :: ⟨.colon, ":", k⟩ ::
          (inner ++ [⟨.closeParen, ")", e⟩]) : List Token) ++ rest
        = ⟨.slash, "/", p⟩ :: ⟨.identifier, quantifier.keyword, q⟩ :: ⟨.openParen, "(", r⟩ ::
          ⟨.identifier, v, n⟩ :: ⟨.colon, ":", k⟩ :: (inner ++ ⟨.closeParen, ")", e⟩ :: rest) := by
      simp
    rw [tokens, parseSegment_ranges ranges, parseQuantifier]
    simp only [FilterContext.expectName, expect_eq, known, List.head?_cons, Option.any_some, new]
    rw [parses.expression toldInner (by omega) (by omega) (Ends.closing.detached _)
      (Ends.closing.halts 0)]
    simp only [mkQuantified, type_withLiterals Value.typeOfValue_reread, fit, if_true, expect_eq]
    rfl

end Continues

namespace Parses

variable {c : FilterContext} {binders : List Binder} {inLambda : Bool} {x : Expression}

/-- A path from the root is parsed, where the root is named or no variable is in the way. -/
theorem rooted {name : String} {tail : List Lexeme}
    (continues : Continues c binders inLambda .root c.root x name tail)
    (outer : inLambda = false → binders = []) : Parses c binders inLambda x := by
  intro fuel depth front rest told enough within behind
  rw [continues.lexemes] at told
  -- Inside a quantifier the root is named; outside there is no variable to be taken for a name.
  cases inLambda with
  | true =>
    obtain ⟨p, _, rfl, told'⟩ := lexemes_cons told
    obtain ⟨q, _, rfl, told''⟩ := lexemes_cons told'
    obtain ⟨r, more, rfl, toldMore⟩ := lexemes_cons told''
    simp only [List.length_cons] at enough
    obtain ⟨fuel, rfl⟩ : ∃ k, fuel = k + 3 := ⟨fuel - 3, by omega⟩
    rw [List.cons_append, List.cons_append, List.cons_append,
      parseUnary_path (by decide) (by rintro _ ⟨⟩; nofun), parsePath]
    simp only [beq_self_eq_true, if_true, expect_eq, FilterContext.expectName]
    exact continues.parses toldMore (by omega) within behind.apart
  | false =>
    have clear := continues.clear
    simp only [Scope.isClear, Bool.false_or, Bool.and_eq_true, bne_iff_ne] at clear
    obtain ⟨p, more, rfl, toldMore⟩ := lexemes_cons told
    simp only [List.length_cons] at enough
    obtain ⟨fuel, rfl⟩ : ∃ k, fuel = k + 3 := ⟨fuel - 3, by omega⟩
    -- A path goes on with a slash, and what is behind it is no list of arguments either.
    have uncalled : ∀ t ∈ (more ++ rest).head?, t.kind ≠ .openParen := by
      cases more with
      | nil => exact fun t mem => (behind.apart t mem).1
      | cons t more =>
        rintro _ ⟨⟩ called
        have slash : t.kind = .slash := continues.follows t.lexeme (by rw [← toldMore]; rfl)
        cases slash.symm.trans called
    cases outer rfl
    rw [List.cons_append, parseUnary_path clear.1 uncalled, parsePath]
    simp only [beq_eq_false_iff_ne.mpr clear.2, Bool.false_eq_true, if_false, List.find?_nil,
      FilterContext.implicitFrame]
    exact continues.parses toldMore (by omega) within behind.apart

/-- A path from an entity variable is parsed behind its name. -/
theorem through {v name : String} {target : Frame} {tail : List Lexeme}
    (found : binders.find? (·.name == v) = some (.entity v target)) (notRoot : v ≠ "$it")
    (continues : Continues c binders inLambda (.bound v) target x name tail) :
    Parses c binders inLambda x := by
  intro fuel depth front rest told enough within behind
  have clear := continues.clear
  rw [continues.lexemes] at told
  obtain ⟨p, _, rfl, told'⟩ := lexemes_cons told
  obtain ⟨q, _, rfl, told''⟩ := lexemes_cons told'
  obtain ⟨r, more, rfl, toldMore⟩ := lexemes_cons told''
  simp only [List.length_cons] at enough
  obtain ⟨fuel, rfl⟩ : ∃ k, fuel = k + 3 := ⟨fuel - 3, by omega⟩
  rw [List.cons_append, List.cons_append, List.cons_append,
    parseUnary_path (by simpa [Scope.isClear] using clear) (by rintro _ ⟨⟩; nofun), parsePath]
  simp only [beq_eq_false_iff_ne.mpr notRoot, Bool.false_eq_true, if_false, found, expect_eq,
    FilterContext.expectName]
  exact continues.parses toldMore (by omega) within behind.apart

/-- The variable of a collection's items is parsed as itself. -/
theorem item {v : String} {element : PrimitiveType}
    (found : binders.find? (·.name == v) = some (.element v element)) (notRoot : v ≠ "$it")
    (word : v ≠ "not") : Parses c binders inLambda (.item v element) := by
  intro fuel depth front rest told enough within behind
  obtain ⟨p, _, rfl, none⟩ := lexemes_cons told
  cases List.map_eq_nil_iff.mp none
  simp only [List.length_cons] at enough
  obtain ⟨fuel, rfl⟩ : ∃ k, fuel = k + 3 := ⟨fuel - 3, by omega⟩
  have ends : rest.head?.any (·.kind == .slash) = false := by
    rw [Option.any_eq_false]
    exact fun t mem => by simpa using (behind.apart t mem).2
  rw [List.singleton_append, parseUnary_path word fun t mem => (behind.apart t mem).1, parsePath]
  simp only [beq_eq_false_iff_ne.mpr notRoot, Bool.false_eq_true, if_false, found, ends]
  rfl

end Parses

/-- Whether an expression, or what is left of one behind a scope, is parsed from its tokens. -/
def ParsesFrom (c : FilterContext) (binders : List Binder) (inLambda : Bool) (x : Expression) :
    Option (Scope × Frame) → Prop
  | none => Parses c binders inLambda x
  | some (scope, frame) => ∃ name tail, Continues c binders inLambda scope frame x name tail

/-- What a quantifier ranges over does not depend on the text that is read. -/
theorem Ranges.inText {c : FilterContext} {frame : Frame} {source : Source}
    {binder : String → Binder} (ranges : Ranges c frame source binder) (text : String) :
    Ranges { c with input := text } frame source binder := by
  cases ranges with
  | items found several => exact .items found several
  | related unshadowed found several bound present =>
    exact .related unshadowed found several bound present

/-- A legible expression that was read is parsed again from the tokens that it is written in. -/
theorem ReadFrom.parses {c : FilterContext} {tokens : List Token} {binders : List Binder}
    {start : Option (Scope × Frame)} {x : Expression} {inLambda : Bool}
    (read : x.ReadFrom c tokens binders start) (scanned : tokenize c.input = .ok tokens)
    (text : String) (legible : x.isLegible inLambda = true)
    (outer : inLambda = false → binders = []) (notRoot : ∀ b ∈ binders, b.name ≠ "$it") :
    ParsesFrom { c with input := text } binders inLambda x start := by
  -- One case for each way to be read; what is read behind a scope is parsed from its first name.
  induction read generalizing inLambda with
  | literal mem spelled =>
    exact .literal (Value.IsLegible.of_spells scanned mem spelled legible text).spells
  | rooted _ ih =>
    obtain ⟨name, tail, continues⟩ := ih legible outer notRoot
    exact .rooted continues outer
  | through found _ ih =>
    obtain ⟨name, tail, continues⟩ := ih legible outer notRoot
    exact .through found (notRoot _ (List.mem_of_find?_eq_some found)) continues
  | item found =>
    exact .item found (notRoot _ (List.mem_of_find?_eq_some found))
      (by simpa [isLegible] using legible)
  | not _ fit ih => exact .not (ih legible outer notRoot) fit
  | negate _ fit ih => exact .negate (ih legible outer notRoot) fit
  | binary _ _ fit ihLeft ihRight =>
    simp only [isLegible, Bool.and_eq_true, Bool.not_eq_true'] at legible
    obtain ⟨⟨loose, left⟩, right⟩ := legible
    refine .binary (ihLeft left outer notRoot) (ihRight right outer notRoot) fit ?_
    rintro rfl
    simpa using loose
  | oneOf _ _ fit some_ ih ihItems =>
    simp only [isLegible, Bool.and_eq_true, Bool.not_eq_true'] at legible
    obtain ⟨⟨loose, operand⟩, items⟩ := legible
    exact .oneOf (ih operand outer notRoot)
      (fun x mem => ihItems x mem (allLegible_iff.mp items x mem) outer notRoot) fit some_ loose
  | call _ made ihItems =>
    exact .call (fun x mem => ihItems x mem (allLegible_iff.mp legible x mem) outer notRoot) made
  | @property _ scope frame t p mem named found single =>
    have own : p.name = t.text := by simpa using List.find?_some found
    exact ⟨_, _, .property (own ▸ found) single legible⟩
  | @hop _ scope frame t n target set inner mem named unshadowed found single bound present _ ih =>
    simp only [isLegible, Bool.and_eq_true] at legible
    have own : n.name = t.text := by simpa using List.find?_some found
    obtain ⟨name, tail, continues⟩ := ih legible.2 outer notRoot
    exact ⟨_, _, .hop continues (own ▸ unshadowed) (own ▸ found) single (own ▸ bound) present
      legible.1⟩
  | nonEmpty _ _ _ ranges => exact ⟨_, _, .nonEmpty (ranges.inText text) legible⟩
  | @quantified _ _ _ _ binder _ v _ _ _ _ _ ranges _ _ other fresh _ fit ih =>
    simp only [isLegible, Bool.and_eq_true] at legible
    have name : (binder v.text).name = v.text := by
      cases ranges <;> rfl
    have inside := ih legible.2 (by simp) (List.forall_mem_cons.mpr ⟨by rwa [name], notRoot⟩)
    exact ⟨_, _, .quantified (ranges.inText text) inside fit other fresh legible.1⟩

end Expression

end EdmQuery
