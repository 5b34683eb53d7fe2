import Mathlib
import EdmQuery.Proofs.Expr.Lexers
import EdmQuery.Proofs.Expr.Reading

/-! Filters are read from what their tokens say, and close the parentheses that they open. -/

namespace EdmQuery

/-- Tokens that say the same, wherever they stand. -/
def Agree (tokens others : List Token) : Prop :=
  others.map Token.lexeme = tokens.map Token.lexeme

namespace Agree

variable {t : Token} {tokens others : List Token}

/-- No tokens agree with none. -/
theorem nil (agree : Agree [] others) : others = [] :=
  List.map_eq_nil_iff.mp agree

/-- Tokens that agree do so one by one. -/
theorem cons (agree : Agree (t :: tokens) others) :
    ∃ u more, others = u :: more ∧ u.kind = t.kind ∧ u.text = t.text ∧ Agree tokens more := by
  obtain ⟨u, more, rfl, same, rest⟩ := List.map_eq_cons_iff.mp agree
  exact ⟨u, more, rfl, congrArg Prod.fst same, congrArg Prod.snd same, rest⟩

/-- Tokens that agree start with the same kind of token. -/
theorem head_kind (agree : Agree tokens others) (kind : TokenKind) :
    others.head?.any (·.kind == kind) = tokens.head?.any (·.kind == kind) := by
  cases tokens with
  | nil => rw [agree.nil]
  | cons t tokens =>
    obtain ⟨u, more, rfl, same, -⟩ := agree.cons
    rw [List.head?_cons, List.head?_cons, Option.any_some, Option.any_some, same]

end Agree

/-- Tokens that are behind parentheses when so many are open in front of them, and none too many. -/
def Turns (k l : Nat) (used : List Token) : Prop :=
  ∀ d, turns (d + k) (used.map Token.lexeme) = some (d + l)

/--
A reading takes tokens off the front of others, with their parentheses matched up to the given ones.

It can be repeated on all tokens that say the same, against any text that they come from.
-/
def Echo (c : FilterContext) (k l : Nat) (tokens rest : List Token)
    (reads : FilterContext → List Token → List Token → Prop) : Prop :=
  (∃ used, tokens = used ++ rest ∧ Turns k l used) ∧
    ∀ input others, Agree tokens others → ∃ behind, Agree rest behind ∧
      reads ⟨c.model, input, c.root⟩ others behind

namespace Echo

variable {c : FilterContext} {j k l d : Nat} {tokens next rest : List Token} {t : Token}
  {reads reads' : FilterContext → List Token → List Token → Prop}

/-- Nothing is taken. -/
theorem here (c : FilterContext) (tokens : List Token) :
    Echo c 0 0 tokens tokens fun _ others behind => others = behind :=
  ⟨⟨[], rfl, fun _ => rfl⟩, fun _ others agree => ⟨others, agree, rfl⟩⟩

/-- A reading can be followed by another one. -/
theorem bind (first : Echo c j k tokens next reads) (second : Echo c k l next rest reads') :
    Echo c j l tokens rest fun other others behind =>
      ∃ between, Agree next between ∧ reads other others between ∧ reads' other between behind := by
  -- What the second one takes follows what the first one takes, also among tokens that agree.
  obtain ⟨⟨used, rfl, turned⟩, again⟩ := first
  obtain ⟨⟨more, rfl, turned'⟩, again'⟩ := second
  refine ⟨⟨used ++ more, (List.append_assoc ..).symm, fun d => ?_⟩, fun input others agree => ?_⟩
  · rw [turns, List.map_append, List.foldlM_append]
    exact (congrArg (Option.bind · _) (turned d)).trans (turned' d)
  · obtain ⟨between, agree', found⟩ := again input others agree
    obtain ⟨behind, agree'', found'⟩ := again' input between agree'
    exact ⟨behind, agree'', between, agree', found, found'⟩

/-- What a reading can be repeated as may be put in other words. -/
theorem mono (echo : Echo c k l tokens rest reads)
    (imp : ∀ input others behind, Agree tokens others → Agree rest behind →
      reads ⟨c.model, input, c.root⟩ others behind → reads' ⟨c.model, input, c.root⟩ others behind) :
    Echo c k l tokens rest reads' := by
  refine ⟨echo.1, fun input others agree => ?_⟩
  obtain ⟨behind, agree', found⟩ := echo.2 input others agree
  exact ⟨behind, agree', imp input others behind agree agree' found⟩

/-- More parentheses around a reading stay open. -/
theorem lift (echo : Echo c 0 0 tokens rest reads) (k : Nat) : Echo c k k tokens rest reads := by
  obtain ⟨⟨used, same, turned⟩, again⟩ := echo
  exact ⟨⟨used, same, fun d => turned (d + k)⟩, again⟩

/-- A token is taken. -/
theorem token (turn : ∀ d, t.kind.turn (d + k) = some (d + l)) :
    Echo c k l (t :: tokens) tokens fun _ others behind =>
      ∃ u, u.kind = t.kind ∧ u.text = t.text ∧ others = u :: behind := by
  refine ⟨⟨[t], rfl, fun d => ?_⟩, fun input others agree => ?_⟩
  · rw [turns, List.map_singleton, List.foldlM_cons]
    exact (congrArg (Option.bind · _) (turn d)).trans rfl
  · obtain ⟨u, more, rfl, kind, text, agree⟩ := agree.cons
    exact ⟨more, agree, u, kind, text, rfl⟩

/-- A token of another kind than parentheses is taken. -/
theorem plain (c : FilterContext) (quiet : ∀ d, t.kind.turn d = some d) (tokens : List Token) :
    Echo c 0 0 (t :: tokens) tokens fun _ others behind =>
      ∃ u, u.kind = t.kind ∧ u.text = t.text ∧ others = u :: behind :=
  token fun d => quiet d

/-- An expected token is taken. -/
theorem expect (kind : TokenKind) {what : String} (turn : ∀ d, kind.turn (d + k) = some (d + l))
    (read : c.expect kind what tokens = .ok (t, rest)) :
    Echo c k l tokens rest fun other others behind =>
      ∃ u, u.text = t.text ∧ other.expect kind what others = .ok (u, behind) := by
  obtain ⟨rfl, rfl⟩ := Expression.expect_ok read
  refine (token turn).mono fun input others behind _ _ ⟨u, same, text, whole⟩ => ⟨u, text, ?_⟩
  rw [whole, FilterContext.expect, same, if_pos (beq_self_eq_true _)]

end Echo

/-- A literal has the value that its token says, whatever text it stands in. -/
theorem Token.value_of_lexeme {t u : Token} {m : Model} {input : String} {value : Value}
    (kind : u.kind = t.kind) (text : u.text = t.text) (other : String)
    (read : t.value m input = .ok value) : u.value m other = .ok value := by
  have found {what : String} {found : Option Scalar}
      (read : t.orInvalid input what found = .ok value) :
      u.orInvalid other what found = .ok value := by
    cases found with
    | none => cases read
    | some s => exact read
  rw [Token.value] at read ⊢
  rw [kind, text]
  -- Only the faults name the text: those of an enumeration value have a wording of their own.
  split at read
  case h_12 =>
    rw [Token.enumValue] at read ⊢
    rw [text]
    split at read
    · cases read
    · exact read
  case h_13 => cases read
  all_goals first | exact found read | exact read

namespace Expression

/-- What the functions that read filters with some fuel do, they do on all tokens that agree. -/
structure Echoes (c : FilterContext) (fuel : Nat) : Prop where
  expression {depth least : Nat} {binders : List Binder} {tokens rest : List Token} {x : Expression}
      (read : parseExpression c fuel depth binders least tokens = .ok (x, rest)) :
      Echo c 0 0 tokens rest fun other others behind =>
        parseExpression other fuel depth binders least others = .ok (x, behind)
  climb {depth least : Nat} {binders : List Binder} {tokens rest : List Token} {left x : Expression}
      (read : parseClimb c fuel depth binders least left tokens = .ok (x, rest)) :
      Echo c 0 0 tokens rest fun other others behind =>
        parseClimb other fuel depth binders least left others = .ok (x, behind)
  alternatives {depth : Nat} {binders : List Binder} {type : StaticType} {tokens rest : List Token}
      {items : List Expression}
      (read : parseAlternatives c fuel depth binders type tokens = .ok (items, rest)) :
      Echo c 0 0 tokens rest fun other others behind =>
        parseAlternatives other fuel depth binders type others = .ok (items, behind)
  unary {depth : Nat} {binders : List Binder} {tokens rest : List Token} {x : Expression}
      (read : parseUnary c fuel depth binders tokens = .ok (x, rest)) :
      Echo c 0 0 tokens rest fun other others behind =>
        parseUnary other fuel depth binders others = .ok (x, behind)
  primary {depth : Nat} {binders : List Binder} {t : Token} {tokens rest : List Token}
      {x : Expression} (read : parsePrimary c fuel depth binders t tokens = .ok (x, rest)) :
      Echo c 0 0 (t :: tokens) rest fun other others behind => ∃ u more, others = u :: more ∧
        parsePrimary other fuel depth binders u more = .ok (x, behind)
  call {depth : Nat} {binders : List Binder} {t : Token} {tokens rest : List Token}
      {x : Expression} (read : parseCall c fuel depth binders t tokens = .ok (x, rest)) :
      Echo c 0 0 tokens rest fun other others behind => ∀ u : Token, u.text = t.text →
        parseCall other fuel depth binders u others = .ok (x, behind)
  arguments {depth : Nat} {binders : List Binder} {tokens rest : List Token}
      {items : List Expression}
      (read : parseArguments c fuel depth binders tokens = .ok (items, rest)) :
      Echo c 0 0 tokens rest fun other others behind =>
        parseArguments other fuel depth binders others = .ok (items, behind)
  path {depth : Nat} {binders : List Binder} {t : Token} {tokens rest : List Token}
      {x : Expression} (read : parsePath c fuel depth binders t tokens = .ok (x, rest)) :
      Echo c 0 0 tokens rest fun other others behind => ∀ u : Token, u.text = t.text →
        parsePath other fuel depth binders u others = .ok (x, behind)
  segment {depth : Nat} {binders : List Binder} {scope : Scope} {frame : Frame} {t : Token}
      {tokens rest : List Token} {x : Expression}
      (read : parseSegment c fuel depth binders scope frame t tokens = .ok (x, rest)) :
      Echo c 0 0 tokens rest fun other others behind => ∀ u : Token, u.text = t.text →
        parseSegment other fuel depth binders scope frame u others = .ok (x, behind)
  quantifier {depth : Nat} {binders : List Binder} {scope : Scope} {source : Source}
      {binder : String → Binder} {tokens rest : List Token} {x : Expression}
      (read : parseQuantifier c fuel depth binders scope source binder tokens = .ok (x, rest)) :
      Echo c 0 0 tokens rest fun other others behind =>
        parseQuantifier other fuel depth binders scope source binder others = .ok (x, behind)

section

variable {c : FilterContext} {fuel depth : Nat} {binders : List Binder} {tokens rest : List Token}
  {x : Expression}

/-- Without fuel nothing is read. -/
theorem echoes_zero : Echoes c 0 where
  expression read := by simp [parseExpression] at read
  climb read := by simp [parseClimb] at read
  alternatives read := by simp [parseAlternatives] at read
  unary read := by simp [parseUnary] at read
  primary read := by simp [parsePrimary] at read
  call read := by simp [parseCall] at read
  arguments read := by simp [parseArguments] at read
  path read := by simp [parsePath] at read
  segment read := by simp [parseSegment] at read
  quantifier read := by simp [parseQuantifier] at read

/-- An expression is an operand and the operators that follow it. -/
theorem Echoes.expression_step (ih : Echoes c fuel) {least : Nat}
    (read : parseExpression c (fuel + 1) depth binders least tokens = .ok (x, rest)) :
    Echo c 0 0 tokens rest fun other others behind =>
      parseExpression other (fuel + 1) depth binders least others = .ok (x, behind) := by
  rw [parseExpression] at read
  split at read
  · cases read
  rename_i within
  split at read
  · cases read
  -- The operand and what follows it are read from tokens that agree, and so is the whole.
  rename_i left next operand
  refine ((ih.unary operand).bind (ih.climb read)).mono ?_
  rintro input others behind - - ⟨between, -, operand, climbed⟩
  rw [parseExpression, if_neg within, operand]
  exact climbed

/-- Operators that follow an operand take it as their left one. -/
theorem Echoes.climb_step (ih : Echoes c fuel) {least : Nat} {left : Expression}
    (read : parseClimb c (fuel + 1) depth binders least left tokens = .ok (x, rest)) :
    Echo c 0 0 tokens rest fun other others behind =>
      parseClimb other (fuel + 1) depth binders least left others = .ok (x, behind) := by
  rcases tokens with _ | ⟨t, more⟩
  · -- At the end of the tokens there is no operator.
    rw [parseClimb] at read
    cases read
    refine (Echo.here c []).mono ?_
    rintro input others behind agree - rfl
    rw [agree.nil, parseClimb]
  rw [parseClimb] at read
  split at read
  · rename_i other
    cases read
    refine (Echo.here c _).mono ?_
    rintro input others behind agree - rfl
    obtain ⟨u, more, rfl, kind, -⟩ := agree.cons
    rw [parseClimb, kind, if_pos other]
  rename_i named
  have kind : t.kind = .identifier := by simpa using named
  have word := Echo.plain c (t := t) (fun d => by rw [kind]; rfl) more
  -- An operator that does not go on stays where it is.
  have stop {next : List Token} (same : next = t :: more)
      (halts : ∀ other u, u.kind = t.kind → u.text = t.text → ∀ others,
        parseClimb other (fuel + 1) depth binders least left (u :: others) = .ok (left, u :: others)) :
      Echo c 0 0 (t :: more) next fun other others behind =>
        parseClimb other (fuel + 1) depth binders least left others = .ok (left, behind) := by
    subst same
    refine (Echo.here c _).mono ?_
    rintro input others behind agree - rfl
    obtain ⟨u, rest, rfl, kind, text, -⟩ := agree.cons
    exact halts _ u kind text rest
  split at read
  · rename_i among
    split at read
    · rename_i loose
      cases read
      refine stop rfl fun other u kind text others => ?_
      rw [parseClimb, kind, text, if_neg named, if_pos among, if_pos loose]
    rename_i tight
    split at read
    · cases read
    rename_i opened
    split at read
    · cases read
    rename_i items next listed
    split at read
    · cases read
    rename_i closed
    -- The list of alternatives stands in parentheses of its own.
    refine (word.bind <| (Echo.expect (l := 1) .openParen (fun _ => rfl) opened).bind <|
      ((ih.alternatives listed).lift 1).bind <|
      (Echo.expect .closeParen (fun _ => rfl) closed).bind (ih.climb read)).mono ?_
    rintro input others behind - -
      ⟨a, -, ⟨u, kind, text, rfl⟩, b, -, ⟨o, -, opened⟩, d, -, listed, e, -, ⟨p, -, closed⟩, climbed⟩
    rw [parseClimb, kind, text, if_neg named, if_pos among, if_neg tight, opened]
    simp only [listed, closed, climbed]
  · rename_i other_
    split at read
    · rename_i none_
      cases read
      refine stop rfl fun other u kind text others => ?_
      rw [parseClimb, kind, text, if_neg named, if_neg other_, none_]
    rename_i op known
    split at read
    · rename_i loose
      cases read
      refine stop rfl fun other u kind text others => ?_
      rw [parseClimb, kind, text, if_neg named, if_neg other_, known]
      exact if_pos loose
    rename_i tight
    split at read
    · cases read
    rename_i right next operand
    split at read
    · cases read
    rename_i node made
    refine (word.bind <| (ih.expression operand).bind (ih.climb read)).mono ?_
    rintro input others behind - - ⟨a, -, ⟨u, kind, text, rfl⟩, b, -, operand, climbed⟩
    rw [parseClimb, kind, text, if_neg named, if_neg other_, known]
    simp only [if_neg tight, operand, made, climbed]

/-- Alternatives are expressions that compare with the operand before their list. -/
theorem Echoes.alternatives_step (ih : Echoes c fuel) {type : StaticType} {items : List Expression}
    (read : parseAlternatives c (fuel + 1) depth binders type tokens = .ok (items, rest)) :
    Echo c 0 0 tokens rest fun other others behind =>
      parseAlternatives other (fuel + 1) depth binders type others = .ok (items, behind) := by
  rw [parseAlternatives] at read
  split at read
  · cases read
  rename_i x next first
  split at read
  · cases read
  rename_i fit
  split at read
  · rename_i t more
    split at read
    · rename_i comma
      obtain ⟨⟨others, last⟩, found, same⟩ := map_ok read
      cases same
      have kind : t.kind = .comma := eq_of_beq comma
      refine ((ih.expression first).bind <|
        (Echo.plain c (fun d => by rw [kind]; rfl) more).bind (ih.alternatives found)).mono ?_
      rintro input others behind - - ⟨a, -, first, b, -, ⟨u, kind, -, rfl⟩, found⟩
      rw [parseAlternatives, first]
      simp only [if_neg fit, kind, if_pos comma, found, Except.map]
    · rename_i comma
      cases read
      refine (ih.expression first).mono ?_
      rintro input others behind - agree first
      obtain ⟨u, more, rfl, kind, -⟩ := agree.cons
      rw [parseAlternatives, first]
      simp only [if_neg fit, kind, if_neg comma]
  · cases read
    refine (ih.expression first).mono ?_
    rintro input others behind - agree first
    rw [parseAlternatives, first, agree.nil]
    simp only [if_neg fit]

/-- An operand may have operators in front of it. -/
theorem Echoes.unary_step (ih : Echoes c fuel)
    (read : parseUnary c (fuel + 1) depth binders tokens = .ok (x, rest)) :
    Echo c 0 0 tokens rest fun other others behind =>
      parseUnary other (fuel + 1) depth binders others = .ok (x, behind) := by
  rcases tokens with _ | ⟨t, more⟩
  · rw [parseUnary] at read
    cases read
  rw [parseUnary] at read
  split at read
  · rename_i word
    split at read
    · cases read
    rename_i operand next inner
    obtain ⟨node, made, same⟩ := map_ok read
    cases same
    have kind : t.kind = .identifier := eq_of_beq (Bool.and_eq_true _ _ ▸ word).1
    refine ((Echo.plain c (fun d => by rw [kind]; rfl) more).bind (ih.expression inner)).mono ?_
    rintro input others behind - - ⟨a, -, ⟨u, kind, text, rfl⟩, inner⟩
    rw [parseUnary, kind, text, if_pos word, inner]
    simp only [made, Except.map]
  rename_i word
  split at read
  · rename_i sign
    split at read
    · cases read
    rename_i operand next inner
    obtain ⟨node, made, same⟩ := map_ok read
    cases same
    have kind : t.kind = .minus := eq_of_beq sign
    refine ((Echo.plain c (fun d => by rw [kind]; rfl) more).bind (ih.expression inner)).mono ?_
    rintro input others behind - - ⟨a, -, ⟨u, kind, text, rfl⟩, inner⟩
    rw [parseUnary, kind, text, if_neg word, if_pos sign, inner]
    simp only [made, Except.map]
  rename_i sign
  refine (ih.primary read).mono ?_
  rintro input others behind agree - ⟨u, others, rfl, found⟩
  obtain ⟨v, same, cons, kind, text, -⟩ := agree.cons
  cases cons
  rw [parseUnary, kind, text, if_neg word, if_neg sign, found]

/-- An operand is in parentheses, a call, a path or a literal. -/
theorem Echoes.primary_step (ih : Echoes c fuel) {t : Token}
    (read : parsePrimary c (fuel + 1) depth binders t tokens = .ok (x, rest)) :
    Echo c 0 0 (t :: tokens) rest fun other others behind => ∃ u more, others = u :: more ∧
      parsePrimary other (fuel + 1) depth binders u more = .ok (x, behind) := by
  rw [parsePrimary] at read
  split at read
  · rename_i opening
    split at read
    · cases read
    rename_i inner next found
    obtain ⟨⟨u, last⟩, closed, same⟩ := map_ok read
    cases same
    refine ((Echo.token (l := 1) fun d => by rw [opening]; rfl).bind <|
      ((ih.expression found).lift 1).bind (Echo.expect .closeParen (fun _ => rfl) closed)).mono ?_
    rintro input others behind - - ⟨a, -, ⟨u, kind, -, rfl⟩, b, -, found, p, -, closed⟩
    refine ⟨u, a, rfl, ?_⟩
    rw [parsePrimary, kind, opening]
    simp only [found, closed, Except.map]
  · rename_i named
    have word := Echo.plain c (fun d => by rw [named]; rfl) tokens (t := t)
    split at read
    · rename_i opens
      refine (word.bind (ih.call read)).mono ?_
      rintro input others behind agree - ⟨a, agree', ⟨u, kind, text, rfl⟩, found⟩
      refine ⟨u, a, rfl, ?_⟩
      rw [parsePrimary, kind, named]
      simp only [agree'.head_kind, if_pos opens, found u text]
    · rename_i opens
      refine (word.bind (ih.path read)).mono ?_
      rintro input others behind agree - ⟨a, agree', ⟨u, kind, text, rfl⟩, found⟩
      refine ⟨u, a, rfl, ?_⟩
      rw [parsePrimary, kind, named]
      simp only [agree'.head_kind, if_neg opens, found u text]
  any_goals cases read
  rename_i opening named closing comma slash colon minus
  -- What is left are literals.
  obtain ⟨value, spelled, same⟩ := map_ok read
  cases same
  have quiet : ∀ d, t.kind.turn d = some d :=
    Lexer.turn_of_ne opening closing
  refine (Echo.plain c quiet tokens).mono ?_
  rintro input others behind - - ⟨u, kind, text, rfl⟩
  refine ⟨u, behind, rfl, ?_⟩
  have again := Token.value_of_lexeme kind text input spelled
  rw [parsePrimary, kind]
  split
  all_goals first | contradiction | skip
  rw [again]
  rfl

/-- A call is made wherever it stands. -/
theorem mkCall_elsewhere {position : Nat} {f : BuiltIn} {items : List Expression}
    (made : mkCall c position f items = .ok x) (other : FilterContext) (position' : Nat) :
    mkCall other position' f items = .ok x := by
  rw [mkCall] at made ⊢
  split at made
  · cases made
  split at made
  · split at made
    · rename_i pattern
      cases made
      simp only [pattern, if_true]
    · cases made
  · cases made
    rfl

/-- A call names a function and has its arguments in parentheses. -/
theorem Echoes.call_step (ih : Echoes c fuel) {t : Token}
    (read : parseCall c (fuel + 1) depth binders t tokens = .ok (x, rest)) :
    Echo c 0 0 tokens rest fun other others behind => ∀ u : Token, u.text = t.text →
      parseCall other (fuel + 1) depth binders u others = .ok (x, behind) := by
  rw [parseCall] at read
  split at read
  · cases read
  -- The parentheses around the arguments cancel out.
  rename_i f known
  split at read
  · cases read
  rename_i inside opened
  dsimp only at read
  split at read
  · cases read
  rename_i items next listed
  split at read
  · cases read
  rename_i closed
  obtain ⟨node, made, same⟩ := map_ok read
  cases same
  have opens := Echo.expect (k := 0) (l := 1) .openParen (fun _ => rfl) opened
  have closes := Echo.expect (k := 1) (l := 0) .closeParen (fun _ => rfl) closed
  split at listed
  · rename_i empty
    cases listed
    refine (opens.bind closes).mono ?_
    rintro input others behind - - ⟨a, agree, ⟨o, -, opened⟩, p, -, closed⟩ u text
    rw [parseCall, text, known]
    simp only [opened, agree.head_kind, if_pos empty, closed, mkCall_elsewhere made, Except.map]
  · rename_i some_
    refine (opens.bind (((ih.arguments listed).lift 1).bind closes)).mono ?_
    rintro input others behind - - ⟨a, agree, ⟨o, -, opened⟩, b, -, listed, p, -, closed⟩ u text
    rw [parseCall, text, known]
    simp only [opened, agree.head_kind, if_neg some_, listed, closed, mkCall_elsewhere made,
      Except.map]

/-- Arguments are expressions. -/
theorem Echoes.arguments_step (ih : Echoes c fuel) {items : List Expression}
    (read : parseArguments c (fuel + 1) depth binders tokens = .ok (items, rest)) :
    Echo c 0 0 tokens rest fun other others behind =>
      parseArguments other (fuel + 1) depth binders others = .ok (items, behind) := by
  rw [parseArguments] at read
  split at read
  · cases read
  rename_i x next first
  split at read
  · rename_i t more
    split at read
    · rename_i comma
      obtain ⟨⟨others, last⟩, found, same⟩ := map_ok read
      cases same
      have kind : t.kind = .comma := eq_of_beq comma
      refine ((ih.expression first).bind <|
        (Echo.plain c (fun d => by rw [kind]; rfl) more).bind (ih.arguments found)).mono ?_
      rintro input others behind - - ⟨a, -, first, b, -, ⟨u, kind, -, rfl⟩, found⟩
      rw [parseArguments, first]
      simp only [kind, if_pos comma, found, Except.map]
    · rename_i comma
      cases read
      refine (ih.expression first).mono ?_
      rintro input others behind - agree first
      obtain ⟨u, more, rfl, kind, -⟩ := agree.cons
      rw [parseArguments, first]
      simp only [kind, if_neg comma]
  · cases read
    refine (ih.expression first).mono ?_
    rintro input others behind - agree first
    rw [parseArguments, first, agree.nil]

/-- A name without a path belongs to the same frame whatever text it comes from. -/
theorem implicitFrame_elsewhere (c : FilterContext) (input : String) (binders : List Binder) :
    FilterContext.implicitFrame ⟨c.model, input, c.root⟩ binders = c.implicitFrame binders := by
  -- The search goes through the binders and ends at the root, which are the same.
  induction binders with
  | nil => rfl
  | cons b others ih =>
    cases b with
    | entity => rfl
    | element => exact ih

/-- A path starts at the root, at a variable, or where names without a path belong. -/
theorem Echoes.path_step (ih : Echoes c fuel) {t : Token}
    (read : parsePath c (fuel + 1) depth binders t tokens = .ok (x, rest)) :
    Echo c 0 0 tokens rest fun other others behind => ∀ u : Token, u.text = t.text →
      parsePath other (fuel + 1) depth binders u others = .ok (x, behind) := by
  rw [parsePath] at read
  split at read
  -- The name tells where the path starts, whatever text it stands in.
  · rename_i root
    split at read
    · cases read
    rename_i slash
    split at read
    · cases read
    rename_i name next word
    refine ((Echo.expect .slash (fun _ => rfl) slash).bind <|
      (Echo.expect .identifier (fun _ => rfl) word).bind (ih.segment read)).mono ?_
    rintro input others behind - - ⟨a, -, ⟨o, -, slash⟩, b, -, ⟨v, same, word⟩, found⟩ u text
    rw [parsePath, text, if_pos root, slash]
    simp only [FilterContext.expectName, word, found v same]
  rename_i root
  split at read
  · rename_i name target bound
    split at read
    · cases read
    rename_i slash
    split at read
    · cases read
    rename_i segment next word
    refine ((Echo.expect .slash (fun _ => rfl) slash).bind <|
      (Echo.expect .identifier (fun _ => rfl) word).bind (ih.segment read)).mono ?_
    rintro input others behind - - ⟨a, -, ⟨o, -, slash⟩, b, -, ⟨v, same, word⟩, found⟩ u text
    rw [parsePath, text, if_neg root, bound]
    simp only [slash, FilterContext.expectName, word, found v same]
  · rename_i name type bound
    split at read
    · cases read
    rename_i ends
    cases read
    refine (Echo.here c _).mono ?_
    rintro input others behind agree - rfl u text
    rw [parsePath, text, if_neg root, bound]
    simp only [agree.head_kind, if_neg ends]
  · rename_i free
    refine (ih.segment read).mono ?_
    intro input others behind _ _ found u text
    rw [parsePath, text, if_neg root, free]
    simp only [implicitFrame_elsewhere, found u text]

/-- A segment names a property, a quantifier's range, or a navigation property to follow. -/
theorem Echoes.segment_step (ih : Echoes c fuel) {scope : Scope} {frame : Frame} {t : Token}
    (read : parseSegment c (fuel + 1) depth binders scope frame t tokens = .ok (x, rest)) :
    Echo c 0 0 tokens rest fun other others behind => ∀ u : Token, u.text = t.text →
      parseSegment other (fuel + 1) depth binders scope frame u others = .ok (x, behind) := by
  rw [parseSegment] at read
  split at read
  -- A name is looked up among the properties first, then among the navigation properties.
  · rename_i p declared
    split at read
    · rename_i several
      split at read
      · rename_i v more
        split at read
        · rename_i slash
          have kind : v.kind = .slash := eq_of_beq slash
          refine ((Echo.plain c (fun d => by rw [kind]; rfl) more).bind (ih.quantifier read)).mono ?_
          rintro input others behind - - ⟨a, -, ⟨w, same, -, rfl⟩, found⟩ u text
          rw [parseSegment, text, declared]
          simp only [if_pos several, same, if_pos slash, found]
        · cases read
      · cases read
    · rename_i single
      split at read
      · cases read
      rename_i ends
      cases read
      refine (Echo.here c _).mono ?_
      rintro input others behind agree - rfl u text
      rw [parseSegment, text, declared]
      simp only [if_neg single, agree.head_kind, if_neg ends]
  rename_i undeclared
  split at read
  · cases read
  rename_i n declared
  split at read
  · cases read
  rename_i target bound
  split at read
  · cases read
  rename_i set present
  dsimp only at read
  split at read
  · rename_i several
    split at read
    · rename_i v more
      split at read
      · rename_i slash
        have kind : v.kind = .slash := eq_of_beq slash
        refine ((Echo.plain c (fun d => by rw [kind]; rfl) more).bind (ih.quantifier read)).mono ?_
        rintro input others behind - - ⟨a, -, ⟨w, same, -, rfl⟩, found⟩ u text
        rw [parseSegment, text, undeclared, declared]
        simp only [bound, present, if_pos several, same, if_pos slash, found]
      · cases read
    · cases read
  · rename_i single
    split at read
    · cases read
    rename_i slash
    split at read
    · cases read
    rename_i name next word
    obtain ⟨⟨inner, last⟩, walked, same⟩ := map_ok read
    cases same
    refine ((Echo.expect .slash (fun _ => rfl) slash).bind <|
      (Echo.expect .identifier (fun _ => rfl) word).bind (ih.segment walked)).mono ?_
    rintro input others behind - - ⟨a, -, ⟨o, -, slash⟩, b, -, ⟨v, same, word⟩, found⟩ u text
    rw [parseSegment, text, undeclared, declared]
    simp only [bound, present, if_neg single, slash, FilterContext.expectName, word, found v same,
      Except.map]

/-- A quantifier has a condition on a new variable, or none when it asks for any member. -/
theorem Echoes.quantifier_step (ih : Echoes c fuel) {scope : Scope} {source : Source}
    {binder : String → Binder}
    (read : parseQuantifier c (fuel + 1) depth binders scope source binder tokens = .ok (x, rest)) :
    Echo c 0 0 tokens rest fun other others behind =>
      parseQuantifier other (fuel + 1) depth binders scope source binder others
        = .ok (x, behind) := by
  rw [parseQuantifier] at read
  split at read
  · cases read
  rename_i word next keyword
  split at read
  · cases read
  rename_i quantifier known
  split at read
  · cases read
  rename_i inside opened
  -- The keyword and the parenthesis behind it are taken in either case.
  have starts := (Echo.expect .identifier (fun _ => rfl) keyword).bind <|
    Echo.expect (k := 0) (l := 1) .openParen (fun _ => rfl) opened
  split at read
  · rename_i empty
    split at read
    · cases read
    rename_i any_
    cases read
    cases inside with
    | nil => cases empty
    | cons p rest =>
      have kind : p.kind = .closeParen := eq_of_beq empty
      have closes : Echo c 1 0 (p :: rest) rest fun _ others behind =>
          ∃ u, u.kind = p.kind ∧ u.text = p.text ∧ others = u :: behind :=
        Echo.token fun d => by rw [kind]; rfl
      refine (starts.bind closes).mono ?_
      rintro input others behind - -
        ⟨a, agree, ⟨b, -, ⟨w, text, keyword⟩, o, -, opened⟩, q, same, -, rfl⟩
      rw [parseQuantifier, FilterContext.expectName, keyword]
      simp only [text, known, opened, agree.head_kind, if_pos empty, if_neg any_, List.drop_one,
        List.tail_cons]
  rename_i some_
  split at read
  · cases read
  rename_i v next variable_
  split at read
  · cases read
  rename_i fresh
  split at read
  · cases read
  rename_i colon
  split at read
  · cases read
  rename_i predicate next inner
  split at read
  · cases read
  rename_i node made
  obtain ⟨⟨u, last⟩, closed, same⟩ := map_ok read
  cases same
  -- A variable and its condition stand inside of the parenthesis.
  have lambda_ := (Echo.expect .identifier (fun _ => rfl) variable_).bind <|
    (Echo.expect .colon (fun _ => rfl) colon).bind (ih.expression inner)
  refine (starts.bind <| (lambda_.lift 1).bind
    (Echo.expect .closeParen (fun _ => rfl) closed)).mono ?_
  rintro input others behind - -
    ⟨a, agree, ⟨b, -, ⟨w, text, keyword⟩, o, -, opened⟩, d, -,
      ⟨e, -, ⟨v', same, variable_⟩, f, -, ⟨p, -, colon⟩, inner⟩, q, -, closed⟩
  rw [parseQuantifier, FilterContext.expectName, keyword]
  simp only [text, known, opened, agree.head_kind, if_neg some_, FilterContext.expectName,
    variable_, same, if_neg fresh, colon, inner, made, closed, Except.map]

end

/-- Whatever the fuel, what is read from tokens is read from all that say the same. -/
theorem echoes (c : FilterContext) (fuel : Nat) : Echoes c fuel := by
  -- Every function calls the others with one less of the fuel.
  induction fuel with
  | zero => exact echoes_zero
  | succ fuel ih =>
    exact {
      expression := ih.expression_step
      climb := ih.climb_step
      alternatives := ih.alternatives_step
      unary := ih.unary_step
      primary := ih.primary_step
      call := ih.call_step
      arguments := ih.arguments_step
      path := ih.path_step
      segment := ih.segment_step
      quantifier := ih.quantifier_step }

/-- Tokens that are read as a filter are so wherever they stand. -/
theorem ofTokens_elsewhere {c : FilterContext} {tokens others : List Token} {x : Expression}
    (read : ofTokens c tokens = .ok x) (agree : Agree tokens others) (input : String) :
    ofTokens ⟨c.model, input, c.root⟩ others = .ok x := by
  rw [ofTokens] at read ⊢
  split at read
  · cases read
  rename_i some_
  -- There are as many tokens, and so the fuel is the same.
  have length : others.length = tokens.length := by
    have := congrArg List.length agree
    rwa [List.length_map, List.length_map] at this
  have some_' : ¬ others.isEmpty = true := by
    rw [List.isEmpty_iff_length_eq_zero] at some_ ⊢
    rwa [length]
  have fuel : parseFuel others = parseFuel tokens := by rw [parseFuel, parseFuel, length]
  rw [if_neg some_', fuel]
  split at read
  · cases read
  · cases read
  · rename_i y parsed
    obtain ⟨behind, agree', parsed⟩ := ((echoes c _).expression parsed).2 input others agree
    rw [parsed, agree'.nil]
    exact read

/-- Tokens that are read as a filter close all parentheses that they open. -/
theorem turns_of_ofTokens {c : FilterContext} {tokens : List Token} {x : Expression}
    (read : ofTokens c tokens = .ok x) (d : Nat) :
    turns d (tokens.map Token.lexeme) = some d := by
  rw [ofTokens] at read
  split at read
  · cases read
  split at read
  · cases read
  · cases read
  · rename_i y parsed
    obtain ⟨⟨used, rfl, turned⟩, -⟩ := (echoes c _).expression parsed
    rw [List.append_nil]
    exact turned d

end Expression

section

variable {m : Model} {set text : String} {x : Expression}

/-- The text of a filter closes what it opens, and nothing in it ends an option text. -/
theorem enclosed_of_parseFilter (read : parseFilter m set text = .ok x) : Enclosed text.toList := by
  rw [parseFilter] at read
  split at read
  · cases read
  split at read
  · cases read
  rename_i tokens tokenized
  rw [Enclosed, through_of_tokenize tokenized, Expression.turns_of_ofTokens read]
  rfl

/-- A filter is the same without the blanks around it. -/
theorem parseFilter_trim (read : parseFilter m set text = .ok x) :
    parseFilter m set (Text.trim text) = .ok x := by
  rw [parseFilter] at read ⊢
  split at read
  · cases read
  split at read
  · cases read
  rename_i tokens tokenized
  obtain ⟨others, trimmed, agree⟩ := tokenize_trim tokenized
  rw [trimmed]
  exact Expression.ofTokens_elsewhere read agree (Text.trim text)

end

end EdmQuery
