import Mathlib
import EdmQuery.Proofs.Expr.RoundTrip
import EdmQuery.Proofs.Expr.Scoping

/-! How high the trees of filters get: levels of nesting are limited, chains on a level are not. -/

namespace EdmQuery

/-- A height is reached with levels of so many nodes at most, of which the first begins with a run. -/
def HeightWithin (nodes height levels run : Nat) : Prop :=
  height + nodes ≤ levels * nodes + run + 1

namespace HeightWithin

variable {nodes height other levels more run longer : Nat}

/-- A leaf is a level. -/
theorem leaf (nodes run : Nat) : HeightWithin nodes 1 1 run := by
  unfold HeightWithin
  omega

/-- A node on top of a tree starts another level. -/
theorem level (within : HeightWithin nodes height levels run) (room : run < nodes)
    (deeper : levels + 1 ≤ more) (longer : Nat) : HeightWithin nodes (height + 1) more longer := by
  unfold HeightWithin at *
  have wide : (levels + 1) * nodes ≤ more * nodes := Nat.mul_le_mul_right nodes deeper
  rw [Nat.add_mul] at wide
  omega

/-- A node on top of a tree goes on with its level when it makes the run longer. -/
theorem step (within : HeightWithin nodes height levels run) (deeper : levels ≤ more)
    (onward : run + 1 ≤ longer) : HeightWithin nodes (height + 1) more longer := by
  unfold HeightWithin at *
  have wide : levels * nodes ≤ more * nodes := Nat.mul_le_mul_right nodes deeper
  omega

/-- The higher one of two trees is within what both of them are. -/
theorem both (first : HeightWithin nodes height levels run)
    (second : HeightWithin nodes other levels run) :
    HeightWithin nodes (max height other) levels run := by
  rcases Nat.le_total height other with le | le
  · rwa [Nat.max_eq_right le]
  · rwa [Nat.max_eq_left le]

/-- A height is at most that of full levels. -/
theorem le_mul (within : HeightWithin nodes height levels run) (room : run < nodes) :
    height ≤ levels * nodes := by
  unfold HeightWithin at within
  omega

end HeightWithin

namespace Expression

mutual

/-- How far down the lowest node of a tree is, where a step along a chain of operators or hops
counts for as much as is given, and any other step for one. -/
def depth (step : Nat) : Expression → Nat
  | hop _ _ _ inner => inner.depth step + step
  | not operand => operand.depth step + 1
  | negate operand => operand.depth step + 1
  | binary _ left right => max (left.depth step + step) (right.depth step + 1)
  | oneOf operand items => max (operand.depth step + step) (greatestDepth step items + 1)
  | call _ arguments _ => greatestDepth step arguments + 1
  | quantified _ _ _ _ predicate => predicate.depth step + 1
  | _ => 1

/-- How far down the lowest node of several trees is. -/
def greatestDepth (step : Nat) : List Expression → Nat
  | [] => 0
  | x :: rest => max (x.depth step) (greatestDepth step rest)

end

/-- How many nodes the longest way down a tree has. -/
abbrev height (x : Expression) : Nat :=
  x.depth 1

/-- How many levels of nesting a tree has, where chains of operators or hops stay on their level. -/
abbrev levels (x : Expression) : Nat :=
  x.depth 0

/-- How many operators or hops a tree starts with before there is another level. -/
def run : Expression → Nat
  | hop _ _ _ inner => inner.run + 1
  | binary _ left _ => left.run + 1
  | oneOf operand _ => operand.run + 1
  | _ => 0

mutual

/-- The longest chain of operators or hops on a level of a tree. -/
def longestRun : Expression → Nat
  | hop _ _ _ inner => max (inner.run + 1) inner.longestRun
  | not operand => operand.longestRun
  | negate operand => operand.longestRun
  | binary _ left right => max (left.run + 1) (max left.longestRun right.longestRun)
  | oneOf operand items => max (operand.run + 1) (max operand.longestRun (greatestRun items))
  | call _ arguments _ => greatestRun arguments
  | quantified _ _ _ _ predicate => predicate.longestRun
  | _ => 0

/-- The longest chain on a level of several trees. -/
def greatestRun : List Expression → Nat
  | [] => 0
  | x :: rest => max x.longestRun (greatestRun rest)

end

section

variable {items : List Expression} {n step : Nat}

/-- Trees are at most so deep when each of them is. -/
theorem greatestDepth_le : greatestDepth step items ≤ n ↔ ∀ x ∈ items, x.depth step ≤ n := by
  induction items with
  | nil => simp [greatestDepth]
  | cons x rest ih => rw [greatestDepth, Nat.max_le, ih, List.forall_mem_cons]

/-- A single tree is as deep as it is. -/
theorem greatestDepth_singleton (step : Nat) (x : Expression) :
    greatestDepth step [x] = x.depth step :=
  Nat.max_zero _

/-- Trees have chains of at most a length when each of them has. -/
theorem greatestRun_le : greatestRun items ≤ n ↔ ∀ x ∈ items, x.longestRun ≤ n := by
  induction items with
  | nil => simp [greatestRun]
  | cons x rest ih => rw [greatestRun, Nat.max_le, ih, List.forall_mem_cons]

end

/-- The chain that a tree starts with is no longer than the longest one. -/
theorem run_le_longestRun (x : Expression) : x.run ≤ x.longestRun := by
  cases x with
  | hop | binary | oneOf =>
    rw [run, longestRun]
    exact Nat.le_max_left _ _
  | _ => exact Nat.zero_le _

/-- A node on top of several trees starts another level. -/
theorem heightWithin_greatest {items : List Expression} {nodes more : Nat}
    (each : ∀ x ∈ items, HeightWithin nodes x.height x.levels x.run ∧ x.run < nodes)
    (deeper : greatestDepth 0 items + 1 ≤ more) (longer : Nat) :
    HeightWithin nodes (greatestDepth 1 items + 1) more longer := by
  have deepest := greatestDepth_le.mp (Nat.le_refl (greatestDepth 0 items))
  -- Each tree is at most as high as all their levels together.
  have bound : ∀ x ∈ items, x.depth 1 ≤ greatestDepth 0 items * nodes := by
    intro x mem
    obtain ⟨within, short⟩ := each x mem
    exact (within.le_mul short).trans (Nat.mul_le_mul_right nodes (deepest x mem))
  have highest := greatestDepth_le.mpr bound
  have wide : (greatestDepth 0 items + 1) * nodes ≤ more * nodes :=
    Nat.mul_le_mul_right nodes deeper
  rw [Nat.add_mul] at wide
  unfold HeightWithin
  omega

/-- A tree is within its levels when the chains on them have fewer steps than a level has nodes. -/
theorem heightWithin {nodes : Nat} {x : Expression} (short : x.longestRun < nodes) :
    HeightWithin nodes x.height x.levels x.run := by
  have several {items : List Expression} (short : greatestRun items < nodes)
      (ih : ∀ x ∈ items, x.longestRun < nodes → HeightWithin nodes x.height x.levels x.run) :
      ∀ x ∈ items, HeightWithin nodes x.height x.levels x.run ∧ x.run < nodes := by
    intro x mem
    have among := greatestRun_le.mp (Nat.le_refl (greatestRun items)) x mem
    have first := run_le_longestRun x
    exact ⟨ih x mem (by omega), by omega⟩
  -- Chains go down the left operands and the hops, and everything else starts another level.
  induction x using Expression.induction with
  | literal | property | item | nonEmpty => exact .leaf nodes _
  | hop scope n target inner ih =>
    simp only [longestRun] at short
    exact (ih (by omega)).step (Nat.le_refl _) (Nat.le_refl _)
  | not operand ih | negate operand ih | quantified scope source quantifier name operand ih =>
    simp only [longestRun] at short
    have first := run_le_longestRun operand
    exact (ih short).level (by omega) (Nat.le_refl _) _
  | binary op left right ihLeft ihRight =>
    simp only [longestRun] at short
    have first := run_le_longestRun right
    exact ((ihLeft (by omega)).step (Nat.le_max_left _ _) (Nat.le_refl _)).both
      ((ihRight (by omega)).level (by omega) (Nat.le_max_right _ _) _)
  | oneOf operand items ih ihItems =>
    simp only [longestRun] at short
    exact ((ih (by omega)).step (Nat.le_max_left _ _) (Nat.le_refl _)).both
      (heightWithin_greatest (several (by omega) ihItems) (Nat.le_max_right _ _) _)
  | call f arguments type ih =>
    simp only [longestRun] at short
    exact heightWithin_greatest (several short ih) (Nat.le_refl _) _

/-- A tree is at most as high as its levels with the longest chain on each of them. -/
theorem height_le (x : Expression) : x.height ≤ x.levels * (x.longestRun + 1) := by
  have first := run_le_longestRun x
  exact (heightWithin (Nat.lt_succ_self x.longestRun)).le_mul (by omega)

/-- What the functions that read filters with some fuel do to the levels that are left. -/
structure Charged (c : FilterContext) (fuel : Nat) : Prop where
  -- Expressions check the limit, so they enter a level; the other functions are on a level already.
  expression {depth least : Nat} {binders : List Binder} {from_ rest : List Token} {x : Expression}
      (read : parseExpression c fuel depth binders least from_ = .ok (x, rest)) :
      depth + x.levels ≤ c.model.config.maxDepth
  climb {depth least : Nat} {binders : List Binder} {from_ rest : List Token}
      {left x : Expression} (before : depth + left.levels ≤ c.model.config.maxDepth + 1)
      (read : parseClimb c fuel depth binders least left from_ = .ok (x, rest)) :
      depth + x.levels ≤ c.model.config.maxDepth + 1
  alternatives {depth : Nat} {binders : List Binder} {type : StaticType} {from_ rest : List Token}
      {items : List Expression}
      (read : parseAlternatives c fuel depth binders type from_ = .ok (items, rest)) :
      depth + greatestDepth 0 items ≤ c.model.config.maxDepth
  unary {depth : Nat} {binders : List Binder} {from_ rest : List Token} {x : Expression}
      (inside : depth ≤ c.model.config.maxDepth)
      (read : parseUnary c fuel depth binders from_ = .ok (x, rest)) :
      depth + x.levels ≤ c.model.config.maxDepth + 1
  primary {depth : Nat} {binders : List Binder} {t : Token} {from_ rest : List Token}
      {x : Expression} (inside : depth ≤ c.model.config.maxDepth)
      (read : parsePrimary c fuel depth binders t from_ = .ok (x, rest)) :
      depth + x.levels ≤ c.model.config.maxDepth + 1
  call {depth : Nat} {binders : List Binder} {t : Token} {from_ rest : List Token}
      {x : Expression} (inside : depth ≤ c.model.config.maxDepth)
      (read : parseCall c fuel depth binders t from_ = .ok (x, rest)) :
      depth + x.levels ≤ c.model.config.maxDepth + 1
  arguments {depth : Nat} {binders : List Binder} {from_ rest : List Token}
      {items : List Expression}
      (read : parseArguments c fuel depth binders from_ = .ok (items, rest)) :
      depth + greatestDepth 0 items ≤ c.model.config.maxDepth
  path {depth : Nat} {binders : List Binder} {t : Token} {from_ rest : List Token}
      {x : Expression} (inside : depth ≤ c.model.config.maxDepth)
      (read : parsePath c fuel depth binders t from_ = .ok (x, rest)) :
      depth + x.levels ≤ c.model.config.maxDepth + 1
  segment {depth : Nat} {binders : List Binder} {scope : Scope} {frame : Frame} {t : Token}
      {from_ rest : List Token} {x : Expression} (inside : depth ≤ c.model.config.maxDepth)
      (read : parseSegment c fuel depth binders scope frame t from_ = .ok (x, rest)) :
      depth + x.levels ≤ c.model.config.maxDepth + 1
  quantifier {depth : Nat} {binders : List Binder} {scope : Scope} {source : Source}
      {binder : String → Binder} {from_ rest : List Token} {x : Expression}
      (inside : depth ≤ c.model.config.maxDepth)
      (read : parseQuantifier c fuel depth binders scope source binder from_ = .ok (x, rest)) :
      depth + x.levels ≤ c.model.config.maxDepth + 1

section

variable {c : FilterContext}

/-- Without fuel no level is entered. -/
theorem charged_zero : Charged c 0 where
  expression read := by simp [parseExpression] at read
  climb _ read := by simp [parseClimb] at read
  alternatives read := by simp [parseAlternatives] at read
  unary _ read := by simp [parseUnary] at read
  primary _ read := by simp [parsePrimary] at read
  call _ read := by simp [parseCall] at read
  arguments read := by simp [parseArguments] at read
  path _ read := by simp [parsePath] at read
  segment _ read := by simp [parseSegment] at read
  quantifier _ read := by simp [parseQuantifier] at read

variable {fuel depth : Nat} {binders : List Binder} {from_ rest : List Token} {x : Expression}

/-- An expression takes a level, and the operators that follow its operand stay on it. -/
theorem Charged.expression_step (ih : Charged c fuel) {least : Nat}
    (read : parseExpression c (fuel + 1) depth binders least from_ = .ok (x, rest)) :
    depth + x.levels ≤ c.model.config.maxDepth := by
  rw [parseExpression] at read
  split at read
  · cases read
  rename_i within
  split at read
  · cases read
  rename_i left next operand
  -- The operand is read on the level that was entered, as are the operators behind it.
  have inside : depth + 1 ≤ c.model.config.maxDepth := by omega
  have whole := ih.climb (ih.unary inside operand) read
  omega

/-- An operator keeps its left operand on the level and has the right one a level below. -/
theorem Charged.climb_step (ih : Charged c fuel) {least : Nat} {left : Expression}
    (before : depth + left.levels ≤ c.model.config.maxDepth + 1)
    (read : parseClimb c (fuel + 1) depth binders least left from_ = .ok (x, rest)) :
    depth + x.levels ≤ c.model.config.maxDepth + 1 := by
  -- Whatever does not go on leaves the operand as it is.
  have stop (same : Except.ok (left, from_) = (.ok (x, rest) : Parsed Expression)) :
      depth + x.levels ≤ c.model.config.maxDepth + 1 := by
    cases same
    exact before
  rcases from_ with _ | ⟨t, more⟩
  · rw [parseClimb] at read
    exact stop read
  rw [parseClimb] at read
  split at read
  · exact stop read
  split at read
  · -- A list of alternatives: its items are a level below.
    split at read
    · exact stop read
    split at read
    · cases read
    split at read
    · cases read
    rename_i items next listed
    split at read
    · cases read
    have listed := ih.alternatives listed
    refine ih.climb ?_ read
    simp only [levels, Expression.depth] at before ⊢
    omega
  · -- An operator: its right operand is an expression, so it enters a level.
    split at read
    · exact stop read
    split at read
    · exact stop read
    split at read
    · cases read
    rename_i right next operand
    have operand := ih.expression operand
    split at read
    · cases read
    rename_i node made
    rw [mkBinary] at made
    split at made
    · cases made
      refine ih.climb ?_ read
      simp only [levels, Expression.depth] at before operand ⊢
      omega
    · cases made

/-- Alternatives are a level below the list, as they are expressions. -/
theorem Charged.alternatives_step (ih : Charged c fuel) {type : StaticType}
    {items : List Expression}
    (read : parseAlternatives c (fuel + 1) depth binders type from_ = .ok (items, rest)) :
    depth + greatestDepth 0 items ≤ c.model.config.maxDepth := by
  rw [parseAlternatives] at read
  split at read
  · cases read
  rename_i x next first
  have below : depth + x.depth 0 ≤ c.model.config.maxDepth := ih.expression first
  have single : depth + greatestDepth 0 [x] ≤ c.model.config.maxDepth := by
    rwa [greatestDepth_singleton]
  split at read
  · cases read
  split at read
  · split at read
    · obtain ⟨⟨others, last⟩, found, same⟩ := map_ok read
      cases same
      have others := ih.alternatives found
      simp only [greatestDepth]
      omega
    · cases read
      exact single
  · cases read
    exact single

/-- An operator in front of an operand has it a level below. -/
theorem Charged.unary_step (ih : Charged c fuel) (inside : depth ≤ c.model.config.maxDepth)
    (read : parseUnary c (fuel + 1) depth binders from_ = .ok (x, rest)) :
    depth + x.levels ≤ c.model.config.maxDepth + 1 := by
  rcases from_ with _ | ⟨t, more⟩
  · rw [parseUnary] at read
    cases read
  rw [parseUnary] at read
  split at read
  · split at read
    · cases read
    rename_i operand next inner
    have below := ih.expression inner
    obtain ⟨node, made, same⟩ := map_ok read
    cases same
    rw [mkNot] at made
    split at made
    · cases made
      simp only [levels, Expression.depth] at below ⊢
      omega
    · cases made
  split at read
  · split at read
    · cases read
    rename_i operand next inner
    have below := ih.expression inner
    obtain ⟨node, made, same⟩ := map_ok read
    cases same
    rw [mkNegate] at made
    split at made
    · cases made
      simp only [levels, Expression.depth] at below ⊢
      omega
    · cases made
  · exact ih.primary inside read

/-- Parentheses are a level of their own. -/
theorem Charged.primary_step (ih : Charged c fuel) {t : Token}
    (inside : depth ≤ c.model.config.maxDepth)
    (read : parsePrimary c (fuel + 1) depth binders t from_ = .ok (x, rest)) :
    depth + x.levels ≤ c.model.config.maxDepth + 1 := by
  rw [parsePrimary] at read
  split at read
  · split at read
    · cases read
    rename_i inner next found
    have found := ih.expression found
    obtain ⟨_, -, same⟩ := map_ok read
    cases same
    omega
  · split at read
    · exact ih.call inside read
    · exact ih.path inside read
  any_goals cases read
  · obtain ⟨value, -, same⟩ := map_ok read
    cases same
    simp only [levels, Expression.depth]
    omega

/-- The arguments of a call are a level below it. -/
theorem Charged.call_step (ih : Charged c fuel) {t : Token}
    (inside : depth ≤ c.model.config.maxDepth)
    (read : parseCall c (fuel + 1) depth binders t from_ = .ok (x, rest)) :
    depth + x.levels ≤ c.model.config.maxDepth + 1 := by
  rw [parseCall] at read
  split at read
  · cases read
  split at read
  · cases read
  dsimp only at read
  split at read
  · cases read
  rename_i f _ _ more _ _ items next listed
  have below : depth + greatestDepth 0 items ≤ c.model.config.maxDepth := by
    split at listed
    · cases listed
      exact inside
    · exact ih.arguments listed
  split at read
  · cases read
  obtain ⟨node, made, same⟩ := map_ok read
  cases same
  obtain ⟨type, rfl⟩ := mkCall_ok made
  simp only [levels, Expression.depth]
  omega

/-- Arguments are expressions. -/
theorem Charged.arguments_step (ih : Charged c fuel) {items : List Expression}
    (read : parseArguments c (fuel + 1) depth binders from_ = .ok (items, rest)) :
    depth + greatestDepth 0 items ≤ c.model.config.maxDepth := by
  rw [parseArguments] at read
  split at read
  · cases read
  rename_i x next first
  have below : depth + x.depth 0 ≤ c.model.config.maxDepth := ih.expression first
  have single : depth + greatestDepth 0 [x] ≤ c.model.config.maxDepth := by
    rwa [greatestDepth_singleton]
  split at read
  · split at read
    · obtain ⟨⟨others, last⟩, found, same⟩ := map_ok read
      cases same
      have others := ih.arguments found
      simp only [greatestDepth]
      omega
    · cases read
      exact single
  · cases read
    exact single

/-- A path stays on its level. -/
theorem Charged.path_step (ih : Charged c fuel) {t : Token}
    (inside : depth ≤ c.model.config.maxDepth)
    (read : parsePath c (fuel + 1) depth binders t from_ = .ok (x, rest)) :
    depth + x.levels ≤ c.model.config.maxDepth + 1 := by
  rw [parsePath] at read
  -- A path starts at the root, at a variable or where it stands, or is a variable by itself.
  split at read
  · split at read
    · cases read
    split at read
    · cases read
    exact ih.segment inside read
  split at read
  · split at read
    · cases read
    split at read
    · cases read
    exact ih.segment inside read
  · split at read
    · cases read
    cases read
    simp only [levels, Expression.depth]
    omega
  · exact ih.segment inside read

/-- A hop keeps the rest of its path on the level. -/
theorem Charged.segment_step (ih : Charged c fuel) {scope : Scope} {frame : Frame} {t : Token}
    (inside : depth ≤ c.model.config.maxDepth)
    (read : parseSegment c (fuel + 1) depth binders scope frame t from_ = .ok (x, rest)) :
    depth + x.levels ≤ c.model.config.maxDepth + 1 := by
  rw [parseSegment] at read
  split at read
  · split at read
    · split at read
      · split at read
        · exact ih.quantifier inside read
        · cases read
      · cases read
    · split at read
      · cases read
      · cases read
        simp only [levels, Expression.depth]
        omega
  split at read
  · cases read
  split at read
  · cases read
  split at read
  · cases read
  dsimp only at read
  split at read
  · split at read
    · split at read
      · exact ih.quantifier inside read
      · cases read
    · cases read
  · split at read
    · cases read
    split at read
    · cases read
    -- The rest of the path is read at the same depth, so that the hop is not charged.
    obtain ⟨⟨inner, last⟩, walked, same⟩ := map_ok read
    cases same
    have walked := ih.segment inside walked
    simp only [levels, Expression.depth] at walked ⊢
    exact walked

/-- The condition of a quantifier is a level below it. -/
theorem Charged.quantifier_step (ih : Charged c fuel) {scope : Scope} {source : Source}
    {binder : String → Binder} (inside : depth ≤ c.model.config.maxDepth)
    (read : parseQuantifier c (fuel + 1) depth binders scope source binder from_ = .ok (x, rest)) :
    depth + x.levels ≤ c.model.config.maxDepth + 1 := by
  rw [parseQuantifier] at read
  split at read
  · cases read
  split at read
  · cases read
  split at read
  · cases read
  split at read
  · split at read
    · cases read
    · cases read
      simp only [levels, Expression.depth]
      omega
  split at read
  · cases read
  split at read
  · cases read
  split at read
  · cases read
  split at read
  · cases read
  rename_i predicate next inner
  have below := ih.expression inner
  split at read
  · cases read
  rename_i node made
  obtain ⟨_, -, same⟩ := map_ok read
  cases same
  rw [mkQuantified] at made
  split at made
  · cases made
    simp only [levels, Expression.depth] at below ⊢
    omega
  · cases made

end

/-- Whatever the fuel, what is read stays within the levels that are left. -/
theorem charged (c : FilterContext) (fuel : Nat) : Charged c fuel := by
  induction fuel with
  | zero => exact charged_zero
  | succ fuel ih =>
    exact {
      expression := ih.expression_step
      climb := ih.climb_step
      alternatives := ih.alternatives_step
      unary := ih.unary_step
      primary := ih.primary_step
      call := ih.call_step
      arguments := ih.arguments_step
      path := ih.path_step
      segment := ih.segment_step
      quantifier := ih.quantifier_step }

end Expression

/-- A filter that is read has no more levels than are allowed. -/
theorem levels_of_parseFilter {m : Model} {set text : String} {x : Expression}
    (read : parseFilter m set text = .ok x) : x.levels ≤ m.config.maxDepth := by
  rw [parseFilter] at read
  split at read
  · cases read
  split at read
  · cases read
  rw [Expression.ofTokens] at read
  split at read
  · cases read
  split at read
  · cases read
  · cases read
  rename_i y parsed
  split at read
  · cases read
    have within := (Expression.charged _ _).expression parsed
    rwa [Nat.zero_add] at within
  · cases read

namespace Expression

/-- The condition `true or true or ...` with a number of operators. -/
def chain : Nat → Expression
  | 0 => .literal (.boolean true)
  | n + 1 => .binary .or (chain n) (.literal (.boolean true))

/-- The text of so many operators, each with its right operand. -/
def onward : Nat → List Char
  | 0 => []
  | n + 1 => " or true".toList ++ onward n

/-- The text of a chain of operators. -/
def chainText (n : Nat) : String :=
  String.ofList ("true".toList ++ onward n)

/-- What the tokens of so many operators with their right operands say. -/
def onwardLexemes : Nat → List Lexeme
  | 0 => []
  | n + 1 => .named "or" :: (.boolean, "true") :: onwardLexemes n

/-- Each operator and each operand of a chain is a token. -/
theorem length_onwardLexemes (n : Nat) : (onwardLexemes n).length = 2 * n := by
  induction n with
  | zero => rfl
  | succ n ih =>
    rw [onwardLexemes, List.length_cons, List.length_cons, ih]
    omega

/-- A chain with another operator is one node higher. -/
theorem height_chain (n : Nat) : (chain n).height = n + 1 := by
  induction n with
  | zero => rfl
  | succ n ih =>
    have single : (literal (.boolean true)).depth 1 = 1 := rfl
    rw [height] at ih
    rw [height, chain, depth, ih, single]
    omega

/-- A chain is a condition. -/
theorem isBoolean_chain (n : Nat) : (chain n).type.isBoolean = true := by
  cases n <;> rfl

/-- What follows an operand of a chain does not go on with it. -/
theorem follows_onward (n : Nat) : Follows afterOperand (onward n) := by
  cases n with
  | zero => exact .nil
  | succ n => exact .cons (by decide)

/-- The word `true` is read in front of what does not go on with it. -/
theorem reads_true {front : List Char} {others : List Lexeme} (follows : Follows afterOperand front)
    (behind : Reads front others []) :
    Reads ("true".toList ++ front) ((.boolean, "true") :: others) [] := by
  refine .cons (by decide) ?_ behind
  rw [List.append_nil]
  exact Lexes.keyword (by decide) follows

/-- The operators of a chain are read as their tokens. -/
theorem reads_onward (n : Nat) : Reads (onward n) (onwardLexemes n) [] := by
  induction n with
  | zero => exact .nil []
  | succ n ih =>
    have operand := (reads_true (follows_onward n) ih).blank (List.cons_ne_nil _ _)
    have operator := (operand.named (.operator .or) (.cons (by decide))).blank (List.cons_ne_nil _ _)
    exact operator

section

variable {c : FilterContext}

/-- What follows an operand of a chain binds less tightly than the operator in front of it. -/
theorem halts_onward {n : Nat} {tokens : List Token}
    (told : tokens.map Token.lexeme = onwardLexemes n) : Halts (BinaryOp.or.precedence + 1) tokens := by
  cases n with
  | zero =>
    rw [List.map_eq_nil_iff.mp told]
    exact nofun
  | succ n =>
    obtain ⟨p, more, rfl, -⟩ := lexemes_cons told
    rintro _ ⟨⟩ -
    refine ⟨fun same => absurd same (by simp), fun op known => ?_⟩
    cases known
    exact Nat.lt_succ_self _

/-- The word `true` is an operand. -/
theorem parseUnary_true {fuel depth : Nat} {position : Nat} {rest : List Token} :
    parseUnary c (fuel + 2) depth [] (⟨.boolean, "true", position⟩ :: rest)
      = .ok (.literal (.boolean true), rest) := by
  rw [parseUnary_primary (fun name => by cases name) (by simp), parsePrimary]
  rfl

/-- The operators that follow a chain are read as a longer chain on the same level. -/
theorem parseClimb_onward {n k fuel depth : Nat} {tokens : List Token}
    (told : tokens.map Token.lexeme = onwardLexemes n) (enough : n + 3 ≤ fuel)
    (within : depth < c.model.config.maxDepth) :
    parseClimb c fuel depth [] 0 (chain k) tokens = .ok (chain (k + n), []) := by
  -- The chain that has been read so far grows with every operator.
  induction n generalizing k fuel tokens with
  | zero =>
    obtain ⟨fuel, rfl⟩ : ∃ more, fuel = more + 1 := ⟨fuel - 1, by omega⟩
    rw [List.map_eq_nil_iff.mp told, parseClimb, Nat.add_zero]
  | succ n ih =>
    obtain ⟨fuel, rfl⟩ : ∃ more, fuel = more + 4 := ⟨fuel - 4, by omega⟩
    -- The next two tokens are the operator and its operand.
    obtain ⟨p, _, rfl, operand⟩ := lexemes_cons told
    obtain ⟨q, rest, rfl, others⟩ := lexemes_cons operand
    have operand : parseExpression c (fuel + 3) depth [] (BinaryOp.or.precedence + 1)
        (⟨.boolean, "true", q⟩ :: rest) = .ok (.literal (.boolean true), rest) := by
      rw [parseExpression_eq within parseUnary_true, parseClimb_halts _ _ _ _ _ (halts_onward others)]
    have fit : fits .or (chain k).type (literal (.boolean true)).type = true :=
      Bool.and_eq_true_iff.mpr ⟨isBoolean_chain k, isBoolean_chain 0⟩
    have longer : parseClimb c (fuel + 3) depth [] 0 (chain (k + 1)) rest
        = .ok (chain (k + 1 + n), []) := ih others (by omega)
    rw [Nat.add_right_comm] at longer
    exact (parseClimb_operator (Nat.zero_le _) operand fit).trans longer

end

end Expression

/-- Where two levels are allowed, a chain of any length is read from its text. -/
theorem parseFilter_chain {m : Model} {set : String} {s : EntitySet} (found : m.set? set = some s)
    (nested : 2 ≤ m.config.maxDepth) (n : Nat) :
    parseFilter m set (Expression.chainText n) = .ok (Expression.chain n) := by
  have reads := Expression.reads_true (Expression.follows_onward n) (Expression.reads_onward n)
  rw [← String.toList_ofList (l := "true".toList ++ Expression.onward n)] at reads
  obtain ⟨_, scanned, told⟩ := reads.tokenize
  obtain ⟨p, rest, rfl, others⟩ := lexemes_cons told
  have scanned : tokenize (Expression.chainText n) = .ok (⟨.boolean, "true", p⟩ :: rest) := scanned
  have length : rest.length = 2 * n := by
    have same := congrArg List.length others
    rwa [List.length_map, Expression.length_onwardLexemes] at same
  -- Fuel is counted in tokens, of which every operator of the chain has two.
  obtain ⟨fuel, enough, isFuel⟩ : ∃ fuel, n ≤ fuel ∧
      Expression.parseFuel (⟨.boolean, "true", p⟩ :: rest) = fuel + 4 := by
    refine ⟨8 * (rest.length + 1 + 2) - 4, by omega, ?_⟩
    rw [Expression.parseFuel, List.length_cons, Nat.sub_add_cancel (by omega)]
  have inside : 0 < m.config.maxDepth := by omega
  have within : 1 < m.config.maxDepth := by omega
  have chained : Expression.parseClimb ⟨m, Expression.chainText n, ⟨s.name, s.type⟩⟩ (fuel + 3) 1 []
      0 (Expression.chain 0) rest = .ok (Expression.chain (0 + n), []) :=
    Expression.parseClimb_onward others (by omega) within
  rw [Nat.zero_add n] at chained
  have parsed : Expression.parseExpression ⟨m, Expression.chainText n, ⟨s.name, s.type⟩⟩ (fuel + 4) 0
      [] 0 (⟨.boolean, "true", p⟩ :: rest) = .ok (Expression.chain n, []) := by
    rw [Expression.parseExpression_eq inside Expression.parseUnary_true]
    exact chained
  rw [parseFilter, found]
  simp only [scanned, Expression.ofTokens, List.isEmpty_cons, Bool.false_eq_true, if_false, isFuel,
    parsed, Expression.isBoolean_chain, if_true]

end EdmQuery
