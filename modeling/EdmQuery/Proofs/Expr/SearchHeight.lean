import Mathlib
import EdmQuery.Expr.Search
import EdmQuery.Proofs.Expr.Height

/-! How high searches get: what is nested is limited, chains of conjunctions and disjunctions are not. -/

namespace EdmQuery

namespace Search

/-- Whether a search is a disjunction, which a conjunction has in parentheses only. -/
def isOr : Search → Bool
  | or _ _ => true
  | _ => false

/-- Whether a search has operands side by side, so that an operand is in parentheses. -/
def isJoined : Search → Bool
  | and _ _ | or _ _ => true
  | _ => false

/-- A disjunction has operands side by side. -/
theorem isJoined_of_isOr {x : Search} (disjunction : x.isOr = true) : x.isJoined = true := by
  cases x with
  | or => rfl
  | _ => cases disjunction

/-- How far down the lowest term of a search is, where a step along a chain counts for as much as is
given, and a step into parentheses or behind a `NOT` for one. -/
def depth (step : Nat) : Search → Nat
  | term _ => 1
  | not operand => operand.depth step + 1
  | and left right =>
    max (left.depth step + if left.isOr then 1 else step)
      (right.depth step + if right.isJoined then 1 else step)
  | or left right => max (left.depth step + step) (right.depth step + if right.isOr then 1 else step)

/-- How many nodes the longest way down a search has. -/
abbrev height (x : Search) : Nat :=
  x.depth 1

/-- How many levels of nesting a search has, where chains of operands stay on their level. -/
abbrev levels (x : Search) : Nat :=
  x.depth 0

/-- How many operators a search starts with before there is another level. -/
def run : Search → Nat
  | term _ | not _ => 0
  | and left right =>
    max (if left.isOr then 0 else left.run + 1) (if right.isJoined then 0 else right.run + 1)
  | or left right => max (left.run + 1) (if right.isOr then 0 else right.run + 1)

/-- The longest chain of operators on a level of a search. -/
def longestRun : Search → Nat
  | term _ => 0
  | not operand => operand.longestRun
  | x@(and left right) | x@(or left right) => max x.run (max left.longestRun right.longestRun)

/-- The chain that a search starts with is no longer than the longest one. -/
theorem run_le_longestRun (x : Search) : x.run ≤ x.longestRun := by
  cases x with
  | term | not => exact Nat.zero_le _
  | and | or =>
    rw [longestRun]
    exact Nat.le_max_left _ _

/-- An operand of a search is within the levels of the search. -/
theorem heightWithin_operand {nodes more longer : Nat} {x : Search} {enters : Bool}
    (within : HeightWithin nodes x.height x.levels x.run) (room : x.run < nodes)
    (deeper : x.levels + (if enters then 1 else 0) ≤ more)
    (onward : (if enters then 0 else x.run + 1) ≤ longer) :
    HeightWithin nodes (x.depth 1 + if enters then 1 else 1) more longer := by
  cases enters with
  | true => exact within.level room deeper longer
  | false => exact within.step deeper onward

/-- A search is within its levels when the chains on them have fewer steps than a level has nodes. -/
theorem heightWithin {nodes : Nat} {x : Search} (short : x.longestRun < nodes) :
    HeightWithin nodes x.height x.levels x.run := by
  induction x with
  | term => exact .leaf nodes _
  | not operand ih =>
    rw [longestRun] at short
    have first := run_le_longestRun operand
    exact (ih short).level (by omega) (Nat.le_refl _) _
  | and left right ihLeft ihRight =>
    rw [longestRun] at short
    have onLeft := run_le_longestRun left
    have onRight := run_le_longestRun right
    exact (heightWithin_operand (ihLeft (by omega)) (by omega) (Nat.le_max_left _ _)
      (Nat.le_max_left _ _)).both (heightWithin_operand (ihRight (by omega)) (by omega)
        (Nat.le_max_right _ _) (Nat.le_max_right _ _))
  | or left right ihLeft ihRight =>
    rw [longestRun] at short
    have onLeft := run_le_longestRun left
    have onRight := run_le_longestRun right
    exact ((ihLeft (by omega)).step (Nat.le_max_left _ _) (Nat.le_max_left _ _)).both
      (heightWithin_operand (ihRight (by omega)) (by omega) (Nat.le_max_right _ _)
        (Nat.le_max_right _ _))

/-- A search is at most as high as its levels with the longest chain on each of them. -/
theorem height_le (x : Search) : x.height ≤ x.levels * (x.longestRun + 1) := by
  have first := run_le_longestRun x
  exact (heightWithin (Nat.lt_succ_self x.longestRun)).le_mul (by omega)

/-- What the functions that read searches with some fuel do to the levels that are left. -/
structure Charged (limit fuel : Nat) : Prop where
  -- A disjunction is at most a conjunction in parentheses, and any joined search an operand in them.
  disjunction {depth : Nat} {c next : Cursor} {x : Search}
      (read : parseOr limit fuel depth c = .ok (x, next)) : depth + x.levels ≤ limit
  disjunctions {depth : Nat} {c next : Cursor} {left x : Search}
      (before : depth + left.levels ≤ limit)
      (read : parseOrRest limit fuel depth left c = .ok (x, next)) : depth + x.levels ≤ limit
  conjunction {depth : Nat} {c next : Cursor} {x : Search}
      (read : parseAnd limit fuel depth c = .ok (x, next)) :
      depth + (x.levels + if x.isOr then 1 else 0) ≤ limit
  conjunctions {depth : Nat} {c next : Cursor} {left x : Search}
      (before : depth + (left.levels + if left.isOr then 1 else 0) ≤ limit)
      (read : parseAndRest limit fuel depth left c = .ok (x, next)) :
      depth + (x.levels + if x.isOr then 1 else 0) ≤ limit
  operand {depth : Nat} {c next : Cursor} {x : Search}
      (read : parseOperand limit fuel depth c = .ok (x, next)) :
      depth + (x.levels + if x.isJoined then 1 else 0) ≤ limit
  primary {depth : Nat} {c next : Cursor} {x : Search} (inside : depth ≤ limit)
      (read : parsePrimary limit fuel depth c = .ok (x, next)) :
      depth + (x.levels + if x.isJoined then 1 else 0) ≤ limit + 1

/-- Without fuel no level is entered. -/
theorem charged_zero (limit : Nat) : Charged limit 0 where
  disjunction read := by simp [parseOr] at read
  disjunctions _ read := by simp [parseOrRest] at read
  conjunction read := by simp [parseAnd] at read
  conjunctions _ read := by simp [parseAndRest] at read
  operand read := by simp [parseOperand] at read
  primary _ read := by simp [parsePrimary] at read

section

variable {limit fuel depth : Nat} {c next : Cursor} {x : Search}

/-- Disjunctions stay on a level, with conjunctions as their parts. -/
theorem Charged.disjunction_step (ih : Charged limit fuel)
    (read : parseOr limit (fuel + 1) depth c = .ok (x, next)) : depth + x.levels ≤ limit := by
  rw [parseOr] at read
  split at read
  · cases read
  rename_i left more first
  have first := ih.conjunction first
  exact ih.disjunctions (by omega) read

/-- Another disjunction stays on the level. -/
theorem Charged.disjunctions_step (ih : Charged limit fuel) {left : Search}
    (before : depth + left.levels ≤ limit)
    (read : parseOrRest limit (fuel + 1) depth left c = .ok (x, next)) :
    depth + x.levels ≤ limit := by
  rw [parseOrRest] at read
  split at read
  · cases read
    exact before
  split at read
  · cases read
  rename_i right more second
  have second := ih.conjunction second
  refine ih.disjunctions ?_ read
  simp only [levels, Search.depth] at before second ⊢
  omega

/-- Conjunctions stay on a level, with operands as their parts. -/
theorem Charged.conjunction_step (ih : Charged limit fuel)
    (read : parseAnd limit (fuel + 1) depth c = .ok (x, next)) :
    depth + (x.levels + if x.isOr then 1 else 0) ≤ limit := by
  rw [parseAnd] at read
  split at read
  · cases read
  rename_i left more first
  have first := ih.operand first
  refine ih.conjunctions ?_ read
  -- A disjunction in parentheses is charged for them already.
  by_cases disjunction : left.isOr = true
  · rw [if_pos (isJoined_of_isOr disjunction)] at first
    rw [if_pos disjunction]
    exact first
  · rw [if_neg disjunction]
    omega

/-- Another conjunction stays on the level. -/
theorem Charged.conjunctions_step (ih : Charged limit fuel) {left : Search}
    (before : depth + (left.levels + if left.isOr then 1 else 0) ≤ limit)
    (read : parseAndRest limit (fuel + 1) depth left c = .ok (x, next)) :
    depth + (x.levels + if x.isOr then 1 else 0) ≤ limit := by
  rw [parseAndRest] at read
  split at read
  · cases read
    exact before
  split at read
  · cases read
  rename_i right more second
  have second := ih.operand second
  refine ih.conjunctions ?_ read
  have plain : ¬ (Search.and left right).isOr = true := Bool.false_ne_true
  rw [if_neg plain]
  simp only [levels, Search.depth] at before second ⊢
  omega

/-- An operand takes a level, and what a `NOT` denies another one. -/
theorem Charged.operand_step (ih : Charged limit fuel)
    (read : parseOperand limit (fuel + 1) depth c = .ok (x, next)) :
    depth + (x.levels + if x.isJoined then 1 else 0) ≤ limit := by
  rw [parseOperand] at read
  split at read
  · cases read
  rename_i within
  split at read
  · obtain ⟨⟨y, last⟩, denied, same⟩ := map_ok read
    cases same
    have below := ih.operand denied
    have alone : ¬ (Search.not y).isJoined = true := Bool.false_ne_true
    rw [if_neg alone]
    simp only [levels, Search.depth] at below ⊢
    omega
  · -- The operand has entered a level, which its parentheses are.
    have inside : depth + 1 ≤ limit := by omega
    have below := ih.primary inside read
    omega

/-- Parentheses are a level of their own. -/
theorem Charged.primary_step (ih : Charged limit fuel) (inside : depth ≤ limit)
    (read : parsePrimary limit (fuel + 1) depth c = .ok (x, next)) :
    depth + (x.levels + if x.isJoined then 1 else 0) ≤ limit + 1 := by
  -- A term is on the level of its operand.
  have term (text : String) : depth + ((Search.term text).levels +
      if (Search.term text).isJoined then 1 else 0) ≤ limit + 1 := by
    have alone : ¬ (Search.term text).isJoined = true := Bool.false_ne_true
    rw [if_neg alone]
    simp only [levels, Search.depth]
    omega
  rw [parsePrimary] at read
  split at read
  · cases read
  · split at read
    · cases read
    rename_i y more found
    have below := ih.disjunction found
    obtain ⟨_, -, same⟩ := map_ok read
    cases same
    split <;> omega
  · obtain ⟨⟨text, last⟩, -, same⟩ := map_ok read
    cases same
    exact term text
  · split at read
    · cases read
    · obtain ⟨⟨text, last⟩, -, same⟩ := map_ok read
      cases same
      exact term text

end

/-- Whatever the fuel, what is read stays within the levels that are left. -/
theorem charged (limit fuel : Nat) : Charged limit fuel := by
  induction fuel with
  | zero => exact charged_zero limit
  | succ fuel ih =>
    exact {
      disjunction := ih.disjunction_step
      disjunctions := ih.disjunctions_step
      conjunction := ih.conjunction_step
      conjunctions := ih.conjunctions_step
      operand := ih.operand_step
      primary := ih.primary_step }

/-- A search that is read has no more levels than are allowed, where even a phrase needs one. -/
theorem levels_of_parse {config : Config} {text : String} {x : Search}
    (read : parse config text = .ok x) : x.levels ≤ max 1 config.maxDepth := by
  rw [parse] at read
  split at read
  · cases read
  split at read
  · cases read
    have single (chars : List Char) : (phrase chars).levels = 1 := by
      unfold phrase
      split
      · split <;> rfl
      · rfl
    rw [single]
    exact Nat.le_max_left _ _
  · rw [parseWords] at read
    split at read
    · cases read
    rename_i y next parsed
    split at read
    · cases read
      have within := (charged _ _).disjunction parsed
      omega
    · cases read

end Search

/-- The limit on nesting bounds the levels of filters and searches, and their height with their chains.

A level is what stands behind an operator, in a list, a call or a quantifier, or for a search in
parentheses or behind a `NOT`. A chain of operators and operands side by side, or of hops along a
path, stays on its level however long it is. -/
theorem nesting_is_limited (m : Model) (set text : String) :
    (∀ x, parseFilter m set text = .ok x → x.levels ≤ m.config.maxDepth ∧
      x.height ≤ m.config.maxDepth * (x.longestRun + 1)) ∧
    (∀ x, Search.parse m.config text = .ok x → x.levels ≤ max 1 m.config.maxDepth ∧
      x.height ≤ max 1 m.config.maxDepth * (x.longestRun + 1)) := by
  refine ⟨fun x read => ?_, fun x read => ?_⟩
  · have limited := levels_of_parseFilter read
    exact ⟨limited, x.height_le.trans (Nat.mul_le_mul_right _ limited)⟩
  · have limited := Search.levels_of_parse read
    exact ⟨limited, x.height_le.trans (Nat.mul_le_mul_right _ limited)⟩

/-- A chain of two operators is read and is limited, as is the search of the same text. -/
theorem nesting_is_limited_for_lamps :
    parseFilter lampModel "lamps" (Expression.chainText 2) = .ok (Expression.chain 2) ∧
      (Expression.chain 2).levels ≤ lampModel.config.maxDepth ∧
      (Expression.chain 2).height ≤ lampModel.config.maxDepth * 3 ∧
      ∀ x, Search.parse lampModel.config (Expression.chainText 2) = .ok x →
        x.levels ≤ lampModel.config.maxDepth := by
  have found : lampModel.set? "lamps" = some ⟨"lamps", lampType, .all, .memory⟩ := rfl
  have read := parseFilter_chain found (by decide) 2
  obtain ⟨filter, search⟩ := nesting_is_limited lampModel "lamps" (Expression.chainText 2)
  obtain ⟨levels, height⟩ := filter _ read
  exact ⟨read, levels, height, fun x read => (search x read).1⟩

/-- No height that depends on the limit on nesting alone is above all filters and searches. -/
theorem height_is_unbounded : ¬ ∃ bound : Nat → Nat, ∀ m set text,
    (∀ x, parseFilter m set text = .ok x → x.height ≤ bound m.config.maxDepth) ∧
      ∀ x, Search.parse m.config text = .ok x → x.height ≤ bound m.config.maxDepth := by
  rintro ⟨bound, bounded⟩
  have found : lampModel.set? "lamps" = some ⟨"lamps", lampType, .all, .memory⟩ := rfl
  -- A chain with as many operators as the bound is a node higher.
  have read := parseFilter_chain found (by decide) (bound lampModel.config.maxDepth)
  have high := (bounded lampModel "lamps" _).1 _ read
  rw [Expression.height_chain] at high
  omega

end EdmQuery
