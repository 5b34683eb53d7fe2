import Mathlib
import EdmQuery.Proofs.Expr.SearchText

/-! Operands side by side or with operators between them are grouped by the operators alone. -/

namespace EdmQuery

open Text Recognizer

namespace Search

/-- Blanks, of which there may be none. -/
structure Blanks where
  chars : List Char
  blank : ∀ c ∈ chars, isBlank c = true

/-- Blanks that keep apart what stands before and behind them. -/
structure Gap extends Blanks where
  some_ : chars ≠ []

/-- A bare word that no operator stands at the start of. -/
structure Word where
  chars : List Char
  some_ : chars ≠ []
  word : ∀ c ∈ chars, isWordChar c = true
  free : leadingOperator? chars = none

/-- A character of a phrase, as it is or with a backslash that keeps it. -/
inductive Letter where
  | plain (c : Char) (apart : c ≠ '"' ∧ c ≠ '\\')
  | kept (c : Char)

/-- What stands between two operands. -/
inductive Joint where
  | or (before after : Gap)
  | and (before after : Gap)
  | beside (gap : Gap)

mutual

/-- An operand as it is written: a word, a phrase, a group, or an operand behind a `NOT`. -/
inductive Operand where
  | word (w : Word)
  | phrase (letters : List Letter)
  | group (inner : Sequence)
  | denied (gap : Gap) (operand : Operand)

/-- Operands as they are written with what joins each to those before it. -/
inductive Sequence where
  | mk (before : Blanks) (first : Operand) (rest : List (Joint × Operand)) (after : Blanks)

end

namespace Letter

/-- How a character of a phrase is written. -/
def chars : Letter → List Char
  | plain c _ => [c]
  | kept c => ['\\', c]

/-- The character that is meant. -/
def meant : Letter → Char
  | plain c _ => c
  | kept c => c

end Letter

/-- A single blank. -/
def Gap.single : Gap :=
  ⟨⟨[' '], List.forall_mem_singleton.mpr rfl⟩, nofun⟩

namespace Joint

/-- Whether the operand behind a joint is not part of the conjunction before it. -/
def isOr : Joint → Bool
  | or _ _ => true
  | _ => false

/-- How a joint is written. -/
def chars : Joint → List Char
  | or before after => before.chars ++ ("OR".toList ++ after.chars)
  | and before after => before.chars ++ ("AND".toList ++ after.chars)
  | beside gap => gap.chars

/-- The joint with an `AND` in every conjunction. -/
def explicit : Joint → Joint
  | or before after => or before after
  | _ => and .single .single

end Joint

/-- The operands that continue a conjunction, and the conjunctions that follow with an `OR` each. -/
def runs : List (Bool × Search) → List Search × List (Search × List Search)
  | [] => ([], [])
  | (startsNew, x) :: rest =>
    let (more, others) := runs rest
    if startsNew then ([], (x, more) :: others) else (x :: more, others)

/-- The conjunction of operands in their order, grouped from the left. -/
def conjunction (first : Search) (more : List Search) : Search :=
  more.foldl .and first

/-- The disjunction of conjunctions in their order, grouped from the left. -/
def disjunction (first : Search) (others : List (Search × List Search)) : Search :=
  others.foldl (fun left run => .or left (conjunction run.1 run.2)) first

/-- The search of operands where each is joined to those before it by an `OR` or an `AND`. -/
def joined (first : Search) (rest : List (Bool × Search)) : Search :=
  disjunction (conjunction first (runs rest).1) (runs rest).2

mutual

/-- How an operand is written. -/
def Operand.chars : Operand → List Char
  | .word w => w.chars
  | .phrase letters => '"' :: (letters.flatMap Letter.chars ++ ['"'])
  | .group inner => '(' :: (inner.chars ++ [')'])
  | .denied gap operand => "NOT".toList ++ (gap.chars ++ operand.chars)

/-- How a sequence of operands is written. -/
def Sequence.chars : Sequence → List Char
  | .mk before first rest after =>
    before.chars ++ (first.chars ++ (followingChars rest ++ after.chars))

/-- How operands are written that follow another one. -/
def followingChars : List (Joint × Operand) → List Char
  | [] => []
  | (joint, x) :: rest => joint.chars ++ (x.chars ++ followingChars rest)

end

mutual

/-- The search that an operand is. -/
def Operand.value : Operand → Search
  | .word w => .term (String.ofList w.chars)
  | .phrase letters => .term (String.ofList (letters.map Letter.meant))
  | .group inner => inner.value
  | .denied _ operand => .not operand.value

/-- The search that a sequence of operands is. -/
def Sequence.value : Sequence → Search
  | .mk _ first rest _ => joined first.value (followingValues rest)

/-- The searches of operands that follow another one, and whether an `OR` stands before each. -/
def followingValues : List (Joint × Operand) → List (Bool × Search)
  | [] => []
  | (joint, x) :: rest => (joint.isOr, x.value) :: followingValues rest

end

mutual

/-- The levels that an operand takes of the limit. -/
def Operand.levels : Operand → Nat
  | .word _ | .phrase _ => 1
  | .group inner => inner.levels + 1
  | .denied _ operand => operand.levels + 1

/-- The levels that the deepest operand of a sequence takes. -/
def Sequence.levels : Sequence → Nat
  | .mk _ first rest _ => max first.levels (followingLevels rest)

/-- The levels that the deepest of the operands takes that follow another one. -/
def followingLevels : List (Joint × Operand) → Nat
  | [] => 0
  | (_, x) :: rest => max x.levels (followingLevels rest)

end

mutual

/-- The operand with an `AND` in every conjunction. -/
def Operand.explicit : Operand → Operand
  | .word w => .word w
  | .phrase letters => .phrase letters
  | .group inner => .group inner.explicit
  | .denied gap operand => .denied gap operand.explicit

/-- The sequence with an `AND` in every conjunction. -/
def Sequence.explicit : Sequence → Sequence
  | .mk before first rest after => .mk before first.explicit (explicitFollowing rest) after

/-- The operands that follow another one, with an `AND` in every conjunction. -/
def explicitFollowing : List (Joint × Operand) → List (Joint × Operand)
  | [] => []
  | (joint, x) :: rest => (joint.explicit, x.explicit) :: explicitFollowing rest

end

/-- The text of a sequence. -/
def Sequence.text (s : Sequence) : String :=
  String.ofList s.chars

/-- Induction over operands, where each of those in a group has its own hypothesis. -/
@[elab_as_elim]
theorem Operand.induction {motive : Operand → Prop} (word : ∀ w, motive (.word w))
    (phrase : ∀ letters, motive (.phrase letters))
    (group : ∀ before first rest after, motive first → (∀ p ∈ rest, motive p.2) →
      motive (.group (.mk before first rest after)))
    (denied : ∀ gap operand, motive operand → motive (.denied gap operand)) (x : Operand) :
    motive x :=
  -- The recursor asks for motives about sequences, lists and pairs too.
  @Operand.rec motive (fun s => motive (.group s)) (fun rest => ∀ p ∈ rest, motive p.2)
    (fun p => motive p.2) word phrase (fun _ => id) denied (fun _ _ _ _ => group _ _ _ _) nofun
    (fun _ _ first others => List.forall_mem_cons.mpr ⟨first, others⟩) (fun _ _ => id) x

variable {limit depth fuel fuel' : Nat} {c next : Cursor} {rest close : List Char} {x : Operand}

/-- Blanks are skipped up to what is none. -/
theorem Blanks.skipped (b : Blanks) (at_ : c.rest = b.chars ++ rest) (stops : Stops isBlank rest) :
    c.skipBlanks.rest = rest := by
  rw [Cursor.rest_skipBlanks, at_, stops.dropWhile_append b.blank]

/-- Blanks end a word. -/
theorem Blanks.stops_word (b : Blanks) (stops : Stops isWordChar rest) :
    Stops isWordChar (b.chars ++ rest) := by
  cases chars : b.chars with
  | nil => exact stops
  | cons first more =>
    have blank := b.blank first (chars ▸ List.mem_cons_self)
    exact .cons (by simp [isWordChar, blank])

/-- A gap ends a word, whatever comes behind it. -/
theorem Gap.stops_word (g : Gap) (rest : List Char) : Stops isWordChar (g.chars ++ rest) := by
  obtain ⟨first, more, chars⟩ := List.exists_cons_of_ne_nil g.some_
  have blank := g.blank first (chars ▸ List.mem_cons_self)
  rw [chars]
  exact .cons (by simp [isWordChar, blank])

/-- An operand starts with a character that is no blank and ends no group. -/
theorem Operand.chars_cons (x : Operand) :
    ∃ first more, x.chars = first :: more ∧ isBlank first = false ∧ first ≠ ')' := by
  cases x with
  | word w =>
    -- A character of a word is neither, and a word has one at least.
    obtain ⟨first, more, chars⟩ := List.exists_cons_of_ne_nil w.some_
    have letter := w.word first (chars ▸ List.mem_cons_self)
    simp only [isWordChar, Bool.and_eq_true, Bool.not_eq_true', bne_iff_ne] at letter
    exact ⟨first, more, by rw [Operand.chars, chars], letter.1.1.1, letter.1.2⟩
  | phrase letters => exact ⟨'"', _, by rw [Operand.chars], rfl, by decide⟩
  | group inner => exact ⟨'(', _, by rw [Operand.chars], rfl, by decide⟩
  | denied gap operand => exact ⟨'N', _, by rw [Operand.chars]; rfl, rfl, by decide⟩

/-- In front of an operand no blank is left. -/
theorem Operand.stops_blank (x : Operand) (rest : List Char) : Stops isBlank (x.chars ++ rest) := by
  obtain ⟨first, more, chars, visible, -⟩ := x.chars_cons
  rw [chars]
  exact .cons visible

/-- Where an operand stands no operator comes next, except for its own `NOT`. -/
theorem Operand.behind?_eq_none (x : Operand) {operator : String} (mem : operator ∈ operators)
    (other : operator ≠ "NOT") (at_ : c.skipBlanks.rest = x.chars ++ rest)
    (ends : Stops isWordChar rest) : behind? c operator = none := by
  have named : operator.toList ≠ [] := by
    simp only [operators, List.mem_cons, List.not_mem_nil, or_false] at mem
    rcases mem with rfl | rfl | rfl <;> decide
  cases x with
  | word w => exact behind?_none_of_leading (by rw [at_, Operand.chars]) ends w.free mem
  | phrase letters | group inner =>
    -- A quote or a parenthesis is no letter of an operator.
    rw [behind?_eq mem, at_, Operand.chars, if_neg]
    exact fun run => named run.symm
  | denied gap operand =>
    -- The letters up to the gap are those of the `NOT`.
    have run : c.skipBlanks.rest.takeWhile isNameChar = "NOT".toList := by
      rw [at_, Operand.chars, List.append_assoc, List.append_assoc]
      exact Stops.takeWhile_append (isNameChar_of_operator (by decide))
        (stops_name_of_word (gap.stops_word _))
    rw [behind?_eq mem, run, if_neg fun same => other (String.toList_inj.mp same).symm]

/-- The characters of a phrase are read as what they mean, up to its closing quote. -/
theorem doubleQuoted_letters (letters : List Letter) (found rest : List Char) (n : Nat) :
    Cursor.doubleQuoted (letters.flatMap Letter.chars ++ '"' :: rest) found n
      = some (found.reverse ++ letters.map Letter.meant,
          n + (letters.flatMap Letter.chars).length + 1) := by
  -- What has been found and counted before stays general.
  induction letters generalizing found n with
  | nil => simp [Cursor.doubleQuoted]
  | cons letter letters ih =>
    rw [List.flatMap_cons, List.append_assoc]
    cases letter with
    | plain c apart =>
      simp only [Letter.chars, List.cons_append, List.nil_append, List.map_cons, Letter.meant]
      rw [Cursor.doubleQuoted, if_neg (by simp [apart.2]), if_neg (by simp [apart.1]), ih]
      · simp
        omega
      · exact fun _ _ quote _ => apart.2 quote
    | kept c =>
      simp only [Letter.chars, List.cons_append, List.nil_append, List.map_cons, Letter.meant,
        Cursor.doubleQuoted, ih]
      simp
      omega

/-- A conjunction goes on with the operand behind a joint that is no `OR`. -/
theorem parseAndRest_joint (limit depth fuel : Nat) {joint : Joint} (left : Search)
    (conjoins : joint.isOr = false) (at_ : c.rest = joint.chars ++ (x.chars ++ rest))
    (ends : Stops isWordChar rest) :
    ∃ next, next.skipBlanks.rest = x.chars ++ rest ∧
      parseAndRest limit (fuel + 1) depth left c =
        match parseOperand limit fuel depth next with
        | .error e => .error e
        | .ok (right, next) => parseAndRest limit fuel depth (.and left right) next := by
  cases joint with
  | or => cases conjoins
  | and before after =>
    -- The conjunction neither ends here nor at an `OR`, and its `AND` is taken.
    rw [Joint.chars, List.append_assoc, List.append_assoc] at at_
    have stay := before.skipped at_ (.cons rfl)
    have goesOn : endsHere c = false := by
      rw [endsHere, Cursor.peek, stay]
      rfl
    have stops := stops_name_of_word (after.stops_word (x.chars ++ rest))
    have noOr : behind? c "OR" = none := by
      rw [behind?_eq (by decide), stay,
        Stops.takeWhile_append (isNameChar_of_operator (by decide)) stops, if_neg (by decide)]
    obtain ⟨next, found, there⟩ := behind?_next (by decide) stay stops
    refine ⟨next, after.skipped there (x.stops_blank rest), ?_⟩
    rw [parseAndRest, goesOn, noOr, found]
    rfl
  | beside gap =>
    -- No operator stands in front of the operand, so it is read where it is.
    have stay := gap.skipped at_ (x.stops_blank rest)
    obtain ⟨first, more, chars, visible, inside⟩ := x.chars_cons
    have goesOn : endsHere c = false := by
      rw [endsHere, Cursor.peek, stay, chars]
      exact beq_eq_false_iff_ne.mpr inside
    have noOr : behind? c "OR" = none := x.behind?_eq_none (by decide) (by decide) stay ends
    have noAnd : behind? c "AND" = none := x.behind?_eq_none (by decide) (by decide) stay ends
    refine ⟨c.skipBlanks, Cursor.rest_skipBlanks_of_stops stay (x.stops_blank rest), ?_⟩
    rw [parseAndRest, goesOn, noOr, noAnd]
    rfl

/-- A conjunction ends in front of an `OR`, behind which the next one begins. -/
theorem parseOrRest_joint (limit depth fuel fuel' : Nat) {joint : Joint} (last left : Search)
    (disjoins : joint.isOr = true)
    (at_ : c.rest = joint.chars ++ (x.chars ++ rest)) :
    ∃ here next, next.skipBlanks.rest = x.chars ++ rest ∧
      parseAndRest limit (fuel + 1) depth last c = .ok (last, here) ∧
      parseOrRest limit (fuel' + 1) depth left here =
        match parseAnd limit fuel' depth next with
        | .error e => .error e
        | .ok (right, next) => parseOrRest limit fuel' depth (.or left right) next := by
  cases joint with
  | and | beside => cases disjoins
  | or before after =>
    rw [Joint.chars, List.append_assoc, List.append_assoc] at at_
    have stay := before.skipped at_ (.cons rfl)
    -- The conjunction looks at the `OR` and leaves it to the disjunction, which takes it.
    have again : c.skipBlanks.skipBlanks.rest = _ :=
      Cursor.rest_skipBlanks_of_stops stay (.cons rfl)
    have stops := stops_name_of_word (after.stops_word (x.chars ++ rest))
    obtain ⟨_, found, -⟩ := behind?_next (by decide) stay stops
    obtain ⟨next, found', there⟩ := behind?_next (by decide) again stops
    refine ⟨c.skipBlanks, next, after.skipped there (x.stops_blank rest), ?_, ?_⟩
    · rw [parseAndRest, found, Option.isSome_some, Bool.or_true, if_pos rfl]
    · rw [parseOrRest]
      split
      · rename_i absent
        cases found'.symm.trans absent
      · rename_i present
        cases found'.symm.trans present
        rfl

/-- What joins operands is written with a character at least. -/
theorem Joint.length_pos (joint : Joint) : 0 < joint.chars.length := by
  cases joint with
  | or before after | and before after =>
    simp only [Joint.chars, List.length_append]
    exact Nat.add_pos_right _ (Nat.add_pos_left (by decide) _)
  | beside gap => exact List.length_pos_iff.mpr gap.some_

/-- Whether an operand at a depth is read as what it is, up to what ends a word. -/
def Operand.Reads (limit depth : Nat) (x : Operand) : Prop :=
  ∀ (fuel : Nat) {c : Cursor} {rest : List Char}, 8 * x.chars.length ≤ fuel →
    c.skipBlanks.rest = x.chars ++ rest → Stops isWordChar rest →
    Yields (parseOperand limit fuel depth c) (some x.value) rest

/-- Behind the operands that follow, and the blanks there, a word is at its end. -/
theorem stops_following (following : List (Joint × Operand)) (after : Blanks)
    (closes : Closes close) :
    Stops isWordChar (followingChars following ++ (after.chars ++ close)) := by
  cases following with
  | nil =>
    -- A group ends in a parenthesis, and a text ends.
    refine after.stops_word fun d last => ?_
    rw [closes d last]
    rfl
  | cons p others =>
    obtain ⟨joint, x⟩ := p
    rw [followingChars, List.append_assoc]
    cases joint with
    | or before after | and before after =>
      rw [Joint.chars, List.append_assoc]
      exact before.stops_word _
    | beside gap => exact gap.stops_word _

/--
The operands that follow another one are read up to the end of their group.

The induction is on the operands. What has been read before is the conjunction that the next one
may continue, and the disjunction that it becomes part of when it ends.
-/
theorem parseOrRest_following (following : List (Joint × Operand)) (left : Search)
    (whole : Search → Search) (each : ∀ p ∈ following, p.2.Reads limit depth) (after : Blanks)
    (closes : Closes close) (enough : 8 * (followingChars following).length < fuel)
    (enough' : 8 * (followingChars following).length < fuel')
    (at_ : c.rest = followingChars following ++ (after.chars ++ close)) :
    Yields
      (match parseAndRest limit fuel depth left c with
        | .error e => .error e
        | .ok (left, next) => parseOrRest limit fuel' depth (whole left) next)
      (some (disjunction (whole (conjunction left (runs (followingValues following)).1))
        (runs (followingValues following)).2)) close := by
  induction following generalizing left whole c fuel fuel' with
  | nil =>
    obtain ⟨fuel, rfl⟩ : ∃ k, fuel = k + 1 := ⟨fuel - 1, by omega⟩
    obtain ⟨fuel', rfl⟩ : ∃ k, fuel' = k + 1 := ⟨fuel' - 1, by omega⟩
    have stay := after.skipped at_ closes.stops_blank
    obtain ⟨next, read, there⟩ := parseAndRest_end limit fuel depth left stay closes
    rw [read]
    exact parseOrRest_end limit fuel' depth (whole left) (closes.skipped there) closes
  | cons p others ih =>
    obtain ⟨joint, x⟩ := p
    obtain ⟨reads, each⟩ := List.forall_mem_cons.mp each
    replace reads : x.Reads limit depth := reads
    rw [followingChars, List.append_assoc, List.append_assoc] at at_
    have ends := stops_following others after closes
    -- The text of the joint pays for the calls that lead to what follows the operand.
    have some_ := joint.length_pos
    simp only [followingChars, List.length_append] at enough enough'
    obtain ⟨fuel, rfl⟩ : ∃ k, fuel = k + 1 := ⟨fuel - 1, by omega⟩
    cases kind : joint.isOr with
    | false =>
      -- The operand becomes part of the conjunction that is being read.
      obtain ⟨next, there, goesOn⟩ := parseAndRest_joint limit depth fuel left kind at_ ends
      obtain ⟨next, read, there⟩ := reads fuel (by omega) there ends
      rw [goesOn, read, followingValues, runs, kind]
      exact ih (.and left x.value) whole each (by omega) (by omega) there
    | true =>
      -- That conjunction is complete, and the operand is the first of another one.
      obtain ⟨fuel', rfl⟩ : ∃ k, fuel' = k + 2 := ⟨fuel' - 2, by omega⟩
      obtain ⟨here, next, there, stops, goesOn⟩ :=
        parseOrRest_joint limit depth fuel (fuel' + 1) left (whole left) kind at_
      obtain ⟨next, read, there⟩ := reads fuel' (by omega) there ends
      rw [stops]
      dsimp only
      rw [goesOn, parseAnd, read, followingValues, runs, kind]
      exact ih x.value (.or (whole left)) each (by omega) (by omega) there

/-- A sequence is read as what its operands are, where each of them is. -/
theorem Sequence.parseOr_chars {before : Blanks} {first : Operand}
    {following : List (Joint × Operand)} {after : Blanks} (reads : first.Reads limit depth)
    (each : ∀ p ∈ following, p.2.Reads limit depth) (closes : Closes close)
    (enough : 8 * (Sequence.mk before first following after).chars.length + 3 ≤ fuel)
    (at_ : c.rest = (Sequence.mk before first following after).chars ++ close) :
    Yields (parseOr limit fuel depth c) (some (Sequence.mk before first following after).value)
      close := by
  simp only [Sequence.chars, List.append_assoc] at at_
  simp only [Sequence.chars, List.length_append] at enough
  obtain ⟨fuel, rfl⟩ : ∃ k, fuel = k + 2 := ⟨fuel - 2, by omega⟩
  have there := before.skipped at_ (first.stops_blank _)
  obtain ⟨next, read, there⟩ := reads fuel (by omega) there
    (stops_following following after closes)
  rw [parseOr, parseAnd, read, Sequence.value]
  exact parseOrRest_following following first.value id each after closes (by omega) (by omega) there

/-- The operands that follow another one are no deeper than the deepest. -/
theorem levels_le_followingLevels {following : List (Joint × Operand)} {p : Joint × Operand}
    (mem : p ∈ following) : p.2.levels ≤ followingLevels following := by
  induction following with
  | nil => cases mem
  | cons q others ih =>
    obtain ⟨joint, x⟩ := q
    rw [followingLevels]
    rcases List.mem_cons.mp mem with rfl | later
    · exact Nat.le_max_left _ _
    · exact Nat.le_trans (ih later) (Nat.le_max_right _ _)

/-- An operand within the limit is read as what it is; the induction is on the operand. -/
theorem Operand.reads (limit depth : Nat) (x : Operand) (room : depth + x.levels ≤ limit) :
    x.Reads limit depth := by
  induction x using Operand.induction generalizing depth with
  | word w =>
    intro fuel c rest enough at_ ends
    have some_ := List.length_pos_iff.mpr w.some_
    rw [Operand.chars] at enough at_
    rw [Operand.levels] at room
    obtain ⟨fuel, rfl⟩ : ∃ k, fuel = k + 2 := ⟨fuel - 2, by omega⟩
    have read := parseOperand_word limit fuel depth at_ w.some_ w.word ends w.free
    rwa [within_some room] at read
  | phrase letters =>
    intro fuel c rest enough at_ ends
    simp only [Operand.chars, List.cons_append, List.append_assoc, List.nil_append] at at_
    simp only [Operand.chars, List.length_cons] at enough
    rw [Operand.levels] at room
    obtain ⟨fuel, rfl⟩ : ∃ k, fuel = k + 2 := ⟨fuel - 2, by omega⟩
    have read : Yields (parseOperand limit (fuel + 2) depth c) _ rest :=
      parseOperand_phrase (doubleQuoted_letters letters [] rest 1) at_
    rwa [within_some room] at read
  | group before first following after ihFirst ihFollowing =>
    intro fuel c rest enough at_ ends
    rw [Operand.levels, Sequence.levels] at room
    simp only [Operand.chars, List.cons_append, List.append_assoc, List.nil_append] at at_
    simp only [Operand.chars, List.length_cons, List.length_append, List.length_nil] at enough
    obtain ⟨fuel, rfl⟩ : ∃ k, fuel = k + 2 := ⟨fuel - 2, by omega⟩
    -- Each operand of the group is read a level further down, which the limit has room for.
    have inside : ∀ p ∈ following, p.2.Reads limit (depth + 1) := fun p mem =>
      ihFollowing p mem (depth + 1) (by have := levels_le_followingLevels mem; omega)
    refine parseOperand_group at_ (by omega) fun d inner => ?_
    refine Sequence.parseOr_chars (ihFirst (depth + 1) (by omega)) inside ?_ (by omega) inner
    exact fun d last => (Option.some.inj last).symm
  | denied gap operand ih =>
    intro fuel c rest enough at_ ends
    -- What is denied is the next operand and nothing behind it.
    rw [Operand.levels] at room
    simp only [Operand.chars, List.append_assoc] at at_
    simp only [Operand.chars, List.length_append] at enough
    have some_ := List.length_pos_iff.mpr gap.some_
    obtain ⟨fuel, rfl⟩ : ∃ k, fuel = k + 1 := ⟨fuel - 1, by omega⟩
    obtain ⟨next, found, there⟩ := behind?_next (by decide) at_
      (stops_name_of_word (gap.stops_word _))
    rw [parseOperand_denied (by omega) found]
    exact (ih (depth + 1) (by omega) fuel (by omega)
      (gap.skipped there (operand.stops_blank rest)) ends).map .not

/-- The text of a sequence within the limit is read as what the sequence is. -/
theorem Sequence.parseWords_text (s : Sequence) (room : s.levels ≤ limit) :
    parseWords limit s.text = .ok s.value := by
  have closes : Closes [] := fun _ last => nomatch last
  have start : (Cursor.start s.text).rest = s.chars ++ [] := by
    rw [List.append_nil]
    exact String.toList_ofList
  -- The reader has steps in proportion to the text.
  have enough : 8 * s.chars.length + 3 ≤ parseFuel s.text := by
    rw [parseFuel, Sequence.text, String.length_ofList]
    omega
  obtain ⟨next, read, left⟩ : Yields (parseOr limit (parseFuel s.text) 0 (.start s.text))
      (some s.value) [] := by
    obtain ⟨before, first, following, after⟩ := s
    rw [Sequence.levels] at room
    have each : ∀ p ∈ following, p.2.Reads limit 0 := fun p mem =>
      p.2.reads limit 0 (by have := levels_le_followingLevels mem; omega)
    exact Sequence.parseOr_chars (first.reads limit 0 (by omega)) each closes enough start
  -- Nothing is left behind the sequence, so the text is read to its end.
  have finished : next.isFinished = true := by
    rw [Cursor.isFinished, Cursor.rest_skipBlanks, left]
    rfl
  rw [parseWords, read]
  dsimp only
  rw [finished, if_pos rfl]

/-- The text of a sequence is not all blanks. -/
theorem Sequence.trimChars_chars (s : Sequence) : trimChars s.text.toList ≠ [] := by
  obtain ⟨before, first, following, after⟩ := s
  obtain ⟨c, more, chars, visible, -⟩ := first.chars_cons
  have mem : c ∈ (Sequence.mk before first following after).text.toList := by
    rw [Sequence.text, String.toList_ofList, Sequence.chars, chars]
    simp
  exact List.ne_nil_of_mem (mem_trimChars mem visible)

/-- An `AND` is no `OR`, whether or not it is written. -/
theorem Joint.isOr_explicit (joint : Joint) : joint.explicit.isOr = joint.isOr := by
  cases joint <;> rfl

/-- The operands that follow are the same searches where those of each are, with every `AND`. -/
theorem followingValues_explicit {following : List (Joint × Operand)}
    (each : ∀ p ∈ following, p.2.explicit.value = p.2.value) :
    followingValues (explicitFollowing following) = followingValues following := by
  induction following with
  | nil => rw [explicitFollowing]
  | cons p others ih =>
    obtain ⟨joint, x⟩ := p
    obtain ⟨same, each⟩ := List.forall_mem_cons.mp each
    replace same : x.explicit.value = x.value := same
    rw [explicitFollowing, followingValues, followingValues, same, joint.isOr_explicit, ih each]

/-- The operands that follow take the same levels where each does, with every `AND`. -/
theorem followingLevels_explicit {following : List (Joint × Operand)}
    (each : ∀ p ∈ following, p.2.explicit.levels = p.2.levels) :
    followingLevels (explicitFollowing following) = followingLevels following := by
  induction following with
  | nil => rw [explicitFollowing]
  | cons p others ih =>
    obtain ⟨joint, x⟩ := p
    obtain ⟨same, each⟩ := List.forall_mem_cons.mp each
    replace same : x.explicit.levels = x.levels := same
    rw [explicitFollowing, followingLevels, followingLevels, same, ih each]

/-- An operand is the same search on the same levels with an `AND` in every conjunction. -/
theorem Operand.explicit_same (x : Operand) :
    x.explicit.value = x.value ∧ x.explicit.levels = x.levels := by
  induction x using Operand.induction with
  | word | phrase => exact ⟨rfl, rfl⟩
  | group before first following after ihFirst ihFollowing =>
    have values := followingValues_explicit fun p mem => (ihFollowing p mem).1
    have levels := followingLevels_explicit fun p mem => (ihFollowing p mem).2
    constructor
    · rw [Operand.explicit, Operand.value, Operand.value, Sequence.explicit, Sequence.value,
        Sequence.value, ihFirst.1, values]
    · rw [Operand.explicit, Operand.levels, Operand.levels, Sequence.explicit, Sequence.levels,
        Sequence.levels, ihFirst.2, levels]
  | denied gap operand ih =>
    exact ⟨congrArg Search.not ih.1, congrArg (· + 1) ih.2⟩

/-- A sequence is the same search on the same levels with an `AND` in every conjunction. -/
theorem Sequence.explicit_same (s : Sequence) :
    s.explicit.value = s.value ∧ s.explicit.levels = s.levels := by
  -- A group has no more to it than its sequence.
  have same := (Operand.group s).explicit_same
  rw [Operand.explicit, Operand.value, Operand.value, Operand.levels, Operand.levels] at same
  exact ⟨same.1, Nat.add_right_cancel same.2⟩

/-- Operands with blanks between them are grouped as their operators say, written out or not.

A sequence that stays within the limit is read as the disjunction, grouped from the left, of the
conjunctions, grouped from the left, of its operands in their order, where a `NOT` denies the
operand behind it only. Wherever conjunctions have an `AND` or mere blanks, the search is the
same. -/
theorem sequences_group_by_operators {config : Config} (words : config.tokenization = .words)
    (s : Sequence) (room : s.levels ≤ config.maxDepth) :
    parse config s.text = .ok s.value ∧
      ∀ t : Sequence, t.explicit = s.explicit → parse config t.text = .ok s.value := by
  -- Every sequence within the limit is read as what it is.
  have reads (t : Sequence) (room : t.levels ≤ config.maxDepth) :
      parse config t.text = .ok t.value := by
    have some_ : (trimChars t.text.toList).isEmpty = false :=
      List.isEmpty_eq_false_iff.mpr t.trimChars_chars
    rw [parse, some_, words]
    exact t.parseWords_text room
  refine ⟨reads s room, fun t same => ?_⟩
  -- Two sequences with the same operators written out are the same search on the same levels.
  have value : t.value = s.value := by rw [← t.explicit_same.1, same, s.explicit_same.1]
  have levels : t.levels = s.levels := by rw [← t.explicit_same.2, same, s.explicit_same.2]
  rw [← value]
  exact reads t (levels ▸ room)

/-- A word of letters that are no operator. -/
def Word.fine : Word :=
  ⟨['f', 'i', 'n', 'e'], nofun, by simp [isWordChar, isBlank], by cbv⟩

/-- A word that starts with the letters of an operator, behind which its name goes on. -/
def Word.order : Word :=
  ⟨['O', 'R', 'D', 'E', 'R', '\'', 's'], nofun, by simp [isWordChar, isBlank], by cbv⟩

/-- A word, a phrase and a denied group of two words, with one joint outside the group left open and
one inside. -/
def mixture (outer inner : Joint) : Sequence :=
  .mk ⟨[], nofun⟩ (.word .order)
    [(outer, .phrase [.plain 'a' (by decide), .kept '"']),
      (.or .single .single, .denied .single (.group
        (.mk ⟨[], nofun⟩ (.word .fine) [(inner, .word .order)] Gap.single.toBlanks)))]
    ⟨[], nofun⟩

/-- A search with a phrase, a denied group, and words side by side or with an `AND` between them. -/
theorem sequences_group_by_operators_of_mixture :
    let x : Search := .or (.and (.term "ORDER's") (.term "a\""))
      (.not (.and (.term "fine") (.term "ORDER's")))
    parse .default "ORDER's \"a\\\"\" OR NOT (fine AND ORDER's )" = .ok x ∧
      parse .default "ORDER's AND \"a\\\"\" OR NOT (fine ORDER's )" = .ok x := by
  intro x
  have words : Config.default.tokenization = .words := rfl
  have both := sequences_group_by_operators words
    (mixture (.beside .single) (.and .single .single)) (by decide)
  have written : (mixture (.beside .single) (.and .single .single)).text
      = "ORDER's \"a\\\"\" OR NOT (fine AND ORDER's )" := by cbv
  have other : (mixture (.and .single .single) (.beside .single)).text
      = "ORDER's AND \"a\\\"\" OR NOT (fine ORDER's )" := by cbv
  have meant : (mixture (.beside .single) (.and .single .single)).value = x := by cbv
  rw [meant, written] at both
  exact ⟨both.1, other ▸ both.2 (mixture (.and .single .single) (.beside .single)) rfl⟩

end Search

end EdmQuery
