import Mathlib
import EdmQuery.Proofs.Sql.Filling

/-! Templates are filled in rounds, and a later round also fills the places in earlier arguments. -/

namespace EdmQuery

open Text Number

/-- A character that may stand behind the opening brace of a place. -/
def isInsidePlace (c : Char) : Bool :=
  isDigit c || c == '\x7d'

/-- Characters with all the places of one argument filled. -/
def filledAt (k : Nat) (filling chars : List Char) : List Char :=
  replacePlaceUpTo (placeText k).toList filling chars.length chars

section

variable {k j : Nat} {filling chars front back rest after lead : List Char} {c : Char}

/-- What is left behind a place is shorter. -/
theorem length_lt_of_afterPlace? (found : afterPlace? (placeText k).toList chars = some after) :
    after.length < chars.length := by
  -- A place has at least its opening brace.
  rw [afterPlace?, toList_placeText] at found
  rw [stripLead_some (Option.ite_none_left_eq_some.mp found).2, List.length_append,
    List.length_cons]
  omega

/-- Fuel for every character is as good as more of it. -/
theorem replacePlaceUpTo_enough {fuel more : Nat} (enough : chars.length ≤ fuel)
    (enough' : chars.length ≤ more) :
    replacePlaceUpTo (placeText k).toList filling fuel chars
      = replacePlaceUpTo (placeText k).toList filling more chars := by
  -- A step takes one unit and leaves at least one character less.
  induction fuel generalizing chars more with
  | zero =>
    rw [List.eq_nil_of_length_eq_zero (Nat.le_zero.mp enough)]
    cases more <;> rfl
  | succ fuel ih =>
    cases chars with
    | nil => cases more <;> rfl
    | cons c rest =>
      rw [List.length_cons] at enough enough'
      obtain ⟨more, rfl⟩ := Nat.exists_eq_add_of_le' (Nat.lt_of_lt_of_le (Nat.succ_pos _) enough')
      rw [replacePlaceUpTo, replacePlaceUpTo]
      cases found : afterPlace? (placeText k).toList (c :: rest) with
      | none => exact congrArg (c :: ·) (ih (by omega) (by omega))
      | some after =>
        have shorter := length_lt_of_afterPlace? found
        rw [List.length_cons] at shorter
        exact congrArg (filling ++ ·) (ih (by omega) (by omega))

/-- Where a place stands it is filled, and the search goes on behind it. -/
theorem filledAt_found (found : afterPlace? (placeText k).toList chars = some after) :
    filledAt k filling chars = filling ++ filledAt k filling after := by
  have shorter := length_lt_of_afterPlace? found
  cases chars with
  | nil => cases shorter
  | cons c rest =>
    rw [List.length_cons] at shorter
    rw [filledAt, List.length_cons, replacePlaceUpTo, found, filledAt]
    exact congrArg (filling ++ ·) (replacePlaceUpTo_enough (by omega) (Nat.le_refl _))

/-- Where no place stands a character is left as it is. -/
theorem filledAt_cons (missing : afterPlace? (placeText k).toList (c :: rest) = none) :
    filledAt k filling (c :: rest) = c :: filledAt k filling rest :=
  replacePlaceUpTo_cons missing

/-- A text without braces is left as it is. -/
theorem filledAt_braceless (plain : Braceless front) (rest : List Char) :
    filledAt k filling (front ++ rest) = front ++ filledAt k filling rest := by
  rw [filledAt, List.length_append]
  exact replacePlaceUpTo_braceless plain rest.length

/-- The place that is looked for is filled. -/
theorem filledAt_self (k : Nat) (filling : List Char) :
    filledAt k filling (placeText k).toList = filling := by
  have found := afterPlace?_self k []
  rw [List.append_nil] at found
  rw [filledAt_found found]
  exact List.append_nil filling

/-- Another place is left as it is. -/
theorem filledAt_other (other : j ≠ k) : filledAt k filling (placeText j).toList
    = (placeText j).toList := by
  have kept : replacePlaceUpTo _ filling _ (_ ++ []) = _ := replacePlaceUpTo_other other 0
  rwa [List.append_nil, Nat.add_zero, replacePlaceUpTo, List.append_nil] at kept

/-- A text in which the place does not occur is left as it is. -/
theorem filledAt_absent (absent : ¬ (placeText k).toList <:+: chars) :
    filledAt k filling chars = chars := by
  induction chars with
  | nil => rfl
  | cons c rest ih =>
    have missing : afterPlace? (placeText k).toList (c :: rest) = none := by
      by_contra found
      obtain ⟨after, found⟩ := Option.ne_none_iff_exists'.mp found
      rw [afterPlace?] at found
      exact absent ⟨[], after, (stripLead_some (Option.ite_none_left_eq_some.mp found).2).symm⟩
    have behind : ¬ (placeText k).toList <:+: rest := fun inside =>
      absent (inside.trans (List.suffix_cons c rest).isInfix)
    rw [filledAt_cons missing, ih behind]

/-- Whether a lead stands in front is settled before characters that it does not have. -/
theorem stripLead_append_of_stops {p : Char → Bool} (inside : ∀ c ∈ lead, p c = true)
    (stops : Stops p back) (front : List Char) :
    stripLead lead (front ++ back) = (stripLead lead front).map (· ++ back) := by
  induction lead generalizing front with
  | nil => rfl
  | cons l lead ih =>
    rw [List.forall_mem_cons] at inside
    cases front with
    | cons c front =>
      rw [List.cons_append, stripLead, stripLead, ih inside.2]
      split <;> rfl
    | nil =>
      cases back with
      | nil => rfl
      | cons c back =>
        have other : (l == c) = false := by
          refine beq_false_of_ne fun same => ?_
          rw [← same] at stops
          exact Bool.noConfusion (inside.1.symm.trans (stops l rfl))
        rw [List.nil_append, stripLead, other]
        rfl

/-- Whether a place stands in front is settled before characters that no place has inside. -/
theorem afterPlace?_append (stops : Stops isInsidePlace back) (c : Char) (front : List Char) :
    afterPlace? (placeText k).toList (c :: front ++ back)
      = (afterPlace? (placeText k).toList (c :: front)).map (· ++ back) := by
  have inside : ∀ d ∈ (natText k).toList ++ ['\x7d'], isInsidePlace d = true := by
    intro d mem
    rcases List.mem_append.mp mem with digit | brace
    · rw [isInsidePlace, isDigit_of_mem_natText digit, Bool.true_or]
    · rw [List.mem_singleton.mp brace]
      rfl
  rw [toList_placeText, afterPlace?, afterPlace?, List.isEmpty_cons, List.cons_append, stripLead,
    stripLead, stripLead_append_of_stops inside stops]
  cases openBrace == c <;> rfl

/-- Two texts are filled apart where no place can go on from the first into the second. -/
theorem filledAt_append (stops : Stops isInsidePlace back) (front : List Char) :
    filledAt k filling (front ++ back) = filledAt k filling front ++ filledAt k filling back := by
  -- The induction is on the length, since a place is left behind as a whole.
  induction length : front.length using Nat.strong_induction_on generalizing front with
  | _ n ih =>
    subst length
    cases front with
    | nil => rfl
    | cons c front =>
      have both := afterPlace?_append (k := k) stops c front
      cases found : afterPlace? (placeText k).toList (c :: front) with
      | none =>
        rw [found] at both
        have rest := ih front.length (Nat.lt_succ_self _) front rfl
        rw [List.cons_append] at both ⊢
        rw [filledAt_cons found, filledAt_cons both, rest, List.cons_append]
      | some after =>
        rw [found] at both
        have rest := ih after.length (length_lt_of_afterPlace? found) after rfl
        rw [filledAt_found found, filledAt_found both, rest, List.append_assoc]

end

namespace Piece

/-- The characters of a piece when each place shows some characters. -/
def showing (fill : Nat → List Char) : Piece → List Char
  | text s => s.toList
  | argument i => fill i

/-- Whether no place can go on from an argument in front of these pieces into them. -/
def startApart : List Piece → Bool
  | [] => true
  | text s :: _ => s.toList.head?.any fun c => !isInsidePlace c
  | argument _ :: _ => false

/-- Whether texts have no braces, and arguments have texts behind them that end all places. -/
def areApart : List Piece → Bool
  | [] => true
  | text s :: rest => isBraceless (text s) && areApart rest
  | argument _ :: rest => startApart rest && areApart rest

variable {pieces : List Piece} {k : Nat} {filling : List Char} {fill : Nat → List Char}

/-- Pieces that start apart stop every place in front of them. -/
theorem stops_of_startApart (apart : startApart pieces = true) (fill : Nat → List Char) :
    Stops isInsidePlace (pieces.flatMap (showing fill)) := by
  cases pieces with
  | nil => exact .nil
  | cons p rest =>
    cases p with
    | argument i => cases apart
    | text s =>
      rw [startApart, Option.any_eq_true] at apart
      obtain ⟨c, first, outside⟩ := apart
      obtain ⟨others, chars⟩ := List.head?_eq_some_iff.mp first
      rw [List.flatMap_cons, showing, chars, List.cons_append]
      exact .cons ((Bool.not_eq_true' _).mp outside)

/-- A place is filled in every argument by itself. -/
theorem filledAt_showing (apart : areApart pieces = true) (fill : Nat → List Char) :
    filledAt k filling (pieces.flatMap (showing fill))
      = pieces.flatMap (showing fun i => filledAt k filling (fill i)) := by
  induction pieces with
  | nil => rfl
  | cons p rest ih =>
    rw [List.flatMap_cons, List.flatMap_cons]
    cases p with
    | text s =>
      rw [areApart, Bool.and_eq_true] at apart
      have plain : Braceless s.toList := by simpa [isBraceless, Braceless] using apart.1
      rw [showing, filledAt_braceless plain, ih apart.2, showing]
    | argument i =>
      rw [areApart, Bool.and_eq_true] at apart
      rw [showing, filledAt_append (stops_of_startApart apart.1 fill), ih apart.2, showing]

end Piece

namespace Template

variable {pieces : List Piece} {k i : Nat} {arguments : List String} {text : String}

/-- A round fills the places of its argument. -/
theorem fillFrom_cons (text : String) (k : Nat) (a : String) (rest : List String) :
    fillFrom text k (a :: rest)
      = fillFrom (String.ofList (filledAt k a.toList text.toList)) (k + 1) rest :=
  rfl

/-- A text without places of the arguments is left as it is in all rounds. -/
theorem fillFrom_absent
    (absent : ∀ j, j < arguments.length → ¬ (placeText (k + j)).toList <:+: text.toList) :
    fillFrom text k arguments = text := by
  induction arguments generalizing k with
  | nil => rfl
  | cons a rest ih =>
    have first : ¬ (placeText k).toList <:+: text.toList := absent 0 (Nat.succ_pos _)
    rw [fillFrom_cons, filledAt_absent first, String.ofList_toList]
    refine ih fun j less => ?_
    rw [Nat.add_right_comm, Nat.add_assoc]
    exact absent (j + 1) (Nat.succ_lt_succ less)

/-- In all rounds, every argument is filled by itself. -/
theorem fillFrom_showing (apart : Piece.areApart pieces = true) (fill : Nat → List Char) (k : Nat)
    (arguments : List String) :
    fillFrom (String.ofList (pieces.flatMap (Piece.showing fill))) k arguments
      = String.ofList (pieces.flatMap (Piece.showing fun i =>
          (fillFrom (String.ofList (fill i)) k arguments).toList)) := by
  induction arguments generalizing k fill with
  | nil => simp only [fillFrom, String.toList_ofList]
  | cons a rest ih =>
    simp only [fillFrom_cons, String.toList_ofList]
    rw [Piece.filledAt_showing apart, ih]

/-- A place is filled in the round of its argument, whose own places the later rounds fill. -/
theorem fillFrom_place (i k : Nat) (arguments : List String) :
    fillFrom (placeText (k + i)) k arguments
      = ((arguments[i]?).map fun a =>
          fillFrom a (k + i + 1) (arguments.drop (i + 1))).getD (placeText (k + i)) := by
  induction arguments generalizing i k with
  | nil => rfl
  | cons a rest ih =>
    rw [fillFrom_cons]
    cases i with
    | zero =>
      rw [Nat.add_zero, filledAt_self, String.ofList_toList]
      rfl
    | succ i =>
      have later : k + (i + 1) ≠ k := by omega
      rw [filledAt_other later, String.ofList_toList, ← Nat.add_assoc, Nat.add_right_comm, ih]
      rfl

/-- The templates of all functions keep their texts and arguments apart. -/
theorem areApart_pieces {t : Template} (mem : t ∈ all) (d : Dialect) :
    Piece.areApart (t.pieces d) = true := by
  have each : all.all (fun t => [Dialect.sqlite, .postgres, .mysql].all fun d =>
      Piece.areApart (t.pieces d)) = true := by
    cbv
  have known : d ∈ [Dialect.sqlite, .postgres, .mysql] := by
    cases d <;> decide
  exact List.all_eq_true.mp (List.all_eq_true.mp each t mem) d known

/-- A template with some characters showing at each place. -/
def showing (t : Template) (d : Dialect) (fill : Nat → List Char) : String :=
  String.ofList ((t.pieces d).flatMap (Piece.showing fill))

/-- What a place shows when all arguments are put in at once, so that none is looked into. -/
def atOnce (arguments : List String) (i : Nat) : List Char :=
  ((arguments[i]?).getD (placeText i)).toList

/-- What a place shows when the later arguments are also put into its own. -/
def inRounds (arguments : List String) (i : Nat) : List Char :=
  (((arguments[i]?).map fun a =>
    fillFrom a (i + 1) (arguments.drop (i + 1))).getD (placeText i)).toList

/-- No argument has the place of a later one inside. -/
def AreSettled (arguments : List String) : Prop :=
  ∀ i j a, i < j → j < arguments.length → arguments[i]? = some a →
    ¬ (placeText j).toList <:+: a.toList

/-- A template is spelled with its places. -/
theorem spelling_eq_showing (t : Template) (d : Dialect) :
    t.spelling d = t.showing d fun i => (placeText i).toList := by
  rw [spelling, showing, String.ext_iff, String.toList_join, String.toList_ofList, List.flatMap_map]
  exact List.flatMap_congr fun p _ => by cases p <;> rfl

/-- The SQL of a function has every argument at its places, with the later ones put in there. -/
theorem render_eq_inRounds {t : Template} (mem : t ∈ all) (d : Dialect) (arguments : List String) :
    t.render d arguments = t.showing d (inRounds arguments) := by
  have each (i : Nat) := fillFrom_place i 0 arguments
  simp only [Nat.zero_add] at each
  rw [render, spelling_eq_showing, showing, fillFrom_showing (areApart_pieces mem d)]
  simp only [String.ofList_toList, each]
  rfl

/-- The later rounds leave an argument as it is when it has no place for them inside. -/
theorem inRounds_of_areSettled (settled : AreSettled arguments) :
    inRounds arguments = atOnce arguments := by
  funext i
  cases known : arguments[i]? with
  | none =>
    rw [inRounds, atOnce, known]
    rfl
  | some a =>
    have kept : fillFrom a (i + 1) (arguments.drop (i + 1)) = a := by
      refine fillFrom_absent fun j less => settled i (i + 1 + j) a (by omega) ?_ known
      rw [List.length_drop] at less
      omega
    rw [inRounds, atOnce, known, Option.map_some, kept]

/-- Arguments are put into a template as if all at once when none has a later place inside.

In general an argument appears with the later ones put into the places that it has itself. -/
theorem render_substitutes {t : Template} (mem : t ∈ all) (d : Dialect) (arguments : List String) :
    t.spelling d = t.showing d (fun i => (placeText i).toList) ∧
      t.render d arguments = t.showing d (inRounds arguments) ∧
      (AreSettled arguments → t.render d arguments = t.showing d (atOnce arguments)) := by
  have rounds := render_eq_inRounds mem d arguments
  refine ⟨t.spelling_eq_showing d, rounds, fun settled => ?_⟩
  rw [rounds, inRounds_of_areSettled settled]

/-- The SQL of two texts joined to one. -/
def joinedTexts : Template :=
  ⟨"concat", between "(" (arg 0 ++ fixed " || " ++ arg 1) ")", none,
    some (call "CONCAT" [arg 0, arg 1])⟩

/-- Columns with places in their names stay as they are, as long as no later argument has these. -/
theorem render_substitutes_columns :
    let columns := ["\"$it\".\"\x7b0\x7d\"", "\"$it\".\"\x7b7\x7d\x7b0\x7d\""]
    joinedTexts ∈ all ∧ AreSettled columns ∧ joinedTexts.render .sqlite columns
      = "(\"$it\".\"\x7b0\x7d\" || \"$it\".\"\x7b7\x7d\x7b0\x7d\")" := by
  intro columns
  have mem : joinedTexts ∈ all := by simp [all, ofTexts, joinedTexts]
  have settled : AreSettled columns := by
    intro i j a before within given
    obtain ⟨rfl, rfl⟩ : i = 0 ∧ j = 1 := by
      have within : j < 2 := within
      omega
    cases given
    decide
  refine ⟨mem, settled, ?_⟩
  rw [(render_substitutes mem .sqlite columns).2.2 settled]
  cbv

/-- A column whose name has the place of the second argument gets that argument into its name. -/
theorem column_is_overwritten :
    let arguments := ["\"$it\".\"\x7b1\x7d\"", "?1"]
    joinedTexts ∈ all ∧
      joinedTexts.render .sqlite arguments = "(\"$it\".\"?1\" || ?1)" ∧
      joinedTexts.showing .sqlite (atOnce arguments) = "(\"$it\".\"\x7b1\x7d\" || ?1)" := by
  intro arguments
  refine ⟨by simp [all, ofTexts, joinedTexts], by cbv, by cbv⟩

end Template

end EdmQuery
