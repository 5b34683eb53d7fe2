import Mathlib
import EdmQuery.Proofs.Text.Digits
import EdmQuery.Sql.Condition

/-! Templates filled one argument after the other read as if all places were filled at once. -/

namespace EdmQuery

open Text Number

/-- The brace that opens the place of an argument. -/
def openBrace : Char := '\x7b'

/-- A text that no place of an argument is found in. -/
def Braceless (chars : List Char) : Prop :=
  openBrace ∉ chars

namespace Braceless

variable {front back : List Char}

/-- Texts without braces are joined to one without braces. -/
theorem append (first : Braceless front) (second : Braceless back) : Braceless (front ++ back) := by
  intro mem
  rcases List.mem_append.mp mem with before | behind
  · exact first before
  · exact second behind

/-- Many texts without braces are joined to one without braces. -/
theorem flatMap {α : Type} {list : List α} {chars : α → List Char}
    (each : ∀ a ∈ list, Braceless (chars a)) : Braceless (list.flatMap chars) := by
  intro mem
  obtain ⟨a, memA, inside⟩ := List.mem_flatMap.mp mem
  exact each a memA inside

end Braceless

/-- A written number has no braces. -/
theorem braceless_natText (n : Nat) : Braceless (natText n).toList := by
  intro mem
  have digit := isDigit_of_mem_natText mem
  simp [openBrace, isDigit] at digit

/-- The characters of a place: a number in braces. -/
theorem toList_placeText (k : Nat) :
    (placeText k).toList = openBrace :: ((natText k).toList ++ ['\x7d']) := by
  rw [placeText, String.toList_append, String.toList_append]
  rfl

/-- What stands behind a lead is left when it is stripped off. -/
theorem stripLead_append (lead rest : List Char) : stripLead lead (lead ++ rest) = some rest := by
  induction lead with
  | nil => rfl
  | cons c lead ih => rw [List.cons_append, stripLead, beq_self_eq_true, if_pos rfl, ih]

/-- A lead that is stripped off stood in front. -/
theorem stripLead_some {lead chars rest : List Char} (stripped : stripLead lead chars = some rest) :
    chars = lead ++ rest := by
  induction lead generalizing chars with
  | nil =>
    cases stripped
    rfl
  | cons l lead ih =>
    cases chars with
    | nil => cases stripped
    | cons c chars =>
      rw [stripLead] at stripped
      split at stripped
      · rename_i same
        rw [eq_of_beq same, ih stripped, List.cons_append]
      · cases stripped

section

variable {k j : Nat} {filling rest : List Char}

/-- A place is found where it stands. -/
theorem afterPlace?_self (k : Nat) (rest : List Char) :
    afterPlace? (placeText k).toList ((placeText k).toList ++ rest) = some rest := by
  rw [afterPlace?, stripLead_append, toList_placeText]
  rfl

/-- A place is not found where another one stands. -/
theorem afterPlace?_other (other : j ≠ k) (rest : List Char) :
    afterPlace? (placeText k).toList ((placeText j).toList ++ rest) = none := by
  -- The digits up to the closing brace are the number of the place.
  by_contra found
  obtain ⟨left, found⟩ := Option.ne_none_iff_exists'.mp found
  rw [afterPlace?, toList_placeText] at found
  have same := stripLead_some (Option.ite_none_left_eq_some.mp found).2
  rw [toList_placeText] at same
  have closes : Stops isDigit ('\x7d' :: rest) := .cons rfl
  have closes' : Stops isDigit ('\x7d' :: left) := .cons rfl
  rw [List.cons_append, List.cons_append] at same
  have digits := congrArg (List.takeWhile isDigit) (List.cons.inj same).2
  rw [List.append_assoc, List.append_assoc, List.singleton_append, List.singleton_append,
    closes.takeWhile_append fun c mem => isDigit_of_mem_natText mem,
    closes'.takeWhile_append fun c mem => isDigit_of_mem_natText mem] at digits
  have numbers := congrArg natOfDigits digits
  rw [natOfDigits_natText, natOfDigits_natText] at numbers
  exact other numbers

/-- A character that opens no place is left as it is. -/
theorem replacePlaceUpTo_cons {c : Char} {fuel : Nat}
    (missing : afterPlace? (placeText k).toList (c :: rest) = none) :
    replacePlaceUpTo (placeText k).toList filling (fuel + 1) (c :: rest)
      = c :: replacePlaceUpTo (placeText k).toList filling fuel rest := by
  rw [replacePlaceUpTo, missing]

/-- A text without braces is left as it is. -/
theorem replacePlaceUpTo_braceless {chars : List Char} (plain : Braceless chars) (fuel : Nat) :
    replacePlaceUpTo (placeText k).toList filling (chars.length + fuel) (chars ++ rest)
      = chars ++ replacePlaceUpTo (placeText k).toList filling fuel rest := by
  induction chars with
  | nil => rw [List.length_nil, Nat.zero_add, List.nil_append, List.nil_append]
  | cons c chars ih =>
    have first : c ≠ openBrace := fun same => plain (same ▸ List.mem_cons_self)
    have others : Braceless chars := fun mem => plain (List.mem_cons_of_mem c mem)
    have missing : afterPlace? (placeText k).toList (c :: (chars ++ rest)) = none := by
      simp [afterPlace?, toList_placeText, stripLead, Ne.symm first]
    rw [List.length_cons, Nat.add_right_comm, List.cons_append, replacePlaceUpTo_cons missing,
      ih others, List.cons_append]

/-- The place that is looked for is replaced. -/
theorem replacePlaceUpTo_self (fuel : Nat) :
    replacePlaceUpTo (placeText k).toList filling (fuel + 1) ((placeText k).toList ++ rest)
      = filling ++ replacePlaceUpTo (placeText k).toList filling fuel rest := by
  have found := afterPlace?_self k rest
  rw [toList_placeText, List.cons_append] at found ⊢
  rw [replacePlaceUpTo, found]

/-- Another place is left as it is. -/
theorem replacePlaceUpTo_other (other : j ≠ k) (fuel : Nat) :
    replacePlaceUpTo (placeText k).toList filling ((placeText j).toList.length + fuel)
        ((placeText j).toList ++ rest)
      = (placeText j).toList ++ replacePlaceUpTo (placeText k).toList filling fuel rest := by
  have missing := afterPlace?_other other rest
  have plain : Braceless ((natText j).toList ++ ['\x7d']) := (braceless_natText j).append (by simp [Braceless, openBrace])
  rw [toList_placeText j, List.cons_append] at missing ⊢
  rw [List.length_cons, Nat.add_right_comm, replacePlaceUpTo_cons missing,
    replacePlaceUpTo_braceless plain, List.cons_append]

end

namespace Piece

/-- Whether a piece has no braces but those of a place. -/
def isBraceless : Piece → Bool
  | text s => !s.toList.contains openBrace
  | argument _ => true

/-- The characters of a piece when the first arguments are filled in. -/
def filled (arguments : List (List Char)) : Piece → List Char
  | text s => s.toList
  | argument i => (arguments[i]?).getD (placeText i).toList

/-- Before any argument is filled in, a piece is spelled out. -/
theorem filled_nil (p : Piece) : p.filled [] = p.spelling.toList := by
  cases p <;> rfl

/-- The next argument is filled into its place everywhere, and nothing else changes. -/
theorem replacePlaceUpTo_filled {pieces : List Piece} (plain : pieces.all isBraceless = true)
    {arguments : List (List Char)} (each : ∀ a ∈ arguments, Braceless a) (next : List Char)
    {fuel : Nat} (enough : (pieces.flatMap (filled arguments)).length ≤ fuel) :
    replacePlaceUpTo (placeText arguments.length).toList next fuel
        (pieces.flatMap (filled arguments))
      = pieces.flatMap (filled (arguments ++ [next])) := by
  induction pieces generalizing fuel with
  | nil => cases fuel <;> rfl
  | cons p rest ih =>
    rw [List.all_cons, Bool.and_eq_true] at plain
    rw [List.flatMap_cons, List.length_append] at enough
    obtain ⟨left, rfl⟩ := Nat.exists_eq_add_of_le (Nat.le_of_add_right_le enough)
    have ih {fuel : Nat} (enough : (rest.flatMap (filled arguments)).length ≤ fuel) :=
      ih plain.2 enough
    have covered : (rest.flatMap (filled arguments)).length ≤ left := by omega
    rw [List.flatMap_cons, List.flatMap_cons]
    cases p with
    | text s =>
      have braceless : Braceless s.toList := by simpa [isBraceless, Braceless] using plain.1
      rw [filled, replacePlaceUpTo_braceless braceless, ih covered, filled]
    | argument i =>
      rcases Nat.lt_trichotomy i arguments.length with before | same | behind
      · -- An argument that is filled in already brings no places of its own.
        have known : (argument i).filled arguments = arguments[i] := by
          rw [filled, List.getElem?_eq_getElem before, Option.getD_some]
        have kept : (argument i).filled (arguments ++ [next]) = arguments[i] := by
          rw [filled, List.getElem?_append_left before, List.getElem?_eq_getElem before,
            Option.getD_some]
        rw [known, kept, replacePlaceUpTo_braceless (each _ (List.getElem_mem before)), ih covered]
      · subst same
        have open_ : (argument arguments.length).filled arguments
            = (placeText arguments.length).toList := by
          rw [filled, List.getElem?_eq_none (Nat.le_refl _), Option.getD_none]
        have put : (argument arguments.length).filled (arguments ++ [next]) = next := by
          rw [filled, List.getElem?_concat_length, Option.getD_some]
        -- Replacing the whole place takes no more fuel than its first character.
        have length : (placeText arguments.length).toList.length
            = ((natText arguments.length).toList ++ ['\x7d']).length + 1 := by
          rw [toList_placeText, List.length_cons]
        rw [open_, put, length, Nat.add_right_comm, replacePlaceUpTo_self, ih (by omega)]
      · have open_ : (argument i).filled arguments = (placeText i).toList := by
          rw [filled, List.getElem?_eq_none (Nat.le_of_lt behind), Option.getD_none]
        have still : (argument i).filled (arguments ++ [next]) = (placeText i).toList := by
          rw [filled, List.getElem?_eq_none (by simpa using behind), Option.getD_none]
        rw [open_, still, replacePlaceUpTo_other (Nat.ne_of_gt behind), ih covered]

/-- Pieces without braces have none when all their arguments are there and have none. -/
theorem braceless_filled {pieces : List Piece} (plain : pieces.all isBraceless = true)
    {arguments : List (List Char)} (each : ∀ a ∈ arguments, Braceless a)
    (given : ∀ i, argument i ∈ pieces → i < arguments.length) :
    Braceless (pieces.flatMap (filled arguments)) := by
  refine Braceless.flatMap fun p mem => ?_
  have own := List.all_eq_true.mp plain p mem
  cases p with
  | text s =>
    show Braceless s.toList
    simpa [isBraceless, Braceless] using own
  | argument i =>
    have there := given i mem
    rw [filled, List.getElem?_eq_getElem there, Option.getD_some]
    exact each _ (List.getElem_mem there)

end Piece

namespace Template

/-- Filling in more arguments, one after the other, fills them all in. -/
theorem fillFrom_eq {pieces : List Piece} (plain : pieces.all Piece.isBraceless = true)
    {more : List String} {done : List (List Char)}
    (each : ∀ a ∈ done ++ more.map String.toList, Braceless a) :
    fillFrom (String.ofList (pieces.flatMap (Piece.filled done))) done.length more
      = String.ofList (pieces.flatMap (Piece.filled (done ++ more.map String.toList))) := by
  induction more generalizing done with
  | nil => rw [fillFrom, List.map_nil, List.append_nil]
  | cons next rest ih =>
    have before : ∀ a ∈ done, Braceless a := fun a mem => each a (List.mem_append_left _ mem)
    have step := Piece.replacePlaceUpTo_filled plain before next.toList (Nat.le_refl _)
    rw [fillFrom, replacePlace, String.length_ofList, String.toList_ofList, step]
    have ih := @ih (done ++ [next.toList]) (by simpa using each)
    rw [List.length_append, List.length_singleton] at ih
    rw [ih, List.map_cons, List.append_assoc, List.singleton_append]

/-- Arguments without braces are put into all their places, whatever the rounds of filling are. -/
theorem render_eq {t : Template} {d : Dialect} (plain : (t.pieces d).all Piece.isBraceless = true)
    {arguments : List String} (each : ∀ a ∈ arguments, Braceless a.toList) :
    t.render d arguments
      = String.ofList ((t.pieces d).flatMap (Piece.filled (arguments.map String.toList))) := by
  have spelled : t.spelling d = String.ofList ((t.pieces d).flatMap (Piece.filled [])) := by
    rw [spelling, String.ext_iff, String.toList_join, String.toList_ofList, List.flatMap_map]
    exact List.flatMap_congr fun p _ => p.filled_nil.symm
  rw [render, spelled]
  exact fillFrom_eq plain (by simpa using each)

end Template

end EdmQuery
