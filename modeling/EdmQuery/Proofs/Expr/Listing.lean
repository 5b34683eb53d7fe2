import Mathlib
import EdmQuery.Expr.Order
import EdmQuery.Proofs.Expr.Padding

/-! Lists with commas between their items: orders and expansions, which are enclosed texts. -/

namespace EdmQuery

open Text Recognizer

namespace Cursor

/-- Items with commas between them, as many as there are up to the end. -/
def listed {α : Type} (one : Cursor → Read α) : Nat → Cursor → Except ExpressionError (List α)
  | 0, _ => .ok []
  | fuel + 1, c =>
    match one c with
    | .error e => .error e
    | .ok (item, next) =>
      if next.isFinished then .ok [item]
      else
        match next.skipBlanks.char ',' with
        | .error e => .error e
        | .ok (_, next) => (listed one fuel next).map (item :: ·)

/-- Between two places is a text that closes what it opens. -/
def Passes (c next : Cursor) : Prop :=
  ∃ front, c.rest = front ++ next.rest ∧ Enclosed front

/-- An item has an enclosed text of more characters than its size, which blanks do not change. -/
structure Lists {α : Type} (one : Cursor → Read α) (size : α → Nat) : Prop where
  paired {c d : Cursor} (pads : c.skipBlanks.Pads d.skipBlanks) :
    Paired d.skipBlanks.rest.length (one c) (one d)
  passes {c next : Cursor} {item : α} (read : one c = .ok (item, next)) :
    c.Passes next ∧ size item < c.rest.length

section

variable {c d next : Cursor} {r : Recognizer} {expected text : String}

/-- The text of a place has no blanks behind it. -/
theorem Pads.refl (c : Cursor) : c.Pads c :=
  ⟨[], nofun, (List.append_nil _).symm⟩

/-- Nothing is passed. -/
theorem Passes.refl (c : Cursor) : c.Passes c :=
  ⟨[], rfl, .nil⟩

/-- One text is passed after another. -/
theorem Passes.trans (first : c.Passes d) (second : d.Passes next) : c.Passes next := by
  obtain ⟨front, whole, enclosed⟩ := first
  obtain ⟨more, whole', enclosed'⟩ := second
  exact ⟨front ++ more, by rw [whole, whole', List.append_assoc], enclosed.append enclosed'⟩

/-- What is left is no longer than it was. -/
theorem Passes.length_le (passes : c.Passes next) : next.rest.length ≤ c.rest.length := by
  obtain ⟨front, whole, -⟩ := passes
  rw [whole, List.length_append]
  exact Nat.le_add_left _ _

/-- Blanks are passed. -/
theorem Passes.skipBlanks (c : Cursor) : c.Passes c.skipBlanks := by
  refine ⟨c.rest.takeWhile isBlank, ?_, .of_inert fun b mem => ?_⟩
  · rw [rest_skipBlanks, List.takeWhile_append_dropWhile]
  · exact Scan.isInert_of_isBlank (List.mem_takeWhile_imp mem)

/-- Glyphs are passed. -/
theorem Passes.recognize (keeps : Keeps isGlyph r) (read : c.recognize r expected = .ok (text, next)) :
    c.Passes next := by
  obtain ⟨n, found, -, rfl⟩ := recognize_ok read
  refine ⟨c.rest.take n, (List.take_append_drop n c.rest).symm, ?_⟩
  exact through_glyphs (keeps.inside found).2 _

/-- A name is passed. -/
theorem Passes.identifier (read : c.identifier = .ok (text, next)) : c.Passes next :=
  .recognize keeps_identifier read

/-- A word is passed. -/
theorem Passes.keyword {word : String} (letters : word.toList.all isNameChar = true)
    (read : c.keyword word = .ok (text, next)) : c.Passes next := by
  have glyphs : ∀ c ∈ word.toList, isGlyph c = true :=
    fun c mem => isGlyph_of_isNameChar (List.all_eq_true.mp letters c mem)
  rw [Cursor.keyword, bounded_eq_recognize] at read
  exact .recognize ((Keeps.tag glyphs).bounded fun _ => isGlyph_of_isNameChar) read

/-- A glyph is passed. -/
theorem Passes.char {m : Char} (glyph : isGlyph m = true) (read : c.char m = .ok (text, next)) :
    c.Passes next :=
  .recognize (.mark glyph) read

/-- A text in parentheses is passed together with them. -/
theorem Passes.matchingParenthesis (read : c.matchingParenthesis = .ok (text, next)) :
    c.Passes next ∧ text.toList.length + next.rest.length + 2 = c.rest.length := by
  rw [Cursor.matchingParenthesis] at read
  split at read
  · cases read
  rename_i a inside opened
  split at read
  · rename_i n closed
    cases read
    have at_ := char_ok opened
    -- What was found is scanned with the parenthesis that opens it and the one that closes it.
    obtain ⟨front, rest, whole, same, enclosed⟩ := closing_some closed
    rw [Nat.zero_add] at same
    subst same
    have text : (inside.ahead front.length).toList = front := by
      rw [ahead, whole, List.take_left, String.toList_ofList]
    have left : (inside.advance (front.length + 1)).rest = rest := by
      rw [advance, whole, List.drop_length_add_append]
      rfl
    rw [text, left, at_, whole]
    refine ⟨⟨'(' :: (front ++ [')']), ?_, enclosed⟩, ?_⟩
    · rw [at_, whole, left, List.cons_append, List.append_assoc]
      rfl
    · simp only [List.length_cons, List.length_append]
      omega
  · cases read

/-- A reading that is repeated leaves less than so many characters. -/
theorem Paired.less {α : Type} {n : Nat} {a : α} {read : Read α} (paired : Paired n read read)
    (found : read = .ok (a, next)) : next.rest.length < n := by
  cases paired with
  | error => cases found
  | ok pads less =>
    cases found
    exact less

section

variable {α : Type} {one : Cursor → Read α} {size : α → Nat} {item : α} {items : List α}
  {fuel more : Nat}

/-- A list is read where blanks stand behind it as it is without them. -/
theorem Lists.listed_pads (lists : Lists one size) (pads : c.skipBlanks.Pads d.skipBlanks)
    (enough : d.skipBlanks.rest.length < fuel) (enough' : d.skipBlanks.rest.length < more)
    (read : listed one fuel c = .ok items) : listed one more d = .ok items := by
  -- Every item takes a character, which is what the fuel is counted by at both places.
  induction fuel generalizing c d items more with
  | zero => exact absurd enough (Nat.not_lt_zero _)
  | succ fuel ih =>
    obtain ⟨more, rfl⟩ : ∃ k, more = k + 1 := ⟨more - 1, by omega⟩
    -- Both readings find the same item or fail, and go on in the same way behind it.
    have paired := lists.paired pads
    rw [listed] at read ⊢
    generalize one c = first at paired read
    generalize one d = second at paired ⊢
    cases paired with
    | error => cases read
    | @ok item next behind pads less =>
      simp only at read ⊢
      rw [pads.skipBlanks.isFinished] at read
      split at read
      · rename_i ends
        rw [if_pos ends]
        exact read
      rename_i ends
      rw [if_neg ends]
      have comma := pads.skipBlanks.char (m := ',') rfl
      generalize next.skipBlanks.char ',' = first at comma read
      generalize behind.skipBlanks.char ',' = second at comma ⊢
      cases comma with
      | error => cases read
      | @ok text next' behind' pads less' =>
        simp only at read ⊢
        obtain ⟨others, found, same⟩ := map_ok read
        have shorter (c : Cursor) : c.skipBlanks.rest.length ≤ c.rest.length :=
          (Passes.skipBlanks c).length_le
        have := shorter behind
        have := shorter behind'
        rw [ih pads.skipBlanks (by omega) (by omega) found, ← same]
        rfl

/-- An item takes some characters behind blanks. -/
theorem Lists.less (lists : Lists one size) (read : one c = .ok (item, next)) :
    next.rest.length < c.rest.length := by
  have less := (lists.paired (.refl c.skipBlanks)).less read
  exact Nat.lt_of_lt_of_le less (Passes.skipBlanks c).length_le

/-- At the end there is an enclosed text. -/
theorem enclosed_of_isFinished (ends : c.isFinished = true) : Enclosed c.rest := by
  obtain ⟨front, whole, enclosed⟩ := Passes.skipBlanks c
  rw [whole, List.isEmpty_iff.mp ends, List.append_nil]
  exact enclosed

/-- A list is an enclosed text. -/
theorem Lists.enclosed (lists : Lists one size) (enough : c.rest.length < fuel)
    (read : listed one fuel c = .ok items) : Enclosed c.rest := by
  -- Enclosed texts stand side by side: an item, a comma with blanks, and the items behind them.
  induction fuel generalizing c items with
  | zero => exact absurd enough (Nat.not_lt_zero _)
  | succ fuel ih =>
    rw [listed] at read
    split at read
    · cases read
    rename_i item next first
    obtain ⟨front, whole, enclosed⟩ := (lists.passes first).1
    split at read
    · rename_i ends
      rw [whole]
      exact enclosed.append (enclosed_of_isFinished ends)
    split at read
    · cases read
    rename_i text behind comma
    obtain ⟨others, found, -⟩ := map_ok read
    have passes := (Passes.skipBlanks next).trans (.char (by decide) comma)
    have less := lists.less first
    have short := passes.length_le
    obtain ⟨more, whole', enclosed'⟩ := passes
    rw [whole, whole']
    exact enclosed.append (enclosed'.append (ih (by omega) found))

/-- The items of a list are smaller than its text is long. -/
theorem Lists.size_lt (lists : Lists one size) (read : listed one fuel c = .ok items)
    (mem : item ∈ items) : size item < c.rest.length := by
  -- Items further behind are smaller than what is left in front of them, which is less.
  induction fuel generalizing c items with
  | zero =>
    cases read
    cases mem
  | succ fuel ih =>
    rw [listed] at read
    split at read
    · cases read
    rename_i other next first
    obtain ⟨passes, small⟩ := lists.passes first
    split at read
    · cases read
      rw [List.mem_singleton.mp mem]
      exact small
    split at read
    · cases read
    rename_i text behind comma
    obtain ⟨others, found, rfl⟩ := map_ok read
    rcases List.mem_cons.mp mem with rfl | mem
    · exact small
    · have short := ((Passes.skipBlanks next).trans (.char (by decide) comma)).length_le
      have := passes.length_le
      have := ih found mem
      omega

end

end

end Cursor

namespace SortKey

/-- An order is a list of sort keys. -/
theorem parseFrom_eq (type : EntityType) (fuel : Nat) (c : Cursor) :
    parseFrom type fuel c = c.listed (parseOne type) fuel := by
  induction fuel generalizing c with
  | zero => rfl
  | succ fuel ih =>
    rw [parseFrom, Cursor.listed]
    simp only [ih]
    cases parseOne type c with
    | error e => rfl
    | ok found =>
      obtain ⟨key, next⟩ := found
      cases finished : next.isFinished <;> cases comma : next.skipBlanks.char ',' <;>
        simp [finished, comma]

/-- A direction is read where blanks stand behind it as it is without them. -/
theorem parseDirection_pads {c d : Cursor} (pads : c.Pads d) :
    (parseDirection c).1 = (parseDirection d).1 ∧ (parseDirection c).2.Pads (parseDirection d).2 ∧
      (parseDirection d).2.rest.length ≤ d.rest.length := by
  -- Either keyword is there at both places or at neither; without one nothing is taken.
  have desc := pads.keyword "desc" (by decide) (by decide)
  have asc := pads.keyword "asc" (by decide) (by decide)
  rw [parseDirection, parseDirection]
  generalize c.keyword "desc" = first at desc ⊢
  generalize d.keyword "desc" = second at desc ⊢
  cases desc with
  | ok pads less => exact ⟨rfl, pads, Nat.le_of_lt less⟩
  | error =>
    generalize c.keyword "asc" = first at asc ⊢
    generalize d.keyword "asc" = second at asc ⊢
    cases asc with
    | ok pads less => exact ⟨rfl, pads, Nat.le_of_lt less⟩
    | error => exact ⟨rfl, pads, Nat.le_refl _⟩

/-- A direction is passed. -/
theorem passes_parseDirection (c : Cursor) : c.Passes (parseDirection c).2 := by
  rw [parseDirection]
  split
  · rename_i desc
    exact .keyword (by decide) desc
  split
  · rename_i asc
    exact .keyword (by decide) asc
  · exact .refl c

/-- Sort keys are listed. -/
theorem lists_parseOne (type : EntityType) : Cursor.Lists (parseOne type) fun _ => 0 where
  paired {c d} pads := by
    -- What refuses a sort key depends on its name and on what comes next, which are the same.
    have name := pads.identifier
    rw [parseOne, parseOne]
    dsimp only
    generalize c.skipBlanks.identifier = first at name ⊢
    generalize d.skipBlanks.identifier = second at name ⊢
    cases name with
    | error => exact .error _ _
    | @ok name next behind pads less =>
      simp only [pads.peek_eq (m := '/') rfl]
      split
      · exact .error _ _
      split
      · exact .error _ _
      split
      · exact .error _ _
      · obtain ⟨same, pads', short⟩ := parseDirection_pads pads.skipBlanks
        have := (Cursor.Passes.skipBlanks behind).length_le
        rw [same]
        exact .ok pads' (by omega)
  passes {c next item} read := by
    rw [parseOne] at read
    dsimp only at read
    split at read
    · cases read
    rename_i name behind word
    split at read
    · cases read
    split at read
    · cases read
    split at read
    · cases read
    cases read
    have less := (Cursor.Pads.refl c.skipBlanks).identifier.less word
    have short := (Cursor.Passes.skipBlanks c).length_le
    refine ⟨(Cursor.Passes.skipBlanks c).trans <| (Cursor.Passes.identifier word).trans <|
      (Cursor.Passes.skipBlanks behind).trans (passes_parseDirection _), ?_⟩
    omega

end SortKey

namespace ExpandItem

/-- How many characters the options of an expansion have. -/
def size (item : ExpandItem) : Nat :=
  (item.options.getD "").length

/-- A text of expansions is a list of them. -/
theorem parseFrom_eq (fuel : Nat) (c : Cursor) : parseFrom fuel c = c.listed parseOne fuel := by
  induction fuel generalizing c with
  | zero => rfl
  | succ fuel ih =>
    rw [parseFrom, Cursor.listed]
    simp only [ih]
    cases parseOne c with
    | error e => rfl
    | ok found =>
      obtain ⟨item, next⟩ := found
      cases finished : next.isFinished <;> cases comma : next.skipBlanks.char ',' <;>
        simp [finished, comma]

/-- Expansions are listed. -/
theorem lists_parseOne : Cursor.Lists parseOne size where
  paired {c d} pads := by
    have name := pads.identifier
    rw [parseOne, parseOne]
    generalize c.skipBlanks.identifier = first at name ⊢
    generalize d.skipBlanks.identifier = second at name ⊢
    cases name with
    | error => exact .error _ _
    | @ok name next behind pads less =>
      have short := (Cursor.Passes.skipBlanks behind).length_le
      simp only [pads.skipBlanks.peek_skipBlanks]
      split
      · have options := pads.skipBlanks.matchingParenthesis
        generalize next.skipBlanks.matchingParenthesis = first at options ⊢
        generalize behind.skipBlanks.matchingParenthesis = second at options ⊢
        cases options with
        | error => exact .error _ _
        | @ok text next behind pads less' =>
          have inside : behind.rest.length < d.skipBlanks.rest.length := by omega
          exact .ok pads inside
      · exact .ok pads.skipBlanks (by omega)
  passes {c next item} read := by
    rw [parseOne] at read
    split at read
    · cases read
    rename_i name behind word
    have less := (Cursor.Pads.refl c.skipBlanks).identifier.less word
    have short := (Cursor.Passes.skipBlanks c).length_le
    have short' := (Cursor.Passes.skipBlanks behind).length_le
    have passes := (Cursor.Passes.skipBlanks c).trans <| (Cursor.Passes.identifier word).trans <|
      Cursor.Passes.skipBlanks behind
    dsimp only at read
    split at read
    · -- The parentheses around the options make their text the shorter one.
      obtain ⟨⟨options, last⟩, inside, same⟩ := map_ok read
      cases same
      obtain ⟨passes', length⟩ := Cursor.Passes.matchingParenthesis inside
      have trimmed : (trim options).length ≤ options.toList.length := by
        rw [trim, String.length_ofList]
        exact length_trimChars_le _
      refine ⟨passes.trans passes', ?_⟩
      rw [size, Option.getD_some]
      dsimp only
      omega
    · cases read
      refine ⟨passes, ?_⟩
      rw [size, Option.getD_none, String.length_empty]
      omega

end ExpandItem

section

variable {text : String}

/-- A text without the blanks around it has no other visible characters. -/
theorem pads_trim (text : String) :
    (Cursor.start text).skipBlanks.Pads (Cursor.start (trim text)).skipBlanks := by
  -- The blanks in front are skipped at both places, those behind are what differs.
  obtain ⟨tail, whole, blank⟩ := dropWhile_eq_trimChars_append text.toList
  refine ⟨tail, blank, ?_⟩
  have chars : (Cursor.start (trim text)).rest = trimChars text.toList := String.toList_ofList
  have visible : Stops isBlank (trimChars text.toList) := by
    intro c next
    refine Stops.dropWhile isBlank text.toList c ?_
    rw [whole, List.head?_append, next]
    rfl
  rw [Cursor.rest_skipBlanks_of_stops chars visible, Cursor.rest_skipBlanks]
  exact whole

/-- A text without the blanks around it is no longer. -/
theorem length_trim_le (text : String) : (trim text).length ≤ text.length := by
  rw [trim, String.length_ofList, ← String.length_toList]
  exact length_trimChars_le _

variable {α : Type} {one : Cursor → Read α} {size : α → Nat} {items : List α}

/-- A list is the same without the blanks around its text. -/
theorem listed_trim (lists : Cursor.Lists one size)
    (read : (Cursor.start text).listed one (text.length + 1) = .ok items) :
    (Cursor.start (trim text)).listed one ((trim text).length + 1) = .ok items := by
  have short := (Cursor.Passes.skipBlanks (.start (trim text))).length_le
  have whole : (Cursor.start (trim text)).rest.length = (trim text).length := String.length_toList
  have := length_trim_le text
  exact lists.listed_pads (pads_trim text) (by omega) (by omega) read

variable {type : EntityType} {keys : List SortKey} {expansions : List ExpandItem}
  {item : ExpandItem}

/-- An order closes what it opens, and nothing in it ends an option text. -/
theorem enclosed_of_parseOrder (read : parseOrder type text = .ok keys) : Enclosed text.toList := by
  rw [parseOrder, SortKey.parseFrom_eq] at read
  refine (SortKey.lists_parseOne type).enclosed ?_ read
  exact Nat.lt_succ_of_le (Nat.le_of_eq String.length_toList)

/-- An order is the same without the blanks around it. -/
theorem parseOrder_trim (read : parseOrder type text = .ok keys) :
    parseOrder type (trim text) = .ok keys := by
  rw [parseOrder, SortKey.parseFrom_eq] at read ⊢
  exact listed_trim (SortKey.lists_parseOne type) read

/-- Expansions close what they open, and nothing in them ends an option text. -/
theorem enclosed_of_parseExpand (read : parseExpand text = .ok expansions) :
    Enclosed text.toList := by
  rw [parseExpand, ExpandItem.parseFrom_eq] at read
  refine ExpandItem.lists_parseOne.enclosed ?_ read
  exact Nat.lt_succ_of_le (Nat.le_of_eq String.length_toList)

/-- Expansions are the same without the blanks around them. -/
theorem parseExpand_trim (read : parseExpand text = .ok expansions) :
    parseExpand (trim text) = .ok expansions := by
  rw [parseExpand, ExpandItem.parseFrom_eq] at read ⊢
  exact listed_trim ExpandItem.lists_parseOne read

/-- The options of an expansion are shorter than the text that it stands in. -/
theorem size_lt_of_parseExpand (read : parseExpand text = .ok expansions)
    (mem : item ∈ expansions) : item.size < text.length := by
  rw [parseExpand, ExpandItem.parseFrom_eq] at read
  rw [← String.length_toList]
  exact ExpandItem.lists_parseOne.size_lt read mem

end

end EdmQuery
