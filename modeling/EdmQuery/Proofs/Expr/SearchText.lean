import Mathlib
import EdmQuery.Proofs.Expr.Glyphs
import EdmQuery.Proofs.Expr.Lexing
import EdmQuery.Proofs.Expr.SearchHeight

/-! The text of a search is read as the search, unless a bare term starts like an operator. -/

namespace EdmQuery

open Text Recognizer

namespace Search

/-- Whether a character belongs to a bare word of a search. -/
def isWordChar (c : Char) : Bool :=
  !isBlank c && c != '(' && c != ')' && c != '"'

/-- The operator that a text starts with, if any; a name does not go on behind it. -/
def leadingOperator? (chars : List Char) : Option String :=
  operators.find? fun operator => chars.takeWhile isNameChar == operator.toList

/-- What a bare term is read as: a `NOT` denies what stands behind it, other operators are refused. -/
def rereadWord (text : String) : Option Search :=
  match leadingOperator? text.toList with
  | none => some (.term text)
  | some operator =>
    if operator == "NOT" then some (.not (.term (String.ofList (text.toList.drop 3)))) else none

/-- What the text of a search is read as, where depth does not matter. -/
def reread : Search → Option Search
  | term text => if isBare text then rereadWord text else some (.term text)
  | and left right => left.reread.bind fun left => right.reread.map (.and left)
  | or left right => left.reread.bind fun left => right.reread.map (.or left)
  | not operand => operand.reread.map .not

/-- Whether no term of a search is written without quotes though it starts like an operator. -/
def isLegible : Search → Bool
  | term text => !isBare text || (leadingOperator? text.toList).isNone
  | and left right | or left right => left.isLegible && right.isLegible
  | not operand => operand.isLegible

/-- A search is read as itself exactly when it is legible. -/
theorem reread_eq_some_self (x : Search) : x.reread = some x ↔ x.isLegible = true := by
  induction x with
  | term text =>
    rw [reread, isLegible]
    by_cases bare : isBare text = true
    · simp only [bare, if_true, Bool.not_true, Bool.false_or, rereadWord]
      cases leadingOperator? text.toList with
      | none => simp
      | some operator =>
        -- A denial is no term.
        simp only [Option.isNone_some, Bool.false_eq_true, iff_false]
        split <;> simp
    · simp [bare]
  -- Operands are reread on their own, and the whole is itself exactly when both are.
  | and left right ihLeft ihRight | or left right ihLeft ihRight =>
    rw [isLegible, Bool.and_eq_true, ← ihLeft, ← ihRight, reread]
    cases left.reread <;> cases right.reread <;> simp
  | not operand ih =>
    rw [isLegible, ← ih, reread]
    cases operand.reread <;> simp

/-- What a reading leads to: a search in front of the given text, or a refusal. -/
def Yields (read : Read Search) (outcome : Option Search) (rest : List Char) : Prop :=
  match outcome with
  | some x => ∃ next, read = .ok (x, next) ∧ next.rest = rest
  | none => ∃ fault, read = .error fault

/-- A reading that goes on behind another one leads where both do. -/
theorem Yields.bind {read : Read Search} {outcome : Option Search} {rest rest' : List Char}
    (first : Yields read outcome rest) {more : Search → Cursor → Read Search}
    {outcome' : Search → Option Search}
    (second : ∀ x next, next.rest = rest → Yields (more x next) (outcome' x) rest') :
    Yields (match read with | .error e => .error e | .ok (x, next) => more x next)
      (outcome.bind outcome') rest' := by
  cases outcome with
  | none =>
    obtain ⟨fault, rfl⟩ := first
    exact ⟨fault, rfl⟩
  | some x =>
    obtain ⟨next, rfl, left⟩ := first
    exact second x next left

/-- A reading whose search is put into a larger one. -/
theorem Yields.map {read : Read Search} {outcome : Option Search} {rest : List Char}
    (first : Yields read outcome rest) (f : Search → Search) :
    Yields (read.map fun (x, next) => (f x, next)) (outcome.map f) rest := by
  cases outcome with
  | none =>
    obtain ⟨fault, rfl⟩ := first
    exact ⟨fault, rfl⟩
  | some x =>
    obtain ⟨next, rfl, left⟩ := first
    exact ⟨next, rfl, left⟩

section

variable {c next : Cursor} {operator text : String} {front more rest : List Char}

/-- Operators are names. -/
theorem isNameChar_of_operator (mem : operator ∈ operators) :
    ∀ letter ∈ operator.toList, isNameChar letter = true := by
  simp only [operators, List.mem_cons, List.not_mem_nil, or_false] at mem
  rcases mem with rfl | rfl | rfl <;> simp [isNameChar, isAlphanumeric, isAlphabetic]

/-- An operator is behind blanks where the next name is that word. -/
theorem behind?_eq (mem : operator ∈ operators) : behind? c operator =
    if c.skipBlanks.rest.takeWhile isNameChar = operator.toList
      then some (c.skipBlanks.advance operator.toList.length) else none := by
  -- Either the word is matched, and nothing else of a name is behind it, or there is no match.
  have letters := isNameChar_of_operator mem
  rw [behind?, Cursor.keyword, Cursor.bounded_eq]
  split
  · rename_i read
    split at read
    · rename_i n found
      cases read
      by_cases run : c.skipBlanks.rest.takeWhile isNameChar = operator.toList
      · -- The word is all that the name has, and so is the match.
        have same := List.takeWhile_append_dropWhile (p := isNameChar) (l := c.skipBlanks.rest)
        rw [run] at same
        have whole : (tag operator.toList).bounded c.skipBlanks.rest
            = some operator.toList.length := by
          rw [← same]
          exact (Takes.tag _ _).bounded (.dropWhile isNameChar _)
        rw [if_pos run]
        cases found.symm.trans whole
        rfl
      · cases (bounded_tag_eq_none letters run).symm.trans found
    · cases read
  · rename_i read
    split at read
    · cases read
    · rename_i missed
      rw [if_neg]
      rintro run
      exact takeWhile_ne_of_bounded (Takes.tag _) missed run

/-- The characters that end a bare word end a name. -/
theorem stops_name_of_word (ends : Stops isWordChar rest) : Stops isNameChar rest := by
  refine ends.of_imp fun d name => ?_
  have visible := isBlank_of_isNameChar name
  have open_ : d ≠ '(' := ne_of_isNameChar name (by decide)
  have close : d ≠ ')' := ne_of_isNameChar name (by decide)
  have quote : d ≠ '"' := ne_of_isNameChar name (by decide)
  simp [isWordChar, visible, open_, close, quote]

/-- What a bare term consists of: word characters, and no operator alone. -/
theorem isBare_iff : isBare text = true ↔ text ≠ "" ∧ text ∉ operators ∧
    ∀ letter ∈ text.toList, isWordChar letter = true ∧ letter ≠ '\'' := by
  simp only [isBare, isWordChar, Bool.and_eq_true, List.all_eq_true, bne_iff_ne, ne_eq,
    Bool.not_eq_true', List.contains_eq_mem, List.mem_cons, List.not_mem_nil, or_false,
    Bool.or_eq_false_iff, decide_eq_false_iff_not, not_or, and_assoc]

/-- The text of a search starts with a character that is no blank. -/
theorem toText_cons (x : Search) :
    ∃ first more, x.toText.toList = first :: more ∧ isBlank first = false := by
  cases x with
  | term text =>
    rw [toText]
    split
    · rename_i bare
      obtain ⟨some_, -, letters⟩ := isBare_iff.mp bare
      cases chars : text.toList with
      | nil => exact absurd (String.toList_eq_nil_iff.mp chars) some_
      | cons first more =>
        have word := (letters first (chars ▸ List.mem_cons_self)).1
        simp only [isWordChar, Bool.and_eq_true, Bool.not_eq_true'] at word
        exact ⟨first, more, rfl, word.1.1.1⟩
      -- A phrase starts with its quote.
    · exact ⟨'"', escaped text.toList ++ ['"'], by simp, rfl⟩
  | and left right =>
    exact ⟨'(', left.toText.toList ++ " AND ".toList ++ right.toText.toList ++ [')'],
      by simp [toText], rfl⟩
  | or left right =>
    exact ⟨'(', left.toText.toList ++ " OR ".toList ++ right.toText.toList ++ [')'],
      by simp [toText], rfl⟩
  | not operand => exact ⟨'N', "OT ".toList ++ operand.toText.toList, by simp [toText], rfl⟩

/-- The content of a phrase is read back up to its closing quote. -/
theorem doubleQuoted_escaped (content found rest : List Char) (n : Nat) :
    Cursor.doubleQuoted (escaped content ++ '"' :: rest) found n
      = some (found.reverse ++ content, n + (escaped content).length + 1) := by
  induction content generalizing found n with
  | nil => simp [escaped, Cursor.doubleQuoted]
  | cons letter content ih =>
    have first : escaped (letter :: content)
        = (if letter == '\\' || letter == '"' then ['\\', letter] else [letter])
          ++ escaped content := rfl
    rw [first]
    split
    · -- The backslash keeps the character behind it.
      simp only [List.cons_append, List.nil_append, Cursor.doubleQuoted, ih, List.reverse_cons,
        List.append_assoc, List.length_cons]
      simp; omega
    · rename_i plain
      simp only [Bool.or_eq_true, beq_iff_eq, not_or] at plain
      simp only [List.cons_append, List.nil_append, List.length_cons]
      rw [Cursor.doubleQuoted, if_neg (by simp [plain.1]), if_neg (by simp [plain.2]), ih]
      · simp
        omega
      · exact fun _ _ quote _ => plain.1 quote

/-- A bare word is read up to what ends it. -/
theorem searchWord_eq (at_ : c.rest = front ++ rest) (some_ : front ≠ [])
    (word : ∀ letter ∈ front, isWordChar letter = true) (ends : Stops isWordChar rest) :
    ∃ next, c.searchWord = .ok (String.ofList front, next) ∧ next.rest = rest :=
  Cursor.recognize_takes (.run word some_ ends) at_ _

/-- A phrase is read up to its closing quote, as what its characters mean. -/
theorem doubleQuotedString_eq {raw content : List Char}
    (meaning : Cursor.doubleQuoted (raw ++ '"' :: rest) [] 1 = some (content, 1 + raw.length + 1))
    (at_ : c.rest = '"' :: (raw ++ '"' :: rest)) :
    ∃ next, c.doubleQuotedString = .ok (String.ofList content, next) ∧ next.rest = rest := by
  have quote : Recognizer.mark '"' c.rest = some 1 := by
    rw [at_]
    rfl
  have inner : Cursor.doubleQuoted (c.rest.drop 1) [] 1 = some (content, 1 + raw.length + 1) := by
    rw [at_, List.drop_one, List.tail_cons, meaning]
  refine ⟨c.advance (1 + raw.length + 1), ?_, ?_⟩
  · rw [Cursor.doubleQuotedString, Cursor.delimited, Cursor.char, Cursor.recognize, quote]
    dsimp only
    rw [inner]
  · rw [Nat.add_comm 1]
    simp [Cursor.advance, at_]

end

section

variable {limit fuel depth : Nat} {c next : Cursor} {front rest : List Char}

/-- A search that is no deeper than what is left of the limit. -/
def within (limit depth : Nat) (outcome : Option Search) : Option Search :=
  outcome.filter fun x => depth + x.height ≤ limit

/-- Every search has a node. -/
theorem one_le_height (x : Search) : 1 ≤ x.height := by
  cases x <;> simp [height, Search.depth]

/-- A search within the limit stays. -/
theorem within_some {x : Search} (room : depth + x.height ≤ limit) :
    within limit depth (some x) = some x := by
  rw [within, Option.filter_some, if_pos (decide_eq_true room)]

/-- A search that is too deep does not stay. -/
theorem within_some_eq_none {x : Search} (deep : limit < depth + x.height) :
    within limit depth (some x) = none := by
  rw [within, Option.filter_some, if_neg (by simpa using deep)]

/-- No search is within a limit that is reached. -/
theorem within_eq_none (deep : limit < depth + 1) (outcome : Option Search) :
    within limit depth outcome = none := by
  cases outcome with
  | none => rfl
  | some x =>
    have := one_le_height x
    exact within_some_eq_none (by omega)

/-- A denial takes a level. -/
theorem within_map_not (limit depth : Nat) (outcome : Option Search) :
    (within limit (depth + 1) outcome).map .not = within limit depth (outcome.map .not) := by
  cases outcome with
  | none => rfl
  | some x =>
    have higher : (not x).height = x.height + 1 := rfl
    by_cases room : depth + 1 + x.height ≤ limit
    · rw [within_some room, Option.map_some, within_some (by omega)]
    · rw [within_some_eq_none (by omega), Option.map_some, within_some_eq_none (by omega)]
      rfl

/-- A conjunction is a node above the higher one of its operands. -/
theorem height_and (left right : Search) :
    (and left right).height = max left.height right.height + 1 := by
  simp only [height, Search.depth, ite_self]
  omega

/-- A disjunction is a node above the higher one of its operands. -/
theorem height_or (left right : Search) :
    (or left right).height = max left.height right.height + 1 := by
  simp only [height, Search.depth, ite_self]
  omega

/-- Parentheses around two searches take a level. -/
theorem within_bind {join : Search → Search → Search}
    (higher : ∀ left right, (join left right).height = max left.height right.height + 1)
    (limit depth : Nat) (left right : Option Search) :
    ((within limit (depth + 1) left).bind fun x => (within limit (depth + 1) right).map (join x))
      = within limit depth (left.bind fun x => right.map (join x)) := by
  cases left with
  | none => rfl
  | some x =>
    cases right with
    | none =>
      rw [Option.bind_some]
      cases within limit (depth + 1) (some x) <;> rfl
    | some y =>
      have higher := higher x y
      rw [Option.bind_some, Option.map_some]
      by_cases room : depth + 1 + x.height ≤ limit
      · rw [within_some room, Option.bind_some]
        by_cases room' : depth + 1 + y.height ≤ limit
        · rw [within_some room', Option.map_some, within_some (by omega)]
        · have deep : limit < depth + (join x y).height := by omega
          rw [within_some_eq_none (Nat.lt_of_not_le room'), within_some_eq_none deep]
          rfl
      · have deep : limit < depth + (join x y).height := by omega
        rw [within_some_eq_none (Nat.lt_of_not_le room), within_some_eq_none deep]
        rfl

/-- Where no operator comes next, none is behind blanks. -/
theorem behind?_none_of_leading (at_ : c.skipBlanks.rest = front ++ rest)
    (ends : Stops isWordChar rest) (none_ : leadingOperator? front = none) {operator : String}
    (mem : operator ∈ operators) : behind? c operator = none := by
  rw [behind?_eq mem, at_, Cursor.takeWhile_stopped (stops_name_of_word ends), if_neg]
  simpa using List.find?_eq_none.mp none_ operator mem

/-- An operator that comes next is behind blanks, and what follows it is left. -/
theorem behind?_some_of_leading (at_ : c.skipBlanks.rest = front ++ rest)
    (ends : Stops isWordChar rest) {operator : String}
    (leading : leadingOperator? front = some operator) :
    ∃ next, behind? c operator = some next ∧
      next.rest = front.drop operator.toList.length ++ rest := by
  have run : front.takeWhile isNameChar = operator.toList := by
    simpa using List.find?_some leading
  -- The name in front is the operator, and so the whole of it is read.
  have mem := List.mem_of_find?_eq_some leading
  refine ⟨c.skipBlanks.advance operator.toList.length, ?_, ?_⟩
  · rw [behind?_eq mem, at_, Cursor.takeWhile_stopped (stops_name_of_word ends), if_pos run]
  · have short : operator.toList.length ≤ front.length := by
      rw [← run]
      exact (List.takeWhile_prefix isNameChar).length_le
    rw [Cursor.advance, at_, List.drop_append_of_le_length short]

/-- What starts with a word character is a word, unless an operator comes next. -/
theorem parsePrimary_letter {first : Char} (peek : c.peek = some first)
    (letter : isWordChar first = true) : parsePrimary limit (fuel + 1) depth c =
      if operators.any fun operator => (behind? c operator).isSome then
        .error (c.error "expected a search term")
      else c.searchWord.map fun (text, next) => (.term text, next) := by
  simp only [isWordChar, Bool.and_eq_true, Bool.not_eq_true', bne_iff_ne] at letter
  rw [parsePrimary, peek]
  split
  · rename_i empty
    cases empty
  · rename_i open_
    cases open_
    exact absurd rfl letter.1.1.2
  · rename_i quote
    cases quote
    exact absurd rfl letter.2
  · rfl

variable (limit fuel depth) in
/-- A word is read as a term when it starts with no operator, and is refused otherwise. -/
theorem parsePrimary_word (at_ : c.rest = front ++ rest) (some_ : front ≠ [])
    (word : ∀ letter ∈ front, isWordChar letter = true) (ends : Stops isWordChar rest) :
    Yields (parsePrimary limit (fuel + 1) depth c)
      (if (leadingOperator? front).isNone then some (.term (String.ofList front)) else none)
      rest := by
  obtain ⟨first, more, rfl⟩ := List.exists_cons_of_ne_nil some_
  have letter := word first List.mem_cons_self
  have peek : c.peek = some first := by rw [Cursor.peek, at_]; rfl
  have stay : c.skipBlanks.rest = first :: more ++ rest := by
    refine Cursor.rest_skipBlanks_of_stops at_ (.cons ?_)
    simp only [isWordChar, Bool.and_eq_true, Bool.not_eq_true'] at letter
    exact letter.1.1.1
  rw [parsePrimary_letter peek letter]
  -- The parser looks for any operator, of which one can only come next if the word starts with it.
  cases leading : leadingOperator? (first :: more) with
  | none =>
    have plain : ¬ (operators.any fun operator => (behind? c operator).isSome) = true := by
      rw [List.any_eq_true]
      rintro ⟨operator, mem, found⟩
      rw [behind?_none_of_leading stay ends leading mem] at found
      cases found
    obtain ⟨next, read, left⟩ := searchWord_eq at_ some_ word ends
    rw [if_neg plain, read]
    exact ⟨next, rfl, left⟩
  | some operator =>
    obtain ⟨next, found, -⟩ := behind?_some_of_leading stay ends leading
    have refused : (operators.any fun operator => (behind? c operator).isSome) = true :=
      List.any_eq_true.mpr ⟨operator, List.mem_of_find?_eq_some leading, by rw [found]; rfl⟩
    rw [if_pos refused]
    exact ⟨_, rfl⟩

/-- Where the limit is reached no operand is read. -/
theorem parseOperand_tooDeep (deep : limit < depth + 1) :
    parseOperand limit (fuel + 1) depth c = .error (.tooDeep limit) := by
  rw [parseOperand, if_pos deep]

/-- An operand without a `NOT` is a term or a group. -/
theorem parseOperand_plain (room : depth + 1 ≤ limit) (none_ : behind? c "NOT" = none) :
    parseOperand limit (fuel + 1) depth c = parsePrimary limit fuel (depth + 1) c.skipBlanks := by
  rw [parseOperand, if_neg (by omega), none_]

/-- An operand behind a `NOT` is denied. -/
theorem parseOperand_denied (room : depth + 1 ≤ limit) (found : behind? c "NOT" = some next) :
    parseOperand limit (fuel + 1) depth c =
      (parseOperand limit fuel (depth + 1) next).map fun (x, next) => (.not x, next) := by
  rw [parseOperand, if_neg (by omega), found]

/-- What stands behind the name that a text starts with starts with no operator. -/
theorem leadingOperator?_drop {word : List Char} (run : front.takeWhile isNameChar = word) :
    leadingOperator? (front.drop word.length) = none := by
  have tail : front.drop word.length = front.dropWhile isNameChar := by
    have whole := List.takeWhile_append_dropWhile (p := isNameChar) (l := front)
    rw [run] at whole
    conv_lhs => rw [← whole]
    exact List.drop_left
  rw [leadingOperator?, tail, (Stops.dropWhile isNameChar front).takeWhile_eq]
  rfl

variable (limit fuel depth) in
/-- A word that starts with no operator is an operand. -/
theorem parseOperand_word (at_ : c.skipBlanks.rest = front ++ rest) (some_ : front ≠ [])
    (word : ∀ letter ∈ front, isWordChar letter = true) (ends : Stops isWordChar rest)
    (leading : leadingOperator? front = none) :
    Yields (parseOperand limit (fuel + 2) depth c)
      (within limit depth (some (.term (String.ofList front)))) rest := by
  by_cases room : depth + 1 ≤ limit
  · rw [parseOperand_plain room (behind?_none_of_leading at_ ends leading (by decide)),
      within_some room]
    simpa [leading] using parsePrimary_word limit fuel (depth + 1)
      (c := c.skipBlanks) at_ some_ word ends
  · rw [parseOperand_tooDeep (by omega), within_eq_none (by omega)]
    exact ⟨_, rfl⟩

/-- A bare term is read as itself, or as an operator with what stands behind it. -/
theorem parseOperand_bare {text : String} (bare : isBare text = true)
    (at_ : c.skipBlanks.rest = text.toList ++ rest) (ends : Stops isWordChar rest) :
    Yields (parseOperand limit (fuel + 3) depth c) (within limit depth (rereadWord text)) rest := by
  obtain ⟨some_, noOperator, letters⟩ := isBare_iff.mp bare
  have word : ∀ letter ∈ text.toList, isWordChar letter = true := fun letter mem =>
    (letters letter mem).1
  have nonempty : text.toList ≠ [] := fun empty => some_ (String.toList_eq_nil_iff.mp empty)
  by_cases deep : limit < depth + 1
  · rw [parseOperand_tooDeep deep, within_eq_none deep]
    exact ⟨_, rfl⟩
  have room : depth + 1 ≤ limit := by omega
  rw [rereadWord]
  cases leading : leadingOperator? text.toList with
  | none => simpa using parseOperand_word limit (fuel + 1) depth at_ nonempty word ends leading
  | some operator =>
    have run : text.toList.takeWhile isNameChar = operator.toList := by
      simpa using List.find?_some leading
    have mem := List.mem_of_find?_eq_some leading
    by_cases same : operator = "NOT"
    · -- What stands behind the operator is a word of its own, a level further down.
      subst same
      obtain ⟨next, found, left⟩ := behind?_some_of_leading at_ ends leading
      have behind : text.toList.drop 3 ≠ [] := by
        intro empty
        have short := List.drop_eq_nil_iff.mp empty
        have whole : "NOT".toList = text.toList :=
          run ▸ (List.takeWhile_prefix isNameChar).eq_of_length_le (by rw [run]; exact short)
        exact noOperator (String.toList_inj.mp whole ▸ mem)
      obtain ⟨first, more, rest_⟩ := List.exists_cons_of_ne_nil behind
      have visible : isBlank first = false := by
        have letter := word first (List.mem_of_mem_drop (rest_ ▸ List.mem_cons_self))
        simp only [isWordChar, Bool.and_eq_true, Bool.not_eq_true'] at letter
        exact letter.1.1.1
      have stay : next.skipBlanks.rest = text.toList.drop 3 ++ rest :=
        Cursor.rest_skipBlanks_of_stops left (by rw [rest_]; exact .cons visible)
      have operand := parseOperand_word limit fuel (depth + 1) stay behind
        (fun letter mem => word letter (List.mem_of_mem_drop mem)) ends
        (leadingOperator?_drop run)
      rw [parseOperand_denied room found]
      exact within_map_not limit depth (some (.term _)) ▸ operand.map .not
    · -- Other operators are refused where a word is expected.
      have none_ : behind? c "NOT" = none := by
        rw [behind?_eq (by decide), at_, Cursor.takeWhile_stopped (stops_name_of_word ends), run,
          if_neg]
        exact fun run => same (String.toList_inj.mp run)
      rw [parseOperand_plain room none_]
      simpa [leading, within, same] using parsePrimary_word limit (fuel + 1) (depth + 1)
        (c := c.skipBlanks) at_ nonempty word ends

/-- A phrase is an operand. -/
theorem parseOperand_phrase {raw content : List Char}
    (meaning : Cursor.doubleQuoted (raw ++ '"' :: rest) [] 1 = some (content, 1 + raw.length + 1))
    (at_ : c.skipBlanks.rest = '"' :: (raw ++ '"' :: rest)) :
    Yields (parseOperand limit (fuel + 2) depth c)
      (within limit depth (some (.term (String.ofList content)))) rest := by
  by_cases room : depth + 1 ≤ limit
  · have none_ : behind? c "NOT" = none := by
      rw [behind?_eq (by decide), at_, if_neg]
      exact fun run => nomatch run
    obtain ⟨next, read, left⟩ := doubleQuotedString_eq meaning at_
    have peek : c.skipBlanks.peek = some '"' := by rw [Cursor.peek, at_]; rfl
    rw [parseOperand_plain room none_, within_some room]
    refine ⟨next, ?_, left⟩
    rw [parsePrimary, peek]
    dsimp only
    rw [read]
    rfl
  · rw [parseOperand_tooDeep (by omega), within_eq_none (by omega)]
    exact ⟨_, rfl⟩

/-- A group is an operand, whose search is read a level further down. -/
theorem parseOperand_group {inner : List Char} {outcome : Option Search}
    (at_ : c.skipBlanks.rest = '(' :: inner) (room : depth + 1 ≤ limit)
    (read : ∀ d : Cursor, d.rest = inner →
      Yields (parseOr limit fuel (depth + 1) d) outcome (')' :: rest)) :
    Yields (parseOperand limit (fuel + 2) depth c) outcome rest := by
  -- A parenthesis is no operator, and its group is read right behind it.
  have none_ : behind? c "NOT" = none := by
    rw [behind?_eq (by decide), at_, if_neg]
    exact fun run => nomatch run
  have peek : c.skipBlanks.peek = some '(' := by rw [Cursor.peek, at_]; rfl
  have inside : (c.skipBlanks.advance 1).rest = inner := by rw [Cursor.advance, at_]; rfl
  rw [parseOperand_plain room none_, parsePrimary, peek]
  dsimp only
  -- Whatever the group is read as, its closing parenthesis comes next.
  have closed : ∀ (x : Search) (next : Cursor), next.rest = ')' :: rest →
      Yields ((next.skipBlanks.char ')').map fun (_, next) => (x, next)) (some x) rest := by
    intro x next left
    have stay : next.skipBlanks.rest = ')' :: rest := Cursor.rest_skipBlanks_of_stops left (.cons rfl)
    refine ⟨next.skipBlanks.advance 1, ?_, by rw [Cursor.advance, stay]; rfl⟩
    rw [Cursor.char, Cursor.recognize, stay]
    rfl
  have whole := (read _ inside).bind closed
  rw [Option.bind_fun_some] at whole
  exact whole

/-- What a group or the whole text ends with. -/
def Closes (rest : List Char) : Prop :=
  ∀ c ∈ rest.head?, c = ')'

/-- What ends a group is no blank. -/
theorem Closes.stops_blank (closes : Closes rest) : Stops isBlank rest := by
  intro d mem
  rw [closes d mem]
  rfl

/-- No blanks are skipped in front of what ends a group. -/
theorem Closes.skipped (closes : Closes rest) (at_ : c.rest = rest) : c.skipBlanks.rest = rest :=
  Cursor.rest_skipBlanks_of_stops at_ closes.stops_blank

variable (limit fuel depth) in
/-- A conjunction ends with its group. -/
theorem parseAndRest_end (x : Search) (stay : c.skipBlanks.rest = rest) (closes : Closes rest) :
    Yields (parseAndRest limit (fuel + 1) depth x c) (some x) rest := by
  have ends : endsHere c = true := by
    rw [endsHere, Cursor.peek, stay]
    cases next : rest.head? with
    | none => rfl
    | some d => rw [closes d next]; rfl
  refine ⟨c.skipBlanks, ?_, stay⟩
  rw [parseAndRest, ends, Bool.true_or, if_pos rfl]

variable (limit fuel depth) in
/-- A disjunction ends with its group. -/
theorem parseOrRest_end (x : Search) (stay : c.skipBlanks.rest = rest) (closes : Closes rest) :
    Yields (parseOrRest limit (fuel + 1) depth x c) (some x) rest := by
  have none_ : behind? c "OR" = none := by
    have none_ : rest.takeWhile isNameChar = [] := by
      refine Stops.takeWhile_eq fun d next => ?_
      rw [closes d next]
      decide
    rw [behind?_eq (by decide), stay, none_, if_neg (by decide)]
  refine ⟨c.skipBlanks, ?_, stay⟩
  rw [parseOrRest, none_]

/-- Where an `OR` comes next a conjunction ends. -/
theorem parseAndRest_or (x : Search) (at_ : c.rest = ' ' :: ("OR".toList ++ ' ' :: rest)) :
    Yields (parseAndRest limit (fuel + 1) depth x c) (some x) ("OR".toList ++ ' ' :: rest) := by
  have stay := Cursor.rest_skipBlanks_cons at_ (.cons rfl)
  have here : (behind? c "OR").isSome = true := by
    rw [behind?_eq (by decide), stay,
      if_pos (Stops.takeWhile_append (isNameChar_of_operator (by decide)) (.cons rfl))]
    rfl
  refine ⟨c.skipBlanks, ?_, stay⟩
  rw [parseAndRest, here, Bool.or_true, if_pos rfl]

/-- An operator that no name goes on behind is skipped. -/
theorem behind?_next {operator : String} (mem : operator ∈ operators)
    (at_ : c.skipBlanks.rest = operator.toList ++ rest) (ends : Stops isNameChar rest) :
    ∃ next, behind? c operator = some next ∧ next.rest = rest := by
  refine ⟨c.skipBlanks.advance operator.toList.length, ?_, ?_⟩
  · rw [behind?_eq mem, at_, if_pos (Stops.takeWhile_append (isNameChar_of_operator mem) ends)]
  · rw [Cursor.advance, at_, List.drop_left]

/-- An operator between blanks is skipped together with them. -/
theorem behind?_operator {operator : String} (mem : operator ∈ operators)
    (at_ : c.skipBlanks.rest = operator.toList ++ ' ' :: rest) (stops : Stops isBlank rest) :
    ∃ next, behind? c operator = some next ∧ next.skipBlanks.rest = rest := by
  obtain ⟨next, found, left⟩ := behind?_next mem at_ (.cons rfl)
  exact ⟨next, found, Cursor.rest_skipBlanks_cons left stops⟩

/-- An operand that its conjunction ends behind is the conjunction. -/
theorem parseAnd_operand {outcome : Option Search} {rest' : List Char}
    (first : Yields (parseOperand limit fuel depth c) outcome rest)
    (ends : ∀ x next, next.rest = rest →
      Yields (parseAndRest limit fuel depth x next) (some x) rest') :
    Yields (parseAnd limit (fuel + 1) depth c) outcome rest' := by
  have whole := first.bind ends
  rw [Option.bind_fun_some] at whole
  rw [parseAnd]
  exact whole

/-- Two operands with an `AND` between them are a conjunction up to the end of their group. -/
theorem parseOr_and {second : List Char} {left right : Option Search} (visible : Stops isBlank second)
    (first : Yields (parseOperand limit (fuel + 2) depth c) left
      (' ' :: ("AND".toList ++ ' ' :: second)))
    (last : ∀ d : Cursor, d.skipBlanks.rest = second →
      Yields (parseOperand limit (fuel + 1) depth d) right rest)
    (closes : Closes rest) :
    Yields (parseOr limit (fuel + 4) depth c)
      (left.bind fun x => right.map (.and x)) rest := by
  -- Behind the first operand the conjunction goes on: no `OR` and no end comes next.
  have conjunctions : ∀ x next, next.rest = ' ' :: ("AND".toList ++ ' ' :: second) →
      Yields (parseAndRest limit (fuel + 2) depth x next) (right.map (.and x)) rest := by
    intro x next at_
    have stay := Cursor.rest_skipBlanks_cons at_ (.cons rfl)
    have goesOn : endsHere next = false := by
      rw [endsHere, Cursor.peek, stay]
      rfl
    have noOr : behind? next "OR" = none := by
      rw [behind?_eq (by decide), stay,
        Stops.takeWhile_append (isNameChar_of_operator (by decide)) (.cons rfl), if_neg (by decide)]
    obtain ⟨behind, found, there⟩ := behind?_operator (by decide) stay visible
    have whole := (last _ there).bind fun y after left =>
      parseAndRest_end limit fuel depth (.and x y) (closes.skipped left) closes
    rw [Option.map_eq_bind, parseAndRest, goesOn, noOr, found]
    exact whole
  have conjunction := first.bind conjunctions
  have whole := conjunction.bind fun x next left =>
    parseOrRest_end limit (fuel + 2) depth x (closes.skipped left) closes
  rw [Option.bind_fun_some] at whole
  rw [parseOr, parseAnd]
  exact whole

/-- Two operands with an `OR` between them are a disjunction up to the end of their group. -/
theorem parseOr_or {second : List Char} {left right : Option Search} (visible : Stops isBlank second)
    (first : Yields (parseOperand limit (fuel + 2) depth c) left
      (' ' :: ("OR".toList ++ ' ' :: second)))
    (last : ∀ d : Cursor, d.skipBlanks.rest = second →
      Yields (parseOperand limit (fuel + 1) depth d) right rest)
    (closes : Closes rest) :
    Yields (parseOr limit (fuel + 4) depth c)
      (left.bind fun x => right.map (.or x)) rest := by
  -- The first conjunction ends in front of the `OR`, and the second at the end of the group.
  have conjunction := parseAnd_operand first fun x next left => parseAndRest_or x left
  have disjunctions : ∀ x next, next.rest = "OR".toList ++ ' ' :: second →
      Yields (parseOrRest limit (fuel + 3) depth x next) (right.map (.or x)) rest := by
    intro x next at_
    have stay := Cursor.rest_skipBlanks_of_stops at_ (.cons rfl)
    obtain ⟨behind, found, there⟩ := behind?_operator (by decide) stay visible
    have other := parseAnd_operand (last _ there) fun y after left =>
      parseAndRest_end limit fuel depth y (closes.skipped left) closes
    have whole := other.bind fun y after left =>
      parseOrRest_end limit (fuel + 1) depth (.or x y) (closes.skipped left) closes
    rw [Option.map_eq_bind, parseOrRest, found]
    exact whole
  have whole := conjunction.bind disjunctions
  rw [parseOr]
  exact whole

/-- A term that cannot be bare is written as a phrase. -/
theorem toList_phrase {text : String} (quoted : ¬ isBare text = true) :
    (term text).toText.toList = '"' :: (escaped text.toList ++ ['"']) := by
  rw [toText, if_neg quoted]
  simp

/-- The operands of a conjunction stand in parentheses with its operator between them. -/
theorem toList_and (left right : Search) : (and left right).toText.toList =
    '(' :: (left.toText.toList ++ ' ' :: ("AND".toList ++ ' ' :: (right.toText.toList ++ [')']))) := by
  simp [toText]

/-- The operands of a disjunction stand in parentheses with its operator between them. -/
theorem toList_or (left right : Search) : (or left right).toText.toList =
    '(' :: (left.toText.toList ++ ' ' :: ("OR".toList ++ ' ' :: (right.toText.toList ++ [')']))) := by
  simp [toText]

/-- A denied operand stands behind its operator. -/
theorem toList_not (operand : Search) :
    (not operand).toText.toList = "NOT".toList ++ ' ' :: operand.toText.toList := by
  simp [toText]

/-- Behind an operand comes no blank that belongs to its text. -/
theorem stops_blank_toText (x : Search) (rest : List Char) :
    Stops isBlank (x.toText.toList ++ rest) := by
  obtain ⟨first, more, chars, visible⟩ := x.toText_cons
  rw [chars]
  exact .cons visible

variable (limit depth) in
/--
The text of a search is read as an operand, up to what ends a word.

The induction is on the search; every operator and every parenthesis of the text pays for the calls
that lead from it to the next operand.
-/
theorem parseOperand_toText (x : Search) (enough : 8 * x.toText.toList.length ≤ fuel)
    (at_ : c.skipBlanks.rest = x.toText.toList ++ rest) (ends : Stops isWordChar rest) :
    Yields (parseOperand limit fuel depth c) (within limit depth x.reread) rest := by
  induction x generalizing limit fuel depth c rest with
  | term text =>
    rw [reread]
    by_cases bare : isBare text = true
    · have same : (term text).toText = text := by rw [toText, if_pos bare]
      obtain ⟨first, more, chars, -⟩ := (term text).toText_cons
      rw [chars, List.length_cons] at enough
      -- A single character pays for a denial that the word turns out to be.
      obtain ⟨fuel, rfl⟩ : ∃ k, fuel = k + 3 := ⟨fuel - 3, by omega⟩
      rw [same] at at_
      rw [if_pos bare]
      exact parseOperand_bare bare at_ ends
    · rw [toList_phrase bare] at at_ enough
      rw [List.length_cons] at enough
      obtain ⟨fuel, rfl⟩ : ∃ k, fuel = k + 2 := ⟨fuel - 2, by omega⟩
      rw [if_neg bare, ← String.ofList_toList (s := text)]
      refine parseOperand_phrase (doubleQuoted_escaped text.toList [] rest 1) ?_
      rw [at_]
      simp
  | and left right ihLeft ihRight =>
    rw [toList_and] at at_ enough
    simp only [List.length_cons, List.length_append, List.length_nil] at enough
    obtain ⟨fuel, rfl⟩ : ∃ k, fuel = k + 6 := ⟨fuel - 6, by omega⟩
    by_cases room : depth + 1 ≤ limit
    · rw [reread, ← within_bind height_and]
      simp only [List.cons_append, List.append_assoc, List.nil_append] at at_
      refine parseOperand_group at_ room fun d inside => ?_
      -- The first operand ends at the blank, the second one at the parenthesis.
      refine parseOr_and (stops_blank_toText right _) (ihLeft _ _ (by omega) ?_ (.cons rfl))
        (fun e there => ihRight _ _ (by omega) there (.cons rfl)) (fun _ last => ?_)
      · exact Cursor.rest_skipBlanks_of_stops inside (stops_blank_toText left _)
      · exact (Option.some.inj last).symm
    · rw [parseOperand_tooDeep (by omega), within_eq_none (by omega)]
      exact ⟨_, rfl⟩
  | or left right ihLeft ihRight =>
    rw [toList_or] at at_ enough
    simp only [List.length_cons, List.length_append, List.length_nil] at enough
    obtain ⟨fuel, rfl⟩ : ∃ k, fuel = k + 6 := ⟨fuel - 6, by omega⟩
    by_cases room : depth + 1 ≤ limit
    · rw [reread, ← within_bind height_or]
      simp only [List.cons_append, List.append_assoc, List.nil_append] at at_
      refine parseOperand_group at_ room fun d inside => ?_
      -- The first operand ends at the blank, the second one at the parenthesis.
      refine parseOr_or (stops_blank_toText right _) (ihLeft _ _ (by omega) ?_ (.cons rfl))
        (fun e there => ihRight _ _ (by omega) there (.cons rfl)) (fun _ last => ?_)
      · exact Cursor.rest_skipBlanks_of_stops inside (stops_blank_toText left _)
      · exact (Option.some.inj last).symm
    · rw [parseOperand_tooDeep (by omega), within_eq_none (by omega)]
      exact ⟨_, rfl⟩
  | not operand ih =>
    rw [toList_not] at at_ enough
    simp only [List.length_cons, List.length_append] at enough
    obtain ⟨fuel, rfl⟩ : ∃ k, fuel = k + 1 := ⟨fuel - 1, by omega⟩
    by_cases room : depth + 1 ≤ limit
    · rw [List.append_assoc, List.cons_append] at at_
      obtain ⟨next, found, there⟩ := behind?_operator (by decide) at_ (stops_blank_toText operand _)
      rw [parseOperand_denied room found, reread, ← within_map_not]
      exact (ih _ _ (by omega) there ends).map .not
    · rw [parseOperand_tooDeep (by omega), within_eq_none (by omega)]
      exact ⟨_, rfl⟩

/-- Blanks are not all that the text of a search has. -/
theorem trimChars_toText (x : Search) : trimChars x.toText.toList ≠ [] := by
  obtain ⟨first, more, chars, visible⟩ := x.toText_cons
  intro empty
  rw [chars, trimChars, trimStart, List.dropWhile_cons_of_neg (by simp [visible]), trimEnd,
    List.reverse_eq_nil_iff, List.dropWhile_eq_nil_iff] at empty
  cases visible.symm.trans (empty first (by simp))

/-- The text of a search is read as far as the limit allows, up to its end. -/
theorem parseWords_toText (limit : Nat) (x y : Search) :
    parseWords limit x.toText = .ok y ↔ x.reread = some y ∧ y.height ≤ limit := by
  have visible := stops_blank_toText x []
  have start : (Cursor.start x.toText).skipBlanks.rest = x.toText.toList ++ [] := by
    refine Cursor.rest_skipBlanks_of_stops ?_ visible
    rw [List.append_nil]
    rfl
  obtain ⟨fuel, enough⟩ : ∃ k, parseFuel x.toText = k + 3 := ⟨parseFuel x.toText - 3, by
    rw [parseFuel]
    omega⟩
  have long : 8 * x.toText.toList.length ≤ fuel + 1 := by
    rw [parseFuel, ← String.length_toList] at enough
    omega
  -- The whole text is one operand, behind which every loop ends.
  have closes : Closes [] := fun _ last => nomatch last
  have operand := parseOperand_toText limit 0 x long start .nil
  have conjunction := parseAnd_operand operand fun y next left =>
    parseAndRest_end limit fuel 0 y (closes.skipped left) closes
  have whole : Yields (parseOr limit (fuel + 3) 0 (.start x.toText)) (within limit 0 x.reread) [] := by
    have both := conjunction.bind fun y next left =>
      parseOrRest_end limit (fuel + 1) 0 y (closes.skipped left) closes
    rw [Option.bind_fun_some] at both
    rw [parseOr]
    exact both
  have allowed : within limit 0 x.reread = some y ↔ x.reread = some y ∧ y.height ≤ limit := by
    simp [within, Option.filter_eq_some_iff]
  rw [parseWords, enough, ← allowed]
  cases outcome : within limit 0 x.reread with
  | none =>
    rw [outcome] at whole
    obtain ⟨fault, refused⟩ := whole
    rw [refused]
    constructor
    · intro read
      cases read
    · intro found
      cases found
  | some z =>
    rw [outcome] at whole
    obtain ⟨next, read, left⟩ := whole
    have finished : next.isFinished = true := by
      rw [Cursor.isFinished, Cursor.rest_skipBlanks, left]
      rfl
    rw [read]
    dsimp only
    rw [finished, if_pos rfl, Except.ok.injEq, Option.some.injEq]

/-- The text of a search is read as far as the limit allows. -/
theorem parse_toText {config : Config} (words : config.tokenization = .words) (x y : Search) :
    parse config x.toText = .ok y ↔ x.reread = some y ∧ y.height ≤ config.maxDepth := by
  have some_ : (trimChars x.toText.toList).isEmpty = false :=
    List.isEmpty_eq_false_iff.mpr (trimChars_toText x)
  rw [parse, some_, words]
  exact parseWords_toText config.maxDepth x y

end

end Search

end EdmQuery
