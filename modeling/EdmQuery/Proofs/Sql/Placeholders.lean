import Mathlib
import EdmQuery.Proofs.Sql.Filling

/-! The placeholders in the text of a condition, whose quoted parts are passed over. -/

namespace EdmQuery

open Text Number

namespace Dialect

/-- The character in front of the number of a placeholder, or the whole of it. -/
def marker : Dialect → Char
  | .postgres => '$'
  | _ => '?'

/-- The quote around identifiers. -/
def identifierQuote : Dialect → Char
  | .mysql => Char.ofNat 96
  | _ => '"'

/-- Whether a character opens a literal text or an identifier in quotes. -/
def opensQuote (d : Dialect) (c : Char) : Bool :=
  c == '\'' || c == d.identifierQuote

/-- The digits behind each marker in a text outside of quotes, one of which may be open. -/
def marksIn (d : Dialect) : Option Char → List Char → List (List Char)
  | _, [] => []
  | some quote, c :: rest => marksIn d (if c == quote then none else some quote) rest
  | none, c :: rest =>
    if d.opensQuote c then marksIn d (some c) rest
    else if c == d.marker then rest.takeWhile isDigit :: marksIn d none rest
    else marksIn d none rest

/--
The parameters that the placeholders in a text stand for, in the order of the text.

Without numbers, placeholders stand for one parameter after the other.
-/
def placeholders (d : Dialect) (text : String) : List Nat :=
  let marks := d.marksIn none text.toList
  if d.isNumbered then marks.map natOfDigits else List.range' 1 marks.length

/-- Whether a text closes the quotes that are open in it and has no marker outside of quotes. -/
def isQuiet (d : Dialect) : Option Char → List Char → Bool
  | quote, [] => quote.isNone
  | some quote, c :: rest => isQuiet d (if c == quote then none else some quote) rest
  | none, c :: rest =>
    if d.opensQuote c then isQuiet d (some c) rest else c != d.marker && isQuiet d none rest

variable {d : Dialect} {quote : Option Char} {front back : List Char}

/-- A quiet text adds no marks to those behind it. -/
theorem marksIn_quiet (quiet : d.isQuiet quote front = true) (rest : List Char) :
    d.marksIn quote (front ++ rest) = d.marksIn none rest := by
  induction front generalizing quote with
  | nil =>
    cases quote with
    | none => rfl
    | some q => cases quiet
  | cons c front ih =>
    cases quote with
    | some q => exact ih quiet
    | none =>
      rw [isQuiet] at quiet
      rw [List.cons_append, marksIn]
      split at quiet
      · rename_i opens
        rw [if_pos opens]
        exact ih quiet
      · rename_i plain
        simp only [Bool.and_eq_true, bne_iff_ne, ne_eq] at quiet
        rw [if_neg plain, if_neg (by simpa using quiet.1)]
        exact ih quiet.2

/-- Two quiet texts make one. -/
theorem isQuiet_append (first : d.isQuiet quote front = true)
    (second : d.isQuiet none back = true) : d.isQuiet quote (front ++ back) = true := by
  induction front generalizing quote with
  | nil =>
    cases quote with
    | none => exact second
    | some q => cases first
  | cons c front ih =>
    cases quote with
    | some q => exact ih first
    | none =>
      rw [isQuiet] at first
      rw [List.cons_append, isQuiet]
      split at first
      · rename_i opens
        rw [if_pos opens]
        exact ih first
      · rename_i plain
        simp only [Bool.and_eq_true] at first
        rw [if_neg plain, first.1, Bool.true_and]
        exact ih first.2

/-- A text with neither quotes nor markers is quiet. -/
theorem isQuiet_of_plain (opens : ∀ c ∈ front, d.opensQuote c = false)
    (marks : ∀ c ∈ front, c ≠ d.marker) : d.isQuiet none front = true := by
  induction front with
  | nil => rfl
  | cons c rest ih =>
    rw [List.forall_mem_cons] at opens marks
    rw [isQuiet, opens.1, if_neg Bool.false_ne_true, ih opens.2 marks.2, Bool.and_true]
    exact bne_iff_ne.mpr marks.1

/-- Whether a character is neither a quote nor a marker in any flavour. -/
def isHarmless (c : Char) : Bool :=
  !(['\'', '"', Char.ofNat 96, '?', '$'].contains c)

/-- A text without quotes and markers of any flavour is quiet in each. -/
theorem isQuiet_of_harmless {text : String} (harmless : text.toList.all isHarmless = true) :
    d.isQuiet none text.toList = true := by
  have own (c : Char) (mem : c ∈ text.toList) : c ∉ ['\'', '"', Char.ofNat 96, '?', '$'] := by
    simpa only [isHarmless, Bool.not_eq_true', List.contains_eq_mem, decide_eq_false_iff_not]
      using List.all_eq_true.mp harmless c mem
  refine isQuiet_of_plain (fun c mem => ?_) fun c mem => ?_
  · have own := own c mem
    simp only [List.mem_cons, not_or] at own
    cases d <;> simp [opensQuote, identifierQuote, own]
  · have own := own c mem
    simp only [List.mem_cons, not_or] at own
    cases d <;> simp [marker, own]

/-- A text with its quotes doubled stays inside of quotes up to the quote behind it. -/
theorem isQuiet_doubled {q : Char} (opens : d.opensQuote q = true) (chars : List Char) :
    d.isQuiet (some q) (doubled q chars ++ [q]) = true := by
  induction chars with
  | nil => simp [doubled, isQuiet]
  | cons c rest ih =>
    rw [doubled]
    split
    · -- A doubled quote closes the quotes and opens them again.
      simp only [List.cons_append, isQuiet, beq_self_eq_true, if_true, opens]
      exact ih
    · rename_i other
      simp only [List.cons_append, isQuiet, other]
      exact ih

/-- Identifiers in quotes are quiet. -/
theorem isQuiet_quote (d : Dialect) (identifier : String) :
    d.isQuiet none (d.quote identifier).toList = true := by
  have opens : d.opensQuote d.identifierQuote = true := by
    rw [opensQuote, beq_self_eq_true, Bool.or_true]
  have quoted_ : d.quote identifier = quoted d.identifierQuote identifier := by cases d <;> rfl
  rw [quoted_, quoted, String.toList_ofList, isQuiet, if_pos opens]
  exact isQuiet_doubled opens identifier.toList

/-- Digits open no quotes and mark nothing. -/
theorem plain_of_isDigit {c : Char} (digit : isDigit c = true) :
    d.opensQuote c = false ∧ c ≠ d.marker := by
  have other {q : Char} (outside : isDigit q = false) : c ≠ q := by
    rintro rfl
    rw [outside] at digit
    cases digit
  have single : c ≠ '\'' := other (by decide)
  have identifier : c ≠ d.identifierQuote := other (by cases d <;> decide)
  exact ⟨by simp [opensQuote, single, identifier], other (by cases d <;> decide)⟩

/-- Written numbers are quiet. -/
theorem isQuiet_natText (d : Dialect) (n : Nat) : d.isQuiet none (natText n).toList = true :=
  isQuiet_of_plain (fun _ mem => (plain_of_isDigit (isDigit_of_mem_natText mem)).1)
    fun _ mem => (plain_of_isDigit (isDigit_of_mem_natText mem)).2

/-- Written integers are quiet. -/
theorem isQuiet_toString (d : Dialect) (n : Int) : d.isQuiet none (toString n).toList = true := by
  have sign : d.isQuiet none (sign (n < 0)).toList = true := by
    cases d <;> cases decide (n < 0) <;> decide
  rw [toList_toString]
  exact isQuiet_append sign (d.isQuiet_natText n.natAbs)

/-- What a placeholder shows behind its marker. -/
def mark (d : Dialect) (index : Nat) : List Char :=
  if d.isNumbered then (natText index).toList else []

/-- A placeholder is a marker and what it shows behind it. -/
theorem toList_placeholder (d : Dialect) (index : Nat) :
    (d.placeholder index).toList = d.marker :: d.mark index := by
  cases d with
  | mysql => exact (by decide : "?".toList = ['?'])
  | _ =>
    rw [placeholder, String.toList_append]
    rfl

end Dialect

/-- A text shows the placeholders of some parameters, whatever follows that is no digit. -/
def Shows (d : Dialect) (chars : List Char) (indices : List Nat) : Prop :=
  ∀ rest, Stops isDigit rest →
    d.marksIn none (chars ++ rest) = indices.map d.mark ++ d.marksIn none rest

namespace Shows

variable {d : Dialect} {chars front back : List Char} {indices more : List Nat}

/-- A quiet text shows nothing. -/
theorem quiet (quiet : d.isQuiet none chars = true) : Shows d chars [] :=
  fun rest _ => d.marksIn_quiet quiet rest

/-- A quiet text in front adds nothing. -/
theorem behind (quiet : d.isQuiet none front = true) (shows_ : Shows d chars indices) :
    Shows d (front ++ chars) indices := by
  intro rest stops
  rw [List.append_assoc, d.marksIn_quiet quiet]
  exact shows_ rest stops

/-- Two texts show what each of them does, if no digit of the second goes on with the first. -/
theorem append (first : Shows d front indices) (second : Shows d back more)
    (stops : Stops isDigit back) : Shows d (front ++ back) (indices ++ more) := by
  intro rest ends
  have stops : Stops isDigit (back ++ rest) := by
    cases back with
    | nil => exact ends
    | cons c back => exact .cons (stops c rfl)
  rw [List.append_assoc, first _ stops, second rest ends, List.map_append, List.append_assoc]

/-- A part between quiet texts is what is shown, with what the text behind it shows. -/
theorem between (quiet : d.isQuiet none front = true) (inner : Shows d chars indices)
    (second : Shows d back more) (stops : Stops isDigit back) :
    Shows d (front ++ (chars ++ back)) (indices ++ more) :=
  behind quiet (inner.append second stops)

/-- A placeholder shows its parameter. -/
theorem placeholder (d : Dialect) (index : Nat) : Shows d (d.placeholder index).toList [index] := by
  intro rest stops
  have digits : (d.mark index ++ rest).takeWhile isDigit = d.mark index := by
    refine stops.takeWhile_append fun c mem => ?_
    rw [Dialect.mark] at mem
    split at mem
    · exact isDigit_of_mem_natText mem
    · cases mem
  have quiet : d.isQuiet none (d.mark index) = true := by
    rw [Dialect.mark]
    split
    · exact d.isQuiet_natText index
    · rfl
  have opens : d.opensQuote d.marker = false := by cases d <;> rfl
  rw [Dialect.toList_placeholder, List.cons_append, Dialect.marksIn, opens, if_neg Bool.false_ne_true,
    beq_self_eq_true, if_pos rfl, digits, d.marksIn_quiet quiet]
  rfl

/-- Texts that are joined by commas show what each of them does, one after the other. -/
theorem joined {texts : List (List Char)} {each : List (List Nat)}
    (shows_ : List.Forall₂ (Shows d) texts each) {separator : List Char}
    (quiet : d.isQuiet none separator = true) (stops : Stops isDigit separator)
    (there : separator ≠ []) : Shows d (separator.intercalate texts) each.flatten := by
  induction shows_ with
  | nil => exact .quiet rfl
  | @cons text indices texts each first others ih =>
    cases others with
    | nil => simpa using first
    | @cons next _ rest _ second others =>
      have stops : Stops isDigit (separator ++ separator.intercalate (next :: rest)) := by
        cases separator with
        | nil => exact absurd rfl there
        | cons c separator => exact .cons (stops c rfl)
      rw [List.intercalate_cons_cons, List.append_assoc]
      exact first.append (behind quiet ih) stops

end Shows

/-- Whether a text ends a number in front of it and adds no placeholders. -/
def isDelimiter (text : String) : Bool :=
  text.toList.all Dialect.isHarmless && text.toList.head?.any (!isDigit ·)

/-- A text shows some parameters and ends a number in front of it. -/
structure Closes (d : Dialect) (chars : List Char) (indices : List Nat) : Prop where
  shows_ : Shows d chars indices
  stops : Stops isDigit chars

namespace Closes

variable {d : Dialect} {text : String} {chars back : List Char} {indices more : List Nat}

/-- A delimiter in front of anything ends a number before it. -/
theorem stops_of_isDelimiter (delimits : isDelimiter text = true) (back : List Char) :
    Stops isDigit (text.toList ++ back) := by
  obtain ⟨c, first, outside⟩ := (Option.any_eq_true _ _).mp (Bool.and_eq_true_iff.mp delimits).2
  intro other mem
  rw [List.head?_append, first] at mem
  cases mem
  simpa using outside

/-- A delimiter shows nothing. -/
theorem last (delimits : isDelimiter text = true) : Closes d text.toList [] where
  shows_ := .quiet (d.isQuiet_of_harmless (Bool.and_eq_true_iff.mp delimits).1)
  stops := by simpa using stops_of_isDelimiter delimits []

/-- A delimiter may stand in front. -/
theorem cons (delimits : isDelimiter text = true) (tail : Closes d back more) :
    Closes d (text.toList ++ back) more where
  shows_ := tail.shows_.behind (d.isQuiet_of_harmless (Bool.and_eq_true_iff.mp delimits).1)
  stops := stops_of_isDelimiter delimits back

/-- A delimiter and a part behind it may stand in front. -/
theorem part (delimits : isDelimiter text = true) (inner : Shows d chars indices)
    (tail : Closes d back more) :
    Closes d (text.toList ++ (chars ++ back)) (indices ++ more) where
  shows_ := .between (d.isQuiet_of_harmless (Bool.and_eq_true_iff.mp delimits).1) inner
    tail.shows_ tail.stops
  stops := stops_of_isDelimiter delimits _

/-- A part between delimiters shows what it does alone. -/
theorem enclosed {after : String} (delimits : isDelimiter text = true)
    (inner : Shows d chars indices) (delimits' : isDelimiter after = true) :
    Closes d (text.toList ++ (chars ++ after.toList)) indices := by
  simpa using part delimits inner (last delimits')

end Closes

namespace Piece

/-- Whether a template goes on with something else than a digit or an argument, or ends. -/
def isFree : List Piece → Bool
  | [] => true
  | text s :: _ => s.toList.head?.any (!isDigit ·)
  | argument _ :: _ => false

/-- Whether every argument of a template is followed by something that ends its digits. -/
def areSeparated : List Piece → Bool
  | [] => true
  | text _ :: rest => areSeparated rest
  | argument _ :: rest => isFree rest && areSeparated rest

/-- Whether a piece neither has braces nor adds placeholders. -/
def isQuiet (d : Dialect) : Piece → Bool
  | text s => !s.toList.contains openBrace && d.isQuiet none s.toList
  | argument _ => true

/-- The parameters that a piece shows when its arguments show some. -/
def shown (arguments : List (List Nat)) : Piece → List Nat
  | text _ => []
  | argument i => (arguments[i]?).getD []

/-- Pieces that are quiet have no braces either. -/
theorem braceless_of_quiet {d : Dialect} {pieces : List Piece}
    (quiet : pieces.all (isQuiet d) = true) : pieces.all isBraceless = true := by
  refine List.all_eq_true.mpr fun p mem => ?_
  have own := List.all_eq_true.mp quiet p mem
  cases p with
  | text s => exact (Bool.and_eq_true_iff.mp own).1
  | argument i => rfl

/-- Filled pieces show what their arguments do, in the order of the pieces. -/
theorem shows_filled {d : Dialect} {pieces : List Piece} (quiet : pieces.all (isQuiet d) = true)
    (separated : areSeparated pieces = true) {arguments : List (List Char)}
    {each : List (List Nat)} (shows_ : List.Forall₂ (Shows d) arguments each)
    (given : ∀ i, argument i ∈ pieces → i < arguments.length) :
    Shows d (pieces.flatMap (filled arguments)) (pieces.flatMap (shown each)) := by
  induction pieces with
  | nil => exact .quiet rfl
  | cons p rest ih =>
    rw [List.all_cons, Bool.and_eq_true] at quiet
    have given' (i : Nat) (mem : argument i ∈ rest) := given i (List.mem_cons_of_mem p mem)
    rw [List.flatMap_cons, List.flatMap_cons]
    cases p with
    | text s =>
      have own : d.isQuiet none s.toList = true := (Bool.and_eq_true_iff.mp quiet.1).2
      exact .behind own (ih quiet.2 separated given')
    | argument i =>
      obtain ⟨free, separated⟩ := Bool.and_eq_true_iff.mp separated
      have there := given i List.mem_cons_self
      have there' : i < each.length := shows_.length_eq ▸ there
      have stops : Stops isDigit (rest.flatMap (filled arguments)) := by
        cases rest with
        | nil => exact .nil
        | cons next rest =>
          cases next with
          | argument j => cases free
          | text s =>
            obtain ⟨c, first, outside⟩ := (Option.any_eq_true _ _).mp free
            intro other mem
            rw [List.flatMap_cons, filled, List.head?_append, first] at mem
            cases mem
            simpa using outside
      have own : Shows d arguments[i] each[i] := shows_.get there there'
      rw [filled, shown, List.getElem?_eq_getElem there, List.getElem?_eq_getElem there']
      exact own.append (ih quiet.2 separated given') stops

end Piece

/-- Whether a template for so many arguments has places for each of them and for no others. -/
def Template.isSound (t : Template) (d : Dialect) (arity : Nat) : Bool :=
  (t.pieces d).all (Piece.isQuiet d) && Piece.areSeparated (t.pieces d) &&
    (t.pieces d).all (fun
      | .text _ => true
      | .argument i => i < arity) &&
    (List.range arity).all fun i => (t.pieces d).contains (.argument i)

/-- What the check of a template means. -/
theorem Template.isSound_iff {t : Template} {d : Dialect} {arity : Nat} :
    t.isSound d arity = true ↔ (t.pieces d).all (Piece.isQuiet d) = true ∧
      Piece.areSeparated (t.pieces d) = true ∧
      ∀ i, .argument i ∈ t.pieces d ↔ i < arity := by
  simp only [isSound, Bool.and_eq_true, List.all_eq_true, List.contains_iff_mem, List.mem_range]
  constructor
  · rintro ⟨⟨⟨quiet, separated⟩, given⟩, placed⟩
    exact ⟨quiet, separated, fun i => ⟨fun mem => by simpa using given _ mem, placed i⟩⟩
  · rintro ⟨quiet, separated, given⟩
    refine ⟨⟨⟨quiet, separated⟩, fun p mem => ?_⟩, fun i below => (given i).mpr below⟩
    cases p with
    | text s => rfl
    | argument i => simpa using (given i).mp mem

namespace SqlTerm

variable {d : Dialect}

-- The equations of texts are made here, so that the proofs behind do not wait for them.
section

attribute [local simp] text texts

end

mutual

/-- The parameters whose placeholders a term shows, in the order of its text. -/
@[simp] def shown (d : Dialect) : SqlTerm → List Nat
  | null => []
  | number _ => []
  | parameter index => [index]
  | column _ => []
  | not operand => operand.shown d
  | negate operand => operand.shown d
  | nullTest operand _ => operand.shown d
  -- The flags that are asked for stand on both sides of a comparison.
  | binary op left right =>
    left.shown d ++ (right.shown d ++ if op = .has then right.shown d else [])
  | integerQuotient left right => left.shown d ++ right.shown d
  | oneOf operand items => operand.shown d ++ (shownEach d items).flatten
  | call template arguments => (template.pieces d).flatMap (Piece.shown (shownEach d arguments))
  | exists_ _ => []
  | existsWith _ condition => condition.shown d
  | existsNoneWithout _ condition => condition.shown d
  | textTests tests => tests.map (·.parameter)

/-- The parameters whose placeholders each one of several terms shows. -/
@[simp] def shownEach (d : Dialect) : List SqlTerm → List (List Nat)
  | [] => []
  | x :: rest => x.shown d :: shownEach d rest

end

mutual

/-- The calls in a term have sound templates, and nothing in their arguments is like a place. -/
@[simp] def Fillable (d : Dialect) : SqlTerm → Prop
  | not operand => operand.Fillable d
  | negate operand => operand.Fillable d
  | nullTest operand _ => operand.Fillable d
  | binary _ left right => left.Fillable d ∧ right.Fillable d
  | integerQuotient left right => left.Fillable d ∧ right.Fillable d
  | oneOf operand items => operand.Fillable d ∧ AllFillable d items
  | call template arguments => template.isSound d arguments.length = true ∧
      (∀ text ∈ texts d arguments, Braceless text.toList) ∧ AllFillable d arguments
  | existsWith _ condition => condition.Fillable d
  | existsNoneWithout _ condition => condition.Fillable d
  | _ => True

/-- That holds for several terms. -/
@[simp] def AllFillable (d : Dialect) : List SqlTerm → Prop
  | [] => True
  | x :: rest => x.Fillable d ∧ AllFillable d rest

end

/-- Columns are quiet. -/
theorem isQuiet_column (d : Dialect) (c : Column) : d.isQuiet none (c.text d).toList = true := by
  have dot : d.isQuiet none ".".toList = true := d.isQuiet_of_harmless (by decide)
  rw [Column.text, String.toList_append, String.toList_append]
  exact d.isQuiet_append (d.isQuiet_append (d.isQuiet_quote _) dot) (d.isQuiet_quote _)

/-- Correlated selections are quiet. -/
theorem isQuiet_correlation (d : Dialect) (c : Correlation) :
    d.isQuiet none (c.text d).toList = true := by
  have select : d.isQuiet none "SELECT 1 FROM ".toList = true := d.isQuiet_of_harmless (by decide)
  have as : d.isQuiet none " AS ".toList = true := d.isQuiet_of_harmless (by decide)
  have where_ : d.isQuiet none " WHERE ".toList = true := d.isQuiet_of_harmless (by decide)
  have equals : d.isQuiet none " = ".toList = true := d.isQuiet_of_harmless (by decide)
  unfold Correlation.text
  simp only [String.toList_append, List.append_assoc]
  refine d.isQuiet_append select (d.isQuiet_append (d.isQuiet_quote _) ?_)
  refine d.isQuiet_append as (d.isQuiet_append (d.isQuiet_quote _) (d.isQuiet_append where_ ?_))
  exact d.isQuiet_append (isQuiet_column d _) (d.isQuiet_append equals (isQuiet_column d _))

section

variable {left right : String} {indices more : List Nat}

/-- An operation in parentheses shows its operands in order. -/
theorem closes_joined {symbol : String} (delimits : isDelimiter symbol = true)
    (first : Shows d left.toList indices) (second : Shows d right.toList more) :
    Closes d ("(" ++ left ++ " " ++ symbol ++ " " ++ right ++ ")").toList (indices ++ more) := by
  simp only [String.toList_append, List.append_assoc]
  exact .part (by decide) first (.cons (by decide) (.cons delimits
    (.enclosed (by decide) second (by decide))))

/-- Two operands between delimiters are shown in order. -/
theorem closes_pair {before middle after : String} (delimits : isDelimiter before = true)
    (first : Shows d left.toList indices) (delimits' : isDelimiter middle = true)
    (second : Shows d right.toList more) (delimits'' : isDelimiter after = true) :
    Closes d (before ++ left ++ middle ++ right ++ after).toList (indices ++ more) := by
  simp only [String.toList_append, List.append_assoc]
  exact .part delimits first (.enclosed delimits' second delimits'')

/-- An operand between delimiters shows what it does alone. -/
theorem closes_around {before after : String} (delimits : isDelimiter before = true)
    (first : Shows d left.toList indices) (delimits' : isDelimiter after = true) :
    Closes d (before ++ left ++ after).toList indices := by
  simp only [String.toList_append, List.append_assoc]
  exact .enclosed delimits first delimits'

/-- A number that is turned into a double shows what it does. -/
theorem closes_realCast (first : Shows d left.toList indices) :
    Closes d (d.realCast left).toList indices := by
  have cast {type : String} (delimits : isDelimiter type = true) :
      Closes d ("CAST(" ++ left ++ " AS " ++ type ++ ")").toList indices := by
    have close : Closes d ")".toList [] := .last (by decide)
    have typed : Closes d (" AS ".toList ++ (type.toList ++ ")".toList)) [] :=
      .cons (by decide) (.cons delimits close)
    have whole : Closes d ("CAST(".toList ++ (left.toList ++ (" AS ".toList ++ (type.toList ++
        ")".toList)))) (indices ++ []) := .part (by decide) first typed
    simpa only [String.toList_append, List.append_assoc, List.append_nil] using whole
  cases d <;> simp only [Dialect.realCast]
  · exact cast (by decide)
  · exact cast (by decide)
  · exact cast (by decide)

/-- The quotient of integers shows its operands in order. -/
theorem closes_quotient (first : Shows d left.toList indices) (second : Shows d right.toList more) :
    Closes d (d.integerDivision left right).toList (indices ++ more) := by
  cases d <;> simp only [Dialect.integerDivision]
  · exact closes_pair (by decide) first (by decide) second (by decide)
  · exact closes_pair (by decide) first (by decide) second (by decide)
  · exact closes_pair (by decide) first (by decide) second (by decide)

/-- The remainder of integers shows its operands in order. -/
theorem closes_modulo (first : Shows d left.toList indices) (second : Shows d right.toList more) :
    Closes d (d.modulo left right).toList (indices ++ more) := by
  cases d <;> simp only [Dialect.modulo]
  · exact closes_pair (by decide) first (by decide) second (by decide)
  · exact closes_pair (by decide) first (by decide) second (by decide)
  · exact closes_pair (by decide) first (by decide) second (by decide)

/-- The operations show their operands in order, and flags that are asked for twice. -/
theorem closes_binary (op : BinaryOp) (first : Shows d left.toList indices)
    (second : Shows d right.toList more) :
    Closes d (binaryText d op left right).toList
      (indices ++ (more ++ if op = .has then more else [])) := by
  cases op <;> simp only [binaryText, reduceCtorEq, if_false, if_true, List.append_nil]
  case divBy =>
    have cast := (closes_realCast first).shows_
    exact closes_pair (by decide) cast (by decide) second (by decide)
  case mod => exact closes_modulo first second
  case has =>
    have tested : Closes d ("(" ++ left ++ " " ++ "&" ++ " " ++ right ++ ")").toList
        (indices ++ more) := closes_joined (by decide) first second
    rw [← List.append_assoc]
    exact closes_pair (by decide) tested.shows_ (by decide) second (by decide)
  all_goals exact closes_joined (by decide) first second

end

/-- The tests of columns show a parameter each. -/
theorem closes_test (t : TextTest) : Closes d (t.text d).toList [t.parameter] := by
  have column : Shows d (t.column.text d).toList [] := .quiet (isQuiet_column d t.column)
  have parameter : Shows d (d.placeholder t.parameter).toList [t.parameter] :=
    .placeholder d t.parameter
  have falsehood : Shows d d.falseLiteral.toList [] := .quiet (by cases d <;> decide)
  have tested : Closes d (if t.caseSensitive then d.contains (t.column.text d)
      (d.placeholder t.parameter) else "(LOWER(" ++ t.column.text d ++ ") LIKE " ++
        d.placeholder t.parameter ++ " ESCAPE '!')").toList [t.parameter] := by
    split
    · cases d <;> simp only [Dialect.contains]
      · exact closes_pair (by decide) column (by decide) parameter (by decide)
      · exact closes_pair (by decide) column (by decide) parameter (by decide)
      · exact closes_pair (by decide) column (by decide) parameter (by decide)
    · -- The character that escapes others is a literal text, which is passed over.
      have escape : Closes d " ESCAPE '!')".toList [] := by
        refine ⟨.quiet (by cases d <;> decide), ?_⟩
        rw [(by decide : " ESCAPE '!')".toList = ' ' :: "ESCAPE '!')".toList)]
        exact .cons (by decide)
      have like : Closes d (") LIKE ".toList ++ ((d.placeholder t.parameter).toList ++
          " ESCAPE '!')".toList)) [t.parameter] := by
        have whole : Closes d (") LIKE ".toList ++ ((d.placeholder t.parameter).toList ++
            " ESCAPE '!')".toList)) ([t.parameter] ++ []) := .part (by decide) parameter escape
        exact whole
      simp only [String.toList_append, List.append_assoc]
      exact .part (by decide) column like
  unfold TextTest.text
  exact closes_pair (by decide) tested.shows_ (by decide) falsehood (by decide)

/-- There are as many texts as terms. -/
theorem length_texts (d : Dialect) (items : List SqlTerm) :
    (texts d items).length = items.length := by
  induction items with
  | nil => rfl
  | cons x rest ih => rw [texts, List.length_cons, List.length_cons, ih]

/-- There are as many lists of numbers as terms. -/
theorem length_shownEach (d : Dialect) (items : List SqlTerm) :
    (shownEach d items).length = items.length := by
  induction items with
  | nil => rfl
  | cons x rest ih => rw [shownEach, List.length_cons, List.length_cons, ih]

/-- Tests of columns show one parameter each. -/
theorem shows_tests (tests : List TextTest) :
    List.Forall₂ (Shows d) ((tests.map (·.text d)).map String.toList)
      (tests.map fun t => [t.parameter]) := by
  rw [List.map_map, List.forall₂_map_left_iff, List.forall₂_map_right_iff, List.forall₂_same]
  exact fun t _ => (closes_test t).shows_

/-- Texts with delimiters between them show what each one does. -/
theorem shows_join {texts : List String} {each : List (List Nat)} {separator : String}
    (shows_ : List.Forall₂ (Shows d) (texts.map String.toList) each)
    (delimits : isDelimiter separator = true) :
    Shows d (join separator texts).toList each.flatten := by
  have closes : Closes d separator.toList [] := .last delimits
  have there : separator.toList ≠ [] := by
    intro empty
    rw [isDelimiter, empty] at delimits
    cases delimits
  rw [join, String.toList_intercalate]
  exact .joined shows_ (d.isQuiet_of_harmless (Bool.and_eq_true_iff.mp delimits).1) closes.stops
    there

/-- Several terms show what each one does. -/
theorem shows_texts {items : List SqlTerm}
    (each : ∀ x ∈ items, x.Fillable d → Shows d (x.text d).toList (x.shown d))
    (fillable : AllFillable d items) :
    List.Forall₂ (Shows d) ((texts d items).map String.toList) (shownEach d items) := by
  induction items with
  | nil => exact .nil
  | cons x rest ih =>
    obtain ⟨first, others⟩ := List.forall_mem_cons.mp each
    exact .cons (first fillable.1) (ih others fillable.2)

/-- Induction over terms, where each of several operands or arguments has its own hypothesis. -/
@[elab_as_elim]
theorem induction {motive : SqlTerm → Prop} (null : motive .null)
    (number : ∀ n, motive (.number n)) (parameter : ∀ index, motive (.parameter index))
    (column : ∀ c, motive (.column c)) (not : ∀ x, motive x → motive (.not x))
    (negate : ∀ x, motive x → motive (.negate x))
    (nullTest : ∀ x isNull, motive x → motive (.nullTest x isNull))
    (binary : ∀ op left right, motive left → motive right → motive (.binary op left right))
    (integerQuotient : ∀ left right, motive left → motive right →
      motive (.integerQuotient left right))
    (oneOf : ∀ x items, motive x → (∀ y ∈ items, motive y) → motive (.oneOf x items))
    (call : ∀ template arguments, (∀ y ∈ arguments, motive y) → motive (.call template arguments))
    (exists_ : ∀ source, motive (.exists_ source))
    (existsWith : ∀ source x, motive x → motive (.existsWith source x))
    (existsNoneWithout : ∀ source x, motive x → motive (.existsNoneWithout source x))
    (textTests : ∀ tests, motive (.textTests tests)) (t : SqlTerm) : motive t :=
  @SqlTerm.rec motive (fun items => ∀ x ∈ items, motive x) null number parameter column not negate
    nullTest binary integerQuotient oneOf call exists_ existsWith existsNoneWithout textTests nofun
    (fun _ _ first others => List.forall_mem_cons.mpr ⟨first, others⟩) t

/-- The text of a term shows the placeholders of its parameters, in the order of the term. -/
theorem shows_text (t : SqlTerm) (fillable : t.Fillable d) :
    Shows d (t.text d).toList (t.shown d) := by
  induction t using SqlTerm.induction with
  | null =>
    rw [text]
    exact .quiet (d.isQuiet_of_harmless (by decide))
  | number n => exact .quiet (d.isQuiet_toString n)
  | parameter index => exact .placeholder d index
  | column c => exact .quiet (isQuiet_column d c)
  | not x ih =>
    rw [text, shown]
    exact (closes_around (by decide) (ih fillable) (by decide)).shows_
  | negate x ih =>
    rw [text, shown]
    exact (closes_around (by decide) (ih fillable) (by decide)).shows_
  | nullTest x isNull ih =>
    rw [text, shown]
    cases isNull with
    | true => exact (closes_around (by decide) (ih fillable) (by decide)).shows_
    | false => exact (closes_around (by decide) (ih fillable) (by decide)).shows_
  | binary op left right ihLeft ihRight =>
    rw [text, shown]
    exact (closes_binary op (ihLeft fillable.1) (ihRight fillable.2)).shows_
  | integerQuotient left right ihLeft ihRight =>
    rw [text, shown]
    exact (closes_quotient (ihLeft fillable.1) (ihRight fillable.2)).shows_
  | oneOf x items ih ihItems =>
    have listed : Shows d (join ", " (texts d items)).toList (shownEach d items).flatten :=
      shows_join (shows_texts ihItems fillable.2) (by decide)
    rw [text, shown]
    exact (closes_pair (by decide) (ih fillable.1) (by decide) listed (by decide)).shows_
  | call template arguments ihItems =>
    obtain ⟨sound, braceless, each⟩ := fillable
    obtain ⟨quiet, separated, placed⟩ := Template.isSound_iff.mp sound
    rw [text, shown, Template.render_eq (Piece.braceless_of_quiet quiet) braceless,
      String.toList_ofList]
    refine Piece.shows_filled quiet separated (shows_texts ihItems each) fun i mem => ?_
    rw [List.length_map, length_texts]
    exact (placed i).mp mem
  | exists_ source =>
    rw [text, shown]
    exact (closes_around (by decide) (.quiet (isQuiet_correlation d source)) (by decide)).shows_
  | existsWith source x ih =>
    have selected : Shows d (source.text d).toList [] := .quiet (isQuiet_correlation d source)
    rw [text, shown]
    exact (closes_pair (by decide) selected (by decide) (ih fillable) (by decide)).shows_
  | existsNoneWithout source x ih =>
    have falsehood : Shows d d.falseLiteral.toList [] := .quiet (by cases d <;> decide)
    have selected : Shows d (source.text d).toList [] := .quiet (isQuiet_correlation d source)
    have inside : Closes d (" AND NOT COALESCE(".toList ++ ((x.text d).toList ++ (", ".toList ++
        (d.falseLiteral.toList ++ "))".toList)))) (x.shown d ++ []) :=
      .part (by decide) (ih fillable) (.enclosed (by decide) falsehood (by decide))
    rw [text, shown]
    simp only [String.toList_append, List.append_assoc]
    rw [List.append_nil] at inside
    exact (Closes.part (by decide) selected inside).shows_
  | textTests tests =>
    cases tests with
    | nil =>
      rw [text]
      exact .quiet (d.isQuiet_of_harmless (by decide))
    | cons t rest =>
      have listed : Shows d (join " OR " ((t :: rest).map (·.text d))).toList
          ((t :: rest).map fun t => [t.parameter]).flatten :=
        shows_join (shows_tests (t :: rest)) (by decide)
      have each : ((t :: rest).map fun t => [t.parameter]).flatten
          = (t :: rest).map (·.parameter) := by
        rw [← List.flatMap_def, ← List.map_eq_flatMap]
      rw [text, shown, ← each]
      · exact (closes_around (by decide) listed (by decide)).shows_
      · nofun

/--
The placeholders in the text of a term are those of its parameters, in the order of the term.

In a flavour without numbers, there are as many.
-/
theorem placeholders_text {t : SqlTerm} (fillable : t.Fillable d) :
    d.placeholders (t.text d)
      = if d.isNumbered then t.shown d else List.range' 1 (t.shown d).length := by
  have marks : d.marksIn none (t.text d).toList = (t.shown d).map d.mark := by
    simpa [Dialect.marksIn] using shows_text t fillable [] .nil
  rw [Dialect.placeholders, marks, List.length_map]
  cases numbered : d.isNumbered with
  | false => rfl
  | true =>
    -- Every mark is the number of its parameter, written in digits.
    have reads : natOfDigits ∘ d.mark = id := by
      funext index
      rw [Function.comp, Dialect.mark, if_pos numbered, natOfDigits_natText, id]
    rw [if_pos rfl, if_pos rfl, List.map_map, reads, List.map_id]

end SqlTerm

end EdmQuery
