import EdmQuery.Number.Power
import EdmQuery.Text.Case
import EdmQuery.Text.Span

/-! Regular expressions: their notation, and whether one matches somewhere in a text. -/

namespace EdmQuery.Text

/-- A set of characters. -/
inductive CharSet where
  | range (first last : Char)
  | digit
  | word
  | blank
  | notNewline
  | empty
  | union (a b : CharSet)
  | complement (a : CharSet)
  | anyCase (a : CharSet)

/-- A character of a word. -/
def isWordChar (c : Char) : Bool :=
  isAlphabetic c || isDecimalDigit c || c == '_'

/-- Membership in a set of characters. -/
def CharSet.has : CharSet → Char → Bool
  | range first last, c => first ≤ c && c ≤ last
  | digit, c => isDecimalDigit c
  | word, c => isWordChar c
  | blank, c => isBlank c
  | notNewline, c => c != '\n'
  | empty, _ => false
  | union a b, c => a.has c || b.has c
  | complement a, c => !a.has c
  | anyCase a, c => a.has c || (lowerChar c).any a.has || (upperChar c).any a.has

/-- A regular expression. -/
inductive Pattern where
  | empty
  | set (chars : CharSet)
  | start
  | finish
  | lineStart
  | lineEnd
  | boundary (present : Bool)
  | sequence (a b : Pattern)
  | either (a b : Pattern)
  | repeated (a : Pattern) (least : Nat) (most : Option Nat)

namespace Pattern

/-- Whether a word starts or ends in front of a position. -/
def atBoundary (text : Array Char) (i : Nat) : Bool :=
  let inWord (at_ : Option Char) := at_.any isWordChar
  inWord (if i == 0 then none else text[i - 1]?) != inWord text[i]?

/-- Positions without repetitions. -/
def distinct (positions : List Nat) : List Nat :=
  positions.eraseDups

/-- The positions reached from some others in any number of steps, at most `fuel`. -/
def reach (step : Nat → List Nat) : Nat → List Nat → List Nat → List Nat
  | 0, _, found => found
  | fuel + 1, frontier, found =>
    let new := (distinct (frontier.flatMap step)).filter fun i => !found.contains i
    if new.isEmpty then found else reach step fuel new (found ++ new)

/-- The positions reached from some others in exactly so many steps. -/
def iterate (step : Nat → List Nat) : Nat → List Nat → List Nat
  | 0, positions => positions
  | n + 1, positions => iterate step n (distinct (positions.flatMap step))

/-- The positions where matches that start at a position can end. -/
def ends (text : Array Char) : Pattern → Nat → List Nat
  | empty, i => [i]
  | set chars, i => if text[i]?.any chars.has then [i + 1] else []
  | start, i => if i == 0 then [i] else []
  | finish, i => if i == text.size then [i] else []
  | lineStart, i => if i == 0 || text[i - 1]? == some '\n' then [i] else []
  | lineEnd, i => if i == text.size || text[i]? == some '\n' then [i] else []
  | boundary present, i => if atBoundary text i == present then [i] else []
  | sequence a b, i => distinct ((ends text a i).flatMap (ends text b))
  | either a b, i => distinct (ends text a i ++ ends text b i)
  | repeated a least most, i =>
    let reached := iterate (ends text a) least [i]
    -- A text has one more position than characters, so longer chains repeat themselves.
    let fuel := match most with
      | some most => most - least
      | none => text.size + 1
    reach (ends text a) fuel reached reached

/-- Whether a pattern matches somewhere in a text. -/
def occursIn (p : Pattern) (text : String) : Bool :=
  let chars := text.toList.toArray
  (List.range (chars.size + 1)).any fun i => !(ends chars p i).isEmpty

/-- How the characters of a pattern are read. -/
structure Mode where
  ignoreCase : Bool
  dotAll : Bool
  multiLine : Bool

/-- A set of characters in a mode; of a complement the excluded characters come in both cases. -/
def Mode.set (mode : Mode) : CharSet → Pattern
  | .complement chars => .set (.complement (if mode.ignoreCase then .anyCase chars else chars))
  | chars => .set (if mode.ignoreCase then .anyCase chars else chars)

/-- A set of one character. -/
def single (c : Char) : CharSet :=
  .range c c

/-- The set that a letter after a backslash names. -/
def namedSet (c : Char) : Option CharSet :=
  if c == 'd' then some .digit
  else if c == 'D' then some (.complement .digit)
  else if c == 'w' then some .word
  else if c == 'W' then some (.complement .word)
  else if c == 's' then some .blank
  else if c == 'S' then some (.complement .blank)
  else none

/-- The character that a backslash and another character stand for. -/
def escapedChar (c : Char) : Option Char :=
  if c == 'n' then some '\n'
  else if c == 't' then some '\t'
  else if c == 'r' then some '\r'
  else if c == 'f' then some (Char.ofNat 12)
  else if c == 'v' then some (Char.ofNat 11)
  else if c == 'a' then some (Char.ofNat 7)
  -- Letters and digits without a meaning are refused, so that they may get one.
  else if isAlphanumeric c || c.toNat ≥ 128 || c == '<' || c == '>' then none
  else some c

/-- A character or set inside brackets, with what follows it. -/
def takeClassAtom : List Char → Option ((Char ⊕ CharSet) × List Char)
  | '\\' :: c :: rest =>
    match namedSet c with
    | some chars => some (.inr chars, rest)
    | none => (escapedChar c).map fun c => (.inl c, rest)
  | '\\' :: [] => none
  | c :: rest => some (.inl c, rest)
  | [] => none

/-- The ASCII set that a name between colons stands for. -/
def asciiSet (name : List Char) : Option CharSet :=
  let lower := CharSet.range 'a' 'z'
  let upper := CharSet.range 'A' 'Z'
  let digits := CharSet.range '0' '9'
  let visible := CharSet.range '!' '~'
  match String.ofList name with
  | "alnum" => some (.union digits (.union upper lower))
  | "alpha" => some (.union upper lower)
  | "ascii" => some (.range (Char.ofNat 0) (Char.ofNat 127))
  | "blank" => some (.union (single '\t') (single ' '))
  | "cntrl" => some (.union (.range (Char.ofNat 0) (Char.ofNat 31)) (single (Char.ofNat 127)))
  | "digit" => some digits
  | "graph" => some visible
  | "lower" => some lower
  | "print" => some (.union (single ' ') visible)
  | "punct" =>
    some (.union (.union (.range '!' '/') (.range ':' '@'))
      (.union (.range '[' (Char.ofNat 96)) (.range '\x7b' '~')))
  | "space" => some (.union (.range '\t' '\r') (single ' '))
  | "upper" => some upper
  | "word" => some (.union (.union digits (single '_')) (.union upper lower))
  | "xdigit" => some (.union digits (.union (.range 'A' 'F') (.range 'a' 'f')))
  | _ => none

/-- A named ASCII set behind its opening bracket and colon. -/
def takeAsciiSet (chars : List Char) : Option (CharSet × List Char) :=
  let (negated, chars) := match chars with
    | '^' :: rest => (true, rest)
    | _ => (false, chars)
  let name := chars.takeWhile (· != ':')
  match asciiSet name, chars.drop name.length with
  | some chars, ':' :: ']' :: rest => some (if negated then .complement chars else chars, rest)
  | _, _ => none

mutual

/-- The items inside brackets up to the closing one, at most one per unit of fuel. -/
def takeClassItems : Nat → CharSet → Bool → List Char → Option (CharSet × List Char)
  | 0, _, _, _ => none
  | fuel + 1, found, first, chars =>
    match chars with
    | ']' :: rest =>
      -- A closing bracket in the first place is a character of the set.
      if first then takeClassItems fuel (.union found (single ']')) false rest
      else some (found, rest)
    | '[' :: rest =>
      let inner := match rest with
        | ':' :: named => (takeAsciiSet named).or (takeClass fuel rest)
        | _ => takeClass fuel rest
      inner.bind fun (chars, rest) => takeClassItems fuel (.union found chars) false rest
    | _ =>
      (takeClassAtom chars).bind fun (atom, rest) =>
        match rest with
        | '-' :: next :: tail =>
          if next == ']' || next == '-' then
            takeClassItems fuel (.union found (atom.elim single id)) false rest
          else
            match atom, takeClassAtom (next :: tail) with
            | .inl low, some (.inl high, rest) =>
              if low ≤ high then takeClassItems fuel (.union found (.range low high)) false rest
              else none
            | _, _ => none
        | _ => takeClassItems fuel (.union found (atom.elim single id)) false rest

/-- A set in brackets behind the opening one. -/
def takeClass : Nat → List Char → Option (CharSet × List Char)
  | 0, _ => none
  | fuel + 1, chars =>
    let (negated, chars) := match chars with
      | '^' :: rest => (true, rest)
      | _ => (false, chars)
    -- Hyphens in front stand for themselves.
    let hyphens := chars.takeWhile (· == '-')
    let found := if hyphens.isEmpty then .empty else single '-'
    (takeClassItems fuel found hyphens.isEmpty (chars.drop hyphens.length)).map
      fun (chars, rest) => (if negated then .complement chars else chars, rest)

end

/-- A natural number of 32 bits at the front, which may stand between blanks. -/
def takeCount (chars : List Char) : Option (Nat × List Char) :=
  let chars := chars.dropWhile isBlank
  let found := chars.takeWhile isDigit
  let count := found.foldl (fun n c => n * 10 + digitValue c) 0
  if found.isEmpty || count ≥ 2 ^ 32 then none
  else some (count, (chars.drop found.length).dropWhile isBlank)

/-- The bounds of a repetition behind its opening brace. -/
def takeBounds (chars : List Char) : Option ((Nat × Option Nat) × List Char) :=
  (takeCount chars).bind fun (least, rest) =>
    match rest with
    | '\x7d' :: rest => some ((least, some least), rest)
    | ',' :: '\x7d' :: rest => some ((least, none), rest)
    | ',' :: rest =>
      (takeCount rest).bind fun (most, rest) =>
        match rest with
        | '\x7d' :: rest => if least ≤ most then some ((least, some most), rest) else none
        | _ => none
    | _ => none

/-- A pattern with the repetitions that follow it, at most one per unit of fuel. -/
def takeRepeats : Nat → Pattern → List Char → Option (Pattern × List Char)
  | 0, p, chars => some (p, chars)
  | fuel + 1, p, chars =>
    -- Which of several matches is found first makes no difference to whether there is one.
    let lazily (rest : List Char) := if rest.head? == some '?' then rest.drop 1 else rest
    match chars with
    | '*' :: rest => takeRepeats fuel (.repeated p 0 none) (lazily rest)
    | '+' :: rest => takeRepeats fuel (.repeated p 1 none) (lazily rest)
    | '?' :: rest => takeRepeats fuel (.repeated p 0 (some 1)) (lazily rest)
    | '\x7b' :: rest =>
      (takeBounds rest).bind fun ((least, most), rest) =>
        takeRepeats fuel (.repeated p least most) (lazily rest)
    | _ => some (p, chars)

/-- The flags behind a question mark, up to a colon or a parenthesis. -/
def takeFlags : Mode → Bool → List Char → Option (Mode × List Char)
  | mode, on, c :: rest =>
    if c == ':' || c == ')' then some (mode, c :: rest)
    else if c == '-' then takeFlags mode false rest
    else if c == 'i' then takeFlags { mode with ignoreCase := on } on rest
    else if c == 's' then takeFlags { mode with dotAll := on } on rest
    else if c == 'm' then takeFlags { mode with multiLine := on } on rest
    -- Which of several matches is preferred makes no difference to whether there is one.
    else if c == 'u' || c == 'U' then takeFlags mode on rest
    else none
  | _, _, [] => none

/-- The flags behind a question mark, none of them twice and a hyphen only in front of some. -/
def takeFlagsOnce (mode : Mode) (chars : List Char) : Option (Mode × List Char) :=
  let flags := chars.takeWhile fun c => c != ':' && c != ')'
  if flags.eraseDups.length != flags.length || flags.getLast? == some '-' ||
      chars.head? == some ')' then none
  else takeFlags mode true chars

/-- What follows the name of a group. -/
def skipGroupName (chars : List Char) : Option (List Char) :=
  let name := chars.takeWhile isWordChar
  match name, chars.drop name.length with
  | _ :: _, '>' :: rest => some rest
  | _, _ => none

mutual

/-- Alternatives up to the end or a closing parenthesis. -/
def takeAlternatives : Nat → Mode → List Char → Option (Pattern × List Char)
  | 0, _, _ => none
  | fuel + 1, mode, chars =>
    (takeSequence fuel mode .empty chars).bind fun (a, rest) =>
      match rest with
      | '|' :: rest => (takeAlternatives fuel mode rest).map fun (b, rest) => (.either a b, rest)
      | _ => some (a, rest)

/-- Items in a row, joined to those before them. -/
def takeSequence : Nat → Mode → Pattern → List Char → Option (Pattern × List Char)
  | 0, _, _, _ => none
  | fuel + 1, mode, found, chars =>
    match chars with
    | [] => some (found, [])
    | '|' :: _ => some (found, chars)
    | ')' :: _ => some (found, chars)
    | '(' :: '?' :: rest =>
      match rest with
      | 'P' :: '<' :: rest =>
        ((skipGroupName rest).bind (takeGroup fuel mode)).bind fun (p, rest) =>
          takeSequence fuel mode (.sequence found p) rest
      | '<' :: rest =>
        ((skipGroupName rest).bind (takeGroup fuel mode)).bind fun (p, rest) =>
          takeSequence fuel mode (.sequence found p) rest
      | _ =>
        (takeFlagsOnce mode rest).bind fun (inner, rest) =>
          match rest with
          | ':' :: rest =>
            (takeGroup fuel inner rest).bind fun (p, rest) =>
              takeSequence fuel mode (.sequence found p) rest
          -- Flags without a group hold for the rest of the enclosing one.
          | ')' :: rest => takeSequence fuel inner found rest
          | _ => none
    | '(' :: rest =>
      (takeGroup fuel mode rest).bind fun (p, rest) =>
        takeSequence fuel mode (.sequence found p) rest
    | _ =>
      (takeAtom mode chars).bind fun (p, rest) =>
        (takeRepeats rest.length p rest).bind fun (p, rest) =>
          takeSequence fuel mode (.sequence found p) rest

/-- A group behind its opening parenthesis, with its repetitions. -/
def takeGroup : Nat → Mode → List Char → Option (Pattern × List Char)
  | 0, _, _ => none
  | fuel + 1, mode, chars =>
    (takeAlternatives fuel mode chars).bind fun (p, rest) =>
      match rest with
      | ')' :: rest => takeRepeats rest.length p rest
      | _ => none

/-- A single item that is no group. -/
def takeAtom (mode : Mode) : List Char → Option (Pattern × List Char)
  | '[' :: rest => (takeClass (2 * rest.length + 2) rest).map fun (s, rest) => (mode.set s, rest)
  | '\\' :: c :: rest =>
    match namedSet c with
    | some chars => some (.set chars, rest)
    | none =>
      if c == 'b' then some (.boundary true, rest)
      else if c == 'B' then some (.boundary false, rest)
      else if c == 'A' then some (.start, rest)
      else if c == 'z' then some (.finish, rest)
      else (escapedChar c).map fun c => (mode.set (single c), rest)
  | '.' :: rest =>
    some (.set (if mode.dotAll then .complement .empty else .notNewline), rest)
  | '^' :: rest => some (if mode.multiLine then .lineStart else .start, rest)
  | '$' :: rest => some (if mode.multiLine then .lineEnd else .finish, rest)
  | c :: rest =>
    -- A repetition needs something to repeat, and a backslash something to escape.
    if c == '*' || c == '+' || c == '?' || c == '\x7b' || c == '\\' then none
    else some (mode.set (single c), rest)
  | [] => none

end

/-- The regular expression that a text writes. -/
def parse (text : String) : Option Pattern :=
  let chars := text.toList
  match takeAlternatives (3 * chars.length + 3) ⟨false, false, false⟩ chars with
  | some (p, []) => some p
  | _ => none

end Pattern

end EdmQuery.Text
