import EdmQuery.Text.Letter

/-! The lexical classes, as the lengths of their matches at the front of a text. -/

namespace EdmQuery

open Text

/-- The number of characters at the front that match, if they do. -/
abbrev Recognizer := List Char → Option Nat

namespace Recognizer

/-- One character of a class. -/
def one (p : Char → Bool) : Recognizer
  | c :: _ => if p c then some 1 else none
  | [] => none

/-- One given character. -/
def mark (c : Char) : Recognizer :=
  one (· == c)

/-- A given text. -/
def tag : List Char → Recognizer
  | [], _ => some 0
  | l :: lead, c :: rest => if l == c then (tag lead rest).map (· + 1) else none
  | _ :: _, [] => none

/-- Exactly so many characters of a class. -/
def exactly (p : Char → Bool) : Nat → Recognizer
  | 0, _ => some 0
  | n + 1, c :: rest => if p c then (exactly p n rest).map (· + 1) else none
  | _ + 1, [] => none

/-- The longest run of characters of a class, at least one. -/
def run (p : Char → Bool) : Recognizer :=
  fun chars =>
    let n := (chars.takeWhile p).length
    if n == 0 then none else some n

/-- One match after another. -/
def andThen (a b : Recognizer) : Recognizer :=
  fun chars => (a chars).bind fun n => (b (chars.drop n)).map (n + ·)

/-- A match or nothing. -/
def optional (a : Recognizer) : Recognizer :=
  fun chars => some ((a chars).getD 0)

/-- The first of two matches that succeeds. -/
def orElse (a b : Recognizer) : Recognizer :=
  fun chars => (a chars).or (b chars)

/-- All matches, one after the other. -/
def sequence : List Recognizer → Recognizer
  | [] => fun _ => some 0
  | a :: rest => andThen a (sequence rest)

/-- As many matches in a row as there are, at most one per unit of fuel. -/
def manyUpTo (a : Recognizer) : Nat → Recognizer
  | 0 => fun _ => some 0
  | fuel + 1 => optional (andThen a (manyUpTo a fuel))

/-- As many non-empty matches in a row as there are. -/
def many (a : Recognizer) : Recognizer :=
  fun chars => manyUpTo a chars.length chars

/-- A character that continues a name. -/
def isNameChar (c : Char) : Bool :=
  isAlphanumeric c || c == '_'

/-- A name: a letter or an underscore, perhaps behind a dollar sign, then letters and digits. -/
def identifier : Recognizer :=
  sequence [optional (mark '$'), one fun c => isAlphabetic c || c == '_',
    optional (run isNameChar)]

/-- Names joined by points. -/
def qualifiedIdentifier : Recognizer :=
  andThen identifier (many (andThen (mark '.') identifier))

/-- Decimal digits, exactly so many. -/
def digits (n : Nat) : Recognizer :=
  exactly isDigit n

/-- Hexadecimal digits, exactly so many. -/
def hexDigits (n : Nat) : Recognizer :=
  exactly isHexDigit n

/-- Year, month and day. -/
def date : Recognizer :=
  sequence [digits 4, mark '-', digits 2, mark '-', digits 2]

/-- A point and digits. -/
def fraction : Recognizer :=
  andThen (mark '.') (run isDigit)

/-- Hours and minutes, then seconds and their fraction where they are given. -/
def timeOfDay : Recognizer :=
  sequence [digits 2, mark ':', digits 2,
    optional (sequence [mark ':', digits 2, optional fraction])]

/-- A plus or a minus. -/
def plusOrMinus : Recognizer :=
  one fun c => c == '+' || c == '-'

/-- Universal time or hours and minutes ahead of it. -/
def offset : Recognizer :=
  orElse (one fun c => c == 'Z' || c == 'z')
    (sequence [plusOrMinus, digits 2, mark ':', digits 2])

/-- A date, a time and an offset. -/
def dateTimeOffset : Recognizer :=
  sequence [date, one fun c => c == 'T' || c == 't', timeOfDay, offset]

/-- Hexadecimal digits in groups of eight, four, four, four and twelve. -/
def guid : Recognizer :=
  sequence [hexDigits 8, mark '-', hexDigits 4, mark '-', hexDigits 4, mark '-', hexDigits 4,
    mark '-', hexDigits 12]

/-- A number with optional sign, fraction and exponent. -/
def number : Recognizer :=
  sequence [optional (mark '-'), run isDigit, optional fraction,
    optional (sequence [one fun c => c == 'e' || c == 'E', optional plusOrMinus, run isDigit])]

/-- The doubles that have names. -/
def specialDouble : Recognizer :=
  orElse (tag "-INF".toList) (orElse (tag "INF".toList) (tag "NaN".toList))

/-- Whatever stands between blanks, parentheses and double quotes. -/
def searchWord : Recognizer :=
  run fun c => !isBlank c && c != '(' && c != ')' && c != '"'

end Recognizer

end EdmQuery
