import EdmQuery.Number.DoubleText
import EdmQuery.Sql.Dialect

/-! The SQL of built-in functions, as texts with numbered places for the arguments. -/

namespace EdmQuery

open Text

/-- A piece of a template. -/
inductive Piece where
  | text (text : String)
  | argument (index : Nat)
  deriving DecidableEq

/-- The place of an argument as templates spell it. -/
def placeText (index : Nat) : String :=
  "\x7b" ++ toString index ++ "\x7d"

/-- The text of a piece. -/
def Piece.spelling : Piece → String
  | text s => s
  | argument index => placeText index

/-- The SQL of a function: one form, with other forms for the flavours that need them. -/
structure Template where
  name : String
  shared : List Piece
  postgres : Option (List Piece)
  mysql : Option (List Piece)
  deriving DecidableEq

/-- The text after an occurrence of a place, if the characters start with one. -/
def afterPlace? (place : List Char) (chars : List Char) : Option (List Char) :=
  if place.isEmpty then none else stripLead place chars

/-- Characters with every occurrence of a place replaced, at most one per unit of fuel. -/
def replacePlaceUpTo (place filling : List Char) : Nat → List Char → List Char
  | 0, chars => chars
  | _ + 1, [] => []
  | fuel + 1, c :: rest =>
    match afterPlace? place (c :: rest) with
    | some after => filling ++ replacePlaceUpTo place filling fuel after
    | none => c :: replacePlaceUpTo place filling fuel rest

/-- A text with every occurrence of a place replaced. -/
def replacePlace (place filling text : String) : String :=
  String.ofList (replacePlaceUpTo place.toList filling.toList text.length text.toList)

namespace Template

/-- The pieces for a flavour. -/
def pieces (t : Template) : Dialect → List Piece
  | .sqlite => t.shared
  | .postgres => t.postgres.getD t.shared
  | .mysql => t.mysql.getD t.shared

/-- The spelling of a template for a flavour. -/
def spelling (t : Template) (d : Dialect) : String :=
  String.join ((t.pieces d).map Piece.spelling)

/-- Arguments put into a text one after the other, from the one of the given number on. -/
def fillFrom (text : String) (index : Nat) : List String → String
  | [] => text
  | argument :: rest => fillFrom (replacePlace (placeText index) argument text) (index + 1) rest

/-- The SQL of a function call; a later round also finds places inside earlier arguments. -/
def render (t : Template) (d : Dialect) (arguments : List String) : String :=
  fillFrom (t.spelling d) 0 arguments

/-- Whether some of the first arguments stands in more than one place. -/
def repeats (t : Template) (d : Dialect) (arity : Nat) : Bool :=
  (List.range arity).any fun i => 1 < (t.pieces d).count (.argument i)

/-- A piece that is the same for all arguments. -/
def fixed (text : String) : List Piece :=
  [.text text]

/-- The place of an argument. -/
def arg (index : Nat) : List Piece :=
  [.argument index]

/-- A call of a function that the database has under some name. -/
def call (function : String) (arguments : List (List Piece)) : List Piece :=
  fixed (function ++ "(") ++ (fixed ", ").intercalate arguments ++ fixed ")"

/-- Pieces between two texts. -/
def between (before : String) (inner : List Piece) (after : String) : List Piece :=
  fixed before ++ inner ++ fixed after

/-- A number that is cut to zero where it is negative, by a function for the greater of two. -/
def clipped (greater : String) (number : List Piece) : List Piece :=
  call greater [number, fixed "0"]

/-- The part of the first argument from a position on, counted from zero. -/
def substring (start : List Piece) (count : Option (List Piece)) : List Piece :=
  call "SUBSTR" ([arg 0, start ++ fixed " + 1"] ++ count.toList)

/-- A part of a date or time as an integer. -/
def integer (inner : List Piece) : List Piece :=
  between "CAST(" inner " AS INTEGER)"

/-- A part of a date or time, by a format letter, a field name and a function. -/
def timePart (name letter field function : String) : Template :=
  ⟨name, integer (call "STRFTIME" [fixed ("'%" ++ letter ++ "'"), arg 0]),
    some (integer (call "EXTRACT" [fixed (field ++ " FROM ") ++ arg 0])),
    some (call function [arg 0])⟩

/-- Text functions. -/
def ofTexts : List Template :=
  [⟨"contains", between "(" (call "INSTR" [arg 0, arg 1]) " > 0)",
      some (between "(" (call "STRPOS" [arg 0, arg 1]) " > 0)"), none⟩,
    ⟨"startswith", between "(" (call "INSTR" [arg 0, arg 1]) " = 1)",
      some (between "(" (call "STRPOS" [arg 0, arg 1]) " = 1)"), none⟩,
    ⟨"endswith",
      between "(" (call "SUBSTR" [arg 0,
        call "LENGTH" [arg 0] ++ fixed " - " ++ call "LENGTH" [arg 1] ++ fixed " + 1"])
        " = " ++ arg 1 ++ fixed ")",
      some (between "(" (call "RIGHT" [arg 0, call "LENGTH" [arg 1]]) " = " ++ arg 1 ++ fixed ")"),
      some (between "(" (call "RIGHT" [arg 0, call "CHAR_LENGTH" [arg 1]]) " = " ++ arg 1 ++
        fixed ")")⟩,
    ⟨"indexof", between "(" (call "INSTR" [arg 0, arg 1]) " - 1)",
      some (between "(" (call "STRPOS" [arg 0, arg 1]) " - 1)"), none⟩,
    ⟨"length", call "LENGTH" [arg 0], none, some (call "CHAR_LENGTH" [arg 0])⟩,
    ⟨"substring/2", substring (clipped "MAX" (arg 1)) none,
      some (substring (clipped "GREATEST" (integer (arg 1))) none),
      some (substring (clipped "GREATEST" (arg 1)) none)⟩,
    ⟨"substring/3", substring (clipped "MAX" (arg 1)) (some (clipped "MAX" (arg 2))),
      some (substring (clipped "GREATEST" (integer (arg 1)))
        (some (clipped "GREATEST" (integer (arg 2))))),
      some (substring (clipped "GREATEST" (arg 1)) (some (clipped "GREATEST" (arg 2))))⟩,
    ⟨"tolower", call "LOWER" [arg 0], none, none⟩,
    ⟨"toupper", call "UPPER" [arg 0], none, none⟩,
    ⟨"trim", call "TRIM" [arg 0], none, none⟩,
    ⟨"concat", between "(" (arg 0 ++ fixed " || " ++ arg 1) ")", none,
      some (call "CONCAT" [arg 0, arg 1])⟩]

/-- Functions of dates and times. -/
def ofTimes : List Template :=
  [timePart "year" "Y" "YEAR" "YEAR", timePart "month" "m" "MONTH" "MONTH",
    timePart "day" "d" "DAY" "DAY", timePart "hour" "H" "HOUR" "HOUR",
    timePart "minute" "M" "MINUTE" "MINUTE",
    -- The field of seconds comes with its fraction, which the others do not have.
    { timePart "second" "S" "SECOND" "SECOND" with
      postgres := some (integer (call "FLOOR" [call "EXTRACT" [fixed "SECOND FROM " ++ arg 0]])) },
    ⟨"date", call "DATE" [arg 0], some (between "CAST(" (arg 0) " AS DATE)"), none⟩,
    ⟨"time", call "TIME" [arg 0], some (between "CAST(" (arg 0) " AS TIME)"), none⟩,
    ⟨"now", fixed "STRFTIME('%Y-%m-%dT%H:%M:%SZ', 'now')", some (fixed "NOW()"),
      some (fixed "UTC_TIMESTAMP()")⟩]

/-- Functions of numbers. -/
def ofNumbers : List Template :=
  let whole := integer (arg 0)
  [⟨"round", call "ROUND" [arg 0], none, none⟩,
    ⟨"floor", between "(" whole " - (" ++ arg 0 ++ between " < " whole "))",
      some (call "FLOOR" [arg 0]), some (call "FLOOR" [arg 0])⟩,
    ⟨"ceiling", between "(" whole " + (" ++ arg 0 ++ between " > " whole "))",
      some (call "CEIL" [arg 0]), some (call "CEILING" [arg 0])⟩]

/-- The functions that have SQL. -/
def all : List Template :=
  ofTexts ++ ofTimes ++ ofNumbers

/-- The template of a function for a number of arguments. -/
def find? (name : String) (arity : Nat) : Option Template :=
  (all.find? (·.name == name ++ "/" ++ toString arity)).or (all.find? (·.name == name))

end Template

end EdmQuery
