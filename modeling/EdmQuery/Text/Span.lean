import EdmQuery.Text.Letter

/-! Cutting texts: blanks at the ends, separators, prefixes, and lengths in bytes. -/

namespace EdmQuery.Text

/-- The characters without leading blanks. -/
def trimStart (chars : List Char) : List Char :=
  chars.dropWhile isBlank

/-- The characters without trailing blanks. -/
def trimEnd (chars : List Char) : List Char :=
  (chars.reverse.dropWhile isBlank).reverse

/-- The characters without blanks at either end. -/
def trimChars (chars : List Char) : List Char :=
  trimEnd (trimStart chars)

/-- A text without blanks at either end. -/
def trim (text : String) : String :=
  String.ofList (trimChars text.toList)

/-- The pieces between the separators, one more than there are separators. -/
def splitChars (separator : Char) : List Char → List (List Char)
  | [] => [[]]
  | c :: rest =>
    -- The recursive result is never empty, so its head is the piece being extended.
    if c == separator then [] :: splitChars separator rest
    else match splitChars separator rest with
      | piece :: pieces => (c :: piece) :: pieces
      | [] => [[c]]

/-- The pieces of a text between the separators. -/
def split (separator : Char) (text : String) : List String :=
  (splitChars separator text.toList).map String.ofList

/-- What follows a leading `lead`, if the characters start with it. -/
def stripLead (lead : List Char) (chars : List Char) : Option (List Char) :=
  match lead, chars with
  | [], rest => some rest
  | l :: lead, c :: rest => if l == c then stripLead lead rest else none
  | _ :: _, [] => none

/-- The text before and after the first separator. -/
def splitOnce (separator : Char) (text : String) : Option (String × String) :=
  let chars := text.toList
  match chars.dropWhile (· != separator) with
  | [] => none
  | _ :: rest => some (String.ofList (chars.takeWhile (· != separator)), String.ofList rest)

/-- The number of characters before the first occurrence of a text. -/
def indexOf? (part : List Char) : List Char → Option Nat
  | [] => if part.isEmpty then some 0 else none
  | c :: rest =>
    if part.isPrefixOf (c :: rest) then some 0 else (indexOf? part rest).map (· + 1)

/-- Whether a text occurs in another. -/
def occurs (part whole : String) : Bool :=
  (indexOf? part.toList whole.toList).isSome

/-- The number of bytes that the characters take in UTF-8. -/
def byteLength : List Char → Nat
  | [] => 0
  | c :: rest => c.utf8Size + byteLength rest

/-- Pieces joined with a separator between them. -/
def join (separator : String) (pieces : List String) : String :=
  separator.intercalate pieces

/-- Every separator followed by a second one, as quoted texts write it. -/
def doubled (quote : Char) : List Char → List Char
  | [] => []
  | c :: rest =>
    if c == quote then quote :: quote :: doubled quote rest else c :: doubled quote rest

/-- A text between quotes, with the quotes inside it doubled. -/
def quoted (quote : Char) (text : String) : String :=
  String.ofList (quote :: (doubled quote text.toList ++ [quote]))

end EdmQuery.Text
