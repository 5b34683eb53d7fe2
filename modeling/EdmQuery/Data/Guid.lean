import EdmQuery.Number.DoubleText
import EdmQuery.Text.Span

/-! Globally unique identifiers of 128 bits and their hexadecimal notation. -/

namespace EdmQuery

open Text

/-- A globally unique identifier. -/
structure Guid where
  bits : BitVec 128
  deriving DecidableEq

namespace Guid

/-- The order of identifiers as unsigned numbers. -/
def compare (a b : Guid) : Ordering :=
  Ord.compare a.bits.toNat b.bits.toNat

/-- The lower-case hexadecimal digit of a number below sixteen. -/
def hexDigit (n : Nat) : Char :=
  Char.ofNat (if n < 10 then n + 48 else n + 87)

/-- The hexadecimal digits of a number, most significant first. -/
def hexDigits : Nat → Nat → List Char
  | 0, _ => []
  | width + 1, n => hexDigits width (n / 16) ++ [hexDigit (n % 16)]

/-- Digits in groups of eight, four, four, four and twelve, with hyphens between them. -/
def hyphenated (digits : List Char) : List Char :=
  digits.take 8 ++ '-' :: (digits.drop 8).take 4 ++ '-' :: (digits.drop 12).take 4 ++
    '-' :: (digits.drop 16).take 4 ++ '-' :: digits.drop 20

/-- An identifier in its hyphenated notation. -/
def toText (g : Guid) : String :=
  String.ofList (hyphenated (hexDigits 32 g.bits.toNat))

/-- The identifier that thirty-two hexadecimal digits write. -/
def ofDigits (digits : List Char) : Option Guid :=
  if digits.length == 32 && digits.all isHexDigit then
    some ⟨BitVec.ofNat 128 (digits.foldl (fun n c => n * 16 + digitValue c) 0)⟩
  else none

/-- The identifier that hyphenated groups write. -/
def ofHyphenated (chars : List Char) : Option Guid :=
  let digits := chars.filter (· != '-')
  -- Cutting the digits again tells whether the hyphens stood where they belong.
  if hyphenated digits == chars then ofDigits digits else none

/-- The identifier that a text writes: bare digits, or groups that may be in braces or a name. -/
def parse (text : String) : Option Guid :=
  let chars := text.toList
  match chars.length with
  | 32 => ofDigits chars
  | 36 => ofHyphenated chars
  | 38 =>
    if chars.head? == some '\x7b' && chars.getLast? == some '\x7d' then
      ofHyphenated (chars.drop 1).dropLast
    else none
  | 45 => (stripLead "urn:uuid:".toList chars).bind ofHyphenated
  | _ => none

end Guid

end EdmQuery
