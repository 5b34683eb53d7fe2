import EdmQuery.Text.Cased
import EdmQuery.Text.CaseTable
import EdmQuery.Text.Letter

/-! Full case conversion of texts, with the lower-case sigma chosen by its place in the word. -/

namespace EdmQuery.Text

/-- The shift that the first matching run gives a code point. -/
def shiftIn (runs : List CaseRun) (code : Nat) : Int :=
  match runs.find? fun run =>
      run.first ≤ code && code ≤ run.last && (code - run.first) % run.step == 0 with
  | some run => run.shift
  | none => 0

/-- A character mapped through a table of sequences and a table of runs. -/
def mapThrough (sequences : List (Nat × List Nat)) (runs : List CaseRun) (c : Char) : List Char :=
  -- A sequence wins because no run covers a character that has one.
  match sequences.lookup c.toNat with
  | some codes => codes.map Char.ofNat
  | none => [Char.ofNat ((c.toNat : Int) + shiftIn runs c.toNat).toNat]

/-- The lower-case form of a character on its own. -/
def lowerChar (c : Char) : List Char :=
  if c.toNat < 128 then [if 'A' ≤ c && c ≤ 'Z' then Char.ofNat (c.toNat + 32) else c]
  else mapThrough lowerSequences lowerRuns c

/-- The upper-case form of a character. -/
def upperChar (c : Char) : List Char :=
  if c.toNat < 128 then [if 'a' ≤ c && c ≤ 'z' then Char.ofNat (c.toNat - 32) else c]
  else mapThrough upperSequences upperRuns c

/-- A character that is upper case, lower case or title case. -/
def isCased (c : Char) : Bool :=
  inRanges casedRanges c.toNat

/-- A character that a case context looks through. -/
def isCaseIgnorable (c : Char) : Bool :=
  inRanges caseIgnorableRanges c.toNat

/-- Whether the nearest character that is not skipped carries case. -/
def facesCased (chars : List Char) : Bool :=
  (chars.dropWhile isCaseIgnorable).head?.any isCased

/-- The lower-case form of the characters after `before`, which is held nearest first. -/
def lowerAfter (before : List Char) : List Char → List Char
  | [] => []
  | c :: rest =>
    -- A capital sigma that ends a word becomes the final sigma.
    (if c == 'Σ' then [if facesCased before && !facesCased rest then 'ς' else 'σ']
      else lowerChar c) ++ lowerAfter (c :: before) rest

/-- The lower-case form of a text. -/
def lower (text : String) : String :=
  String.ofList (lowerAfter [] text.toList)

/-- The upper-case form of a text. -/
def upper (text : String) : String :=
  String.ofList (text.toList.flatMap upperChar)

end EdmQuery.Text
