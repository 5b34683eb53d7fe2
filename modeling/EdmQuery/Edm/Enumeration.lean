import EdmQuery.Data.Json
import EdmQuery.Edm.Error
import EdmQuery.Text.Span

/-! Enumeration types, whose values are member names or sets of them that combine bitwise. -/

namespace EdmQuery

open Text Number

/-- A named value of an enumeration. -/
structure Member where
  name : String
  value : Int64
  deriving DecidableEq

/-- An enumeration type; the values of a flag enumeration are sets of members. -/
structure Enumeration where
  name : String
  members : List Member
  isFlags : Bool
  deriving DecidableEq

/-- The signed 64-bit integer that takes up all of a text. -/
def readInt64 (text : String) : Option Int64 :=
  (readInteger text.toList).bind fun n =>
    if Numeral.isSigned64 n then some (Int64.ofInt n) else none

namespace Enumeration

/-- The first member of a name. -/
def member? (e : Enumeration) (name : String) : Option Member :=
  e.members.find? (·.name == name)

/-- The values of named members combined, or the first name that is no member. -/
def combine (e : Enumeration) : List String → Except ModelError Int64
  | [] => .ok 0
  | name :: names =>
    match e.member? name with
    | none => .error (.invalidEnumMember e.name name)
    | some member => (e.combine names).map (member.value ||| ·)

/-- The value that a list of members writes, where a plain integer stands for itself. -/
def parseMembers (e : Enumeration) (text : String) : Except ModelError Int64 :=
  let text := trim text
  match readInt64 text with
  | some n => .ok n
  | none =>
    let names := (split ',' text).map trim
    -- Only flags combine, and then each name is checked on its own.
    if 1 < names.length && !e.isFlags then .error (.invalidEnumMember e.name text)
    else e.combine names

/-- Whether all bits of a flag are set in a value. -/
def hasFlag (value flag : Int64) : Bool :=
  value &&& flag == flag

/-- The members that a value is made of, where a zero is part of no set of flags. -/
def membersOf (e : Enumeration) (value : Int64) : List Member :=
  if e.isFlags then e.members.filter fun m => m.value != 0 && hasFlag value m.value
  else e.members.filter (·.value == value)

/-- The member names of a value with commas between them, if it has any. -/
def format (e : Enumeration) (value : Int64) : Option String :=
  match e.membersOf value with
  | [] => none
  | members => some (join "," (members.map (·.name)))

end Enumeration

end EdmQuery
