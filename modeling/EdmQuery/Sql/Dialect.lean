import EdmQuery.Number.Power
import EdmQuery.Text.Span

/-! The flavours of SQL and what each of them spells in its own way. -/

namespace EdmQuery

open Text

/-- A flavour of SQL. -/
inductive Dialect where
  | sqlite
  | postgres
  | mysql
  deriving DecidableEq

namespace Dialect

/-- The name of a flavour. -/
def name : Dialect → String
  | .sqlite => "sqlite"
  | .postgres => "postgres"
  | .mysql => "mysql"

/-- The flavour of a name in any case; one of them has a longer name too. -/
def ofName? (text : String) : Option Dialect :=
  let lowered := String.ofList (text.toList.map Char.toLower)
  if lowered == "sqlite" then some .sqlite
  else if lowered == "postgres" || lowered == "postgresql" then some .postgres
  else if lowered == "mysql" then some .mysql
  else none

/-- An identifier in quotes. -/
def quote : Dialect → String → String
  | .mysql, identifier => quoted (Char.ofNat 96) identifier
  | _, identifier => quoted '"' identifier

/-- Whether placeholders have numbers, so that one parameter can stand in several places. -/
def isNumbered : Dialect → Bool
  | .mysql => false
  | _ => true

/-- The placeholder of a parameter, counted from one. -/
def placeholder : Dialect → Nat → String
  | .sqlite, index => "?" ++ toString index
  | .postgres, index => "$" ++ toString index
  | .mysql, _ => "?"

/-- A sort term with nulls first when ascending and last when descending. -/
def orderTerm (d : Dialect) (term : String) (descending : Bool) : String :=
  match d, descending with
  | .postgres, false => term ++ " ASC NULLS FIRST"
  | .postgres, true => term ++ " DESC NULLS LAST"
  | _, false => term ++ " ASC"
  | _, true => term ++ " DESC"

/-- The literal for falsehood. -/
def falseLiteral : Dialect → String
  | .postgres => "FALSE"
  | _ => "0"

/-- A number turned into a double. -/
def realCast (d : Dialect) (term : String) : String :=
  "CAST(" ++ term ++ " AS " ++
    (match d with
      | .sqlite => "REAL"
      | .postgres => "DOUBLE PRECISION"
      | .mysql => "DOUBLE") ++ ")"

/-- The quotient of two integers. -/
def integerDivision (d : Dialect) (left right : String) : String :=
  match d with
  | .mysql => "(" ++ left ++ " DIV " ++ right ++ ")"
  | _ => "(" ++ left ++ " / " ++ right ++ ")"

/-- The remainder of two integers. -/
def modulo (d : Dialect) (left right : String) : String :=
  match d with
  | .sqlite => "(" ++ left ++ " % " ++ right ++ ")"
  | _ => "MOD(" ++ left ++ ", " ++ right ++ ")"

/-- The test for a substring, which tells cases apart. -/
def contains (d : Dialect) (whole part : String) : String :=
  (match d with
    | .postgres => "(STRPOS("
    | _ => "(INSTR(") ++ whole ++ ", " ++ part ++ ") > 0)"

/-- The greatest number that drivers take for paging. -/
def pageLimit : Nat := 2 ^ 63 - 1

/-- The paging clause; numbers beyond the limit are cut to it, which still selects every row. -/
def limitClause (d : Dialect) (skip top : Option Nat) : Option String :=
  let number (n : Nat) := toString (min n pageLimit)
  match skip, top with
  | none, none => none
  | none, some top => some ("LIMIT " ++ number top)
  | some skip, some top => some ("LIMIT " ++ number top ++ " OFFSET " ++ number skip)
  | some skip, none =>
    match d with
    | .sqlite => some ("LIMIT -1 OFFSET " ++ number skip)
    | .postgres => some ("OFFSET " ++ number skip)
    | .mysql => some ("LIMIT 18446744073709551615 OFFSET " ++ number skip)

end Dialect

end EdmQuery
