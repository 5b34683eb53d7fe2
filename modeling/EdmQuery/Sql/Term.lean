import EdmQuery.Expr.Tree
import EdmQuery.Sql.Template

/-! SQL conditions as data, and their texts in each flavour. -/

namespace EdmQuery

open Text

/-- The alias of the queried table. -/
def rootAlias : String := "$it"

/-- A column of the table behind an alias. -/
structure Column where
  table : String
  name : String
  deriving DecidableEq

/-- The text of a column. -/
def Column.text (d : Dialect) (c : Column) : String :=
  d.quote c.table ++ "." ++ d.quote c.name

/-- A table under an alias, with a column that equals one of an enclosing table. -/
structure Correlation where
  table : String
  tableAlias : String
  column : Column
  parent : Column
  deriving DecidableEq

/-- The text of a correlated selection, up to further conditions. -/
def Correlation.text (d : Dialect) (c : Correlation) : String :=
  "SELECT 1 FROM " ++ d.quote c.table ++ " AS " ++ d.quote c.tableAlias ++ " WHERE " ++
    c.column.text d ++ " = " ++ c.parent.text d

/-- The test of a text column for a search term, whose cases may count or not. -/
structure TextTest where
  column : Column
  parameter : Nat
  caseSensitive : Bool
  deriving DecidableEq

/-- The text of a test, which is false rather than unknown where the column is null. -/
def TextTest.text (d : Dialect) (t : TextTest) : String :=
  let column := t.column.text d
  let parameter := d.placeholder t.parameter
  let test :=
    if t.caseSensitive then d.contains column parameter
    else "(LOWER(" ++ column ++ ") LIKE " ++ parameter ++ " ESCAPE '!')"
  "COALESCE(" ++ test ++ ", " ++ d.falseLiteral ++ ")"

/-- A term or a condition of SQL; parameters are counted from one. -/
inductive SqlTerm where
  | null
  | number (n : Int)
  | parameter (index : Nat)
  | column (c : Column)
  | not (operand : SqlTerm)
  | negate (operand : SqlTerm)
  | nullTest (operand : SqlTerm) (isNull : Bool)
  | binary (op : BinaryOp) (left right : SqlTerm)
  | integerQuotient (left right : SqlTerm)
  | oneOf (operand : SqlTerm) (items : List SqlTerm)
  | call (template : Template) (arguments : List SqlTerm)
  | exists_ (source : Correlation)
  | existsWith (source : Correlation) (condition : SqlTerm)
  | existsNoneWithout (source : Correlation) (condition : SqlTerm)
  | textTests (tests : List TextTest)

namespace SqlTerm

/-- The text of an operation. -/
def binaryText (d : Dialect) (op : BinaryOp) (l r : String) : String :=
  let joined (symbol : String) := "(" ++ l ++ " " ++ symbol ++ " " ++ r ++ ")"
  match op with
  | .and => joined "AND"
  | .or => joined "OR"
  | .eq => joined "="
  | .ne => joined "<>"
  | .lt => joined "<"
  | .le => joined "<="
  | .gt => joined ">"
  | .ge => joined ">="
  | .add => joined "+"
  | .sub => joined "-"
  | .mul => joined "*"
  | .div => joined "/"
  | .divBy => "(" ++ d.realCast l ++ " / " ++ r ++ ")"
  | .mod => d.modulo l r
  | .has => "(" ++ joined "&" ++ " = " ++ r ++ ")"

mutual

/-- The text of a term. -/
def text (d : Dialect) : SqlTerm → String
  | null => "NULL"
  | number n => toString n
  | parameter index => d.placeholder index
  | column c => c.text d
  | not operand => "(NOT " ++ operand.text d ++ ")"
  | negate operand => "(-" ++ operand.text d ++ ")"
  | nullTest operand isNull =>
    "(" ++ operand.text d ++ (if isNull then " IS NULL)" else " IS NOT NULL)")
  | binary op left right => binaryText d op (left.text d) (right.text d)
  | integerQuotient left right => d.integerDivision (left.text d) (right.text d)
  | oneOf operand items => "(" ++ operand.text d ++ " IN (" ++ join ", " (texts d items) ++ "))"
  | call template arguments => template.render d (texts d arguments)
  | exists_ source => "EXISTS (" ++ source.text d ++ ")"
  | existsWith source condition =>
    "EXISTS (" ++ source.text d ++ " AND " ++ condition.text d ++ ")"
  | existsNoneWithout source condition =>
    "NOT EXISTS (" ++ source.text d ++ " AND NOT COALESCE(" ++ condition.text d ++ ", " ++
      d.falseLiteral ++ "))"
  -- Without a column to look at, nothing is found.
  | textTests [] => "(1 = 0)"
  | textTests tests => "(" ++ join " OR " (tests.map (·.text d)) ++ ")"

/-- The texts of several terms. -/
def texts (d : Dialect) : List SqlTerm → List String
  | [] => []
  | x :: rest => x.text d :: texts d rest

end

end SqlTerm

end EdmQuery
