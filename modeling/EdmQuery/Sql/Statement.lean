import EdmQuery.Sql.Condition

/-! SQL statements and their texts. -/

namespace EdmQuery

open Text

/-- A statement that is ready to be sent. -/
structure Statement where
  sql : String
  parameters : List Value

/-- A selection from a table. -/
structure Select where
  table : Table
  joins : List Join
  conditions : List SqlTerm
  order : List OrderTerm
  skip : Option Nat
  top : Option Nat

namespace Select

/-- A selection of rows from a table by conditions. -/
def rows (table : Table) (joins : List Join) (conditions : List SqlTerm) : Select :=
  ⟨table, joins, conditions, [], none, none⟩

/-- The text of the tables that are selected from. -/
def fromText (s : Select) (d : Dialect) : String :=
  d.quote s.table.name ++ " AS " ++ d.quote rootAlias ++
    String.join (s.joins.map fun j => " " ++ j.text d)

/-- The text of the conditions. -/
def whereText (s : Select) (d : Dialect) : String :=
  if s.conditions.isEmpty then "" else " WHERE " ++ join " AND " (s.conditions.map (·.text d))

/-- The text of the columns, under the names of their properties. -/
def columnsText (s : Select) (d : Dialect) : String :=
  join ", " (s.table.type.properties.map fun p =>
    (Column.mk rootAlias p.column).text d ++ " AS " ++ d.quote p.name)

/-- The text of sort terms. -/
def orderText (d : Dialect) (terms : List OrderTerm) : String :=
  join ", " (terms.map (·.text d))

/-- The text of the selection. -/
def text (s : Select) (d : Dialect) : String :=
  "SELECT " ++ s.columnsText d ++ " FROM " ++ s.fromText d ++ s.whereText d ++
    (if s.order.isEmpty then "" else " ORDER BY " ++ orderText d s.order) ++
    (match d.limitClause s.skip s.top with
      | some clause => " " ++ clause
      | none => "")

/-- The text that counts the selected rows. -/
def countText (s : Select) (d : Dialect) : String :=
  "SELECT COUNT(*) AS " ++ d.quote "count" ++ " FROM " ++ s.fromText d ++ s.whereText d

/-- The condition that the key of a table equals the first parameter. -/
def byKey (table : Table) (key : Property) : Select :=
  rows table [] [.binary .eq (.column ⟨rootAlias, key.column⟩) (.parameter 1)]

end Select

/-- An assignment of a value to the column of a property. -/
structure Assignment where
  property : Property
  value : Value

namespace Assignment

/-- The placeholders of parameters in their order. -/
def placeholders (d : Dialect) (count : Nat) : List String :=
  (List.range count).map fun i => d.placeholder (i + 1)

/-- The statement that adds a row. -/
def insert (d : Dialect) (table : String) (assignments : List Assignment) : Statement :=
  let columns := assignments.map fun a => d.quote a.property.column
  let values := placeholders d assignments.length
  let sql :=
    if assignments.isEmpty then "INSERT INTO " ++ d.quote table ++ " DEFAULT VALUES"
    else
      "INSERT INTO " ++ d.quote table ++ " (" ++ join ", " columns ++ ") VALUES (" ++
        join ", " values ++ ")"
  ⟨sql, assignments.map (·.value)⟩

/-- The statement that changes the row under a key. -/
def update (d : Dialect) (table : String) (assignments : List Assignment) (key : Assignment) :
    Statement :=
  let changes := List.zipWith (fun a place => d.quote a.property.column ++ " = " ++ place)
    assignments (placeholders d assignments.length)
  ⟨"UPDATE " ++ d.quote table ++ " SET " ++ join ", " changes ++ " WHERE " ++
      d.quote key.property.column ++ " = " ++ d.placeholder (assignments.length + 1),
    assignments.map (·.value) ++ [key.value]⟩

/-- The statement that removes the row under a key. -/
def delete (d : Dialect) (table : String) (key : Assignment) : Statement :=
  ⟨"DELETE FROM " ++ d.quote table ++ " WHERE " ++ d.quote key.property.column ++ " = " ++
      d.placeholder 1,
    [key.value]⟩

/-- The typed values of the properties that a record has, where the first refusal counts. -/
def ofRecord (record : Record) : List Property → Except ModelError (List Assignment)
  | [] => .ok []
  | p :: rest =>
    match record.lookup p.name with
    | none => ofRecord record rest
    | some raw =>
      match p.type.coerce p.name raw with
      | .error e => .error e
      | .ok value => (ofRecord record rest).map (⟨p, value⟩ :: ·)

end Assignment

end EdmQuery
