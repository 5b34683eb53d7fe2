import EdmQuery.Expr.Tree

/-! The text of filter expressions, with parentheses around every operation. -/

namespace EdmQuery

/-- The start of a member path; inside a quantifier the root has to be named. -/
def Scope.lead (inLambda : Bool) : Scope → String
  | .root => if inLambda then "$it/" else ""
  | .current => ""
  | .bound name => name ++ "/"

namespace Expression

mutual

/-- The text of an expression, outside or inside a quantifier. -/
def write (inLambda : Bool) : Expression → String
  | literal value => value.toLiteral
  | property scope p => scope.lead inLambda ++ p.name
  | hop scope navigation _ inner =>
    scope.lead inLambda ++ navigation.name ++ "/" ++ inner.write inLambda
  | item name _ => name
  | not operand => "not (" ++ operand.write inLambda ++ ")"
  | negate operand => "-(" ++ operand.write inLambda ++ ")"
  | binary op left right =>
    "(" ++ left.write inLambda ++ " " ++ op.keyword ++ " " ++ right.write inLambda ++ ")"
  | oneOf operand items =>
    "(" ++ operand.write inLambda ++ " in (" ++ writeList inLambda items ++ "))"
  | call function arguments _ => function.name ++ "(" ++ writeList inLambda arguments ++ ")"
  | nonEmpty scope source => scope.lead inLambda ++ source.name ++ "/any()"
  | quantified scope source quantifier name predicate =>
    scope.lead inLambda ++ source.name ++ "/" ++ quantifier.keyword ++ "(" ++ name ++ ":" ++
      predicate.write true ++ ")"

/-- The texts of expressions with commas between them. -/
def writeList (inLambda : Bool) : List Expression → String
  | [] => ""
  | [x] => x.write inLambda
  | x :: rest => x.write inLambda ++ ", " ++ writeList inLambda rest

end

/-- The text of a filter. -/
def toText (x : Expression) : String :=
  x.write false

end Expression

end EdmQuery
