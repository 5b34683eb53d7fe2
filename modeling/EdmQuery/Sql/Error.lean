/-! Why a query cannot be written in SQL, or why a database does not answer it. -/

namespace EdmQuery

/-- The faults on the way to a database and back. -/
inductive SqlError where
  | unsupported (reason : String)
  | unknownProperty (name : String)
  | connection (reason : String)
  | execution
  | unexpectedResult (reason : String)
  deriving DecidableEq

/-- The wording of a fault; what a database says about a statement is kept from clients. -/
def SqlError.message : SqlError → String
  | .unsupported reason => s!"Cannot translate to SQL: {reason}"
  | .unknownProperty name => s!"Unknown column for property `{name}`"
  | .connection reason => s!"Connection error: {reason}"
  | .execution => "Statement execution failed"
  | .unexpectedResult reason => s!"Unexpected result: {reason}"

end EdmQuery
