import EdmQuery.Edm.Error
import EdmQuery.Expr.Error
import EdmQuery.Sql.Error

/-! Why a request fails, sorted by who has to mend it. -/

namespace EdmQuery

/-- The classes of failures that answers tell apart. -/
inductive Failure where
  | expression
  | badRequest
  | unsupportedOption
  | methodNotAllowed
  | notFound
  | notImplemented
  | internal
  deriving DecidableEq

/-- The causes of a failed request. -/
inductive RequestError where
  | expression (fault : ExpressionError)
  | unknownOption (name : String)
  | duplicateOption (name : String)
  | invalidPage (option text : String)
  | invalidCount (text : String)
  | missingBody
  | invalidBody (fault : ModelError)
  | invalidKey (fault : ModelError)
  | missingKey (property : String)
  | exhaustedKeys (greatest : Int) (set property : String)
  | duplicateKey (key set : String)
  | keylessSet (set : String)
  | unsupportedOption (option : String)
  | notAllowed (operation set : String)
  | unknownSet (name : String)
  | noKey (set : String)
  | noEntity (key set : String)
  | notImplemented (reason : String)
  | store (fault : SqlError)
  | deletion (fault : SqlError)
  | model (fault : ModelError)
  | unboundVariable (name : String)
  deriving DecidableEq

namespace RequestError

/-- The failure that a database's fault is; what has no SQL form is not implemented. -/
def ofSql : SqlError → RequestError
  | .unsupported reason => .notImplemented reason
  | fault => .store fault

/-- The class of a failure. -/
def failure : RequestError → Failure
  | .expression _ => .expression
  | .unknownOption _ | .duplicateOption _ | .invalidPage _ _ | .invalidCount _ | .missingBody
  | .invalidBody _ | .invalidKey _ | .missingKey _ | .exhaustedKeys _ _ _ | .duplicateKey _ _
  | .keylessSet _ => .badRequest
  | .unsupportedOption _ => .unsupportedOption
  | .notAllowed _ _ => .methodNotAllowed
  | .unknownSet _ | .noKey _ | .noEntity _ _ => .notFound
  | .notImplemented _ => .notImplemented
  | .store _ | .deletion _ | .model _ | .unboundVariable _ => .internal

/-- The code of a failure, the same for every wording. -/
def code : RequestError → String
  | .expression _ => "invalid_expression"
  | .unknownOption _ => "unknown_option"
  | .duplicateOption _ => "duplicate_option"
  | .invalidPage _ _ => "invalid_pagination"
  | .invalidCount _ => "invalid_count"
  | .missingBody => "missing_body"
  | .invalidBody _ => "invalid_body"
  | .invalidKey _ => "invalid_key"
  | .missingKey _ => "missing_key"
  | .exhaustedKeys _ _ _ => "key_exhausted"
  | .duplicateKey _ _ => "duplicate_key"
  | .keylessSet _ => "keyless_entity_set"
  | .unsupportedOption _ => "unsupported_query_option"
  | .notAllowed _ _ => "method_not_allowed"
  | .unknownSet _ | .noKey _ | .noEntity _ _ => "not_found"
  | .notImplemented _ => "not_implemented"
  | .store _ => "store_error"
  | .deletion _ => "deletion_error"
  | .model _ => "model_error"
  | .unboundVariable _ => "unbound_variable"

/-- The wording of a failure; that of an internal one shows its code only. -/
def message : RequestError → String
  | .expression fault => fault.message
  | .unknownOption name => s!"Unknown query option `{name}`"
  | .duplicateOption name => s!"Query option `{name}` given more than once"
  | .invalidPage option text => s!"{option} must be a non-negative integer, got `{text}`"
  | .invalidCount text => s!"$count must be true or false, got `{text}`"
  | .missingBody => "A request body is required"
  | .invalidBody fault => fault.message
  | .invalidKey fault => fault.message
  | .missingKey property => s!"Key property `{property}` must be provided"
  | .exhaustedKeys greatest set property =>
    s!"No key above {greatest} is available in `{set}`; provide `{property}`"
  | .duplicateKey key set => s!"An entity with key {key} already exists in `{set}`"
  | .keylessSet set => s!"Entity set `{set}` has no key and cannot create entities"
  | .unsupportedOption option =>
    s!"The {option} query option is not supported by this entity set"
  | .notAllowed operation set => s!"Method not allowed: {operation} on entity set `{set}`"
  | .unknownSet name => s!"Entity set `{name}` not found"
  | .noKey set => s!"Entity set `{set}` has no key"
  | .noEntity key set => s!"No entity with key {key} in `{set}`"
  | .notImplemented reason => s!"Not implemented: {reason}"
  | .store _ => "Internal server error (store_error)"
  | .deletion _ => "Internal server error (deletion_error)"
  | .model _ => "Internal server error (model_error)"
  | .unboundVariable _ => "Internal server error (unbound_variable)"

/-- What is behind an internal failure, in words for operators rather than clients. -/
def source? : RequestError → Option String
  | .store fault => some fault.message
  | .deletion fault => some fault.message
  | .model fault => some fault.message
  | .unboundVariable name => some s!"lambda variable `{name}`"
  | _ => none

/-- The status of a failure for a web protocol. -/
def status (e : RequestError) : Nat :=
  match e.failure with
  | .expression => 400
  | .badRequest => 400
  | .unsupportedOption => 400
  | .notFound => 404
  | .methodNotAllowed => 405
  | .notImplemented => 501
  | .internal => 500

/-- Whether the client has to mend a failure. -/
def isClientError (e : RequestError) : Bool :=
  400 ≤ e.status && e.status < 500

end RequestError

end EdmQuery
