import EdmQuery.Number.DoubleText
import EdmQuery.Sql.Dialect

/-! Settings: how deep filters nest, how searches read, and how queries reach a database. -/

namespace EdmQuery

open Text Number

/-- How a search text is split into terms. -/
inductive Tokenization where
  | words
  | phrase
  deriving DecidableEq

/-- The name of a tokenization. -/
def Tokenization.name : Tokenization → String
  | .words => "words"
  | .phrase => "phrase"

/-- The tokenization of a name in any case. -/
def Tokenization.ofName? (text : String) : Option Tokenization :=
  let lowered := String.ofList (text.toList.map Char.toLower)
  if lowered == "words" then some .words else if lowered == "phrase" then some .phrase else none

/-- The settings. -/
structure Config where
  maxDepth : Nat
  caseSensitive : Bool
  tokenization : Tokenization
  dialect : Dialect
  fallback : Bool
  deriving DecidableEq

/-- Why settings are refused. -/
inductive ConfigError where
  | parse (field value reason : String)
  | depthOutOfRange
  | unreadable
  deriving DecidableEq

/-- The wording of a fault. -/
def ConfigError.message : ConfigError → String
  | .parse field value reason => s!"Parse error for {field}: {value} - {reason}"
  | .depthOutOfRange =>
    "Validation error: max_expression_depth: Max expression depth must be between 1 and 1000"
  | .unreadable => "Parse error for yaml_content"

namespace Config

/-- The settings where nothing else is said. -/
def default : Config :=
  ⟨64, false, .words, .sqlite, true⟩

/-- The settings, if filters may nest at least once and at most a thousand times. -/
def validated (c : Config) : Except ConfigError Config :=
  if 1 ≤ c.maxDepth && c.maxDepth ≤ 1000 then .ok c else .error .depthOutOfRange

/-- Digits behind a number so far, up to the first that is no digit or that 32 bits cannot hold. -/
def scanCount (n : Nat) : List Char → Except String Nat
  | [] => .ok n
  | c :: rest =>
    if !isDigit c then .error "invalid digit found in string"
    else if 2 ^ 32 ≤ n * 10 + digitValue c then .error "number too large to fit in target type"
    else scanCount (n * 10 + digitValue c) rest

/-- An unsigned 32-bit integer, or why a text is none. -/
def readCount (text : String) : Except String Nat :=
  match text.toList with
  | [] => .error "cannot parse integer from empty string"
  -- A sign needs digits behind it, and a sign alone is read as a digit that is wrong.
  | '+' :: c :: rest => scanCount 0 (c :: rest)
  | chars => scanCount 0 chars

/-- A truth value, or why a text is none. -/
def readFlag (text : String) : Except String Bool :=
  if text == "true" then .ok true
  else if text == "false" then .ok false
  else .error "provided string was not `true` or `false`"

/-- One of several names, or why a text is none of them. -/
def readName {α : Type} (ofName? : String → Option α) (text : String) : Except String α :=
  match ofName? text with
  | some a => .ok a
  | none => .error s!"unknown variant `{text}`"

/-- A setting among variables, read from its default where it is missing. -/
def readVariable {α : Type} (env : List (String × String)) (name default_ : String)
    (read : String → Except String α) : Except ConfigError α :=
  let value := (env.lookup name).getD default_
  match read value with
  | .ok a => .ok a
  | .error reason => .error (.parse name value reason)

/-- The settings that variables give. -/
def ofVariables (env : List (String × String)) : Except ConfigError Config := do
  let maxDepth ← readVariable env "ODATA_MAX_EXPRESSION_DEPTH" "64" readCount
  let caseSensitive ← readVariable env "ODATA_SEARCH_CASE_SENSITIVE" "false" readFlag
  let tokenization ←
    readVariable env "ODATA_SEARCH_TOKENIZATION" "words" (readName Tokenization.ofName?)
  let dialect ← readVariable env "ODATA_SQL_DIALECT" "sqlite" (readName Dialect.ofName?)
  let fallback ← readVariable env "ODATA_SQL_FALLBACK" "true" readFlag
  Config.validated ⟨maxDepth, caseSensitive, tokenization, dialect, fallback⟩

end Config

end EdmQuery
