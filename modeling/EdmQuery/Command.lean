import EdmQuery.Data.Yaml
import EdmQuery.Edm.Document
import EdmQuery.Expr.Printer
import EdmQuery.Query.Service

/-! Commands: a question to an entity set of a model document, and the text of its answer. -/

namespace EdmQuery

open Number

/-- A question: the documents to read, the set to ask, and how to ask it. -/
structure Command where
  model : String
  configuration : Option String
  set : String
  options : RawOptions
  explains : Bool
  settings : Config

/-- Why a command has no answer. -/
inductive CommandError where
  | unexpected (argument : String)
  | noValue (argument : String)
  | repeated (argument : String)
  | missing (argument : String)
  | invalid (argument value reason : String)
  | config (error : ConfigError)
  | model (error : ModelError)
  | request (error : RequestError)

namespace CommandError

/-- The wording of an error. -/
def message : CommandError → String
  | .unexpected argument => s!"unexpected argument '{argument}' found"
  | .noValue argument => s!"a value is required for '{argument}' but none was supplied"
  | .repeated argument => s!"the argument '{argument}' cannot be used multiple times"
  | .missing argument => s!"the following required argument was not provided: {argument}"
  | .invalid argument value reason => s!"invalid value '{value}' for '{argument}': {reason}"
  | .config error => error.message
  | .model error => error.message
  | .request error =>
    match error.source? with
    | some source => error.message ++ ": " ++ source
    | none => error.message

/-- Whether the command itself is at fault rather than what it asks for. -/
def isUsage : CommandError → Bool
  | .config _ => false
  | .model _ => false
  | .request _ => false
  | _ => true

end CommandError

namespace Command

/-- The arguments that stand alone. -/
def switches : List String :=
  ["--count", "--explain", "--search-case-sensitive", "--no-sql-fallback"]

/-- The arguments that have a value. -/
def valued : List String :=
  ["--model", "--config", "--entity-set", "--filter", "--search", "--orderby", "--skip", "--top",
    "--select", "--expand", "--max-expression-depth", "--search-tokenization", "--sql-dialect"]

/-- An argument and the value behind its equals sign, if it has one. -/
def splitArgument (argument : String) : String × Option String :=
  let chars := argument.toList
  let name := chars.takeWhile (· != '=')
  match chars.drop name.length with
  | _ :: value => (String.ofList name, some (String.ofList value))
  | [] => (argument, none)

/-- Whether a text is an argument rather than the value of one. -/
def isArgument (text : String) : Bool :=
  match text.toList with
  | '-' :: _ :: _ => true
  | _ => false

/-- The arguments of a command line with their values; one may wait for its value to follow. -/
def readArguments (found : List (String × String)) (waiting : Option String) :
    List String → Except CommandError (List (String × String))
  | [] =>
    match waiting with
    | some name => .error (.noValue name)
    | none => .ok found
  | text :: rest =>
    match waiting with
    | some name =>
      if isArgument text then .error (.noValue name)
      else readArguments ((name, text) :: found) none rest
    | none =>
      let (name, given) := splitArgument text
      if (found.lookup name).isSome then .error (.repeated name)
      else if switches.contains name && given.isNone then
        readArguments ((name, "true") :: found) none rest
      else if valued.contains name then
        match given with
        | some value => readArguments ((name, value) :: found) none rest
        | none => readArguments found (some name) rest
      else .error (.unexpected text)

/-- What a function reads in the value of an argument, or in its default where it is missing. -/
def valueOf {α : Type} (found : List (String × String)) (name default_ : String)
    (read : String → Except String α) : Except CommandError α :=
  let value := (found.lookup name).getD default_
  match read value with
  | .ok a => .ok a
  | .error reason => .error (.invalid name value reason)

/-- An argument that has to be there. -/
def required (found : List (String × String)) (name : String) : Except CommandError String :=
  match found.lookup name with
  | some value => .ok value
  | none => .error (.missing name)

/-- The command that arguments spell. -/
def parse (arguments : List String) : Except CommandError Command := do
  let found ← readArguments [] none arguments
  let isOn (name : String) : Bool := (found.lookup name).isSome
  let model ← required found "--model"
  let set ← required found "--entity-set"
  let maxDepth ← valueOf found "--max-expression-depth" "64" Config.readCount
  let tokenization ←
    valueOf found "--search-tokenization" "words" (Config.readName Tokenization.ofName?)
  let dialect ← valueOf found "--sql-dialect" "sqlite" (Config.readName Dialect.ofName?)
  let options := QueryOption.all.filterMap fun o =>
    (found.lookup ("--" ++ o.name)).map fun text => (o, text)
  return ⟨model, found.lookup "--config", set, ⟨options⟩, isOn "--explain",
    ⟨maxDepth, isOn "--search-case-sensitive", tokenization, dialect,
      !isOn "--no-sql-fallback"⟩⟩

/-- The settings of a command: those of its document, or else those of its arguments. -/
def config (c : Command) (text : Option String) : Except ConfigError Config :=
  match text with
  | none => c.settings.validated
  | some text =>
    match (Yaml.parse text).bind Config.ofNode? with
    | none => .error .unreadable
    | some config => config.validated

/-- The statement that a question becomes, and the filter as it was understood. -/
def explanation (m : Model) (set : String) (o : QueryOptions) : Except RequestError String := do
  let filter := match o.stages.filter with
    | some filter => "filter: " ++ filter.toText ++ "\n"
    | none => ""
  let statement ← explain m set o.stages
  let parameters := String.intercalate ", " (statement.parameters.map (·.toLiteral))
  return filter ++ "sql: " ++ statement.sql ++ "\nparams: [" ++ parameters ++ "]"

/-- The entities that a question selects, behind their number where that is asked for. -/
def selection (v : Service Id) (s : EntitySet) (o : QueryOptions) :
    Except RequestError String := do
  let count : Record ←
    if o.count then do
      let n ← (v.count s o).run
      pure [("@odata.count", Json.ofInt n)]
    else pure []
  let found ← (v.query s o).run
  let entities ← found.all
  return Json.pretty 0 (.object (count ++ [("value", .array (entities.map (·.toJson)))]))

/-- The answer to a command, from the texts of its documents. -/
def answer (c : Command) (model : String) (configuration : Option String) :
    Except CommandError String := do
  let config ← (c.config configuration).mapError .config
  let document ← match (Yaml.parse model).bind Document.ofNode? with
    | some document => pure document
    | none => .error (.model .parse)
  let (m, collections) ← (document.build (some config)).mapError .model
  let v : Service Id := ⟨m, collections, .none⟩
  let (s, o) ← (v.prepare c.set c.options).mapError .request
  (if c.explains then explanation m s.name o else selection v s o).mapError .request

end Command

end EdmQuery
