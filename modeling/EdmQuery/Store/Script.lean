import EdmQuery.Store.Database

/-! Databases that answer from a script and note what they are asked for. -/

namespace EdmQuery

/-- The answer to a statement. -/
inductive Reply where
  | fault (fault : SqlError)
  | answer (rows : List Record) (outcome : Outcome)

/-- An entry of a script: the answer to the next statement, or a refusal of the next connection. -/
inductive Response where
  | statement (reply : Reply)
  | refusal (fault : SqlError)

/-- What a database is asked for. -/
inductive Event where
  | acquired
  | refused
  | queried (s : Statement)
  | executed (s : Statement)
  | released

/-- A database with a script. -/
structure ScriptedDatabase where
  dialect : Dialect
  script : List Response

/-- Databases with scripts, and what they have been asked for, latest first. -/
structure Stage where
  databases : List ScriptedDatabase
  log : List (Nat × Event)

namespace Stage

/-- The script of a database. -/
def script (s : Stage) (provider : Nat) : List Response :=
  ((s.databases[provider]?).map (·.script)).getD []

/-- A stage where a database has another script. -/
def withScript (s : Stage) (provider : Nat) (script : List Response) : Stage :=
  { s with databases := s.databases.modify provider fun d => { d with script := script } }

/-- A stage with one more event. -/
def note (s : Stage) (provider : Nat) (e : Event) : Stage :=
  { s with log := (provider, e) :: s.log }

/-- The next reply of a script to a statement. -/
def reply (provider : Nat) (e : Event) : StateM Stage Reply := fun s =>
  let s := s.note provider e
  match s.script provider with
  | .statement r :: rest => (r, s.withScript provider rest)
  | .refusal fault :: rest => (.fault fault, s.withScript provider rest)
  | [] => (.fault (.connection "script exhausted"), s)

/-- A connection, which is there unless the script refuses it. -/
def acquire (provider : Nat) : StateM Stage (Except SqlError Unit) := fun s =>
  match s.script provider with
  | .refusal fault :: rest => (.error fault, (s.withScript provider rest).note provider .refused)
  | _ => (.ok (), s.note provider .acquired)

/-- The databases of a stage with the given flavours. -/
def databases_ (dialects : List Dialect) : Databases (StateM Stage) where
  dialect provider := (dialects[provider]?).getD .sqlite
  acquire := acquire
  query provider s := do
    match ← reply provider (.queried s) with
    | .fault fault => return .error fault
    | .answer rows _ => return .ok rows
  execute provider s := do
    match ← reply provider (.executed s) with
    | .fault fault => return .error fault
    | .answer _ outcome => return .ok outcome
  release provider := modify fun s => s.note provider .released

end Stage

end EdmQuery
