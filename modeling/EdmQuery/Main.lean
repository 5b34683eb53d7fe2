import EdmQuery.Command

/-! The command line: reads the documents that a command names and prints its answer. -/

open EdmQuery

/-- Prints the answer to the command, or its error to the other stream. -/
def main (arguments : List String) : IO UInt32 := do
  match Command.parse arguments with
  | .error e =>
    IO.eprintln ("error: " ++ e.message)
    return 2
  | .ok command =>
    let model ← IO.FS.readFile command.model
    let configuration ← command.configuration.mapM fun path => IO.FS.readFile path
    match command.answer model configuration with
    | .ok text =>
      IO.println text
      return 0
    | .error e =>
      IO.eprintln ("Error: " ++ e.message)
      return if e.isUsage then 2 else 1
