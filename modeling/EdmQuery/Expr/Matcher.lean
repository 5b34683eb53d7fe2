import EdmQuery.Expr.Scanner

/-! The readers of option texts as data, so that they can be run in any order over one text. -/

namespace EdmQuery

/-- A reader of option texts. -/
inductive Matcher where
  | blanks
  | remaining
  | isFinished
  | peek
  | char (expected : Char)
  | keyword (word : String)
  | identifier
  | qualifiedIdentifier
  | quotedString
  | doubleQuotedString
  | number
  | date
  | dateTimeOffset
  | timeOfDay
  | guid
  | duration
  | enumLiteral
  | matchingParenthesis
  | searchWord
  | token
  | attempt (steps : List Matcher)
  deriving Inhabited

/-- What a reader finds. -/
inductive Found where
  | nothing
  | flag (holds : Bool)
  | text (text : String)
  | number (kind : NumberKind) (text : String)
  | enum (name members : String)
  | token (token : Token)
  | several (found : List Found)

namespace Matcher

mutual

/-- The step that a reader takes. -/
def apply : Matcher → Scanner.Reader Found
  | blanks => do
    Scanner.skipBlanks
    return .nothing
  | remaining => do return .text (String.ofList (← get).rest)
  | isFinished => .flag <$> Scanner.isFinished
  | peek => do return ((← get).peek.map fun next => .text next.toString).getD .nothing
  | char expected => .text <$> Scanner.char expected
  | keyword word => .text <$> Scanner.keyword word
  | identifier => .text <$> Scanner.identifier
  | qualifiedIdentifier => .text <$> Scanner.qualifiedIdentifier
  | quotedString => .text <$> Scanner.quotedString
  | doubleQuotedString => .text <$> Scanner.doubleQuotedString
  | number => (fun (kind, text) => .number kind text) <$> Scanner.number
  | date => .text <$> Scanner.date
  | dateTimeOffset => .text <$> Scanner.dateTimeOffset
  | timeOfDay => .text <$> Scanner.timeOfDay
  | guid => .text <$> Scanner.guid
  | duration => .text <$> Scanner.duration
  | enumLiteral => (fun (name, members) => .enum name members) <$> Scanner.enumLiteral
  | matchingParenthesis => .text <$> Scanner.matchingParenthesis
  | searchWord => .text <$> Scanner.searchWord
  | token => (fun found => (found.map .token).getD .nothing) <$> Scanner.nextToken
  | attempt steps =>
    (fun found => (found.map .several).getD .nothing) <$> Scanner.attempt (applyAll steps)

/-- The steps of readers one after the other, up to the first that is refused. -/
def applyAll : List Matcher → Scanner.Reader (List Found)
  | [] => return []
  | step :: rest => do
    let found ← apply step
    let more ← applyAll rest
    return found :: more

end

/-- What readers find in turn, each starting where the one before it left off. -/
def run (s : Scanner) : List Matcher → List (Except ExpressionError Found × Scanner)
  | [] => []
  | step :: rest =>
    let outcome := (apply step).outcome s
    outcome :: run outcome.2 rest

end Matcher

end EdmQuery
