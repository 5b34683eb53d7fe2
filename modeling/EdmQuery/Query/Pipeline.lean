import EdmQuery.Expr.Eval
import EdmQuery.Query.Options

/-! Streams of entities on their way through filter, search, order and window. -/

namespace EdmQuery

/-- A stream of entities, some of which may be faults. -/
abbrev Entities := List (Except RequestError Entity)

/-- Whether the reader of a stream goes on behind a fault. -/
inductive Patience where
  | throughFaults
  | upToFault
  deriving DecidableEq

/-- The entities of a stream without faults, or the first fault. -/
def Entities.all : Entities → Except RequestError (List Entity)
  | [] => .ok []
  | .error e :: _ => .error e
  | .ok e :: rest => (all rest).map (e :: ·)

namespace Stages

variable {m : Type → Type} [Monad m]

/-- Whether an entity passes filter and search. -/
def keeps (lookup : Lookup m) (caseSensitive : Bool) (s : Stages) (e : Entity) :
    ExceptT RequestError m Bool := do
  let held ← match s.filter with
    | none => pure true
    | some filter => filter.holdsOn lookup e
  return held && s.search.all (·.matches_ caseSensitive e)

/-- The entities of a stream that pass a test, all of them read before one is used. -/
def gather (keep : Entity → ExceptT RequestError m Bool) :
    Entities → ExceptT RequestError m (List Entity)
  | [] => return []
  | .error e :: _ => throw e
  | .ok e :: rest => do
    let kept ← keep e
    let more ← gather keep rest
    return if kept then e :: more else more

/-- The window of those entities of a stream that pass a test, each finished when its turn comes. -/
def deliver (patience : Patience) (keep : Entity → ExceptT RequestError m Bool)
    (finish : Entity → ExceptT RequestError m Entity) : Nat → Option Nat → Entities → m Entities
  | _, some 0, _ => return []
  | _, _, [] => return []
  | skip, top, .error e :: rest => do
    -- A fault keeps its place: it is neither skipped nor counted.
    if patience == .upToFault then return [.error e]
    return .error e :: (← deliver patience keep finish skip top rest)
  | skip, top, .ok e :: rest => do
    match ← (keep e).run with
    | .error fault =>
      if patience == .upToFault then return [.error fault]
      return .error fault :: (← deliver patience keep finish skip top rest)
    | .ok false => deliver patience keep finish skip top rest
    | .ok true =>
      match skip with
      | skip + 1 => deliver patience keep finish skip top rest
      | 0 =>
        let left := top.map (· - 1)
        match ← (finish e).run with
        | .error fault =>
          if patience == .upToFault then return [.error fault]
          return .error fault :: (← deliver patience keep finish 0 left rest)
        | .ok finished => return .ok finished :: (← deliver patience keep finish 0 left rest)

/-- What comes out of a stream; only an order makes it read the whole stream beforehand. -/
def run (patience : Patience) (lookup : Lookup m) (caseSensitive : Bool)
    (finish : Entity → ExceptT RequestError m Entity) (s : Stages) (source : Entities) :
    ExceptT RequestError m Entities :=
  let keep := s.keeps lookup caseSensitive
  let skip := s.skip.getD 0
  if s.orderby.isEmpty then ExceptT.lift (deliver patience keep finish skip s.top source)
  else do
    let kept ← gather keep source
    let sorted : Entities := (sortEntities s.orderby kept).map .ok
    ExceptT.lift (deliver patience (fun _ => pure true) finish skip s.top sorted)

/-- The number of entities in a stream that pass filter and search. -/
def count (lookup : Lookup m) (caseSensitive : Bool) (s : Stages) (source : Entities) :
    ExceptT RequestError m Nat := do
  let kept ← gather (s.keeps lookup caseSensitive) source
  return kept.length

end Stages

end EdmQuery
