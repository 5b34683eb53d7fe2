import EdmQuery.Query.Error
import EdmQuery.Sql.Statement

/-! Databases behind entity sets: connections that are taken, used and given back. -/

namespace EdmQuery

/-- What a statement reports that returns no rows. -/
structure Outcome where
  affected : Nat
  lastId : Option Int64
  deriving DecidableEq

/-- The databases that entity sets are kept in, by their numbers. -/
structure Databases (m : Type → Type) where
  dialect : Nat → Dialect
  acquire : Nat → m (Except SqlError Unit)
  query : Nat → Statement → m (Except SqlError (List Record))
  execute : Nat → Statement → m (Except SqlError Outcome)
  release : Nat → m Unit

namespace Databases

variable {m : Type → Type} [Monad m]

/-- No databases. -/
def none : Databases m where
  dialect _ := .sqlite
  acquire _ := return .error (.connection "no database")
  query _ _ := return .error (.connection "no database")
  execute _ _ := return .error (.connection "no database")
  release _ := return ()

/-- A use of a connection, which is given back whatever comes of it. -/
def withConnection {α : Type} (dbs : Databases m) (provider : Nat)
    (use : ExceptT RequestError m α) : ExceptT RequestError m α :=
  ExceptT.mk do
    match ← dbs.acquire provider with
    | .error e => return .error (.ofSql e)
    | .ok () =>
      let result ← use.run
      dbs.release provider
      return result

/-- The rows that a statement selects. -/
def rows (dbs : Databases m) (provider : Nat) (s : Statement) :
    ExceptT RequestError m (List Record) :=
  ExceptT.mk do return (← dbs.query provider s).mapError .ofSql

/-- What a statement without rows reports, where its fault becomes one of the request. -/
def run (dbs : Databases m) (provider : Nat) (fault : SqlError → RequestError) (s : Statement) :
    ExceptT RequestError m Outcome :=
  ExceptT.mk do return (← dbs.execute provider s).mapError fault

end Databases

end EdmQuery
