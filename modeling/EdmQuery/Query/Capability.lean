/-! What an entity set lets requests do. -/

namespace EdmQuery

/-- An operation or an option that an entity set may support. -/
inductive Capability where
  | count
  | query
  | read
  | create
  | update
  | delete
  | filter
  | search
  | paginate
  | sort
  | expand
  | select
  deriving DecidableEq

namespace Capability

/-- The capabilities, in their usual order. -/
def all : List Capability :=
  [.count, .query, .read, .create, .update, .delete, .filter, .search, .paginate, .sort, .expand,
    .select]

/-- The name of a capability. -/
def name : Capability → String
  | .count => "count"
  | .query => "query"
  | .read => "read"
  | .create => "create"
  | .update => "update"
  | .delete => "delete"
  | .filter => "filter"
  | .search => "search"
  | .paginate => "paginate"
  | .sort => "sort"
  | .expand => "expand"
  | .select => "select"

/-- The capability of a name. -/
def ofName? (name : String) : Option Capability :=
  all.find? (·.name == name)

end Capability

/-- A set of capabilities, without repetitions and in their usual order. -/
structure Capabilities where
  members : List Capability
  deriving DecidableEq

namespace Capabilities

/-- Whether a capability is in the set. -/
def contains (s : Capabilities) (c : Capability) : Bool :=
  s.members.contains c

/-- The set of the capabilities that satisfy a condition. -/
def ofPredicate (p : Capability → Bool) : Capabilities :=
  ⟨Capability.all.filter p⟩

/-- The set without members. -/
def none : Capabilities := ⟨[]⟩

/-- The set of all capabilities. -/
def all : Capabilities := ⟨Capability.all⟩

/-- The set with one capability more. -/
def with_ (s : Capabilities) (c : Capability) : Capabilities :=
  ofPredicate fun d => d == c || s.contains d

/-- The set with one capability less. -/
def without (s : Capabilities) (c : Capability) : Capabilities :=
  ofPredicate fun d => d != c && s.contains d

/-- The set of the capabilities of a list. -/
def ofList (cs : List Capability) : Capabilities :=
  ofPredicate cs.contains

end Capabilities

end EdmQuery
