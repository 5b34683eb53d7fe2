import EdmQuery.Config
import EdmQuery.Edm.EntityType
import EdmQuery.Query.Capability

/-! Entity data models: sets, their types, enumerations, and the bindings between sets. -/

namespace EdmQuery

open Text

/-- Where the entities of a set are kept: in memory, or in a table of a database. -/
inductive Backing where
  | memory
  | table (name : String) (provider : Nat)
  deriving DecidableEq

/-- A named collection of entities of one type. -/
structure EntitySet where
  name : String
  type : EntityType
  capabilities : Capabilities
  backing : Backing
  deriving DecidableEq

/-- The set that a navigation property of another set leads to. -/
structure Binding where
  set : String
  navigation : String
  target : String
  deriving DecidableEq

/-- A model whose parts fit together. -/
structure Model where
  config : Config
  enumerations : List Enumeration
  types : List EntityType
  sets : List EntitySet
  bindings : List Binding

/-- The parts of a model before they have been checked against each other. -/
structure Draft where
  config : Config
  enumerations : List Enumeration
  types : List EntityType
  sets : List EntitySet
  bindings : List Binding

namespace Model

/-- The entity set of a name. -/
def set? (m : Model) (name : String) : Option EntitySet :=
  m.sets.find? (·.name == name)

/-- The entity type of a name. -/
def type? (m : Model) (name : String) : Option EntityType :=
  m.types.find? (·.name == name)

/-- The last segment of a qualified name. -/
def shortName (name : String) : String :=
  String.ofList (name.toList.reverse.takeWhile (· != '.')).reverse

/-- The enumeration of a name, which may come with a namespace in front. -/
def enumeration? (m : Model) (name : String) : Option Enumeration :=
  (m.enumerations.find? (·.name == name)).or
    (m.enumerations.find? (·.name == shortName name))

/-- The set that a navigation property of a set is bound to. -/
def target? (m : Model) (set navigation : String) : Option String :=
  (m.bindings.find? fun b => b.set == set && b.navigation == navigation).map (·.target)

end Model

namespace Draft

/-- Types with those of a list added, where a name may repeat but not change its meaning. -/
def mergeTypes (found : List EntityType) : List EntityType → Except ModelError (List EntityType)
  | [] => .ok found
  | t :: rest =>
    match found.find? (·.name == t.name) with
    | none => mergeTypes (found ++ [t]) rest
    | some existing =>
      if existing == t then mergeTypes found rest else .error (.conflictingEntityType t.name)

/-- Enumerations with one added; a later one of the same name takes the place of an earlier one. -/
def putEnumeration (e : Enumeration) : List Enumeration → List Enumeration
  | [] => [e]
  | f :: rest => if f.name == e.name then e :: rest else f :: putEnumeration e rest

/-- Enumerations with the one of a property type added, where its name is new. -/
def addEnumeration (found : List Enumeration) (type : PropertyType) : List Enumeration :=
  match type.element with
  | .enum e => if found.any (·.name == e.name) then found else found ++ [e]
  | _ => found

/-- The key of a type is one of its properties. -/
def checkKey (t : EntityType) : Except ModelError Unit :=
  match t.key with
  | none => .ok ()
  | some key => if (t.property? key).isSome then .ok () else .error (.keyNotDeclared t.name key)

/-- Only texts are searchable. -/
def checkSearchable (t : EntityType) : Except ModelError Unit :=
  match t.searchable.find? fun p => p.type != .primitive .string with
  | some p => .error (.invalidSearchableProperty t.name p.name)
  | none => .ok ()

/-- A navigation property leads to a known type by exactly one constraint between properties. -/
def checkNavigation (types : List EntityType) (t : EntityType) (n : Navigation) :
    Except ModelError Unit :=
  match types.find? (·.name == n.target) with
  | none => .error (.unknownEntityType n.target)
  | some target =>
    match n.constraint? with
    | none => .error (.constraintCount t.name n.name n.constraints.length)
    | some c =>
      if (t.property? c.property).isNone then
        .error (.unknownConstraintProperty n.name c.property)
      else if (target.property? c.referenced).isNone then
        .error (.unknownConstraintProperty n.name c.referenced)
      else .ok ()

/-- The first refusal among checks of the members of a list. -/
def checkAll {α : Type} (check : α → Except ModelError Unit) : List α → Except ModelError Unit
  | [] => .ok ()
  | a :: rest =>
    match check a with
    | .error e => .error e
    | .ok () => checkAll check rest

/-- A type that is sound among all types. -/
def checkType (types : List EntityType) (t : EntityType) : Except ModelError Unit := do
  checkKey t
  checkSearchable t
  checkAll (checkNavigation types t) t.navigations

/-- Set names do not repeat. -/
def checkNames : List String → List EntitySet → Except ModelError Unit
  | _, [] => .ok ()
  | seen, s :: rest =>
    if seen.contains s.name then .error (.duplicateEntitySet s.name)
    else checkNames (s.name :: seen) rest

/-- Bindings join sets of the right types, each navigation property of a set once. -/
def checkBindings (sets : List EntitySet) : List Binding → List Binding → Except ModelError Unit
  | _, [] => .ok ()
  | seen, b :: rest =>
    match sets.find? (·.name == b.set) with
    | none => .error (.unknownEntitySet b.set)
    | some source =>
      match source.type.navigation? b.navigation with
      | none => .error (.unknownNavigation b.set b.navigation)
      | some navigation =>
        match sets.find? (·.name == b.target) with
        | none => .error (.unknownEntitySet b.target)
        | some target =>
          if target.type.name != navigation.target then
            .error (.bindingTypeMismatch b.set b.navigation b.target navigation.target)
          else if seen.any fun a => a.set == b.set && a.navigation == b.navigation then
            .error (.duplicateBinding b.set b.navigation)
          else checkBindings sets (b :: seen) rest

/-- The model of checked parts. -/
def build (d : Draft) : Except ModelError Model := do
  let types ← mergeTypes [] (d.types ++ d.sets.map (·.type))
  let named := d.enumerations.foldl (fun found e => putEnumeration e found) []
  let enumerations :=
    (types.flatMap fun t => t.properties.map (·.type)).foldl addEnumeration named
  checkAll (checkType types) types
  checkNames [] d.sets
  checkBindings d.sets [] d.bindings
  return ⟨d.config, enumerations, types, d.sets, d.bindings⟩

end Draft

end EdmQuery
