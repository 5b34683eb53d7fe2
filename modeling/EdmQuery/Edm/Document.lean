import EdmQuery.Data.Node
import EdmQuery.Edm.Model
import EdmQuery.Store.Collection

/-! Model documents: enumerations, entity types and sets with their first records. -/

namespace EdmQuery

open Number

/-- A property whose type is named by its text. -/
structure PropertyDefinition where
  name : String
  type : String
  nullable : Bool
  searchable : Bool
  source : Option String

/-- An entity type whose properties name their types. -/
structure TypeDefinition where
  name : String
  key : Option String
  properties : List PropertyDefinition
  navigations : List Navigation

/-- An entity set that names its type; without a list of capabilities it has all of them. -/
structure SetDefinition where
  name : String
  type : String
  records : List Record
  bindings : List (String × String)
  capabilities : Option (List Capability)

/-- A model document. -/
structure Document where
  config : Option Config
  enumerations : List Enumeration
  types : List TypeDefinition
  sets : List SetDefinition

/-- The settings of a map, where missing ones keep their defaults. -/
def Config.ofNode? (n : Node) : Option Config := do
  let fields : NodeFields ← n.fields?
  let base := Config.default
  let count (n : Node) : Option Nat :=
    n.integer?.bind fun i => if 0 ≤ i && i < 2 ^ 32 then some i.toNat else none
  let oneOf {α : Type} (options : List α) (name : α → String) (n : Node) : Option α :=
    n.text?.bind fun s => options.find? fun option => name option == s
  let maxDepth ← fields.withDefault "max_expression_depth" base.maxDepth count
  let caseSensitive ← fields.withDefault "search_case_sensitive" base.caseSensitive Node.bool?
  let tokenization ← fields.withDefault "search_tokenization" base.tokenization
    (oneOf [.words, .phrase] Tokenization.name)
  let dialect ← fields.withDefault "sql_dialect" base.dialect
    (oneOf [.sqlite, .postgres, .mysql] Dialect.name)
  let fallback ← fields.withDefault "sql_fallback" base.fallback Node.bool?
  return ⟨maxDepth, caseSensitive, tokenization, dialect, fallback⟩

namespace Document

/-- A member of an enumeration. -/
def memberOf (n : Node) : Option Member := do
  let fields : NodeFields ← n.fields?
  let name ← fields.required "name" Node.text?
  let value ← fields.required "value" Node.integer?
  if Numeral.isSigned64 value then some ⟨name, Int64.ofInt value⟩ else none

/-- An enumeration. -/
def enumerationOf (n : Node) : Option Enumeration := do
  let fields : NodeFields ← n.fields?
  let name ← fields.required "name" Node.text?
  let isFlags ← fields.withDefault "flags" false Node.bool?
  let members ← fields.required "members" (Node.listOf? memberOf)
  return ⟨name, members, isFlags⟩

/-- A property. -/
def propertyOf (n : Node) : Option PropertyDefinition := do
  let fields : NodeFields ← n.fields?
  let name ← fields.required "name" Node.text?
  let type ← fields.required "type" Node.text?
  let nullable ← fields.withDefault "nullable" true Node.bool?
  let searchable ← fields.withDefault "searchable" false Node.bool?
  let source ← fields.withDefault "source" none (Node.optional? Node.text?)
  return ⟨name, type, nullable, searchable, source⟩

/-- A constraint of a navigation property. -/
def constraintOf (n : Node) : Option Constraint := do
  let fields : NodeFields ← n.fields?
  let property ← fields.required "property" Node.text?
  let referenced ← fields.required "referenced_property" Node.text?
  return ⟨property, referenced⟩

/-- A navigation property with its constraint. -/
def navigationOf (n : Node) : Option Navigation := do
  let fields : NodeFields ← n.fields?
  let name ← fields.required "name" Node.text?
  let target ← fields.required "target" Node.text?
  let isCollection ← fields.withDefault "collection" false Node.bool?
  let constraint ← fields.required "constraint" constraintOf
  return ⟨name, target, isCollection, [constraint]⟩

/-- An entity type. -/
def typeOf (n : Node) : Option TypeDefinition := do
  let fields : NodeFields ← n.fields?
  let name ← fields.required "name" Node.text?
  let key ← fields.withDefault "key" none (Node.optional? Node.text?)
  let properties ← fields.required "properties" (Node.listOf? propertyOf)
  let navigations ← fields.withDefault "navigation" [] (Node.listOf? navigationOf)
  return ⟨name, key, properties, navigations⟩

/-- A binding of a navigation property to a set. -/
def bindingOf (n : Node) : Option (String × String) := do
  let fields : NodeFields ← n.fields?
  let navigation ← fields.required "navigation" Node.text?
  let target ← fields.required "target" Node.text?
  return (navigation, target)

/-- A record. -/
def recordOf (n : Node) : Option Record := do
  let fields ← n.fields?
  return Node.distinctFields (← Node.toFields? fields)

/-- An entity set. -/
def setOf (n : Node) : Option SetDefinition := do
  let fields : NodeFields ← n.fields?
  let name ← fields.required "name" Node.text?
  let type ← fields.required "type" Node.text?
  let records ← fields.withDefault "records" [] (Node.listOf? recordOf)
  let bindings ← fields.withDefault "bindings" [] (Node.listOf? bindingOf)
  let capabilities ← fields.withDefault "capabilities" none
    (Node.optional? (Node.listOf? fun c => c.text?.bind Capability.ofName?))
  return ⟨name, type, records, bindings, capabilities⟩

/-- The model document that a configuration document holds. -/
def ofNode? (n : Node) : Option Document := do
  let fields : NodeFields ← n.fields?
  let config ← fields.withDefault "config" none (Node.optional? Config.ofNode?)
  let enumerations ← fields.withDefault "enumerations" [] (Node.listOf? enumerationOf)
  let types ← fields.withDefault "entity_types" [] (Node.listOf? typeOf)
  let sets ← fields.withDefault "entity_sets" [] (Node.listOf? setOf)
  return ⟨config, enumerations, types, sets⟩

/-- A list with an element added; a later one of the same name takes the place of an earlier one. -/
def put {α : Type} (name : α → String) (a : α) : List α → List α
  | [] => [a]
  | b :: rest => if name b == name a then a :: rest else b :: put name a rest

/-- The declared properties of a type. -/
def buildProperties (enumerations : List Enumeration) :
    List PropertyDefinition → Except ModelError (List Property)
  | [] => .ok []
  | p :: rest =>
    match PropertyType.parse (fun name => enumerations.find? (·.name == name)) p.type with
    | .error e => .error e
    | .ok type =>
      (buildProperties enumerations rest).map
        (⟨p.name, type, p.nullable, p.searchable, p.source⟩ :: ·)

/-- The entity types, of which the last one of a name counts. -/
def buildTypes (enumerations : List Enumeration) (found : List EntityType) :
    List TypeDefinition → Except ModelError (List EntityType)
  | [] => .ok found
  | t :: rest =>
    match buildProperties enumerations t.properties with
    | .error e => .error e
    | .ok properties =>
      buildTypes enumerations (put (·.name) ⟨t.name, t.key, properties, t.navigations⟩ found) rest

/-- The entity sets and their first contents. -/
def buildSets (types : List EntityType) :
    List SetDefinition → Except ModelError (List EntitySet × List Collection)
  | [] => .ok ([], [])
  | s :: rest =>
    match types.find? (·.name == s.type) with
    | none => .error (.unknownEntityType s.type)
    | some type =>
      match Collection.ofRecords s.name type s.records with
      | .error e => .error e
      | .ok collection =>
        let capabilities := (s.capabilities.map Capabilities.ofList).getD .all
        (buildSets types rest).map fun (sets, collections) =>
          (⟨s.name, type, capabilities, .memory⟩ :: sets, collection :: collections)

/-- The model of a document and the contents of its sets, under settings of its own if not given. -/
def build (d : Document) (config : Option Config) :
    Except ModelError (Model × List Collection) := do
  let enumerations := d.enumerations.foldl (fun found e => put (·.name) e found) []
  let types ← buildTypes enumerations [] d.types
  let (sets, collections) ← buildSets types d.sets
  let bindings := d.sets.flatMap fun s =>
    s.bindings.map fun (navigation, target) => (⟨s.name, navigation, target⟩ : Binding)
  let settings := (config.or d.config).getD .default
  let model ← Draft.build ⟨settings, enumerations, types, sets, bindings⟩
  return (model, collections)

end Document

end EdmQuery
