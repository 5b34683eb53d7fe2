import EdmQuery.Expr.Expand
import EdmQuery.Expr.Order
import EdmQuery.Expr.Parser
import EdmQuery.Expr.Search
import EdmQuery.Query.Error

/-! Query options: as they come in, and as they are once their texts have been read. -/

namespace EdmQuery

open Text Number

/-- The options that a query can have. -/
inductive QueryOption where
  | filter
  | search
  | orderby
  | skip
  | top
  | count
  | select
  | expand
  deriving DecidableEq

namespace QueryOption

/-- The options, in the order in which they are checked and read. -/
def all : List QueryOption :=
  [.filter, .search, .orderby, .skip, .top, .count, .select, .expand]

/-- The name of an option. -/
def name : QueryOption → String
  | .filter => "filter"
  | .search => "search"
  | .orderby => "orderby"
  | .skip => "skip"
  | .top => "top"
  | .count => "count"
  | .select => "select"
  | .expand => "expand"

/-- The option of a name. -/
def ofName? (name : String) : Option QueryOption :=
  all.find? (·.name == name)

/-- The capability that an entity set needs for an option. -/
def capability : QueryOption → Capability
  | .filter => .filter
  | .search => .search
  | .orderby => .sort
  | .skip => .paginate
  | .top => .paginate
  | .count => .count
  | .select => .select
  | .expand => .expand

end QueryOption

/-- The texts of query options, each given at most once. -/
structure RawOptions where
  entries : List (QueryOption × String)
  deriving DecidableEq

namespace RawOptions

/-- No options. -/
def empty : RawOptions := ⟨[]⟩

/-- The text of an option. -/
def get? (raw : RawOptions) (o : QueryOption) : Option String :=
  raw.entries.lookup o

/-- Options with more of them added from names with a dollar sign and texts. -/
def addPairs (raw : RawOptions) : List (String × String) → Except RequestError RawOptions
  | [] => .ok raw
  | (given, text) :: rest =>
    let name := trim given
    match name.toList with
    | '$' :: option =>
      match QueryOption.ofName? (String.ofList option) with
      | none => .error (.unknownOption name)
      | some o =>
        if (raw.get? o).isSome then .error (.duplicateOption name)
        else addPairs ⟨raw.entries ++ [(o, text)]⟩ rest
    -- Names without a dollar sign belong to whoever defined them.
    | _ => addPairs raw rest

/-- The options among names and texts. -/
def ofPairs (pairs : List (String × String)) : Except RequestError RawOptions :=
  empty.addPairs pairs

end RawOptions

/-- The stages that a stream of entities passes: selection, order and window. -/
structure Stages where
  filter : Option Expression
  search : Option Search
  orderby : List SortKey
  skip : Option Nat
  top : Option Nat

namespace Stages

/-- No stages. -/
def empty : Stages := ⟨none, none, [], none, none⟩

/-- The stages that decide how many entities there are. -/
def unpaged (s : Stages) : Stages :=
  { s with orderby := [], skip := none, top := none }

/-- The stages with one more condition on entities. -/
def andFilter (s : Stages) (condition : Expression) : Stages :=
  { s with filter := some (match s.filter with
      | some filter => .binary .and filter condition
      | none => condition) }

end Stages

/-- A navigation property to expand, with options for the related entities. -/
inductive Expansion where
  | mk (navigation : Navigation) (target : String) (stages : Stages) (count : Bool)
    (select : Option (List String)) (expand : List Expansion)

/-- Query options whose texts have been read. -/
structure QueryOptions where
  stages : Stages
  count : Bool
  select : Option (List String)
  expand : List Expansion

/-- No options. -/
def QueryOptions.empty : QueryOptions := ⟨.empty, false, none, []⟩

namespace Expansion

/-- The navigation property of an expansion. -/
def navigation : Expansion → Navigation
  | mk navigation _ _ _ _ _ => navigation

/-- The set of the related entities. -/
def target : Expansion → String
  | mk _ target _ _ _ _ => target

/-- The options of an expansion. -/
def options : Expansion → QueryOptions
  | mk _ _ stages count select expand => ⟨stages, count, select, expand⟩

end Expansion

namespace QueryOptions

/-- A set has the capabilities for the options that are given. -/
def checkCapabilities (s : EntitySet) (raw : RawOptions) : Except RequestError Unit :=
  match QueryOption.all.find? fun o =>
      (raw.get? o).isSome && !s.capabilities.contains o.capability with
  | some o => .error (.unsupportedOption ("$" ++ o.name))
  | none => .ok ()

/-- A number of entities. -/
def parsePage (option text : String) : Except RequestError Nat :=
  let digits := match trimChars text.toList with
    | '+' :: c :: rest => c :: rest
    | chars => chars
  if !digits.isEmpty && digits.all isDigit && natOfDigits digits < 2 ^ 64 then
    .ok (natOfDigits digits)
  else .error (.invalidPage option text)

/-- Whether the number of entities is asked for. -/
def parseCount (text : String) : Except RequestError Bool :=
  let word := trim text
  if word == "true" then .ok true
  else if word == "false" then .ok false
  else .error (.invalidCount word)

/-- The properties to show, none when all of them are. -/
def parseSelect (type : EntityType) (text : String) :
    Except RequestError (Option (List String)) :=
  let names := (split ',' text).map trim
  if names.contains "*" then .ok none
  else
    match names.find? fun name => (type.property? name).isNone with
    | some name => .error (.expression (.unknownProperty name))
    | none => .ok (some names)

/-- What is read from the text of an option, if there is one. -/
def parseGiven {α : Type} (raw : RawOptions) (o : QueryOption) (fallback : α)
    (read : String → Except RequestError α) : Except RequestError α :=
  match raw.get? o with
  | none => .ok fallback
  | some text => read text

/-- The stages that texts write for the entities of a set. -/
def parseStages (m : Model) (s : EntitySet) (raw : RawOptions) : Except RequestError Stages := do
  let filter ← parseGiven raw .filter none fun text =>
    ((parseFilter m s.name text).map some).mapError .expression
  let search ← parseGiven raw .search none fun text =>
    ((Search.parse m.config text).map some).mapError .expression
  let orderby ← parseGiven raw .orderby [] fun text =>
    (parseOrder s.type text).mapError .expression
  let skip ← parseGiven raw .skip none fun text => (parsePage "$skip" text).map some
  let top ← parseGiven raw .top none fun text => (parsePage "$top" text).map some
  return ⟨filter, search, orderby, skip, top⟩

/-- The expansion that an item writes for a set, where `nested` reads the options in it. -/
def parseItem (m : Model) (nested : EntitySet → RawOptions → Except RequestError QueryOptions)
    (s : EntitySet) (item : ExpandItem) : Except RequestError Expansion :=
  match s.type.navigation? item.navigation with
  | none => .error (.expression (.unknownProperty item.navigation))
  | some navigation =>
    match m.target? s.name item.navigation with
    | none => .error (.expression (.unboundNavigation item.navigation))
    | some target =>
      match m.set? target with
      | none => .error (.expression (.unknownEntitySet target))
      | some set => do
        let pairs ← (splitNestedOptions (item.options.getD "")).mapError .expression
        let raw ← RawOptions.ofPairs pairs
        let o ← nested set raw
        return .mk navigation target o.stages o.count o.select o.expand

/-- The expansions that a text writes for a set. -/
def parseExpansions (m : Model)
    (nested : EntitySet → RawOptions → Except RequestError QueryOptions)
    (s : EntitySet) (text : String) : Except RequestError (List Expansion) :=
  match parseExpand text with
  | .error e => .error (.expression e)
  | .ok items => items.mapM (parseItem m nested s)

/-- The options that texts write for a set, at most so many levels of expansions deep. -/
def parseLevels (m : Model) : Nat → EntitySet → RawOptions → Except RequestError QueryOptions
  | 0, _, _ => .error (.expression (.tooDeep m.config.maxDepth))
  | levels + 1, s, raw => do
    checkCapabilities s raw
    let stages ← parseStages m s raw
    let count ← parseGiven raw .count false parseCount
    let select ← parseGiven raw .select none (parseSelect s.type)
    let expand ← parseGiven raw .expand [] (parseExpansions m (parseLevels m levels) s)
    return ⟨stages, count, select, expand⟩

/-- Enough levels for a text: options inside parentheses are shorter than those around them. -/
def levelsOf (raw : RawOptions) : Nat :=
  ((raw.get? .expand).getD "").length + 2

/-- The options that texts write for a set. -/
def parse (m : Model) (s : EntitySet) (raw : RawOptions) : Except RequestError QueryOptions :=
  parseLevels m (levelsOf raw) s raw

end QueryOptions

end EdmQuery
