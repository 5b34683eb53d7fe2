import EdmQuery.Edm.Entity
import EdmQuery.Expr.Cursor

/-! Sort orders: which properties entities are sorted by, and in which direction. -/

namespace EdmQuery

/-- A property to sort by. -/
structure SortKey where
  property : Property
  descending : Bool
  deriving DecidableEq

namespace SortKey

/-- The text of a sort key. -/
def toText (k : SortKey) : String :=
  if k.descending then k.property.name ++ " desc" else k.property.name

/-- The order of two values, nulls first; values without an order count as equal. -/
def compareValues (a b : Value) : Ordering :=
  match a.isNull, b.isNull with
  | true, true => .eq
  | true, false => .lt
  | false, true => .gt
  | false, false => (a.compare b).getD .eq

/-- The order of two entities by one property. -/
def compare (k : SortKey) (a b : Entity) : Ordering :=
  let order := compareValues (a.get k.property.name) (b.get k.property.name)
  if k.descending then order.swap else order

end SortKey

/-- The order of two entities by the first property that tells them apart. -/
def compareEntities (keys : List SortKey) (a b : Entity) : Ordering :=
  match keys with
  | [] => .eq
  | k :: rest =>
    match k.compare a b with
    | .eq => compareEntities rest a b
    | order => order

/-- A new entity put behind all those that it is not less than, in a list that ends first. -/
def insertFromEnd (keys : List SortKey) (e : Entity) : List Entity → List Entity
  | [] => [e]
  | last :: before =>
    if compareEntities keys e last == .lt then last :: insertFromEnd keys e before
    else e :: last :: before

/-- Entities in order, where equal ones keep their places. -/
def sortEntities (keys : List SortKey) (entities : List Entity) : List Entity :=
  (entities.foldl (fun sorted e => insertFromEnd keys e sorted) []).reverse

namespace SortKey

/-- The direction at a place, which is ascending when nothing is said. -/
def parseDirection (c : Cursor) : Bool × Cursor :=
  match c.keyword "desc" with
  | .ok (_, next) => (true, next)
  | .error _ =>
    match c.keyword "asc" with
    | .ok (_, next) => (false, next)
    | .error _ => (false, c)

/-- The sort key at a place. -/
def parseOne (type : EntityType) (c : Cursor) : Read SortKey :=
  let start := c.skipBlanks
  match start.identifier with
  | .error e => .error e
  | .ok (name, next) =>
    if next.peek == some '/' then
      .error (next.error "ordering by a navigation path is not supported")
    else
      match type.property? name with
      | none => .error (.unknownProperty name)
      | some property =>
        if property.type.isCollection then
          .error (start.error s!"cannot order by collection `{name}`")
        else
          let (descending, next) := parseDirection next.skipBlanks
          .ok (⟨property, descending⟩, next)

/-- The sort keys from a place on; every one takes a character, which bounds their number. -/
def parseFrom (type : EntityType) : Nat → Cursor → Except ExpressionError (List SortKey)
  | 0, _ => .ok []
  | fuel + 1, c =>
    match parseOne type c with
    | .error e => .error e
    | .ok (key, next) =>
      if next.isFinished then .ok [key]
      else
        match next.skipBlanks.char ',' with
        | .error e => .error e
        | .ok (_, next) => (parseFrom type fuel next).map (key :: ·)

end SortKey

/-- The sort keys that a text writes for the entities of a type. -/
def parseOrder (type : EntityType) (input : String) : Except ExpressionError (List SortKey) :=
  SortKey.parseFrom type (input.length + 1) (.start input)

end EdmQuery
