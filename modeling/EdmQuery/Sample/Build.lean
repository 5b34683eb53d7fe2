import EdmQuery.Edm.Document

/-! Short forms for model documents that are written by hand. -/

namespace EdmQuery

namespace PropertyDefinition

/-- A property that may be null. -/
def plain (name type : String) : PropertyDefinition :=
  ⟨name, type, true, false, none⟩

/-- A property that must not be null. -/
def required (name type : String) : PropertyDefinition :=
  ⟨name, type, false, false, none⟩

/-- A property that a search looks at. -/
def looked (p : PropertyDefinition) : PropertyDefinition :=
  { p with searchable := true }

/-- A text that a search looks at. -/
def searched (name : String) : PropertyDefinition :=
  (plain name "Edm.String").looked

/-- A property with a column of another name. -/
def stored (column : String) (p : PropertyDefinition) : PropertyDefinition :=
  { p with source := some column }

end PropertyDefinition

namespace Sample

/-- A navigation property to one entity, by a property that equals one of the target. -/
def one (name target property referenced : String) : Navigation :=
  ⟨name, target, false, [⟨property, referenced⟩]⟩

/-- A navigation property to several entities, by a property that equals one of the target. -/
def many (name target property referenced : String) : Navigation :=
  ⟨name, target, true, [⟨property, referenced⟩]⟩

end Sample

end EdmQuery
