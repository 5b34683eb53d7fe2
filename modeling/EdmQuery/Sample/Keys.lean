import EdmQuery.Sample.Build

/-! Entity sets whose keys have types of every kind, and sets that have none. -/

namespace EdmQuery.Sample

/-- The enumeration `Colour`. -/
def keysColour : Enumeration :=
  ⟨"Colour", [⟨"red", 0⟩, ⟨"blue", 1⟩], false⟩

/-- The entity type `StrK`. -/
def keysStrKType : TypeDefinition :=
  ⟨"StrK", some "k",
    [.required "k" "Edm.String", .plain "v" "Edm.String"],
    []⟩

/-- The entity type `GuidK`. -/
def keysGuidKType : TypeDefinition :=
  ⟨"GuidK", some "k",
    [.required "k" "Edm.Guid", .plain "v" "Edm.String"],
    []⟩

/-- The entity type `DateK`. -/
def keysDateKType : TypeDefinition :=
  ⟨"DateK", some "k",
    [.required "k" "Edm.Date", .plain "v" "Edm.String"],
    []⟩

/-- The entity type `DecK`. -/
def keysDecKType : TypeDefinition :=
  ⟨"DecK", some "k",
    [.required "k" "Edm.Decimal", .plain "v" "Edm.String"],
    []⟩

/-- The entity type `DblK`. -/
def keysDblKType : TypeDefinition :=
  ⟨"DblK", some "k",
    [.required "k" "Edm.Double", .plain "v" "Edm.String"],
    []⟩

/-- The entity type `BoolK`. -/
def keysBoolKType : TypeDefinition :=
  ⟨"BoolK", some "k",
    [.required "k" "Edm.Boolean", .plain "v" "Edm.String"],
    []⟩

/-- The entity type `EnumK`. -/
def keysEnumKType : TypeDefinition :=
  ⟨"EnumK", some "k",
    [.required "k" "Colour", .plain "v" "Edm.String"],
    []⟩

/-- The entity type `ByteK`. -/
def keysByteKType : TypeDefinition :=
  ⟨"ByteK", some "k",
    [.required "k" "Edm.Byte", .plain "v" "Edm.String"],
    []⟩

/-- The entity type `BigK`. -/
def keysBigKType : TypeDefinition :=
  ⟨"BigK", some "k",
    [.stored "kk" (.required "k" "Edm.Int64"), .plain "v" "Edm.String"],
    []⟩

/-- The entity type `DurK`. -/
def keysDurKType : TypeDefinition :=
  ⟨"DurK", some "k",
    [.required "k" "Edm.Duration", .plain "v" "Edm.String"],
    []⟩

/-- The entity type `Keyless`. -/
def keysKeylessType : TypeDefinition :=
  ⟨"Keyless", none,
    [.required "text" "Edm.String", .plain "n" "Edm.Int16"],
    []⟩

/-- The entity type `Strict`. -/
def keysStrictType : TypeDefinition :=
  ⟨"Strict", some "id",
    [.required "id" "Edm.Int32", .required "a" "Edm.String", .required "n" "Edm.Int16",
     .plain "opt" "Edm.Double", .plain "tags" "Collection(Edm.String)", .plain "col" "Colour"],
    []⟩

/-- The entity set `strs`. -/
def keysStrsSet : SetDefinition :=
  ⟨"strs", "StrK",
    [[("k", .text "a"), ("v", .text "A")],
     [("k", .text "it's"), ("v", .text "quote")]],
    [], none⟩

/-- The entity set `guids`. -/
def keysGuidsSet : SetDefinition :=
  ⟨"guids", "GuidK",
    [[("k", .text "01234567-89ab-cdef-0123-456789abcdef"), ("v", .text "g")]],
    [], none⟩

/-- The entity set `dates`. -/
def keysDatesSet : SetDefinition :=
  ⟨"dates", "DateK",
    [[("k", .text "2020-01-01"), ("v", .text "d")]],
    [], none⟩

/-- The entity set `decs`. -/
def keysDecsSet : SetDefinition :=
  ⟨"decs", "DecK",
    [[("k", .text "1.50"), ("v", .text "x")]],
    [], none⟩

/-- The entity set `dbls`. -/
def keysDblsSet : SetDefinition :=
  ⟨"dbls", "DblK",
    [[("k", .number (.double 1.5)), ("v", .text "x")],
     [("k", .text "NaN"), ("v", .text "nan")]],
    [], none⟩

/-- The entity set `bools`. -/
def keysBoolsSet : SetDefinition :=
  ⟨"bools", "BoolK",
    [[("k", .bool true), ("v", .text "t")]],
    [], none⟩

/-- The entity set `enums`. -/
def keysEnumsSet : SetDefinition :=
  ⟨"enums", "EnumK",
    [[("k", .text "blue"), ("v", .text "b")]],
    [], none⟩

/-- The entity set `bytes`. -/
def keysBytesSet : SetDefinition :=
  ⟨"bytes", "ByteK",
    [[("k", .ofInt 255), ("v", .text "max")]],
    [], none⟩

/-- The entity set `bigs`. -/
def keysBigsSet : SetDefinition :=
  ⟨"bigs", "BigK",
    [[("kk", .ofInt 9223372036854775807), ("v", .text "max")]],
    [], none⟩

/-- The entity set `durs`. -/
def keysDursSet : SetDefinition :=
  ⟨"durs", "DurK",
    [[("k", .text "PT90S"), ("v", .text "x")]],
    [], none⟩

/-- The entity set `log`. -/
def keysLogSet : SetDefinition :=
  ⟨"log", "Keyless",
    [[("text", .text "boot"), ("n", .ofInt 1)],
     [("text", .text "stop"), ("n", .null)]],
    [], none⟩

/-- The entity set `strict`. -/
def keysStrictSet : SetDefinition :=
  ⟨"strict", "Strict",
    [],
    [], none⟩

/-- The entity set `nokeyrec`. -/
def keysNokeyrecSet : SetDefinition :=
  ⟨"nokeyrec", "Strict",
    [[("a", .text "no key"), ("n", .ofInt 1)],
     [("id", .ofInt 5), ("a", .text "five"), ("n", .ofInt 2)]],
    [], none⟩

/-- Entity sets whose keys have types of every kind, and sets that have none. -/
def keys : Document :=
  ⟨none,
    [keysColour],
    [keysStrKType, keysGuidKType, keysDateKType, keysDecKType, keysDblKType, keysBoolKType,
     keysEnumKType, keysByteKType, keysBigKType, keysDurKType, keysKeylessType, keysStrictType],
    [keysStrsSet, keysGuidsSet, keysDatesSet, keysDecsSet, keysDblsSet, keysBoolsSet,
     keysEnumsSet, keysBytesSet, keysBigsSet, keysDursSet, keysLogSet, keysStrictSet,
     keysNokeyrecSet]⟩

end EdmQuery.Sample
