import EdmQuery.Sample.Build

/-! One entity type with a property of every type, filled with regular and odd values. -/

namespace EdmQuery.Sample

/-- The enumeration `Colour`. -/
def zooColour : Enumeration :=
  ⟨"Colour", [⟨"red", 0⟩, ⟨"blue", 1⟩, ⟨"green", 2⟩], false⟩

/-- The enumeration `Tint`. -/
def zooTint : Enumeration :=
  ⟨"Tint", [⟨"blue", 1⟩, ⟨"azure", 1⟩], false⟩

/-- The enumeration `Perms`. -/
def zooPerms : Enumeration :=
  ⟨"Perms", [⟨"none", 0⟩, ⟨"read", 1⟩, ⟨"write", 2⟩, ⟨"exec", 4⟩, ⟨"rw", 3⟩], true⟩

/-- The enumeration `My.Deep.Kind`. -/
def zooMyDeepKind : Enumeration :=
  ⟨"My.Deep.Kind", [⟨"k", 5⟩], false⟩

/-- The entity type `Thing`. -/
def zooThingType : TypeDefinition :=
  ⟨"Thing", some "id",
    [.required "id" "Edm.Int64", .plain "b" "Edm.Boolean", .plain "by" "Byte",
     .plain "sb" "Edm.SByte", .plain "i16" "Edm.Int16", .plain "i32" "Edm.Int32",
     .plain "i64" "Edm.Int64", .plain "u16" "Edm.UInt16", .plain "u32" "Edm.UInt32",
     .plain "u64" "Edm.UInt64", .plain "sg" "Edm.Single", .plain "db" "Edm.Double",
     .plain "dc" "Edm.Decimal", .searched "s", .plain "d" "Edm.Date",
     .plain "dt" "Edm.DateTimeOffset", .plain "tm" "Edm.TimeOfDay", .plain "du" "Edm.Duration",
     .plain "g" "Guid", .stored "title_col" (.searched "title"), .plain "col" "Colour",
     .plain "fl" "Perms", .plain "tags" "Collection(Edm.String)",
     .plain "nums" "Collection(Edm.Int32)", .plain "dbs" "Collection(Edm.Double)",
     .plain "cols" "Collection(Colour)", .plain "dus" "Collection(Edm.Duration)"],
    []⟩

/-- The entity set `things`. -/
def zooThingsSet : SetDefinition :=
  ⟨"things", "Thing",
    [[("id", .ofInt 1), ("b", .bool true), ("by", .ofInt 255), ("sb", .ofInt (-128)),
      ("i16", .ofInt (-32768)), ("i32", .ofInt 2147483647), ("i64", .ofInt 9223372036854775807),
      ("u16", .ofInt 65535), ("u32", .ofInt 4294967295), ("u64", .ofInt 9223372036854775807),
      ("sg", .number (.double 1.5)), ("db", .number (.double 2.5)), ("dc", .text "12.50"),
      ("s", .text "Hello World"), ("d", .text "2020-02-29"),
      ("dt", .text "2020-02-29T23:30:00-05:00"), ("tm", .text "23:59:59.5"),
      ("du", .text "P1DT2H3M4.5S"), ("g", .text "01234567-89ab-cdef-0123-456789abcdef"),
      ("title_col", .text "First Title"), ("col", .text "red"), ("fl", .text "read,exec"),
      ("tags", .array [.text "a", .text "b", .text "it's"]),
      ("nums", .array [.ofInt 1, .ofInt 2, .ofInt 3]),
      ("dbs", .array [.number (.double 0.5), .number (.double (-1.5))]),
      ("cols", .array [.text "red", .text "blue"]), ("dus", .array [.text "PT1M", .text "PT90S"])],
     [("id", .ofInt 2), ("b", .bool false), ("by", .ofInt 0), ("sb", .ofInt 127),
      ("i16", .ofInt 32767), ("i32", .ofInt (-2147483648)),
      ("i64", .ofInt (-9223372036854775808)), ("u16", .ofInt 0), ("u32", .ofInt 0),
      ("u64", .ofInt 0), ("sg", .number (.double (-0.25))), ("db", .number (.double (-2.5))),
      ("dc", .text "-0.005"), ("s", .text ""), ("d", .text "1969-12-31"),
      ("dt", .text "1970-01-01T00:00:00Z"), ("tm", .text "00:00"), ("du", .text "-PT1.5S"),
      ("g", .text "FFFFFFFF-FFFF-FFFF-FFFF-FFFFFFFFFFFF"), ("title", .text "50%_off!"),
      ("col", .text "blue"), ("fl", .ofInt 0), ("tags", .array []), ("nums", .array []),
      ("dbs", .array []), ("cols", .array []), ("dus", .array [])],
     [("id", .ofInt 3)],
     [("id", .ofInt 4), ("b", .ofInt 1), ("by", .text "7"), ("sb", .bool true),
      ("i16", .number (.double 7.0)), ("i32", .text "  42 "), ("i64", .ofInt 17),
      ("u16", .ofInt 8), ("u32", .ofInt 9), ("u64", .ofInt 10), ("sg", .text "INF"),
      ("db", .text "NaN"), ("dc", .ofInt 7), ("s", .text "Straße ÀÉ  "),
      ("d", .text "2021-12-31"), ("dt", .text "2021-05-01 12:30:00"),
      ("tm", .text "12:34:56.789"), ("du", .number (.double 90061.25)),
      ("g", .text "\x7b67e55044-10b1-426f-9247-bb680e5fe0c8\x7d"), ("title", .text "ÜBER straße"),
      ("col", .ofInt 99), ("fl", .text "write"), ("tags", .text "[\"x\",null]"),
      ("nums", .array [.null, .ofInt (-1)]), ("dbs", .array [.text "INF", .null]),
      ("cols", .array [.ofInt 99, .null]), ("dus", .array [.null])],
     [("id", .ofInt 5), ("b", .text "0"), ("by", .ofInt 100), ("sb", .ofInt 0), ("i16", .ofInt 0),
      ("i32", .ofInt 0), ("i64", .ofInt 0), ("u16", .ofInt 100), ("u32", .ofInt 100),
      ("u64", .ofInt 100), ("sg", .text "-INF"), ("db", .number (.double 0.1)),
      ("dc", .text "123456789.123456"), ("s", .text "日本語 text"), ("d", .text "0001-01-01"),
      ("dt", .text "2021-01-01T10:00+05:30"), ("tm", .text "10:30:00"), ("du", .text "PT0S"),
      ("g", .text "67e5504410b1426f9247bb680e5fe0c8"), ("title", .null), ("col", .text "green"),
      ("fl", .ofInt 15), ("tags", .array [.text "日本", .text "b"]), ("nums", .array [.ofInt 0]),
      ("dbs", .array [.number (.double 0.1)]), ("cols", .array [.text "green"]),
      ("dus", .array [.text "PT0S"])],
     [("id", .ofInt 6), ("b", .text "true"), ("by", .ofInt 10), ("sb", .ofInt (-1)),
      ("i16", .ofInt (-5)), ("i32", .ofInt 7), ("i64", .ofInt (-7)), ("u16", .ofInt 3),
      ("u32", .ofInt 2), ("u64", .ofInt 1), ("sg", .number (.double 3.5)),
      ("db", .number (.double (-0.5))), ("dc", .text "2.5"), ("s", .text "it's a 'quote'"),
      ("d", .text "9999-12-31"), ("dt", .text "1969-12-31T23:59:59.999999999Z"),
      ("tm", .text "06:07:08.000001"), ("du", .text "P10D"),
      ("g", .text "00000000-0000-0000-0000-000000000000"), ("title", .text "hello again"),
      ("col", .ofInt 1), ("fl", .ofInt 2), ("tags", .array [.text "hello"]),
      ("nums", .array [.ofInt 7, .ofInt 7]), ("dbs", .array [.number (.double 10000000000.0)]),
      ("cols", .array [.text "blue"]), ("dus", .array [.text "-P1D"])]],
    [], none⟩

/-- One entity type with a property of every type, filled with regular and odd values. -/
def zoo : Document :=
  ⟨none,
    [zooColour, zooTint, zooPerms, zooMyDeepKind],
    [zooThingType],
    [zooThingsSet]⟩

end EdmQuery.Sample
