import EdmQuery.Sample.Build

/-! An airline: countries, airports, flights and the people on them. -/

namespace EdmQuery.Sample

/-- The enumeration `Priorities`. -/
def airlinePriorities : Enumeration :=
  ⟨"Priorities", [⟨"low", 1⟩, ⟨"medium", 2⟩, ⟨"high", 4⟩], true⟩

/-- The enumeration `Size`. -/
def airlineSize : Enumeration :=
  ⟨"Size", [⟨"small", 0⟩, ⟨"large", 1⟩], false⟩

/-- The entity type `Country`. -/
def airlineCountryType : TypeDefinition :=
  ⟨"Country", some "id",
    [.required "id" "Edm.Int32", .searched "name"],
    [many "airports" "Airport" "id" "country_id"]⟩

/-- The entity type `Airport`. -/
def airlineAirportType : TypeDefinition :=
  ⟨"Airport", some "id",
    [.required "id" "Edm.Int32", .looked (.required "code" "Edm.String"), .searched "name",
     .plain "country_id" "Edm.Int32", .plain "construction_date" "Edm.Date",
     .plain "is_big" "Edm.Boolean", .plain "review_score" "Edm.Double"],
    [one "country" "Country" "country_id" "id", many "departures" "Flight" "code" "origin"]⟩

/-- The entity type `Flight`. -/
def airlineFlightType : TypeDefinition :=
  ⟨"Flight", some "id",
    [.required "id" "Edm.Int32", .plain "origin" "Edm.String", .plain "destination" "Edm.String",
     .stored "gate_no" (.plain "gate" "Edm.Int32"), .plain "priority" "Priorities"],
    [one "originAirport" "Airport" "origin" "code",
     one "destinationAirport" "Airport" "destination" "code",
     many "passengers" "Passenger" "id" "flight_id", one "ghost" "Airport" "origin" "code"]⟩

/-- The entity type `Passenger`. -/
def airlinePassengerType : TypeDefinition :=
  ⟨"Passenger", some "id",
    [.required "id" "Edm.Int32", .plain "flight_id" "Edm.Int32", .searched "name",
     .plain "age" "Edm.Double", .plain "tags" "Collection(Edm.String)"],
    [one "flight" "Flight" "flight_id" "id"]⟩

/-- The entity type `Turnaround`. -/
def airlineTurnaroundType : TypeDefinition :=
  ⟨"Turnaround", some "id",
    [.required "id" "Edm.Int32", .plain "flight_id" "Edm.Int32", .plain "took" "Edm.Duration"],
    [one "flight" "Flight" "flight_id" "id"]⟩

/-- The entity type `Employee`. -/
def airlineEmployeeType : TypeDefinition :=
  ⟨"Employee", some "id",
    [.required "id" "Edm.Int32", .searched "name", .plain "manager_id" "Edm.Int32",
     .plain "size" "Size", .plain "lucky" "Collection(Edm.Int32)"],
    [one "manager" "Employee" "manager_id" "id", many "reports" "Employee" "id" "manager_id"]⟩

/-- The entity type `Letter`. -/
def airlineLetterType : TypeDefinition :=
  ⟨"Letter", none,
    [.searched "name"],
    []⟩

/-- The entity set `countries`. -/
def airlineCountriesSet : SetDefinition :=
  ⟨"countries", "Country",
    [[("id", .ofInt 1), ("name", .text "UK")],
     [("id", .ofInt 2), ("name", .text "France")],
     [("id", .ofInt 3), ("name", .text "Spain")]],
    [("airports", "airports")],
    some [.count, .query, .read, .create, .update, .delete, .filter, .paginate, .sort, .expand,
          .select]⟩

/-- The entity set `airports`. -/
def airlineAirportsSet : SetDefinition :=
  ⟨"airports", "Airport",
    [[("id", .ofInt 1), ("code", .text "lhr"), ("name", .text "Heathrow"),
      ("country_id", .ofInt 1), ("construction_date", .text "1946-03-25"), ("is_big", .bool true),
      ("review_score", .number (.double 4.2))],
     [("id", .ofInt 2), ("code", .text "lgw"), ("name", .text "Gatwick"),
      ("country_id", .ofInt 1), ("construction_date", .text "1958-06-09"),
      ("is_big", .bool false), ("review_score", .null)],
     [("id", .ofInt 3), ("code", .text "cdg"), ("name", .text "Charles de Gaulle"),
      ("country_id", .ofInt 2), ("construction_date", .text "1974-03-08"), ("is_big", .bool true),
      ("review_score", .number (.double 3.9))],
     [("id", .ofInt 4), ("code", .text "sfo"), ("name", .text "San Francisco"),
      ("country_id", .null), ("construction_date", .text "1927-05-07"), ("is_big", .bool true),
      ("review_score", .number (.double 4.5))]],
    [("country", "countries"), ("departures", "flights")], none⟩

/-- The entity set `flights`. -/
def airlineFlightsSet : SetDefinition :=
  ⟨"flights", "Flight",
    [[("id", .ofInt 1), ("origin", .text "lhr"), ("destination", .text "cdg"),
      ("gate", .ofInt 12), ("priority", .text "low,high")],
     [("id", .ofInt 2), ("origin", .text "lgw"), ("destination", .text "sfo"), ("gate", .null),
      ("priority", .null)],
     [("id", .ofInt 3), ("origin", .text "cdg"), ("destination", .text "lhr"),
      ("gate_no", .ofInt 3), ("priority", .text "high")],
     [("id", .ofInt 4), ("origin", .text "sfo"), ("destination", .text "lhr"),
      ("gate", .ofInt 40), ("priority", .text "medium")],
     [("id", .ofInt 5), ("origin", .text "xxx"), ("destination", .null), ("gate", .ofInt (-7)),
      ("priority", .ofInt 0)]],
    [("originAirport", "airports"), ("destinationAirport", "airports"),
      ("passengers", "passengers")],
    none⟩

/-- The entity set `passengers`. -/
def airlinePassengersSet : SetDefinition :=
  ⟨"passengers", "Passenger",
    [[("id", .ofInt 1), ("flight_id", .ofInt 1), ("name", .text "Anne"), ("age", .ofInt 34),
      ("tags", .array [.text "vip", .text "window"])],
     [("id", .ofInt 2), ("flight_id", .ofInt 1), ("name", .text "Bob"), ("age", .ofInt 41),
      ("tags", .array [.text "aisle"])],
     [("id", .ofInt 3), ("flight_id", .ofInt 3), ("name", .text "Carol"), ("age", .null),
      ("tags", .array [])],
     [("id", .ofInt 4), ("flight_id", .ofInt 2), ("name", .text "Dave"),
      ("age", .number (.double 52.5)), ("tags", .null)],
     [("id", .ofInt 5), ("flight_id", .null), ("name", .null), ("age", .ofInt 7),
      ("tags", .array [.text "vip", .null, .text "it's"])]],
    [("flight", "flights")], none⟩

/-- The entity set `turnarounds`. -/
def airlineTurnaroundsSet : SetDefinition :=
  ⟨"turnarounds", "Turnaround",
    [[("id", .ofInt 1), ("flight_id", .ofInt 1), ("took", .text "PT9M")],
     [("id", .ofInt 2), ("flight_id", .ofInt 3), ("took", .text "PT10M")],
     [("id", .ofInt 3), ("flight_id", .ofInt 4), ("took", .text "PT1H5M")],
     [("id", .ofInt 4), ("flight_id", .ofInt 2), ("took", .null)],
     [("id", .ofInt 5), ("flight_id", .ofInt 9), ("took", .text "-PT0.5S")]],
    [("flight", "flights")], none⟩

/-- The entity set `employees`. -/
def airlineEmployeesSet : SetDefinition :=
  ⟨"employees", "Employee",
    [[("id", .ofInt 1), ("name", .text "Ada"), ("manager_id", .null), ("size", .text "large"),
      ("lucky", .array [.ofInt 7, .ofInt 13])],
     [("id", .ofInt 2), ("name", .text "Bea"), ("manager_id", .ofInt 1), ("size", .text "small"),
      ("lucky", .array [])],
     [("id", .ofInt 3), ("name", .text "Cy"), ("manager_id", .ofInt 1), ("size", .null),
      ("lucky", .array [.ofInt 4])],
     [("id", .ofInt 4), ("name", .text "Di"), ("manager_id", .ofInt 2), ("size", .ofInt 1),
      ("lucky", .array [.ofInt 7])],
     [("id", .ofInt 5), ("name", .text "Ed"), ("manager_id", .ofInt 99), ("size", .ofInt 0)]],
    [("manager", "employees"), ("reports", "employees")], none⟩

/-- The entity set `letters`. -/
def airlineLettersSet : SetDefinition :=
  ⟨"letters", "Letter",
    [[("name", .text "Alpha")],
     [("name", .text "Beta")],
     [("name", .text "Charlie")],
     [("name", .text "Delta")],
     [("name", .text "Echo")]],
    [], none⟩

/-- The entity set `lounge`. -/
def airlineLoungeSet : SetDefinition :=
  ⟨"lounge", "Letter",
    [[("name", .text "open")]],
    [], some [.query, .filter]⟩

/-- The entity set `airportsView`. -/
def airlineAirportsViewSet : SetDefinition :=
  ⟨"airportsView", "Airport",
    [[("id", .ofInt 9), ("code", .text "zrh"), ("name", .text "Zurich")]],
    [], some [.query, .filter, .expand, .search]⟩

/-- An airline: countries, airports, flights and the people on them. -/
def airline : Document :=
  ⟨none,
    [airlinePriorities, airlineSize],
    [airlineCountryType, airlineAirportType, airlineFlightType, airlinePassengerType,
     airlineTurnaroundType, airlineEmployeeType, airlineLetterType],
    [airlineCountriesSet, airlineAirportsSet, airlineFlightsSet, airlinePassengersSet,
     airlineTurnaroundsSet, airlineEmployeesSet, airlineLettersSet, airlineLoungeSet,
     airlineAirportsViewSet]⟩

end EdmQuery.Sample
