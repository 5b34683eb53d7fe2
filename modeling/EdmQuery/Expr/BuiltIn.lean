import EdmQuery.Expr.Error
import EdmQuery.Expr.StaticType
import EdmQuery.Text.Pattern

/-! The built-in functions of filters: their signatures and their values. -/

namespace EdmQuery

open Text Number Calendar

/-- A built-in function. -/
inductive BuiltIn where
  | contains
  | startsWith
  | endsWith
  | indexOf
  | length
  | substring
  | toLower
  | toUpper
  | trim
  | concat
  | matchesPattern
  | year
  | month
  | day
  | hour
  | minute
  | second
  | date
  | time
  | now
  | round
  | floor
  | ceiling
  deriving DecidableEq

namespace BuiltIn

/-- The built-in functions. -/
def all : List BuiltIn :=
  [.contains, .startsWith, .endsWith, .indexOf, .length, .substring, .toLower, .toUpper, .trim,
    .concat, .matchesPattern, .year, .month, .day, .hour, .minute, .second, .date, .time, .now,
    .round, .floor, .ceiling]

/-- The name of a function in expressions. -/
def name : BuiltIn → String
  | .contains => "contains"
  | .startsWith => "startswith"
  | .endsWith => "endswith"
  | .indexOf => "indexof"
  | .length => "length"
  | .substring => "substring"
  | .toLower => "tolower"
  | .toUpper => "toupper"
  | .trim => "trim"
  | .concat => "concat"
  | .matchesPattern => "matchesPattern"
  | .year => "year"
  | .month => "month"
  | .day => "day"
  | .hour => "hour"
  | .minute => "minute"
  | .second => "second"
  | .date => "date"
  | .time => "time"
  | .now => "now"
  | .round => "round"
  | .floor => "floor"
  | .ceiling => "ceiling"

/-- The function of a name. -/
def ofName? (name : String) : Option BuiltIn :=
  all.find? (·.name == name)

/-- The arguments that a function expects, in words. -/
def signature : BuiltIn → String
  | .contains | .startsWith | .endsWith | .indexOf | .concat | .matchesPattern =>
    "(Edm.String, Edm.String)"
  | .length | .toLower | .toUpper | .trim => "(Edm.String)"
  | .substring => "(Edm.String, integer[, integer])"
  | .year | .month | .day => "(Edm.Date) or (Edm.DateTimeOffset)"
  | .hour | .minute | .second => "(Edm.DateTimeOffset) or (Edm.TimeOfDay)"
  | .date | .time => "(Edm.DateTimeOffset)"
  | .now => "no arguments"
  | .round | .floor | .ceiling => "(numeric)"

/-- Whether arguments belong to the given families; a null fits every one. -/
def fits : List Family → List StaticType → Bool
  | [], [] => true
  | family :: families, type :: types =>
    (match type with
      | .null => true
      | .primitive type => type.family == family
      | .collection _ => false) && fits families types
  | _, _ => false

/-- Whether an argument is an integer, a null or not given. -/
def integralAt (args : List StaticType) (i : Nat) : Bool :=
  match args[i]? with
  | some (.primitive type) => type.isIntegral
  | _ => true

/-- The type that rounding gives to a number of a type. -/
def roundedType : Option StaticType → PrimitiveType
  | some (.primitive .decimal) => .decimal
  | some (.primitive type) => if type.isIntegral then .integer .int64 else .double
  | _ => .double

/-- The type of the result for arguments that a function takes. -/
def resultType? (f : BuiltIn) (args : List StaticType) : Option PrimitiveType :=
  let when_ (holds : Bool) (type : PrimitiveType) := if holds then some type else none
  match f with
  | .contains | .startsWith | .endsWith | .matchesPattern =>
    when_ (fits [.string, .string] args) .boolean
  | .indexOf => when_ (fits [.string, .string] args) (.integer .int32)
  | .length => when_ (fits [.string] args) (.integer .int32)
  | .toLower | .toUpper | .trim => when_ (fits [.string] args) .string
  | .concat => when_ (fits [.string, .string] args) .string
  | .substring =>
    when_ ((fits [.string, .numeric] args || fits [.string, .numeric, .numeric] args) &&
      integralAt args 1 && integralAt args 2) .string
  | .year | .month | .day =>
    when_ (fits [.date] args || fits [.dateTime] args) (.integer .int32)
  | .hour | .minute | .second =>
    when_ (fits [.dateTime] args || fits [.timeOfDay] args) (.integer .int32)
  | .date => when_ (fits [.dateTime] args) .date
  | .time => when_ (fits [.dateTime] args) .timeOfDay
  | .now => when_ args.isEmpty .dateTime
  | .round | .floor | .ceiling => when_ (fits [.numeric] args) (roundedType args.head?)

/-- The type of the result, or what is wrong with the arguments. -/
def check (f : BuiltIn) (args : List StaticType) : Except ExpressionError PrimitiveType :=
  match f.resultType? args with
  | some type => .ok type
  | none =>
    .error (.invalidArguments f.name f.signature
      ("(" ++ join ", " (args.map StaticType.name) ++ ")"))

/-- A small natural number as a value. -/
def count (n : Nat) : Value :=
  .integer (Int64.ofNat n)

/-- The value of a function of texts. -/
def evaluateText : BuiltIn → List Scalar → Value
  | .contains, [.string a, .string b] => .boolean (occurs b a)
  | .startsWith, [.string a, .string b] => .boolean (b.toList.isPrefixOf a.toList)
  | .endsWith, [.string a, .string b] => .boolean (b.toList.isSuffixOf a.toList)
  | .indexOf, [.string a, .string b] =>
    match indexOf? b.toList a.toList with
    | some n => count n
    | none => .integer (-1)
  | .length, [.string a] => count a.toList.length
  | .substring, [.string a, .integer start] =>
    .string (String.ofList (a.toList.drop start.toInt.toNat))
  | .substring, [.string a, .integer start, .integer n] =>
    .string (String.ofList ((a.toList.drop start.toInt.toNat).take n.toInt.toNat))
  | .toLower, [.string a] => .string (lower a)
  | .toUpper, [.string a] => .string (upper a)
  | .trim, [.string a] =>
    let inner := a.toList.dropWhile (· == ' ')
    .string (String.ofList (inner.reverse.dropWhile (· == ' ')).reverse)
  | .concat, [.string a, .string b] => .string (a ++ b)
  | .matchesPattern, [.string a, .string pattern] =>
    match Pattern.parse pattern with
    | some p => .boolean (p.occursIn a)
    | none => .null
  | _, _ => .null

/-- The value of a function of dates and times, which are read in universal time. -/
def evaluateCalendar : BuiltIn → List Scalar → Value
  | .year, [.date d] => .integer (Int64.ofInt d.year)
  | .month, [.date d] => count d.month
  | .day, [.date d] => count d.day
  | .year, [.dateTime t] => .integer (Int64.ofInt t.universalDate.year)
  | .month, [.dateTime t] => count t.universalDate.month
  | .day, [.dateTime t] => count t.universalDate.day
  | .hour, [.dateTime t] => count t.universalTime.hour
  | .minute, [.dateTime t] => count t.universalTime.minute
  | .second, [.dateTime t] => count t.universalTime.second
  | .hour, [.timeOfDay t] => count t.hour
  | .minute, [.timeOfDay t] => count t.minute
  | .second, [.timeOfDay t] => count t.second
  | .date, [.dateTime t] => .scalar (.date t.universalDate)
  | .time, [.dateTime t] => .scalar (.timeOfDay t.universalTime)
  | _, _ => .null

/-- A decimal as a value, null where there is none. -/
def ofDecimal? : Option Decimal → Value
  | some d => .decimal d
  | none => .null

/-- The value of a function of numbers. -/
def evaluateNumber : BuiltIn → List Scalar → Value
  | .round, [.integer n] => .integer n
  | .floor, [.integer n] => .integer n
  | .ceiling, [.integer n] => .integer n
  | .round, [.double x] => .double (Number.round x)
  | .floor, [.double x] => .double (Number.floor x)
  | .ceiling, [.double x] => .double (Number.ceiling x)
  | .round, [.decimal d] => ofDecimal? d.round
  | .floor, [.decimal d] => ofDecimal? d.floor
  | .ceiling, [.decimal d] => ofDecimal? d.ceiling
  | _, _ => .null

/-- The single values among arguments, none if one is null or a collection. -/
def scalars : List Value → Option (List Scalar)
  | [] => some []
  | .scalar s :: rest => (scalars rest).map (s :: ·)
  | _ :: _ => none

/-- The value of a function; a null argument makes it null, and so does one that does not fit. -/
def evaluate (f : BuiltIn) (args : List Value) : Value :=
  match scalars args with
  | none => .null
  | some args =>
    match f with
    | .contains | .startsWith | .endsWith | .indexOf | .length | .substring | .toLower
    | .toUpper | .trim | .concat | .matchesPattern => f.evaluateText args
    | .year | .month | .day | .hour | .minute | .second | .date | .time => f.evaluateCalendar args
    -- The clock is not part of the data, so the present moment has no value here.
    | .now => .null
    | .round | .floor | .ceiling => f.evaluateNumber args

end BuiltIn

end EdmQuery
