import Intcode.Calendar
import Intcode.Double
import Intcode.Text.Numeral

/-! Values without a fixed type, as settings files and records hold them: what
they count as when a truth value or a whole number is wanted, and the list of
entries behind a mapping. -/

namespace Intcode

inductive Value where
  | null
  | bool (value : Bool)
  | int (value : Int)
  | float (value : Double)
  | text (value : String)
  /-- A text with code points that are no characters. -/
  | broken (codes : Text.Codes)
  | bytes (value : List UInt8)
  | day (value : Day)
  | moment (value : Moment)
  | list (items : List Value)
  | pair (left right : Value)
  /-- The entries in the order in which their keys came. -/
  | mapping (entries : List (Value × Value))
  /-- The items of a set in the order in which they came. -/
  | set (items : List Value)
  /-- A value that holds the place again: the mapping or else the list around it. -/
  | recurrence (isMapping : Bool)

inductive IntegerError where
  | numeral (error : Text.NumeralError)
  | notANumber
  | infinite
  | wrongKind (kind : String)
deriving DecidableEq, Repr

def IntegerError.message : IntegerError → String
  | numeral error => error.message
  | notANumber => "cannot convert float NaN to integer"
  | infinite => "cannot convert float infinity to integer"
  | wrongKind kind =>
    "int() argument must be a string, a bytes-like object or a real number, not '" ++ kind ++ "'"

inductive OrderError where
  | kinds (left right : String)
  | dayAndMoment
  /-- The zone of only one of the moments is known. -/
  | zones
deriving DecidableEq, Repr

def OrderError.message : OrderError → String
  | kinds left right =>
    "'<' not supported between instances of '" ++ left ++ "' and '" ++ right ++ "'"
  | dayAndMoment => "can't compare datetime.datetime to datetime.date"
  | zones => "can't compare offset-naive and offset-aware datetimes"

namespace Value

def ofCodes (codes : Text.Codes) : Value :=
  match Text.stringOf? codes with
  | some value => text value
  | none => broken codes

def codes? : Value → Option Text.Codes
  | text value => some (Text.codesOf value)
  | broken codes => some codes
  | _ => none

def kind : Value → String
  | null => "NoneType"
  | bool _ => "bool"
  | int _ => "int"
  | float _ => "float"
  | text _ | broken _ => "str"
  | bytes _ => "bytes"
  | day _ => "datetime.date"
  | moment _ => "datetime.datetime"
  | list _ | recurrence false => "list"
  | pair .. => "tuple"
  | mapping _ | recurrence true => "dict"
  | set _ => "set"

/-- Whatever is empty or zero counts as false. -/
def isTruthy : Value → Bool
  | null => false
  | bool value => value
  | int value => value ≠ 0
  | float value => !value.isZero
  | text value => value ≠ ""
  | bytes value => !value.isEmpty
  | list items | set items => !items.isEmpty
  | mapping entries => !entries.isEmpty
  | broken _ | day _ | moment _ | pair .. | recurrence _ => true

/-- The whole number that a value stands for. Fractions are cut off. -/
def integer : Value → Except IntegerError Int
  | bool value => .ok (if value then 1 else 0)
  | int value => .ok value
  | float (.finite negative mantissa exponent) => .ok (Double.truncated negative mantissa exponent)
  | float .nan => .error .notANumber
  | float (.infinity _) => .error .infinite
  | text value => (Text.Numeral.read value).mapError .numeral
  | broken codes => (Text.Numeral.readIn 10 codes).mapError .numeral
  | bytes value => (Text.Numeral.readBytes value).mapError .numeral
  | value => .error (.wrongKind value.kind)

/-- The whole number that a value equals as a key. -/
def wholeNumber? : Value → Option Int
  | bool value => some (if value then 1 else 0)
  | int value => some value
  | float value => value.whole?
  | _ => none

/-- Two moments are one if their zones are both unknown, or both known and the
common clock shows the same. -/
def sameMoment (left right : Moment) : Bool :=
  left.ahead.isSome = right.ahead.isSome && left.instant = right.instant

/-- The two values are one key: numbers are compared by value, whatever their
type, and a number that is none differs from everything. -/
def sameKey (left right : Value) : Bool :=
  match left.wholeNumber?, right.wholeNumber? with
  | some m, some n => m = n
  | some _, none | none, some _ => false
  | none, none =>
    match left, right with
    | null, null => true
    | text a, text b => a = b
    | broken a, broken b => a = b
    | bytes a, bytes b => a = b
    | day a, day b => a = b
    | moment a, moment b => sameMoment a b
    | pair a b, pair c d => sameKey a c && sameKey b d
    | float .nan, float .nan => false
    | float a, float b => a = b
    | _, _ => false

/-- A finite number as a whole number times a power of two. -/
def dyadic? : Value → Option (Int × Int)
  | bool value => some (if value then 1 else 0, 0)
  | int value => some (value, 0)
  | float (.finite negative mantissa exponent) =>
    some (if negative then -(mantissa : Int) else mantissa, exponent)
  | _ => none

def isNaN : Value → Bool
  | float .nan => true
  | _ => false

def isNumber : Value → Bool
  | bool _ | int _ | float _ => true
  | _ => false

/-- Whether a number comes before another. The infinite ones lie at the ends, and
what is no number comes before and after nothing. -/
def numberBefore (left right : Value) : Bool :=
  match left, right with
  | float .nan, _ | _, float .nan => false
  | float (.infinity true), other =>
    match other with
    | float (.infinity true) => false
    | _ => true
  | _, float (.infinity false) =>
    match left with
    | float (.infinity false) => false
    | _ => true
  | _, _ =>
    match left.dyadic?, right.dyadic? with
    | some (m, p), some (n, q) =>
      let least := min p q
      m * Double.pow2 (p - least).toNat < n * Double.pow2 (q - least).toNat
    | _, _ => false

/-- Whether a value comes before another: texts by their code points, numbers by
value, days and moments by the calendar. Values of other types have no order. -/
def isBefore (left right : Value) : Except OrderError Bool :=
  match left, right with
  | bytes a, bytes b => .ok (a < b)
  | day a, day b => .ok (a.number < b.number)
  | moment a, moment b =>
    if a.ahead.isSome = b.ahead.isSome then .ok (a.instant < b.instant) else .error .zones
  | day _, moment _ | moment _, day _ => .error .dayAndMoment
  | _, _ =>
    match left.codes?, right.codes? with
    | some a, some b => .ok (a < b)
    | _, _ =>
      if left.isNumber && right.isNumber then .ok (numberBefore left right)
      else .error (.kinds left.kind right.kind)

def assign (key value : Value) : List (Value × Value) → List (Value × Value)
  | [] => [(key, value)]
  | (other, old) :: rest =>
    if sameKey other key then (other, value) :: rest else (other, old) :: assign key value rest

def lookup (name : String) : List (Value × Value) → Option Value
  | [] => none
  | (text key, value) :: rest => if key = name then some value else lookup name rest
  | _ :: rest => lookup name rest

end Value
end Intcode
