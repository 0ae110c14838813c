import Asterion.Lib.Exceptions

/-! What the ingestion script needs of Python: the values `json.loads` makes, decimals in the
default context, and the exceptions that can escape. -/
namespace Asterion
open Lib.Exceptions

inductive PyException where
  | typeError | valueError | overflowError | invalidOperation | decimalOverflow | recursionError
  deriving DecidableEq, Repr

abbrev Py := Except PyException

/-- A decoded JSON value. A float is held by its `repr`, an object as the dict it becomes. -/
inductive Json where
  | null
  | bool (value : Bool)
  | int (value : Int)
  | float (repr : String)
  | string (value : String)
  | array (values : List Json)
  | object (fields : List (String × Json))

namespace Json

def get (fields : List (String × Json)) (key : String) : Option Json := fields.lookup key

def has (fields : List (String × Json)) (key : String) : Bool := (get fields key).isSome

/-- `isinstance(value, int)`, which a bool passes. It is passed on as the integer it equals, which
only the text of a detail shows. -/
def asInt : Json → Option Int
  | .int value => some value
  | .bool value => some (if value then 1 else 0)
  | _ => none

def asObject : Json → Option (List (String × Json))
  | .object fields => some fields
  | _ => none

def isString (value : Json) (expected : String) : Bool :=
  match value with
  | .string text => text == expected
  | _ => false

def truthy : Json → Bool
  | .null => false
  | .bool value => value
  | .int value => value != 0
  | .float repr => repr != "0.0" && repr != "-0.0"
  | .string text => text != ""
  | .array values => !values.isEmpty
  | .object fields => !fields.isEmpty

end Json

/-- A `decimal.Decimal`: sign, coefficient and exponent of ten, or one of the special values. -/
inductive Decimal where
  | finite (negative : Bool) (coefficient : Nat) (exponent : Int)
  | infinity (negative : Bool)
  | nan (signalling : Bool)
  deriving DecidableEq, Repr

namespace Decimal

/-- `ROUND_HALF_EVEN` of a quotient. -/
def halfEven (n d : Nat) : Nat :=
  if 2 * (n % d) < d ∨ 2 * (n % d) = d ∧ n / d % 2 = 0 then n / d else n / d + 1

def digits (n : Nat) : Nat := (Nat.toDigits 10 n).length

/-- The precision and the largest exponent of the default context. -/
def precision : Nat := 28
def maxExponent : Int := 999999

/-- A coefficient and exponent rounded to the precision of the context. -/
def rounded (coefficient : Nat) (exponent : Int) : Nat × Int :=
  let excess := digits coefficient - precision
  (halfEven coefficient (10 ^ excess), exponent + excess)

/-- The product with a positive integer overflows. -/
def Overflows (coefficient : Nat) (exponent : Int) : Prop :=
  coefficient ≠ 0 ∧ maxExponent < exponent + digits coefficient - 1

instance (coefficient : Nat) (exponent : Int) : Decidable (Overflows coefficient exponent) :=
  inferInstanceAs (Decidable (_ ∧ _))

/-- The magnitude of `to_integral_value`. -/
def integral (coefficient : Nat) (exponent : Int) : Nat :=
  if 0 ≤ exponent then coefficient * 10 ^ exponent.toNat
  else halfEven coefficient (10 ^ (-exponent).toNat)

/-- `int((value * scale).to_integral_value())`. -/
def toScaledInt (scale : Nat) : Decimal → Py Int
  | .finite negative coefficient exponent =>
    let (c, e) := rounded (coefficient * scale) exponent
    if Overflows c e then throw .decimalOverflow
    else if negative then pure (-(integral c e : Int))
    else pure (integral c e)
  | .infinity _ => throw .overflowError
  | .nan signalling => throw (if signalling then .invalidOperation else .valueError)

def isNan : Decimal → Bool
  | .nan _ => true
  | _ => false

/-- Multiplied up by a power of ten: `coefficient * 10 ^ (exponent - low)`. -/
def scaledTo (low : Int) (negative : Bool) (coefficient : Nat) (exponent : Int) : Int :=
  let magnitude : Int := coefficient * 10 ^ (exponent - low).toNat
  if negative then -magnitude else magnitude

/-- `a <= b` for values that are not NaN. -/
def le : Decimal → Decimal → Bool
  | .infinity negative, .infinity other => negative || !other
  | .infinity negative, _ => negative
  | _, .infinity negative => !negative
  | .finite negative coefficient exponent, .finite negative' coefficient' exponent' =>
    let low := min exponent exponent'
    decide (scaledTo low negative coefficient exponent ≤
      scaledTo low negative' coefficient' exponent')
  | _, _ => true

end Decimal

/-- What `json.loads` does with a text. -/
inductive Loaded where
  | value (value : Json)
  | decodeError (message : String)
  | raised (exception : PyException)

/-- The functions of the standard library whose results the script passes on as they are; nothing
is assumed of them. `key` stands for the identity of a value as a dict key, which an unhashable
value does not have; a NaN is only ever equal to itself, hence the line it comes from. -/
structure Python (Key : Type) where
  strip : String → String
  loads : String → Loaded
  /-- `Decimal(text)`, or nothing where it raises `InvalidOperation`. -/
  decimal : String → Option Decimal
  /-- `str(value)` of a value that is not a string. -/
  strOther : Json → Py String
  repr : Json → Py String
  reprString : String → String
  key : Nat → Json → Option Key

namespace Python
variable {Key : Type} (py : Python Key)

def str (value : Json) : Py String :=
  match value with
  | .string text => pure text
  | other => py.strOther other

end Python

/-- An integer in an f-string: more than 4300 digits raise. -/
def formatInt (value : Int) : Py String :=
  if value.natAbs < 10 ^ 4300 then pure (toString value) else throw .valueError

end Asterion
