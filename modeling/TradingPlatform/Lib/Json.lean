import Mathlib.Data.Rat.Floor
import Mathlib.Algebra.Order.Ring.Rat

/-! # JSON values, as Python reads them

Truth values, `or`, `dict.get`, `int` and the use of a value as a dictionary key.
How a number is written as text, and how a text is read as a number, are
parameters. -/

namespace TradingPlatform.Lib

inductive Json
  | null
  | bool (b : Bool)
  | int (n : ℤ)
  | float (q : ℚ)
  | str (s : String)
  | arr (items : List Json)
  | obj (fields : List (String × Json))

namespace Json

/-- `bool(x)`. -/
def truthy : Json → Bool
  | null => false
  | bool b => b
  | int n => n ≠ 0
  | float q => q ≠ 0
  | str s => s ≠ ""
  | arr items => !items.isEmpty
  | obj fields => !fields.isEmpty

/-- `x or y`. -/
def orElse (x y : Json) : Json := if x.truthy then x else y

/-- `x is None`. -/
def isNull : Json → Bool
  | null => true
  | _ => false

/-- `row.get(key, default)` on the fields of an object. -/
def get (fields : List (String × Json)) (key : String) (default : Json) : Json :=
  (fields.lookup key).getD default

/-- `str(x)`: text is itself, other values are written by `repr`. -/
def text (repr : Json → String) : Json → String
  | str s => s
  | x => repr x

/-- `int(x)`: a float is cut towards zero, a text is parsed, a container raises. -/
def toInt (parse : String → Option ℤ) : Json → Option ℤ
  | null => none
  | bool b => some (if b then 1 else 0)
  | int n => some n
  | float q => some (if 0 ≤ q then ⌊q⌋ else ⌈q⌉)
  | str s => parse s
  | arr _ => none
  | obj _ => none

/-- A value as a key: `True`, `1` and `1.0` are one. -/
inductive Key
  | none
  | num (q : ℚ)
  | str (s : String)
  deriving DecidableEq

/-- Lists and dictionaries are not hashable. -/
def toKey : Json → Option Key
  | null => some .none
  | bool b => some (.num (if b then 1 else 0))
  | int n => some (.num n)
  | float q => some (.num q)
  | str s => some (.str s)
  | arr _ => Option.none
  | obj _ => Option.none

end Json

end TradingPlatform.Lib
