import StagedJobs.Numeric.Binary64
import StagedJobs.KeyMap

namespace StagedJobs

/-- A whole number that is kept exactly: the range of signed and unsigned 64-bit integers. -/
structure Whole where
  val : Int
  lower : -0x8000_0000_0000_0000 ≤ val
  upper : val < 0x1_0000_0000_0000_0000
deriving DecidableEq

namespace Whole

/-- The whole number, if 64 bits hold it, signed or unsigned. -/
def ofInt? (n : Int) : Option Whole :=
  if h : -0x8000_0000_0000_0000 ≤ n ∧ n < 0x1_0000_0000_0000_0000 then some ⟨n, h.1, h.2⟩ else none

def ofInt64 (n : Int64) : Whole :=
  ⟨n.toInt, Int64.le_toInt n, Int.lt_trans (Int64.toInt_lt n) (by decide)⟩

end Whole

/-- A number: whole, or finite floating-point. `5` and `5.0` are different numbers. -/
inductive Number where
  | whole (n : Whole)
  | float (x : Binary64.Finite)
deriving DecidableEq

namespace Number

/-- The number as it is compared with bounds, a whole one rounded. -/
def toBinary64 : Number → Binary64
  | .whole n => .ofInt n.val
  | .float x => .finite x

/-- Equality of numbers: of one sort and of one value, the two zeros included. -/
def same : Number → Number → Bool
  | .whole m, .whole n => m.val = n.val
  | .float x, .float y => x.place = y.place
  | _, _ => false

end Number

/-- A JSON value. The fields of an object are in ascending order of their distinct names wherever
this library makes one. -/
inductive Value where
  | null
  | bool (b : Bool)
  | number (n : Number)
  | string (s : String)
  | list (items : List Value)
  | object (fields : List (String × Value))

/-- Values under the names of parameters. -/
abbrev Params := KeyMap Value

namespace Value

instance : Inhabited Value := ⟨.null⟩

def ofInt64 (n : Int64) : Value := .number (.whole (.ofInt64 n))

def ofParams (params : Params) : Value := .object params.entries

def kindName : Value → String
  | .null => "null"
  | .bool _ => "boolean"
  | .number (.float _) => "float"
  | .number (.whole _) => "integer"
  | .string _ => "string"
  | .list _ => "list"
  | .object _ => "object"

/-- The length of what has one: strings in characters, lists and objects. -/
def length? : Value → Option Nat
  | .string s => some s.length
  | .list items => some items.length
  | .object fields => some fields.length
  | _ => none

/-- The number that a value is, as it is compared with bounds. -/
def toBinary64? : Value → Option Binary64
  | .number n => some n.toBinary64
  | _ => none

mutual

/-- Equality of values: numbers as `Number.same` has it, all else part by part. -/
def same : Value → Value → Bool
  | .null, .null => true
  | .bool a, .bool b => a = b
  | .number m, .number n => m.same n
  | .string s, .string t => s = t
  | .list xs, .list ys => sameItems xs ys
  | .object xs, .object ys => sameFields xs ys
  | _, _ => false

def sameItems : List Value → List Value → Bool
  | [], [] => true
  | x :: xs, y :: ys => same x y && sameItems xs ys
  | _, _ => false

/-- Equality of objects, field by field: both are in the order of the names. -/
def sameFields : List (String × Value) → List (String × Value) → Bool
  | [], [] => true
  | (k, x) :: xs, (l, y) :: ys => k = l && same x y && sameFields xs ys
  | _, _ => false

end

end Value

end StagedJobs
