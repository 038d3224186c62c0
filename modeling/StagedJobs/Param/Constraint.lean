import StagedJobs.Json.Text

namespace StagedJobs

/-- One condition on a value. Bounds on the value concern numbers, bounds on the length concern
strings, lists and objects; whatever else a value is meets them. -/
inductive Constraint where
  | minValue (bound : Binary64)
  | maxValue (bound : Binary64)
  | minLength (bound : Nat)
  | maxLength (bound : Nat)
  | allowedValues (values : List Value)

namespace Constraint

/-- Whether a value meets the condition. No number is below or above what is not a number. -/
def meets : Constraint → Value → Bool
  | .minValue bound, v => v.toBinary64?.all fun n => !n.less bound
  | .maxValue bound, v => v.toBinary64?.all fun n => !bound.less n
  | .minLength bound, v => v.length?.all fun length => bound ≤ length
  | .maxLength bound, v => v.length?.all fun length => length ≤ bound
  | .allowedValues values, v => values.any fun allowed => allowed.same v

/-- A constraint as it is declared and reported. -/
def text : Constraint → String
  | .minValue bound => "min_value=" ++ bound.toText
  | .maxValue bound => "max_value=" ++ bound.toText
  | .minLength bound => "min_length=" ++ toString bound
  | .maxLength bound => "max_length=" ++ toString bound
  | .allowedValues values => "allowed_values=" ++ (Value.list values).text

end Constraint

/-- The conditions of one parameter, each of which may be left out. -/
structure Constraints where
  minValue : Option Binary64 := none
  maxValue : Option Binary64 := none
  minLength : Option Nat := none
  maxLength : Option Nat := none
  allowedValues : Option (List Value) := none

namespace Constraints

/-- The conditions present, in the order in which they are checked and written. -/
def inOrder (c : Constraints) : List Constraint :=
  (c.minValue.map .minValue).toList ++ (c.maxValue.map .maxValue).toList
    ++ (c.minLength.map .minLength).toList ++ (c.maxLength.map .maxLength).toList
    ++ (c.allowedValues.map .allowedValues).toList

def isEmpty (c : Constraints) : Bool := c.inOrder.isEmpty

def firstViolated? (c : Constraints) (v : Value) : Option Constraint :=
  c.inOrder.find? fun condition => !condition.meets v

/-- The conditions present, as they are declared. -/
def text (c : Constraints) : String := String.intercalate ", " (c.inOrder.map Constraint.text)

end Constraints

end StagedJobs
