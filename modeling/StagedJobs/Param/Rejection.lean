import StagedJobs.Param.Constraint
import StagedJobs.Param.Type

namespace StagedJobs

/-- A rejection of values that a caller supplied. -/
inductive ValidationError where
  | missingRequired (param : String)
  | typeCoercion (param : String) (expected : ParamType) (value : Value)
  | typeMismatch (param : String) (expected : ParamType) (value : Value)
  | constraintViolation (param : String) (violated : Constraint) (value : Value)
  | unknownJobType (jobType : String) (known : List String)
  | unknownStage (jobType : String) (stage : Nat)

namespace ValidationError

/-- The parameter that was given the value, or should have been. -/
def param? : ValidationError → Option String
  | .missingRequired param => some param
  | .typeCoercion param _ _ => some param
  | .typeMismatch param _ _ => some param
  | .constraintViolation param _ _ => some param
  | .unknownJobType _ _ => none
  | .unknownStage _ _ => none

def message : ValidationError → String
  | .missingRequired param => s!"Missing required parameter \"{param}\""
  | .typeCoercion param expected value =>
    s!"Parameter \"{param}\" cannot be converted to {expected.name}: got {value.text}"
  | .typeMismatch param expected value =>
    s!"Parameter \"{param}\" must already be {expected.name}: got {value.text}"
  | .constraintViolation param violated value =>
    s!"Parameter \"{param}\" violates {violated.text}: got {value.text}"
  | .unknownJobType jobType known =>
    let names := String.intercalate ", " known
    s!"Unknown job type \"{jobType}\" (known job types: {names})"
  | .unknownStage jobType stage => s!"Workflow \"{jobType}\" has no stage {stage}"

end ValidationError

namespace ParamType

/-- A value converted to the type of the parameter `param`. -/
def coerce (type : ParamType) (param : String) (v : Value) : Except ValidationError Value :=
  match type.convert? v with
  | some converted => .ok converted
  | none =>
    if type.isStrict then .error (.typeMismatch param type v)
    else .error (.typeCoercion param type v)

end ParamType

namespace Constraints

/-- Rejects a value of the parameter `param` for the first condition that it does not meet. -/
def check (c : Constraints) (param : String) (v : Value) : Except ValidationError Unit :=
  match c.firstViolated? v with
  | some violated => .error (.constraintViolation param violated v)
  | none => .ok ()

end Constraints

end StagedJobs
