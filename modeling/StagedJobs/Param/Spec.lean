import StagedJobs.Definition

namespace StagedJobs

/-- A built parameter. Its default and its allowed values are of its type. -/
structure ParameterSpec where
  name : String
  type : ParamType
  required : Bool
  default : Option Value
  description : String
  constraints : Constraints

/-- A parameter before it is checked. -/
structure ParameterDraft where
  name : String
  type : ParamType
  required : Bool := false
  default : Option Value := none
  description : String := ""
  constraints : Constraints := {}

namespace ParameterDraft

/-- One setting of a draft. -/
inductive Setting where
  | required (b : Bool)
  | default (v : Value)
  | description (s : String)
  | minValue (bound : Binary64)
  | maxValue (bound : Binary64)
  | minLength (bound : Nat)
  | maxLength (bound : Nat)
  | allowedValues (values : List Value)
  | constraints (c : Constraints)

/-- A draft with one thing set anew. Constraints given as a whole replace all that were set one by
one. -/
def set (d : ParameterDraft) : Setting → ParameterDraft
  | .required b => { d with required := b }
  | .default v => { d with default := some v }
  | .description s => { d with description := s }
  | .minValue bound => { d with constraints := { d.constraints with minValue := some bound } }
  | .maxValue bound => { d with constraints := { d.constraints with maxValue := some bound } }
  | .minLength bound => { d with constraints := { d.constraints with minLength := some bound } }
  | .maxLength bound => { d with constraints := { d.constraints with maxLength := some bound } }
  | .allowedValues values =>
    { d with constraints := { d.constraints with allowedValues := some values } }
  | .constraints c => { d with constraints := c }

/-- The draft that a name, a type and nothing else make. -/
def start (name : String) (type : ParamType) : ParameterDraft := { name, type }

/-- The draft after settings, one after the other. -/
def ofSettings (name : String) (type : ParamType) (settings : List Setting) : ParameterDraft :=
  settings.foldl set (start name type)

/-- Refuses bounds on the value that no number is within. A bound that is not a number is never
refused. -/
def checkValueRange (d : ParameterDraft) : Except DefinitionError Unit :=
  match d.constraints.minValue, d.constraints.maxValue with
  | some least, some greatest =>
    if greatest.less least then .error (.invalidRange d.name .value least greatest) else .ok ()
  | _, _ => .ok ()

/-- Refuses bounds on the length that no length is within. -/
def checkLengthRange (d : ParameterDraft) : Except DefinitionError Unit :=
  match d.constraints.minLength, d.constraints.maxLength with
  | some least, some greatest =>
    if greatest < least then
      .error (.invalidRange d.name .length (.ofInt least) (.ofInt greatest))
    else .ok ()
  | _, _ => .ok ()

/-- The allowed values converted to the type; the first that cannot be is refused. -/
def coerceAllowed (d : ParameterDraft) : Except DefinitionError (Option (List Value)) :=
  match d.constraints.allowedValues with
  | none => .ok none
  | some values =>
    match values.mapM (d.type.coerce d.name) with
    | .ok converted => .ok (some converted)
    | .error e => .error (.invalidAllowedValue d.name e)

/-- A value converted to a type, where it then meets the constraints. -/
def conform (name : String) (type : ParamType) (c : Constraints) (v : Value) :
    Except ValidationError Value := do
  let converted ← type.coerce name v
  c.check name converted
  return converted

/-- The default converted to the type; one that cannot be, or does not meet the constraints, is
refused. -/
def coerceDefault (d : ParameterDraft) (c : Constraints) :
    Except DefinitionError (Option Value) :=
  match d.default with
  | none => .ok none
  | some v =>
    match conform d.name d.type c v with
    | .ok converted => .ok (some converted)
    | .error e => .error (.invalidDefault d.name e)

/-- Checks a draft. The default has to meet the allowed values as converted. -/
def build (d : ParameterDraft) : Except DefinitionError ParameterSpec := do
  checkIdentifier .parameterName d.name
  d.checkValueRange
  d.checkLengthRange
  let allowed ← d.coerceAllowed
  let constraints := { d.constraints with allowedValues := allowed }
  let default ← d.coerceDefault constraints
  return ⟨d.name, d.type, d.required, default, d.description, constraints⟩

end ParameterDraft

namespace ParameterSpec

/-- The result where no value is supplied: the default, if there is one. -/
def fallback (s : ParameterSpec) : Except ValidationError (Option Value) :=
  match s.default with
  | some v => .ok (some v)
  | none => if s.required then .error (.missingRequired s.name) else .ok none

/-- The result for a value: the value converted and checked. Null counts as no value. -/
def validate (s : ParameterSpec) : Option Value → Except ValidationError (Option Value)
  | none => s.fallback
  | some .null => s.fallback
  | some v => (ParameterDraft.conform s.name s.type s.constraints v).map some

/-- A parameter as it is declared in a catalogue. -/
def text (s : ParameterSpec) : String :=
  s.name ++ ": " ++ s.type.name
    ++ (if s.required then "!" else "")
    ++ (match s.default with | some v => " = " ++ v.text | none => "")
    ++ (if s.constraints.isEmpty then "" else " [" ++ s.constraints.text ++ "]")
    ++ (if s.description.isEmpty then "" else " \"" ++ s.description ++ "\"")

/-- The name of the first parameter that has the name of one before it. -/
def firstRepeated? (specs : List ParameterSpec) : Option String :=
  go [] specs
where
  /-- Looks among parameters that come after those named in `seen`. -/
  go (seen : List String) : List ParameterSpec → Option String
    | [] => none
    | s :: rest => if seen.contains s.name then some s.name else go (s.name :: seen) rest

def checkUnique (scope : Scope) (specs : List ParameterSpec) : Except DefinitionError Unit :=
  match firstRepeated? specs with
  | some name => .error (.duplicateParameter scope name)
  | none => .ok ()

/-- The results so far with that of one more declared parameter under its name; null stands for no
value. -/
def validateNext (raw results : Params) (s : ParameterSpec) : Except ValidationError Params := do
  let result ← s.validate (raw.get? s.name)
  return results.insert s.name (result.getD .null)

/-- The results for declared parameters, or the first rejection. Others are not among them. -/
def validateDeclared (specs : List ParameterSpec) (raw : Params) :
    Except ValidationError Params :=
  specs.foldlM (validateNext raw) KeyMap.empty

/-- The results so far with a supplied value, unless a declared parameter has its name. -/
def passThrough (specs : List ParameterSpec) (results : Params) (supplied : String × Value) :
    Params :=
  if specs.any (·.name = supplied.1) then results else results.insert supplied.1 supplied.2

/-- Validates every declared parameter in turn, and passes values that are not declared through. -/
def validateAll (specs : List ParameterSpec) (raw : Params) : Except ValidationError Params := do
  let results ← validateDeclared specs raw
  return raw.entries.foldl (passThrough specs) results

end ParameterSpec

end StagedJobs
