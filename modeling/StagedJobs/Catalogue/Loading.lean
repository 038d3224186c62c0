import StagedJobs.Catalogue.Reader
import StagedJobs.Registry

namespace StagedJobs.Catalogue

/-- What kind of block has a property. -/
inductive Owner where
  | workflow
  | stage
deriving DecidableEq

def Owner.name : Owner → String
  | .workflow => "workflow"
  | .stage => "stage"

/-- The form of the values that a property or a constraint takes. -/
inductive ValueForm where
  | nothing
  | singleString
  | nonNegativeInteger
  | singleNonNegativeInteger
  | trueOrFalse
  | someStageNumbers
  | stageNumbers
  | list
  | number
deriving DecidableEq

def ValueForm.text : ValueForm → String
  | .nothing => "no value"
  | .singleString => "a single string"
  | .nonNegativeInteger => "a non-negative integer"
  | .singleNonNegativeInteger => "a single non-negative integer"
  | .trueOrFalse => "true or false"
  | .someStageNumbers => "one or more stage numbers"
  | .stageNumbers => "stage numbers"
  | .list => "a list"
  | .number => "a number"

/-- A fault in the shape of a block, found before anything is built from it. -/
inductive ShapeError where
  | unknownProperty (owner : Owner) (key : String)
  | badPropertyValue (key : String) (form : ValueForm)
  | unknownConstraint (key : String)
  | badConstraintValue (key : String) (form : ValueForm)
  | nestedStage (number : Nat)
deriving DecidableEq

def ShapeError.message : ShapeError → String
  | .unknownProperty owner key => s!"Unknown {owner.name} property \"{key}\""
  | .badPropertyValue key form => s!"Property \"{key}\" expects {form.text}"
  | .unknownConstraint key =>
    s!"Unknown constraint \"{key}\" "
      ++ "(expected min_value, max_value, min_length, max_length or allowed_values)"
  | .badConstraintValue key form => s!"Constraint \"{key}\" expects {form.text}"
  | .nestedStage number => s!"Stage {number} is nested inside another stage"

/-- What keeps a block from becoming a workflow. -/
inductive Fault where
  | shape (e : ShapeError)
  | definition (e : DefinitionError)
  | unknownParamType (name : String)

def unknownTypeMessage (name : String) : String :=
  s!"Unknown parameter type \"{name}\" "
    ++ "(expected one of string, integer, float, boolean, object, list, any)"

/-- The message of a fault, and the message of what it consists in, if that is told apart. -/
def Fault.messages : Fault → List String
  | .shape e => [e.message]
  | .definition e => e.message :: (e.source?.map ValidationError.message).toList
  | .unknownParamType name => [unknownTypeMessage name]

/-- Where in a catalogue a fault is. -/
inductive Place where
  | parameter (name : String)
  | stage (number : Nat)
  | workflow (jobType : String)
deriving DecidableEq

def Place.message : Place → String
  | .parameter name => s!"in parameter \"{name}\""
  | .stage number => s!"in stage {number}"
  | .workflow jobType => s!"while loading workflow \"{jobType}\""

/-- A fault and where it is, the widest place first. -/
structure LoadError where
  places : List Place
  fault : Fault

namespace LoadError

/-- The places, the widest first, and then what is wrong there. -/
def messages (e : LoadError) : List String := e.places.map Place.message ++ e.fault.messages

/-- The same error, told from a place around the ones known so far. -/
def within (place : Place) (e : LoadError) : LoadError := { e with places := place :: e.places }

/-- A fault in the shape of a block, at no place yet. -/
def ofShape (e : ShapeError) : LoadError := ⟨[], .shape e⟩

/-- A fault in a definition, at no place yet. -/
def ofDefinition (e : DefinitionError) : LoadError := ⟨[], .definition e⟩

end LoadError

mutual

/-- The value that a literal stands for. Of the bare words, `true` and `false` are truth values and
others are strings; a number too large for any value is null. -/
def Literal.toValue : Literal → Value
  | .quoted s => .string s
  | .word s => if s = "true" then .bool true else if s = "false" then .bool false else .string s
  | .int n => .ofInt64 n
  | .float x => (Value.ofBinary64? x).getD .null
  | .list items => .list (Literal.toValues items)

def Literal.toValues : List Literal → List Value
  | [] => []
  | x :: xs => x.toValue :: Literal.toValues xs

end

namespace Property

/-- Refuses any value for a property that takes none. -/
def checkFlag (p : Property) : Except ShapeError Unit :=
  match p.values with
  | [] => .ok ()
  | _ => .error (.badPropertyValue p.key .nothing)

/-- The one value of a property as a text, quoted or not. -/
def text (p : Property) : Except ShapeError String :=
  match p.values with
  | [.quoted s] => .ok s
  | [.word s] => .ok s
  | _ => .error (.badPropertyValue p.key .singleString)

/-- The one value of a property as a number of 32 bits. A number out of range is told apart from
what is not a number. -/
def count (p : Property) : Except ShapeError Nat :=
  match p.values with
  | [.int n] =>
    if 0 ≤ n.toInt ∧ n.toInt < UInt32.size then .ok n.toInt.toNat
    else .error (.badPropertyValue p.key .nonNegativeInteger)
  | _ => .error (.badPropertyValue p.key .singleNonNegativeInteger)

/-- A number of 32 bits, or nothing where there is no value. -/
def optionalCount (p : Property) : Except ShapeError (Option Nat) :=
  match p.values with
  | [] => .ok none
  | _ => p.count.map some

/-- The truth value that is a property's value. Without a value it is true. -/
def flag (p : Property) : Except ShapeError Bool :=
  match p.values with
  | [] => .ok true
  | [.word s] =>
    if s = "true" then .ok true
    else if s = "false" then .ok false
    else .error (.badPropertyValue p.key .trueOrFalse)
  | _ => .error (.badPropertyValue p.key .trueOrFalse)

/-- A whole number of 8 bits, as stages are numbered by. -/
def stageNumber? : Literal → Option Nat
  | .int n => if 0 ≤ n.toInt ∧ n.toInt < UInt8.size then some n.toInt.toNat else none
  | _ => none

/-- All values of a property as numbers of stages, of which there has to be one at least. -/
def stageNumbers (p : Property) : Except ShapeError (List Nat) :=
  if p.values.isEmpty then .error (.badPropertyValue p.key .someStageNumbers)
  else match p.values.mapM stageNumber? with
    | some numbers => .ok numbers
    | none => .error (.badPropertyValue p.key .stageNumbers)

end Property

/-- A bound on values. Whole numbers are rounded to binary64. -/
def valueBound (key : String) : Literal → Except ShapeError Binary64
  | .int n => .ok (.ofInt n.toInt)
  | .float x => .ok x
  | _ => .error (.badConstraintValue key .number)

def lengthBound (key : String) : Literal → Except ShapeError Nat
  | .int n =>
    if 0 ≤ n.toInt then .ok n.toInt.toNat
    else .error (.badConstraintValue key .nonNegativeInteger)
  | _ => .error (.badConstraintValue key .nonNegativeInteger)

/-- The values of a list, which are not converted to the type of the parameter yet. -/
def allowedValues (key : String) : Literal → Except ShapeError (List Value)
  | .list items => .ok (Literal.toValues items)
  | _ => .error (.badConstraintValue key .list)

/-- The constraints with one more that is written. Where one is written twice, the last counts. -/
def addConstraint (c : Constraints) (written : String × Literal) : Except ShapeError Constraints :=
  match written.1 with
  | "min_value" => do return { c with minValue := some (← valueBound written.1 written.2) }
  | "max_value" => do return { c with maxValue := some (← valueBound written.1 written.2) }
  | "min_length" => do return { c with minLength := some (← lengthBound written.1 written.2) }
  | "max_length" => do return { c with maxLength := some (← lengthBound written.1 written.2) }
  | "allowed_values" => do
    return { c with allowedValues := some (← allowedValues written.1 written.2) }
  | key => .error (.unknownConstraint key)

def ParamEntry.paramType (p : ParamEntry) : Except LoadError ParamType :=
  match ParamType.ofName? p.type with
  | some type => .ok type
  | none => .error ⟨[.parameter p.name], .unknownParamType p.type⟩

/-- The draft of the parameter that an entry declares. The type is looked up before the constraints.
-/
def ParamEntry.draft (p : ParamEntry) : Except LoadError ParameterDraft := do
  let type ← p.paramType
  let constraints ← (p.constraints.foldlM addConstraint {}).mapError .ofShape
  return ⟨p.name, type, p.required, p.default.map Literal.toValue, p.description.getD "",
    constraints⟩

/-- The parameter that an entry declares, checked. -/
def ParamEntry.build (p : ParamEntry) : Except LoadError ParameterSpec := do
  (← p.draft).build.mapError .ofDefinition

def stageProperty (p : Property) : Except ShapeError StageDraft.Setting :=
  match p.key with
  | "name" => p.text.map .name
  | "final" => p.flag.map .final
  | "depends" => p.stageNumbers.map .dependsOn
  | "parallel" => p.optionalCount.map fun cap => .parallelism (.ofCap cap)
  | "sequential" => p.checkFlag.map fun _ => .parallelism .sequential
  | "timeout" => p.count.map .timeoutMinutes
  | "retries" => p.count.map .maxRetries
  | "retry_delay" => p.count.map .retryDelaySeconds
  | key => .error (.unknownProperty .stage key)

/-- The setting of a stage that an entry makes. A stage among the entries of another is refused. -/
def stageSetting : Entry → Except LoadError StageDraft.Setting
  | .property p => (stageProperty p).mapError .ofShape
  | .param p => p.build.map .param
  | .stage number _ _ => .error (.ofShape (.nestedStage number))

/-- The stage that a block describes. Numbers beyond 8 bits are refused before the entries are looked
at. -/
def buildStage (number : Nat) (taskType : String) (entries : List Entry) :
    Except LoadError StageSpec := do
  if UInt8.size ≤ number then .error (.ofDefinition (.stageNumberOutOfRange number))
  let settings ← entries.mapM stageSetting
  (StageDraft.ofSettings number taskType settings).build.mapError .ofDefinition

def workflowProperty (p : Property) : Except ShapeError WorkflowDraft.Setting :=
  match p.key with
  | "name" => p.text.map .name
  | "description" => p.text.map .description
  | "version" => p.text.map .version
  | "max_duration" => p.count.map .maxTotalDurationMinutes
  | "partial_failure" => p.flag.map .allowPartialFailure
  | key => .error (.unknownProperty .workflow key)

/-- The setting of a workflow that an entry makes. Errors of a stage are told from within it. -/
def workflowSetting : Entry → Except LoadError WorkflowDraft.Setting
  | .property p => (workflowProperty p).mapError .ofShape
  | .param p => p.build.map .param
  | .stage number taskType entries =>
    ((buildStage number taskType entries).mapError (.within (.stage number))).map .stage

/-- The workflow that a block describes: its entries are settings, in their order, of one draft. -/
def buildWorkflow (block : WorkflowBlock) : Except LoadError WorkflowSpec := do
  let settings ← block.entries.mapM workflowSetting
  (WorkflowDraft.ofSettings block.jobType settings).build.mapError .ofDefinition

/-- All faults found in a catalogue, in the order of its blocks. -/
structure AggregatedErrors where
  errors : List LoadError

namespace AggregatedErrors

/-- How many faults there are, of which each block has one at most. -/
def count (a : AggregatedErrors) : Nat := a.errors.length

def message (a : AggregatedErrors) : String :=
  s!"loading catalogue failed due to {a.count} errors"

def report (messages : List String) : String :=
  "ERROR: " ++ String.intercalate "\nCaused by:\n\t" messages ++ "\n\n"

def recap (a : AggregatedErrors) : String :=
  "\nEncountered errors while loading catalogue:\n\n"
    ++ String.join (a.errors.map fun e => report e.messages)

end AggregatedErrors

/-- A catalogue halfway through loading: what is registered and what was wrong. -/
structure Progress where
  registry : Registry
  errors : List LoadError

namespace Progress

def start : Progress := ⟨.empty, []⟩

/-- Goes on with one block, which is registered or adds a fault. A fault does not keep the blocks
behind it from being looked at. -/
def step (s : Progress) (block : WorkflowBlock) : Progress :=
  match buildWorkflow block with
  | .error e => { s with errors := s.errors ++ [e.within (.workflow block.jobType)] }
  | .ok w =>
    match s.registry.register w with
    | .ok registry => { s with registry }
    | .error e => { s with errors := s.errors ++ [.ofDefinition e] }

end Progress

/-- The registry of all blocks, unless anything is wrong with any of them. -/
def load (blocks : List WorkflowBlock) : Except AggregatedErrors Registry :=
  let finished := blocks.foldl Progress.step .start
  if finished.errors.isEmpty then .ok finished.registry else .error ⟨finished.errors⟩

/-- Why a text gives no registry. -/
inductive LoadFailure where
  | parse (e : ParseError)
  | invalid (e : AggregatedErrors)

/-- The registry of the workflows that a text declares. -/
def loadText (text : String) : Except LoadFailure Registry := do
  let blocks ← (parse text).mapError .parse
  (load blocks).mapError .invalid

end StagedJobs.Catalogue
