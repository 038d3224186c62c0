import StagedJobs.Catalogue.Loading

/-!
The journal: what is recorded while definitions are built and registered, values are validated and
catalogues are loaded. Each function gives the records of one operation, in order; the operation
itself does not depend on them.
-/

namespace StagedJobs

/-- How detailed a record is. -/
inductive Level where
  | trace
  | debug
  | info
deriving DecidableEq

def Level.name : Level → String
  | .trace => "TRACE"
  | .debug => "DEBUG"
  | .info => "INFO"

/-- One record. -/
structure LogRecord where
  level : Level
  message : String
deriving DecidableEq

def LogRecord.text (r : LogRecord) : String := r.level.name ++ " " ++ r.message

namespace Journal

/-- The causes of an error, indented, and numbered if there is more than one. -/
def causes : List String → String
  | [] => ""
  | [m] => "\n\nCaused by:\n    " ++ m
  | ms => "\n\nCaused by:" ++
    String.join (ms.zipIdx.map fun (m, i) => "\n    " ++ toString i ++ ": " ++ m)

def explanation : List String → String
  | [] => ""
  | m :: ms => m ++ causes ms

/-- Validating a value that is there. A conversion is recorded whether it succeeds or not, a
constraint that is violated is not. -/
def ofValue (s : ParameterSpec) (v : Value) : List LogRecord :=
  match s.type.coerce s.name v with
  | .error e =>
    let reason := e.message
    [⟨.trace, s!"rejected {v.kindName} for \"{s.name}\": {reason}"⟩]
  | .ok converted =>
    match s.constraints.firstViolated? converted with
    | some _ => []
    | none => [⟨.trace, s!"\"{s.name}\": {v.text} -> {converted.text}"⟩]

def ofValidate (s : ParameterSpec) : Option Value → List LogRecord
  | none => []
  | some .null => []
  | some v => ofValue s v

/-- Validating values for parameters, up to the first one that is rejected. -/
def ofValidateAll (raw : Params) : List ParameterSpec → List LogRecord
  | [] => []
  | s :: rest =>
    let value := raw.get? s.name
    ofValidate s value ++
      match s.validate value with
      | .ok _ => ofValidateAll raw rest
      | .error _ => []

def ofValidateJob (w : WorkflowSpec) (raw : Params) : List LogRecord := ofValidateAll raw w.params

/-- Validating values for the parameters of a workflow, and the result for those of a stage. -/
def ofValidateStage (w : WorkflowSpec) (n : Nat) (raw : Params) : List LogRecord :=
  match w.stage? n with
  | none => []
  | some stage =>
    ofValidateJob w raw ++
      match w.validateJobParameters raw with
      | .ok shared => ofValidateAll shared stage.params
      | .error _ => []

def ofStage (s : StageSpec) : LogRecord :=
  ⟨.trace, s!"built stage {s.number} ({s.taskType})"⟩

def ofWorkflow (w : WorkflowSpec) : LogRecord :=
  ⟨.debug, s!"built workflow \"{w.jobType}\" v{w.version} with {w.stages.length} stages"⟩

/-- Registering a workflow, unless its type of job is taken. -/
def ofRegister (r : Registry) (w : WorkflowSpec) : List LogRecord :=
  if r.contains w.jobType then [] else [⟨.debug, s!"registering workflow \"{w.jobType}\""⟩]

/-- Building the stages among entries, up to the first entry with a fault. -/
def ofEntries : List Catalogue.Entry → List LogRecord
  | [] => []
  | e :: rest =>
    match Catalogue.workflowSetting e with
    | .ok (.stage s) => ofStage s :: ofEntries rest
    | .ok _ => ofEntries rest
    | .error _ => []

/-- Building one block and registering what it describes, with the fault if there is one. -/
def ofBlock (s : Catalogue.Progress) (block : Catalogue.WorkflowBlock) : List LogRecord :=
  ofEntries block.entries ++
    match Catalogue.buildWorkflow block with
    | .error e =>
      let place := (Catalogue.Place.workflow block.jobType).message
      let reason := explanation e.messages
      [⟨.trace, s!"{place}: {reason}"⟩]
    | .ok w => ofWorkflow w ::
      match s.registry.register w with
      | .ok _ => ofRegister s.registry w
      | .error e =>
        let reason := explanation (Catalogue.LoadError.ofDefinition e).messages
        [⟨.trace, s!"error: {reason}"⟩]

/-- Building blocks, with what is registered before them. -/
def ofBlocks (s : Catalogue.Progress) : List Catalogue.WorkflowBlock → List LogRecord
  | [] => []
  | block :: rest => ofBlock s block ++ ofBlocks (s.step block) rest

/-- Loading blocks, with the number of workflows if they come to a registry. -/
def ofLoad (blocks : List Catalogue.WorkflowBlock) : List LogRecord :=
  ofBlocks .start blocks ++
    match Catalogue.load blocks with
    | .ok registry => [⟨.debug, s!"loaded {registry.size} workflows"⟩]
    | .error _ => []

/-- Loading a text. Nothing is recorded of one that cannot be read. -/
def ofLoadText (text : String) : List LogRecord :=
  match Catalogue.parse text with
  | .ok blocks => ofLoad blocks
  | .error _ => []

end Journal

end StagedJobs
