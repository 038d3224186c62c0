import StagedJobs.Stage

namespace StagedJobs

/-- A built workflow: the whole definition of one type of job. Its stages are in the order of their
numbers, from 1 without a gap, and its own parameters are shared by all of them. -/
structure WorkflowSpec where
  jobType : String
  name : String
  description : String
  version : String
  stages : List StageSpec
  finalIndex : Nat
  params : List ParameterSpec
  maxTotalDurationMinutes : Nat
  allowPartialFailure : Bool

/-- A workflow before it is checked. Without a name of its own it has that of its type of job. -/
structure WorkflowDraft where
  jobType : String
  name : Option String := none
  description : String := ""
  version : String := "1.0"
  stages : List StageSpec := []
  params : List ParameterSpec := []
  maxTotalDurationMinutes : Nat := 1440
  allowPartialFailure : Bool := false

namespace WorkflowDraft

/-- One setting of a draft. -/
inductive Setting where
  | name (s : String)
  | description (s : String)
  | version (s : String)
  | stage (s : StageSpec)
  | param (p : ParameterSpec)
  | maxTotalDurationMinutes (n : Nat)
  | allowPartialFailure (b : Bool)

/-- A draft with one thing set anew, or with one more stage or parameter. -/
def set (d : WorkflowDraft) : Setting → WorkflowDraft
  | .name s => { d with name := some s }
  | .description s => { d with description := s }
  | .version s => { d with version := s }
  | .stage s => { d with stages := d.stages ++ [s] }
  | .param p => { d with params := d.params ++ [p] }
  | .maxTotalDurationMinutes n => { d with maxTotalDurationMinutes := n }
  | .allowPartialFailure b => { d with allowPartialFailure := b }

def start (jobType : String) : WorkflowDraft := { jobType }

def ofSettings (jobType : String) (settings : List Setting) : WorkflowDraft :=
  settings.foldl set (start jobType)

/-- The stages in the order of their numbers; stages of one number keep the order they came in. -/
def orderedStages (d : WorkflowDraft) : List StageSpec :=
  d.stages.mergeSort fun s t => s.number ≤ t.number

/-- Refuses stages that are not numbered from 1 without a gap and without repetition. -/
def checkNumbering (d : WorkflowDraft) : Except DefinitionError Unit :=
  let found := d.orderedStages.map (·.number)
  if found ≠ [] ∧ found = List.range' 1 found.length then .ok ()
  else .error (.nonContiguousStageNumbering d.jobType found)

/-- The places of the final stages among the stages in the order of their numbers. -/
def finalPlaces (d : WorkflowDraft) : List Nat :=
  (d.orderedStages.zipIdx.filter (·.1.isFinal)).map (·.2)

/-- The place of the final stage. Refuses any number of final stages but one. -/
def checkFinal (d : WorkflowDraft) : Except DefinitionError Nat :=
  match d.finalPlaces with
  | [place] => .ok place
  | places => .error (.invalidFinalStageCount d.jobType places.length)

/-- A stage, in the order of numbers, and one of its dependencies that no stage has as its number. -/
def dangling? (stages : List StageSpec) : Option (Nat × Nat) :=
  let numbers := stages.map (·.number)
  stages.findSome? fun s =>
    (s.dependsOn.find? fun n => !numbers.contains n).map fun n => (s.number, n)

def checkDependencies (d : WorkflowDraft) : Except DefinitionError Unit :=
  match dangling? d.orderedStages with
  | some (stage, dependency) => .error (.danglingDependency d.jobType stage dependency)
  | none => .ok ()

/-- The workflow that a draft describes, unchecked, with its final stage at a given place. -/
def finish (d : WorkflowDraft) (finalIndex : Nat) : WorkflowSpec where
  jobType := d.jobType
  name := d.name.getD d.jobType
  description := d.description
  version := d.version
  stages := d.orderedStages
  finalIndex
  params := d.params
  maxTotalDurationMinutes := d.maxTotalDurationMinutes
  allowPartialFailure := d.allowPartialFailure

/-- Checks a draft. The first check that fails is reported, in this order. -/
def build (d : WorkflowDraft) : Except DefinitionError WorkflowSpec := do
  checkIdentifier .jobType d.jobType
  checkPolicy (.workflow d.jobType) .maxTotalDurationMinutes d.maxTotalDurationMinutes
  ParameterSpec.checkUnique (.workflow d.jobType) d.params
  d.checkNumbering
  let finalIndex ← d.checkFinal
  d.checkDependencies
  return d.finish finalIndex

end WorkflowDraft

namespace WorkflowSpec

def stage? (w : WorkflowSpec) (n : Nat) : Option StageSpec :=
  if n = 0 then none else w.stages[n - 1]?

/-- The stage numbered one past `n`, which has 8 bits; dependencies do not matter. -/
def nextStage? (w : WorkflowSpec) (n : Nat) : Option StageSpec :=
  if n + 1 < UInt8.size then w.stage? (n + 1) else none

/-- The one stage that is final. -/
def finalStage? (w : WorkflowSpec) : Option StageSpec := w.stages[w.finalIndex]?

/-- Validates values for the shared parameters alone. -/
def validateJobParameters (w : WorkflowSpec) (raw : Params) : Except ValidationError Params :=
  ParameterSpec.validateAll w.params raw

/-- Validates values for one stage: for the shared parameters first, and the result of that for the
stage's own. -/
def validateStageParameters (w : WorkflowSpec) (n : Nat) (raw : Params) :
    Except ValidationError Params :=
  match w.stage? n with
  | none => .error (.unknownStage w.jobType n)
  | some stage => do
    let shared ← w.validateJobParameters raw
    stage.validateParameters shared

end WorkflowSpec

end StagedJobs
