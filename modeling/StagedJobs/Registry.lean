import StagedJobs.Workflow

namespace StagedJobs

/-- The registered workflows, under their types of job. Workflows are only ever added, and the first one
of a type stays. -/
structure Registry where
  workflows : KeyMap WorkflowSpec

namespace Registry

def empty : Registry := ⟨KeyMap.empty⟩

def contains (r : Registry) (jobType : String) : Bool := r.workflows.contains jobType

/-- The types of job in ascending order. -/
def jobTypes (r : Registry) : List String := r.workflows.keys

def size (r : Registry) : Nat := r.workflows.size

def isEmpty (r : Registry) : Bool := r.workflows.isEmpty

/-- Adds a workflow under its own type of job, which has to be a new one. -/
def register (r : Registry) (w : WorkflowSpec) : Except DefinitionError Registry :=
  if r.contains w.jobType then .error (.duplicateRegistration w.jobType)
  else .ok ⟨r.workflows.insert w.jobType w⟩

/-- Adds the workflow that a factory makes. The factory runs once, here, and its failure is given
back. -/
def registerWith (r : Registry) (factory : Except DefinitionError WorkflowSpec) :
    Except DefinitionError Registry :=
  factory.bind r.register

/-- The workflow of a type of job. The failure names all types that there are. -/
def get (r : Registry) (jobType : String) : Except ValidationError WorkflowSpec :=
  match r.workflows.get? jobType with
  | some w => .ok w
  | none => .error (.unknownJobType jobType r.jobTypes)

/-- Validates values for a type of job, looked up first. -/
def validateJobParameters (r : Registry) (jobType : String) (raw : Params) :
    Except ValidationError Params := do
  (← r.get jobType).validateJobParameters raw

/-- Validates values for a stage of a type of job, looked up first. -/
def validateStageParameters (r : Registry) (jobType : String) (n : Nat) (raw : Params) :
    Except ValidationError Params := do
  (← r.get jobType).validateStageParameters n raw

end Registry

end StagedJobs
