import StagedJobs.Param.Rejection
import StagedJobs.Text.Identifier

namespace StagedJobs

/-- What an identifier is the name of. -/
inductive IdentifierKind where
  | parameterName
  | taskType
  | jobType
deriving DecidableEq

def IdentifierKind.name : IdentifierKind → String
  | .parameterName => "parameter name"
  | .taskType => "task type"
  | .jobType => "job type"

/-- What a pair of bounds is about. -/
inductive Extent where
  | value
  | length
deriving DecidableEq

def Extent.name : Extent → String
  | .value => "value"
  | .length => "length"

/-- Where a parameter or a policy is declared. -/
inductive Scope where
  | stage (number : Nat)
  | workflow (jobType : String)
deriving DecidableEq

def Scope.name : Scope → String
  | .stage number => s!"stage {number}"
  | .workflow jobType => s!"workflow \"{jobType}\""

/-- A number that tells how a stage or a workflow is run. -/
inductive Policy where
  | timeoutMinutes
  | maxRetries
  | retryDelaySeconds
  | maxParallelTasks
  | maxTotalDurationMinutes
deriving DecidableEq

namespace Policy

def name : Policy → String
  | .timeoutMinutes => "timeout_minutes"
  | .maxRetries => "max_retries"
  | .retryDelaySeconds => "retry_delay_seconds"
  | .maxParallelTasks => "max_parallel_tasks"
  | .maxTotalDurationMinutes => "max_total_duration_minutes"

/-- The least value that is in range. Only retries may be none. -/
def least : Policy → Nat
  | .maxRetries => 0
  | _ => 1

/-- The greatest value that is in range. Where there is no limit of its own, it is that of 32 bits.
-/
def greatest : Policy → Nat
  | .timeoutMinutes => 1440
  | .maxRetries => 10
  | .retryDelaySeconds => 3600
  | .maxParallelTasks => UInt32.size - 1
  | .maxTotalDurationMinutes => UInt32.size - 1

end Policy

/-- Stages are numbered up to this number. -/
def maxStageNumber : Nat := 100

/-- A fault in a definition. -/
inductive DefinitionError where
  | invalidIdentifier (kind : IdentifierKind) (name : String)
  | duplicateParameter (scope : Scope) (param : String)
  | invalidDefault (param : String) (source : ValidationError)
  | invalidAllowedValue (param : String) (source : ValidationError)
  | invalidRange (param : String) (extent : Extent) (least greatest : Binary64)
  | stageNumberOutOfRange (number : Nat)
  | policyOutOfRange (scope : Scope) (policy : Policy) (value : Nat)
  | selfDependency (stage : Nat)
  | forwardDependency (stage dependency : Nat)
  | nonContiguousStageNumbering (jobType : String) (found : List Nat)
  | invalidFinalStageCount (jobType : String) (count : Nat)
  | danglingDependency (jobType : String) (stage dependency : Nat)
  | duplicateRegistration (jobType : String)

namespace DefinitionError

def message : DefinitionError → String
  | .invalidIdentifier kind name =>
    let kind := kind.name
    s!"Invalid {kind} \"{name}\": expected lowercase letters, digits, '_' or '-', "
      ++ "starting and ending with a letter or digit"
  | .duplicateParameter scope param =>
    let scope := scope.name
    s!"Parameter \"{param}\" is declared more than once in {scope}"
  | .invalidDefault param _ => s!"Default value for parameter \"{param}\" is invalid"
  | .invalidAllowedValue param _ => s!"Allowed value for parameter \"{param}\" is invalid"
  | .invalidRange param extent least greatest =>
    let extent := extent.name
    let least := least.toText
    let greatest := greatest.toText
    s!"Parameter \"{param}\" has {extent} minimum {least} greater than maximum {greatest}"
  | .stageNumberOutOfRange number =>
    s!"Stage number {number} is out of range (1-{maxStageNumber})"
  | .policyOutOfRange scope policy value =>
    let scope := scope.name
    s!"{scope}: {policy.name} {value} is out of range ({policy.least}-{policy.greatest})"
  | .selfDependency stage => s!"Stage {stage} depends on itself"
  | .forwardDependency stage dependency => s!"Stage {stage} depends on later stage {dependency}"
  | .nonContiguousStageNumbering jobType found =>
    let numbers := String.intercalate ", " (found.map toString)
    s!"Workflow \"{jobType}\" has stage numbers [{numbers}]; expected 1 to {found.length}"
  | .invalidFinalStageCount jobType count =>
    s!"Workflow \"{jobType}\" has {count} final stages; exactly one is required"
  | .danglingDependency jobType stage dependency =>
    s!"Stage {stage} of workflow \"{jobType}\" depends on nonexistent stage {dependency}"
  | .duplicateRegistration jobType =>
    s!"A workflow is already registered for job type \"{jobType}\""

/-- The rejection that a default or an allowed value met with. -/
def source? : DefinitionError → Option ValidationError
  | .invalidDefault _ source => some source
  | .invalidAllowedValue _ source => some source
  | _ => none

end DefinitionError

def checkIdentifier (kind : IdentifierKind) (name : String) : Except DefinitionError Unit :=
  if isIdentifier name then .ok () else .error (.invalidIdentifier kind name)

def checkPolicy (scope : Scope) (policy : Policy) (value : Nat) : Except DefinitionError Unit :=
  if policy.least ≤ value ∧ value ≤ policy.greatest then .ok ()
  else .error (.policyOutOfRange scope policy value)

end StagedJobs
