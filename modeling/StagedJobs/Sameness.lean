import StagedJobs.Workflow

namespace StagedJobs

def sameOption {α : Type} (same : α → α → Bool) : Option α → Option α → Bool
  | some a, some b => same a b
  | none, none => true
  | _, _ => false

def sameList {α : Type} (same : α → α → Bool) : List α → List α → Bool
  | a :: as, b :: bs => same a b && sameList same as bs
  | [], [] => true
  | _, _ => false

/-- Equality of constraints. A bound that is not a number equals nothing, not even itself. -/
def Constraints.same (c d : Constraints) : Bool :=
  sameOption Binary64.same c.minValue d.minValue
    && sameOption Binary64.same c.maxValue d.maxValue
    && c.minLength = d.minLength && c.maxLength = d.maxLength
    && sameOption Value.sameItems c.allowedValues d.allowedValues

/-- Equality of parameters, with their values compared by `Value.same`. -/
def ParameterSpec.same (p q : ParameterSpec) : Bool :=
  p.name = q.name && p.type = q.type && p.required = q.required
    && sameOption Value.same p.default q.default && p.description = q.description
    && p.constraints.same q.constraints

def StageSpec.same (s t : StageSpec) : Bool :=
  s.number = t.number && s.name = t.name && s.taskType = t.taskType && s.isFinal = t.isFinal
    && s.dependsOn = t.dependsOn && s.parallelism = t.parallelism
    && s.timeoutMinutes = t.timeoutMinutes && s.maxRetries = t.maxRetries
    && s.retryDelaySeconds = t.retryDelaySeconds && sameList ParameterSpec.same s.params t.params

/-- Equality of workflows by value, as the values in them are compared. -/
def WorkflowSpec.same (v w : WorkflowSpec) : Bool :=
  v.jobType = w.jobType && v.name = w.name && v.description = w.description
    && v.version = w.version && sameList StageSpec.same v.stages w.stages
    && v.finalIndex = w.finalIndex && sameList ParameterSpec.same v.params w.params
    && v.maxTotalDurationMinutes = w.maxTotalDurationMinutes
    && v.allowPartialFailure = w.allowPartialFailure

end StagedJobs
