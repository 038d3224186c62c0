import StagedJobs.Workflow

namespace StagedJobs

namespace StageSpec

def parallelismText (s : StageSpec) : String :=
  match s.parallelism with
  | .sequential => "sequential"
  | .unlimited => "parallel"
  | .atMost tasks => s!"parallel (max {tasks})"

/-- The lines for a stage: its heading, its dependencies if it has any, its policies and its
parameters. -/
def describe (s : StageSpec) : List String :=
  let heading := s!"  stage {s.number} {s.taskType}"
    ++ (if s.name = s.taskType then "" else s!" \"{s.name}\"")
    ++ (if s.isFinal then " (final)" else "")
  let dependencies :=
    if s.dependsOn.isEmpty then []
    else ["    depends on " ++ String.intercalate ", " (s.dependsOn.map toString)]
  let policies := s!"    {s.parallelismText}, timeout {s.timeoutMinutes} min, "
    ++ s!"{s.maxRetries} retries {s.retryDelaySeconds}s apart"
  heading :: dependencies ++ policies :: s.params.map fun p => "    param " ++ p.text

end StageSpec

namespace WorkflowSpec

/-- The lines for a workflow, with those for its stages at the end. -/
def describe (w : WorkflowSpec) : List String :=
  let failure := if w.allowPartialFailure then "allowed" else "not allowed"
  [s!"{w.jobType}: {w.name} v{w.version}"]
    ++ (if w.description.isEmpty then [] else ["  " ++ w.description])
    ++ [s!"  max duration {w.maxTotalDurationMinutes} min, partial failure {failure}"]
    ++ w.params.map (fun p => "  param " ++ p.text)
    ++ w.stages.flatMap StageSpec.describe

/-- The line of a workflow that is registered under a type of job. -/
def summary (jobType : String) (w : WorkflowSpec) : String :=
  s!"{jobType}\t{w.name} v{w.version} ({w.stages.length} stages)"

end WorkflowSpec

end StagedJobs
