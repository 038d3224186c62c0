import StagedJobs.Param.Spec

namespace StagedJobs

/-- How many tasks of a stage may run at once. This stands for the flag allow_parallel_tasks and the cap
max_parallel_tasks, which are only ever set together: the flag is off and there is no cap, or it is on
without a cap, or it is on with one. -/
inductive Parallelism where
  | sequential
  | unlimited
  | atMost (tasks : Nat)
deriving DecidableEq

namespace Parallelism

/-- The flag that the parallelism stands for. -/
def isParallel : Parallelism → Bool
  | .sequential => false
  | _ => true

/-- The cap that the parallelism stands for. -/
def cap? : Parallelism → Option Nat
  | .atMost tasks => some tasks
  | _ => none

/-- Tasks may run at once, up to a cap if one is given. -/
def ofCap : Option Nat → Parallelism
  | some tasks => .atMost tasks
  | none => .unlimited

end Parallelism

/-- A built stage: one ordered step of a workflow, bound to a type of task. The stages that it depends
on are in ascending order and come before it. -/
structure StageSpec where
  number : Nat
  name : String
  taskType : String
  isFinal : Bool
  dependsOn : List Nat
  parallelism : Parallelism
  timeoutMinutes : Nat
  maxRetries : Nat
  retryDelaySeconds : Nat
  params : List ParameterSpec

/-- A stage before it is checked. Without a name of its own it has that of its type of task. -/
structure StageDraft where
  number : Nat
  taskType : String
  name : Option String := none
  isFinal : Bool := false
  dependsOn : List Nat := []
  parallelism : Parallelism := .unlimited
  timeoutMinutes : Nat := 60
  maxRetries : Nat := 3
  retryDelaySeconds : Nat := 60
  params : List ParameterSpec := []

/-- Puts a number at its place among ascending ones, unless it is there. -/
def insertAscending (n : Nat) : List Nat → List Nat
  | [] => [n]
  | m :: rest =>
    if n < m then n :: m :: rest else if n = m then m :: rest else m :: insertAscending n rest

/-- Numbers in ascending order, each of them once. -/
def ascending (ns : List Nat) : List Nat := ns.foldr insertAscending []

namespace StageDraft

/-- One setting of a draft. -/
inductive Setting where
  | name (s : String)
  | final (b : Bool)
  | dependsOn (stages : List Nat)
  | parallelism (p : Parallelism)
  | timeoutMinutes (n : Nat)
  | maxRetries (n : Nat)
  | retryDelaySeconds (n : Nat)
  | param (p : ParameterSpec)

/-- A draft with one thing set anew, or with more dependencies or one more parameter. -/
def set (d : StageDraft) : Setting → StageDraft
  | .name s => { d with name := some s }
  | .final b => { d with isFinal := b }
  | .dependsOn stages => { d with dependsOn := d.dependsOn ++ stages }
  | .parallelism p => { d with parallelism := p }
  | .timeoutMinutes n => { d with timeoutMinutes := n }
  | .maxRetries n => { d with maxRetries := n }
  | .retryDelaySeconds n => { d with retryDelaySeconds := n }
  | .param p => { d with params := d.params ++ [p] }

/-- The draft that a number, a type of task and nothing else make. -/
def start (number : Nat) (taskType : String) : StageDraft := { number, taskType }

def ofSettings (number : Nat) (taskType : String) (settings : List Setting) : StageDraft :=
  settings.foldl set (start number taskType)

/-- Refuses numbers that stages are not numbered by. -/
def checkNumber (d : StageDraft) : Except DefinitionError Unit :=
  if 1 ≤ d.number ∧ d.number ≤ maxStageNumber then .ok ()
  else .error (.stageNumberOutOfRange d.number)

/-- Refuses a dependency on the stage itself or on a later one, of which the latest is reported. -/
def checkDependencies (d : StageDraft) : Except DefinitionError Unit :=
  let dependencies := ascending d.dependsOn
  if dependencies.contains d.number then .error (.selfDependency d.number)
  else match dependencies.getLast? with
    | some dependency =>
      if d.number < dependency then .error (.forwardDependency d.number dependency) else .ok ()
    | none => .ok ()

/-- Refuses policies out of their ranges. There is a cap to look at only if there is one. -/
def checkPolicies (d : StageDraft) : Except DefinitionError Unit := do
  checkPolicy (.stage d.number) .timeoutMinutes d.timeoutMinutes
  checkPolicy (.stage d.number) .maxRetries d.maxRetries
  checkPolicy (.stage d.number) .retryDelaySeconds d.retryDelaySeconds
  match d.parallelism.cap? with
  | some tasks => checkPolicy (.stage d.number) .maxParallelTasks tasks
  | none => .ok ()

/-- The stage that a draft describes, unchecked. -/
def finish (d : StageDraft) : StageSpec where
  number := d.number
  name := d.name.getD d.taskType
  taskType := d.taskType
  isFinal := d.isFinal
  dependsOn := ascending d.dependsOn
  parallelism := d.parallelism
  timeoutMinutes := d.timeoutMinutes
  maxRetries := d.maxRetries
  retryDelaySeconds := d.retryDelaySeconds
  params := d.params

/-- Checks a draft. The first check that fails is reported, in this order. -/
def build (d : StageDraft) : Except DefinitionError StageSpec := do
  checkIdentifier .taskType d.taskType
  d.checkNumber
  d.checkDependencies
  d.checkPolicies
  ParameterSpec.checkUnique (.stage d.number) d.params
  return d.finish

end StageDraft

namespace StageSpec

/-- Validates values for the stage's own parameters alone. -/
def validateParameters (s : StageSpec) (raw : Params) : Except ValidationError Params :=
  ParameterSpec.validateAll s.params raw

end StageSpec

end StagedJobs
