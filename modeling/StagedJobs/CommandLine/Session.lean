import StagedJobs.CommandLine.Settings
import StagedJobs.Description
import StagedJobs.Journal
import StagedJobs.Text.Quoted

/-!
One run of the command, from the text of its catalogue to what it prints: the answer, and the progress
and faults beside it. A run goes step by step, and each step says what it has to say at once.
-/

namespace StagedJobs

namespace CommandLine

/-- Why a file cannot be read. -/
inductive ReadFailure where
  | notFound
  | isDirectory
  | other (message : String)
deriving DecidableEq

def ReadFailure.message : ReadFailure → String
  | .notFound => "No such file or directory (os error 2)"
  | .isDirectory => "Is a directory (os error 21)"
  | .other message => message

/-- What a run was about when it failed. -/
inductive Task where
  | reading (path : String)
  | parsing (path : String)
  | validating (job : String)
deriving DecidableEq

def Task.message : Task → String
  | .reading path =>
    let name := Text.quoted path
    s!"while reading catalogue file {name}"
  | .parsing path =>
    let name := Text.quoted path
    s!"while parsing catalogue file {name}"
  | .validating job => s!"while validating parameters for job \"{job}\""

/-- Why a run fails. -/
inductive RunError where
  | unreadable (path : String) (cause : ReadFailure)
  | unparsable (path : String) (cause : Catalogue.ParseError)
  | invalid (cause : Catalogue.AggregatedErrors)
  | unknownJob (cause : ValidationError)
  | rejected (job : String) (cause : ValidationError)

namespace RunError

/-- The task that failed, if the failure is reported with one. -/
def task? : RunError → Option Task
  | .unreadable path _ => some (.reading path)
  | .unparsable path _ => some (.parsing path)
  | .invalid _ => none
  | .unknownJob _ => none
  | .rejected job _ => some (.validating job)

def cause : RunError → String
  | .unreadable _ e => e.message
  | .unparsable _ e => e.message
  | .invalid e => e.message
  | .unknownJob e => e.message
  | .rejected _ e => e.message

/-- The task that failed, and below it why. -/
def messages (e : RunError) : List String := (e.task?.map Task.message).toList ++ [e.cause]

end RunError

/-- What a run has said so far: its answer, and its progress and faults beside it. -/
structure Spoken where
  answer : String := ""
  progress : String := ""

/-- A step of a run. It may say something and may fail; what is said before a failure stays said. -/
abbrev Step := ExceptT RunError (StateM Spoken)

namespace Step

def write (text : String) : Step Unit :=
  modify fun said => { said with answer := said.answer ++ text }

def writeLine (line : String) : Step Unit := write (line ++ "\n")

/-- Says something beside the answer. -/
def report (text : String) : Step Unit :=
  modify fun said => { said with progress := said.progress ++ text }

/-- Goes on with what was computed. The run fails where the computation has failed. -/
def require {ε α : Type} (outcome : Except ε α) (failure : ε → RunError) : Step α :=
  match outcome with
  | .ok a => pure a
  | .error e => throw (failure e)

end Step

/-- A step that is timed. -/
inductive Phase where
  | parsing
  | building
deriving DecidableEq

def Phase.name : Phase → String
  | .parsing => "Parsing catalogue file"
  | .building => "Building workflows"

/-- Lines one below the other, each of them ended. -/
def lines (ls : List String) : String := String.join (ls.map (· ++ "\n"))

/-- What is said of progress only if it is asked for. -/
def Settings.say (s : Settings) (text : String) : String := if s.verbose = 0 then "" else text

namespace Progress

def opening (s : Settings) : String :=
  let name := Text.quoted s.catalogue
  s.say s!"Reading catalogue file {name}... "

def beginning (s : Settings) (phase : Phase) : String := s.say (phase.name ++ "... ")

/-- Said after the file is read, and after a phase. -/
def done (s : Settings) : String := s.say "done.\n"

def took (s : Settings) (elapsed : Phase → String) (phase : Phase) : String :=
  s.say (phase.name ++ " took" ++ elapsed phase ++ "\n")

def loaded (s : Settings) (registry : Registry) : String :=
  s.say s!"Loaded {registry.size} workflows.\n"

/-- Said once values are accepted, before they are written. -/
def accepted (s : Settings) : String := s.say "Parameters are valid.\n"

end Progress

/-- The text of the catalogue file, as it was read. -/
def openCatalogue (s : Settings) (file : Except ReadFailure String) : Step String := do
  Step.report (Progress.opening s)
  let text ← Step.require file (.unreadable s.catalogue)
  Step.report (Progress.done s)
  return text

/-- Builds the registry. All faults are told, whatever the settings, before the run fails. -/
def buildRegistry (blocks : List Catalogue.WorkflowBlock) : Step Registry :=
  match Catalogue.load blocks with
  | .ok registry => pure registry
  | .error e => do
    Step.report e.recap
    throw (.invalid e)

/-- `elapsed` tells how long a phase took; only progress shows it. -/
def loadCatalogue (s : Settings) (elapsed : Phase → String) (text : String) : Step Registry := do
  Step.report (Progress.beginning s .parsing)
  let blocks ← Step.require (Catalogue.parse text) (.unparsable s.catalogue)
  Step.report (Progress.done s)
  Step.report (Progress.took s elapsed .parsing)
  Step.report (Progress.beginning s .building)
  let registry ← buildRegistry blocks
  Step.report (Progress.done s)
  Step.report (Progress.took s elapsed .building)
  Step.report (Progress.loaded s registry)
  return registry

/-- Writes a line for each type of job, looked up one after the other. -/
def writeList (registry : Registry) : Step Unit :=
  registry.jobTypes.forM fun jobType => do
    let w ← Step.require (registry.get jobType) .unknownJob
    Step.writeLine (w.summary jobType)

/-- Writes all that a workflow is described by. -/
def writeDescription (registry : Registry) (job : String) : Step Unit := do
  let w ← Step.require (registry.get job) .unknownJob
  w.describe.forM Step.writeLine

/-- The result of validating values for a stage, or for the whole job where no stage is named. -/
def validated (w : WorkflowSpec) (stage : Option Nat) (params : Params) :
    Except ValidationError Params :=
  match stage with
  | some n => w.validateStageParameters n params
  | none => w.validateJobParameters params

/-- Writes the validated values. They are written only after all of them are accepted, so a
rejection leaves no answer. -/
def writeValidated (s : Settings) (registry : Registry) (job : String) (stage : Option Nat)
    (params : Params) : Step Unit := do
  let w ← Step.require (registry.get job) (.rejected job)
  let results ← Step.require (validated w stage params) (.rejected job)
  Step.report (Progress.accepted s)
  Step.write (Value.ofParams results).pretty
  Step.write "\n"

/-- Does what is asked, with the registry of the catalogue. -/
def carryOut (s : Settings) (registry : Registry) : Action → Step Unit
  | .list => writeList registry
  | .check =>
    let name := Text.quoted s.catalogue
    Step.writeLine s!"{name}: {registry.size} workflows OK"
  | .describe job => writeDescription registry job
  | .validate job stage params => writeValidated s registry job stage params

def session (s : Settings) (file : Except ReadFailure String) (elapsed : Phase → String) :
    Step Unit := do
  let text ← openCatalogue s file
  let registry ← loadCatalogue s elapsed text
  carryOut s registry s.action

/-- What a run leaves behind: all that it has said, and its failure if it fails. -/
structure Transcript where
  answer : String
  progress : String
  failure : Option RunError

/-- What a run of the steps leaves behind. -/
def run (s : Settings) (file : Except ReadFailure String) (elapsed : Phase → String) :
    Transcript :=
  let (outcome, said) := (session s file elapsed).run.run {}
  { answer := said.answer
    progress := said.progress
    failure := match outcome with
      | .ok _ => none
      | .error e => some e }

end CommandLine

namespace Journal

/-- What is recorded of an action. Only validation is. -/
def ofAction (registry : Registry) : CommandLine.Action → List LogRecord
  | .validate job stage params =>
    match registry.get job, stage with
    | .ok w, some n =>
      ⟨.info, s!"validating {params.size} params for {job} stage {n}"⟩ :: ofValidateStage w n params
    | .ok w, none => ⟨.info, s!"validating {params.size} params for {job}"⟩ :: ofValidateJob w params
    | .error _, _ => []
  | _ => []

def ofRun (s : CommandLine.Settings) (text : String) : List LogRecord :=
  match Catalogue.parse text with
  | .error _ => []
  | .ok blocks =>
    ofLoad blocks ++
      match Catalogue.load blocks with
      | .ok registry => ofAction registry s.action
      | .error _ => []

end Journal

end StagedJobs
