import StagedJobs.CommandLine.Arguments
import StagedJobs.Json.Reader

namespace StagedJobs.CommandLine

def defaultCatalogue : String := "catalogue.sw"

/-- What is to be done. -/
inductive Action where
  | list
  | check
  | describe (job : String)
  /-- Validate values for a type of job or for one of its stages. -/
  | validate (job : String) (stage : Option Nat) (params : Params)

/-- The settings of one run. -/
structure Settings where
  catalogue : String
  verbose : Nat
  action : Action

/-- Why arguments do not make sense together. -/
inductive SettingsError where
  | invalidParamFlag (flag : String)
  | stageWithoutJob
  | paramsWithoutJob
deriving DecidableEq

def SettingsError.message : SettingsError → String
  | .invalidParamFlag flag => s!"invalid param flag '{flag}' (should be formatted 'key=value')"
  | .stageWithoutJob => "--stage requires a job type (--job)"
  | .paramsWithoutJob => "--param requires a job type (--job)"

/-- The key and the value of a flag: what is before its first equals sign, and what is behind it. -/
def splitFlag? (flag : String) : Option (String × String) :=
  let (key, rest) := flag.toList.span (· ≠ '=')
  match rest with
  | [] => none
  | _ :: value => if key.isEmpty then none else some (String.ofList key, String.ofList value)

/-- The value that a text stands for: that of JSON text, or else the text itself. -/
def flagValue (s : String) : Value := (Value.ofText? s).getD (.string s)

/-- The values so far with that of one more flag, over an earlier one of the same key. -/
def addFlag (params : Params) (flag : String) : Except SettingsError Params :=
  match splitFlag? flag with
  | some (key, value) => .ok (params.insert key (flagValue value))
  | none => .error (.invalidParamFlag flag)

/-- The values of all flags, unless one of them is not written as a key and a value. -/
def parseParams (flags : List String) : Except SettingsError Params :=
  flags.foldlM addFlag KeyMap.empty

/-- The thing to do. A list or a check is done whatever else is asked for; a type of job alone is
described, and one with values or a stage is validated. -/
def chooseAction (a : Arguments) (params : Params) : Except SettingsError Action :=
  if a.list then .ok .list
  else if a.check then .ok .check
  else match a.job with
    | some job =>
      if params.isEmpty && a.stage.isNone then .ok (.describe job)
      else .ok (.validate job a.stage params)
    | none =>
      if a.stage.isSome then .error .stageWithoutJob
      else if !params.isEmpty then .error .paramsWithoutJob
      else .ok .list

/-- The settings that arguments come to. Flags are read first, so that a malformed one is reported
whatever is asked for. -/
def Settings.ofArguments (a : Arguments) : Except SettingsError Settings := do
  let params ← parseParams a.params
  let action ← chooseAction a params
  return ⟨a.catalogue.getD defaultCatalogue, a.verbose, action⟩

end StagedJobs.CommandLine
