import StagedJobs.CommandLine.Session

namespace StagedJobs.CommandLine

def usage : String :=
  "Usage: sw [OPTIONS]\n\n" ++ lines
    ["  -c, --catalogue <FILE>   Workflow catalogue file [default: catalogue.sw]",
     "  -l, --list               List registered job types",
     "  -j, --job <JOB>          Target job type",
     "  -s, --stage <N>          Validate parameters for this stage of the job",
     "  -p, --param <KEY=VALUE>  Parameter to validate; VALUE is read as JSON if possible",
     "  -n, --check              Only load and check the catalogue",
     "  -v, --verbose            Print additional debugging info (repeat for more)",
     "  -h, --help               Print help",
     "  -V, --version            Print version"]

def complaint : ArgumentError → String
  | .unknownArgument => "unexpected argument found"
  | .invalidValue => "a value is required for an option but none was supplied"
  | .valueValidation => "invalid value for an option"
  | .argumentConflict => "an option cannot be used multiple times"
  | .tooManyValues => "unexpected value for an option that takes none"
  | .displayHelp => ""
  | .displayVersion => ""

/-- Reads the catalogue file, whole or not at all. -/
def readCatalogue (path : String) : IO (Except ReadFailure String) := do
  try
    return .ok (← IO.FS.readFile path)
  catch
    | .noFileOrDirectory _ _ _ => return .error .notFound
    | .inappropriateType _ _ _ => return .error .isDirectory
    | e => return .error (.other (toString e))

/-- How long the phases take, measured apart from the run. -/
def timings (file : Except ReadFailure String) : IO (Phase → String) := do
  let text := file.toOption.getD ""
  let start ← IO.monoNanosNow
  let blocks ← IO.lazyPure fun _ => (Catalogue.parse text).toOption.getD []
  let parsed ← IO.monoNanosNow
  let _ ← IO.lazyPure fun _ => Catalogue.load blocks
  let finish ← IO.monoNanosNow
  return fun
    | .parsing => s!" {(parsed - start) / 1000}µs"
    | .building => s!" {(finish - parsed) / 1000}µs"

/-- Runs the command with settings, prints what it says, and gives its exit code. -/
def perform (settings : Settings) : IO UInt32 := do
  let file ← readCatalogue settings.catalogue
  let transcript := run settings file (← timings file)
  IO.eprint transcript.progress
  IO.print transcript.answer
  match transcript.failure with
  | none => return 0
  | some e =>
    IO.eprintln ("Error: " ++ Journal.explanation e.messages)
    return 1

/-- Runs the command with its arguments, and gives its exit code: 2 for arguments that are not
accepted, 1 for every other failure. -/
def start (args : List String) : IO UInt32 := do
  match Arguments.parse args with
  | .error .displayHelp =>
    IO.print usage
    return 0
  | .error .displayVersion =>
    IO.println "sw 0.1.0"
    return 0
  | .error e =>
    IO.eprintln ("error: " ++ complaint e)
    return 2
  | .ok arguments =>
    match Settings.ofArguments arguments with
    | .ok settings => perform settings
    | .error e =>
      IO.eprintln ("Error: " ++ e.message)
      return 1

end StagedJobs.CommandLine

def main (args : List String) : IO UInt32 := StagedJobs.CommandLine.start args
