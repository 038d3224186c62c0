import StagedJobs.Numeric.Reading

namespace StagedJobs.CommandLine

/-- What an option does. -/
inductive Opt where
  | catalogue
  | list
  | job
  | stage
  | param
  | check
  | verbose
  | help
  | version
deriving DecidableEq

namespace Opt

def takesValue : Opt → Bool
  | .catalogue => true
  | .job => true
  | .stage => true
  | .param => true
  | _ => false

def ofLetter? : Char → Option Opt
  | 'c' => some .catalogue
  | 'l' => some .list
  | 'j' => some .job
  | 's' => some .stage
  | 'p' => some .param
  | 'n' => some .check
  | 'v' => some .verbose
  | 'h' => some .help
  | 'V' => some .version
  | _ => none

/-- The option of a name behind two dashes, which has to be written in full. -/
def ofName? : String → Option Opt
  | "catalogue" => some .catalogue
  | "list" => some .list
  | "job" => some .job
  | "stage" => some .stage
  | "param" => some .param
  | "check" => some .check
  | "verbose" => some .verbose
  | "help" => some .help
  | "version" => some .version
  | _ => none

end Opt

/-- Why arguments are not accepted, or what they ask for instead of a run. -/
inductive ArgumentError where
  | unknownArgument
  | invalidValue
  | valueValidation
  | argumentConflict
  | tooManyValues
  | displayHelp
  | displayVersion
deriving DecidableEq

/-- The arguments taken together. -/
structure Arguments where
  catalogue : Option String := none
  list : Bool := false
  job : Option String := none
  stage : Option Nat := none
  params : List String := []
  check : Bool := false
  verbose : Nat := 0
deriving DecidableEq

namespace Arguments

/-- A stage number on the command line has 8 bits. -/
def stageNumber? (s : String) : Option Nat :=
  match readInt64? s.toList with
  | some n => if 0 ≤ n.toInt ∧ n.toInt < UInt8.size then some n.toInt.toNat else none
  | none => none

/-- Takes an option in. All but the ones for values and for verbosity may be given only once. -/
def apply (a : Arguments) (opt : Opt) (value : Option String) : Except ArgumentError Arguments :=
  match opt, value with
  | .help, _ => .error .displayHelp
  | .version, _ => .error .displayVersion
  | .list, _ => if a.list then .error .argumentConflict else .ok { a with list := true }
  | .check, _ => if a.check then .error .argumentConflict else .ok { a with check := true }
  | .verbose, _ => .ok { a with verbose := min (a.verbose + 1) 255 }
  | _, none => .error .invalidValue
  | .param, some s => .ok { a with params := a.params ++ [s] }
  | .catalogue, some s =>
    if a.catalogue.isSome then .error .argumentConflict else .ok { a with catalogue := some s }
  | .job, some s =>
    if a.job.isSome then .error .argumentConflict else .ok { a with job := some s }
  | .stage, some s =>
    if a.stage.isSome then .error .argumentConflict
    else match stageNumber? s with
      | some n => .ok { a with stage := some n }
      | none => .error .valueValidation

end Arguments

/-- Arguments halfway through reading. The option that came last may still wait for its value, or has
just got it; it is taken in when the next option comes, or at the end. -/
structure Reading where
  taken : Arguments := {}
  /-- The last option, if it is not taken in yet, with its value. -/
  pending : Option (Opt × Option String) := none

namespace Reading

/-- Takes in the option that came last, if it is not taken in yet. -/
def settle (r : Reading) : Except ArgumentError Reading :=
  match r.pending with
  | none => .ok r
  | some (opt, value) => (r.taken.apply opt value).map fun taken => ⟨taken, none⟩

/-- Takes in an option at once, after the one before it. -/
def take (r : Reading) (opt : Opt) (value : Option String) : Except ArgumentError Reading := do
  let r ← r.settle
  return { r with taken := ← r.taken.apply opt value }

/-- Leaves an option to wait for its value, after the one before it is taken in. -/
def await (r : Reading) (opt : Opt) : Except ArgumentError Reading := do
  let r ← r.settle
  return { r with pending := some (opt, none) }

/-- An option by its name, with a value behind an equals sign or without one. -/
def long (r : Reading) (cs : List Char) : Except ArgumentError Reading :=
  let (name, rest) := cs.span (· ≠ '=')
  match Opt.ofName? (String.ofList name), rest with
  | none, _ => .error .unknownArgument
  | some opt, [] => if opt.takesValue then r.await opt else r.take opt none
  | some opt, _ :: value =>
    if opt.takesValue then r.take opt (some (String.ofList value)) else .error .tooManyValues

/-- The value attached to a letter; an equals sign in front of it does not count. -/
def attached : List Char → String
  | '=' :: value => String.ofList value
  | value => String.ofList value

/-- Options by their letters, joined behind one dash. What follows the letter of an option with a
value is that value. -/
def letters (r : Reading) : List Char → Except ArgumentError Reading
  | [] => .ok r
  | c :: rest =>
    match Opt.ofLetter? c with
    | none => .error .unknownArgument
    | some opt =>
      if opt.takesValue then
        if rest.isEmpty then r.await opt else r.take opt (some (attached rest))
      else do (← r.take opt none).letters rest

/-- An argument that is no option: the value that the last option waits for. -/
def value (r : Reading) (s : String) : Except ArgumentError Reading :=
  match r.pending with
  | some (opt, none) => .ok { r with pending := some (opt, some s) }
  | _ => .error .unknownArgument

/-- One argument. A single dash is a value. -/
def argument (r : Reading) (s : String) : Except ArgumentError Reading :=
  match s.toList with
  | '-' :: '-' :: rest => r.long rest
  | ['-'] => r.value s
  | '-' :: rest => r.letters rest
  | _ => r.value s

/-- The arguments one after the other. Behind a double dash there are only values that no option takes,
and the command knows of none. -/
def all (r : Reading) : List String → Except ArgumentError Reading
  | [] => .ok r
  | s :: rest =>
    if s = "--" then
      if rest.isEmpty then .ok r else .error .unknownArgument
    else do (← r.argument s).all rest

end Reading

/-- The arguments of a command line, without the name of the command. -/
def Arguments.parse (args : List String) : Except ArgumentError Arguments := do
  let r ← Reading.all {} args
  return (← r.settle).taken

end StagedJobs.CommandLine
