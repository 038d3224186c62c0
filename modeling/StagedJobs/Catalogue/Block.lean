import StagedJobs.Numeric.Binary64

namespace StagedJobs.Catalogue

/-- A value as it is written. -/
inductive Literal where
  | quoted (s : String)
  /-- A bare word, `true` and `false` among them. -/
  | word (s : String)
  | int (n : Int64)
  | float (x : Binary64)
  | list (items : List Literal)

/-- A parameter: `param name: type[!] [= default] [[constraint=value, ...]] ["description"]`. -/
structure ParamEntry where
  name : String
  type : String
  required : Bool
  default : Option Literal
  constraints : List (String × Literal)
  description : Option String

/-- A line of a key and any number of values. -/
structure Property where
  key : String
  values : List Literal

/-- One entry between braces. Stages are read at any depth, though only workflows have stages. -/
inductive Entry where
  | property (p : Property)
  | param (p : ParamEntry)
  /-- `stage number taskType { entries }`. -/
  | stage (number : Nat) (taskType : String) (entries : List Entry)

/-- A workflow: `workflow jobType { entries }`. -/
structure WorkflowBlock where
  jobType : String
  entries : List Entry

end StagedJobs.Catalogue
