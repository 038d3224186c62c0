import StagedJobs.Json.Text
import StagedJobs.Numeric.Reading
import StagedJobs.Text.Chars

namespace StagedJobs

/-- The declared type of a parameter. -/
inductive ParamType where
  | string
  | integer
  | float
  | boolean
  | object
  | list
  | any
deriving DecidableEq

namespace ParamType

def name : ParamType → String
  | .string => "string"
  | .integer => "integer"
  | .float => "float"
  | .boolean => "boolean"
  | .object => "object"
  | .list => "list"
  | .any => "any"

/-- The type that a declaration names. Two types have a short name as well. -/
def ofName? : String → Option ParamType
  | "string" => some .string
  | "integer" => some .integer
  | "int" => some .integer
  | "float" => some .float
  | "boolean" => some .boolean
  | "bool" => some .boolean
  | "object" => some .object
  | "list" => some .list
  | "any" => some .any
  | _ => none

end ParamType

namespace Value

def trueWords : List String := ["true", "t", "1", "yes", "y"]

def falseWords : List String := ["false", "f", "0", "no", "n"]

/-- A value as a string: all but null have a text, and a string is its own. -/
def toString? : Value → Option Value
  | .null => none
  | .string s => some (.string s)
  | v => some (.string v.text)

/-- The whole number that a string stands for: written as one, or as a binary64 number that is one. -/
def readInteger? (s : String) : Option Int64 :=
  let cs := (Text.trim s).toList
  (readInt64? cs).or ((readBinary64? cs).bind Binary64.toInt64?)

/-- A value as a whole number. Floats have to be whole; the texts are read with white space around
them. -/
def toInteger? : Value → Option Value
  | .number (.whole n) => some (.number (.whole n))
  | .number (.float x) => (Binary64.finite x).toInt64?.map ofInt64
  | .string s => (readInteger? s).map ofInt64
  | _ => none

/-- A finite number as a value. There is no value for infinity, nor for what is not a number. -/
def ofBinary64? : Binary64 → Option Value
  | .finite x => some (.number (.float x))
  | _ => none

/-- A value as a number. Whole numbers are rounded to binary64. -/
def toFloat? : Value → Option Value
  | .number n => ofBinary64? n.toBinary64
  | .string s => (readBinary64? (Text.trim s).toList).bind ofBinary64?
  | _ => none

/-- The truth value that a string stands for, in any case and with white space around it. -/
def readBoolean? (s : String) : Option Bool :=
  let word := Text.lowerAscii (Text.trim s)
  if trueWords.contains word then some true
  else if falseWords.contains word then some false
  else none

/-- A value as a truth value. Of the numbers only the whole ones 0 and 1 are. -/
def toBoolean? : Value → Option Value
  | .bool b => some (.bool b)
  | .number (.whole n) =>
    if n.val = 0 then some (.bool false) else if n.val = 1 then some (.bool true) else none
  | .string s => (readBoolean? s).map .bool
  | _ => none

def toObject? : Value → Option Value
  | .object fields => some (.object fields)
  | _ => none

def toList? : Value → Option Value
  | .list items => some (.list items)
  | _ => none

end Value

namespace ParamType

def convert? : ParamType → Value → Option Value
  | .string, v => v.toString?
  | .integer, v => v.toInteger?
  | .float, v => v.toFloat?
  | .boolean, v => v.toBoolean?
  | .object, v => v.toObject?
  | .list, v => v.toList?
  | .any, v => some v

/-- Whether values must be of a type already, for want of any conversion to it. -/
def isStrict : ParamType → Bool
  | .object => true
  | .list => true
  | _ => false

end ParamType

end StagedJobs
