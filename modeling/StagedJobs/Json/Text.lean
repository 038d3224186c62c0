import StagedJobs.Json.Value
import StagedJobs.Numeric.Layout

namespace StagedJobs

namespace Json

/-- Numbers from `1e-5` up to `1e16` are written in full, with a digit after the point; others with a
power of ten. -/
def numberLayout : Layout := ⟨.even, fun e => -5 ≤ e && e < 16, ".0"⟩

/-- Escapes by number are written in small letters. -/
def hexDigit (n : Nat) : Char := Nat.digitChar n

/-- One character of a string. Quotes, backslashes and control characters are escaped. -/
def escapeChar (c : Char) : List Char :=
  if c = '"' then ['\\', '"']
  else if c = '\\' then ['\\', '\\']
  else if 0x20 ≤ c.toNat then [c]
  else if c.toNat = 0x08 then ['\\', 'b']
  else if c.toNat = 0x09 then ['\\', 't']
  else if c.toNat = 0x0a then ['\\', 'n']
  else if c.toNat = 0x0c then ['\\', 'f']
  else if c.toNat = 0x0d then ['\\', 'r']
  else ['\\', 'u', '0', '0', hexDigit (c.toNat / 16), hexDigit (c.toNat % 16)]

def stringText (s : String) : String :=
  "\"" ++ String.ofList (s.toList.flatMap escapeChar) ++ "\""

end Json

namespace Number

/-- The text of a number. A float is written so that it cannot be taken for a whole number. -/
def text : Number → String
  | .whole n => toString n.val
  | .float x => Json.numberLayout.write x

end Number

namespace Value

def boolText (b : Bool) : String := if b then "true" else "false"

mutual

/-- The text of a value on one line, without spaces. -/
def text : Value → String
  | .null => "null"
  | .bool b => boolText b
  | .number n => n.text
  | .string s => Json.stringText s
  | .list items => "[" ++ String.intercalate "," (itemTexts items) ++ "]"
  | .object fields => "\x7b" ++ String.intercalate "," (fieldTexts fields) ++ "\x7d"

def itemTexts : List Value → List String
  | [] => []
  | x :: xs => text x :: itemTexts xs

/-- The texts of fields, names and colons included. -/
def fieldTexts : List (String × Value) → List String
  | [] => []
  | (k, x) :: xs => (Json.stringText k ++ ":" ++ text x) :: fieldTexts xs

end

/-- Parts between brackets, each on a line of its own, two spaces further in than `indent`. -/
def block (indent opening closing : String) (parts : List String) : String :=
  if parts.isEmpty then opening ++ closing
  else
    let inner := "\n" ++ indent ++ "  "
    opening ++ inner ++ String.intercalate ("," ++ inner) parts ++ "\n" ++ indent ++ closing

mutual

/-- The text of a value over several lines, the first of which starts after `indent`. -/
def prettyFrom (indent : String) : Value → String
  | .list items => block indent "[" "]" (prettyItems (indent ++ "  ") items)
  | .object fields => block indent "\x7b" "\x7d" (prettyFields (indent ++ "  ") fields)
  | .null => "null"
  | .bool b => boolText b
  | .number n => n.text
  | .string s => Json.stringText s

def prettyItems (indent : String) : List Value → List String
  | [] => []
  | x :: xs => prettyFrom indent x :: prettyItems indent xs

/-- The texts of fields that stand on lines of their own. A space follows each colon. -/
def prettyFields (indent : String) : List (String × Value) → List String
  | [] => []
  | (k, x) :: xs => (Json.stringText k ++ ": " ++ prettyFrom indent x) :: prettyFields indent xs

end

/-- The text of a value over several lines, as answers show it. -/
def pretty (v : Value) : String := prettyFrom "" v

end Value

end StagedJobs
