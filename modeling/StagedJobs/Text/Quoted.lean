import StagedJobs.Text.Chars
import StagedJobs.Text.UnprintableRanges

namespace StagedJobs.Text

def hexDigits (n : Nat) : String := String.ofList (Nat.toDigits 16 n)

def isUnprintable (c : Char) : Bool :=
  if c.toNat < 128 then c.toNat < 0x20 || c.toNat = 0x7f else within unprintableRanges c

def quoteChar (c : Char) : String :=
  if c = '\t' then "\\t"
  else if c = '\n' then "\\n"
  else if c = '\r' then "\\r"
  else if c.toNat = 0 then "\\0"
  else if c = '"' || c = '\\' then String.ofList ['\\', c]
  else if isUnprintable c then "\\u\x7b" ++ hexDigits c.toNat ++ "\x7d"
  else c.toString

/-- File names as messages show them: between double quotes, with the double quote, the backslash
and every character without a glyph escaped. -/
def quoted (s : String) : String :=
  "\"" ++ String.join (s.toList.map quoteChar) ++ "\""

end StagedJobs.Text
