import StagedJobs.Json.Value
import StagedJobs.Numeric.Reading
import StagedJobs.Text.Chars

namespace StagedJobs.Json

/-- How deep lists and objects may nest. -/
def maxDepth : Nat := 127

/-- The four characters that may stand around the parts of a text. -/
def isSpace (c : Char) : Bool := c = ' ' || c = '\t' || c = '\n' || c = '\r'

def skipSpace (cs : List Char) : List Char := cs.dropWhile isSpace

/-- The value of a hexadecimal digit, in either case. -/
def hexValue? (c : Char) : Option Nat :=
  if c.isDigit then some (c.toNat - '0'.toNat)
  else if 'a' ≤ c && c ≤ 'f' then some (c.toNat - 'a'.toNat + 10)
  else if 'A' ≤ c && c ≤ 'F' then some (c.toNat - 'A'.toNat + 10)
  else none

def readUnit? : List Char → Option (Nat × List Char)
  | a :: b :: c :: d :: rest => do
    let a ← hexValue? a
    let b ← hexValue? b
    let c ← hexValue? c
    let d ← hexValue? d
    some (((a * 16 + b) * 16 + c) * 16 + d, rest)
  | _ => none

/-- The character of an escape by number. A high surrogate needs the low one after it, and a low one
never stands alone. -/
def readCodePoint? (cs : List Char) : Option (Char × List Char) := do
  let (unit, rest) ← readUnit? cs
  if 0xd800 ≤ unit && unit < 0xdc00 then
    match rest with
    | '\\' :: 'u' :: rest =>
      let (low, rest) ← readUnit? rest
      if 0xdc00 ≤ low && low < 0xe000 then
        some (Char.ofNat (0x10000 + (unit - 0xd800) * 0x400 + (low - 0xdc00)), rest)
      else none
    | _ => none
  else if 0xdc00 ≤ unit && unit < 0xe000 then none
  else some (Char.ofNat unit, rest)

/-- The character that what is behind a backslash stands for. -/
def readEscape? : List Char → Option (Char × List Char)
  | '"' :: rest => some ('"', rest)
  | '\\' :: rest => some ('\\', rest)
  | '/' :: rest => some ('/', rest)
  | 'b' :: rest => some (Char.ofNat 0x08, rest)
  | 'f' :: rest => some (Char.ofNat 0x0c, rest)
  | 'n' :: rest => some ('\n', rest)
  | 'r' :: rest => some ('\r', rest)
  | 't' :: rest => some ('\t', rest)
  | 'u' :: rest => readCodePoint? rest
  | _ => none

/-- The characters of a string up to its closing quote, of which there are at most `steps`. -/
def readChars? : Nat → List Char → Option (List Char × List Char)
  | 0, _ => none
  | _ + 1, [] => none
  | _ + 1, '"' :: rest => some ([], rest)
  | steps + 1, '\\' :: rest => do
    let (c, rest) ← readEscape? rest
    let (s, rest) ← readChars? steps rest
    some (c :: s, rest)
  | steps + 1, c :: rest => do
    if c.toNat < 0x20 then none
    let (s, rest) ← readChars? steps rest
    some (c :: s, rest)

def readString? (steps : Nat) : List Char → Option (String × List Char)
  | '"' :: rest => do
    let (s, rest) ← readChars? steps rest
    some (String.ofList s, rest)
  | _ => none

/-- The digits behind a point, of which there has to be one at least. Without a point there are
none. -/
def readFraction? : List Char → Option (Option (List Char) × List Char)
  | '.' :: rest =>
    let (digits, rest) := spanDigits rest
    if digits.isEmpty then none else some (some digits, rest)
  | cs => some (none, cs)

def readPowerDigits? (negative : Bool) (cs : List Char) : Option (Option Int × List Char) :=
  let (digits, rest) := spanDigits cs
  if digits.isEmpty then none else some (some (signedValue negative digits), rest)

/-- The power of ten at the end of a numeral, if there is one. -/
def readPower? : List Char → Option (Option Int × List Char)
  | c :: rest =>
    if c = 'e' || c = 'E' then
      match rest with
      | '-' :: rest => readPowerDigits? true rest
      | '+' :: rest => readPowerDigits? false rest
      | rest => readPowerDigits? false rest
    else some (none, c :: rest)
  | [] => some (none, [])

/-- The rank of the magnitude nearest to `10 ^ exponent`. -/
def powerOfTen (exponent : Nat) : Nat := Binary64.rankOfRatio (Nat.pow 10 exponent) 1

/-- Takes digits into a significand for as long as it fits in 64 bits. The digits from the first one that
does not fit are left. -/
def gather (significand : Nat) : List Char → Nat × List Char
  | [] => (significand, [])
  | c :: rest =>
    let next := 10 * significand + digitValue c
    if next < 0x1_0000_0000_0000_0000 then gather next rest else (significand, c :: rest)

/-- The significand of a numeral, and the power of ten that it is to be scaled by. A digit in front of
the point that does not fit counts as a zero, and one behind it is left out. -/
def significand (whole fraction : List Char) : Nat × Int :=
  let (kept, left) := gather 0 whole
  let (kept, dropped) := gather kept fraction
  (kept, (left.length : Int) - (fraction.length - dropped.length : Nat))

/-- Divides a magnitude by `10 ^ 308` over and over, until nothing is left of it. -/
def lower (rank : Nat) : Nat → Nat
  | 0 => rank
  | steps + 1 => if rank = 0 then 0 else lower (Binary64.quotientRank rank (powerOfTen 308)) steps

/-- A magnitude times a power of ten, rounded once more, unless it is too great for a finite one. The
powers of ten go no further than `10 ^ 308`, so division by a greater one takes several steps. -/
def scale? (rank : Nat) (exponent : Int) : Option Nat :=
  if 308 < exponent then if rank = 0 then some 0 else none
  else if 0 ≤ exponent then
    let scaled := Binary64.productRank rank (powerOfTen exponent.toNat)
    if scaled < Binary64.infinityRank then some scaled else none
  else
    let power := (-exponent).toNat
    let steps := (power - 1) / 308
    some (Binary64.quotientRank (lower rank steps) (powerOfTen (power - 308 * steps)))

/-- The number that a numeral with a point or a power of ten stands for: its significand is rounded
first, and then what comes of scaling that. -/
def floatNumber? (negative : Bool) (whole fraction : List Char) (power : Int) : Option Number := do
  let (significand, exponent) := significand whole fraction
  let rank ← scale? (Binary64.rankOfRatio significand 1) (exponent + power)
  if h : rank < Binary64.infinityRank then some (.float ⟨negative, rank, h⟩) else none

/-- The whole number that digits under a sign stand for, where 64 bits hold it. Minus zero is not one. -/
def wholeValue? (negative : Bool) (digits : List Char) : Option Whole :=
  if negative && digitsValue digits = 0 then none else Whole.ofInt? (signedValue negative digits)

/-- The number that digits stand for, without a point and a power of ten. -/
def wholeNumber? (negative : Bool) (digits : List Char) : Option Number :=
  match wholeValue? negative digits with
  | some n => some (.whole n)
  | none => floatNumber? negative digits [] 0

/-- The number behind a sign. Digits before the point start with a zero only if it is alone. -/
def readMagnitude? (negative : Bool) (cs : List Char) : Option (Number × List Char) := do
  let (whole, rest) := spanDigits cs
  if whole.isEmpty || (whole.head? = some '0' && 1 < whole.length) then none
  let (fraction, rest) ← readFraction? rest
  let (power, rest) ← readPower? rest
  let n ←
    if fraction.isNone && power.isNone then wholeNumber? negative whole
    else floatNumber? negative whole (fraction.getD []) (power.getD 0)
  some (n, rest)

def readLeaf? (steps : Nat) : List Char → Option (Value × List Char)
  | 'n' :: rest => do some (.null, ← Text.afterWord? "ull" rest)
  | 't' :: rest => do some (.bool true, ← Text.afterWord? "rue" rest)
  | 'f' :: rest => do some (.bool false, ← Text.afterWord? "alse" rest)
  | '"' :: rest => do
    let (s, rest) ← readString? steps ('"' :: rest)
    some (.string s, rest)
  | '-' :: rest => do
    let (n, rest) ← readMagnitude? true rest
    some (.number n, rest)
  | cs => do
    let (n, rest) ← readMagnitude? false cs
    some (.number n, rest)

/-- One or more items separated by commas, at most `steps` of them, and the closing bracket. -/
def readItems? {α : Type} (closing : Char) (item : List Char → Option (α × List Char)) :
    Nat → List Char → Option (List α × List Char)
  | 0, _ => none
  | steps + 1, cs => do
    let (x, rest) ← item (skipSpace cs)
    match skipSpace rest with
    | [] => none
    | c :: rest =>
      if c = ',' then
        let (xs, rest) ← readItems? closing item steps rest
        some (x :: xs, rest)
      else if c = closing then some ([x], rest)
      else none

/-- Items between brackets, from behind the opening one. -/
def readSequence? {α : Type} (steps : Nat) (closing : Char)
    (item : List Char → Option (α × List Char)) (cs : List Char) : Option (List α × List Char) :=
  match skipSpace cs with
  | [] => none
  | c :: rest =>
    if c = closing then some ([], rest) else readItems? closing item steps (c :: rest)

/-- A name, a colon and a value. -/
def readField? (steps : Nat) (value : List Char → Option (Value × List Char)) (cs : List Char) :
    Option ((String × Value) × List Char) := do
  let (name, rest) ← readString? steps cs
  match skipSpace rest with
  | ':' :: rest =>
    let (v, rest) ← value (skipSpace rest)
    some ((name, v), rest)
  | _ => none

/-- A value in which lists and objects nest at most `depth` deep and no string, list or object has more
than `steps` parts. -/
def readValue? (steps : Nat) : Nat → List Char → Option (Value × List Char)
  | depth + 1, '[' :: rest => do
    let (items, rest) ← readSequence? steps ']' (readValue? steps depth) rest
    some (.list items, rest)
  | depth + 1, '\x7b' :: rest => do
    let (fields, rest) ← readSequence? steps '\x7d' (readField? steps (readValue? steps depth)) rest
    some (.object (KeyMap.ofList fields).entries, rest)
  | _, cs => readLeaf? steps cs

end StagedJobs.Json

namespace StagedJobs

/-- The value that a whole text stands for. Of fields of one name the last counts. -/
def Value.ofText? (s : String) : Option Value := do
  let cs := s.toList
  let (v, rest) ← Json.readValue? (cs.length + 1) Json.maxDepth (Json.skipSpace cs)
  if (Json.skipSpace rest).isEmpty then some v else none

end StagedJobs
