import StagedJobs.Numeric.Decimal

namespace StagedJobs

/-- Whether a minus sign is ahead, and the text behind a sign of either kind. -/
def splitSign : List Char → Bool × List Char
  | '-' :: rest => (true, rest)
  | '+' :: rest => (false, rest)
  | cs => (false, cs)

/-- The number that digits stand for under a sign. -/
def signedValue (negative : Bool) (digits : List Char) : Int :=
  if negative then -(digitsValue digits : Int) else digitsValue digits

/-- The number, if 64 signed bits hold it. -/
def int64? (n : Int) : Option Int64 :=
  if -0x8000_0000_0000_0000 ≤ n ∧ n < 0x8000_0000_0000_0000 then some (Int64.ofInt n) else none

/-- Reads an optional sign and one or more digits as a signed 64-bit integer. -/
def readInt64? (cs : List Char) : Option Int64 :=
  let (negative, digits) := splitSign cs
  if digits.isEmpty || !digits.all Char.isDigit then none
  else int64? (signedValue negative digits)

namespace Decimal

/-- The power of ten at the end of a numeral: zero where there is none. -/
def readPower? : List Char → Option Int
  | [] => some 0
  | c :: rest =>
    let (negative, digits) := splitSign rest
    if (c = 'e' || c = 'E') && !digits.isEmpty && digits.all Char.isDigit then
      some (signedValue negative digits)
    else none

/-- The digits behind a point, and the text behind them. The point may have no digits. -/
def spanFraction : List Char → List Char × List Char
  | '.' :: rest => spanDigits rest
  | cs => ([], cs)

/-- A decimal with digits on at least one side of its point. -/
def read? (negative : Bool) (cs : List Char) : Option Decimal :=
  let (whole, rest) := spanDigits cs
  let (fraction, rest) := spanFraction rest
  if whole.isEmpty && fraction.isEmpty then none
  else (readPower? rest).map (ofDigits negative whole fraction)

end Decimal

/-- Reads a binary64 number: a word for infinity or for what is not a number, in any case, or the
number nearest to a decimal in one of the forms `5`, `5.`, `.5` and `1e3`, each with an optional
sign. -/
def readBinary64? (cs : List Char) : Option Binary64 :=
  let (negative, rest) := splitSign cs
  let word := String.ofList (rest.map Char.toLower)
  if word = "inf" || word = "infinity" then some (.infinite negative)
  else if word = "nan" then some .nan
  else (Decimal.read? negative rest).map Decimal.toBinary64

/-- The whole number that a finite binary64 number is, if it is one of signed 64 bits. -/
def Binary64.toInt64? : Binary64 → Option Int64
  | .finite x => x.toInt?.bind int64?
  | _ => none

end StagedJobs
