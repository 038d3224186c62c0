import StagedJobs.Numeric.Binary64

namespace StagedJobs

def digitValue (c : Char) : Nat := c.toNat - '0'.toNat

/-- The number that digits stand for, the first one being the most significant. -/
def digitsValue (digits : List Char) : Nat :=
  digits.foldl (fun n c => 10 * n + digitValue c) 0

/-- How many digits a number is written with. Zero is written with one. -/
def digitCount (n : Nat) : Nat := (Nat.toDigits 10 n).length

/-- The digits ahead, and the text behind them. -/
def spanDigits (cs : List Char) : List Char × List Char := cs.span Char.isDigit

/-- The number `coefficient * 10 ^ exponent` under a sign. -/
structure Decimal where
  negative : Bool
  coefficient : Nat
  exponent : Int
deriving DecidableEq

namespace Decimal

/-- The decimal with these digits before the point, these after it, and this power of ten. -/
def ofDigits (negative : Bool) (whole fraction : List Char) (power : Int) : Decimal :=
  ⟨negative, digitsValue (whole ++ fraction), power - fraction.length⟩

/-- The rank of the binary64 magnitude nearest to `coefficient * 10 ^ exponent`. -/
def rank (coefficient : Nat) (exponent : Int) : Nat :=
  if 0 ≤ exponent then Binary64.rankOfRatio (coefficient * Nat.pow 10 exponent.toNat) 1
  else Binary64.rankOfRatio coefficient (Nat.pow 10 (-exponent).toNat)

/-- The nearest binary64 number. Magnitudes of `10 ^ 310` and more are infinite and those below
`10 ^ -330` are zero, whatever their digits. -/
def toBinary64 (d : Decimal) : Binary64 :=
  let order := digitCount d.coefficient + d.exponent
  if d.coefficient = 0 || order < -330 then .ofRank d.negative 0
  else if 310 < order then .infinite d.negative
  else .ofRank d.negative (rank d.coefficient d.exponent)

end Decimal

end StagedJobs
