import StagedJobs.Numeric.Decimal

namespace StagedJobs

/-- Which of two equally near decimals is taken. -/
inductive Tie where
  | up
  | even
deriving DecidableEq

/-- Significant digits after a point, and the power of ten that scales them: the digits `25` with the
power 3 are `0.25 * 10 ^ 3`. -/
structure Significant where
  digits : List Char
  power : Int
deriving DecidableEq

namespace Significant

/-- The digits of `coefficient * 10 ^ exponent`, without the zeros at their end. -/
def ofDecimal (coefficient : Nat) (exponent : Int) : Significant :=
  let digits := Nat.toDigits 10 coefficient
  ⟨(digits.reverse.dropWhile (· = '0')).reverse, exponent + digits.length⟩

end Significant

namespace Shortest

/-- The power of ten just above a positive magnitude: the magnitude is below it and at least a tenth
of it. -/
def powerAbove (rank : Nat) : Int :=
  let units := Binary64.units rank
  if Binary64.unitsPerOne ≤ units then digitCount (units / Binary64.unitsPerOne)
  else 1 - digitCount (Binary64.unitsPerOne / units)

/-- A magnitude over `10 ^ exponent`, as a quotient of whole numbers. -/
def quotient (rank : Nat) (exponent : Int) : Nat × Nat :=
  let units := Binary64.units rank
  if 0 ≤ exponent then (units, Binary64.unitsPerOne * Nat.pow 10 exponent.toNat)
  else (units * Nat.pow 10 (-exponent).toNat, Binary64.unitsPerOne)

/-- The nearer of the two multiples of `10 ^ exponent` around the magnitude. -/
def nearest (tie : Tie) (rank : Nat) (exponent : Int) : Nat :=
  let (num, den) := quotient rank exponent
  let below := num / den
  let twice := 2 * (num % den)
  if twice < den then below
  else if den < twice then below + 1
  else match tie with
    | .up => below + 1
    | .even => below + below % 2

/-- The coefficient of the multiple of `10 ^ exponent` that reads back, if one does; of two that do,
the nearer. -/
def readingBack? (tie : Tie) (rank : Nat) (exponent : Int) : Option Nat :=
  let (num, den) := quotient rank exponent
  let below := num / den
  let readsBack (coefficient : Nat) : Bool := Decimal.rank coefficient exponent = rank
  match readsBack below, readsBack (below + 1) with
  | true, true => some (nearest tie rank exponent)
  | true, false => some below
  | false, true => some (below + 1)
  | false, false => none

/-- Tries coarser grids of decimals before finer ones. Seventeen digits always read back. -/
def search (tie : Tie) (rank : Nat) (exponent : Int) : Nat → Significant
  | 0 => .ofDecimal (nearest tie rank exponent) exponent
  | finer + 1 =>
    match readingBack? tie rank exponent with
    | some coefficient => .ofDecimal coefficient exponent
    | none => search tie rank (exponent - 1) finer

end Shortest

/-- The fewest digits that read back as a positive magnitude, and of those the nearest. -/
def shortestDigits (tie : Tie) (rank : Nat) : Significant :=
  Shortest.search tie rank (Shortest.powerAbove rank - 1) 16

end StagedJobs
