/-!
Binary64 floating-point numbers as exact data.

The finite magnitudes, in ascending order, are numbered from zero: rank 0 is zero, rank 1 the least
positive magnitude, and the rank after the greatest finite one stands for infinity. The order of
magnitudes is then the order of ranks, and rounding a quotient is one division in units of
`2 ^ -1074`.
-/

namespace StagedJobs

/-- The quotient rounded to the nearest whole number; of two equally near ones the even one. -/
def divHalfEven (num den : Nat) : Nat :=
  let quotient := num / den
  let twice := 2 * (num % den)
  if twice < den then quotient
  else if twice = den then quotient + quotient % 2
  else quotient + 1

namespace Binary64

/-- The rank after that of the greatest finite magnitude, with an exponent of all ones. -/
def infinityRank : Nat := 2047 <<< 52

/-- How many units of `2 ^ -1074` make up one. -/
def unitsPerOne : Nat := 1 <<< 1074

/-- By how many places the significand of a rank is shifted to the left. -/
def shift (rank : Nat) : Nat := (rank >>> 52) - 1

/-- The magnitude of a rank, in units of `2 ^ -1074`. -/
def units (rank : Nat) : Nat := (rank - (shift rank <<< 52)) <<< shift rank

/-- The rank of the magnitude nearest to `num / den`, ties to even. The shift is the least one that
leaves a significand of at most 53 bits; a significand that rounds up to `2 ^ 53` is the first of
the next shift. -/
def rankOfRatio (num den : Nat) : Nat :=
  let scaled := num * unitsPerOne
  let shift := (scaled / den).log2 - 52
  (shift <<< 52) + divHalfEven scaled (den <<< shift)

/-- The rank nearest to the product of two magnitudes. -/
def productRank (r s : Nat) : Nat := rankOfRatio (units r * units s) (unitsPerOne * unitsPerOne)

/-- The rank nearest to the quotient of two magnitudes, of which the second is not zero. -/
def quotientRank (r s : Nat) : Nat := rankOfRatio (units r) (units s)

/-- A finite number: a sign and a rank below infinity's. Zero keeps its sign. -/
structure Finite where
  negative : Bool
  rank : Nat
  rank_lt : rank < infinityRank
deriving DecidableEq

namespace Finite

def zero : Finite := ⟨false, 0, by decide⟩

/-- The place of a number in the order of all numbers; both zeros share one place. -/
def place (x : Finite) : Int := if x.negative then -(x.rank : Int) else x.rank

/-- The whole number that `x` is, if it is one. -/
def toInt? (x : Finite) : Option Int :=
  if units x.rank % unitsPerOne = 0 then
    let magnitude : Int := (units x.rank / unitsPerOne : Nat)
    some (if x.negative then -magnitude else magnitude)
  else none

end Finite

end Binary64

/-- A binary64 number. -/
inductive Binary64 where
  | finite (x : Binary64.Finite)
  | infinite (negative : Bool)
  | nan
deriving DecidableEq

namespace Binary64

/-- The number of a sign and a rank; ranks from infinity's on are infinite. -/
def ofRank (negative : Bool) (rank : Nat) : Binary64 :=
  if h : rank < infinityRank then .finite ⟨negative, rank, h⟩ else .infinite negative

/-- The number nearest to `num / den`. -/
def ofRatio (negative : Bool) (num den : Nat) : Binary64 := ofRank negative (rankOfRatio num den)

/-- The number nearest to a whole one. -/
def ofInt (n : Int) : Binary64 := ofRatio (n < 0) n.natAbs 1

/-- The place in the order of all numbers; what is not a number has none. -/
def place? : Binary64 → Option Int
  | .finite x => some x.place
  | .infinite true => some (-(infinityRank : Int))
  | .infinite false => some infinityRank
  | .nan => none

/-- Whether the first number is below the second. What is not a number is neither below nor above
any other. -/
def less (x y : Binary64) : Bool :=
  match x.place?, y.place? with
  | some a, some b => a < b
  | _, _ => false

/-- Whether both are numbers of one value; the two zeros are. -/
def same (x y : Binary64) : Bool :=
  match x.place?, y.place? with
  | some a, some b => a = b
  | _, _ => false

theorem less_nan_right (x : Binary64) : x.less .nan = false := by
  unfold less
  split <;> simp_all [place?]

theorem less_nan_left (x : Binary64) : Binary64.nan.less x = false := rfl

end Binary64

end StagedJobs
