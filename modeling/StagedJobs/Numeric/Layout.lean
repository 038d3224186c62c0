import StagedJobs.Numeric.Shortest

namespace StagedJobs

/-- The decisions a notation makes. A number whose first digit stands for `10 ^ e` is written without
a power of ten when `positional e`; `wholeMark` then follows whole numbers. -/
structure Layout where
  tie : Tie
  positional : Int → Bool
  wholeMark : String

namespace Layout

/-- Bounds in messages are written in full, whatever their size. -/
def plain : Layout := ⟨.up, fun _ => true, ""⟩

private def zeros (n : Nat) : String := String.ofList (List.replicate n '0')

/-- Digits in their places, with zeros between them and the point where they do not reach it. -/
def writePositional (layout : Layout) (s : Significant) : String :=
  let count : Int := s.digits.length
  if s.power ≤ 0 then "0." ++ zeros (-s.power).toNat ++ String.ofList s.digits
  else if s.power < count then
    String.ofList (s.digits.take s.power.toNat) ++ "." ++ String.ofList (s.digits.drop s.power.toNat)
  else String.ofList s.digits ++ zeros (s.power - count).toNat ++ layout.wholeMark

/-- One digit, the others after a point, and a signed power of ten. -/
def writeScientific (s : Significant) : String :=
  let exponent := s.power - 1
  let fraction := s.digits.drop 1
  String.ofList (s.digits.take 1)
    ++ (if fraction.isEmpty then "" else "." ++ String.ofList fraction)
    ++ (if exponent < 0 then "e-" else "e+") ++ toString exponent.natAbs

/-- A magnitude, without a power of ten where the layout says so. -/
def writeMagnitude (layout : Layout) (rank : Nat) : String :=
  if rank = 0 then "0" ++ layout.wholeMark
  else
    let s := shortestDigits layout.tie rank
    if layout.positional (s.power - 1) then layout.writePositional s else writeScientific s

/-- A number under its sign. Minus zero keeps it. -/
def write (layout : Layout) (x : Binary64.Finite) : String :=
  (if x.negative then "-" else "") ++ layout.writeMagnitude x.rank

end Layout

/-- The full text of any number: no power of ten, no point after whole numbers. -/
def Binary64.toText : Binary64 → String
  | .finite x => Layout.plain.write x
  | .infinite negative => if negative then "-inf" else "inf"
  | .nan => "NaN"

end StagedJobs
