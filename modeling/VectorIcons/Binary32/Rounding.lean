import VectorIcons.Binary32.Basic

/-!
# Rounding to the nearest binary32 number

An exact result is a quotient `numerator / denominator` of units.  It is rounded
to the nearest number, a tie going to the even pattern, and to an infinity when
no finite number is near.

## Strategy

A magnitude with shift `s` (the exponent field less one, or zero) counts steps of
`2 ^ s` units, and the magnitudes with their steps put side by side form one
sequence: the last step of one shift is the first of the next.  So it is enough
to choose the shift at which the quotient has at most twenty-four bits, to round
the quotient of that many units to a whole number of steps, and to add the
`s * 2 ^ 23` magnitudes that lie below.  A carry out of the twenty-four bits
needs no case of its own.
-/

namespace VectorIcons

/-- The whole number nearest to `numerator / denominator`, a half going to the
even neighbour. -/
def roundHalfEven (numerator denominator : Nat) : Nat :=
  let quotient := numerator / denominator
  let remainder := numerator % denominator
  if 2 * remainder < denominator then quotient
  else if denominator < 2 * remainder then quotient + 1
  else quotient + quotient % 2

namespace Binary32

/-- The magnitude nearest to `numerator / denominator` units. -/
def nearestMagnitude (numerator denominator : Nat) : Nat :=
  let shift := (numerator / denominator).log2 - 23
  min (shift * 0x800000 + roundHalfEven numerator (denominator <<< shift)) infiniteMagnitude

/-- The number of the given sign nearest to `numerator / denominator` units. -/
def rounded (negative : Bool) (numerator denominator : Nat) : Binary32 :=
  ofMagnitude negative (nearestMagnitude numerator denominator)

/-- The number nearest to a signed count of units; a count of zero takes the sign
`negativeZero`. -/
def ofUnits (negativeZero : Bool) (units : Int) : Binary32 :=
  if units = 0 then zero negativeZero else rounded (decide (units < 0)) units.natAbs 1

/-- The number nearest to an integer. -/
def ofInt (i : Int) : Binary32 := ofUnits false (i * unitsPerOne)

end Binary32
end VectorIcons
