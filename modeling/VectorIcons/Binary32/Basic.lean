/-!
# Binary32 numbers

Coordinates are numbers of the 32-bit binary interchange format: one sign bit,
eight exponent bits and twenty-three fraction bits.  A number is kept as its bit
pattern, because a pattern may be written out again and because two patterns of
"not a number" are different values to a writer.

Every finite number is a whole multiple of the least positive one, `2 ^ -149`.
Counting in these *units* turns the finite numbers into integers, so that sums,
products and comparisons are exact before they are rounded.

* `magnitude` is the pattern without its sign bit.  It grows with the absolute
  value, so it orders the numbers.
* `units` is the exact value of a finite number, as a signed count of units.
* `value` sorts a pattern into not-a-number, infinite and finite.
-/

namespace VectorIcons

/-- A number of the 32-bit binary format, as its bit pattern. -/
structure Binary32 where
  bits : UInt32
deriving DecidableEq, Repr

namespace Binary32

/-! ## Fields of the pattern -/

def isNegative (x : Binary32) : Bool := decide (0x80000000 ≤ x.bits.toNat)

/-- The pattern without its sign bit. -/
def magnitude (x : Binary32) : Nat := x.bits.toNat % 0x80000000

/-- The magnitude of the infinities; the magnitudes above it are not numbers. -/
def infiniteMagnitude : Nat := 0x7f800000

/-- The pattern with the given sign and magnitude, for a magnitude that leaves the
sign bit alone. -/
def ofMagnitude (negative : Bool) (magnitude : Nat) : Binary32 :=
  ⟨UInt32.ofNat (if negative then 0x80000000 + magnitude else magnitude)⟩

/-! ## Named numbers -/

/-- The quiet not-a-number that arithmetic produces. -/
def nan : Binary32 := ⟨0x7fc00000⟩

def infinity (negative : Bool) : Binary32 := ofMagnitude negative infiniteMagnitude

def zero (negative : Bool) : Binary32 := ofMagnitude negative 0

instance : Inhabited Binary32 := ⟨zero false⟩

/-! ## The exact value -/

/-- How many units make `1.0`. -/
def unitsPerOne : Nat := 1 <<< 149

/-- The exact number of units at a finite magnitude: the fraction alone when the
exponent field is zero, otherwise the fraction with its hidden bit, doubled once
for each further step of the exponent. -/
def unitsOfMagnitude (magnitude : Nat) : Nat :=
  let exponent := magnitude / 0x800000
  let fraction := magnitude % 0x800000
  if exponent = 0 then fraction else (0x800000 + fraction) <<< (exponent - 1)

def signed (negative : Bool) (amount : Nat) : Int :=
  if negative then -(amount : Int) else amount

/-- What a pattern stands for. -/
inductive Value where
  | notANumber
  | infinite (negative : Bool)
  /-- The number of `units` with a sign, which a zero has too. -/
  | finite (negative : Bool) (units : Nat)
deriving DecidableEq, Repr

/-- What the pattern of `x` stands for. -/
def value (x : Binary32) : Value :=
  if x.magnitude < infiniteMagnitude then
    .finite x.isNegative (unitsOfMagnitude x.magnitude)
  else if x.magnitude = infiniteMagnitude then .infinite x.isNegative
  else .notANumber

def isNaN (x : Binary32) : Bool := decide (infiniteMagnitude < x.magnitude)

def isFinite (x : Binary32) : Bool := decide (x.magnitude < infiniteMagnitude)

/-- The signed number of units of a finite number. -/
def units (x : Binary32) : Int := signed x.isNegative (unitsOfMagnitude x.magnitude)

/-! ## Order

A not-a-number is neither below nor above anything.  The two zeros are equal. -/

/-- The place of a number among all numbers, `none` for a not-a-number. -/
def rank? (x : Binary32) : Option Int :=
  if x.isNaN then none else some (signed x.isNegative x.magnitude)

/-- `x ≤ y`, false if either is a not-a-number. -/
def le (x y : Binary32) : Bool :=
  match x.rank?, y.rank? with
  | some first, some second => decide (first ≤ second)
  | _, _ => false

/-- `x < y`, false if either is a not-a-number. -/
def lt (x y : Binary32) : Bool :=
  match x.rank?, y.rank? with
  | some first, some second => decide (first < second)
  | _, _ => false

/-! ## Small facts about the fields -/

theorem magnitude_lt (x : Binary32) : x.magnitude < 0x80000000 :=
  Nat.mod_lt _ (by decide)

theorem ofMagnitude_magnitude (x : Binary32) :
    ofMagnitude x.isNegative x.magnitude = x := by
  obtain ⟨bits⟩ := x
  have hbound := bits.toNat_lt
  simp only [ofMagnitude, isNegative, magnitude, mk.injEq]
  apply UInt32.toNat_inj.mp
  by_cases hsign : 0x80000000 ≤ bits.toNat
  · simp only [hsign, decide_true, if_true, UInt32.toNat_ofNat']
    omega
  · simp only [hsign, decide_false, Bool.false_eq_true, if_false, UInt32.toNat_ofNat']
    omega

theorem magnitude_ofMagnitude (negative : Bool) {magnitude : Nat}
    (hlt : magnitude < 0x80000000) : (ofMagnitude negative magnitude).magnitude = magnitude := by
  cases negative <;> simp only [ofMagnitude, Binary32.magnitude, UInt32.toNat_ofNat'] <;>
    simp <;> omega

theorem isNegative_ofMagnitude (negative : Bool) {magnitude : Nat}
    (hlt : magnitude < 0x80000000) : (ofMagnitude negative magnitude).isNegative = negative := by
  cases negative <;> simp only [ofMagnitude, isNegative, UInt32.toNat_ofNat'] <;> simp <;> omega

end Binary32
end VectorIcons
