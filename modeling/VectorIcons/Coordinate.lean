import VectorIcons.Binary32.Arithmetic
import VectorIcons.Cursor

/-!
# Coordinates

A coordinate takes one, two or four bytes.  The two low bits of its first byte
tell its form:

```text
xxxxxxx1   one byte     a whole number from -64 to 63
xxxxxx10   two bytes    sixty-fourths from -128 up to 128, low byte first
xxxxxx00   four bytes   the bits of a binary32 number, low byte first
```

Reading never fails.  Bytes that are missing at the end count as zero, and a
coordinate at the very end is `0.0` and takes no byte.  `Cursor.hasCoordinate`
tells whether the next coordinate is there in full.

Writing picks the shortest form whose rounding error stays within a precision.
Error and bounds are computed in binary32.
-/

namespace VectorIcons

/-! ## Forms -/

/-- The three ways to write a coordinate. -/
inductive CoordinateForm where
  | whole
  | sixtyFourths
  | full
deriving DecidableEq, Repr

namespace CoordinateForm

/-- The form that the first byte of a coordinate tells. -/
def ofByte (first : UInt8) : CoordinateForm :=
  if first.toNat % 2 = 1 then .whole
  else if first.toNat / 2 % 2 = 1 then .sixtyFourths
  else .full

def width : CoordinateForm → Nat
  | .whole => 1
  | .sixtyFourths => 2
  | .full => 4

theorem width_pos (form : CoordinateForm) : 0 < form.width := by
  cases form <;> decide

end CoordinateForm

namespace Coordinate

/-- How many steps of the two-byte form make `1.0`. -/
def stepsPerOne : Binary32 := Binary32.ofInt 64

/-! ## The value of the bytes -/

def ofWholeByte (byte : UInt8) : Binary32 :=
  Binary32.ofInt ((byte.toNat / 2 : Nat) - 64)

def ofSixtyFourthsWord (word : UInt16) : Binary32 :=
  Binary32.ofInt ((word.toNat / 4 : Nat) - 8192) / stepsPerOne

def ofFullWord (word : UInt32) : Binary32 := ⟨word⟩

/-! ## Writing -/

/-- `number` as a one-byte coordinate. -/
def wholeBytes (number : Int) : Bytes :=
  [UInt8.ofNat (2 * (number + 64).toNat + 1)]

/-- `number` sixty-fourths as a two-byte coordinate. -/
def sixtyFourthsBytes (number : Int) : Bytes :=
  littleEndian16 (UInt16.ofNat (4 * (number + 8192).toNat + 2))

/-- The bits of `x` as a four-byte coordinate.  The two low bits tell the form, so
they are lost. -/
def fullBytes (x : Binary32) : Bytes :=
  littleEndian32 (UInt32.ofNat (x.bits.toNat / 4 * 4))

/-- Whether `approximation` is within `precision` of `x` and lies from `-bound` up
to, and not including, `bound`. -/
def represents (approximation x precision : Binary32) (bound : Int) : Bool :=
  (x - approximation).abs.le precision && (Binary32.ofInt (-bound)).le approximation &&
    approximation.lt (Binary32.ofInt bound)

/-- The nearest whole multiple of one sixty-fourth. -/
def nearestSixtyFourth (x : Binary32) : Binary32 :=
  (x * stepsPerOne).round / stepsPerOne

/-- The bytes of `x`, in the shortest form that is within `precision` of it. -/
def encode (precision x : Binary32) : Bytes :=
  if represents x.round x precision 64 then wholeBytes x.round.truncate
  else if represents (nearestSixtyFourth x) x precision 128 then
    sixtyFourthsBytes (nearestSixtyFourth x * stepsPerOne).truncate
  else fullBytes x

end Coordinate

/-! ## Reading -/

namespace Cursor

/-- Whether the next coordinate lies before the end in full. -/
def hasCoordinate (cursor : Cursor) : Bool :=
  match cursor.rest with
  | [] => false
  | first :: _ => decide ((CoordinateForm.ofByte first).width ≤ cursor.rest.length)

def coordinate (cursor : Cursor) : Binary32 × Cursor :=
  if cursor.atEnd then (Binary32.zero false, cursor)
  else
    let (first, afterFirst) := cursor.byte
    match CoordinateForm.ofByte first with
    | .whole => (Coordinate.ofWholeByte first, afterFirst)
    | .sixtyFourths =>
        let (second, afterSecond) := afterFirst.byte
        (Coordinate.ofSixtyFourthsWord (word16 [first, second]), afterSecond)
    | .full =>
        let (second, afterSecond) := afterFirst.byte
        let (third, afterThird) := afterSecond.byte
        let (fourth, afterFourth) := afterThird.byte
        (Coordinate.ofFullWord (word32 [first, second, third, fourth]), afterFourth)

theorem reaches_coordinate (cursor : Cursor) : Reaches cursor cursor.coordinate.2 := by
  have hfirst := reaches_byte cursor
  have hsecond := hfirst.trans (reaches_byte _)
  have hfourth := (hsecond.trans (reaches_byte _)).trans (reaches_byte _)
  unfold coordinate
  split
  · exact Reaches.refl cursor
  · dsimp only
    split
    · exact hfirst
    · exact hsecond
    · exact hfourth

end Cursor
end VectorIcons
