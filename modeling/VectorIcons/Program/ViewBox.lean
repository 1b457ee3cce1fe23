import VectorIcons.Point

/-!
# View boxes

A program begins with four coordinates, the bounds of the part of the plane that
the icon shows.  `Cursor.viewBox?` reads them only if all four are there in full.
-/

namespace VectorIcons

/-- The part of the plane that an icon shows. -/
structure ViewBox where
  xMin : Binary32
  yMin : Binary32
  xMax : Binary32
  yMax : Binary32
deriving DecidableEq, Repr

/-- The bytes of a view box, each bound within `precision`. -/
def ViewBox.encode (precision : Binary32) (box : ViewBox) : Bytes :=
  [box.xMin, box.yMin, box.xMax, box.yMax].flatMap (Coordinate.encode precision)

namespace Cursor

/-- The next coordinate, if it is there in full. -/
def coordinate? (cursor : Cursor) : Option (Binary32 × Cursor) :=
  if cursor.hasCoordinate then some cursor.coordinate else none

/-- The next four coordinates as a view box, if all are there in full. -/
def viewBox? (cursor : Cursor) : Option (ViewBox × Cursor) := do
  let (xMin, afterXMin) ← cursor.coordinate?
  let (yMin, afterYMin) ← afterXMin.coordinate?
  let (xMax, afterXMax) ← afterYMin.coordinate?
  let (yMax, afterYMax) ← afterXMax.coordinate?
  some (⟨xMin, yMin, xMax, yMax⟩, afterYMax)

/-- A view box is four coordinates, each there in full. -/
theorem viewBox?_eq_some_iff {cursor place : Cursor} {box : ViewBox} :
    cursor.viewBox? = some (box, place) ↔
      ∃ afterXMin afterYMin afterXMax,
        cursor.coordinate? = some (box.xMin, afterXMin) ∧
          afterXMin.coordinate? = some (box.yMin, afterYMin) ∧
          afterYMin.coordinate? = some (box.xMax, afterXMax) ∧
          afterXMax.coordinate? = some (box.yMax, place) := by
  simp only [viewBox?, Option.bind_eq_bind, Option.bind_eq_some_iff, Prod.exists]
  constructor
  · rintro ⟨xMin, afterXMin, hxMin, yMin, afterYMin, hyMin, xMax, afterXMax, hxMax, yMax, afterYMax,
      hyMax, hplace⟩
    cases hplace
    exact ⟨afterXMin, afterYMin, afterXMax, hxMin, hyMin, hxMax, hyMax⟩
  · rintro ⟨afterXMin, afterYMin, afterXMax, hxMin, hyMin, hxMax, hyMax⟩
    exact ⟨_, _, hxMin, _, _, hyMin, _, _, hxMax, _, _, hyMax, rfl⟩

end Cursor
end VectorIcons
