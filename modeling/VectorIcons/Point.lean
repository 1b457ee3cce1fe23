import VectorIcons.Coordinate

/-!
# Points

A point is two coordinates, the horizontal one first.  A quadratic curve is also
a cubic curve; `raiseDegree` gives its control points, with each step rounded in
binary32.
-/

namespace VectorIcons

structure Point where
  x : Binary32
  y : Binary32
deriving DecidableEq, Repr

namespace Point

/-- The bytes of a point, each coordinate within `precision`. -/
def encode (precision : Binary32) (point : Point) : Bytes :=
  Coordinate.encode precision point.x ++ Coordinate.encode precision point.y

/-- The point that lies the part `fraction` of the way from one point to
another. -/
def interpolate (start finish : Point) (fraction : Binary32) : Point :=
  ⟨start.x + fraction * (finish.x - start.x), start.y + fraction * (finish.y - start.y)⟩

def twoThirds : Binary32 := Binary32.ofInt 2 / Binary32.ofInt 3

/-- The two control points and the end of the cubic curve that runs like the
quadratic curve from `start` over `control` to `finish`. -/
def raiseDegree (start control finish : Point) : List Point :=
  [start.interpolate control twoThirds, finish.interpolate control twoThirds, finish]

end Point

namespace Cursor

def point (cursor : Cursor) : Point × Cursor :=
  let (x, afterX) := cursor.coordinate
  let (y, afterY) := afterX.coordinate
  (⟨x, y⟩, afterY)

def points (count : Nat) (cursor : Cursor) : List Point × Cursor :=
  cursor.repeated point count

theorem reaches_point (cursor : Cursor) : Reaches cursor cursor.point.2 :=
  (reaches_coordinate cursor).trans (reaches_coordinate _)

end Cursor
end VectorIcons
