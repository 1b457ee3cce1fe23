import VectorIcons.Point

/-!
# Reads in any order

A reader has a cursor, and a buffer for points.  It may read bytes, coordinates and points in any
order.  Many points at once go into the buffer, in place of what it held; the readings are the
same as without a buffer, `pointsInto_eq`.
-/

namespace VectorIcons

/-! ## Points in a buffer -/

namespace Cursor

/-- Puts `count` points behind those in a buffer. -/
def pushPoints : Nat → Array Point → Cursor → Array Point × Cursor
  | 0, buffer, cursor => (buffer, cursor)
  | count + 1, buffer, cursor =>
      let (point, afterPoint) := cursor.point
      pushPoints count (buffer.push point) afterPoint

/-- Puts `count` points into a buffer, in place of what it held. -/
def pointsInto (buffer : Array Point) (count : Nat) (cursor : Cursor) : Array Point × Cursor :=
  pushPoints count (buffer.take 0) cursor

theorem pushPoints_eq (count : Nat) (buffer : Array Point) (cursor : Cursor) :
    pushPoints count buffer cursor =
      (buffer ++ (cursor.points count).1.toArray, (cursor.points count).2) := by
  induction count generalizing buffer cursor with
  | zero => simp [pushPoints, points]
  | succ count ih => simp [pushPoints, points, repeated_succ, ih]

/-- The buffer holds the points that are read, whatever it held before. -/
theorem pointsInto_eq (buffer : Array Point) (count : Nat) (cursor : Cursor) :
    cursor.pointsInto buffer count =
      ((cursor.points count).1.toArray, (cursor.points count).2) := by
  simp [pointsInto, pushPoints_eq]

end Cursor

/-! ## Readers -/

/-- What may be read next. -/
inductive Read where
  | byte
  | coordinate
  | point
  | points (count : Nat)
deriving DecidableEq, Repr

/-- What was read. -/
inductive Reading where
  | byte (value : UInt8)
  | coordinate (value : Binary32)
  | point (value : Point)
  | points (values : List Point)
deriving DecidableEq, Repr

structure Reader where
  cursor : Cursor
  buffer : Array Point

namespace Reader

/-- A reader at the front of `bytes`. -/
def start (bytes : Bytes) (buffer : Array Point) : Reader := ⟨.start bytes, buffer⟩

def read (reader : Reader) : Read → Reading × Reader
  | .byte =>
      let (value, after) := reader.cursor.byte
      (.byte value, { reader with cursor := after })
  | .coordinate =>
      let (value, after) := reader.cursor.coordinate
      (.coordinate value, { reader with cursor := after })
  | .point =>
      let (value, after) := reader.cursor.point
      (.point value, { reader with cursor := after })
  | .points count =>
      let (buffer, after) := reader.cursor.pointsInto reader.buffer count
      (.points buffer.toList, ⟨after, buffer⟩)

theorem read_points (reader : Reader) (count : Nat) :
    reader.read (.points count) =
      (.points (reader.cursor.points count).1,
        ⟨(reader.cursor.points count).2, (reader.cursor.points count).1.toArray⟩) := by
  simp [read, Cursor.pointsInto_eq]

/-- Reads one after another. -/
def readAll (reader : Reader) : List Read → List Reading × Reader
  | [] => ([], reader)
  | read :: others =>
      let (reading, after) := reader.read read
      let (readings, last) := after.readAll others
      (reading :: readings, last)

end Reader
end VectorIcons
