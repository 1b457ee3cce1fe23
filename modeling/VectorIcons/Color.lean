import VectorIcons.Cursor

/-!
# Colors

A color has four bytes, red, green, blue and opacity, with the first three not
multiplied by the fourth.
-/

namespace VectorIcons

structure Rgba where
  red : UInt8
  green : UInt8
  blue : UInt8
  alpha : UInt8
deriving DecidableEq, Repr

namespace Rgba

def bytes (color : Rgba) : Bytes := [color.red, color.green, color.blue, color.alpha]

end Rgba

namespace Cursor

def color (cursor : Cursor) : Rgba × Cursor :=
  let (red, afterRed) := cursor.byte
  let (green, afterGreen) := afterRed.byte
  let (blue, afterBlue) := afterGreen.byte
  let (alpha, afterAlpha) := afterBlue.byte
  (⟨red, green, blue, alpha⟩, afterAlpha)

theorem reaches_color (cursor : Cursor) : Reaches cursor cursor.color.2 :=
  (((reaches_byte cursor).trans (reaches_byte _)).trans (reaches_byte _)).trans (reaches_byte _)

end Cursor
end VectorIcons
