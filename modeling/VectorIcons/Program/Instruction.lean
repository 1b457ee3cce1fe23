import VectorIcons.Color
import VectorIcons.Point

/-!
# Instructions of a drawing program

An instruction is an opcode byte, up to four further bytes that belong to it, and
a number of points that the opcode fixes:

```text
00                   stop
01 r g b a           fill with a color
02 i                 fill with a color of the palette
70 point             begin a shape at a point
71 point             go on with the shape at a point
80 .. 9f points      1 to 32 lines, one point each
a0 .. af points      1 to 16 cubic curves, three points each
b0 .. bf points      1 to 16 quadratic curves, two points each
```

Any other opcode is unknown, and reading ends with it: nothing tells where a next
instruction would begin.

Drawing a program goes through `Cursor.instructions`.  A listing of a program has a
table of opcodes of its own.
-/

namespace VectorIcons

/-! ## Segments -/

inductive SegmentKind where
  | line
  | cubic
  | quadratic
deriving DecidableEq, Repr

namespace SegmentKind

/-- How many points one segment takes. -/
def arity : SegmentKind → Nat
  | .line => 1
  | .cubic => 3
  | .quadratic => 2

/-- The opcode of a single segment; one more segment is one opcode up. -/
def firstOpcode : SegmentKind → Nat
  | .line => 0x80
  | .cubic => 0xa0
  | .quadratic => 0xb0

/-- How many segments one instruction can hold. -/
def maxCount : SegmentKind → Nat
  | .line => 32
  | .cubic => 16
  | .quadratic => 16

end SegmentKind

/-! ## Operations -/

/-- What an instruction does, apart from its points. -/
inductive Operation where
  | stop
  | solidFill (color : Rgba)
  | paletteFill (index : UInt8)
  /-- Moves to a point; `continues` tells whether the shape before goes on. -/
  | moveTo (continues : Bool)
  /-- Draws `count` segments of one kind. -/
  | segments (kind : SegmentKind) (count : Nat)
  | unknown (opcode : UInt8)
deriving DecidableEq, Repr

namespace Operation

def pointCount : Operation → Nat
  | .moveTo _ => 1
  | .segments kind count => count * kind.arity
  | _ => 0

def isUnknown : Operation → Bool
  | .unknown _ => true
  | _ => false

/-- The opcode and the bytes that belong to it, without the points. -/
def bytes : Operation → Bytes
  | .stop => [0x00]
  | .solidFill color => 0x01 :: color.bytes
  | .paletteFill index => [0x02, index]
  | .moveTo continues => [if continues then 0x71 else 0x70]
  | .segments kind count => [UInt8.ofNat (kind.firstOpcode + (count - 1))]
  | .unknown opcode => [opcode]

/-- The operation of an opcode from `0x80` up to `0xbf`, which counts segments. -/
def ofSegmentOpcode (opcode : Nat) : Operation :=
  if opcode < SegmentKind.cubic.firstOpcode then
    .segments .line (opcode - SegmentKind.line.firstOpcode + 1)
  else if opcode < SegmentKind.quadratic.firstOpcode then
    .segments .cubic (opcode - SegmentKind.cubic.firstOpcode + 1)
  else .segments .quadratic (opcode - SegmentKind.quadratic.firstOpcode + 1)

end Operation

/-! ## Instructions -/

/-- An instruction at its place in a program. -/
structure Instruction where
  /-- How many bytes of the program lie before the opcode. -/
  offset : Nat
  /-- The operation, with the opcode and the bytes that belong to it. -/
  operation : Spelled Operation
  /-- The points, each with its bytes. -/
  points : List (Spelled Point)
deriving DecidableEq, Repr

namespace Cursor

def operation (cursor : Cursor) : Operation × Cursor :=
  let (opcode, afterOpcode) := cursor.byte
  if opcode = 0x00 then (.stop, afterOpcode)
  else if opcode = 0x01 then
    let (color, afterColor) := afterOpcode.color
    (.solidFill color, afterColor)
  else if opcode = 0x02 then
    let (index, afterIndex) := afterOpcode.byte
    (.paletteFill index, afterIndex)
  else if opcode = 0x70 then (.moveTo false, afterOpcode)
  else if opcode = 0x71 then (.moveTo true, afterOpcode)
  else if 0x80 ≤ opcode.toNat ∧ opcode.toNat < 0xc0 then
    (.ofSegmentOpcode opcode.toNat, afterOpcode)
  else (.unknown opcode, afterOpcode)

def instruction (cursor : Cursor) : Instruction × Cursor :=
  let (operation, afterOperation) := cursor.spelled Cursor.operation
  let (points, afterPoints) :=
    afterOperation.repeated (fun place => place.spelled Cursor.point) operation.value.pointCount
  (⟨cursor.position, operation, points⟩, afterPoints)

/-! ## Every read moves forward -/

/-- Behind its opcode, an operation only moves forward. -/
theorem reaches_operation_of_byte (cursor : Cursor) :
    Reaches cursor.byte.2 cursor.operation.2 := by
  unfold operation
  dsimp only
  split
  · exact Reaches.refl _
  · split
    · exact reaches_color _
    · split
      · exact reaches_byte _
      · split
        · exact Reaches.refl _
        · split
          · exact Reaches.refl _
          · split
            · exact Reaches.refl _
            · exact Reaches.refl _

/-- Behind its opcode, an instruction only moves forward. -/
theorem reaches_instruction_of_byte (cursor : Cursor) :
    Reaches cursor.byte.2 cursor.instruction.2 :=
  (reaches_operation_of_byte cursor).trans
    (reaches_repeated (fun place => reaches_spelled (reaches_point place)) _ _)

theorem reaches_instruction (cursor : Cursor) : Reaches cursor cursor.instruction.2 :=
  (reaches_byte cursor).trans (reaches_instruction_of_byte cursor)

/-- Before the end, an instruction takes at least its opcode. -/
theorem length_instruction_lt {cursor : Cursor} (hnonempty : cursor.rest ≠ []) :
    cursor.instruction.2.rest.length < cursor.rest.length :=
  Nat.lt_of_le_of_lt (reaches_instruction_of_byte cursor).length_le (length_byte_lt hnonempty)

/-! ## All instructions -/

/-- The instructions up to the end or through the first unknown one, after those
in `earlier`, whose last one comes first. -/
private def instructionsAfter (earlier : List Instruction) (cursor : Cursor) :
    List Instruction × Cursor :=
  if _hend : cursor.rest = [] then (earlier.reverse, cursor)
  else
    let next := cursor.instruction
    if next.1.operation.value.isUnknown then ((next.1 :: earlier).reverse, next.2)
    else instructionsAfter (next.1 :: earlier) next.2
termination_by cursor.rest.length
decreasing_by exact length_instruction_lt _hend

/-- The instructions up to the end or through the first unknown one, and the place
where reading them ended. -/
def instructions (cursor : Cursor) : List Instruction × Cursor :=
  instructionsAfter [] cursor

private theorem instructionsAfter_eq (earlier : List Instruction) (cursor : Cursor) :
    instructionsAfter earlier cursor =
      (earlier.reverse ++ (instructionsAfter [] cursor).1, (instructionsAfter [] cursor).2) := by
  induction hlength : cursor.rest.length using Nat.strongRecOn generalizing earlier cursor with
  | ind length ih =>
      conv => lhs; rw [instructionsAfter]
      conv => rhs; rw [instructionsAfter]
      dsimp only
      split
      · simp
      · rename_i hnonempty
        split
        · simp
        · have hlt : cursor.instruction.2.rest.length < length :=
            hlength ▸ length_instruction_lt hnonempty
          rw [ih _ hlt (cursor.instruction.1 :: earlier) _ rfl,
            ih _ hlt [cursor.instruction.1] _ rfl]
          simp

/-- The instructions are the next one and those after it, unless the end is
reached or the next one is unknown. -/
theorem instructions_eq (cursor : Cursor) :
    cursor.instructions =
      if cursor.rest = [] then ([], cursor)
      else if cursor.instruction.1.operation.value.isUnknown then
        ([cursor.instruction.1], cursor.instruction.2)
      else
        (cursor.instruction.1 :: cursor.instruction.2.instructions.1,
          cursor.instruction.2.instructions.2) := by
  unfold instructions
  conv => lhs; rw [instructionsAfter]
  dsimp only
  split
  · rfl
  · split
    · rfl
    · rw [instructionsAfter_eq]
      rfl

end Cursor
end VectorIcons
