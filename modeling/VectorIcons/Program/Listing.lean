import VectorIcons.Binary32.FixedPlaces
import VectorIcons.Program.Instruction
import VectorIcons.Text.Columns
import VectorIcons.Text.Hex

/-!
# Listing a program

A listing shows every byte of a program once, in order, with what it means: first
the two points of the view box, then each opcode followed by its points.  It goes on
behind a stop, and it does not ask whether the view box is there in full.  Behind an
invalid opcode nothing can be told apart, so the bytes from there on follow in rows of
eight.

A listing reads the program by itself: `Cursor.mnemonic` has a table of opcodes of its
own, beside that of `Cursor.operation`.

A line has the bytes in hexadecimal in its first twenty-four columns and their
meaning behind them.  The bytes of a line are a slice of the program, from where the
listing stood up to where it stands after reading.  Both are places in the program
(`Lister.reached`), so no slice can be out of range.
-/

namespace VectorIcons

/-! ## Mnemonics -/

/-- What a listing says about an opcode. -/
inductive Mnemonic where
  | stop
  | solidFill (color : Rgba)
  | paletteFill (index : UInt8)
  | moveTo (continues : Bool)
  | segments (kind : SegmentKind) (count : Nat)
  | invalid
deriving DecidableEq, Repr

/-- The mnemonic of the opcode at a place with its operands, and how many points
follow. -/
def Cursor.mnemonic (cursor : Cursor) : (Mnemonic × Nat) × Cursor :=
  let (opcode, afterOpcode) := cursor.byte
  if opcode = 0x00 then ((.stop, 0), afterOpcode)
  else if opcode = 0x01 then
    let (color, afterColor) := afterOpcode.color
    ((.solidFill color, 0), afterColor)
  else if opcode = 0x02 then
    let (index, afterIndex) := afterOpcode.byte
    ((.paletteFill index, 0), afterIndex)
  else if opcode = 0x70 then ((.moveTo false, 1), afterOpcode)
  else if opcode = 0x71 then ((.moveTo true, 1), afterOpcode)
  else if 0x80 ≤ opcode.toNat ∧ opcode.toNat ≤ 0x9f then
    let count := opcode.toNat - 0x80 + 1
    ((.segments .line count, count), afterOpcode)
  else if 0xa0 ≤ opcode.toNat ∧ opcode.toNat ≤ 0xaf then
    let count := opcode.toNat - 0xa0 + 1
    ((.segments .cubic count, count * 3), afterOpcode)
  else if 0xb0 ≤ opcode.toNat ∧ opcode.toNat ≤ 0xbf then
    let count := opcode.toNat - 0xb0 + 1
    ((.segments .quadratic count, count * 2), afterOpcode)
  else ((.invalid, 0), afterOpcode)

theorem Cursor.reaches_mnemonic_of_byte (cursor : Cursor) :
    Reaches cursor.byte.2 cursor.mnemonic.2 := by
  unfold mnemonic
  dsimp only
  repeat' split
  · exact Reaches.refl _
  · exact reaches_color _
  · exact reaches_byte _
  all_goals exact Reaches.refl _

theorem Cursor.reaches_mnemonic (cursor : Cursor) : Reaches cursor cursor.mnemonic.2 :=
  (reaches_byte cursor).trans (reaches_mnemonic_of_byte cursor)

/-! ## Slices -/

/-- A part of a byte string, from one position up to another.  It lies within the bytes. -/
structure Slice (whole : Bytes) where
  first : Nat
  behind : Nat
  first_le : first ≤ behind
  behind_le : behind ≤ whole.length
deriving DecidableEq, Repr

namespace Slice

variable {whole : Bytes}

def bytes (slice : Slice whole) : Bytes :=
  (whole.drop slice.first).take (slice.behind - slice.first)

theorem length_bytes (slice : Slice whole) : slice.bytes.length = slice.behind - slice.first := by
  have hbehind := slice.behind_le
  rw [bytes, List.length_take, List.length_drop]
  omega

end Slice

/-! ## Lines -/

/-- A line in the listing of a program, with the slice of the program that it shows. -/
inductive ListingLine (program : Bytes) where
  /-- The heading of the view box. -/
  | viewBoxHeading
  | point (slice : Slice program) (shown : Point)
  | opcode (slice : Slice program) (mnemonic : Mnemonic)
  /-- Bytes behind an invalid opcode. -/
  | raw (slice : Slice program)
deriving DecidableEq, Repr

/-! ## One step -/

/-- A listing on its way through a program. -/
structure Lister (program : Bytes) where
  place : Cursor
  /-- The place is one in the program. -/
  reached : (Cursor.start program).Reaches place
  /-- Whether there was an invalid opcode. -/
  lost : Bool

namespace Lister

variable {program : Bytes}

/-- The slice up to a later place, and the listing there. -/
def upTo (lister : Lister program) {later : Cursor} (hlater : lister.place.Reaches later) :
    Slice program × Lister program :=
  (⟨lister.place.position, later.position, hlater.position_le,
      (lister.reached.trans hlater).position_le_length⟩,
    { lister with place := later, reached := lister.reached.trans hlater })

/-- The line of a point. -/
def point (lister : Lister program) : ListingLine program × Lister program :=
  let (slice, later) := lister.upTo (Cursor.reaches_point lister.place)
  (.point slice lister.place.point.1, later)

/-- The lines of some points. -/
def points : Nat → Lister program → List (ListingLine program) × Lister program
  | 0, lister => ([], lister)
  | count + 1, lister =>
      let (line, afterLine) := lister.point
      let (lines, afterLines) := points count afterLine
      (line :: lines, afterLines)

/-- The line of an opcode and those of its points. -/
def instruction (lister : Lister program) : List (ListingLine program) × Lister program :=
  let (mnemonic, count) := lister.place.mnemonic.1
  let (slice, afterOpcode) := lister.upTo (Cursor.reaches_mnemonic lister.place)
  let (lines, afterPoints) := afterOpcode.points count
  (.opcode slice mnemonic :: lines, { afterPoints with lost := decide (mnemonic = .invalid) })

/-- How many bytes stand in one row behind an invalid opcode. -/
def rowLength : Nat := 8

/-- A row of bytes that nothing is known about. -/
def row (lister : Lister program) : List (ListingLine program) × Lister program :=
  let (slice, later) := lister.upTo (Cursor.reaches_skip lister.place rowLength)
  ([.raw slice], later)

def step (lister : Lister program) : List (ListingLine program) × Lister program :=
  if lister.lost then lister.row else lister.instruction

theorem reaches_points (count : Nat) (lister : Lister program) :
    lister.place.Reaches (lister.points count).2.place := by
  induction count generalizing lister with
  | zero => exact Cursor.Reaches.refl _
  | succ count ih => exact (Cursor.reaches_point lister.place).trans (ih lister.point.2)

/-- Before the end, a step takes at least one byte. -/
theorem length_step_lt {lister : Lister program} (hnonempty : lister.place.rest ≠ []) :
    lister.step.2.place.rest.length < lister.place.rest.length := by
  unfold step
  split
  · have hpos := List.length_pos_iff.mpr hnonempty
    change (lister.place.rest.drop rowLength).length < _
    rw [List.length_drop, rowLength]
    omega
  · have hreaches : lister.place.byte.2.Reaches lister.instruction.2.place :=
      (Cursor.reaches_mnemonic_of_byte _).trans
        (reaches_points _ (lister.upTo (Cursor.reaches_mnemonic lister.place)).2)
    exact Nat.lt_of_le_of_lt hreaches.length_le (Cursor.length_byte_lt hnonempty)

/-! ## All steps -/

/-- The lines up to the end, after those in `earlier`, whose last one comes first. -/
private def linesAfter (earlier : List (ListingLine program)) (lister : Lister program) :
    List (ListingLine program) :=
  if _hend : lister.place.rest = [] then earlier.reverse
  else linesAfter (lister.step.1.reverse ++ earlier) lister.step.2
termination_by lister.place.rest.length
decreasing_by exact length_step_lt _hend

/-- The lines up to the end. -/
def lines (lister : Lister program) : List (ListingLine program) := linesAfter [] lister

private theorem linesAfter_eq (earlier : List (ListingLine program)) (lister : Lister program) :
    linesAfter earlier lister = earlier.reverse ++ linesAfter [] lister := by
  induction hlength : lister.place.rest.length using Nat.strongRecOn
    generalizing earlier lister with
  | ind length ih =>
      conv => lhs; rw [linesAfter]
      conv => rhs; rw [linesAfter]
      split
      · simp
      · rename_i hnonempty
        have hlt : lister.step.2.place.rest.length < length :=
          hlength ▸ length_step_lt hnonempty
        rw [ih _ hlt (lister.step.1.reverse ++ earlier) _ rfl,
          ih _ hlt (lister.step.1.reverse ++ []) _ rfl]
        simp

/-- The lines are those of the next step and of the steps after it, up to the end. -/
theorem lines_eq (lister : Lister program) :
    lister.lines =
      if lister.place.rest = [] then [] else lister.step.1 ++ lister.step.2.lines := by
  unfold lines
  conv => lhs; rw [linesAfter]
  split
  · rfl
  · rw [linesAfter_eq]
    simp

end Lister

/-- A listing that has not begun. -/
def Lister.start (program : Bytes) : Lister program := ⟨.start program, .refl _, false⟩

/-- The heading, the two corners of the view box, and the lines behind them. -/
def listingLines (program : Bytes) : List (ListingLine program) :=
  let (corners, lister) := (Lister.start program).points 2
  .viewBoxHeading :: (corners ++ lister.lines)

/-! ## Text -/

/-- Numbers in a listing have four decimals. -/
def listedNumber (x : Binary32) : String := x.fixedPlaces 4

/-- The part of full strength that a color byte stands for. -/
def listedPart (byte : UInt8) : String :=
  listedNumber (Binary32.ofInt byte.toNat / Binary32.ofInt 255)

/-- A color: its three bytes if it is opaque, otherwise four parts of full
strength. -/
def listedColor (color : Rgba) : String :=
  if color.alpha = 255 then
    "#" ++ Text.hexByte color.red ++ Text.hexByte color.green ++ Text.hexByte color.blue
  else "rgba(" ++ ", ".intercalate (color.bytes.map listedPart) ++ ")"

def SegmentKind.letter : SegmentKind → String
  | .line => "L"
  | .cubic => "C"
  | .quadratic => "Q"

def Mnemonic.text : Mnemonic → String
  | .stop => "STOP"
  | .solidFill color => "SOLIDFILL " ++ listedColor color
  | .paletteFill index => "PALFILL " ++ Nat.repr index.toNat
  | .moveTo continues => if continues then "M-cont" else "M-begin"
  | .segments kind count => kind.letter ++ " " ++ Nat.repr count
  | .invalid => "INVALID"

def bytesColumn (bytes : Bytes) : String := Text.leftAligned 24 (Text.hexRow " " bytes)

def coordinateColumn (x : Binary32) : String := Text.rightAligned 8 (listedNumber x)

/-- The text of a line, without its end. -/
def ListingLine.text {program : Bytes} : ListingLine program → String
  | .viewBoxHeading => "# viewbox:"
  | .point slice shown =>
      bytesColumn slice.bytes ++ "   " ++ coordinateColumn shown.x ++ "  " ++
        coordinateColumn shown.y
  | .opcode slice mnemonic => bytesColumn slice.bytes ++ "  " ++ mnemonic.text
  | .raw slice => Text.hexRow " " slice.bytes

def listing (program : Bytes) : String :=
  String.join ((listingLines program).map fun line => line.text ++ "\n")

end VectorIcons
