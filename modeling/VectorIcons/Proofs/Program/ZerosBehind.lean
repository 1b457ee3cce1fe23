import VectorIcons.Proofs.Program.Instructions
import VectorIcons.Proofs.Program.ReadingAlike
import VectorIcons.Reader

/-!
# Zeros behind the end

A reader reads past the end of a program as if zeros followed it for ever, whatever is read and in
whatever order: `readsZerosBehind`.

## Strategy

A `Tape` has bytes without an end, and reading it needs no case for the end: a coordinate takes the
width that its first byte tells.  The bytes of a program with zeros behind them are such a tape.

The two do not stay in step.  Behind the end the tape moves on and the cursor does not, and a
coordinate that is cut off takes more of the tape than of the program.  `ZerosBehind` allows for
that: the places are the same as long as there are bytes left, and then the tape is further on.  A
byte keeps this relation, `ZerosBehind.byte`.  A coordinate is a few bytes, except at the very end,
where the cursor gives zero without a read and the tape gives it from four zeros.  The rest is built
from bytes and coordinates.
-/

namespace VectorIcons

/-! ## Bytes without an end -/

/-- Bytes without an end, and how many of them have been read. -/
structure Tape where
  byteAt : Nat → UInt8
  position : Nat

namespace Tape

/-- The bytes of a program, and then zeros for ever. -/
def ofBytes (bytes : Bytes) : Tape := ⟨fun position => bytes.getD position 0, 0⟩

/-- The byte that lies `ahead` bytes behind the next one. -/
def ahead (tape : Tape) (distance : Nat) : UInt8 := tape.byteAt (tape.position + distance)

def skip (tape : Tape) (count : Nat) : Tape := { tape with position := tape.position + count }

theorem ahead_skip (tape : Tape) (count distance : Nat) :
    (tape.skip count).ahead distance = tape.ahead (count + distance) := by
  rw [ahead, ahead, ← Nat.add_assoc]
  rfl

def byte (tape : Tape) : UInt8 × Tape := (tape.ahead 0, tape.skip 1)

/-- The next coordinate, which has as many bytes as the first of them tells. -/
def coordinate (tape : Tape) : Binary32 × Tape :=
  let form := CoordinateForm.ofByte (tape.ahead 0)
  let value := match form with
    | .whole => Coordinate.ofWholeByte (tape.ahead 0)
    | .sixtyFourths => Coordinate.ofSixtyFourthsWord (word16 [tape.ahead 0, tape.ahead 1])
    | .full =>
        Coordinate.ofFullWord (word32 [tape.ahead 0, tape.ahead 1, tape.ahead 2, tape.ahead 3])
  (value, tape.skip form.width)

def point (tape : Tape) : Point × Tape :=
  let (x, afterX) := tape.coordinate
  let (y, afterY) := afterX.coordinate
  (⟨x, y⟩, afterY)

def points (tape : Tape) : Nat → List Point × Tape
  | 0 => ([], tape)
  | count + 1 =>
      let (point, afterPoint) := tape.point
      let (others, afterPoints) := afterPoint.points count
      (point :: others, afterPoints)

def read (tape : Tape) : Read → Reading × Tape
  | .byte => (.byte tape.byte.1, tape.byte.2)
  | .coordinate => (.coordinate tape.coordinate.1, tape.coordinate.2)
  | .point => (.point tape.point.1, tape.point.2)
  | .points count => (.points (tape.points count).1, (tape.points count).2)

/-- Reads one after another. -/
def readAll (tape : Tape) : List Read → List Reading × Tape
  | [] => ([], tape)
  | read :: others =>
      let (reading, after) := tape.read read
      let (readings, last) := after.readAll others
      (reading :: readings, last)

end Tape

/-! ## A cursor and a tape -/

/-- Before the tape lie the bytes that are left before the cursor, and then zeros.  The tape may be
further on than the cursor only if no byte is left. -/
structure ZerosBehind (cursor : Cursor) (tape : Tape) : Prop where
  ahead_eq : ∀ distance, tape.ahead distance = cursor.rest.getD distance 0
  position_le : cursor.position ≤ tape.position
  position_eq : cursor.rest ≠ [] → cursor.position = tape.position

theorem zerosBehind_start (bytes : Bytes) (buffer : Array Point) :
    ZerosBehind (Reader.start bytes buffer).cursor (.ofBytes bytes) where
  ahead_eq distance := congrArg (bytes.getD · 0) (Nat.zero_add distance)
  position_le := Nat.le_refl 0
  position_eq _ := rfl

namespace ZerosBehind

variable {cursor : Cursor} {tape : Tape}

/-- The cursor stands where the tape does, or at the end if the tape is past it. -/
theorem position_eq_min (hzeros : ZerosBehind cursor tape) :
    cursor.position = min (cursor.position + cursor.rest.length) tape.position := by
  have hle := hzeros.position_le
  by_cases hend : cursor.rest = []
  · rw [hend, List.length_nil]
    omega
  · have heq := hzeros.position_eq hend
    omega

theorem ahead_of_end (hzeros : ZerosBehind cursor tape) (hend : cursor.rest = [])
    (distance : Nat) : tape.ahead distance = 0 := by
  rw [hzeros.ahead_eq, hend]
  rfl

/-- At the end, the tape may move on as far as it likes. -/
theorem skip_of_end (hzeros : ZerosBehind cursor tape) (hend : cursor.rest = []) (count : Nat) :
    ZerosBehind cursor (tape.skip count) where
  ahead_eq distance := by
    rw [Tape.ahead_skip, hzeros.ahead_of_end hend, hend]
    rfl
  position_le := Nat.le_trans hzeros.position_le (Nat.le_add_right _ _)
  position_eq hmore := absurd hend hmore

theorem byte (hzeros : ZerosBehind cursor tape) :
    cursor.byte.1 = tape.byte.1 ∧ ZerosBehind cursor.byte.2 tape.byte.2 := by
  obtain ⟨position, rest⟩ := cursor
  cases rest with
  | nil => exact ⟨(hzeros.ahead_of_end rfl 0).symm, hzeros.skip_of_end rfl 1⟩
  | cons first rest =>
      have hposition := hzeros.position_eq (List.cons_ne_nil _ _)
      refine ⟨(hzeros.ahead_eq 0).symm, ?_, ?_, ?_⟩
      · intro distance
        change (tape.skip 1).ahead distance = rest.getD distance 0
        rw [Tape.ahead_skip, hzeros.ahead_eq, Nat.add_comm, List.getD_cons_succ]
      · exact Nat.succ_le_succ hzeros.position_le
      · exact fun _ => congrArg (· + 1) hposition

theorem coordinate_of_end (hzeros : ZerosBehind cursor tape) (hend : cursor.rest = []) :
    cursor.coordinate.1 = tape.coordinate.1 ∧
      ZerosBehind cursor.coordinate.2 tape.coordinate.2 := by
  have hzero : Binary32.zero false = Coordinate.ofFullWord (word32 [0, 0, 0, 0]) := by decide
  rw [Cursor.coordinate_of_end hend]
  refine ⟨?_, hzeros.skip_of_end hend _⟩
  unfold Tape.coordinate
  simp only [hzeros.ahead_of_end hend]
  exact hzero

theorem coordinate_of_more (hzeros : ZerosBehind cursor tape) (hmore : cursor.rest ≠ []) :
    cursor.coordinate.1 = tape.coordinate.1 ∧
      ZerosBehind cursor.coordinate.2 tape.coordinate.2 := by
  obtain ⟨hfirst, hafterFirst⟩ := hzeros.byte
  obtain ⟨hsecond, hafterSecond⟩ := hafterFirst.byte
  obtain ⟨hthird, hafterThird⟩ := hafterSecond.byte
  obtain ⟨hfourth, hafterFourth⟩ := hafterThird.byte
  rw [Cursor.coordinate_of_more hmore, hfirst]
  unfold Cursor.coordinateBehind Tape.coordinate
  dsimp only [Tape.byte]
  cases CoordinateForm.ofByte (tape.ahead 0) with
  | whole => exact ⟨rfl, hafterFirst⟩
  | sixtyFourths =>
      dsimp only
      rw [hsecond]
      exact ⟨rfl, hafterSecond⟩
  | full =>
      dsimp only
      rw [hsecond, hthird, hfourth]
      exact ⟨rfl, hafterFourth⟩

theorem coordinate (hzeros : ZerosBehind cursor tape) :
    cursor.coordinate.1 = tape.coordinate.1 ∧
      ZerosBehind cursor.coordinate.2 tape.coordinate.2 := by
  by_cases hend : cursor.rest = []
  · exact hzeros.coordinate_of_end hend
  · exact hzeros.coordinate_of_more hend

theorem point (hzeros : ZerosBehind cursor tape) :
    cursor.point.1 = tape.point.1 ∧ ZerosBehind cursor.point.2 tape.point.2 := by
  obtain ⟨hx, hafterX⟩ := hzeros.coordinate
  obtain ⟨hy, hafterY⟩ := hafterX.coordinate
  refine ⟨?_, hafterY⟩
  unfold Cursor.point Tape.point
  dsimp only
  rw [hx, hy]

theorem points (hzeros : ZerosBehind cursor tape) (count : Nat) :
    (cursor.points count).1 = (tape.points count).1 ∧
      ZerosBehind (cursor.points count).2 (tape.points count).2 := by
  induction count generalizing cursor tape with
  | zero => exact ⟨rfl, hzeros⟩
  | succ count ih =>
      obtain ⟨hpoint, hafterPoint⟩ := hzeros.point
      obtain ⟨hothers, hafterPoints⟩ := ih hafterPoint
      unfold Cursor.points at hothers hafterPoints ⊢
      rw [Cursor.repeated_succ, Tape.points]
      dsimp only
      rw [hpoint, hothers]
      exact ⟨rfl, hafterPoints⟩

theorem read {reader : Reader} (hzeros : ZerosBehind reader.cursor tape) (read : Read) :
    (reader.read read).1 = (tape.read read).1 ∧
      ZerosBehind (reader.read read).2.cursor (tape.read read).2 := by
  cases read with
  | byte =>
      obtain ⟨hvalue, hafter⟩ := hzeros.byte
      exact ⟨congrArg Reading.byte hvalue, hafter⟩
  | coordinate =>
      obtain ⟨hvalue, hafter⟩ := hzeros.coordinate
      exact ⟨congrArg Reading.coordinate hvalue, hafter⟩
  | point =>
      obtain ⟨hvalue, hafter⟩ := hzeros.point
      exact ⟨congrArg Reading.point hvalue, hafter⟩
  | points count =>
      obtain ⟨hvalues, hafter⟩ := hzeros.points count
      rw [Reader.read_points]
      exact ⟨congrArg Reading.points hvalues, hafter⟩

theorem readAll {reader : Reader} (hzeros : ZerosBehind reader.cursor tape) (reads : List Read) :
    (reader.readAll reads).1 = (tape.readAll reads).1 ∧
      ZerosBehind (reader.readAll reads).2.cursor (tape.readAll reads).2 := by
  induction reads generalizing reader tape with
  | nil => exact ⟨rfl, hzeros⟩
  | cons read others ih =>
      obtain ⟨hreading, hafter⟩ := hzeros.read read
      obtain ⟨hreadings, hlast⟩ := ih hafter
      rw [Reader.readAll, Tape.readAll]
      dsimp only
      rw [hreading, hreadings]
      exact ⟨rfl, hlast⟩

end ZerosBehind

/-! ## Readers -/

namespace Reader

/-- A reader after some reads. -/
def after (reader : Reader) (reads : List Read) : Reader := (reader.readAll reads).2

theorem after_cons (reader : Reader) (read : Read) (others : List Read) :
    reader.after (read :: others) = (reader.read read).2.after others := rfl

theorem after_append (reader : Reader) (reads more : List Read) :
    reader.after (reads ++ more) = (reader.after reads).after more := by
  induction reads generalizing reader with
  | nil => rfl
  | cons read others ih => rw [List.cons_append, after_cons, after_cons, ih]

theorem reaches_read (reader : Reader) (read : Read) :
    reader.cursor.Reaches (reader.read read).2.cursor := by
  cases read with
  | byte => exact Cursor.reaches_byte _
  | coordinate => exact Cursor.reaches_coordinate _
  | point => exact Cursor.reaches_point _
  | points count =>
      rw [read_points]
      exact Cursor.reaches_repeated Cursor.reaches_point count _

theorem reaches_after (reader : Reader) (reads : List Read) :
    reader.cursor.Reaches (reader.after reads).cursor := by
  induction reads generalizing reader with
  | nil => exact .refl _
  | cons read others ih => exact (reader.reaches_read read).trans (ih _)

end Reader

/-! ## Reading as if zeros followed -/

/-- A reader of `bytes` reads them as if zeros followed them for ever. -/
structure ReadsZerosBehind (bytes : Bytes) (buffer : Array Point) : Prop where
  readings_eq : ∀ reads, ((Reader.start bytes buffer).readAll reads).1 =
    ((Tape.ofBytes bytes).readAll reads).1
  position_eq : ∀ reads, ((Reader.start bytes buffer).after reads).cursor.position =
    min bytes.length ((Tape.ofBytes bytes).readAll reads).2.position
  position_le_length : ∀ reads,
    ((Reader.start bytes buffer).after reads).cursor.position ≤ bytes.length
  position_le : ∀ reads more, ((Reader.start bytes buffer).after reads).cursor.position ≤
    ((Reader.start bytes buffer).after (reads ++ more)).cursor.position
  atEnd_iff : ∀ reads, ((Reader.start bytes buffer).after reads).cursor.atEnd = true ↔
    ((Reader.start bytes buffer).after reads).cursor.position = bytes.length
  /-- A reader that has got to the end stays there. -/
  atEnd_append : ∀ reads more, ((Reader.start bytes buffer).after reads).cursor.atEnd = true →
    ((Reader.start bytes buffer).after (reads ++ more)).cursor.atEnd = true
  /-- The points that are read are all that the buffer holds. -/
  size_buffer : ∀ reads count,
    ((Reader.start bytes buffer).after (reads ++ [.points count])).buffer.size = count

section

variable (bytes : Bytes) (buffer : Array Point) (reads : List Read)

theorem Reader.position_after_add_length :
    ((start bytes buffer).after reads).cursor.position +
      ((start bytes buffer).after reads).cursor.rest.length = bytes.length :=
  ((start bytes buffer).reaches_after reads).position_add_length_rest.trans (Nat.zero_add _)

theorem Reader.position_after_le :
    ((start bytes buffer).after reads).cursor.position ≤ bytes.length :=
  Nat.le.intro (position_after_add_length bytes buffer reads)

theorem Reader.atEnd_after_iff :
    ((start bytes buffer).after reads).cursor.atEnd = true ↔
      ((start bytes buffer).after reads).cursor.position = bytes.length := by
  have hlength := position_after_add_length bytes buffer reads
  rw [Cursor.atEnd, List.isEmpty_iff, ← List.length_eq_zero_iff]
  omega

theorem Reader.position_after_append (more : List Read) :
    ((start bytes buffer).after reads).cursor.position ≤
      ((start bytes buffer).after (reads ++ more)).cursor.position := by
  obtain ⟨taken, -, hposition⟩ := reaches_after ((start bytes buffer).after reads) more
  rw [after_append, hposition]
  exact Nat.le_add_right _ _

end

/-- **A program is read as if zeros followed it for ever**, whatever is read and in whatever
order. -/
theorem readsZerosBehind (bytes : Bytes) (buffer : Array Point) :
    ReadsZerosBehind bytes buffer where
  readings_eq reads := ((zerosBehind_start bytes buffer).readAll reads).1
  position_eq := by
    intro reads
    have hzeros := ((zerosBehind_start bytes buffer).readAll reads).2
    have hlength := Reader.position_after_add_length bytes buffer reads
    rw [← hlength]
    exact hzeros.position_eq_min
  position_le_length := Reader.position_after_le bytes buffer
  position_le := Reader.position_after_append bytes buffer
  atEnd_iff := Reader.atEnd_after_iff bytes buffer
  atEnd_append := by
    intro reads more hend
    have hbefore := (Reader.atEnd_after_iff bytes buffer reads).mp hend
    have hmono := Reader.position_after_append bytes buffer reads more
    have hle := Reader.position_after_le bytes buffer (reads ++ more)
    rw [Reader.atEnd_after_iff]
    omega
  size_buffer := by
    intro reads count
    rw [Reader.after_append, Reader.after_cons, Reader.read_points]
    exact Cursor.length_repeated _ _ _

end VectorIcons
