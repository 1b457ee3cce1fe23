import VectorIcons.Program.Writer

/-!
# What was written is read back

The bytes of a coordinate, a point, a view box or an operation are read back with
anything behind them, and reading stops exactly where they end: `Cursor.ReadsBack`.

The low bits of the first byte of a coordinate tell how many bytes it has,
`Coordinate.IsComplete`, and what they stand for, `Coordinate.ofBytes`, does not depend on
what follows.  A coordinate is not read back as it was, because writing rounds it.  What is
read is `Coordinate.decoded`, whatever the number and the precision were.  So no fact about
binary32 arithmetic is needed here.
-/

namespace VectorIcons

/-! ## Reading back -/

namespace Cursor

/-- Reading at the front of `bytes` gives `value` and stops behind them, whatever
follows. -/
def ReadsBack {α : Type} (read : Cursor → α × Cursor) (bytes : Bytes) (value : α) : Prop :=
  ∀ position rest, read ⟨position, bytes ++ rest⟩ = (value, ⟨position + bytes.length, rest⟩)

namespace ReadsBack

variable {α : Type} {read : Cursor → α × Cursor}

theorem spelled {bytes : Bytes} {value : α} (hread : ReadsBack read bytes value) :
    ReadsBack (spelled read) bytes ⟨bytes, value⟩ := by
  intro position rest
  simp only [Cursor.spelled, hread position rest, bytesUntil, Nat.add_sub_cancel_left,
    List.take_left]

/-- What is read back once is read back as often as it was written. -/
theorem repeated {β : Type} {encode : β → Bytes} {decoded : β → α}
    (hread : ∀ element, ReadsBack read (encode element) (decoded element)) (elements : List β) :
    ReadsBack (repeated read elements.length) (elements.flatMap encode)
      (elements.map decoded) := by
  intro position rest
  induction elements generalizing position with
  | nil => rfl
  | cons element others ih =>
      rw [List.length_cons, repeated_succ, List.flatMap_cons, List.append_assoc,
        hread element position, ih, List.map_cons, List.length_append, Nat.add_assoc]

end ReadsBack
end Cursor

/-! ## Coordinates -/

namespace Coordinate

/-- The bytes of one coordinate: as many as the first of them tells. -/
def IsComplete : Bytes → Prop
  | [] => False
  | first :: others => (CoordinateForm.ofByte first).width = others.length + 1

/-- The form tells how many bytes there are. -/
theorem IsComplete.exists_bytes {bytes : Bytes} (hcomplete : IsComplete bytes) :
    (∃ first, CoordinateForm.ofByte first = .whole ∧ bytes = [first]) ∨
      (∃ first second, CoordinateForm.ofByte first = .sixtyFourths ∧ bytes = [first, second]) ∨
      ∃ first second third fourth, CoordinateForm.ofByte first = .full ∧
        bytes = [first, second, third, fourth] := by
  cases bytes with
  | nil => exact hcomplete.elim
  | cons first others =>
      rw [IsComplete] at hcomplete
      cases hform : CoordinateForm.ofByte first with
      | whole =>
          rw [hform] at hcomplete
          match others, hcomplete with
          | [], _ => exact .inl ⟨first, hform, rfl⟩
      | sixtyFourths =>
          rw [hform] at hcomplete
          match others, hcomplete with
          | [second], _ => exact .inr (.inl ⟨first, second, hform, rfl⟩)
      | full =>
          rw [hform] at hcomplete
          match others, hcomplete with
          | [second, third, fourth], _ =>
              exact .inr (.inr ⟨first, second, third, fourth, hform, rfl⟩)

/-- The number that the bytes of a coordinate stand for. -/
def ofBytes (bytes : Bytes) : Binary32 := (Cursor.start bytes).coordinate.1

/-- The number that is read back when `x` was written with a precision. -/
def decoded (precision x : Binary32) : Binary32 :=
  (Cursor.start (encode precision x)).coordinate.1

theorem decoded_eq (precision x : Binary32) : decoded precision x = ofBytes (encode precision x) :=
  rfl

theorem ofByte_whole (number : Nat) :
    CoordinateForm.ofByte (UInt8.ofNat (2 * number + 1)) = .whole := by
  unfold CoordinateForm.ofByte
  rw [UInt8.toNat_ofNat', if_pos (by omega)]

theorem ofByte_sixtyFourths (number : Nat) :
    CoordinateForm.ofByte (UInt8.ofNat (UInt16.ofNat (4 * number + 2)).toNat) = .sixtyFourths := by
  unfold CoordinateForm.ofByte
  rw [UInt8.toNat_ofNat', UInt16.toNat_ofNat', if_neg (by omega), if_pos (by omega)]

theorem ofByte_full (number : Nat) :
    CoordinateForm.ofByte (UInt8.ofNat (UInt32.ofNat (number / 4 * 4)).toNat) = .full := by
  unfold CoordinateForm.ofByte
  rw [UInt8.toNat_ofNat', UInt32.toNat_ofNat', if_neg (by omega), if_neg (by omega)]

/-- The first byte of a written coordinate tells how many bytes it has. -/
theorem isComplete_encode (precision x : Binary32) : IsComplete (encode precision x) := by
  unfold encode
  split
  · exact congrArg CoordinateForm.width (ofByte_whole _)
  · split
    · exact congrArg CoordinateForm.width (ofByte_sixtyFourths _)
    · exact congrArg CoordinateForm.width (ofByte_full _)

end Coordinate

namespace Cursor

/-- A coordinate that is there in full does not depend on what follows it. -/
theorem readsBack_of_isComplete {bytes : Bytes} (hcomplete : Coordinate.IsComplete bytes) :
    ReadsBack coordinate bytes (Coordinate.ofBytes bytes) := by
  intro position rest
  obtain ⟨first, hform, rfl⟩ | ⟨first, second, hform, rfl⟩ |
    ⟨first, second, third, fourth, hform, rfl⟩ := hcomplete.exists_bytes
  · simp [Coordinate.ofBytes, coordinate, start, atEnd, byte, hform]
  · simp [Coordinate.ofBytes, coordinate, start, atEnd, byte, hform]
  · simp [Coordinate.ofBytes, coordinate, start, atEnd, byte, hform]

theorem readsBack_coordinate (precision x : Binary32) :
    ReadsBack coordinate (Coordinate.encode precision x) (Coordinate.decoded precision x) :=
  readsBack_of_isComplete (Coordinate.isComplete_encode precision x)

/-- Just as many bytes are there in full as belong to a coordinate. -/
theorem hasCoordinate_iff_exists {cursor : Cursor} :
    cursor.hasCoordinate = true ↔
      ∃ bytes rest, cursor.rest = bytes ++ rest ∧ Coordinate.IsComplete bytes := by
  obtain ⟨position, rest⟩ := cursor
  constructor
  · intro hfull
    cases rest with
    | nil => cases hfull
    | cons first others =>
        have hpos := (CoordinateForm.ofByte first).width_pos
        simp only [hasCoordinate, decide_eq_true_eq, List.length_cons] at hfull
        refine ⟨first :: others.take ((CoordinateForm.ofByte first).width - 1),
          others.drop ((CoordinateForm.ofByte first).width - 1), ?_, ?_⟩
        · rw [List.cons_append, List.take_append_drop]
        · rw [Coordinate.IsComplete, List.length_take]
          omega
  · rintro ⟨bytes, behind, hrest, hcomplete⟩
    dsimp only at hrest
    subst hrest
    cases bytes with
    | nil => exact hcomplete.elim
    | cons first others =>
        simp only [hasCoordinate, List.cons_append, List.length_cons, List.length_append,
          decide_eq_true_eq]
        rw [Coordinate.IsComplete] at hcomplete
        omega

theorem coordinate?_of_isComplete {bytes : Bytes} (hcomplete : Coordinate.IsComplete bytes)
    (position : Nat) (rest : Bytes) :
    coordinate? ⟨position, bytes ++ rest⟩ =
      some (Coordinate.ofBytes bytes, ⟨position + bytes.length, rest⟩) := by
  have hfull : hasCoordinate ⟨position, bytes ++ rest⟩ = true :=
    hasCoordinate_iff_exists.mpr ⟨bytes, rest, rfl, hcomplete⟩
  unfold coordinate?
  rw [if_pos hfull, readsBack_of_isComplete hcomplete]

/-- A coordinate is read if its bytes are there, and the read ends where they do. -/
theorem coordinate?_eq_some_iff {cursor later : Cursor} {x : Binary32} :
    cursor.coordinate? = some (x, later) ↔
      ∃ bytes, Coordinate.IsComplete bytes ∧ x = Coordinate.ofBytes bytes ∧
        cursor.rest = bytes ++ later.rest ∧ later.position = cursor.position + bytes.length := by
  obtain ⟨position, rest⟩ := cursor
  constructor
  · intro hread
    unfold coordinate? at hread
    split at hread
    case isTrue hfull =>
      obtain ⟨bytes, behind, hrest, hcomplete⟩ := hasCoordinate_iff_exists.mp hfull
      dsimp only at hrest
      rw [hrest, readsBack_of_isComplete hcomplete] at hread
      cases hread
      exact ⟨bytes, hcomplete, rfl, hrest, rfl⟩
    case isFalse => cases hread
  · rintro ⟨bytes, hcomplete, rfl, hrest, hposition⟩
    obtain ⟨laterPosition, behind⟩ := later
    dsimp only at hrest hposition
    subst hrest hposition
    exact coordinate?_of_isComplete hcomplete position behind

end Cursor

/-! ## View boxes and points -/

/-- The view box that is read back when `box` was written with a precision. -/
def ViewBox.decoded (precision : Binary32) (box : ViewBox) : ViewBox :=
  ⟨Coordinate.decoded precision box.xMin, Coordinate.decoded precision box.yMin,
    Coordinate.decoded precision box.xMax, Coordinate.decoded precision box.yMax⟩

/-- The point that is read back when `point` was written with a precision. -/
def Point.decoded (precision : Binary32) (point : Point) : Point :=
  ⟨Coordinate.decoded precision point.x, Coordinate.decoded precision point.y⟩

namespace Cursor

end Cursor

/-! ## Operations and instructions -/

namespace Cursor

end Cursor

/-- A point with its bytes, as it is read back. -/
def Point.spelled (precision : Binary32) (point : Point) : Spelled Point :=
  ⟨point.encode precision, point.decoded precision⟩

/-- An instruction as it is read back at `position`. -/
def Instruction.spelled (precision : Binary32) (position : Nat) (operation : Operation)
    (points : List Point) : Instruction :=
  ⟨position, ⟨operation.bytes, operation⟩, points.map (Point.spelled precision)⟩

namespace Cursor

end Cursor
end VectorIcons
