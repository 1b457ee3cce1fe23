import VectorIcons.Proofs.Program.Passage

/-!
# Coordinates that are there in full

Two readers share the bytes of a coordinate.  `Cursor.hasCoordinate` asks for its width and refuses
what ends too early; `Cursor.coordinate` reads on with zeros.  They agree on where the difference
lies: a coordinate is there in full exactly if reading it comes to the same, whatever stands behind
the bytes that are there (`hasCoordinate_iff_unaffected`).

Four coordinates that are there in full are a view box, so a view box is there as a whole or not at
all: `coordinates_allOrNothing`.

## Strategy

A coordinate that is there in full has its own bytes, `Coordinate.IsComplete`, and reading them back
does not depend on the rest, `Cursor.readsBack_of_isComplete`.  For the converse it is enough to
look at one continuation.  A read takes the width of the coordinate or, if that is less, all bytes
that are there (`position_coordinate`); behind four zeros it has its full width.
-/

namespace VectorIcons

/-! ## What stands behind a coordinate -/

theorem CoordinateForm.width_le (form : CoordinateForm) : form.width ≤ 4 := by
  cases form <;> decide

namespace Cursor

/-- Reading a coordinate gives the same number and moves as far, whatever stands behind the bytes
that are there. -/
def Unaffected (cursor : Cursor) : Prop :=
  ∀ behind : Bytes,
    (mk cursor.position (cursor.rest ++ behind)).coordinate.1 = cursor.coordinate.1 ∧
      (mk cursor.position (cursor.rest ++ behind)).coordinate.2.position =
        cursor.coordinate.2.position

theorem unaffected_of_hasCoordinate {cursor : Cursor} (hfull : cursor.hasCoordinate = true) :
    cursor.Unaffected := by
  obtain ⟨bytes, rest, hrest, hcomplete⟩ := hasCoordinate_iff_exists.mp hfull
  obtain ⟨position, _⟩ := cursor
  dsimp only at hrest
  subst hrest
  intro behind
  dsimp only
  rw [List.append_assoc, readsBack_of_isComplete hcomplete, readsBack_of_isComplete hcomplete]
  exact ⟨rfl, rfl⟩

/-- A read takes the width of the coordinate, or all bytes that are there. -/
theorem position_coordinate (position : Nat) (first : UInt8) (others : Bytes) :
    (mk position (first :: others)).coordinate.2.position =
      position + min (CoordinateForm.ofByte first).width (others.length + 1) := by
  rw [coordinate_of_more (List.cons_ne_nil first others)]
  change (coordinateBehind first ⟨position + 1, others⟩).2.position = _
  unfold coordinateBehind
  cases CoordinateForm.ofByte first with
  | whole => simp [CoordinateForm.width]
  | sixtyFourths => rcases others with _ | ⟨second, others⟩ <;> simp [CoordinateForm.width, byte]
  | full =>
      rcases others with _ | ⟨second, _ | ⟨third, _ | ⟨fourth, others⟩⟩⟩ <;>
        simp [CoordinateForm.width, byte]

/-- Where a coordinate is not there in full, four zeros let the read get farther. -/
theorem hasCoordinate_of_unaffected {cursor : Cursor} (hsame : cursor.Unaffected) :
    cursor.hasCoordinate = true := by
  obtain ⟨-, hposition⟩ := hsame (List.replicate 4 0)
  obtain ⟨position, rest⟩ := cursor
  cases rest with
  | nil =>
      have hzero : (CoordinateForm.ofByte 0).width = 4 := rfl
      have hend : (mk position []).coordinate.2.position = position := rfl
      change (mk position (0 :: List.replicate 3 0)).coordinate.2.position = _ at hposition
      rw [position_coordinate, hend, hzero, List.length_replicate] at hposition
      omega
  | cons first others =>
      have hwidth := (CoordinateForm.ofByte first).width_le
      dsimp only [List.cons_append] at hposition
      rw [position_coordinate, position_coordinate, List.length_append,
        List.length_replicate] at hposition
      rw [hasCoordinate, decide_eq_true_eq, List.length_cons]
      omega

/-- **A coordinate is there in full exactly if nothing behind its bytes affects it.** -/
theorem hasCoordinate_iff_unaffected (cursor : Cursor) :
    cursor.hasCoordinate = true ↔ cursor.Unaffected :=
  ⟨unaffected_of_hasCoordinate, hasCoordinate_of_unaffected⟩

end Cursor

/-! ## View boxes -/

/-- A program begins with four complete coordinates, and they are the bounds of `box`. -/
def BeginsWithBox (program : Bytes) (box : ViewBox) : Prop :=
  ∃ xMin yMin xMax yMax rest : Bytes,
    program = xMin ++ (yMin ++ (xMax ++ (yMax ++ rest))) ∧
      Coordinate.IsComplete xMin ∧ Coordinate.IsComplete yMin ∧
      Coordinate.IsComplete xMax ∧ Coordinate.IsComplete yMax ∧
      box = ⟨Coordinate.ofBytes xMin, Coordinate.ofBytes yMin, Coordinate.ofBytes xMax,
        Coordinate.ofBytes yMax⟩

theorem BeginsWithBox.append {program : Bytes} {box : ViewBox} (hbox : BeginsWithBox program box)
    (behind : Bytes) : BeginsWithBox (program ++ behind) box := by
  obtain ⟨xMin, yMin, xMax, yMax, rest, rfl, hcomplete⟩ := hbox
  refine ⟨xMin, yMin, xMax, yMax, rest ++ behind, ?_, hcomplete⟩
  simp only [List.append_assoc]

theorem exists_viewBox?_iff {program : Bytes} {box : ViewBox} :
    (∃ place, (Cursor.start program).viewBox? = some (box, place)) ↔
      BeginsWithBox program box := by
  constructor
  · rintro ⟨place, hread⟩
    obtain ⟨_, _, _, hxMin, hyMin, hxMax, hyMax⟩ := Cursor.viewBox?_eq_some_iff.mp hread
    obtain ⟨xMin, hxMinComplete, hxMinBound, hrest, -⟩ := Cursor.coordinate?_eq_some_iff.mp hxMin
    obtain ⟨yMin, hyMinComplete, hyMinBound, hmore, -⟩ := Cursor.coordinate?_eq_some_iff.mp hyMin
    obtain ⟨xMax, hxMaxComplete, hxMaxBound, hothers, -⟩ := Cursor.coordinate?_eq_some_iff.mp hxMax
    obtain ⟨yMax, hyMaxComplete, hyMaxBound, hlast, -⟩ := Cursor.coordinate?_eq_some_iff.mp hyMax
    refine ⟨xMin, yMin, xMax, yMax, place.rest, ?_, hxMinComplete, hyMinComplete, hxMaxComplete,
      hyMaxComplete, ?_⟩
    · rw [← hlast, ← hothers, ← hmore]
      exact hrest
    · rw [← hxMinBound, ← hyMinBound, ← hxMaxBound, ← hyMaxBound]
  · rintro ⟨xMin, yMin, xMax, yMax, rest, rfl, hxMin, hyMin, hxMax, hyMax, rfl⟩
    refine ⟨⟨xMin.length + yMin.length + xMax.length + yMax.length, rest⟩, ?_⟩
    simp only [Cursor.start, Cursor.viewBox?, Cursor.coordinate?_of_isComplete hxMin,
      Cursor.coordinate?_of_isComplete hyMin, Cursor.coordinate?_of_isComplete hxMax,
      Cursor.coordinate?_of_isComplete hyMax, Option.bind_eq_bind, Option.bind_some, Nat.zero_add]

theorem viewBox?_eq_none_iff {program : Bytes} :
    (Cursor.start program).viewBox? = none ↔ ¬ ∃ box, BeginsWithBox program box := by
  simp only [← exists_viewBox?_iff, Option.eq_none_iff_forall_ne_some, Prod.forall, ne_eq,
    not_exists]

/-! ## Drawings -/

/-- The first call of a drawing shows the view box. -/
theorem head?_calls_of_beginsWithBox {program : Bytes} {box : ViewBox}
    (hbox : BeginsWithBox program box) (palette : PaletteChoice) :
    (draw program palette).calls.head? = some (.viewBox box) := by
  obtain ⟨place, hread⟩ := exists_viewBox?_iff.mpr hbox
  rw [← map_call_issuedCalls, issuedCalls_of_viewBox? hread]
  rfl

theorem calls_of_emptyImage {program : Bytes} {palette : PaletteChoice}
    (hempty : (draw program palette).result = .error .emptyImage) :
    (draw program palette).calls = [.error .emptyImage] := by
  rw [result_draw_eq_emptyImage_iff] at hempty
  unfold draw
  rw [hempty]
  rfl

/-- The view box of a program is shown as a whole or not at all. -/
structure ShowsBoxOrFails (program : Bytes) (palette : PaletteChoice) : Prop where
  emptyImage_iff : (draw program palette).result = .error .emptyImage ↔
    ¬ ∃ box, BeginsWithBox program box
  not_shown : (draw program palette).result = .error .emptyImage →
    ∀ box, .viewBox box ∉ (draw program palette).calls
  /-- What stands behind the program makes no difference to the box, and neither do colors. -/
  shown : ∀ box, BeginsWithBox program box → ∀ behind others,
    (draw (program ++ behind) others).calls.head? = some (.viewBox box)

theorem showsBoxOrFails (program : Bytes) (palette : PaletteChoice) :
    ShowsBoxOrFails program palette where
  emptyImage_iff := (result_draw_eq_emptyImage_iff program palette).trans viewBox?_eq_none_iff
  not_shown := by
    intro hempty box hmem
    rw [calls_of_emptyImage hempty] at hmem
    cases List.mem_singleton.mp hmem
  shown := by
    intro box hbox behind others
    exact head?_calls_of_beginsWithBox (hbox.append behind) others

/-- **A coordinate is told to be there exactly if nothing behind its bytes affects it, and no read
gets behind the end.**  So the view box of a program is there as a whole, whatever is appended, or
there is no image. -/
theorem coordinates_allOrNothing :
    (∀ cursor : Cursor,
      (cursor.hasCoordinate = true ↔ cursor.Unaffected) ∧
        cursor.coordinate.2.position ≤ cursor.position + cursor.rest.length) ∧
      ∀ program palette, ShowsBoxOrFails program palette := by
  refine ⟨fun cursor => ⟨cursor.hasCoordinate_iff_unaffected, ?_⟩, showsBoxOrFails⟩
  have hend := (Cursor.reaches_coordinate cursor).position_add_length_rest
  omega

end VectorIcons
