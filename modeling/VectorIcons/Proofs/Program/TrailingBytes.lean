import VectorIcons.Proofs.Program.Passage

/-!
# Bytes behind a program

The end of a program acts as a stop with zeros before it: an operand that is cut short is filled up
with zeros, and a path that is still open is closed.  So zeros behind a program make no difference,
wherever it ends.  Behind a stop or an unknown opcode nothing is read, so there no bytes make a
difference at all.

## Strategy

The program with zeros is passed as the one without (`Cursor.tracks_filledUp`), though the cursors
stand at different positions where the zeros are already read.  What is left of the zeros is a
stop, `sameOutcome_of_stop`.  A stop or an unknown opcode is the same with any bytes behind it,
`Cursor.alike_of_final`, because it is told by its first byte and has no points.
-/

namespace VectorIcons

/-- Two drawings that make the same calls and end alike.  They may tell different things about
themselves. -/
def Drawing.SameOutcome (first second : Drawing) : Prop :=
  first.calls = second.calls ∧ first.result = second.result

/-! ## Executions that end -/

section Endings

variable {palette : PaletteChoice} {execution : Execution} {instruction : Instruction}

/-- The length of a program has no part in how its drawing comes out. -/
theorem sameOutcome_finish (execution : Execution) (length other : Nat) :
    (execution.finish length).SameOutcome (execution.finish other) := by
  unfold Execution.finish
  cases execution.progress <;> exact ⟨rfl, rfl⟩

/-- To stop is what an execution does at the end anyway. -/
theorem sameOutcome_of_stop (hrunning : execution.progress = .running)
    (hstop : instruction.operation.value = .stop) (length other : Nat) :
    ((execution.perform palette instruction).finish length).SameOutcome
      (execution.finish other) := by
  unfold Execution.perform
  rw [hstop]
  unfold Execution.finish
  rw [hrunning]
  exact ⟨rfl, rfl⟩

/-- Whether an operation ends every drawing that comes to it. -/
def Operation.IsFinal (operation : Operation) : Prop :=
  operation = .stop ∨ ∃ opcode, operation = .unknown opcode

theorem progress_ne_running_of_final (palette : PaletteChoice)
    (hrunning : execution.progress = .running)
    (hfinal : instruction.operation.value.IsFinal) :
    (execution.perform palette instruction).progress ≠ .running := by
  rw [Execution.progress_perform hrunning, Instruction.progress]
  rcases hfinal with hstop | ⟨opcode, hunknown⟩
  · rw [hstop]
    exact Progress.noConfusion
  · rw [hunknown]
    exact Progress.noConfusion

end Endings

namespace Cursor

theorem points_of_final {place : Cursor}
    (hfinal : place.instruction.1.operation.value.IsFinal) : place.instruction.1.points = [] := by
  rw [← List.length_eq_zero_iff, (wellFormed_instruction place).length_points]
  rcases hfinal with hstop | ⟨opcode, hunknown⟩
  · rw [hstop]
    rfl
  · rw [hunknown]
    rfl

theorem byte_append {place : Cursor} (hmore : place.rest ≠ []) (behind : Bytes) :
    place.byte.1 = (Cursor.mk place.position (place.rest ++ behind)).byte.1 := by
  obtain ⟨position, _ | ⟨first, rest⟩⟩ := place
  · exact absurd rfl hmore
  · rfl

/-- One byte is enough to tell a stop or an unknown opcode. -/
theorem alike_of_final {place other : Cursor} (hposition : place.position = other.position)
    (hbyte : place.byte.1 = other.byte.1)
    (hfinal : place.instruction.1.operation.value.IsFinal) :
    place.instruction.1.Alike other.instruction.1 := by
  have hoperation : other.instruction.1.operation.value = place.instruction.1.operation.value := by
    rcases hfinal with hstop | ⟨opcode, hunknown⟩
    · rw [hstop]
      refine other.spells_operation.stop_iff.mpr ?_
      rw [← hbyte]
      exact place.spells_operation.stop_iff.mp hstop
    · rw [hunknown]
      refine (other.spells_operation.unknown_iff opcode).mpr ?_
      rw [← hbyte]
      exact (place.spells_operation.unknown_iff opcode).mp hunknown
  have hpoints := points_of_final hfinal
  have hothers : other.instruction.1.points = [] := points_of_final (hoperation ▸ hfinal)
  exact ⟨hposition, hoperation.symm, by rw [hpoints, hothers]⟩

end Cursor

/-! ## Whole drawings -/

section Drawings

variable {program : Bytes} {palette : PaletteChoice} {place : Cursor} {execution : Execution}

/-- What stands behind a stop or an unknown opcode makes no difference. -/
theorem sameOutcome_append_of_final (hpasses : Passes program palette place execution)
    (hrunning : execution.progress = .running) (hmore : place.rest ≠ [])
    (hfinal : place.instruction.1.operation.value.IsFinal) (behind : Bytes) :
    (draw (program ++ behind) palette).SameOutcome (draw program palette) := by
  have hother := hpasses.instead hmore (place.rest ++ behind)
  have hprogram : program.take place.position ++ (place.rest ++ behind) = program ++ behind := by
    obtain ⟨taken, hrest, hposition⟩ := hpasses.reaches
    have hlength : taken.length = place.position := by
      simp [hposition, Cursor.start]
    rw [show program = taken ++ place.rest from hrest, List.take_left' hlength, List.append_assoc]
  rw [hprogram] at hother
  have halike : place.instruction.1.Alike
      (Cursor.mk place.position (place.rest ++ behind)).instruction.1 :=
    Cursor.alike_of_final rfl (Cursor.byte_append hmore behind) hfinal
  have hended := progress_ne_running_of_final palette hrunning hfinal
  rw [(hpasses.next hrunning hmore).draw_eq_finish_of_ends (.inl hended)]
  rw [Execution.perform_of_alike halike] at hended ⊢
  rw [(hother.next hrunning (by simp [hmore])).draw_eq_finish_of_ends (.inl hended)]
  exact sameOutcome_finish _ _ _

/-- Zeros behind a program are passed without a trace, up to where it ends. -/
theorem Passes.filledUp (hpasses : Passes program palette place execution) (count : Nat) :
    ∃ other, Passes (program ++ List.replicate count 0) palette other execution ∧
      Cursor.FilledUp place other := by
  have hbegin : ∀ box first, (Cursor.start program).viewBox? = some (box, first) →
      ∃ other, (Cursor.start (program ++ List.replicate count 0)).viewBox? = some (box, other) ∧
        Cursor.FilledUp first other := by
    intro box first hread
    obtain ⟨taken, hrest, hposition, hsettles⟩ := Cursor.settles_viewBox? hread
    have hprogram : program = taken ++ first.rest := hrest
    have hother := hsettles (first.rest ++ List.replicate count 0)
    rw [← List.append_assoc, ← hprogram] at hother
    exact ⟨_, hother, ⟨count, rfl⟩, fun _ => rfl⟩
  rcases hpasses.tracked Cursor.tracks_filledUp Cursor.FilledUp.position_eq hbegin with
    hpast | hother
  · exact hpast.elim
  · exact hother

theorem sameOutcome_append_zeros (hread : (Cursor.start program).viewBox? ≠ none)
    (palette : PaletteChoice) (count : Nat) :
    (draw (program ++ List.replicate count 0) palette).SameOutcome (draw program palette) := by
  obtain ⟨⟨box, first⟩, hread⟩ := Option.ne_none_iff_exists'.mp hread
  have hbegin : Passes program palette first (.start box) := .begin hread
  obtain ⟨last, ended, hlast, hends⟩ := hbegin.exists_ends
  obtain ⟨other, hother, hfilled⟩ := hlast.filledUp count
  rw [hlast.draw_eq_finish_of_ends hends]
  by_cases hrunning : ended.progress = .running
  · by_cases hend : other.rest = []
    · rw [hother.draw_eq_finish_of_ends (.inr hend)]
      exact sameOutcome_finish _ _ _
    · -- The program has ended, so the next of the zeros is read as an opcode.
      have hlastEnd : last.rest = [] := hends.resolve_left (not_not_intro hrunning)
      have hstop : other.instruction.1.operation.value = .stop :=
        other.spells_operation.stop_iff.mpr (hfilled.byte_of_end hlastEnd).1
      have hstopped := progress_ne_running_of_final palette hrunning (.inl hstop)
      rw [(hother.next hrunning hend).draw_eq_finish_of_ends (.inl hstopped)]
      exact sameOutcome_of_stop hrunning hstop _ _
  · rw [hother.draw_eq_finish_of_ends (.inl hrunning)]
    exact sameOutcome_finish _ _ _

end Drawings

/-- What bytes behind a program do to its drawing. -/
structure EndsLikeStop (program : Bytes) (palette : PaletteChoice) : Prop where
  zeros : ∀ count,
    (draw (program ++ List.replicate count 0) palette).SameOutcome (draw program palette)
  stop : ∀ offset calls, ReadsOpcode program palette offset calls → program[offset]? = some 0x00 →
    ∀ behind, (draw (program ++ behind) palette).SameOutcome (draw program palette)
  invalidOpcode : ∀ position opcode,
    (draw program palette).result = .error (.invalidOpcode position opcode) →
    ∀ behind, (draw (program ++ behind) palette).SameOutcome (draw program palette)

/-- **A program ends as if a stop followed it**, with zeros for an operand that is cut short. -/
theorem endsLikeStop {program : Bytes} {palette : PaletteChoice}
    (hbox : (draw program palette).result ≠ .error .emptyImage) :
    EndsLikeStop program palette where
  zeros := by
    rw [Ne, result_draw_eq_emptyImage_iff] at hbox
    exact sameOutcome_append_zeros hbox palette
  stop := by
    rintro offset calls ⟨place, execution, hpasses, hrunning, hmore, rfl, -⟩ hbyte
    rw [hpasses.reaches.getElem?_position hmore, Option.some.injEq] at hbyte
    have hstop := place.spells_operation.stop_iff.mpr hbyte
    exact sameOutcome_append_of_final hpasses hrunning hmore (.inl hstop)
  invalidOpcode := by
    intro position opcode hresult
    obtain ⟨place, execution, hpasses, hrunning, hmore, hfailed, -⟩ :=
      exists_failing_opcode hresult DrawError.noConfusion
    rcases Instruction.progress_eq_failed_iff.mp hfailed with
      ⟨_, -, -, hcause⟩ | ⟨other, hunknown, -⟩
    · cases hcause
    · exact sameOutcome_append_of_final hpasses hrunning hmore (.inr ⟨other, hunknown⟩)

/-- A line whose last coordinate has only one of its four bytes. -/
theorem endsLikeStop_of_cut_line :
    (draw [0x81, 0x81, 0xa1, 0xa1, 0x70, 0x83, 0x85, 0x80, 0x87, 0x88] ⟨none, 0⟩).result ≠
        .error .emptyImage ∧
      EndsLikeStop [0x81, 0x81, 0xa1, 0xa1, 0x70, 0x83, 0x85, 0x80, 0x87, 0x88] ⟨none, 0⟩ := by
  have hbox : (draw [0x81, 0x81, 0xa1, 0xa1, 0x70, 0x83, 0x85, 0x80, 0x87, 0x88]
      ⟨none, 0⟩).result ≠ .error .emptyImage :=
    (not_congr (result_draw_eq_emptyImage_iff _ _)).mpr (by decide +kernel)
  exact ⟨hbox, endsLikeStop hbox⟩

end VectorIcons
