import VectorIcons.Proofs.Program.Passage

/-!
# Drawings degrade cleanly

Where an opcode is read, everything before it has taken effect and nothing behind it has.  So the
bytes before it, drawn alone, make the calls that were made until then, and a path that was left
open is closed: `CutsCleanly.cut`.  An opcode that fails is read like any other, so the calls of a
drawing that failed are those before the failing opcode, and the failure.

`cutsCleanly` says this for every program and every palette.
-/

namespace VectorIcons

/-! ## Whole drawings -/

/-- How a drawing of `program` degrades. -/
structure CutsCleanly (program : Bytes) (palette : PaletteChoice) : Prop where
  /-- Opcodes are read where instructions of the program begin, if a drawing comes to them. -/
  reads_iff : ∀ offset calls, ReadsOpcode program palette offset calls ↔
    ∃ box first before instruction after,
      (Cursor.start program).viewBox? = some (box, first) ∧
        first.instructions.1 = before ++ instruction :: after ∧
        (before.foldl (Execution.step palette) (.start box)).progress = .running ∧
        instruction.offset = offset ∧
        (before.foldl (Execution.step palette) (.start box)).calls.toList = calls
  /-- The bytes before an opcode draw the calls before it, and an open path is closed. -/
  cut : ∀ offset calls, ReadsOpcode program palette offset calls →
    (draw (program.take offset) palette).result = .ok () ∧
      (LeavesOpen calls → (draw (program.take offset) palette).calls = calls ++ [.closePath]) ∧
      (¬ LeavesOpen calls → (draw (program.take offset) palette).calls = calls)
  /-- An offset tells which calls were made before it. -/
  calls_unique : ∀ offset calls others, ReadsOpcode program palette offset calls →
    ReadsOpcode program palette offset others → calls = others
  emptyImage : (draw program palette).result = .error .emptyImage →
    (draw program palette).calls = [.error .emptyImage]
  /-- Every other failure stands at an opcode, and follows the calls before it. -/
  failure : ∀ cause, (draw program palette).result = .error cause → cause ≠ .emptyImage →
    ∃ calls, ReadsOpcode program palette cause.position calls ∧
      (draw program palette).calls = calls ++ [.error cause]
  invalidOpcode : ∀ position opcode,
    (draw program palette).result = .error (.invalidOpcode position opcode) →
      program[position]? = some opcode ∧ ¬ IsOpcode opcode
  invalidPaletteIndex : ∀ position index,
    (draw program palette).result = .error (.invalidPaletteIndex position index) →
      program[position]? = some 0x02 ∧ index = (program.getD (position + 1) 0).toNat ∧
        palette.color? index = none

theorem cut_of_readsOpcode {program : Bytes} {palette : PaletteChoice} {offset : Nat}
    {calls : List CanvasCall} (hreads : ReadsOpcode program palette offset calls) :
    (draw (program.take offset) palette).result = .ok () ∧
      (LeavesOpen calls → (draw (program.take offset) palette).calls = calls ++ [.closePath]) ∧
      (¬ LeavesOpen calls → (draw (program.take offset) palette).calls = calls) := by
  obtain ⟨place, execution, hpasses, hrunning, hmore, rfl, rfl⟩ := hreads
  have hdraw := (hpasses.instead hmore []).draw_eq_finish_of_ends (.inr rfl)
  rw [List.append_nil] at hdraw
  have hresult : (execution.finish (program.take place.position).length).result = .ok () := by
    unfold Execution.finish
    rw [hrunning]
  have hending : execution.endingCalls = closing execution.pathOpen := by
    unfold Execution.endingCalls
    rw [hrunning]
  have hopen_iff := hpasses.sound.pathOpen_iff
  rw [hdraw, Execution.calls_finish_eq, hending, closing]
  refine ⟨hresult, fun hopen => ?_, fun hclosed => ?_⟩
  · rw [if_pos (hopen_iff.mpr hopen)]
  · rw [if_neg (mt hopen_iff.mp hclosed), List.append_nil]

/-- Closing a path is never the last call before an opcode. -/
theorem not_endsClosing_of_readsOpcode {program : Bytes} {palette : PaletteChoice} {offset : Nat}
    {calls : List CanvasCall} (hreads : ReadsOpcode program palette offset calls) :
    ¬ EndsClosing calls := by
  obtain ⟨place, execution, hpasses, hrunning, -, -, rfl⟩ := hreads
  exact hpasses.sound.not_endsClosing_of_running hrunning

theorem calls_eq_of_readsOpcode {program : Bytes} {palette : PaletteChoice} {offset : Nat}
    {calls others : List CanvasCall} (hreads : ReadsOpcode program palette offset calls)
    (hothers : ReadsOpcode program palette offset others) : calls = others := by
  have hends : ∀ earlier, EndsClosing (earlier ++ [.closePath]) := fun _ =>
    List.getLast?_concat
  obtain ⟨-, hopen, hclosed⟩ := cut_of_readsOpcode hreads
  obtain ⟨-, hothersOpen, hothersClosed⟩ := cut_of_readsOpcode hothers
  -- Both are what the same cut draws, but perhaps for a closing, and no closing is the last call.
  by_cases hleaves : LeavesOpen calls <;> by_cases hothersLeave : LeavesOpen others
  · exact List.append_cancel_right ((hopen hleaves).symm.trans (hothersOpen hothersLeave))
  · have heq := (hopen hleaves).symm.trans (hothersClosed hothersLeave)
    exact absurd (heq ▸ hends calls) (not_endsClosing_of_readsOpcode hothers)
  · have heq := (hothersOpen hothersLeave).symm.trans (hclosed hleaves)
    exact absurd (heq ▸ hends others) (not_endsClosing_of_readsOpcode hreads)
  · exact (hclosed hleaves).symm.trans (hothersClosed hothersLeave)

theorem byte_behind_paletteFill {place : Cursor} {index : UInt8} (hmore : place.rest ≠ [])
    (hoperation : place.instruction.1.operation.value = .paletteFill index) :
    place.byte.2.position = place.position + 1 ∧ place.byte.2.byte.1 = index := by
  have hindex := place.readsOperands_operation.paletteFill index hoperation
  obtain ⟨position, _ | ⟨opcode, operands⟩⟩ := place
  · exact absurd rfl hmore
  · exact ⟨rfl, congrArg Prod.fst hindex⟩

/-- **Drawings degrade cleanly at every opcode**: the program cut there draws what was drawn until
then, and a failing opcode adds nothing but its failure. -/
theorem cutsCleanly (program : Bytes) (palette : PaletteChoice) : CutsCleanly program palette where
  reads_iff _ _ := readsOpcode_iff
  cut _ _ := cut_of_readsOpcode
  calls_unique _ _ _ := calls_eq_of_readsOpcode
  emptyImage hresult := by
    rw [result_draw_eq_emptyImage_iff] at hresult
    unfold draw
    rw [hresult]
    rfl
  failure := by
    intro cause hresult hcause
    obtain ⟨place, execution, hpasses, hrunning, hmore, hfailed, hcalls⟩ :=
      exists_failing_opcode hresult hcause
    refine ⟨_, ⟨place, execution, hpasses, hrunning, hmore, ?_, rfl⟩, hcalls⟩
    rcases Instruction.progress_eq_failed_iff.mp hfailed with ⟨_, -, -, rfl⟩ | ⟨_, -, rfl⟩ <;> rfl
  invalidOpcode := by
    intro position opcode hresult
    obtain ⟨place, execution, hpasses, -, hmore, hfailed, -⟩ :=
      exists_failing_opcode hresult DrawError.noConfusion
    rcases Instruction.progress_eq_failed_iff.mp hfailed with
      ⟨index, -, -, hcause⟩ | ⟨other, hoperation, hcause⟩
    · cases hcause
    · cases hcause
      obtain ⟨hbyte, hunknown⟩ := (place.spells_operation.unknown_iff opcode).mp hoperation
      rw [hbyte]
      exact ⟨hpasses.reaches.getElem?_position hmore, hunknown⟩
  invalidPaletteIndex := by
    intro position index hresult
    obtain ⟨place, execution, hpasses, -, hmore, hfailed, -⟩ :=
      exists_failing_opcode hresult DrawError.noConfusion
    rcases Instruction.progress_eq_failed_iff.mp hfailed with
      ⟨byte, hoperation, hcolor, hcause⟩ | ⟨other, -, hcause⟩
    · cases hcause
      obtain ⟨hposition, hindex⟩ := byte_behind_paletteFill hmore hoperation
      have hopcode := place.spells_operation.paletteFill byte hoperation
      refine ⟨hopcode ▸ hpasses.reaches.getElem?_position hmore, ?_, hcolor⟩
      have hbehind := (hpasses.reaches.trans place.reaches_byte).getD_position
      rw [hposition, hindex] at hbehind
      exact congrArg UInt8.toNat hbehind.symm
    · cases hcause

end VectorIcons
