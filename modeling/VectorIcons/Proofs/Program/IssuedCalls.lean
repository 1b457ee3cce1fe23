import VectorIcons.Proofs.Program.ListingDrawing

/-!
# The instruction behind a call

Each call of a drawing is made for an instruction, apart from the view box, the closing of
a path at the end of the program, and the failure.  `issuedCalls` is the list of calls with
these instructions: `map_call_issuedCalls`.

## Strategy

What an instruction adds to the calls depends only on whether a path is open
(`Instruction.calls`, `toList_perform`), and calls are never taken back.  So the calls of a
run are those of its instructions one after another.

An instruction also has an offset, and offsets increase (`pairwise_offset_instructions`).
A run fails at the offset of one of its instructions, `exists_offset_of_failed`, so failures
can be compared by their place.
-/

namespace VectorIcons

/-- A call with the instruction that it is made for. -/
structure IssuedCall where
  /-- There is none for the view box, the closing at the end, and a failure. -/
  source : Option Instruction
  call : CanvasCall
deriving DecidableEq, Repr

/-! ## What one instruction adds -/

/-- The call that closes a path, if one is open. -/
def closing (pathOpen : Bool) : List CanvasCall := if pathOpen then [.closePath] else []

/-- The calls that an instruction makes where a path is open or not. -/
def Instruction.calls (palette : PaletteChoice) (pathOpen : Bool) (instruction : Instruction) :
    List CanvasCall :=
  match instruction.operation.value with
  | .stop => closing pathOpen
  | .solidFill color => closing pathOpen ++ [.setSolidFill color]
  | .paletteFill index =>
      match palette.color? index.toNat with
      | some color => closing pathOpen ++ [.setSolidFill color]
      | none => []
  | .moveTo continues =>
      (if continues then [] else closing pathOpen) ++
        (instruction.points.map Spelled.value).map .moveTo
  | .segments kind _ => [.segments kind (instruction.points.map Spelled.value)]
  | .unknown _ => []

/-- How far a running execution has come behind an instruction. -/
def Instruction.progress (palette : PaletteChoice) (instruction : Instruction) : Progress :=
  match instruction.operation.value with
  | .stop => .stopped
  | .paletteFill index =>
      match palette.color? index.toNat with
      | some _ => .running
      | none => .failed (.invalidPaletteIndex instruction.offset index.toNat)
  | .unknown opcode => .failed (.invalidOpcode instruction.offset opcode)
  | _ => .running

/-- The calls of an instruction, named as its own. -/
def Instruction.issued (palette : PaletteChoice) (pathOpen : Bool) (instruction : Instruction) :
    List IssuedCall :=
  (instruction.calls palette pathOpen).map (⟨some instruction, ·⟩)

/-- A run of instructions: the execution behind them, and the calls that they made. -/
structure Run where
  ended : Execution
  calls : List IssuedCall

/-- The run with some calls before it. -/
def Run.after (earlier : List IssuedCall) (run : Run) : Run := ⟨run.ended, earlier ++ run.calls⟩

namespace Execution

theorem toList_closePath (execution : Execution) :
    execution.closePath.calls.toList = execution.calls.toList ++ closing execution.pathOpen := by
  unfold closePath closing
  split
  · exact toList_emit execution .closePath
  · exact (List.append_nil _).symm

theorem toList_moveTo (execution : Execution) (points : List Point) :
    (execution.moveTo points).calls.toList =
      execution.calls.toList ++ points.map CanvasCall.moveTo := by
  unfold moveTo
  induction points generalizing execution with
  | nil => simp
  | cons point points ih =>
      rw [List.foldl_cons, ih, toList_emit, List.append_assoc]
      rfl

theorem pathOpen_moveTo (execution : Execution) (points : List Point) :
    (execution.moveTo points).pathOpen = execution.pathOpen := by
  unfold moveTo
  induction points generalizing execution with
  | nil => rfl
  | cons point points ih =>
      rw [List.foldl_cons, ih]
      rfl

/-- An instruction only adds calls. -/
theorem toList_perform (palette : PaletteChoice) (execution : Execution)
    (instruction : Instruction) :
    (execution.perform palette instruction).calls.toList =
      execution.calls.toList ++ instruction.calls palette execution.pathOpen := by
  have hfill : ∀ color, (execution.closePath.emit (.setSolidFill color)).calls.toList =
      execution.calls.toList ++ (closing execution.pathOpen ++ [.setSolidFill color]) := by
    intro color
    rw [toList_emit, toList_closePath, List.append_assoc]
  unfold perform Instruction.calls
  cases instruction.operation.value with
  | stop => exact toList_closePath execution
  | solidFill color => exact hfill color
  | paletteFill index =>
      dsimp only
      cases palette.color? index.toNat with
      | some color => exact hfill color
      | none => exact (List.append_nil _).symm
  | moveTo continues =>
      dsimp only
      rw [toList_moveTo]
      cases continues with
      | true => simp
      | false => simp [toList_closePath]
  | segments kind count => exact toList_emit execution _
  | unknown opcode => exact (List.append_nil _).symm

theorem progress_perform {execution : Execution} (hrunning : execution.progress = .running)
    (palette : PaletteChoice) (instruction : Instruction) :
    (execution.perform palette instruction).progress = instruction.progress palette := by
  have hclosed : execution.closePath.progress = .running := by
    rw [progress_closePath, hrunning]
  unfold perform Instruction.progress
  cases instruction.operation.value with
  | stop => rfl
  | solidFill color => exact hclosed
  | paletteFill index =>
      dsimp only
      cases palette.color? index.toNat with
      | some color => exact hclosed
      | none => rfl
  | moveTo continues =>
      dsimp only
      rw [progress_moveTo]
      cases continues with
      | true => exact hrunning
      | false => exact hclosed
  | segments kind count => exact hrunning
  | unknown opcode => rfl

theorem calls_prefix_step (palette : PaletteChoice) (execution : Execution)
    (instruction : Instruction) :
    execution.calls.toList <+: (execution.step palette instruction).calls.toList := by
  by_cases hrunning : execution.progress = .running
  · rw [step_of_running hrunning, toList_perform]
    exact List.prefix_append _ _
  · simp only [step_of_not_running hrunning, List.prefix_rfl]

/-! ## What a run adds -/

/-- The calls that are made for some instructions, each with its instruction. -/
def issued (palette : PaletteChoice) : Execution → List Instruction → List IssuedCall
  | _, [] => []
  | execution, instruction :: others =>
      let after := execution.step palette instruction
      (after.calls.toList.drop execution.calls.size).map (⟨some instruction, ·⟩) ++
        issued palette after others

theorem map_call_issued (palette : PaletteChoice) (execution : Execution)
    (instructions : List Instruction) :
    execution.calls.toList ++ (execution.issued palette instructions).map IssuedCall.call =
      (instructions.foldl (step palette) execution).calls.toList := by
  induction instructions generalizing execution with
  | nil => simp [issued]
  | cons instruction others ih =>
      obtain ⟨added, hadded⟩ := calls_prefix_step palette execution instruction
      have hdrop : (execution.step palette instruction).calls.toList.drop execution.calls.size =
          added := by
        rw [← hadded, ← Array.length_toList, List.drop_left]
      rw [List.foldl_cons, ← ih, issued, hdrop, ← hadded]
      simp [Function.comp_def]

/-- Runs some instructions. -/
def run (palette : PaletteChoice) (execution : Execution) (instructions : List Instruction) : Run :=
  ⟨instructions.foldl (step palette) execution, execution.issued palette instructions⟩

theorem run_cons {execution : Execution} (hrunning : execution.progress = .running)
    (palette : PaletteChoice) (instruction : Instruction) (others : List Instruction) :
    execution.run palette (instruction :: others) =
      ((execution.perform palette instruction).run palette others).after
        (instruction.issued palette execution.pathOpen) := by
  unfold run Run.after
  rw [List.foldl_cons, issued, step_of_running hrunning, toList_perform, ← Array.length_toList,
    List.drop_left]
  rfl

/-- An execution that has ended makes no more calls. -/
theorem run_of_not_running (palette : PaletteChoice) {execution : Execution}
    (hended : execution.progress ≠ .running) (instructions : List Instruction) :
    execution.run palette instructions = ⟨execution, []⟩ := by
  have hissued : execution.issued palette instructions = [] := by
    induction instructions with
    | nil => rfl
    | cons instruction others ih =>
        rw [issued, step_of_not_running hended, ih, ← Array.length_toList, List.drop_length]
        rfl
  rw [run, foldl_step_of_not_running palette hended, hissued]

/-- The calls behind the last instruction. -/
def endingCalls (execution : Execution) : List CanvasCall :=
  match execution.progress with
  | .running => closing execution.pathOpen
  | .stopped => []
  | .failed cause => [.error cause]

theorem calls_finish_eq (execution : Execution) (length : Nat) :
    (execution.finish length).calls = execution.calls.toList ++ execution.endingCalls := by
  unfold finish endingCalls
  cases execution.progress with
  | running => exact toList_closePath execution
  | stopped => exact (List.append_nil _).symm
  | failed cause => rfl

theorem result_finish_eq_error_iff {execution : Execution} {length : Nat} {cause : DrawError} :
    (execution.finish length).result = .error cause ↔ execution.progress = .failed cause := by
  unfold finish
  cases execution.progress with
  | running => simp
  | stopped => simp
  | failed other => simp [Drawing.failure]

/-! ## Where a run fails -/

/-- An instruction that fails does so at its offset. -/
theorem position_of_perform_failed {palette : PaletteChoice} {execution : Execution}
    {instruction : Instruction} {cause : DrawError} (hrunning : execution.progress = .running)
    (hfailed : (execution.perform palette instruction).progress = .failed cause) :
    cause.position = instruction.offset := by
  rw [progress_perform hrunning, Instruction.progress] at hfailed
  split at hfailed
  · cases hfailed
  · split at hfailed
    · cases hfailed
    · cases hfailed
      rfl
  · cases hfailed
    rfl
  · cases hfailed

theorem exists_offset_of_failed {palette : PaletteChoice} {execution : Execution}
    {instructions : List Instruction} {cause : DrawError}
    (hrunning : execution.progress = .running)
    (hfailed : (instructions.foldl (step palette) execution).progress = .failed cause) :
    ∃ instruction ∈ instructions, cause.position = instruction.offset := by
  induction instructions generalizing execution with
  | nil => cases hrunning.symm.trans hfailed
  | cons instruction others ih =>
      rw [List.foldl_cons, step_of_running hrunning] at hfailed
      by_cases hstill : (execution.perform palette instruction).progress = .running
      · obtain ⟨later, hlater, hposition⟩ := ih hstill hfailed
        exact ⟨later, List.mem_cons_of_mem _ hlater, hposition⟩
      · rw [foldl_step_of_not_running palette hstill] at hfailed
        exact ⟨instruction, List.mem_cons_self, position_of_perform_failed hrunning hfailed⟩

end Execution

/-! ## Offsets -/

namespace Cursor

theorem position_lt_position_instruction {cursor : Cursor} (hnonempty : cursor.rest ≠ []) :
    cursor.position < cursor.instruction.2.position := by
  obtain ⟨taken, hrest, hposition⟩ := cursor.reaches_instruction
  have hlength := length_instruction_lt hnonempty
  rw [hrest, List.length_append] at hlength
  omega

/-- No instruction begins before the place where reading begins, and offsets increase. -/
theorem pairwise_offset_instructions (cursor : Cursor) :
    (∀ instruction ∈ cursor.instructions.1, cursor.position ≤ instruction.offset) ∧
      cursor.instructions.1.Pairwise fun earlier later => earlier.offset < later.offset := by
  -- The instructions behind the first one begin where it ends.
  induction hlength : cursor.rest.length using Nat.strongRecOn generalizing cursor with
  | ind length ih =>
      have hoffset : cursor.instruction.1.offset = cursor.position := rfl
      rw [instructions_eq]
      split
      · simp
      · rename_i hnonempty
        split
        · simp [hoffset]
        · have hfurther := position_lt_position_instruction hnonempty
          obtain ⟨hfrom, hordered⟩ :=
            ih _ (hlength ▸ length_instruction_lt hnonempty) cursor.instruction.2 rfl
          constructor
          · intro instruction hmem
            rcases List.mem_cons.mp hmem with rfl | hmem
            · exact Nat.le_refl _
            · exact Nat.le_trans (Nat.le_of_lt hfurther) (hfrom instruction hmem)
          · apply List.Pairwise.cons
            · intro later hlater
              exact Nat.lt_of_lt_of_le hfurther (hfrom later hlater)
            · exact hordered

end Cursor

/-! ## Whole drawings -/

theorem draw_eq_finish {program : Bytes} {box : ViewBox} {place : Cursor}
    (hread : (Cursor.start program).viewBox? = some (box, place)) (palette : PaletteChoice) :
    draw program palette =
      ((Execution.start box).run palette place.instructions.1).ended.finish program.length := by
  unfold draw
  rw [hread]
  rfl

/-- The calls of a drawing, each with the instruction that it is made for. -/
def issuedCalls (program : Bytes) (palette : PaletteChoice) : List IssuedCall :=
  match (Cursor.start program).viewBox? with
  | none => [⟨none, .error .emptyImage⟩]
  | some (box, afterBox) =>
      let ended := afterBox.instructions.1.foldl (Execution.step palette) (.start box)
      ⟨none, .viewBox box⟩ :: (Execution.start box).issued palette afterBox.instructions.1 ++
        ((ended.finish program.length).calls.drop ended.calls.size).map (⟨none, ·⟩)

theorem issuedCalls_of_viewBox? {program : Bytes} {box : ViewBox} {place : Cursor}
    (hread : (Cursor.start program).viewBox? = some (box, place)) (palette : PaletteChoice) :
    issuedCalls program palette =
      ⟨none, .viewBox box⟩ :: ((Execution.start box).run palette place.instructions.1).calls ++
        ((Execution.start box).run palette place.instructions.1).ended.endingCalls.map
          (⟨none, ·⟩) := by
  unfold issuedCalls
  rw [hread]
  dsimp only
  rw [Execution.calls_finish_eq, ← Array.length_toList, List.drop_left]
  rfl

/-- The calls of a drawing are the calls that are issued. -/
theorem map_call_issuedCalls (program : Bytes) (palette : PaletteChoice) :
    (issuedCalls program palette).map IssuedCall.call = (draw program palette).calls := by
  cases hread : (Cursor.start program).viewBox? with
  | none =>
      unfold issuedCalls draw
      rw [hread]
      rfl
  | some read =>
      obtain ⟨box, place⟩ := read
      have hissued := Execution.map_call_issued palette (.start box) place.instructions.1
      rw [issuedCalls_of_viewBox? hread, draw_eq_finish hread, Execution.calls_finish_eq]
      unfold Execution.run
      rw [← hissued]
      simp [Execution.start, Function.comp_def]

end VectorIcons
