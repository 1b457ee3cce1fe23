import VectorIcons.Program.Drawing
import VectorIcons.Proofs.Program.CallShape
import VectorIcons.Proofs.Program.ListedOpcodes

/-!
# A listing tells what is drawn

The opcodes in the text of a listing, up to the first stop or invalid one, are those that a drawing
performs: `drawnAsListed`.  Each of them has an `outcome`, which is taken from its lines alone: the
calls that it makes, or the failure at its offset.  Its operands are the bytes in the column of its
own line, with zeros for those that are missing at the end of the program, and its points are those
that the columns of the lines below spell.

Closing a path is not the outcome of one opcode, so the calls are compared without it.

## Strategy

That the opcodes are the instructions is `listedOpcodes_lines_listing`.  What is left is the
execution: an instruction whose outcome is a failure only fails the execution
(`perform_of_error`), and any other adds its calls (`perform_of_ok`).
-/

namespace VectorIcons

/-- The elements up to the first one that is marked, which is the last of them. -/
def through {α : Type} (marked : α → Bool) : List α → List α
  | [] => []
  | element :: others =>
      if marked element then [element] else element :: through marked others

theorem mem_of_mem_through {α : Type} {marked : α → Bool} {element : α} {elements : List α}
    (hmem : element ∈ through marked elements) : element ∈ elements := by
  induction elements with
  | nil => exact hmem
  | cons first others ih =>
      rw [through] at hmem
      split at hmem
      · rw [List.mem_singleton.mp hmem]
        exact List.mem_cons_self
      · rcases List.mem_cons.mp hmem with rfl | hothers
        · exact List.mem_cons_self
        · exact List.mem_cons_of_mem first (ih hothers)

/-- Whether an instruction makes the call by itself. -/
def CanvasCall.isOutcome : CanvasCall → Bool
  | .setSolidFill _ | .moveTo _ | .segments _ _ => true
  | .viewBox _ | .closePath | .error _ => false

/-! ## Outcomes -/

/-- The point that the bytes in the column of a line spell. -/
def spelledPoint (line : String) : Point := (Cursor.start (hexColumn line)).point.1

namespace ListedOpcode

/-- Whether nothing is drawn behind the opcode. -/
def isEnd (opcode : ListedOpcode) : Bool :=
  decide (opcode.kind = .stop ∨ opcode.kind = .invalid)

/-- The byte at `index` behind the opcode in the column of bytes, zero if it is missing. -/
def operand (opcode : ListedOpcode) (index : Nat) : UInt8 := opcode.bytes.getD (index + 1) 0

def color (opcode : ListedOpcode) : Rgba :=
  ⟨opcode.operand 0, opcode.operand 1, opcode.operand 2, opcode.operand 3⟩

/-- The points that the lines below the opcode spell in their columns of bytes. -/
def points (opcode : ListedOpcode) : List Point := opcode.pointLines.map spelledPoint

/-- The calls that an opcode makes, or how it fails. -/
def outcome (palette : PaletteChoice) (opcode : ListedOpcode) :
    Except DrawError (List CanvasCall) :=
  match opcode.kind with
  | .stop => .ok []
  | .solidFill => .ok [.setSolidFill opcode.color]
  | .paletteFill =>
      match palette.color? (opcode.operand 0).toNat with
      | some color => .ok [.setSolidFill color]
      | none => .error (.invalidPaletteIndex opcode.offset (opcode.operand 0).toNat)
  | .moveTo _ => .ok (opcode.points.map .moveTo)
  | .segments kind => .ok [.segments kind opcode.points]
  | .invalid => .error (.invalidOpcode opcode.offset (opcode.bytes.getD 0 0))

def fails (palette : PaletteChoice) (opcode : ListedOpcode) : Bool :=
  !(opcode.outcome palette).isOk

/-- The calls of opcodes up to the first one that fails, and how it fails. -/
def outcomes (palette : PaletteChoice) : List ListedOpcode → List CanvasCall × Except DrawError Unit
  | [] => ([], .ok ())
  | opcode :: others =>
      match opcode.outcome palette with
      | .error cause => ([], .error cause)
      | .ok calls => (calls ++ (outcomes palette others).1, (outcomes palette others).2)

end ListedOpcode

/-- The opcodes in the text of a listing up to the first stop or invalid one. -/
def drawnOpcodes (text : String) : List ListedOpcode :=
  through ListedOpcode.isEnd (listedOpcodes 0 (Text.lines text))

/-- The instructions that an execution performs. -/
def Execution.performed (palette : PaletteChoice) : Execution → List Instruction → List Instruction
  | _, [] => []
  | execution, instruction :: others =>
      if execution.progress = .running then
        instruction :: performed palette (execution.step palette instruction) others
      else []

/-! ## Operands -/

namespace Cursor

/-- How the operands of an operation are read behind its opcode. -/
structure ReadsOperands (cursor after : Cursor) (operation : Operation) : Prop where
  solidFill : ∀ color, operation = .solidFill color → cursor.byte.2.color = (color, after)
  paletteFill : ∀ index, operation = .paletteFill index → cursor.byte.2.byte = (index, after)
  unknown : ∀ opcode, operation = .unknown opcode → cursor.byte = (opcode, after)

theorem readsOperands_operation (cursor : Cursor) :
    ReadsOperands cursor cursor.operation.2 cursor.operation.1 := by
  unfold operation
  dsimp only
  split
  · constructor <;> intro _ h <;> cases h
  split
  · constructor <;> intro _ h <;> cases h
    rfl
  split
  · constructor <;> intro _ h <;> cases h
    rfl
  split
  · constructor <;> intro _ h <;> cases h
  split
  · constructor <;> intro _ h <;> cases h
  split
  · unfold Operation.ofSegmentOpcode
    split
    · constructor <;> intro _ h <;> cases h
    · split <;> constructor <;> intro _ h <;> cases h
  · constructor <;> intro _ h <;> cases h
    rfl

end Cursor

/-- The line of a point has the numbers of the point that its bytes spell. -/
theorem spelledPoint_pointLine {place : Cursor} :
    spelledPoint (pointLine (place.spelled Cursor.point).1) =
      (place.spelled Cursor.point).1.value := by
  rw [spelledPoint, hexColumn_pointLine place.length_spelled_point_le]
  exact place.point_bytesUntil

/-- The bytes of an instruction, filled up with zeros, are its operands, and those of its points
spell the points. -/
structure Instruction.Legible (instruction : Instruction) : Prop where
  solidFill : ∀ color, instruction.operation.value = .solidFill color →
    instruction.listed.color = color
  paletteFill : ∀ index, instruction.operation.value = .paletteFill index →
    instruction.listed.operand 0 = index
  unknown : ∀ opcode, instruction.operation.value = .unknown opcode →
    instruction.listed.bytes = [opcode]
  points : ∀ shown ∈ instruction.points, shown.bytes.length ≤ 8 ∧
    spelledPoint (pointLine shown) = shown.value

theorem legible_instruction {place : Cursor} (hnonempty : place.rest ≠ []) :
    place.instruction.1.Legible := by
  have hreads := place.readsOperands_operation
  have hbytes : place.instruction.1.listed.bytes = place.bytesUntil place.operation.2 := rfl
  obtain ⟨position, _ | ⟨opcode, operands⟩⟩ := place
  · exact absurd rfl hnonempty
  refine ⟨fun color hcolor => ?_, fun index hindex => ?_, fun other hother => ?_, ?_⟩
  · -- Up to four of the operands are there.
    have hread := hreads.solidFill color hcolor
    unfold ListedOpcode.color ListedOpcode.operand
    rw [hbytes]
    rcases operands with _ | ⟨red, _ | ⟨green, _ | ⟨blue, _ | ⟨alpha, others⟩⟩⟩⟩
    all_goals
      obtain ⟨rfl, hafter⟩ := Prod.mk.inj hread
      rw [← hafter]
      simp [Cursor.bytesUntil, Cursor.byte, Nat.add_assoc]
  · have hread := hreads.paletteFill index hindex
    unfold ListedOpcode.operand
    rw [hbytes]
    rcases operands with _ | ⟨index, others⟩
    all_goals
      obtain ⟨rfl, hafter⟩ := Prod.mk.inj hread
      rw [← hafter]
      simp [Cursor.bytesUntil, Cursor.byte, Nat.add_assoc]
  · obtain ⟨rfl, hafter⟩ := Prod.mk.inj (hreads.unknown other hother)
    rw [hbytes, ← hafter]
    simp [Cursor.bytesUntil]
  · exact Cursor.forall_mem_repeated
      (fun place => ⟨place.length_spelled_point_le, spelledPoint_pointLine⟩) _ _

/-- The lines of its points show the points that their bytes spell. -/
theorem Instruction.Legible.pointLines_listed {instruction : Instruction}
    (hlegible : instruction.Legible) :
    ∀ line ∈ instruction.listed.pointLines,
      line = pointLine ⟨hexColumn line, spelledPoint line⟩ := by
  refine List.forall_mem_map.mpr fun shown hmem => ?_
  obtain ⟨hlength, hpoint⟩ := hlegible.points shown hmem
  rw [hexColumn_pointLine hlength, hpoint]

theorem Instruction.Legible.points_listed {instruction : Instruction}
    (hlegible : instruction.Legible) :
    instruction.listed.points = instruction.points.map Spelled.value := by
  rw [ListedOpcode.points, Instruction.listed, List.map_map]
  exact List.map_congr_left fun shown hmem => (hlegible.points shown hmem).2

/-! ## One instruction -/

namespace Execution

variable {palette : PaletteChoice} {execution : Execution} {instruction : Instruction}

/-- The calls that instructions made by themselves. -/
def shown (execution : Execution) : List CanvasCall :=
  execution.calls.toList.filter CanvasCall.isOutcome

theorem shown_emit (execution : Execution) (call : CanvasCall) :
    (execution.emit call).shown = execution.shown ++ [call].filter CanvasCall.isOutcome := by
  unfold shown emit
  rw [Array.toList_push, List.filter_append]

theorem shown_closePath (execution : Execution) : execution.closePath.shown = execution.shown := by
  unfold closePath
  split
  · exact (shown_emit execution .closePath).trans (List.append_nil _)
  · rfl

theorem shown_moveTo (execution : Execution) (points : List Point) :
    (execution.moveTo points).shown = execution.shown ++ points.map .moveTo := by
  unfold moveTo
  induction points generalizing execution with
  | nil => exact (List.append_nil _).symm
  | cons point points ih =>
      rw [List.foldl_cons, ih, shown_emit, List.append_assoc]
      rfl

theorem progress_moveTo (execution : Execution) (points : List Point) :
    (execution.moveTo points).progress = execution.progress := by
  unfold moveTo
  induction points generalizing execution with
  | nil => rfl
  | cons point points ih =>
      rw [List.foldl_cons, ih]
      rfl

/-- The outcome of a fill with a color of the palette. -/
theorem outcome_paletteFill (hlegible : instruction.Legible) {index : UInt8}
    (hoperation : instruction.operation.value = .paletteFill index) :
    instruction.listed.outcome palette =
      match palette.color? index.toNat with
      | some color => .ok [.setSolidFill color]
      | none => .error (.invalidPaletteIndex instruction.offset index.toNat) := by
  have hkind : instruction.listed.kind = .paletteFill := by
    rw [Instruction.listed, hoperation]
    rfl
  unfold ListedOpcode.outcome
  rw [hkind, hlegible.paletteFill index hoperation]
  rfl

theorem perform_of_error (hlegible : instruction.Legible) {cause : DrawError}
    (houtcome : instruction.listed.outcome palette = .error cause) :
    execution.perform palette instruction = { execution with progress := .failed cause } := by
  obtain ⟨offset, ⟨bytes, operation⟩, points⟩ := instruction
  cases operation with
  | stop | solidFill | moveTo | segments => cases houtcome
  | paletteFill index =>
      rw [outcome_paletteFill hlegible rfl] at houtcome
      unfold perform
      dsimp only at houtcome ⊢
      cases hcolor : palette.color? index.toNat with
      | some color =>
          rw [hcolor] at houtcome
          cases houtcome
      | none =>
          rw [hcolor] at houtcome
          cases houtcome
          rfl
  | unknown opcode =>
      have hbytes := hlegible.unknown opcode rfl
      change Except.error (DrawError.invalidOpcode offset (bytes.getD 0 0)) = _ at houtcome
      change bytes = [opcode] at hbytes
      cases houtcome
      rw [hbytes]
      rfl

theorem perform_of_ok (hlegible : instruction.Legible) {calls : List CanvasCall}
    (houtcome : instruction.listed.outcome palette = .ok calls) :
    (execution.perform palette instruction).shown = execution.shown ++ calls ∧
      (execution.perform palette instruction).progress =
        if instruction.listed.isEnd then .stopped else execution.progress := by
  have hfill (color : Rgba) :
      (execution.closePath.emit (.setSolidFill color)).shown =
        execution.shown ++ [.setSolidFill color] := by
    rw [shown_emit, shown_closePath]
    rfl
  obtain ⟨offset, ⟨bytes, operation⟩, points⟩ := instruction
  cases operation with
  | stop =>
      cases houtcome
      exact ⟨(shown_closePath execution).trans (List.append_nil _).symm, rfl⟩
  | solidFill color =>
      cases houtcome
      rw [hlegible.solidFill color rfl]
      exact ⟨hfill color, progress_closePath execution⟩
  | paletteFill index =>
      rw [outcome_paletteFill hlegible rfl] at houtcome
      unfold perform
      dsimp only at houtcome ⊢
      cases hcolor : palette.color? index.toNat with
      | some color =>
          rw [hcolor] at houtcome
          cases houtcome
          exact ⟨hfill color, progress_closePath execution⟩
      | none =>
          rw [hcolor] at houtcome
          cases houtcome
  | moveTo continues =>
      cases houtcome
      rw [hlegible.points_listed]
      unfold perform
      cases continues with
      | false =>
          refine ⟨?_, (progress_moveTo _ _).trans (progress_closePath execution)⟩
          exact (shown_moveTo _ _).trans (by rw [if_neg Bool.false_ne_true, shown_closePath])
      | true => exact ⟨shown_moveTo _ _, progress_moveTo _ _⟩
  | segments kind count =>
      cases houtcome
      rw [hlegible.points_listed]
      exact ⟨shown_emit _ _, rfl⟩
  | unknown opcode => cases houtcome

/-! ## All instructions -/

theorem foldl_step_of_not_running (palette : PaletteChoice) {execution : Execution}
    (hended : execution.progress ≠ .running) (instructions : List Instruction) :
    instructions.foldl (step palette) execution = execution := by
  induction instructions with
  | nil => rfl
  | cons instruction others ih => rw [List.foldl_cons, step_of_not_running hended, ih]

theorem performed_of_not_running (palette : PaletteChoice) {execution : Execution}
    (hended : execution.progress ≠ .running) (instructions : List Instruction) :
    execution.performed palette instructions = [] := by
  cases instructions with
  | nil => rfl
  | cons instruction others => exact if_neg hended

theorem performed_cons {execution : Execution} (hrunning : execution.progress = .running)
    (palette : PaletteChoice) (instruction : Instruction) (others : List Instruction) :
    execution.performed palette (instruction :: others) =
      instruction :: (execution.perform palette instruction).performed palette others := by
  rw [performed, if_pos hrunning, step_of_running hrunning]

/-- The instructions that are performed are the opcodes through the first end or failure. -/
theorem map_listed_performed (palette : PaletteChoice) {instructions : List Instruction}
    (hlegible : ∀ instruction ∈ instructions, instruction.Legible) {execution : Execution}
    (hrunning : execution.progress = .running) :
    (execution.performed palette instructions).map Instruction.listed =
      through (ListedOpcode.fails palette)
        (through ListedOpcode.isEnd (instructions.map Instruction.listed)) := by
  induction instructions generalizing execution with
  | nil => rfl
  | cons instruction others ih =>
      obtain ⟨hfirst, hothers⟩ := List.forall_mem_cons.mp hlegible
      rw [performed_cons hrunning, List.map_cons, List.map_cons, through]
      cases houtcome : instruction.listed.outcome palette with
      | error cause =>
          have hfails : instruction.listed.fails palette = true := by
            rw [ListedOpcode.fails, houtcome]
            rfl
          rw [perform_of_error hfirst houtcome,
            performed_of_not_running palette Progress.noConfusion]
          split <;> rw [through, if_pos hfails] <;> rfl
      | ok calls =>
          have hgoesOn : ¬instruction.listed.fails palette = true := by
            rw [ListedOpcode.fails, houtcome]
            exact Bool.false_ne_true
          obtain ⟨-, hprogress⟩ := @perform_of_ok palette execution _ hfirst _ houtcome
          split
          · rename_i hend
            rw [if_pos hend] at hprogress
            rw [performed_of_not_running palette (by rw [hprogress]; exact Progress.noConfusion),
              through, if_neg hgoesOn]
            rfl
          · rename_i hend
            rw [if_neg hend, hrunning] at hprogress
            rw [ih hothers hprogress, through, if_neg hgoesOn]

theorem calls_finish (execution : Execution) (length : Nat) :
    (execution.finish length).calls.filter CanvasCall.isOutcome = execution.shown := by
  unfold finish
  split
  · exact shown_closePath execution
  · rfl
  · exact (List.filter_append _ _).trans (List.append_nil _)

/-- The calls and the failure of an execution are the outcomes of its opcodes. -/
theorem finish_foldl_step (palette : PaletteChoice) {instructions : List Instruction}
    (hlegible : ∀ instruction ∈ instructions, instruction.Legible) {execution : Execution}
    (hrunning : execution.progress = .running) (length : Nat) :
    (instructions.foldl (step palette) execution).shown =
        execution.shown ++ (ListedOpcode.outcomes palette
          (through ListedOpcode.isEnd (instructions.map Instruction.listed))).1 ∧
      ((instructions.foldl (step palette) execution).finish length).result =
        (ListedOpcode.outcomes palette
          (through ListedOpcode.isEnd (instructions.map Instruction.listed))).2 := by
  induction instructions generalizing execution with
  | nil =>
      refine ⟨(List.append_nil _).symm, ?_⟩
      rw [List.foldl_nil, finish, hrunning]
      rfl
  | cons instruction others ih =>
      obtain ⟨hfirst, hothers⟩ := List.forall_mem_cons.mp hlegible
      rw [List.foldl_cons, step_of_running hrunning, List.map_cons, through]
      cases houtcome : instruction.listed.outcome palette with
      | error cause =>
          rw [perform_of_error hfirst houtcome,
            foldl_step_of_not_running palette Progress.noConfusion]
          split <;> rw [ListedOpcode.outcomes, houtcome] <;>
            exact ⟨(List.append_nil _).symm, rfl⟩
      | ok calls =>
          obtain ⟨hshown, hprogress⟩ := @perform_of_ok palette execution _ hfirst _ houtcome
          split
          · rename_i hend
            rw [if_pos hend] at hprogress
            rw [foldl_step_of_not_running palette (by rw [hprogress]; exact Progress.noConfusion),
              hshown, finish, hprogress, ListedOpcode.outcomes, houtcome]
            exact ⟨congrArg _ (List.append_nil _).symm, rfl⟩
          · rename_i hend
            rw [if_neg hend, hrunning] at hprogress
            obtain ⟨hcalls, hresult⟩ := ih hothers hprogress
            rw [hcalls, hresult, hshown, ListedOpcode.outcomes, houtcome, List.append_assoc]
            exact ⟨rfl, rfl⟩

end Execution

/-! ## Invalid opcodes -/

namespace ListedOpcode

/-- An opcode fails only if it is invalid or a fill whose color is not there. -/
theorem exists_outcome_eq_ok {palette : PaletteChoice} {opcode : ListedOpcode}
    (hvalid : opcode.kind ≠ .invalid)
    (hfill : opcode.kind = .paletteFill → (palette.color? (opcode.operand 0).toNat).isSome) :
    ∃ calls, opcode.outcome palette = .ok calls := by
  unfold outcome
  cases hkind : opcode.kind with
  | invalid => exact absurd hkind hvalid
  | paletteFill =>
      obtain ⟨color, hcolor⟩ := Option.isSome_iff_exists.mp (hfill hkind)
      dsimp only
      rw [hcolor]
      exact ⟨_, rfl⟩
  | stop | solidFill | moveTo | segments => exact ⟨_, rfl⟩

theorem outcomes_ne_emptyImage (palette : PaletteChoice) (opcodes : List ListedOpcode) :
    (outcomes palette opcodes).2 ≠ .error .emptyImage := by
  induction opcodes with
  | nil => exact nofun
  | cons opcode others ih =>
      rw [outcomes]
      cases houtcome : opcode.outcome palette with
      | ok calls => exact ih
      | error cause =>
          intro hempty
          cases hempty
          unfold outcome at houtcome
          split at houtcome
          case h_3 => split at houtcome <;> cases houtcome
          all_goals cases houtcome

/-- Where the fills before it find their colors, an opcode fails as invalid if and only if it
is listed so before any stop. -/
theorem outcomes_eq_invalidOpcode_iff {palette : PaletteChoice} {opcodes : List ListedOpcode}
    (hbytes : ∀ opcode ∈ opcodes, opcode.kind = .invalid → ∃ byte, opcode.bytes = [byte])
    (hfills : ∀ opcode ∈ through isEnd opcodes, opcode.kind = .paletteFill →
      (palette.color? (opcode.operand 0).toNat).isSome)
    (position : Nat) (byte : UInt8) :
    (outcomes palette (through isEnd opcodes)).2 = .error (.invalidOpcode position byte) ↔
      ∃ opcode ∈ through isEnd opcodes,
        opcode.kind = .invalid ∧ opcode.offset = position ∧ opcode.bytes = [byte] := by
  induction opcodes with
  | nil => simp [through, outcomes]
  | cons opcode others ih =>
      obtain ⟨hfirst, hothers⟩ := List.forall_mem_cons.mp hbytes
      by_cases hinvalid : opcode.kind = .invalid
      · have hend : opcode.isEnd = true := decide_eq_true (.inr hinvalid)
        obtain ⟨shown, hshown⟩ := hfirst hinvalid
        have houtcome : opcode.outcome palette = .error (.invalidOpcode opcode.offset shown) := by
          rw [outcome, hinvalid, hshown]
          rfl
        rw [through, if_pos hend, outcomes, houtcome]
        simp [hinvalid, hshown]
      · have hmem : opcode ∈ through isEnd (opcode :: others) := by
          rw [through]
          split <;> exact List.mem_cons_self
        obtain ⟨calls, houtcome⟩ := exists_outcome_eq_ok hinvalid (hfills opcode hmem)
        rw [through] at hfills ⊢
        split at hfills
        · rename_i hend
          rw [if_pos hend, outcomes, houtcome]
          simp [outcomes, hinvalid]
        · rename_i hend
          have hlater := ih hothers (List.forall_mem_cons.mp hfills).2
          rw [if_neg hend, outcomes, houtcome]
          simp [hlater, hinvalid]

end ListedOpcode

/-! ## Whole programs -/

/-- What the text of the listing of a program tells about drawing it. -/
structure DrawnAsListed (program : Bytes) (palette : PaletteChoice) : Prop where
  /-- The instructions that are performed are the opcodes, up to the first one that fails. -/
  performed : ∃ box place, (Cursor.start program).viewBox? = some (box, place) ∧
    ((Execution.start box).performed palette place.instructions.1).map Instruction.listed =
      through (ListedOpcode.fails palette) (drawnOpcodes (listing program))
  /-- The lines of points have the numbers of the points that their bytes spell. -/
  points : ∀ opcode ∈ drawnOpcodes (listing program), ∀ line ∈ opcode.pointLines,
    line = pointLine ⟨hexColumn line, spelledPoint line⟩
  calls : (draw program palette).calls.filter CanvasCall.isOutcome =
    (ListedOpcode.outcomes palette (drawnOpcodes (listing program))).1
  result : (draw program palette).result =
    (ListedOpcode.outcomes palette (drawnOpcodes (listing program))).2
  invalidOpcode_iff :
    (∀ opcode ∈ drawnOpcodes (listing program), opcode.kind = .paletteFill →
      (palette.color? (opcode.operand 0).toNat).isSome) →
    ∀ position byte, (draw program palette).result = .error (.invalidOpcode position byte) ↔
      ∃ opcode ∈ drawnOpcodes (listing program),
        opcode.kind = .invalid ∧ opcode.offset = position ∧ opcode.bytes = [byte]

theorem exists_bytes_of_invalid {instruction : Instruction} (hlegible : instruction.Legible)
    (hinvalid : instruction.listed.kind = .invalid) :
    ∃ byte, instruction.listed.bytes = [byte] := by
  change instruction.operation.value.kind = .invalid at hinvalid
  cases hoperation : instruction.operation.value with
  | unknown opcode => exact ⟨opcode, hlegible.unknown opcode hoperation⟩
  | _ =>
      rw [hoperation] at hinvalid
      cases hinvalid

section ViewBox

variable {program : Bytes} {box : ViewBox} {place : Cursor}

theorem drawnOpcodes_of_viewBox? (hread : (Cursor.start program).viewBox? = some (box, place)) :
    drawnOpcodes (listing program) =
      through ListedOpcode.isEnd (place.instructions.1.map Instruction.listed) := by
  rw [drawnOpcodes, listedOpcodes_lines_listing hread]

theorem legible_of_mem_instructions (place : Cursor) :
    ∀ instruction ∈ place.instructions.1, instruction.Legible :=
  Cursor.forall_mem_instructions (fun _ => legible_instruction) place

/-- With a view box, a drawing makes the calls of its opcodes and fails as they do. -/
theorem draw_of_viewBox? (palette : PaletteChoice)
    (hread : (Cursor.start program).viewBox? = some (box, place)) :
    (draw program palette).calls.filter CanvasCall.isOutcome =
        (ListedOpcode.outcomes palette (drawnOpcodes (listing program))).1 ∧
      (draw program palette).result =
        (ListedOpcode.outcomes palette (drawnOpcodes (listing program))).2 := by
  have hdraw : draw program palette =
      (place.instructions.1.foldl (Execution.step palette) (.start box)).finish
        program.length := by
    unfold draw
    rw [hread]
  obtain ⟨hcalls, hresult⟩ := Execution.finish_foldl_step palette
    (legible_of_mem_instructions place)
    (show (Execution.start box).progress = .running from rfl) program.length
  rw [drawnOpcodes_of_viewBox? hread, hdraw, Execution.calls_finish, hcalls]
  exact ⟨rfl, hresult⟩

end ViewBox

/-- An image is empty only if its view box is not there in full. -/
theorem result_draw_eq_emptyImage_iff (program : Bytes) (palette : PaletteChoice) :
    (draw program palette).result = .error .emptyImage ↔
      (Cursor.start program).viewBox? = none := by
  cases hread : (Cursor.start program).viewBox? with
  | none =>
      refine iff_of_true ?_ rfl
      unfold draw
      rw [hread]
      rfl
  | some read =>
      rw [(draw_of_viewBox? palette hread).2]
      exact iff_of_false (ListedOpcode.outcomes_ne_emptyImage _ _) (Option.some_ne_none _)

/-- **The listing and the drawing of a program read it alike**, if there is a view box. -/
theorem drawnAsListed {program : Bytes} {palette : PaletteChoice}
    (hbox : (draw program palette).result ≠ .error .emptyImage) :
    DrawnAsListed program palette := by
  rw [Ne, result_draw_eq_emptyImage_iff] at hbox
  obtain ⟨⟨box, place⟩, hread⟩ := Option.ne_none_iff_exists'.mp hbox
  have hlegible := legible_of_mem_instructions place
  have hopcodes := drawnOpcodes_of_viewBox? hread
  obtain ⟨hcalls, hresult⟩ := draw_of_viewBox? palette hread
  refine ⟨⟨box, place, hread, ?_⟩, fun opcode hmem => ?_, hcalls, hresult,
    fun hfills position byte => ?_⟩
  · rw [hopcodes]
    exact Execution.map_listed_performed palette hlegible rfl
  · rw [hopcodes] at hmem
    obtain ⟨instruction, hinstruction, rfl⟩ := List.mem_map.mp (mem_of_mem_through hmem)
    exact (hlegible instruction hinstruction).pointLines_listed
  · rw [hresult]
    rw [hopcodes] at hfills ⊢
    refine ListedOpcode.outcomes_eq_invalidOpcode_iff ?_ hfills position byte
    rw [List.forall_mem_map]
    exact fun instruction hmem => exists_bytes_of_invalid (hlegible instruction hmem)

/-- A fill, a shape of one line, and an invalid opcode with a byte behind it. -/
theorem drawnAsListed_of_invalid :
    (draw [0x81, 0x81, 0xa1, 0xa1, 0x01, 0xff, 0x00, 0x00, 0xff, 0x70, 0x83, 0x85, 0x80, 0x87,
        0x89, 0xc3, 0x00] ⟨none, 0⟩).result ≠ .error .emptyImage ∧
      DrawnAsListed [0x81, 0x81, 0xa1, 0xa1, 0x01, 0xff, 0x00, 0x00, 0xff, 0x70, 0x83, 0x85, 0x80,
        0x87, 0x89, 0xc3, 0x00] ⟨none, 0⟩ := by
  have hbox : (draw [0x81, 0x81, 0xa1, 0xa1, 0x01, 0xff, 0x00, 0x00, 0xff, 0x70, 0x83, 0x85, 0x80,
      0x87, 0x89, 0xc3, 0x00] ⟨none, 0⟩).result ≠ .error .emptyImage :=
    (not_congr (result_draw_eq_emptyImage_iff _ _)).mpr (by decide +kernel)
  exact ⟨hbox, drawnAsListed hbox⟩

end VectorIcons
