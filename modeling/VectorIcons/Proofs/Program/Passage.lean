import VectorIcons.Proofs.Program.IssuedCalls
import VectorIcons.Proofs.Program.ReadBack
import VectorIcons.Proofs.Program.ReadingAlike

/-!
# The way of a drawing through its program

A drawing reads an instruction and performs it, and goes on so until the program ends, or stops, or
fails.  `Passes` has the states on this way, each a place in the program and an execution.

* `Passes.draw_eq`: from each of them, the drawing is what the execution makes of the rest.
* `Passes.exists_ends`: the way has an end.
* `Passes.tracked`: two programs that are read alike are passed alike.

So two drawings can be compared place by place, though their instructions are all read first.
-/

namespace VectorIcons

/-! ## View boxes -/

namespace Cursor

/-- `read` gives `value` and goes on at `later`, whatever stands there. -/
def Settles {α : Type} (read : Cursor → Option (α × Cursor)) (cursor later : Cursor) (value : α) :
    Prop :=
  ∃ taken, cursor.rest = taken ++ later.rest ∧ later.position = cursor.position + taken.length ∧
    ∀ behind, read ⟨cursor.position, taken ++ behind⟩ = some (value, ⟨later.position, behind⟩)

theorem settles_some {α : Type} (cursor : Cursor) (value : α) :
    Settles (fun place => some (value, place)) cursor cursor value :=
  ⟨[], rfl, rfl, fun _ => rfl⟩

theorem Settles.bind {α β : Type} {first : Cursor → Option (α × Cursor)}
    {next : α × Cursor → Option (β × Cursor)} {cursor between later : Cursor} {value : α}
    {result : β} (hfirst : Settles first cursor between value)
    (hnext : Settles (fun place => next (value, place)) between later result) :
    Settles (fun place => first place >>= next) cursor later result := by
  obtain ⟨taken, hrest, hposition, hread⟩ := hfirst
  obtain ⟨more, hmoreRest, hmorePosition, hmoreRead⟩ := hnext
  refine ⟨taken ++ more, ?_, ?_, ?_⟩
  · rw [hrest, hmoreRest, List.append_assoc]
  · rw [hmorePosition, hposition, List.length_append, Nat.add_assoc]
  · intro behind
    dsimp only
    rw [List.append_assoc, hread]
    exact hmoreRead behind

/-- A coordinate that is there in full is read whatever stands behind it. -/
theorem settles_coordinate? {cursor later : Cursor} {x : Binary32}
    (hread : cursor.coordinate? = some (x, later)) : Settles coordinate? cursor later x := by
  obtain ⟨bytes, hcomplete, rfl, hrest, hposition⟩ := coordinate?_eq_some_iff.mp hread
  refine ⟨bytes, hrest, hposition, fun behind => ?_⟩
  rw [hposition]
  exact coordinate?_of_isComplete hcomplete cursor.position behind

theorem settles_viewBox? {cursor place : Cursor} {box : ViewBox}
    (hread : cursor.viewBox? = some (box, place)) : Settles viewBox? cursor place box := by
  obtain ⟨_, _, _, hxMin, hyMin, hxMax, hyMax⟩ := viewBox?_eq_some_iff.mp hread
  unfold viewBox?
  refine (settles_coordinate? hxMin).bind ?_
  refine (settles_coordinate? hyMin).bind ?_
  refine (settles_coordinate? hxMax).bind ?_
  refine (settles_coordinate? hyMax).bind ?_
  exact settles_some place box

end Cursor

/-! ## The byte at a place -/

namespace Cursor

theorem Reaches.getD_position {bytes : Bytes} {place : Cursor}
    (hreaches : (start bytes).Reaches place) : bytes.getD place.position 0 = place.byte.1 := by
  obtain ⟨position, rest⟩ := place
  obtain ⟨taken, rfl, hposition⟩ := hreaches
  simp only [start, Nat.zero_add] at hposition
  subst hposition
  cases rest <;> simp [byte]

theorem Reaches.getElem?_position {bytes : Bytes} {place : Cursor}
    (hreaches : (start bytes).Reaches place) (hmore : place.rest ≠ []) :
    bytes[place.position]? = some place.byte.1 := by
  obtain ⟨position, rest⟩ := place
  obtain ⟨taken, rfl, hposition⟩ := hreaches
  simp only [start, Nat.zero_add] at hposition
  subst hposition
  cases rest with
  | nil => exact absurd rfl hmore
  | cons first rest => simp [byte]

end Cursor

/-! ## Opcodes -/

/-- The bytes that begin an instruction. -/
def IsOpcode (byte : UInt8) : Prop :=
  byte ∈ [0x00, 0x01, 0x02, 0x70, 0x71] ∨ 0x80 ≤ byte.toNat ∧ byte.toNat ≤ 0xbf

namespace Cursor

theorem ofSegmentOpcode_eq (opcode : Nat) :
    ∃ kind count, Operation.ofSegmentOpcode opcode = .segments kind count := by
  unfold Operation.ofSegmentOpcode
  split
  · exact ⟨_, _, rfl⟩
  · split <;> exact ⟨_, _, rfl⟩

/-- What an operation tells about the opcode that it was read from. -/
structure Spells (operation : Operation) (opcode : UInt8) : Prop where
  stop_iff : operation = .stop ↔ opcode = 0x00
  paletteFill : ∀ index, operation = .paletteFill index → opcode = 0x02
  unknown_iff : ∀ other, operation = .unknown other ↔ other = opcode ∧ ¬ IsOpcode opcode

theorem spells_of_known {operation : Operation} {opcode : UInt8} (hknown : IsOpcode opcode)
    (hstop : operation = .stop ↔ opcode = 0x00)
    (hpalette : ∀ index, operation = .paletteFill index → opcode = 0x02)
    (hoperation : ∀ other, operation ≠ .unknown other) : Spells operation opcode :=
  ⟨hstop, hpalette, fun other => iff_of_false (hoperation other) fun hunknown =>
    hunknown.2 hknown⟩

theorem spells_operation (cursor : Cursor) : Spells cursor.operation.1 cursor.byte.1 := by
  unfold operation
  dsimp only
  split
  · rename_i hstop
    exact spells_of_known (by simp [IsOpcode, hstop]) (iff_of_true rfl hstop) nofun nofun
  rename_i hstop
  split
  · rename_i hsolid
    exact spells_of_known (by simp [IsOpcode, hsolid]) (iff_of_false nofun hstop) nofun nofun
  rename_i hsolid
  split
  · rename_i hpalette
    exact spells_of_known (by simp [IsOpcode, hpalette]) (iff_of_false nofun hstop)
      (fun _ _ => hpalette) nofun
  rename_i hpalette
  split
  · rename_i hbegin
    exact spells_of_known (by simp [IsOpcode, hbegin]) (iff_of_false nofun hstop) nofun nofun
  rename_i hbegin
  split
  · rename_i hgoOn
    exact spells_of_known (by simp [IsOpcode, hgoOn]) (iff_of_false nofun hstop) nofun nofun
  rename_i hgoOn
  split
  · rename_i hrange
    obtain ⟨kind, count, hsegments⟩ := ofSegmentOpcode_eq cursor.byte.1.toNat
    rw [hsegments]
    exact spells_of_known (.inr (by omega)) (iff_of_false nofun hstop) nofun nofun
  · rename_i hrange
    have hunknown : ¬ IsOpcode cursor.byte.1 := by
      rintro (hmem | hsegments)
      · simp [hstop, hsolid, hpalette, hbegin, hgoOn] at hmem
      · omega
    refine ⟨iff_of_false nofun hstop, nofun, fun other => ?_⟩
    rw [Operation.unknown.injEq, and_iff_left hunknown, eq_comm]

end Cursor

/-! ## Instructions that do the same -/

theorem Execution.perform_of_alike {first second : Instruction} (halike : first.Alike second)
    (palette : PaletteChoice) (execution : Execution) :
    execution.perform palette first = execution.perform palette second := by
  unfold perform
  rw [halike.operation_eq, halike.points_eq, halike.offset_eq]

/-! ## The way -/

/-- `execution` is what a drawing has come to when it gets to `place` of its program. -/
inductive Passes (program : Bytes) (palette : PaletteChoice) : Cursor → Execution → Prop
  | begin {box : ViewBox} {place : Cursor}
      (hread : (Cursor.start program).viewBox? = some (box, place)) :
      Passes program palette place (.start box)
  | next {place : Cursor} {execution : Execution} (hpasses : Passes program palette place execution)
      (hrunning : execution.progress = .running) (hmore : place.rest ≠ []) :
      Passes program palette place.instruction.2
        (execution.perform palette place.instruction.1)

namespace Passes

variable {program : Bytes} {palette : PaletteChoice} {place : Cursor} {execution : Execution}

/-- From any place on its way, the drawing is what becomes of the execution there. -/
theorem draw_eq (hpasses : Passes program palette place execution) :
    draw program palette =
      (place.instructions.1.foldl (Execution.step palette) execution).finish program.length := by
  induction hpasses with
  | begin hread => exact draw_eq_finish hread palette
  | @next place execution _ hrunning hmore ih =>
      rw [ih, Cursor.instructions_eq, if_neg hmore]
      split
      · rename_i hunknown
        -- Nothing is read behind an unknown opcode, and nothing would be performed.
        have hended : (execution.perform palette place.instruction.1).progress ≠ .running := by
          rw [Execution.progress_perform hrunning, Instruction.progress]
          cases hoperation : place.instruction.1.operation.value with
          | unknown opcode => exact Progress.noConfusion
          | _ =>
              rw [hoperation] at hunknown
              cases hunknown
        rw [Execution.foldl_step_of_not_running palette hended, List.foldl_cons,
          Execution.step_of_running hrunning, List.foldl_nil]
      · rw [List.foldl_cons, Execution.step_of_running hrunning]

theorem sound (hpasses : Passes program palette place execution) : execution.Sound := by
  induction hpasses with
  | begin hread => exact Execution.sound_start _
  | next _ hrunning _ ih =>
      exact ih.perform hrunning palette (Cursor.wellFormed_instruction _)

/-- The way begins behind the view box and goes forward only. -/
theorem exists_begin (hpasses : Passes program palette place execution) :
    ∃ box first, (Cursor.start program).viewBox? = some (box, first) ∧ first.Reaches place := by
  induction hpasses with
  | begin hread => exact ⟨_, _, hread, Cursor.Reaches.refl _⟩
  | next _ _ _ ih =>
      obtain ⟨box, first, hread, hreaches⟩ := ih
      exact ⟨box, first, hread, hreaches.trans (Cursor.reaches_instruction _)⟩

theorem reaches (hpasses : Passes program palette place execution) :
    (Cursor.start program).Reaches place := by
  obtain ⟨box, first, hread, hreaches⟩ := hpasses.exists_begin
  obtain ⟨taken, hrest, hposition, -⟩ := Cursor.settles_viewBox? hread
  exact Cursor.Reaches.trans ⟨taken, hrest, hposition⟩ hreaches

/-- The drawing ends where its program does, or before. -/
def Ends (place : Cursor) (execution : Execution) : Prop :=
  execution.progress ≠ .running ∨ place.rest = []

theorem exists_ends (hpasses : Passes program palette place execution) :
    ∃ last ended, Passes program palette last ended ∧ Ends last ended := by
  -- Each instruction leaves fewer bytes.
  induction hlength : place.rest.length using Nat.strongRecOn generalizing place execution with
  | ind length ih =>
      by_cases hrunning : execution.progress = .running
      · by_cases hend : place.rest = []
        · exact ⟨place, execution, hpasses, .inr hend⟩
        · exact ih _ (hlength ▸ Cursor.length_instruction_lt hend) (hpasses.next hrunning hend) rfl
      · exact ⟨place, execution, hpasses, .inl hrunning⟩

theorem draw_eq_finish_of_ends (hpasses : Passes program palette place execution)
    (hends : Ends place execution) :
    draw program palette = execution.finish program.length := by
  rw [hpasses.draw_eq]
  rcases hends with hended | hend
  · rw [Execution.foldl_step_of_not_running palette hended]
  · rw [Cursor.instructions_eq, if_pos hend, List.foldl_nil]

/-- A drawing that has ended performed a last instruction, unless its program has none. -/
theorem exists_last (hpasses : Passes program palette place execution)
    (hended : execution.progress ≠ .running) :
    ∃ before earlier, Passes program palette before earlier ∧ earlier.progress = .running ∧
      before.rest ≠ [] ∧ execution = earlier.perform palette before.instruction.1 := by
  cases hpasses with
  | begin hread => exact absurd rfl hended
  | next hpasses hrunning hmore => exact ⟨_, _, hpasses, hrunning, hmore, rfl⟩

/-- A program that is read alike is passed alike, until the first one gets past a place. -/
theorem tracked {other : Bytes} {Alike : Cursor → Cursor → Prop} {Past : Cursor → Prop}
    (tracks : Cursor.Tracks Alike Past)
    (hpositions : ∀ {place otherPlace : Cursor}, Alike place otherPlace → place.rest ≠ [] →
      place.position = otherPlace.position)
    (hbegin : ∀ box place, (Cursor.start program).viewBox? = some (box, place) →
      ∃ otherPlace, (Cursor.start other).viewBox? = some (box, otherPlace) ∧
        Alike place otherPlace)
    (hpasses : Passes program palette place execution) :
    Past place ∨
      ∃ otherPlace, Passes other palette otherPlace execution ∧ Alike place otherPlace := by
  induction hpasses with
  | begin hread =>
      obtain ⟨otherPlace, hother, halike⟩ := hbegin _ _ hread
      exact .inr ⟨otherPlace, .begin hother, halike⟩
  | next _ hrunning hmore ih =>
      rcases ih with hpast | ⟨otherPlace, hpassesOther, halike⟩
      · exact .inl (tracks.past (Cursor.reaches_instruction _) hpast)
      have hposition := hpositions halike hmore
      rcases tracks.instruction halike hposition hmore with
        hpast | ⟨hmoreOther, hinstruction, hbehind⟩
      · exact .inl hpast
      · rw [Execution.perform_of_alike hinstruction]
        exact .inr ⟨_, hpassesOther.next hrunning hmoreOther, hbehind⟩

/-- What stands at a place and behind it makes no difference to the way up to it. -/
theorem instead (hpasses : Passes program palette place execution) (hmore : place.rest ≠ [])
    (behind : Bytes) :
    Passes (program.take place.position ++ behind) palette ⟨place.position, behind⟩ execution := by
  obtain ⟨box, first, hread, between, hbetween, hposition⟩ := hpasses.exists_begin
  obtain ⟨taken, htaken, hfirst, hsettles⟩ := Cursor.settles_viewBox? hread
  have hfront : program.take place.position = taken ++ between := by
    have hprogram : program = (taken ++ between) ++ place.rest := by
      rw [List.append_assoc, ← hbetween]
      exact htaken
    have hlength : (taken ++ between).length = place.position := by
      simp [hposition, hfirst, Cursor.start]
    rw [hprogram, List.take_left' hlength]
  have hbegin : ∀ otherBox place', (Cursor.start program).viewBox? = some (otherBox, place') →
      ∃ otherPlace, (Cursor.start (program.take place.position ++ behind)).viewBox? =
          some (otherBox, otherPlace) ∧
        Cursor.SharesFront 0 place.rest behind place' otherPlace := by
    intro otherBox place' hread'
    cases hread.symm.trans hread'
    rw [hfront, List.append_assoc]
    exact ⟨_, hsettles (between ++ behind), rfl, between, hbetween, rfl⟩
  have hends : place.rest = [] → behind = [] := fun hend => absurd hend hmore
  have tracks := Cursor.tracks_sharesFront hends 0
  rcases hpasses.tracked tracks (fun hshared _ => hshared.1) hbegin with
    hpast | ⟨⟨_, _⟩, hother, rfl, nothing, hnothing, rfl⟩
  · exact absurd hpast (Nat.lt_irrefl _)
  · cases List.self_eq_append_left.mp hnothing
    exact hother

end Passes

/-! ## Reading an opcode -/

/-- While `program` is drawn, an opcode is read at `offset`, and `calls` were made before that. -/
def ReadsOpcode (program : Bytes) (palette : PaletteChoice) (offset : Nat)
    (calls : List CanvasCall) : Prop :=
  ∃ place execution, Passes program palette place execution ∧ execution.progress = .running ∧
    place.rest ≠ [] ∧ place.position = offset ∧ execution.calls.toList = calls

section InstructionsInOrder

variable {program : Bytes} {palette : PaletteChoice} {place : Cursor} {execution : Execution}

theorem rest_ne_nil_of_instructions {before after : List Instruction} {instruction : Instruction}
    (hinstructions : place.instructions.1 = before ++ instruction :: after) : place.rest ≠ [] := by
  intro hend
  rw [Cursor.instructions_eq, if_pos hend] at hinstructions
  exact List.append_ne_nil_of_right_ne_nil _ (List.cons_ne_nil _ _) hinstructions.symm

theorem instructions_of_known (hmore : place.rest ≠ [])
    (hknown : place.instruction.1.operation.value.isUnknown = false) :
    place.instructions.1 = place.instruction.1 :: place.instruction.2.instructions.1 := by
  rw [Cursor.instructions_eq, if_neg hmore, hknown]
  rfl

theorem isUnknown_of_running (hrunning : execution.progress = .running)
    {instruction : Instruction}
    (hstill : (execution.perform palette instruction).progress = .running) :
    instruction.operation.value.isUnknown = false := by
  rw [Execution.progress_perform hrunning, Instruction.progress] at hstill
  cases hoperation : instruction.operation.value with
  | unknown opcode =>
      rw [hoperation] at hstill
      cases hstill
  | _ => rfl

/-- A running execution has gone through the instructions from the first one to its place. -/
theorem Passes.exists_before (hpasses : Passes program palette place execution)
    (hrunning : execution.progress = .running) :
    ∃ box first before, (Cursor.start program).viewBox? = some (box, first) ∧
      first.instructions.1 = before ++ place.instructions.1 ∧
      before.foldl (Execution.step palette) (.start box) = execution := by
  induction hpasses with
  | begin hread => exact ⟨_, _, [], hread, rfl, rfl⟩
  | @next place execution _ hbefore hmore ih =>
      obtain ⟨box, first, before, hread, hinstructions, hfold⟩ := ih hbefore
      have hknown := isUnknown_of_running hbefore hrunning
      refine ⟨box, first, before ++ [place.instruction.1], hread, ?_, ?_⟩
      · rw [hinstructions, instructions_of_known hmore hknown, List.append_assoc]
        rfl
      · rw [List.foldl_append, hfold, List.foldl_cons, Execution.step_of_running hbefore,
          List.foldl_nil]

theorem Passes.exists_after {before after : List Instruction} {instruction : Instruction}
    (hpasses : Passes program palette place execution)
    (hinstructions : place.instructions.1 = before ++ instruction :: after)
    (hrunning : (before.foldl (Execution.step palette) execution).progress = .running) :
    ∃ later, Passes program palette later (before.foldl (Execution.step palette) execution) ∧
      later.rest ≠ [] ∧ instruction = later.instruction.1 := by
  induction before generalizing place execution with
  | nil =>
      have hmore := rest_ne_nil_of_instructions hinstructions
      rw [Cursor.instructions_eq, if_neg hmore] at hinstructions
      refine ⟨place, hpasses, hmore, ?_⟩
      split at hinstructions <;> exact (List.cons.inj hinstructions).1.symm
  | cons first others ih =>
      have hmore := rest_ne_nil_of_instructions hinstructions
      have hbegin : execution.progress = .running := by
        by_cases hbegin : execution.progress = .running
        · exact hbegin
        · rwa [Execution.foldl_step_of_not_running palette hbegin] at hrunning
      rw [Cursor.instructions_eq, if_neg hmore] at hinstructions
      rw [List.foldl_cons, Execution.step_of_running hbegin] at hrunning ⊢
      split at hinstructions
      · have hnone := (List.cons.inj hinstructions).2
        exact absurd hnone.symm (List.append_ne_nil_of_right_ne_nil _ (List.cons_ne_nil _ _))
      · obtain ⟨rfl, hothers⟩ := List.cons.inj hinstructions
        exact ih (hpasses.next hbegin hmore) hothers hrunning

/-- Opcodes are read where the instructions begin that a running execution comes to. -/
theorem readsOpcode_iff {offset : Nat} {calls : List CanvasCall} :
    ReadsOpcode program palette offset calls ↔
      ∃ box first before instruction after,
        (Cursor.start program).viewBox? = some (box, first) ∧
          first.instructions.1 = before ++ instruction :: after ∧
          (before.foldl (Execution.step palette) (.start box)).progress = .running ∧
          instruction.offset = offset ∧
          (before.foldl (Execution.step palette) (.start box)).calls.toList = calls := by
  constructor
  · rintro ⟨place, execution, hpasses, hrunning, hmore, rfl, rfl⟩
    obtain ⟨box, first, before, hread, hinstructions, rfl⟩ := hpasses.exists_before hrunning
    obtain ⟨after, hafter⟩ : ∃ after, place.instructions.1 = place.instruction.1 :: after := by
      rw [Cursor.instructions_eq, if_neg hmore]
      split <;> exact ⟨_, rfl⟩
    exact ⟨box, first, before, place.instruction.1, after, hread, hafter ▸ hinstructions, hrunning,
      rfl, rfl⟩
  · rintro ⟨box, first, before, instruction, after, hread, hinstructions, hrunning, rfl, rfl⟩
    obtain ⟨later, hlater, hmore, rfl⟩ := (Passes.begin hread).exists_after hinstructions hrunning
    exact ⟨later, _, hlater, hrunning, hmore, rfl, rfl⟩

end InstructionsInOrder

/-! ## Opcodes that fail -/

section FailingOpcode

variable {palette : PaletteChoice} {instruction : Instruction} {cause : DrawError}

/-- Only a palette fill without a color and an unknown opcode fail. -/
theorem Instruction.progress_eq_failed_iff :
    instruction.progress palette = .failed cause ↔
      (∃ index, instruction.operation.value = .paletteFill index ∧
        palette.color? index.toNat = none ∧
        cause = .invalidPaletteIndex instruction.offset index.toNat) ∨
      ∃ opcode, instruction.operation.value = .unknown opcode ∧
        cause = .invalidOpcode instruction.offset opcode := by
  unfold Instruction.progress
  cases instruction.operation.value with
  | paletteFill index =>
      cases hcolor : palette.color? index.toNat with
      | some color => simp [hcolor]
      | none => simp [hcolor, eq_comm]
  | unknown opcode => simp [eq_comm]
  | stop => simp
  | solidFill color => simp
  | moveTo continues => simp
  | segments kind count => simp

/-- An opcode that fails makes no calls. -/
theorem Instruction.calls_of_failed (hfailed : instruction.progress palette = .failed cause)
    (pathOpen : Bool) : instruction.calls palette pathOpen = [] := by
  unfold Instruction.calls
  rcases Instruction.progress_eq_failed_iff.mp hfailed with
    ⟨index, hoperation, hcolor, -⟩ | ⟨opcode, hoperation, -⟩
  · simp only [hoperation, hcolor]
  · rw [hoperation]

end FailingOpcode

/-- A drawing that fails behind its view box does so at an opcode, after the calls before it. -/
theorem exists_failing_opcode {program : Bytes} {palette : PaletteChoice} {cause : DrawError}
    (hresult : (draw program palette).result = .error cause) (hcause : cause ≠ .emptyImage) :
    ∃ place execution, Passes program palette place execution ∧ execution.progress = .running ∧
      place.rest ≠ [] ∧ place.instruction.1.progress palette = .failed cause ∧
      (draw program palette).calls = execution.calls.toList ++ [.error cause] := by
  cases hread : (Cursor.start program).viewBox? with
  | none =>
      rw [(result_draw_eq_emptyImage_iff program palette).mpr hread] at hresult
      exact absurd (Except.error.inj hresult).symm hcause
  | some read =>
      have hbegin : Passes program palette read.2 (.start read.1) := .begin hread
      obtain ⟨last, ended, hlast, hends⟩ := hbegin.exists_ends
      have hdraw := hlast.draw_eq_finish_of_ends hends
      rw [hdraw, Execution.result_finish_eq_error_iff] at hresult
      obtain ⟨before, earlier, hpasses, hrunning, hmore, rfl⟩ :=
        hlast.exists_last (by rw [hresult]; exact Progress.noConfusion)
      have hfailed : before.instruction.1.progress palette = .failed cause := by
        rw [← Execution.progress_perform hrunning, hresult]
      refine ⟨before, earlier, hpasses, hrunning, hmore, hfailed, ?_⟩
      rw [hdraw, Execution.calls_finish_eq, Execution.toList_perform,
        Instruction.calls_of_failed hfailed, List.append_nil, Execution.endingCalls, hresult]

end VectorIcons
