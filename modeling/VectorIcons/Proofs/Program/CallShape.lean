import VectorIcons.Program.Drawing
import VectorIcons.Proofs.Program.Instructions

/-!
# The shape of the calls of a drawing

Whatever the bytes of a program are, the calls that it makes follow the same pattern:
there is one view box, at the front; a path is closed only if it has segments, and only
when a new color or a new shape follows, or nothing; no color is set while a path is
open; a failure is the last call and never follows a closing.  If the drawing does not
fail, every path was closed.

`draw_calls_shape` says all this for every program and every palette.

## Strategy

`MayFollow` says of each call what has to be true before it, so that the shape is kept,
`CallShape.concat`.  An execution keeps the invariant `Execution.Sound`: its
calls have the shape, and it knows whether they leave a path open.  Between closing a
path and the call that follows, the shape alone holds (`Execution.Traced`), so closing
and that call are looked at together, one instruction at a time.
-/

namespace VectorIcons

/-! ## Calls that leave a path open -/

/-- A segment was drawn that no closing has followed. -/
def LeavesOpen (calls : List CanvasCall) : Prop :=
  ∃ earlier kind points later,
    calls = earlier ++ .segments kind points :: later ∧ .closePath ∉ later

theorem concat_eq_append_cons {α : Type} {elements before after : List α} {last element : α}
    (heq : elements ++ [last] = before ++ element :: after) :
    (elements = before ∧ last = element ∧ after = []) ∨
      ∃ between, elements = before ++ element :: between ∧ after = between ++ [last] := by
  rcases List.eq_nil_or_concat after with rfl | ⟨between, final, rfl⟩
  · obtain ⟨helements, hlast⟩ := List.append_inj' heq rfl
    exact .inl ⟨helements, List.singleton_inj.mp hlast, rfl⟩
  · rw [List.concat_eq_append] at heq ⊢
    have hassoc : elements ++ [last] = (before ++ element :: between) ++ [final] := by
      rw [heq, List.append_assoc, List.cons_append]
    obtain ⟨helements, hlast⟩ := List.append_inj' hassoc rfl
    rw [List.singleton_inj.mp hlast]
    exact .inr ⟨between, helements, rfl⟩

theorem leavesOpen_concat_iff {calls : List CanvasCall} {call : CanvasCall} :
    LeavesOpen (calls ++ [call]) ↔
      (∃ kind points, call = .segments kind points) ∨
        call ≠ .closePath ∧ LeavesOpen calls := by
  constructor
  · rintro ⟨earlier, kind, points, later, heq, hlater⟩
    rcases concat_eq_append_cons heq with ⟨-, hcall, -⟩ | ⟨between, hcalls, rfl⟩
    · exact .inl ⟨kind, points, hcall⟩
    · rw [List.mem_append, not_or, List.mem_singleton] at hlater
      exact .inr ⟨Ne.symm hlater.2, earlier, kind, points, between, hcalls, hlater.1⟩
  · rintro (⟨kind, points, rfl⟩ | ⟨hcall, earlier, kind, points, later, rfl, hlater⟩)
    · exact ⟨calls, kind, points, [], rfl, List.not_mem_nil⟩
    · refine ⟨earlier, kind, points, later ++ [call], by simp, ?_⟩
      rw [List.mem_append, not_or, List.mem_singleton]
      exact ⟨hlater, Ne.symm hcall⟩

theorem not_leavesOpen_concat_closePath (calls : List CanvasCall) :
    ¬ LeavesOpen (calls ++ [.closePath]) := by
  simp [leavesOpen_concat_iff]

/-! ## The shape -/

/-- The shape of the calls on a canvas that was shown a view box. -/
structure CallShape (calls : List CanvasCall) : Prop where
  viewBox : ∃ box rest, calls = .viewBox box :: rest ∧ ∀ other, .viewBox other ∉ rest
  /-- A path is closed only if a segment was drawn since the last closing. -/
  closePath : ∀ before after, calls = before ++ .closePath :: after → LeavesOpen before
  /-- What follows a closing directly is a new color or a new shape, or nothing. -/
  after_closePath : ∀ before after, calls = before ++ .closePath :: after →
    after = [] ∨ (∃ color rest, after = .setSolidFill color :: rest) ∨
      ∃ target rest, after = .moveTo target :: rest
  setSolidFill : ∀ before color after,
    calls = before ++ .setSolidFill color :: after → ¬ LeavesOpen before
  segments : ∀ kind points, .segments kind points ∈ calls → kind.Admits points

/-- Whether closing a path was the last call. -/
def EndsClosing (calls : List CanvasCall) : Prop := calls.getLast? = some .closePath

/-- What has to be true of calls for one more to keep their shape. -/
def MayFollow (calls : List CanvasCall) : CanvasCall → Prop
  | .viewBox _ => False
  | .setSolidFill _ => ¬ LeavesOpen calls
  | .moveTo _ => True
  | .segments kind points => ¬ EndsClosing calls ∧ kind.Admits points
  | .closePath => ¬ EndsClosing calls ∧ LeavesOpen calls
  | .error _ => ¬ EndsClosing calls

theorem eq_of_singleton_eq {first call : CanvasCall} {before after : List CanvasCall}
    (heq : [first] = before ++ call :: after) : call = first := by
  have hmem : call ∈ [first] := by
    rw [heq]
    exact List.mem_append_right before List.mem_cons_self
  exact List.mem_singleton.mp hmem

theorem callShape_viewBox (box : ViewBox) : CallShape [.viewBox box] where
  viewBox := ⟨box, [], rfl, fun _ => List.not_mem_nil⟩
  closePath := fun _ _ heq => CanvasCall.noConfusion (eq_of_singleton_eq heq)
  after_closePath := fun _ _ heq => CanvasCall.noConfusion (eq_of_singleton_eq heq)
  setSolidFill := fun _ _ _ heq => CanvasCall.noConfusion (eq_of_singleton_eq heq)
  segments := fun _ _ hmem => CanvasCall.noConfusion (List.mem_singleton.mp hmem)

/-- After a closing, only a new color or a new shape may follow. -/
theorem MayFollow.of_endsClosing {calls : List CanvasCall} {call : CanvasCall}
    (hfollows : MayFollow calls call) (hclosing : EndsClosing calls) :
    (∃ color, call = .setSolidFill color) ∨ ∃ target, call = .moveTo target := by
  cases call with
  | viewBox box => exact hfollows.elim
  | setSolidFill color => exact .inl ⟨color, rfl⟩
  | moveTo target => exact .inr ⟨target, rfl⟩
  | segments kind points => exact absurd hclosing hfollows.1
  | closePath => exact absurd hclosing hfollows.1
  | error cause => exact absurd hclosing hfollows

theorem CallShape.concat {calls : List CanvasCall} {call : CanvasCall}
    (hshape : CallShape calls) (hfollows : MayFollow calls call) :
    CallShape (calls ++ [call]) where
  viewBox := by
    obtain ⟨box, rest, rfl, hrest⟩ := hshape.viewBox
    refine ⟨box, rest ++ [call], rfl, fun other hmem => ?_⟩
    rcases List.mem_append.mp hmem with hmem | hmem
    · exact hrest other hmem
    · rw [← List.mem_singleton.mp hmem] at hfollows
      exact hfollows
  closePath := fun before after heq => by
    rcases concat_eq_append_cons heq with ⟨rfl, rfl, -⟩ | ⟨between, hcalls, -⟩
    · exact hfollows.2
    · exact hshape.closePath before between hcalls
  after_closePath := fun before after heq => by
    rcases concat_eq_append_cons heq with ⟨-, -, rfl⟩ | ⟨between, hcalls, rfl⟩
    · exact .inl rfl
    · rcases hshape.after_closePath before between hcalls with
        rfl | ⟨color, rest, rfl⟩ | ⟨target, rest, rfl⟩
      · -- The closing was the last call, so the new one is what follows it.
        have hclosing : EndsClosing calls := by
          rw [EndsClosing, hcalls, List.getLast?_concat]
        rcases hfollows.of_endsClosing hclosing with ⟨color, rfl⟩ | ⟨target, rfl⟩
        · exact .inr (.inl ⟨color, [], rfl⟩)
        · exact .inr (.inr ⟨target, [], rfl⟩)
      · exact .inr (.inl ⟨color, rest ++ [call], rfl⟩)
      · exact .inr (.inr ⟨target, rest ++ [call], rfl⟩)
  setSolidFill := fun before color after heq => by
    rcases concat_eq_append_cons heq with ⟨rfl, rfl, -⟩ | ⟨between, hcalls, -⟩
    · exact hfollows
    · exact hshape.setSolidFill before color between hcalls
  segments := fun kind points hmem => by
    rcases List.mem_append.mp hmem with hmem | hmem
    · exact hshape.segments kind points hmem
    · rw [← List.mem_singleton.mp hmem] at hfollows
      exact hfollows.2

/-! ## Executions -/

namespace Execution

/-- The calls of an execution have the right shape and report no failure, and the
execution knows whether they leave a path open. -/
structure Traced (execution : Execution) : Prop where
  shape : CallShape execution.calls.toList
  noError : ∀ cause, .error cause ∉ execution.calls.toList
  pathOpen_iff : execution.pathOpen = true ↔ LeavesOpen execution.calls.toList

theorem toList_emit (execution : Execution) (call : CanvasCall) :
    (execution.emit call).calls.toList = execution.calls.toList ++ [call] :=
  Array.toList_push

theorem not_endsClosing_emit {execution : Execution} {call : CanvasCall}
    (hcall : call ≠ .closePath) : ¬ EndsClosing (execution.emit call).calls.toList := by
  unfold EndsClosing
  rw [toList_emit, List.getLast?_concat, Option.some.injEq]
  exact hcall

/-- One more call, after which the path is open or not. -/
theorem Traced.emit {execution : Execution} {call : CanvasCall} {pathOpen : Bool}
    (htraced : execution.Traced) (hfollows : MayFollow execution.calls.toList call)
    (herror : ∀ cause, call ≠ .error cause)
    (hopen : pathOpen = true ↔ LeavesOpen (execution.calls.toList ++ [call])) :
    Traced { execution.emit call with pathOpen := pathOpen } := by
  refine ⟨?_, ?_, ?_⟩
  · show CallShape (execution.emit call).calls.toList
    rw [toList_emit]
    exact htraced.shape.concat hfollows
  · intro cause
    show .error cause ∉ (execution.emit call).calls.toList
    rw [toList_emit, List.mem_append, not_or, List.mem_singleton]
    exact ⟨htraced.noError cause, (herror cause).symm⟩
  · show pathOpen = true ↔ LeavesOpen (execution.emit call).calls.toList
    rw [toList_emit]
    exact hopen

theorem pathOpen_closePath (execution : Execution) : execution.closePath.pathOpen = false := by
  unfold closePath
  split
  · rfl
  · rename_i hclosed
    exact Bool.not_eq_true _ ▸ hclosed

theorem Traced.closePath {execution : Execution} (htraced : execution.Traced)
    (hlast : ¬ EndsClosing execution.calls.toList) : execution.closePath.Traced := by
  unfold Execution.closePath
  split
  · rename_i hopen
    refine htraced.emit ⟨hlast, htraced.pathOpen_iff.mp hopen⟩
      (fun _ => CanvasCall.noConfusion) ?_
    exact iff_of_false Bool.false_ne_true (not_leavesOpen_concat_closePath _)
  · exact htraced

theorem Traced.setSolidFill {execution : Execution} (htraced : execution.Traced)
    (hclosed : execution.pathOpen = false) (color : Rgba) :
    (execution.emit (.setSolidFill color)).Traced := by
  have hnot : ¬ LeavesOpen execution.calls.toList := by
    rw [← htraced.pathOpen_iff, hclosed]
    exact Bool.false_ne_true
  refine htraced.emit hnot (fun _ => CanvasCall.noConfusion) ?_
  rw [htraced.pathOpen_iff, leavesOpen_concat_iff]
  simp

theorem Traced.moveTo {execution : Execution} (htraced : execution.Traced) (target : Point) :
    (execution.emit (.moveTo target)).Traced := by
  refine htraced.emit trivial (fun _ => CanvasCall.noConfusion) ?_
  rw [htraced.pathOpen_iff, leavesOpen_concat_iff]
  simp

theorem Traced.segments {execution : Execution} (htraced : execution.Traced)
    (hlast : ¬ EndsClosing execution.calls.toList) {kind : SegmentKind} {points : List Point}
    (hadmits : kind.Admits points) :
    Traced { execution.emit (.segments kind points) with pathOpen := true } := by
  refine htraced.emit ⟨hlast, hadmits⟩ (fun _ => CanvasCall.noConfusion) ?_
  exact iff_of_true rfl (leavesOpen_concat_iff.mpr (.inl ⟨kind, points, rfl⟩))

/-! ## One instruction -/

/-- The invariant of a run: between two instructions, closing a path was the last call
only if the program has stopped, and then no path is open. -/
structure Sound (execution : Execution) : Prop extends Traced execution where
  closed_of_stopped : execution.progress = .stopped → execution.pathOpen = false
  not_endsClosing : execution.progress ≠ .stopped → ¬ EndsClosing execution.calls.toList

theorem sound_start (box : ViewBox) : (start box).Sound where
  shape := callShape_viewBox box
  noError := fun _ hmem => CanvasCall.noConfusion (List.mem_singleton.mp hmem)
  pathOpen_iff := by
    refine iff_of_false Bool.false_ne_true ?_
    rintro ⟨earlier, kind, points, later, heq, -⟩
    exact CanvasCall.noConfusion (eq_of_singleton_eq heq)
  closed_of_stopped := fun _ => rfl
  not_endsClosing := fun _ => by simp [EndsClosing, start]

theorem Sound.not_endsClosing_of_running {execution : Execution} (hsound : execution.Sound)
    (hrunning : execution.progress = .running) : ¬ EndsClosing execution.calls.toList :=
  hsound.not_endsClosing (by rw [hrunning]; exact Progress.noConfusion)

/-- A call that begins something new keeps the invariant, whether the path was closed
for it or not. -/
theorem Traced.sound_emit {execution : Execution} {call : CanvasCall}
    (htraced : (execution.emit call).Traced) (hrunning : execution.progress = .running)
    (hcall : call ≠ .closePath) : (execution.emit call).Sound where
  toTraced := htraced
  closed_of_stopped := fun hstopped => by
    rw [show (execution.emit call).progress = execution.progress from rfl, hrunning] at hstopped
    cases hstopped
  not_endsClosing := fun _ => not_endsClosing_emit hcall

theorem Sound.failed {execution : Execution} (hsound : execution.Sound)
    (hrunning : execution.progress = .running) (cause : DrawError) :
    Sound { execution with progress := .failed cause } where
  shape := hsound.shape
  noError := hsound.noError
  pathOpen_iff := hsound.pathOpen_iff
  closed_of_stopped := Progress.noConfusion
  not_endsClosing := fun _ => hsound.not_endsClosing_of_running hrunning

theorem progress_closePath (execution : Execution) :
    execution.closePath.progress = execution.progress := by
  unfold closePath
  split <;> rfl

theorem Sound.perform {execution : Execution} (hsound : execution.Sound)
    (hrunning : execution.progress = .running) (palette : PaletteChoice)
    {instruction : Instruction} (hformed : instruction.WellFormed) :
    (execution.perform palette instruction).Sound := by
  have hlast := hsound.not_endsClosing_of_running hrunning
  have hclosed := hsound.closePath hlast
  have hnotOpen := pathOpen_closePath execution
  have hstill : execution.closePath.progress = .running := by
    rw [progress_closePath, hrunning]
  have hfill : ∀ color, (execution.closePath.emit (.setSolidFill color)).Sound := fun color =>
    (hclosed.setSolidFill hnotOpen color).sound_emit hstill CanvasCall.noConfusion
  have hlength := hformed.length_points
  unfold Execution.perform
  cases hoperation : instruction.operation.value with
  | stop =>
      exact ⟨⟨hclosed.shape, hclosed.noError, hclosed.pathOpen_iff⟩, fun _ => hnotOpen,
        fun hrun => absurd rfl hrun⟩
  | solidFill color => exact hfill color
  | paletteFill index =>
      dsimp only
      split
      · rename_i color hcolor
        exact hfill color
      · -- The color is looked up first, so the path is still as it was.
        exact hsound.failed hrunning _
  | moveTo continues =>
      rw [hoperation, Operation.pointCount] at hlength
      obtain ⟨target, htarget⟩ := List.length_eq_one_iff.mp hlength
      rw [htarget]
      cases continues with
      | false => exact (hclosed.moveTo target.value).sound_emit hstill CanvasCall.noConfusion
      | true => exact (hsound.moveTo target.value).sound_emit hrunning CanvasCall.noConfusion
  | segments kind count =>
      rw [hoperation, Operation.pointCount] at hlength
      obtain ⟨hpos, hmax⟩ := hformed.count_segments kind count hoperation
      have htraced : Traced { execution.emit (.segments kind (instruction.points.map Spelled.value))
          with pathOpen := true } :=
        hsound.segments hlast ⟨count, hpos, hmax, by rw [List.length_map, hlength]⟩
      refine ⟨htraced, fun hstopped => ?_, fun _ => not_endsClosing_emit CanvasCall.noConfusion⟩
      rw [show execution.progress = .stopped from hstopped] at hrunning
      cases hrunning
  | unknown opcode => exact hsound.failed hrunning _

theorem Sound.step {execution : Execution} (hsound : execution.Sound) (palette : PaletteChoice)
    {instruction : Instruction} (hformed : instruction.WellFormed) :
    (execution.step palette instruction).Sound := by
  by_cases hrunning : execution.progress = .running
  · rw [step_of_running hrunning]
    exact hsound.perform hrunning palette hformed
  · rw [step_of_not_running hrunning]
    exact hsound

/-- Every run of well-formed instructions keeps the invariant. -/
theorem Sound.foldl_step {execution : Execution} (hsound : execution.Sound)
    (palette : PaletteChoice) {instructions : List Instruction}
    (hformed : ∀ instruction ∈ instructions, instruction.WellFormed) :
    (instructions.foldl (Execution.step palette) execution).Sound := by
  induction instructions generalizing execution with
  | nil => exact hsound
  | cons instruction rest ih =>
      exact ih (hsound.step palette (hformed _ List.mem_cons_self)) fun other hother =>
        hformed other (List.mem_cons_of_mem _ hother)

end Execution

/-! ## Whole drawings -/

/-- How the calls of a drawing go with its result. -/
def Drawing.Accounted (drawing : Drawing) : Prop :=
  match drawing.result with
  | .ok () => (∀ cause, .error cause ∉ drawing.calls) ∧ ¬ LeavesOpen drawing.calls
  | .error cause => ∃ before, drawing.calls = before ++ [.error cause] ∧
      (∀ other, .error other ∉ before) ∧ ¬ EndsClosing before

theorem Execution.Sound.finish {execution : Execution} (hsound : execution.Sound) (length : Nat) :
    CallShape (execution.finish length).calls ∧ (execution.finish length).Accounted := by
  unfold Execution.finish
  split
  · rename_i hrunning
    have hclosed := hsound.closePath (hsound.not_endsClosing_of_running hrunning)
    refine ⟨hclosed.shape, hclosed.noError, ?_⟩
    rw [← hclosed.pathOpen_iff, pathOpen_closePath]
    exact Bool.false_ne_true
  · rename_i hstopped
    refine ⟨hsound.shape, hsound.noError, ?_⟩
    rw [← hsound.pathOpen_iff, hsound.closed_of_stopped hstopped]
    exact Bool.false_ne_true
  · rename_i cause hfailed
    have hlast := hsound.not_endsClosing (by rw [hfailed]; exact Progress.noConfusion)
    exact ⟨hsound.shape.concat hlast, _, rfl, hsound.noError, hlast⟩

/-- **Every drawing has the same shape**: either there is no view box and nothing but
the failure, or the calls have the shape that `CallShape` describes; and a drawing that
does not fail closes every path, while a failure is told once, at the end. -/
theorem draw_calls_shape (program : Bytes) (palette : PaletteChoice) :
    ((draw program palette).calls = [.error .emptyImage] ∨
      CallShape (draw program palette).calls) ∧ (draw program palette).Accounted := by
  unfold draw
  cases hbox : (Cursor.start program).viewBox? with
  | none =>
      exact ⟨.inl rfl, [], rfl, fun _ => List.not_mem_nil, by simp [EndsClosing]⟩
  | some read =>
      obtain ⟨box, afterBox⟩ := read
      have hsound := (Execution.sound_start box).foldl_step palette
        (Cursor.wellFormed_of_mem_instructions afterBox)
      obtain ⟨hshape, haccounted⟩ := hsound.finish program.length
      exact ⟨.inr hshape, haccounted⟩

end VectorIcons
