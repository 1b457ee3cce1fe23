import Mathlib.Data.List.Forall2
import VectorIcons.Proofs.Program.IssuedCalls

/-!
# Palettes only recolor

A palette decides which colors the palette fills of a program set, and whether one of them
finds no color and ends the drawing.  It decides nothing else: `onlyRecolored` compares
the drawings of one program with any two palettes.

## Strategy

Two runs of the same instructions stay `Parallel`, with paths both open or both closed, as
long as each palette fill finds a color in both palettes or in neither.  The first fill
that finds a color only on one side ends the run of the other side there.  What that run has
made up to then is the beginning of what its companion makes (`StopsShort`), and if the
companion fails at all, then behind this place.
-/

namespace VectorIcons

/-! ## Calls that differ in a palette color -/

/-- The same call for the same instruction, or two colors set by the same palette fill. -/
inductive IssuedCall.Alike : IssuedCall → IssuedCall → Prop
  | same (issued : IssuedCall) : Alike issued issued
  | recolored (instruction : Instruction) (index : UInt8) (first second : Rgba)
      (hfill : instruction.operation.value = .paletteFill index) :
      Alike ⟨some instruction, .setSolidFill first⟩ ⟨some instruction, .setSolidFill second⟩

/-- The same calls in the same order, apart from the colors that palette fills set. -/
abbrev AlikeCalls : List IssuedCall → List IssuedCall → Prop := List.Forall₂ IssuedCall.Alike

theorem IssuedCall.Alike.symm {first second : IssuedCall} (halike : first.Alike second) :
    second.Alike first := by
  cases halike with
  | same => exact .same first
  | recolored instruction index one other hfill =>
      exact .recolored instruction index other one hfill

theorem AlikeCalls.refl (calls : List IssuedCall) : AlikeCalls calls calls :=
  List.forall₂_same.mpr fun issued _ => .same issued

theorem AlikeCalls.symm {first second : List IssuedCall} (halike : AlikeCalls first second) :
    AlikeCalls second first :=
  halike.flip.imp fun _ _ hcalls => hcalls.symm

theorem AlikeCalls.append {first second firstLater secondLater : List IssuedCall}
    (halike : AlikeCalls first second) (hlater : AlikeCalls firstLater secondLater) :
    AlikeCalls (first ++ firstLater) (second ++ secondLater) :=
  List.rel_append halike hlater

/-! ## Two runs side by side -/

namespace Execution

/-- Two executions at the same place of a program, whose paths are both open or both closed. -/
structure Parallel (first second : Execution) : Prop where
  pathOpen_eq : first.pathOpen = second.pathOpen
  progress_eq : first.progress = second.progress

section Instructions

variable {firstPalette secondPalette : PaletteChoice} {first second : Execution}
  {instruction : Instruction}

theorem Parallel.closePath (parallel : Parallel first second) :
    Parallel first.closePath second.closePath := by
  constructor
  · rw [pathOpen_closePath, pathOpen_closePath]
  · rw [progress_closePath, progress_closePath, parallel.progress_eq]

theorem Parallel.moveTo (parallel : Parallel first second) (points : List Point) :
    Parallel (first.moveTo points) (second.moveTo points) := by
  constructor
  · rw [pathOpen_moveTo, pathOpen_moveTo, parallel.pathOpen_eq]
  · rw [progress_moveTo, progress_moveTo, parallel.progress_eq]

/-- An instruction that is no palette fill does the same on both sides. -/
theorem Parallel.perform_of_ne (parallel : Parallel first second)
    (hother : ∀ index, instruction.operation.value ≠ .paletteFill index) :
    Parallel (first.perform firstPalette instruction)
        (second.perform secondPalette instruction) ∧
      instruction.calls firstPalette first.pathOpen =
        instruction.calls secondPalette second.pathOpen := by
  have hclosed := parallel.closePath
  have hopen := parallel.pathOpen_eq
  unfold perform Instruction.calls
  cases hoperation : instruction.operation.value with
  | stop => exact ⟨⟨hclosed.pathOpen_eq, rfl⟩, by rw [hopen]⟩
  | solidFill color => exact ⟨⟨hclosed.pathOpen_eq, hclosed.progress_eq⟩, by rw [hopen]⟩
  | paletteFill index => exact absurd hoperation (hother index)
  | moveTo continues =>
      cases continues with
      | true => exact ⟨parallel.moveTo _, rfl⟩
      | false => exact ⟨hclosed.moveTo _, by rw [hopen]⟩
  | segments kind count => exact ⟨⟨rfl, parallel.progress_eq⟩, rfl⟩
  | unknown opcode => exact ⟨⟨hopen, rfl⟩, rfl⟩

/-- A palette fill that finds its color closes the path and sets the color. -/
theorem perform_paletteFill {palette : PaletteChoice} {index : UInt8} {color : Rgba}
    (execution : Execution) (hfill : instruction.operation.value = .paletteFill index)
    (hcolor : palette.color? index.toNat = some color) :
    execution.perform palette instruction = execution.closePath.emit (.setSolidFill color) ∧
      instruction.calls palette execution.pathOpen =
        closing execution.pathOpen ++ [.setSolidFill color] := by
  unfold perform Instruction.calls
  rw [hfill]
  dsimp only
  rw [hcolor]
  exact ⟨rfl, rfl⟩

/-- A palette fill without a color makes no call. -/
theorem perform_paletteFill_of_none {palette : PaletteChoice} {index : UInt8}
    (execution : Execution) (hfill : instruction.operation.value = .paletteFill index)
    (hcolor : palette.color? index.toNat = none) :
    execution.perform palette instruction =
        { execution with
          progress := .failed (.invalidPaletteIndex instruction.offset index.toNat) } ∧
      instruction.calls palette execution.pathOpen = [] := by
  unfold perform Instruction.calls
  rw [hfill]
  dsimp only
  rw [hcolor]
  exact ⟨rfl, rfl⟩

/-- What a palette fill does on both sides if both find a color or neither does. -/
theorem Parallel.perform_paletteFill {index : UInt8} (parallel : Parallel first second)
    (hfill : instruction.operation.value = .paletteFill index)
    (hboth : (firstPalette.color? index.toNat).isSome = (secondPalette.color? index.toNat).isSome) :
    Parallel (first.perform firstPalette instruction)
        (second.perform secondPalette instruction) ∧
      AlikeCalls (instruction.issued firstPalette first.pathOpen)
        (instruction.issued secondPalette second.pathOpen) := by
  have hclosed := parallel.closePath
  unfold Instruction.issued
  rcases hone : firstPalette.color? index.toNat with _ | one
  · have hother : secondPalette.color? index.toNat = none := by
      rw [hone] at hboth
      exact Option.not_isSome_iff_eq_none.mp (by simp [← hboth])
    obtain ⟨hperform, hcalls⟩ := perform_paletteFill_of_none first hfill hone
    obtain ⟨hperformOther, hcallsOther⟩ := perform_paletteFill_of_none second hfill hother
    rw [hperform, hperformOther, hcalls, hcallsOther]
    exact ⟨⟨parallel.pathOpen_eq, rfl⟩, .nil⟩
  · obtain ⟨other, hother⟩ : ∃ other, secondPalette.color? index.toNat = some other := by
      rw [hone] at hboth
      exact Option.isSome_iff_exists.mp hboth.symm
    obtain ⟨hperform, hcalls⟩ := Execution.perform_paletteFill first hfill hone
    obtain ⟨hperformOther, hcallsOther⟩ := Execution.perform_paletteFill second hfill hother
    rw [hperform, hperformOther, hcalls, hcallsOther, parallel.pathOpen_eq, List.map_append,
      List.map_append]
    refine ⟨⟨hclosed.pathOpen_eq, hclosed.progress_eq⟩, (AlikeCalls.refl _).append ?_⟩
    exact .cons (.recolored instruction index one other hfill) .nil

end Instructions
end Execution

/-! ## Comparing two runs -/

namespace Run

/-- `short` lacks a color of its palette where `long` goes on, and has made the same calls so
far. -/
structure StopsShort (short long : Run) : Prop where
  failure : ∃ position index,
    short.ended.progress = .failed (.invalidPaletteIndex position index) ∧
      ∀ cause, long.ended.progress = .failed cause → position < cause.position
  calls : ∃ shared later, long.calls = shared ++ later ∧ AlikeCalls short.calls shared

/-- Two runs that differ only in palette colors, as far as both go. -/
inductive Comparable (first second : Run) : Prop
  | parallel (hended : first.ended.Parallel second.ended)
      (hcalls : AlikeCalls first.calls second.calls)
  | firstShort (hshort : StopsShort first second)
  | secondShort (hshort : StopsShort second first)

variable {first second : Run} {firstCalls secondCalls : List IssuedCall}

theorem StopsShort.after (hshort : StopsShort first second)
    (halike : AlikeCalls firstCalls secondCalls) :
    StopsShort (first.after firstCalls) (second.after secondCalls) := by
  obtain ⟨hfailure, shared, later, hlater, hshared⟩ := hshort
  refine ⟨hfailure, secondCalls ++ shared, later, ?_, halike.append hshared⟩
  show secondCalls ++ second.calls = _
  rw [hlater, List.append_assoc]

/-- Alike calls before two runs leave them comparable. -/
theorem Comparable.after (hcomparable : Comparable first second)
    (halike : AlikeCalls firstCalls secondCalls) :
    Comparable (first.after firstCalls) (second.after secondCalls) := by
  cases hcomparable with
  | parallel hended hcalls => exact .parallel hended (halike.append hcalls)
  | firstShort hshort => exact .firstShort (hshort.after halike)
  | secondShort hshort => exact .secondShort (hshort.after halike.symm)

end Run

namespace Execution

variable {firstPalette secondPalette : PaletteChoice} {first second : Execution}
  {instruction : Instruction}

/-- The side whose palette lacks the color of a fill stops there, whatever the other one does
from there on. -/
theorem stopsShort_of_paletteFill {index : UInt8} {color : Rgba} {others : List Instruction}
    (hfirst : first.progress = .running) (hsecond : second.progress = .running)
    (hfill : instruction.operation.value = .paletteFill index)
    (hnone : firstPalette.color? index.toNat = none)
    (hcolor : secondPalette.color? index.toNat = some color)
    (hordered : ∀ later ∈ others, instruction.offset < later.offset) :
    Run.StopsShort (first.run firstPalette (instruction :: others))
      (second.run secondPalette (instruction :: others)) := by
  obtain ⟨hperform, hcalls⟩ := perform_paletteFill_of_none first hfill hnone
  have hended : (first.perform firstPalette instruction).progress ≠ .running := by
    rw [hperform]
    exact Progress.noConfusion
  rw [run_cons hfirst, run_cons hsecond, run_of_not_running _ hended, Instruction.issued, hcalls]
  constructor
  · refine ⟨instruction.offset, index.toNat, ?_, ?_⟩
    · show (first.perform firstPalette instruction).progress = _
      rw [hperform]
    · intro cause hfailed
      have hstill : (second.perform secondPalette instruction).progress = .running := by
        rw [(perform_paletteFill second hfill hcolor).1]
        exact (progress_closePath second).trans hsecond
      obtain ⟨later, hlater, hposition⟩ := exists_offset_of_failed hstill hfailed
      rw [hposition]
      exact hordered later hlater
  · exact ⟨[], _, rfl, .nil⟩

/-- **Two runs of the same instructions differ only in palette colors**, as far as both go. -/
theorem Parallel.comparable_run (parallel : Parallel first second)
    (instructions : List Instruction)
    (hordered : instructions.Pairwise fun earlier later => earlier.offset < later.offset) :
    Run.Comparable (first.run firstPalette instructions)
      (second.run secondPalette instructions) := by
  induction instructions generalizing first second with
  | nil => exact .parallel parallel .nil
  | cons instruction others ih =>
      obtain ⟨hlater, hothers⟩ := List.pairwise_cons.mp hordered
      by_cases hfirst : first.progress = .running
      · have hsecond : second.progress = .running := parallel.progress_eq ▸ hfirst
        by_cases hfill : ∃ index, instruction.operation.value = .paletteFill index
        · obtain ⟨index, hfill⟩ := hfill
          by_cases hboth : (firstPalette.color? index.toNat).isSome =
              (secondPalette.color? index.toNat).isSome
          · obtain ⟨hparallel, halike⟩ := parallel.perform_paletteFill hfill hboth
            rw [run_cons hfirst, run_cons hsecond]
            exact (ih hparallel hothers).after halike
          · -- Only one side has the color, so the other one stops here.
            rcases hone : firstPalette.color? index.toNat with _ | one <;>
              rcases hother : secondPalette.color? index.toNat with _ | other
            · exact absurd (by rw [hone, hother]) hboth
            · exact .firstShort
                (stopsShort_of_paletteFill hfirst hsecond hfill hone hother hlater)
            · exact .secondShort
                (stopsShort_of_paletteFill hsecond hfirst hfill hother hone hlater)
            · exact absurd (by rw [hone, hother]; rfl) hboth
        · obtain ⟨hparallel, hcalls⟩ := parallel.perform_of_ne fun index hindex =>
            hfill ⟨index, hindex⟩
          rw [run_cons hfirst, run_cons hsecond, Instruction.issued, Instruction.issued, hcalls]
          exact (ih hparallel hothers).after (AlikeCalls.refl _)
      · -- Both have ended and let all instructions pass.
        have hsecond : second.progress ≠ .running := parallel.progress_eq ▸ hfirst
        rw [run_of_not_running _ hfirst, run_of_not_running _ hsecond]
        exact .parallel parallel .nil

end Execution

/-! ## The colors that are looked up -/

/-- The index that a palette fill looks up. -/
def Instruction.paletteIndex? (instruction : Instruction) : Option Nat :=
  match instruction.operation.value with
  | .paletteFill index => some index.toNat
  | _ => none

/-- The indexes that the drawing of a program looks up in its palette. -/
def lookedUp (program : Bytes) (palette : PaletteChoice) : List Nat :=
  match (Cursor.start program).viewBox? with
  | none => []
  | some (box, place) =>
      ((Execution.start box).performed palette place.instructions.1).filterMap
        Instruction.paletteIndex?

namespace Execution

theorem perform_congr {firstPalette secondPalette : PaletteChoice} (execution : Execution)
    {instruction : Instruction}
    (hcolors : ∀ index, instruction.paletteIndex? = some index →
      firstPalette.color? index = secondPalette.color? index) :
    execution.perform firstPalette instruction = execution.perform secondPalette instruction := by
  unfold perform
  cases hoperation : instruction.operation.value with
  | paletteFill index =>
      have hcolor : firstPalette.color? index.toNat = secondPalette.color? index.toNat := by
        apply hcolors
        rw [Instruction.paletteIndex?, hoperation]
      dsimp only
      rw [hcolor]
  | _ => rfl

/-- Palettes that agree on what the instructions look up run them alike. -/
theorem foldl_step_congr {firstPalette secondPalette : PaletteChoice} (execution : Execution)
    (instructions : List Instruction)
    (hcolors : ∀ index ∈
      (execution.performed firstPalette instructions).filterMap Instruction.paletteIndex?,
      firstPalette.color? index = secondPalette.color? index) :
    instructions.foldl (step firstPalette) execution =
      instructions.foldl (step secondPalette) execution := by
  induction instructions generalizing execution with
  | nil => rfl
  | cons instruction others ih =>
      by_cases hrunning : execution.progress = .running
      · rw [performed_cons hrunning] at hcolors
        have hfirst := perform_congr execution fun index hindex => by
          apply hcolors
          rw [List.filterMap_cons_some hindex]
          exact List.mem_cons_self
        rw [List.foldl_cons, List.foldl_cons, step_of_running hrunning, step_of_running hrunning,
          ← hfirst]
        apply ih
        intro index hindex
        apply hcolors
        obtain ⟨later, hlater, hlookedUp⟩ := List.mem_filterMap.mp hindex
        exact List.mem_filterMap.mpr ⟨later, List.mem_cons_of_mem _ hlater, hlookedUp⟩
      · rw [foldl_step_of_not_running _ hrunning, foldl_step_of_not_running _ hrunning]

theorem Parallel.endingCalls_eq {first second : Execution} (parallel : Parallel first second) :
    first.endingCalls = second.endingCalls := by
  unfold endingCalls
  rw [parallel.progress_eq, parallel.pathOpen_eq]

theorem Parallel.result_eq {first second : Execution} (parallel : Parallel first second)
    (length : Nat) : (first.finish length).result = (second.finish length).result := by
  unfold finish
  rw [parallel.progress_eq]
  cases second.progress <;> rfl

theorem endingCalls_of_failed {execution : Execution} {cause : DrawError}
    (hfailed : execution.progress = .failed cause) : execution.endingCalls = [.error cause] := by
  rw [endingCalls, hfailed]

end Execution

/-! ## Whole drawings -/

/-- Two drawings of one program differ only in palette colors. -/
structure OnlyRecolored (program : Bytes) (first second : PaletteChoice) : Prop where
  /-- What is compared are the calls of the drawings. -/
  calls_first : (issuedCalls program first).map IssuedCall.call = (draw program first).calls
  calls_second : (issuedCalls program second).map IssuedCall.call = (draw program second).calls
  /-- If both find their colors, they end alike and make the same calls apart from the colors
  that palette fills set. -/
  of_found :
    (∀ position index,
      (draw program first).result ≠ .error (.invalidPaletteIndex position index)) →
    (∀ position index,
      (draw program second).result ≠ .error (.invalidPaletteIndex position index)) →
    (draw program first).result = (draw program second).result ∧
      AlikeCalls (issuedCalls program first) (issuedCalls program second)
  /-- One that lacks a color has made the calls that the other one begins with, unless that
  failed before. -/
  of_missing : ∀ position index,
    (draw program first).result = .error (.invalidPaletteIndex position index) →
    (∀ cause, (draw program second).result = .error cause → position ≤ cause.position) →
    ∃ before shared later,
      issuedCalls program first =
        before ++ [⟨none, .error (.invalidPaletteIndex position index)⟩] ∧
      issuedCalls program second = shared ++ later ∧ AlikeCalls before shared
  /-- The colors that are looked up are all that matters. -/
  of_same_colors :
    (∀ index ∈ lookedUp program first, first.color? index = second.color? index) →
    draw program first = draw program second
  /-- Palettes that are not selected do not matter. -/
  of_same_palette :
    (first.table >>= fun table => table.get? first.selector) =
      (second.table >>= fun table => table.get? second.selector) →
    draw program first = draw program second

section ViewBox

variable {program : Bytes} {box : ViewBox} {place : Cursor} {first second : PaletteChoice}

/-- The runs of one program with two palettes can be compared. -/
theorem comparable_of_viewBox? (box : ViewBox) (place : Cursor) (first second : PaletteChoice) :
    Run.Comparable ((Execution.start box).run first place.instructions.1)
      ((Execution.start box).run second place.instructions.1) := by
  have parallel : Execution.Parallel (.start box) (.start box) := ⟨rfl, rfl⟩
  exact parallel.comparable_run _ place.pairwise_offset_instructions.2

theorem result_draw_eq_error_iff (hread : (Cursor.start program).viewBox? = some (box, place))
    {palette : PaletteChoice} {cause : DrawError} :
    (draw program palette).result = .error cause ↔
      ((Execution.start box).run palette place.instructions.1).ended.progress = .failed cause := by
  rw [draw_eq_finish hread, Execution.result_finish_eq_error_iff]

theorem alikeCalls_issuedCalls (hread : (Cursor.start program).viewBox? = some (box, place))
    (hended : ((Execution.start box).run first place.instructions.1).ended.Parallel
      ((Execution.start box).run second place.instructions.1).ended)
    (hcalls : AlikeCalls ((Execution.start box).run first place.instructions.1).calls
      ((Execution.start box).run second place.instructions.1).calls) :
    AlikeCalls (issuedCalls program first) (issuedCalls program second) := by
  rw [issuedCalls_of_viewBox? hread, issuedCalls_of_viewBox? hread, hended.endingCalls_eq]
  exact AlikeCalls.append (.cons (.same _) hcalls) (AlikeCalls.refl _)

theorem exists_issuedCalls_of_missing
    (hread : (Cursor.start program).viewBox? = some (box, place)) {position index : Nat}
    (hresult : (draw program first).result = .error (.invalidPaletteIndex position index))
    (hearlier : ∀ cause, (draw program second).result = .error cause →
      position ≤ cause.position) :
    ∃ before shared later,
      issuedCalls program first =
        before ++ [⟨none, .error (.invalidPaletteIndex position index)⟩] ∧
      issuedCalls program second = shared ++ later ∧ AlikeCalls before shared := by
  have hfailed := (result_draw_eq_error_iff hread).mp hresult
  rw [issuedCalls_of_viewBox? hread, issuedCalls_of_viewBox? hread,
    Execution.endingCalls_of_failed hfailed]
  cases comparable_of_viewBox? box place first second with
  | parallel hended hcalls =>
      exact ⟨_, _, _, rfl, rfl, .cons (.same _) hcalls⟩
  | firstShort hshort =>
      obtain ⟨shared, later, hlater, hshared⟩ := hshort.calls
      generalize ((Execution.start box).run second place.instructions.1).ended.endingCalls =
        ending
      refine ⟨_, ⟨none, .viewBox box⟩ :: shared, later ++ ending.map (⟨none, ·⟩), rfl, ?_,
        .cons (.same _) hshared⟩
      rw [hlater, ← List.append_assoc]
      rfl
  | secondShort hshort =>
      -- Then the second one has failed before the first one did.
      obtain ⟨earlier, missing, hmissing, hlater⟩ := hshort.failure
      have hlt : earlier < position := hlater _ hfailed
      have hle : position ≤ earlier := hearlier _ ((result_draw_eq_error_iff hread).mpr hmissing)
      omega

end ViewBox

theorem draw_congr {program : Bytes} {first second : PaletteChoice}
    (hcolors : ∀ index ∈ lookedUp program first, first.color? index = second.color? index) :
    draw program first = draw program second := by
  unfold lookedUp at hcolors
  unfold draw
  cases hread : (Cursor.start program).viewBox? with
  | none => rfl
  | some read =>
      obtain ⟨box, place⟩ := read
      rw [hread] at hcolors
      dsimp only
      rw [Execution.foldl_step_congr _ _ hcolors]

/-- **Palettes only recolor**: whatever two palettes a program is drawn with, the drawings
differ in nothing but the colors that palette fills set, up to the first one that is not
there. -/
theorem onlyRecolored (program : Bytes) (first second : PaletteChoice) :
    OnlyRecolored program first second where
  calls_first := map_call_issuedCalls program first
  calls_second := map_call_issuedCalls program second
  of_found := by
    intro hfirst hsecond
    cases hread : (Cursor.start program).viewBox? with
    | none =>
        unfold issuedCalls draw
        rw [hread]
        exact ⟨rfl, AlikeCalls.refl _⟩
    | some read =>
        obtain ⟨box, place⟩ := read
        cases comparable_of_viewBox? box place first second with
        | parallel hended hcalls =>
            rw [draw_eq_finish hread, draw_eq_finish hread]
            exact ⟨hended.result_eq _, alikeCalls_issuedCalls hread hended hcalls⟩
        | firstShort hshort =>
            obtain ⟨position, index, hfailed, -⟩ := hshort.failure
            exact absurd ((result_draw_eq_error_iff hread).mpr hfailed) (hfirst position index)
        | secondShort hshort =>
            obtain ⟨position, index, hfailed, -⟩ := hshort.failure
            exact absurd ((result_draw_eq_error_iff hread).mpr hfailed) (hsecond position index)
  of_missing := by
    intro position index hresult hearlier
    cases hread : (Cursor.start program).viewBox? with
    | none =>
        have hempty := (result_draw_eq_emptyImage_iff program first).mpr hread
        cases hempty.symm.trans hresult
    | some read => exact exists_issuedCalls_of_missing hread hresult hearlier
  of_same_colors := draw_congr
  of_same_palette := by
    intro hpalette
    apply draw_congr
    intro index _
    have hcolor : ∀ choice : PaletteChoice, choice.color? index =
        (choice.table >>= fun table => table.get? choice.selector) >>= fun palette =>
          palette[index]? := by
      rintro ⟨_ | table, selector⟩ <;> rfl
    rw [hcolor, hcolor, hpalette]

end VectorIcons
