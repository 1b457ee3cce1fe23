import VectorIcons.Log
import VectorIcons.Palette
import VectorIcons.Program.Instruction
import VectorIcons.Program.ViewBox
import VectorIcons.Text.Hex
import VectorIcons.Text.Quoted

/-!
# Drawing a program

A program begins with its view box, four coordinates that must all be there, and
goes on with instructions.  Drawing it makes calls on a canvas, in order.

A path that has segments is closed, and so filled, before the next color is set,
before the next shape begins, and when the program stops or ends.  A program fails
at an opcode that is unknown or a palette color that is not there; the calls made
so far stay, the path is not closed, and the failure is the last call.

## Strategy

`Cursor.instructions` reads the whole program first.  Drawing is then a fold over
that list: a step takes one instruction, and an execution that has stopped or
failed lets the instructions after that pass.
-/

namespace VectorIcons

/-! ## Calls and failures -/

/-- Why a drawing ended early. -/
inductive DrawError where
  /-- There is no view box, or no program. -/
  | emptyImage
  /-- The palette has no color `index`; the fill stands at `position`. -/
  | invalidPaletteIndex (position index : Nat)
  /-- No instruction has the `opcode` at `position`. -/
  | invalidOpcode (position : Nat) (opcode : UInt8)
deriving DecidableEq, Repr

namespace DrawError

/-- How many bytes of the program lie before the failing instruction. -/
def position : DrawError → Nat
  | .emptyImage => 0
  | .invalidPaletteIndex position _ => position
  | .invalidOpcode position _ => position

def message : DrawError → String
  | .emptyImage => "empty image"
  | .invalidPaletteIndex position index =>
      "invalid palette index " ++ Nat.repr index ++ " at byte " ++ Nat.repr position
  | .invalidOpcode position opcode =>
      "invalid opcode 0x" ++ Text.hexByte opcode ++ " at byte " ++ Nat.repr position

end DrawError

inductive CanvasCall where
  | viewBox (box : ViewBox)
  | setSolidFill (color : Rgba)
  | moveTo (target : Point)
  | segments (kind : SegmentKind) (points : List Point)
  | closePath
  | error (cause : DrawError)
deriving DecidableEq, Repr

def CanvasCall.isError : CanvasCall → Bool
  | .error _ => true
  | _ => false

/-- What a drawing tells about itself. -/
inductive DrawEvent where
  /-- The program ended at `position` without a stop. -/
  | endedWithoutStop (position : Nat)
  | failed (cause : DrawError)
  /-- The icon `name` has no program for the size asked for. -/
  | noDrawableVariant (name : String)
deriving DecidableEq, Repr

def DrawEvent.entry : DrawEvent → LogEntry
  | .endedWithoutStop position =>
      ⟨.debug, "Icon program ended without stop at byte " ++ Nat.repr position⟩
  | .failed cause => ⟨.warn, "Icon program failed: " ++ cause.message⟩
  | .noDrawableVariant name =>
      ⟨.debug, "Icon " ++ Text.quoted name ++ " has no drawable variant"⟩

/-- A finished drawing: the calls in order, whether it failed, and what it told
about itself. -/
structure Drawing where
  calls : List CanvasCall
  result : Except DrawError Unit
  events : List DrawEvent

/-- The calls that arrive at a canvas, which may have no use for failures. -/
def Drawing.callsFor (drawing : Drawing) (hearsErrors : Bool) : List CanvasCall :=
  if hearsErrors then drawing.calls else drawing.calls.filter fun call => !call.isError

/-! ## Executing instructions -/

/-- How far an execution has come. -/
inductive Progress where
  | running
  | stopped
  | failed (cause : DrawError)
deriving DecidableEq, Repr

/-- An execution on its way through a program. -/
structure Execution where
  calls : Array CanvasCall
  /-- Whether a segment was drawn that no closing has followed. -/
  pathOpen : Bool
  progress : Progress

namespace Execution

/-- The execution that has shown its view box and nothing else. -/
def start (box : ViewBox) : Execution := ⟨#[.viewBox box], false, .running⟩

def emit (execution : Execution) (call : CanvasCall) : Execution :=
  { execution with calls := execution.calls.push call }

/-- Makes one call per point of a move. -/
def moveTo (execution : Execution) (points : List Point) : Execution :=
  points.foldl (fun moved point => moved.emit (.moveTo point)) execution

def closePath (execution : Execution) : Execution :=
  if execution.pathOpen then { execution.emit .closePath with pathOpen := false } else execution

/-- Takes the execution of a running program through one instruction. -/
def perform (palette : PaletteChoice) (execution : Execution) (instruction : Instruction) :
    Execution :=
  let points := instruction.points.map Spelled.value
  match instruction.operation.value with
  | .stop => { execution.closePath with progress := .stopped }
  | .solidFill color => execution.closePath.emit (.setSolidFill color)
  | .paletteFill index =>
      match palette.color? index.toNat with
      | some color => execution.closePath.emit (.setSolidFill color)
      | none =>
          { execution with
            progress := .failed (.invalidPaletteIndex instruction.offset index.toNat) }
  | .moveTo continues =>
      (if continues then execution else execution.closePath).moveTo points
  | .segments kind _ => { execution.emit (.segments kind points) with pathOpen := true }
  | .unknown opcode =>
      { execution with progress := .failed (.invalidOpcode instruction.offset opcode) }

/-- Takes an execution past one instruction. -/
def step (palette : PaletteChoice) (execution : Execution) (instruction : Instruction) :
    Execution :=
  match execution.progress with
  | .running => execution.perform palette instruction
  | .stopped => execution
  | .failed _ => execution

theorem step_of_running {execution : Execution} (hrunning : execution.progress = .running)
    (palette : PaletteChoice) (instruction : Instruction) :
    execution.step palette instruction = execution.perform palette instruction := by
  unfold step
  rw [hrunning]

/-- An execution that has ended lets an instruction pass. -/
theorem step_of_not_running {execution : Execution} (hended : execution.progress ≠ .running)
    (palette : PaletteChoice) (instruction : Instruction) :
    execution.step palette instruction = execution := by
  unfold step
  split
  · rename_i hrunning
    exact absurd hrunning hended
  · rfl
  · rfl

end Execution

/-! ## Whole programs -/

/-- The drawing that failed after some calls. -/
def Drawing.failure (calls : List CanvasCall) (cause : DrawError) : Drawing :=
  ⟨calls ++ [.error cause], .error cause, [.failed cause]⟩

/-- The drawing of an execution that has passed all instructions of a program of
`length` bytes. -/
def Execution.finish (execution : Execution) (length : Nat) : Drawing :=
  match execution.progress with
  | .running => ⟨execution.closePath.calls.toList, .ok (), [.endedWithoutStop length]⟩
  | .stopped => ⟨execution.calls.toList, .ok (), []⟩
  | .failed cause => .failure execution.calls.toList cause

/-- Draws a program with the colors of a palette. -/
def draw (program : Bytes) (palette : PaletteChoice) : Drawing :=
  match (Cursor.start program).viewBox? with
  | none => .failure [] .emptyImage
  | some (box, afterBox) =>
      (afterBox.instructions.1.foldl (Execution.step palette) (.start box)).finish program.length

end VectorIcons
