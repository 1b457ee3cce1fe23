import VectorIcons.Program.Instruction
import VectorIcons.Program.ViewBox
import VectorIcons.Runs

/-!
# Writing programs

A program is written in steps.  Each step has bytes of its own, which depend on
the steps before it only through one thing: the first move after the start of a
shape begins it, and a later move goes on with it.

Segments of one kind are written with as few opcodes as possible, each but the
last holding as many segments as an opcode can.  A list of points that does not
make whole segments is refused, and nothing is written for it.
-/

namespace VectorIcons

/-! ## Steps -/

inductive ProgramStep where
  /-- A byte as it is. -/
  | byte (value : UInt8)
  | coordinate (x : Binary32)
  | viewBox (box : ViewBox)
  | solidFill (color : Rgba)
  | paletteFill (index : UInt8)
  /-- Makes the next move begin a shape; writes nothing. -/
  | beginPath
  | moveTo (target : Point)
  | segments (kind : SegmentKind) (points : List Point)
  | stop
deriving DecidableEq, Repr

/-- Why a step was refused. -/
inductive ProgramError where
  /-- There are no points. -/
  | noPoints (kind : SegmentKind)
  /-- The number of points is not a multiple of what one segment takes. -/
  | partialSegment (kind : SegmentKind) (count : Nat)
deriving DecidableEq, Repr

def SegmentKind.name : SegmentKind → String
  | .line => "line"
  | .cubic => "cubic"
  | .quadratic => "quadratic"

def ProgramError.message : ProgramError → String
  | .noPoints kind => "empty " ++ kind.name ++ " op"
  | .partialSegment kind count =>
      "invalid " ++ kind.name ++ " op: " ++ Nat.repr count ++
        " points is not a multiple of " ++ Nat.repr kind.arity

/-! ## The bytes of a step -/

/-- The bytes of points one after another. -/
def encodePoints (precision : Binary32) (points : List Point) : Bytes :=
  points.flatMap (Point.encode precision)

/-- The bytes of an operation that stands for as many segments as `points`
make. -/
def encodeSegmentRun (precision : Binary32) (kind : SegmentKind) (points : List Point) : Bytes :=
  (Operation.segments kind (points.length / kind.arity)).bytes ++ encodePoints precision points

/-- The bytes of segments of one kind, if the points make whole segments. -/
def encodeSegments (precision : Binary32) (kind : SegmentKind) (points : List Point) :
    Except ProgramError Bytes :=
  if points = [] then .error (.noPoints kind)
  else if points.length % kind.arity ≠ 0 then .error (.partialSegment kind points.length)
  else
    .ok ((runs (kind.maxCount * kind.arity) points).flatMap (encodeSegmentRun precision kind))

namespace ProgramStep

/-- The bytes of a step; `continues` tells whether a move goes on with a shape. -/
def encode (precision : Binary32) (continues : Bool) : ProgramStep → Except ProgramError Bytes
  | .byte value => .ok [value]
  | .coordinate x => .ok (Coordinate.encode precision x)
  | .viewBox box => .ok (box.encode precision)
  | .solidFill color => .ok (Operation.solidFill color).bytes
  | .paletteFill index => .ok (Operation.paletteFill index).bytes
  | .beginPath => .ok []
  | .moveTo target => .ok ((Operation.moveTo continues).bytes ++ target.encode precision)
  | .segments kind points => encodeSegments precision kind points
  | .stop => .ok Operation.stop.bytes

/-- Whether a move after this step goes on with a shape, given whether one before
it would have. -/
def continuesAfter (continues : Bool) : ProgramStep → Bool
  | .beginPath => false
  | .moveTo _ => true
  | _ => continues

end ProgramStep

/-! ## Writers -/

structure ProgramWriter where
  /-- How far a coordinate may be off. -/
  precision : Binary32
  bytes : Array UInt8
  /-- Whether a move goes on with a shape. -/
  continues : Bool

namespace ProgramWriter

def empty (precision : Binary32) : ProgramWriter := ⟨precision, #[], false⟩

/-- Takes a step.  Gives the bytes that it wrote, or why it was refused, and the
writer after it. -/
def write (writer : ProgramWriter) (step : ProgramStep) :
    Except ProgramError Bytes × ProgramWriter :=
  match step.encode writer.precision writer.continues with
  | .ok written =>
      (.ok written,
        { writer with
          bytes := writer.bytes ++ written
          continues := step.continuesAfter writer.continues })
  | .error cause => (.error cause, writer)

def program (writer : ProgramWriter) : Bytes := writer.bytes.toList

end ProgramWriter
end VectorIcons
