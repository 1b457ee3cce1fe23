import VectorIcons.Log
import VectorIcons.Pack.Section
import VectorIcons.Text.Quoted

/-!
# Building packs

A builder collects sections in the order in which they are added.  It refuses what a
section has no room to say: a palette with more than 255 colors, and an icon whose
name or number of variants is none or more than 255.  What it refuses is not added.

Sections with a tag of the caller's choice are never refused, and the size of an icon
is not checked here.

`PackBuilder.encode` makes the bytes `packBytes` of the sections, unless one of them is
too large for its size to be stated.  For packs that can be encoded,
`PackBuilder.writeWithin` writes the bytes piece by piece into a buffer that may be too
small: then the buffer is filled up, and the piece that did not fit decides how writing
fails.
-/

namespace VectorIcons

/-! ## Refusals -/

/-- Why something was not added. -/
inductive BuildError where
  /-- The name has `length` bytes. -/
  | nameLength (length : Nat)
  | variantCount (name : String) (count : Nat)
  | paletteTooLarge (slot : UInt8) (count : Nat)
deriving DecidableEq, Repr

def BuildError.message : BuildError → String
  | .nameLength length => "Icon name must be 1 to 255 bytes, got " ++ Nat.repr length
  | .variantCount name count =>
      "Icon " ++ Text.quoted name ++ " needs 1 to 255 variants, got " ++ Nat.repr count
  | .paletteTooLarge _ count => "Palette exceeds 255 colors: " ++ Nat.repr count

/-! ## Events -/

/-- What building and writing tell about themselves. -/
inductive BuildEvent where
  | paletteTooLarge (slot : UInt8) (count : Nat)
  | started
  /-- The header is written and announces `count` icons. -/
  | headerWritten (count : Nat)
  | sectionWritten (written : Section)
  | completed
deriving DecidableEq, Repr

namespace BuildEvent

def sectionMessage : Section → String
  | .palette slot colors =>
      "Palette #" ++ Nat.repr slot.toNat ++ " written with " ++ Nat.repr colors.length ++ " colors"
  | .icon name records _ =>
      "Icon " ++ Text.quoted name ++ " written with " ++ Nat.repr records.length ++ " variants"
  | .other tag _ => "Raw section " ++ Text.quoted tag.text ++ " written"

def entry : BuildEvent → LogEntry
  | .paletteTooLarge slot count =>
      ⟨.error, "Palette #" ++ Nat.repr slot.toNat ++ " has " ++ Nat.repr count ++ " colors"⟩
  | .started => ⟨.info, "Starting encoding"⟩
  | .headerWritten count => ⟨.debug, "Header written with " ++ Nat.repr count ++ " icons"⟩
  | .sectionWritten written => ⟨.debug, sectionMessage written⟩
  | .completed => ⟨.info, "Encoding completed successfully"⟩

end BuildEvent

def BuildError.events : BuildError → List BuildEvent
  | .paletteTooLarge slot count => [.paletteTooLarge slot count]
  | _ => []

/-! ## Collecting sections -/

/-- A variant of an icon to be written: the size it is drawn for, and its program. -/
structure VariantProgram where
  width : UInt16
  height : UInt16
  program : Bytes
deriving DecidableEq, Repr

/-- What an icon section says of a variant. -/
def VariantProgram.record (variant : VariantProgram) : VariantRecord :=
  ⟨variant.width, variant.height, UInt32.ofNat variant.program.length⟩

/-- The section of an icon with the given variants. -/
def Section.ofPrograms (name : String) (variants : List VariantProgram) : Section :=
  .icon name (variants.map VariantProgram.record) (variants.flatMap VariantProgram.program)

/-- What a builder is asked to add. -/
inductive Addition where
  | palette (slot : UInt8) (colors : Palette)
  | icon (name : String) (variants : List VariantProgram)
  | other (tag : Tag) (payload : Bytes)
deriving DecidableEq, Repr

/-- The section that an addition becomes. -/
def Addition.toSection : Addition → Section
  | .palette slot colors => .palette slot colors
  | .icon name variants => .ofPrograms name variants
  | .other tag payload => .other tag payload

/-- What was added to a pack that is being built. -/
structure PackBuilder where
  additions : Array Addition

namespace PackBuilder

def empty : PackBuilder := ⟨#[]⟩

def push (builder : PackBuilder) (added : Addition) : PackBuilder :=
  ⟨builder.additions.push added⟩

def addPalette (builder : PackBuilder) (slot : UInt8) (colors : Palette) :
    Except BuildError PackBuilder :=
  if 255 < colors.length then .error (.paletteTooLarge slot colors.length)
  else .ok (builder.push (.palette slot colors))

def addIcon (builder : PackBuilder) (name : String) (variants : List VariantProgram) :
    Except BuildError PackBuilder :=
  let nameLength := (Text.utf8Bytes name).length
  if nameLength = 0 ∨ 255 < nameLength then .error (.nameLength nameLength)
  else if variants.length = 0 ∨ 255 < variants.length then
    .error (.variantCount name variants.length)
  else .ok (builder.push (.icon name variants))

/-- Adds a section as it is. -/
def addOther (builder : PackBuilder) (tag : Tag) (payload : Bytes) : PackBuilder :=
  builder.push (.other tag payload)

/-- Adds what it is asked to add. -/
def add (builder : PackBuilder) : Addition → Except BuildError PackBuilder
  | .palette slot colors => builder.addPalette slot colors
  | .icon name variants => builder.addIcon name variants
  | .other tag payload => .ok (builder.addOther tag payload)

def sections (builder : PackBuilder) : List Section :=
  builder.additions.toList.map Addition.toSection

def iconCount (builder : PackBuilder) : Nat := builder.sections.countP Section.isIcon

def bytes (builder : PackBuilder) : Bytes :=
  packBytes (UInt32.ofNat builder.iconCount) builder.sections

end PackBuilder

/-! ## Sizes that cannot be stated

The size of a section and the size of a program are words of 32 bits.  A pack with a
larger one cannot be encoded. -/

/-- The largest size that a section or a variant can state. -/
def maxStatedSize : Nat := 0xffffffff

/-- The length, if it is too large to be stated. -/
def unstated? (length : Nat) : Option Nat :=
  if length ≤ maxStatedSize then none else some length

/-- The first length of an addition that is too large to be stated: of its programs, or
of its payload. -/
def Addition.unstated? (added : Addition) : Option Nat :=
  let programs : List Nat :=
    match added with
    | .icon _ variants => variants.map fun variant => variant.program.length
    | _ => []
  (programs ++ [added.toSection.payload.length]).findSome? VectorIcons.unstated?

/-- Why a pack cannot be encoded. -/
inductive EncodeError where
  | sectionTooLarge (length : Nat)
deriving DecidableEq, Repr

def EncodeError.message : EncodeError → String
  | .sectionTooLarge length =>
      "Section of " ++ Nat.repr length ++ " bytes does not fit a 32-bit size"

/-- The bytes of the pack, if all its sizes can be stated. -/
def PackBuilder.encode (builder : PackBuilder) : Except EncodeError Bytes :=
  match builder.additions.toList.findSome? Addition.unstated? with
  | some length => .error (.sectionTooLarge length)
  | none => .ok builder.bytes

/-! ## Writing piece by piece -/

/-- What was being written when the room ran out. -/
inductive WriteError where
  /-- A tag or a payload. -/
  | io
  /-- A field of fixed size: the header, or the size of a section. -/
  | record
deriving DecidableEq, Repr

def WriteError.message : WriteError → String
  | .io => "I/O error: failed to write whole buffer"
  | .record => "Failed to write record: io error: failed to write whole buffer"

/-- One step of writing a pack. -/
inductive WriteStep where
  /-- Writes `bytes`, and fails with `otherwise` if they do not fit. -/
  | put (bytes : Bytes) (otherwise : WriteError)
  | tell (event : BuildEvent)
deriving DecidableEq, Repr

namespace WriteStep

/-- The steps of writing a section. -/
def ofSection (written : Section) : List WriteStep :=
  [.put written.tag.bytes .io,
    .put (littleEndian32 (UInt32.ofNat written.payload.length)) .record,
    .put written.payload .io, .tell (.sectionWritten written)]

/-- The steps of writing a pack that announces `count` icons. -/
def ofPack (count : Nat) (sections : List Section) : List WriteStep :=
  .tell .started :: .put (packHeader (UInt32.ofNat count)) .record ::
    .tell (.headerWritten count) :: (sections.flatMap ofSection ++ [.tell .completed])

/-- The event of a step that tells one. -/
def event? : WriteStep → Option BuildEvent
  | .put _ _ => none
  | .tell event => some event

end WriteStep

/-- Writing into a buffer, on its way. -/
structure Writing where
  written : Array UInt8
  /-- How many bytes still fit. -/
  room : Nat
  failure : Option WriteError
  events : Array BuildEvent

namespace Writing

/-- Writing that has a buffer of `room` bytes and has not begun. -/
def start (room : Nat) : Writing := ⟨#[], room, none, #[]⟩

/-- Writes as many of `bytes` as fit; if they do not all fit, writing fails. -/
def put (writing : Writing) (bytes : Bytes) (otherwise : WriteError) : Writing :=
  { writing with
    written := writing.written ++ bytes.take writing.room
    room := writing.room - bytes.length
    failure := if bytes.length ≤ writing.room then none else some otherwise }

/-- Takes writing one step further, unless it has failed. -/
def step (writing : Writing) (next : WriteStep) : Writing :=
  match writing.failure with
  | some _ => writing
  | none =>
      match next with
      | .put bytes otherwise => writing.put bytes otherwise
      | .tell event => { writing with events := writing.events.push event }

end Writing

namespace PackBuilder

/-- The steps of writing the pack. -/
def steps (builder : PackBuilder) : List WriteStep :=
  WriteStep.ofPack builder.iconCount builder.sections

/-- What writing the pack tells if nothing is in its way. -/
def events (builder : PackBuilder) : List BuildEvent := builder.steps.filterMap WriteStep.event?

/-- Writes the pack into a buffer of `room` bytes. -/
def writeWithin (builder : PackBuilder) (room : Nat) : Writing :=
  builder.steps.foldl Writing.step (.start room)

end PackBuilder
end VectorIcons
