import VectorIcons.ByteStream
import VectorIcons.Log
import VectorIcons.Pack.Section
import VectorIcons.Text.Hex
import VectorIcons.Text.Quoted

/-!
# What loading a pack reports

A load either succeeds or fails with a `LoadError`, and on its way it tells what it
finds as a list of `LoadEvent`.  Each kind of malformed section is told as an event
before the load fails; a stream that fails inside a payload is not.
-/

namespace VectorIcons

/-! ## Failures -/

/-- Why a pack cannot be loaded. -/
inductive LoadError where
  /-- The header cannot be read, or does not begin like one. -/
  | invalidHeader
  /-- Of the tag and size of a section only `length` bytes are there. -/
  | truncatedHeading (length : Nat)
  /-- A tag, a name or data cannot be read. -/
  | io (failure : ReadFailure)
  /-- A field of fixed size cannot be read. -/
  | record (failure : ReadFailure)
  | paletteSizeMismatch (size : UInt32) (count : UInt8)
  | emptyName
  | invalidName (bytes : Bytes)
  | noVariants (name : String)
  /-- The section is smaller than the `heading` bytes before its programs. -/
  | iconTooSmall (size : UInt32) (heading : Nat)
  | iconTooLarge (size : UInt32)
  /-- The stream ends before the payload of a section that is neither a palette nor
  an icon. -/
  | outOfBounds (tag : Tag) (size : UInt32)
deriving DecidableEq, Repr

/-- The failure of a read as part of a record, in words. -/
def ReadFailure.recordMessage (failure : ReadFailure) : String := "io error: " ++ failure.message

/-- A word in decimal. -/
private def decimal (word : UInt32) : String := Nat.repr word.toNat

def LoadError.message : LoadError → String
  | .invalidHeader => "Invalid format or header"
  | .truncatedHeading length => "Truncated section header: " ++ Nat.repr length ++ " bytes"
  | .io failure => "I/O error: " ++ failure.message
  | .record failure => "Failed to read record: " ++ failure.recordMessage
  | .paletteSizeMismatch size count =>
      "Palette section size " ++ decimal size ++ " does not match " ++ Nat.repr count.toNat ++
        " colors"
  | .emptyName => "Icon name is empty"
  | .invalidName bytes => "Icon name " ++ Text.hexList bytes ++ " is not valid UTF-8"
  | .noVariants name => "Icon " ++ Text.quoted name ++ " has no variants"
  | .iconTooSmall size heading =>
      "Icon section size " ++ decimal size ++ " is smaller than its " ++ Nat.repr heading ++
        "-byte header"
  | .iconTooLarge size => "Icon section size " ++ decimal size ++ " exceeds the limit"
  | .outOfBounds tag size =>
      "Section " ++ Text.quoted tag.text ++ " of " ++ decimal size ++
        " bytes runs past the end of the stream"

/-! ## Events -/

/-- What a load tells about itself. -/
inductive LoadEvent where
  | headerUnreadable (failure : ReadFailure)
  | wrongMagic (bytes : Bytes)
  | headerRead (count : UInt32)
  | tagCutShort (length : Nat)
  | sizeUnreadable (failure : ReadFailure)
  | sectionBegun (tag : Tag) (size : UInt32)
  /-- A section is malformed, for the same reason that the load fails. -/
  | malformed (cause : LoadError)
  | iconTooSmall (name : String) (size : UInt32) (heading : Nat)
  | iconTooLarge (size : UInt32)
  | outOfBounds (tag : Tag) (size : UInt32)
  /-- A section that is neither a palette nor an icon is passed over. -/
  | passedOver
  | paletteRead (slot count : UInt8)
  | iconRead (name : String) (variants : UInt8) (size : Nat)
  /-- The pack is loaded and holds `count` icons. -/
  | loaded (count : Nat)
deriving DecidableEq, Repr

namespace LoadEvent

/-- How serious an event is. -/
def level : LoadEvent → LogLevel
  | .headerRead _ => .debug
  | .sectionBegun _ _ => .debug
  | .passedOver => .debug
  | .paletteRead _ _ => .debug
  | .iconRead _ _ _ => .debug
  | .loaded _ => .info
  | _ => .error

/-- The event in words. -/
def message : LoadEvent → String
  | .headerUnreadable failure => "Failed to read pack header: " ++ failure.recordMessage
  | .wrongMagic bytes => "Invalid magic number " ++ Text.hexList bytes
  | .headerRead count => "Magic number validated, " ++ decimal count ++ " icons announced"
  | .tagCutShort length =>
      "Stream ended inside a section tag after " ++ Nat.repr length ++ " bytes"
  | .sizeUnreadable failure => "Failed to read section size: " ++ failure.recordMessage
  | .sectionBegun tag size =>
      "Section " ++ Text.quoted tag.text ++ ": " ++ decimal size ++ " bytes"
  | .malformed cause => cause.message
  | .iconTooSmall name size heading =>
      "Icon " ++ Text.quoted name ++ " section size " ++ decimal size ++
        " is smaller than its " ++ Nat.repr heading ++ "-byte header"
  | .iconTooLarge size => "Icon section of " ++ decimal size ++ " bytes exceeds the limit"
  | .outOfBounds tag size =>
      "Unknown section " ++ Text.quoted tag.text ++ " of " ++ decimal size ++
        " bytes runs past the end"
  | .passedOver => "Skipping unknown section"
  | .paletteRead slot count =>
      "Read palette #" ++ Nat.repr slot.toNat ++ " with " ++ Nat.repr count.toNat ++ " colors"
  | .iconRead name variants size =>
      "Read icon " ++ Text.quoted name ++ ": " ++ Nat.repr variants.toNat ++ " variants, " ++
        Nat.repr size ++ " data bytes"
  | .loaded count => "Pack loaded: " ++ Nat.repr count ++ " icons"

def entry (event : LoadEvent) : LogEntry := ⟨event.level, event.message⟩

end LoadEvent
end VectorIcons
