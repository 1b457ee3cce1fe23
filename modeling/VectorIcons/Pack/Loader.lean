import VectorIcons.Pack.LoadReport

/-!
# Reading one section of a stream

Within a section the checks have an order, and the first that fails decides how the
load fails: what a section says about itself is checked as soon as it is known, and
before anything behind it is read.

Sections that are neither palettes nor icons are passed over without being read, so
a fault inside of them shows only at the next tag.  Such a section is there if the position
where it ends is no further than the end of the stream, which a load measures before it reads
anything.

A `Loader` carries the stream, its end and the events told so far.  No part of a load goes
back in its stream, and a section takes at least its tag: `length_rest_of_section?`.
-/

namespace VectorIcons

/-- A load on its way through a stream. -/
structure LoadState where
  stream : ByteStream
  /-- The position of the end, as it was measured. -/
  ending : Nat
  ending_eq : ending = stream.bytes.length
  events : Array LoadEvent

namespace LoadState

/-- The beginning of a load, which goes to the end of the stream and back to measure it. -/
def start (stream : ByteStream) : LoadState :=
  let begun := stream.position
  let atEnd := stream.seekEnd
  { stream := atEnd.seek begun
    ending := atEnd.position
    ending_eq := rfl
    events := #[] }

@[simp] theorem stream_start (stream : ByteStream) : (start stream).stream = stream :=
  stream.seek_position

/-- The load with its stream somewhere else. -/
def move (state : LoadState) (stream : ByteStream) (hbytes : stream.bytes = state.stream.bytes) :
    LoadState :=
  { state with
    stream := stream
    ending_eq := by rw [state.ending_eq, hbytes] }

end LoadState

/-- A part of a load. -/
abbrev Loader := EStateM LoadError LoadState

namespace Loader

/-! ## Parts of every load -/

/-- Tells an event. -/
def tell (event : LoadEvent) : Loader Unit := fun state =>
  .ok () { state with events := state.events.push event }

/-- Tells an event and fails. -/
def refuse {α : Type} (event : LoadEvent) (cause : LoadError) : Loader α :=
  tell event >>= fun _ => throw cause

/-- Goes on only if `holds`. -/
def require (holds : Bool) (event : LoadEvent) (cause : LoadError) : Loader Unit :=
  if holds then pure () else refuse event cause

/-- Reads until there are `count` bytes, or no more can be had. -/
def fill (count : Nat) : Loader ByteStream.Filled := fun state =>
  let read := state.stream.fill count
  .ok read.1 (state.move read.2 (state.stream.bytes_fill count))

/-- The next `count` bytes; `otherwise` tells how the load goes on without them. -/
def take (count : Nat) (otherwise : ReadFailure → Loader Bytes) : Loader Bytes := do
  let filled ← fill count
  match filled.failure with
  | none => return filled.bytes
  | some failure => otherwise failure

/-- The next `count` bytes without reading them, if they end where the stream does or before. -/
def passOver (count : Nat) : Loader (Option Bytes) := fun state =>
  if state.ending < state.stream.position + count then .ok none state
  else .ok (some (state.stream.rest.take count)) (state.move (state.stream.skip count) rfl)

/-- The next `count` bytes of names and data. -/
def plain (count : Nat) : Loader Bytes := take count fun failure => throw (.io failure)

/-- The next `count` bytes of fields of fixed size. -/
def record (count : Nat) : Loader Bytes := take count fun failure => throw (.record failure)

/-! ## The heading of a section -/

/-- Reads the header of a pack. -/
def header : Loader Unit := do
  let bytes ← take 8 fun failure => refuse (.headerUnreadable failure) .invalidHeader
  let magic := bytes.take 4
  require (magic == packMagic) (.wrongMagic magic) .invalidHeader
  tell (.headerRead (word32 (bytes.drop 4)))

/-- The tag that reading four bytes gave, or none if there was nothing to read. -/
def tagOf? (filled : ByteStream.Filled) : Loader (Option Tag) :=
  match filled with
  | ⟨_, some (.fault reason)⟩ => throw (.io (.fault reason))
  | ⟨[], _⟩ => return none
  | ⟨[first, second, third, fourth], _⟩ => return some ⟨first, second, third, fourth⟩
  | ⟨part, _⟩ => refuse (.tagCutShort part.length) (.truncatedHeading part.length)

/-- The next tag, or none at the end of the stream. -/
def tag? : Loader (Option Tag) := fill 4 >>= tagOf?

/-- The size of a section, whose tag has been read. -/
def size : Loader UInt32 := do
  let bytes ← take 4 fun failure => refuse (.sizeUnreadable failure) (.truncatedHeading 4)
  return word32 bytes

/-! ## Sections -/

/-- Reads a palette section of `size` bytes. -/
def palette (size : UInt32) : Loader Section := do
  let slot := word8 (← record 1)
  let count := word8 (← record 1)
  let mismatch := LoadError.paletteSizeMismatch size count
  require (size.toNat == 2 + 4 * count.toNat) (.malformed mismatch) mismatch
  let colors ← record (4 * count.toNat)
  tell (.paletteRead slot count)
  return .palette slot (Palette.ofBytes colors)

/-- The text of a name. -/
def nameOf (bytes : Bytes) : Loader String :=
  match Text.ofUtf8? bytes with
  | some name => return name
  | none => refuse (.malformed (.invalidName bytes)) (.invalidName bytes)

/-- How many bytes an icon section has before its programs. -/
def iconHeadingSize (nameLength variantCount : UInt8) : Nat :=
  1 + nameLength.toNat + 1 + 8 * variantCount.toNat

/-- Reads an icon section of `size` bytes. -/
def icon (size : UInt32) : Loader Section := do
  require (size.toNat ≤ Section.maxIconSize) (.iconTooLarge size) (.iconTooLarge size)
  let nameLength := word8 (← record 1)
  require (nameLength != 0) (.malformed .emptyName) .emptyName
  let name ← nameOf (← plain nameLength.toNat)
  let count := word8 (← record 1)
  require (count != 0) (.malformed (.noVariants name)) (.noVariants name)
  let heading := iconHeadingSize nameLength count
  require (heading ≤ size.toNat) (.iconTooSmall name size heading) (.iconTooSmall size heading)
  let records ← record (8 * count.toNat)
  let data ← plain (size.toNat - heading)
  tell (.iconRead name count data.length)
  return .icon name (VariantRecord.listOfBytes records) data

/-- Passes over a section of `size` bytes with any other tag. -/
def other (tag : Tag) (size : UInt32) : Loader Section := do
  match ← passOver size.toNat with
  | none => refuse (.outOfBounds tag size) (.outOfBounds tag size)
  | some payload =>
      tell .passedOver
      return .other tag payload

/-- What follows the size of a section. -/
def payload (tag : Tag) (size : UInt32) : Loader Section :=
  if tag = .palette then palette size
  else if tag = .icon then icon size
  else other tag size

def section? : Loader (Option Section) := do
  match ← tag? with
  | none => return none
  | some tag =>
      let size ← size
      tell (.sectionBegun tag size)
      return some (← payload tag size)

/-! ## Loads go forward -/

/-- Whether a part of a load leaves the stream where it was or further on. -/
def Forward {α : Type} (part : Loader α) : Prop :=
  ∀ state value after, part state = .ok value after →
    after.stream.rest.length ≤ state.stream.rest.length

private theorem forward_pure {α : Type} (value : α) : Forward (pure value) := by
  intro state result after hrun
  cases hrun
  exact Nat.le_refl _

private theorem forward_throw {α : Type} (cause : LoadError) :
    Forward (throw cause : Loader α) := by
  intro state result after hrun
  cases hrun

private theorem forward_bind {α β : Type} {first : Loader α} {next : α → Loader β}
    (hfirst : Forward first) (hnext : ∀ value, Forward (next value)) :
    Forward (first >>= next) := by
  intro state result after hrun
  change EStateM.bind first next state = _ at hrun
  unfold EStateM.bind at hrun
  split at hrun
  · rename_i value between hbetween
    exact Nat.le_trans (hnext value _ _ _ hrun) (hfirst _ _ _ hbetween)
  · cases hrun

private theorem forward_tell (event : LoadEvent) : Forward (tell event) := by
  intro state result after hrun
  cases hrun
  exact Nat.le_refl _

private theorem forward_refuse {α : Type} (event : LoadEvent) (cause : LoadError) :
    Forward (refuse event cause : Loader α) :=
  forward_bind (forward_tell event) fun _ => forward_throw cause

private theorem forward_require (holds : Bool) (event : LoadEvent) (cause : LoadError) :
    Forward (require holds event cause) := by
  unfold require
  split
  · exact forward_pure ()
  · exact forward_refuse event cause

private theorem length_rest_of_fill {count : Nat} {state after : LoadState}
    {filled : ByteStream.Filled} (hrun : fill count state = .ok filled after) :
    after.stream.rest.length + filled.bytes.length = state.stream.rest.length := by
  cases hrun
  show (state.stream.fill count).2.rest.length + (state.stream.fill count).1.bytes.length = _
  rw [(state.stream.sameContent_fill count).rest_eq, state.stream.fill_filled count]
  have hle := state.stream.available_le_length
  simp only [ByteStream.skip, List.length_drop, List.length_take]
  omega

private theorem forward_fill (count : Nat) : Forward (fill count) := by
  intro state filled after hrun
  have hlength := length_rest_of_fill hrun
  omega

private theorem forward_take (count : Nat) {otherwise : ReadFailure → Loader Bytes}
    (hotherwise : ∀ failure, Forward (otherwise failure)) : Forward (take count otherwise) := by
  refine forward_bind (forward_fill count) fun filled => ?_
  split
  · exact forward_pure _
  · exact hotherwise _

private theorem forward_plain (count : Nat) : Forward (plain count) :=
  forward_take count fun _ => forward_throw _

private theorem forward_record (count : Nat) : Forward (record count) :=
  forward_take count fun _ => forward_throw _

private theorem forward_size : Forward size :=
  forward_bind (forward_take 4 fun _ => forward_refuse _ _) fun _ => forward_pure _

private theorem forward_palette (size : UInt32) : Forward (palette size) :=
  forward_bind (forward_record 1) fun _ => forward_bind (forward_record 1) fun _ =>
    forward_bind (forward_require _ _ _) fun _ => forward_bind (forward_record _) fun _ =>
      forward_bind (forward_tell _) fun _ => forward_pure _

private theorem forward_nameOf (bytes : Bytes) : Forward (nameOf bytes) := by
  unfold nameOf
  split
  · exact forward_pure _
  · exact forward_refuse _ _

private theorem forward_icon (size : UInt32) : Forward (icon size) :=
  forward_bind (forward_require _ _ _) fun _ => forward_bind (forward_record 1) fun _ =>
    forward_bind (forward_require _ _ _) fun _ => forward_bind (forward_plain _) fun _ =>
      forward_bind (forward_nameOf _) fun _ => forward_bind (forward_record 1) fun _ =>
        forward_bind (forward_require _ _ _) fun _ =>
          forward_bind (forward_require _ _ _) fun _ => forward_bind (forward_record _) fun _ =>
            forward_bind (forward_plain _) fun _ => forward_bind (forward_tell _) fun _ =>
              forward_pure _

private theorem forward_passOver (count : Nat) : Forward (passOver count) := by
  intro state result after hrun
  unfold passOver at hrun
  split at hrun
  · cases hrun
    exact Nat.le_refl _
  · cases hrun
    simp only [LoadState.move, ByteStream.skip, List.length_drop]
    omega

private theorem forward_other (tag : Tag) (size : UInt32) : Forward (other tag size) := by
  refine forward_bind (forward_passOver _) fun passed => ?_
  split
  · exact forward_refuse _ _
  · exact forward_bind (forward_tell _) fun _ => forward_pure _

private theorem forward_payload (tag : Tag) (size : UInt32) : Forward (payload tag size) := by
  unfold payload
  split
  · exact forward_palette size
  · split
    · exact forward_icon size
    · exact forward_other tag size

private theorem length_rest_of_tag? {state after : LoadState} {tag : Tag}
    (hrun : tag? state = .ok (some tag) after) :
    after.stream.rest.length < state.stream.rest.length := by
  unfold tag? at hrun
  change EStateM.bind (fill 4) tagOf? state = _ at hrun
  unfold EStateM.bind at hrun
  split at hrun
  · rename_i filled between hbetween
    have hlength := length_rest_of_fill hbetween
    unfold tagOf? at hrun
    split at hrun
    · cases hrun
    · cases hrun
    · cases hrun
      simp only [List.length_cons] at hlength
      omega
    · cases hrun
  · cases hrun

/-- Reading a section takes at least one byte. -/
theorem length_rest_of_section? {state after : LoadState} {found : Section}
    (hrun : section? state = .ok (some found) after) :
    after.stream.rest.length < state.stream.rest.length := by
  unfold section? at hrun
  change EStateM.bind tag? _ state = _ at hrun
  unfold EStateM.bind at hrun
  split at hrun
  · rename_i tag between htag
    cases tag with
    | none => cases hrun
    | some tag =>
        have hrest : Forward (do
            let size ← size
            tell (.sectionBegun tag size)
            return some (← payload tag size)) :=
          forward_bind forward_size fun _ => forward_bind (forward_tell _) fun _ =>
            forward_bind (forward_payload _ _) fun _ => forward_pure _
        exact Nat.lt_of_le_of_lt (hrest _ _ _ hrun) (length_rest_of_tag? htag)
  · cases hrun

end Loader
end VectorIcons
