import VectorIcons.Palette
import VectorIcons.Text.Utf8

/-!
# Sections

A pack is a sequence of sections behind a header.  Each section has a tag of four
bytes, the size of its payload, and the payload:

```text
pack      "icpk"  number of icons (4)  sections
section   tag (4)  size (4)  payload
palette   slot (1)  number of colors (1)  colors (4 each)
icon      name length (1)  name  number of variants (1)  variants (8 each)  programs
variant   width (2)  height (2)  size of its program (4)
```

Sections with other tags may hold anything.  `Section.bytes` is how a section is
written, and `Section.WellFormed` tells the sections whose bytes can be read back.
-/

namespace VectorIcons

/-! ## Tags -/

/-- The four bytes that tell what kind of section it is. -/
structure Tag where
  first : UInt8
  second : UInt8
  third : UInt8
  fourth : UInt8
deriving DecidableEq, Repr

namespace Tag

def palette : Tag := ⟨0x50, 0x41, 0x4c, 0x54⟩

def icon : Tag := ⟨0x49, 0x43, 0x4f, 0x4e⟩

def bytes (tag : Tag) : Bytes := [tag.first, tag.second, tag.third, tag.fourth]

def text (tag : Tag) : String := Text.ofUtf8Lossy tag.bytes

end Tag

/-! ## Colors of a palette section -/

/-- The bytes of the colors of a palette. -/
def Palette.bytes (palette : Palette) : Bytes := palette.flatMap Rgba.bytes

/-- The palette with the given bytes, four for each color. -/
def Palette.ofBytes : Bytes → Palette
  | red :: green :: blue :: alpha :: rest => ⟨red, green, blue, alpha⟩ :: Palette.ofBytes rest
  | _ => []

theorem Palette.length_bytes (palette : Palette) :
    (Palette.bytes palette).length = 4 * palette.length := by
  unfold Palette.bytes
  induction palette with
  | nil => rfl
  | cons color rest ih =>
      rw [List.flatMap_cons, List.length_append, ih, List.length_cons]
      show 4 + _ = _
      omega

@[simp] theorem Palette.ofBytes_bytes (palette : Palette) :
    Palette.ofBytes (Palette.bytes palette) = palette := by
  unfold Palette.bytes
  induction palette with
  | nil => rfl
  | cons color rest ih =>
      show color :: Palette.ofBytes (rest.flatMap Rgba.bytes) = color :: rest
      rw [ih]

theorem Palette.bytes_ofBytes {bytes : Bytes} {count : Nat} (hlength : bytes.length = 4 * count) :
    Palette.bytes (Palette.ofBytes bytes) = bytes ∧ (Palette.ofBytes bytes).length = count := by
  induction count generalizing bytes with
  | zero =>
      rw [List.length_eq_zero_iff.mp hlength]
      exact ⟨rfl, rfl⟩
  | succ count ih =>
      match bytes, hlength with
      | red :: green :: blue :: alpha :: rest, hlength =>
          have hrest : rest.length = 4 * count := by
            simp only [List.length_cons] at hlength
            omega
          obtain ⟨hbytes, hcount⟩ := ih hrest
          constructor
          · show red :: green :: blue :: alpha :: Palette.bytes (Palette.ofBytes rest) = _
            rw [hbytes]
          · show (Palette.ofBytes rest).length + 1 = _
            rw [hcount]

/-! ## Variants of an icon section -/

/-- What an icon section says of one variant. -/
structure VariantRecord where
  width : UInt16
  height : UInt16
  /-- The size of its program. -/
  size : UInt32
deriving DecidableEq, Repr

namespace VariantRecord

def bytes (record : VariantRecord) : Bytes :=
  littleEndian16 record.width ++ littleEndian16 record.height ++ littleEndian32 record.size

@[simp] theorem length_bytes (record : VariantRecord) : record.bytes.length = 8 := rfl

/-- The records with the given bytes, eight for each. -/
def listOfBytes : Bytes → List VariantRecord
  | width0 :: width1 :: height0 :: height1 :: size0 :: size1 :: size2 :: size3 :: rest =>
      ⟨word16 [width0, width1], word16 [height0, height1], word32 [size0, size1, size2, size3]⟩ ::
        listOfBytes rest
  | _ => []

theorem length_flatMap_bytes (records : List VariantRecord) :
    (records.flatMap bytes).length = 8 * records.length := by
  induction records with
  | nil => rfl
  | cons record rest ih =>
      rw [List.flatMap_cons, List.length_append, ih, length_bytes, List.length_cons]
      omega

@[simp] theorem listOfBytes_flatMap_bytes (records : List VariantRecord) :
    listOfBytes (records.flatMap bytes) = records := by
  induction records with
  | nil => rfl
  | cons record rest ih =>
      have hfirst : ∀ tail : Bytes, listOfBytes (record.bytes ++ tail) =
          ⟨word16 (littleEndian16 record.width), word16 (littleEndian16 record.height),
            word32 (littleEndian32 record.size)⟩ :: listOfBytes tail := fun _ => rfl
      rw [List.flatMap_cons, hfirst, ih, word16_littleEndian16, word16_littleEndian16,
        word32_littleEndian32]

theorem flatMap_bytes_listOfBytes {wire : Bytes} {count : Nat} (hlength : wire.length = 8 * count) :
    (listOfBytes wire).flatMap bytes = wire ∧ (listOfBytes wire).length = count := by
  induction count generalizing wire with
  | zero =>
      rw [List.length_eq_zero_iff.mp hlength]
      exact ⟨rfl, rfl⟩
  | succ count ih =>
      match wire, hlength with
      | width0 :: width1 :: height0 :: height1 :: size0 :: size1 :: size2 :: size3 :: rest,
        hlength =>
          have hrest : rest.length = 8 * count := by
            simp only [List.length_cons] at hlength
            omega
          obtain ⟨hbytes, hcount⟩ := ih hrest
          constructor
          · rw [listOfBytes, List.flatMap_cons, hbytes, bytes, littleEndian16_word16,
              littleEndian16_word16, littleEndian32_word32]
            rfl
          · rw [listOfBytes, List.length_cons, hcount]

end VariantRecord

/-! ## Sections -/

inductive Section where
  /-- The palette of a slot. -/
  | palette (slot : UInt8) (colors : Palette)
  /-- An icon: its name, what it says of its variants, and their programs one after
  another. -/
  | icon (name : String) (records : List VariantRecord) (data : Bytes)
  /-- A section that is taken as it is. -/
  | other (tag : Tag) (payload : Bytes)
deriving DecidableEq, Repr

namespace Section

/-- The tag that a section is written with. -/
def tag : Section → Tag
  | .palette _ _ => .palette
  | .icon _ _ _ => .icon
  | .other tag _ => tag

def payload : Section → Bytes
  | .palette slot colors => slot :: UInt8.ofNat colors.length :: Palette.bytes colors
  | .icon name records data =>
      let nameBytes := Text.utf8Bytes name
      UInt8.ofNat nameBytes.length :: (nameBytes ++ UInt8.ofNat records.length ::
        (records.flatMap VariantRecord.bytes ++ data))
  | .other _ payload => payload

/-- The bytes before the payload of a section: its tag and the size of the
payload. -/
def heading (written : Section) : Bytes :=
  written.tag.bytes ++ littleEndian32 (UInt32.ofNat written.payload.length)

def bytes (written : Section) : Bytes := written.heading ++ written.payload

def isIcon : Section → Bool
  | .icon _ _ _ => true
  | _ => false

/-- The size that the payload of an icon may have at most. -/
def maxIconSize : Nat := 0x100000

/-- The sections that are read back as they were written. -/
def WellFormed : Section → Prop
  | .palette _ colors => colors.length ≤ 255
  | .icon name records data =>
      0 < (Text.utf8Bytes name).length ∧ (Text.utf8Bytes name).length ≤ 255 ∧
        0 < records.length ∧ records.length ≤ 255 ∧
        (Section.icon name records data).payload.length ≤ maxIconSize
  | .other tag payload => tag ≠ .palette ∧ tag ≠ .icon ∧ payload.length ≤ 0xffffffff

instance : DecidablePred WellFormed
  | .palette _ colors => inferInstanceAs (Decidable (colors.length ≤ 255))
  | .icon name records data =>
      inferInstanceAs (Decidable (0 < (Text.utf8Bytes name).length ∧
        (Text.utf8Bytes name).length ≤ 255 ∧ 0 < records.length ∧ records.length ≤ 255 ∧
          (Section.icon name records data).payload.length ≤ maxIconSize))
  | .other tag payload =>
      inferInstanceAs (Decidable (tag ≠ .palette ∧ tag ≠ .icon ∧ payload.length ≤ 0xffffffff))

@[simp] theorem length_heading (written : Section) : written.heading.length = 8 := rfl

theorem length_bytes (written : Section) :
    written.bytes.length = 8 + written.payload.length := by
  rw [bytes, List.length_append, length_heading]

end Section

/-! ## Whole packs -/

/-- The four bytes that a pack begins with. -/
def packMagic : Bytes := [0x69, 0x63, 0x70, 0x6b]

/-- The bytes before the first section of a pack that announces `count` icons. -/
def packHeader (count : UInt32) : Bytes := packMagic ++ littleEndian32 count

/-- The bytes of a pack that announces `count` icons. -/
def packBytes (count : UInt32) (sections : List Section) : Bytes :=
  packHeader count ++ sections.flatMap Section.bytes

@[simp] theorem length_packHeader (count : UInt32) : (packHeader count).length = 8 := rfl

end VectorIcons
