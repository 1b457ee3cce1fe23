import VectorIcons.Pack.Builder
import VectorIcons.Proofs.Pack.RoundTrip

/-!
# The sections of a byte string

The bytes behind the header of a pack fall into sections by their sizes alone, whatever
their tags are and whether what they hold makes sense: `frames`.  Sections whose sizes can
be stated are found again so, with their tags and payloads (`frames_flatMap_bytes`).  In
particular, bytes do not come from two different lists of tags and payloads.
-/

namespace VectorIcons

/-- A section as it lies in a byte string: a tag and as many bytes as it states. -/
structure Frame where
  tag : Tag
  payload : Bytes
deriving DecidableEq, Repr

/-- The sections that bytes fall into.  What is too short for a tag and a size is left out, and
the last section may be cut short. -/
def frames : Bytes → List Frame
  | first :: second :: third :: fourth :: size0 :: size1 :: size2 :: size3 :: rest =>
      let size := (word32 [size0, size1, size2, size3]).toNat
      ⟨⟨first, second, third, fourth⟩, rest.take size⟩ :: frames (rest.drop size)
  | _ => []
termination_by bytes => bytes.length
decreasing_by
  simp only [List.length_drop, List.length_cons]
  omega

/-- A section without what its payload means. -/
def Section.frame (written : Section) : Frame := ⟨written.tag, written.payload⟩

/-- Whether the size of a section can be stated. -/
def Section.Stated (written : Section) : Prop := written.payload.length ≤ maxStatedSize

theorem frames_bytes_append {written : Section} (hstated : written.Stated) (behind : Bytes) :
    frames (written.bytes ++ behind) = written.frame :: frames behind := by
  have hsize : (word32 (littleEndian32 (UInt32.ofNat written.payload.length))).toNat =
      written.payload.length := by
    rw [word32_littleEndian32, UInt32.toNat_ofNat']
    exact Nat.mod_eq_of_lt (Nat.lt_succ_of_le hstated)
  have hframe : frames (written.bytes ++ behind) =
      ⟨written.tag, (written.payload ++ behind).take
        (word32 (littleEndian32 (UInt32.ofNat written.payload.length))).toNat⟩ ::
      frames ((written.payload ++ behind).drop
        (word32 (littleEndian32 (UInt32.ofNat written.payload.length))).toNat) := by
    rw [Section.bytes, Section.heading, List.append_assoc]
    exact frames.eq_1 ..
  rw [hframe, hsize, List.take_left, List.drop_left, Section.frame]

theorem frames_flatMap_bytes {sections : List Section}
    (hstated : ∀ written ∈ sections, written.Stated) :
    frames (sections.flatMap Section.bytes) = sections.map Section.frame := by
  induction sections with
  | nil => exact frames.eq_2 _ (by simp)
  | cons first others ih =>
      obtain ⟨hfirst, hothers⟩ := List.forall_mem_cons.mp hstated
      rw [List.flatMap_cons, frames_bytes_append hfirst, ih hothers, List.map_cons]

/-- The sections of a pack are found behind its header. -/
theorem frames_drop_packBytes (count : UInt32) {sections : List Section}
    (hstated : ∀ written ∈ sections, written.Stated) :
    frames ((packBytes count sections).drop 8) = sections.map Section.frame := by
  rw [packBytes, List.drop_left' (length_packHeader count), frames_flatMap_bytes hstated]

theorem Section.WellFormed.stated {written : Section} (hformed : written.WellFormed) :
    written.Stated :=
  Loader.length_payload_le hformed

end VectorIcons
