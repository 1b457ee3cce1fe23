import VectorIcons.Proofs.Pack.Truncation

/-!
# Streams with a fault

A stream that cannot be read from some place on is never taken for a shorter one.  Wherever the
fault is in a pack that would be loaded, and also where the pack ends, the load fails, and how it
fails tells what the byte at the fault belongs to:

```text
header                                                       invalidHeader
size of a section                                            truncatedHeading 4
palette; name length, number of variants, variants           record
tag; name, programs; passed over; end of the pack            io
```

## Strategy

What is read is known from `Section.causes`.  A section that is passed over is not read, and so its
payload hides a fault: the load stands at the fault afterwards, and fails with the tag that should
come next, `given_section?_of_fault_in_tag`.
-/

namespace VectorIcons

open ByteStream Loader

/-! ## Fields -/

/-- What a byte of a pack belongs to. -/
inductive PackField where
  | header
  | tag
  | size
  /-- Anything in the payload of a palette. -/
  | palette
  | nameLength
  | name
  | variantCount
  | variantRecords
  | iconData
  /-- The payload of a section that is neither a palette nor an icon. -/
  | passedOver
  /-- No byte, but the place behind the last one. -/
  | finish
deriving DecidableEq, Repr

namespace PackField

/-- How a load fails that cannot read such a byte. -/
def cause : PackField → ReadFailure → LoadError
  | .header => fun _ => .invalidHeader
  | .size => fun _ => .truncatedHeading 4
  | .palette => .record
  | .nameLength => .record
  | .variantCount => .record
  | .variantRecords => .record
  | .tag => .io
  | .name => .io
  | .iconData => .io
  | .passedOver => .io
  | .finish => .io

end PackField

namespace Section

/-- The fields of the bytes of a payload. -/
def payloadFields : Section → List PackField
  | .palette slot colors => List.replicate (Section.palette slot colors).payload.length .palette
  | .icon name records data =>
      .nameLength :: (List.replicate (Text.utf8Bytes name).length .name ++
        .variantCount :: (List.replicate (8 * records.length) .variantRecords ++
          List.replicate data.length .iconData))
  | .other _ payload => List.replicate payload.length .passedOver

/-- The fields of the bytes of a section. -/
def fields (written : Section) : List PackField :=
  List.replicate 4 .tag ++ (List.replicate 4 .size ++ written.payloadFields)

theorem length_payloadFields (written : Section) :
    written.payloadFields.length = written.payload.length := by
  cases written with
  | palette slot colors => exact List.length_replicate
  | icon name records data =>
      have hrecords := VariantRecord.length_flatMap_bytes records
      simp only [payloadFields, payload, List.length_cons, List.length_append,
        List.length_replicate, hrecords]
  | other tag payload => exact List.length_replicate

theorem length_fields (written : Section) : written.fields.length = written.bytes.length := by
  simp only [fields, List.length_append, List.length_replicate, length_payloadFields, length_bytes]
  omega

/-- The causes of a payload are those of its fields. -/
theorem causes_eq_map {written : Section} (hkind : written.tag = .palette ∨ written.tag = .icon)
    (hformed : written.WellFormed) :
    written.causes = written.payloadFields.map PackField.cause := by
  cases written with
  | palette slot colors =>
      have hlength : (Section.palette slot colors).payload.length = 4 * colors.length + 1 + 1 := by
        rw [payload, List.length_cons, List.length_cons, Palette.length_bytes]
      rw [payloadFields, hlength, List.map_replicate, List.replicate_succ, List.replicate_succ]
      rfl
  | icon name records data => simp [causes, payloadFields, PackField.cause]
  | other tag payload =>
      rcases hkind with hpalette | hicon
      · exact absurd hpalette hformed.1
      · exact absurd hicon hformed.2.1

theorem eq_passedOver_of_other {tag : Tag} {bytes : Bytes} {place : Nat} {field : PackField}
    (hfield : (other tag bytes).fields[place]? = some field) (hplace : 8 ≤ place) :
    field = .passedOver := by
  rw [fields, ← List.append_assoc, List.getElem?_append_right (by simpa using hplace),
    payloadFields, List.getElem?_replicate] at hfield
  split at hfield
  · exact (Option.some.inj hfield).symm
  · cases hfield

end Section

/-- The fields of a pack with these sections, one for each byte and one for its end. -/
def packFields (sections : List Section) : List PackField :=
  List.replicate 8 .header ++ (sections.flatMap Section.fields ++ [.finish])

theorem length_flatMap_fields (sections : List Section) :
    (sections.flatMap Section.fields).length = (sections.flatMap Section.bytes).length := by
  induction sections with
  | nil => rfl
  | cons first others ih =>
      rw [List.flatMap_cons, List.flatMap_cons, List.length_append, List.length_append, ih,
        Section.length_fields]

theorem length_packFields (sections : List Section) :
    (packFields sections).length = endOf sections + 1 := by
  simp only [packFields, List.length_append, List.length_replicate, length_flatMap_fields, endOf,
    List.length_singleton]
  omega

/-- No skip leaves a fault behind. -/
theorem ByteStream.shortage_skip_of_fault {stream : ByteStream} {reason : String}
    (hfault : stream.shortage = .fault reason) (count : Nat) :
    (stream.skip count).shortage = .fault reason := by
  unfold ByteStream.shortage at hfault ⊢
  rw [faultAhead_skip]
  cases hcase : stream.faultAhead with
  | none =>
      rw [hcase] at hfault
      cases hfault
  | some fault =>
      simp only [hcase, Option.map_some, ByteStream.skip, List.length_drop] at hfault ⊢
      split at hfault
      · rw [if_pos (by omega), hfault]
      · cases hfault

namespace Loader

/-! ## Tags -/

theorem given_tagOf?_of_fault (bytes : Bytes) (reason : String) (state : LoadState) :
    given (tagOf? ⟨bytes, some (.fault reason)⟩ state) = .error (.io (.fault reason)) := by
  unfold tagOf?
  rfl

/-- A tag that the fault cuts short, or that would begin there, is not taken for an end. -/
theorem given_section?_of_fault_in_tag {state : LoadState} {reason : String}
    (hshort : state.stream.available < 4) (hfault : state.stream.shortage = .fault reason) :
    given (section? state) = .error (.io (.fault reason)) := by
  obtain ⟨between, hfill, -⟩ := exists_fill_eq 4 state
  rw [if_neg (Nat.not_le.mpr hshort), hfault] at hfill
  have htag : given (tag? state) = .error (.io (.fault reason)) := by
    rw [tag?, given_bind_of_ok hfill]
    exact given_tagOf?_of_fault _ reason between
  exact given_bind_of_error htag

/-! ## Sections -/

theorem agrees_of_rest_eq {stream : ByteStream} {front behind : Bytes}
    (hrest : stream.rest = front ++ behind) (hwithin : stream.available ≤ front.length) :
    stream.Agrees front := by
  unfold ByteStream.Agrees
  rw [hrest, List.take_append_of_le_length hwithin]

theorem other_of_rest_eq (tag : Tag) {size : UInt32} {bytes behind : Bytes} {state : LoadState}
    (hinside : state.stream.Inside) (hrest : state.stream.rest = bytes ++ behind)
    (hlength : size.toNat = bytes.length) :
    ∃ after, other tag size state = .ok (.other tag bytes) after ∧
      SameContent after.stream (state.stream.skip bytes.length) := by
  have hcount : size.toNat ≤ state.stream.rest.length := by
    rw [hrest, hlength, List.length_append]
    exact Nat.le_add_right _ _
  have htaken : state.stream.rest.take size.toNat = bytes := by
    rw [hrest, hlength, List.take_left]
  have hend := position_add_le_ending_iff.mpr ⟨hinside, hcount⟩
  unfold other
  rw [bind_of_ok (passOver_of_le hend), htaken, hlength]
  exact ⟨_, rfl, SameContent.refl _⟩

/-- A section is passed over if the stream does not end before its payload does, though part of
the payload cannot be read. -/
theorem exists_section?_of_passedOver {tag : Tag} {bytes behind : Bytes}
    (hformed : (Section.other tag bytes).WellFormed) {state : LoadState}
    (hrest : state.stream.rest = (Section.other tag bytes).bytes ++ behind)
    (hheading : 8 ≤ state.stream.available)
    (hwithin : state.stream.available ≤ (Section.other tag bytes).bytes.length) :
    ∃ after, Loader.section? state = .ok (some (.other tag bytes)) after ∧
      SameContent after.stream (state.stream.skip (Section.other tag bytes).bytes.length) := by
  obtain ⟨between, hbetween, same⟩ :=
    exists_section?_eq_payload (agrees_of_rest_eq hrest hwithin) hheading
  have hrestBetween : between.stream.rest = bytes ++ behind := by
    rw [Section.bytes, List.append_assoc] at hrest
    rw [same.rest_eq]
    exact rest_skip hrest
  have hinside : between.stream.Inside :=
    same.inside_of_skip_available (inside_of_available_pos (by omega)) hheading
  obtain ⟨after, hother, sameOther⟩ :=
    other_of_rest_eq tag hinside hrestBetween (toNat_ofNat_length_payload hformed)
  refine ⟨after, ?_, ?_⟩
  · rw [hbetween, payload_of_other hformed, bind_of_ok hother]
    rfl
  · rw [Section.length_bytes]
    exact (sameOther.trans (same.skip _)).trans (sameContent_skip_skip _ _ _)

/-! ## Faults in sections -/

theorem given_sections_of_first {state after : LoadState} {first : Section} {cause : LoadError}
    (hfirst : section? state = .ok (some first) after)
    (hothers : given (sections after) = .error cause) :
    given (sections state) = .error cause := by
  rw [sections_eq, given_bind_of_ok hfirst]
  show given (((first :: ·) <$> sections) after) = _
  rw [given_map, hothers]
  rfl

/-- A fault in what is read of a section is reported by the field that it hits. -/
theorem given_section?_of_fault {written : Section} (hformed : written.WellFormed)
    {state : LoadState} {behind : Bytes} {field : PackField} {reason : String}
    (hrest : state.stream.rest = written.bytes ++ behind)
    (hread : (written.tag = .palette ∨ written.tag = .icon) ∨ state.stream.available < 8)
    (hfield : written.fields[state.stream.available]? = some field)
    (hfault : state.stream.shortage = .fault reason) :
    given (Loader.section? state) = .error (field.cause (.fault reason)) := by
  have hwithin : state.stream.available ≤ written.bytes.length := by
    obtain ⟨hlt, -⟩ := List.getElem?_eq_some_iff.mp hfield
    rw [Section.length_fields] at hlt
    exact Nat.le_of_lt hlt
  by_cases htag : state.stream.available < 4
  · rw [Section.fields, List.getElem?_append_left (by rwa [List.length_replicate]),
      List.getElem?_replicate, if_pos htag] at hfield
    cases hfield
    exact given_section?_of_fault_in_tag htag hfault
  · rw [Section.fields, List.getElem?_append_right (by rw [List.length_replicate]; omega),
      List.length_replicate] at hfield
    rw [← hfault]
    refine given_section?_of_cause hformed (agrees_of_rest_eq hrest hwithin) (by omega) ?_
    rcases hread with hkind | hheading
    · have hcauses := congrArg (Option.map PackField.cause) hfield
      rw [← List.getElem?_map, List.map_append, ← Section.causes_eq_map hkind hformed] at hcauses
      exact hcauses
    · rw [List.getElem?_append_left (by rw [List.length_replicate]; omega),
        List.getElem?_replicate, if_pos (by omega)] at hfield ⊢
      cases hfield
      rfl

/-- A fault in what is passed over is found where the next tag should be. -/
theorem given_sections_of_fault_passed {state : LoadState} {first : Section} {after : LoadState}
    {reason : String} (hfirst : section? state = .ok (some first) after)
    (same : SameContent after.stream (state.stream.skip first.bytes.length))
    (hwithin : state.stream.available ≤ first.bytes.length)
    (hfault : state.stream.shortage = .fault reason) :
    given (sections state) = .error (.io (.fault reason)) := by
  refine given_sections_of_first hfirst (given_sections_of_error ?_)
  apply given_section?_of_fault_in_tag
  · rw [same.available_eq, available_skip]
    omega
  · rw [same.shortage_eq, shortage_skip_of_fault hfault]

/-- A fault in well-formed sections, or at their end. -/
theorem given_sections_of_fault {written : List Section}
    (hformed : ∀ one ∈ written, one.WellFormed) {state : LoadState} {field : PackField}
    {reason : String} (hrest : state.stream.rest = written.flatMap Section.bytes)
    (hfield : (written.flatMap Section.fields ++ [.finish])[state.stream.available]? = some field)
    (hfault : state.stream.shortage = .fault reason) :
    given (sections state) = .error (field.cause (.fault reason)) := by
  induction written generalizing state with
  | nil =>
      have hnone : state.stream.available = 0 := by
        have hle := state.stream.available_le_length
        rw [hrest] at hle
        exact Nat.le_zero.mp hle
      rw [hnone] at hfield
      cases hfield
      exact given_sections_of_error (given_section?_of_fault_in_tag (by omega) hfault)
  | cons first others ih =>
      obtain ⟨hfirst, hothers⟩ := List.forall_mem_cons.mp hformed
      rw [List.flatMap_cons] at hrest
      rw [List.flatMap_cons, List.append_assoc] at hfield
      by_cases hwithin : state.stream.available < first.bytes.length
      · rw [List.getElem?_append_left (by rwa [Section.length_fields])] at hfield
        by_cases hread : (first.tag = .palette ∨ first.tag = .icon) ∨ state.stream.available < 8
        · exact given_sections_of_error (given_section?_of_fault hfirst hrest hread hfield hfault)
        · rw [not_or, not_or] at hread
          obtain ⟨⟨hpalette, hicon⟩, hheading⟩ := hread
          cases first with
          | palette slot colors => exact absurd rfl hpalette
          | icon name records data => exact absurd rfl hicon
          | other tag bytes =>
              have hle : 8 ≤ state.stream.available := Nat.not_lt.mp hheading
              obtain ⟨after, hsection, same⟩ :=
                exists_section?_of_passedOver hfirst hrest hle (Nat.le_of_lt hwithin)
              rw [Section.eq_passedOver_of_other hfield hle]
              exact given_sections_of_fault_passed hsection same (Nat.le_of_lt hwithin) hfault
      · have hle : first.bytes.length ≤ state.stream.available := Nat.not_lt.mp hwithin
        obtain ⟨after, hsection, same⟩ := section?_complete hfirst hrest hle
        refine given_sections_of_first hsection (ih hothers ?_ ?_ ?_)
        · rw [same.rest_eq, rest_skip hrest]
        · rw [same.available_eq, available_skip]
          rwa [List.getElem?_append_right (by rwa [Section.length_fields]),
            Section.length_fields] at hfield
        · rw [same.shortage_eq, shortage_skip hle, hfault]

/-! ## Whole packs -/

/-- A load of a header and well-formed sections fails with the field at the fault. -/
theorem given_pack_of_fault {state : LoadState} {count : UInt32} {sections : List Section}
    (hformed : ∀ written ∈ sections, written.WellFormed) {field : PackField} {reason : String}
    (hrest : state.stream.rest = packBytes count sections)
    (hfield : (packFields sections)[state.stream.available]? = some field)
    (hfault : state.stream.shortage = .fault reason) :
    given (pack state) = .error (field.cause (.fault reason)) := by
  unfold pack
  by_cases hheader : state.stream.available < 8
  · rw [packFields, List.getElem?_append_left (by rwa [List.length_replicate]),
      List.getElem?_replicate, if_pos hheader] at hfield
    cases hfield
    exact given_bind_of_error (given_header_of_lt hheader)
  · have hle : 8 ≤ state.stream.available := Nat.not_lt.mp hheader
    obtain ⟨between, hbetween, same⟩ := header_of_rest_eq hrest hle
    rw [given_bind_of_ok hbetween]
    refine given_bind_of_error (given_sections_of_fault hformed ?_ ?_ ?_)
    · rw [same.rest_eq]
      exact rest_skip hrest
    · rw [same.available_eq, available_skip]
      rwa [packFields, List.getElem?_append_right (by rwa [List.length_replicate]),
        List.length_replicate] at hfield
    · rw [same.shortage_eq, shortage_skip hle, hfault]

end Loader

/-- How loads of the bytes of these sections end if they cannot be read from some place on. -/
structure FaultsReported (bytes : Bytes) (sections : List Section) : Prop where
  /-- Each byte and the end of the bytes have a field. -/
  length_packFields : (packFields sections).length = bytes.length + 1
  /-- The field at the fault tells how the load fails, however the bytes before it are delivered. -/
  failure : ∀ place field, (packFields sections)[place]? = some field →
    ∀ reason deliveries, (Pack.load (.atFront bytes (some ⟨place, reason⟩) deliveries)).result =
      .error (field.cause (.fault reason))

theorem faultsReported_packBytes (count : UInt32) {sections : List Section}
    (hformed : ∀ written ∈ sections, written.WellFormed) :
    FaultsReported (packBytes count sections) sections where
  length_packFields := by rw [VectorIcons.length_packFields, length_packBytes]
  failure := by
    intro place field hfield reason deliveries
    have hplace : place ≤ (packBytes count sections).length := by
      obtain ⟨hlt, -⟩ := List.getElem?_eq_some_iff.mp hfield
      rw [VectorIcons.length_packFields] at hlt
      rw [length_packBytes]
      exact Nat.le_of_lt_succ hlt
    have havailable : (ByteStream.atFront (packBytes count sections) (some ⟨place, reason⟩)
        deliveries).available = place := Nat.min_eq_left hplace
    have hfault : (ByteStream.atFront (packBytes count sections) (some ⟨place, reason⟩)
        deliveries).shortage = .fault reason := if_pos hplace
    rw [Pack.result_load]
    refine @given_pack_of_fault (.start _) count sections hformed field reason rfl ?_ hfault
    rwa [LoadState.stream_start, havailable]

/-- **A fault is never taken for the end of a pack**, not even there, and the failure tells which
field it hits. -/
theorem faultsReported_of_ofBytes {bytes : Bytes} {pack : Pack}
    (hloaded : (Pack.ofBytes bytes).result = .ok pack) :
    (∃! sections, HasSections bytes sections) ∧
      ∀ sections, HasSections bytes sections → FaultsReported bytes sections := by
  obtain ⟨count, sections, rfl, hformed, -⟩ := Pack.ofBytes_eq_ok_iff.mp hloaded
  have hsections : HasSections (packBytes count sections) sections := ⟨⟨count, rfl⟩, hformed⟩
  constructor
  · exact ⟨sections, hsections, fun others hothers => hsections.unique hothers⟩
  · intro others hothers
    rw [hsections.unique hothers]
    exact faultsReported_packBytes count hformed

/-- A palette, a section that is passed over, and an icon without a program. -/
theorem faultsReported_of_ofBytes_of_three_sections :
    let sections : List Section :=
      [.palette 0 [⟨1, 2, 3, 4⟩], .other ⟨0x58, 0x58, 0x58, 0x58⟩ [1, 2, 3],
        .icon "a" [⟨1, 1, 0⟩] []]
    (Pack.ofBytes (packBytes 1 sections)).result = .ok (Pack.ofSections sections) ∧
      (∃! written, HasSections (packBytes 1 sections) written) ∧
      ∀ written, HasSections (packBytes 1 sections) written →
        FaultsReported (packBytes 1 sections) written := by
  intro sections
  have hformed : ∀ written ∈ sections, written.WellFormed := by decide +kernel
  have hloaded := Pack.result_ofBytes_packBytes 1 hformed
  exact ⟨hloaded, faultsReported_of_ofBytes hloaded⟩

end VectorIcons
