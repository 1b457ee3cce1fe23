import VectorIcons.Proofs.Pack.Building
import VectorIcons.Proofs.Pack.Faults

/-!
# Writing into a buffer

A pack that can be encoded is written into a buffer of any size as far as there is room.  With room
for all of its bytes, the buffer takes them and writing succeeds.  With less, the buffer is filled
up with the first bytes, and writing fails as the field of the next byte tells:

```text
header; size of a section     record
tag; payload of a section     io
```

A payload of no bytes is written even where the buffer is full.

## Strategy

Each byte that a step puts has a failure, which is how writing ends if the byte finds no room:
`WriteStep.failures`.  One step takes what fits (`Writing.takesUp_step`), so a run of steps writes
a prefix of all their bytes and fails with the failure of the first byte that is left out
(`Writing.takesUp_foldl_step`).  What is left is to see which bytes and which failures the steps of
a pack have: those of `packBytes` and of `packFields`.
-/

namespace VectorIcons

/-! ## Steps -/

namespace WriteStep

/-- The bytes that a step puts. -/
def bytes : WriteStep → Bytes
  | .put bytes _ => bytes
  | .tell _ => []

/-- For each byte that a step puts, how writing fails if there is no room for it. -/
def failures : WriteStep → List WriteError
  | .put bytes otherwise => List.replicate bytes.length otherwise
  | .tell _ => []

theorem length_failures (step : WriteStep) : step.failures.length = step.bytes.length := by
  cases step with
  | put bytes otherwise => exact List.length_replicate
  | tell event => rfl

end WriteStep

namespace Writing

/-- From `before` to `after`, writing took up as many of `bytes` as there was room for.  The first
one that was left out tells how it failed. -/
structure TakesUp (before after : Writing) (bytes : Bytes) (failures : List WriteError) : Prop where
  written : after.written.toList = before.written.toList ++ bytes.take before.room
  room : after.room = before.room - bytes.length
  failure : after.failure = failures[before.room]?

theorem takesUp_step {writing : Writing} (hgoing : writing.failure = none) (step : WriteStep) :
    TakesUp writing (writing.step step) step.bytes step.failures := by
  unfold Writing.step
  rw [hgoing]
  cases step with
  | put bytes otherwise =>
      refine ⟨Array.toList_appendList, rfl, ?_⟩
      simp only [put, WriteStep.failures, List.getElem?_replicate]
      by_cases hfits : bytes.length ≤ writing.room
      · rw [if_pos hfits, if_neg (Nat.not_lt.mpr hfits)]
      · rw [if_neg hfits, if_pos (Nat.lt_of_not_le hfits)]
  | tell event =>
      refine ⟨?_, rfl, rfl⟩
      rw [WriteStep.bytes, List.take_nil, List.append_nil]

/-- Writing that has failed lets all further steps pass. -/
theorem foldl_step_of_failed {writing : Writing} {cause : WriteError}
    (hfailed : writing.failure = some cause) (steps : List WriteStep) :
    steps.foldl step writing = writing := by
  induction steps with
  | nil => rfl
  | cons first others ih =>
      have hpassed : writing.step first = writing := by
        unfold Writing.step
        rw [hfailed]
      rw [List.foldl_cons, hpassed, ih]

/-- **A run of steps fills the buffer from the front**, and fails at the first byte that it does
not take up. -/
theorem takesUp_foldl_step (steps : List WriteStep) {writing : Writing}
    (hgoing : writing.failure = none) :
    TakesUp writing (steps.foldl step writing) (steps.flatMap WriteStep.bytes)
      (steps.flatMap WriteStep.failures) := by
  induction steps generalizing writing with
  | nil =>
      refine ⟨?_, rfl, hgoing⟩
      rw [List.flatMap_nil, List.take_nil, List.append_nil, List.foldl_nil]
  | cons first others ih =>
      have hfirst := takesUp_step hgoing first
      have hlength := first.length_failures
      rw [List.foldl_cons, List.flatMap_cons, List.flatMap_cons]
      cases hcause : (writing.step first).failure with
      | none =>
          have hfits : first.bytes.length ≤ writing.room := by
            rw [hfirst.failure, List.getElem?_eq_none_iff, hlength] at hcause
            exact hcause
          have hothers := ih hcause
          constructor
          case written =>
            rw [hothers.written, hfirst.written, hfirst.room, List.take_append, List.append_assoc]
          case room =>
            rw [hothers.room, hfirst.room, List.length_append, Nat.sub_sub]
          case failure =>
            rw [hothers.failure, hfirst.room, List.getElem?_append_right (by omega), hlength]
      | some cause =>
          have hfull : writing.room < first.bytes.length := by
            rw [hfirst.failure] at hcause
            obtain ⟨hlt, -⟩ := List.getElem?_eq_some_iff.mp hcause
            rwa [hlength] at hlt
          rw [foldl_step_of_failed hcause]
          constructor
          case written =>
            rw [hfirst.written, List.take_append_of_le_length (Nat.le_of_lt hfull)]
          case room =>
            rw [hfirst.room, List.length_append]
            omega
          case failure =>
            rw [hfirst.failure, List.getElem?_append_left (by omega)]

end Writing

/-! ## The steps of a pack -/

/-- How writing fails that has no room for such a byte. -/
def PackField.writeError : PackField → WriteError
  | .header | .size => .record
  | .tag | .palette | .nameLength | .name | .variantCount | .variantRecords | .iconData
  | .passedOver | .finish => .io

namespace WriteStep

theorem flatMap_bytes_ofSection (written : Section) :
    (ofSection written).flatMap bytes = written.bytes := by
  simp [ofSection, bytes, Section.bytes, Section.heading]

theorem map_writeError_payloadFields (written : Section) :
    written.payloadFields.map PackField.writeError =
      List.replicate written.payload.length .io := by
  rw [← written.length_payloadFields, List.eq_replicate_iff, List.length_map]
  refine ⟨rfl, ?_⟩
  intro cause hcause
  obtain ⟨field, hfield, rfl⟩ := List.mem_map.mp hcause
  cases written with
  | palette slot colors =>
      rw [List.eq_of_mem_replicate hfield]
      rfl
  | icon name records data =>
      simp only [Section.payloadFields, List.mem_cons, List.mem_append,
        List.mem_replicate] at hfield
      rcases hfield with rfl | ⟨-, rfl⟩ | rfl | ⟨-, rfl⟩ | ⟨-, rfl⟩ <;> rfl
  | other tag payload =>
      rw [List.eq_of_mem_replicate hfield]
      rfl

theorem flatMap_failures_ofSection (written : Section) :
    (ofSection written).flatMap failures = written.fields.map PackField.writeError := by
  rw [Section.fields, List.map_append, List.map_append, map_writeError_payloadFields]
  simp [ofSection, failures, Tag.bytes, PackField.writeError]

theorem flatMap_bytes_ofPack (count : Nat) (sections : List Section) :
    (ofPack count sections).flatMap bytes = packBytes (UInt32.ofNat count) sections := by
  simp [ofPack, bytes, packBytes, List.flatMap_assoc, flatMap_bytes_ofSection]

/-- Each byte of a pack fails as its field tells. -/
theorem flatMap_failures_ofPack (count : Nat) (sections : List Section) :
    (ofPack count sections).flatMap failures ++ [PackField.finish.writeError] =
      (packFields sections).map PackField.writeError := by
  simp [ofPack, failures, packFields, List.flatMap_assoc, flatMap_failures_ofSection,
    List.map_flatMap, PackField.writeError]

end WriteStep

/-! ## Whole packs -/

theorem length_packBytes_eq_sum (count : UInt32) (sections : List Section) :
    (packBytes count sections).length =
      8 + (sections.map fun written => 8 + written.payload.length).sum := by
  rw [packBytes, List.length_append, length_packHeader, List.length_flatMap]
  simp only [Section.length_bytes]

/-- What becomes of writing `bytes`, those of a pack with these sections, into a buffer with `room`
for so many of them. -/
structure WritesWithin (sections : List Section) (bytes : Bytes) (room : Nat) (writing : Writing) :
    Prop where
  /-- Writing succeeds exactly if there is room for all bytes. -/
  failure_eq_none_iff : writing.failure = none ↔ bytes.length ≤ room
  whole : bytes.length ≤ room →
    writing.written.toList = bytes ∧ writing.room = room - bytes.length
  /-- With less room, the buffer is full, and the field of the next byte tells the failure. -/
  part : room < bytes.length →
    writing.written.toList = bytes.take room ∧ writing.room = 0 ∧
      ∃ field, (packFields sections)[room]? = some field ∧
        writing.failure = some field.writeError

theorem writesWithin_writeWithin (builder : PackBuilder) (room : Nat) :
    WritesWithin builder.sections builder.bytes room (builder.writeWithin room) := by
  have hgoing : (Writing.start room).failure = none := rfl
  have hbytes : builder.steps.flatMap WriteStep.bytes = builder.bytes :=
    WriteStep.flatMap_bytes_ofPack _ _
  have hfields : builder.steps.flatMap WriteStep.failures ++ [PackField.finish.writeError] =
      (packFields builder.sections).map PackField.writeError :=
    WriteStep.flatMap_failures_ofPack _ _
  have hlength : (builder.steps.flatMap WriteStep.failures).length = builder.bytes.length := by
    have hlengths := congrArg List.length hfields
    rw [List.length_append, List.length_map, length_packFields, ← length_packBytes] at hlengths
    exact Nat.succ.inj hlengths
  obtain ⟨hwritten, hroom, hfailure⟩ := Writing.takesUp_foldl_step builder.steps hgoing
  rw [hbytes] at hwritten hroom
  change (builder.writeWithin room).written.toList = builder.bytes.take room at hwritten
  change (builder.writeWithin room).room = room - builder.bytes.length at hroom
  change (builder.writeWithin room).failure = (builder.steps.flatMap WriteStep.failures)[room]?
    at hfailure
  constructor
  case failure_eq_none_iff => rw [hfailure, List.getElem?_eq_none_iff, hlength]
  case whole =>
    intro hfits
    exact ⟨hwritten.trans (List.take_of_length_le hfits), hroom⟩
  case part =>
    intro hshort
    have hplace : room < (packFields builder.sections).length := by
      rw [length_packFields, ← length_packBytes]
      exact Nat.lt_succ_of_lt hshort
    have hfield := List.getElem?_eq_getElem hplace
    refine ⟨hwritten, by omega, _, hfield, ?_⟩
    calc (builder.writeWithin room).failure
        = (builder.steps.flatMap WriteStep.failures)[room]? := hfailure
      _ = ((packFields builder.sections).map PackField.writeError)[room]? := by
          rw [← hfields, List.getElem?_append_left (by rwa [hlength])]
      _ = some ((packFields builder.sections)[room]).writeError := by
          rw [List.getElem?_map, hfield, Option.map_some]

/-- **A buffer takes as much of a pack as it has room for**, and what does not fit tells how
writing fails. -/
theorem writesWithin_of_encode {builder : PackBuilder} {bytes : Bytes}
    (hencode : builder.encode = .ok bytes) :
    bytes.length = 8 + (builder.sections.map fun written => 8 + written.payload.length).sum ∧
      ∀ room, WritesWithin builder.sections bytes room (builder.writeWithin room) := by
  obtain ⟨-, rfl⟩ := PackBuilder.encode_eq_ok_iff.mp hencode
  refine ⟨length_packBytes_eq_sum _ _, ?_⟩
  intro room
  exact writesWithin_writeWithin builder room

/-- A section without a payload, then an icon. -/
theorem writesWithin_of_encode_of_empty_payload :
    let builder : PackBuilder :=
      ⟨#[.other ⟨0x58, 0x58, 0x58, 0x58⟩ [], .icon "a" [⟨1, 1, [0xff]⟩]]⟩
    builder.encode = .ok builder.bytes ∧
      builder.bytes.length =
        8 + (builder.sections.map fun written => 8 + written.payload.length).sum ∧
      ∀ room, WritesWithin builder.sections builder.bytes room (builder.writeWithin room) := by
  intro builder
  have hencode : builder.encode = .ok builder.bytes := by decide +kernel
  exact ⟨hencode, writesWithin_of_encode hencode⟩

end VectorIcons
