import VectorIcons.Proofs.Pack.Steadiness

/-!
# Streams that run short inside a section

A load that misses a byte fails with the cause of the field that the byte belongs to.
`Section.causes` lists these causes for the payload of a palette or an icon:

```text
palette   slot, number of colors, colors                       record
icon      name length, number of variants, variants            record
icon      name, programs                                       io
```

A byte of the size has the cause `truncatedHeading 4`.  Neither a tag nor the payload of any
other section is like that: there is no section where nothing of a tag is left, and a payload
that is passed over is compared with the end of the stream before any of it is missed.

## Strategy

`FailsShort part bytes causes` is about a part of a load in front of a stream that agrees with
`bytes` as far as it goes: where the first byte that it does not give has a cause, the part
fails with this cause.  Behind a first part that succeeds, the next one stands in front of a
stream that runs short at the same byte, so the causes of two parts in a row are put one after
the other like their bytes: `FailsShort.bind`.
-/

namespace VectorIcons

open ByteStream

/-! ## Streams that agree with bytes -/

namespace ByteStream

/-- As far as the stream goes, it gives these bytes. -/
def Agrees (stream : ByteStream) (bytes : Bytes) : Prop :=
  stream.rest.take stream.available = bytes.take stream.available

namespace Agrees

variable {stream : ByteStream} {front behind : Bytes}

theorem of_sameContent {other : ByteStream} (same : SameContent stream other)
    (hagrees : other.Agrees front) : stream.Agrees front := by
  rw [Agrees, same.rest_eq, same.available_eq]
  exact hagrees

/-- Bytes that are available are what the stream goes on with. -/
theorem exists_rest_eq (hagrees : stream.Agrees (front ++ behind))
    (hfront : front.length ≤ stream.available) : ∃ others, stream.rest = front ++ others := by
  have htaken := congrArg (List.take front.length) hagrees
  rw [List.take_take, List.take_take, Nat.min_eq_left hfront, List.take_left] at htaken
  refine ⟨stream.rest.drop front.length, ?_⟩
  conv => lhs; rw [← List.take_append_drop front.length stream.rest, htaken]

/-- Behind them, the stream agrees with what comes behind them. -/
theorem skip (hagrees : stream.Agrees (front ++ behind)) :
    (stream.skip front.length).Agrees behind := by
  unfold Agrees at hagrees ⊢
  rw [available_skip]
  calc (stream.rest.drop front.length).take (stream.available - front.length)
      = (stream.rest.take stream.available).drop front.length := List.drop_take.symm
    _ = ((front ++ behind).take stream.available).drop front.length := by rw [hagrees]
    _ = behind.take (stream.available - front.length) := by rw [List.drop_take, List.drop_left]

end Agrees
end ByteStream

/-! ## Causes -/

/-- For each byte of the payload of a palette or an icon, how a load fails that misses it. -/
def Section.causes : Section → List (ReadFailure → LoadError)
  | .palette _ colors => .record :: .record :: List.replicate (4 * colors.length) .record
  | .icon name records data =>
      .record :: (List.replicate (Text.utf8Bytes name).length .io ++
        .record :: (List.replicate (8 * records.length) .record ++
          List.replicate data.length .io))
  | .other _ _ => []

/-- Palettes and icons have a cause for each byte of their payload. -/
theorem Section.length_causes {written : Section}
    (hkind : written.tag = .palette ∨ written.tag = .icon) (hformed : written.WellFormed) :
    written.causes.length = written.payload.length := by
  cases written with
  | palette slot colors => simp [causes, payload, Palette.length_bytes]
  | icon name records data =>
      have hrecords := VariantRecord.length_flatMap_bytes records
      simp only [causes, payload, List.length_cons, List.length_append, List.length_replicate,
        hrecords]
  | other tag payload =>
      rcases hkind with hpalette | hicon
      · exact absurd hpalette hformed.1
      · exact absurd hicon hformed.2.1

theorem Section.eq_io_or_eq_record_of_mem_causes {written : Section}
    {cause : ReadFailure → LoadError} (hcause : cause ∈ written.causes) :
    cause = .io ∨ cause = .record := by
  cases written with
  | palette slot colors =>
      right
      simp only [causes, List.mem_cons, List.mem_replicate] at hcause
      rcases hcause with rfl | rfl | ⟨_, rfl⟩ <;> rfl
  | icon name records data =>
      simp only [causes, List.mem_cons, List.mem_append, List.mem_replicate] at hcause
      rcases hcause with rfl | ⟨_, rfl⟩ | rfl | ⟨_, rfl⟩ | ⟨_, rfl⟩
      · exact Or.inr rfl
      · exact Or.inl rfl
      · exact Or.inr rfl
      · exact Or.inr rfl
      · exact Or.inl rfl
  | other tag payload => cases hcause

namespace Loader

/-! ## The law -/

/-- `causes` tells for bytes of `bytes` how `part` fails if the stream gives those before it
and not this one. -/
def FailsShort {α : Type} (part : Loader α) (bytes : Bytes)
    (causes : List (ReadFailure → LoadError)) : Prop :=
  ∀ (state : LoadState) (cause : ReadFailure → LoadError), state.stream.Inside →
    state.stream.Agrees bytes → causes[state.stream.available]? = some cause →
    given (part state) = .error (cause state.stream.shortage)

namespace FailsShort

variable {α β : Type} {causesNext : List (ReadFailure → LoadError)}

theorem nil (part : Loader α) (bytes : Bytes) : FailsShort part bytes [] := by
  intro state cause _ _ hcause
  cases hcause

theorem bind_left {first : Loader α} {bytes : Bytes} {causes : List (ReadFailure → LoadError)}
    (hfirst : FailsShort first bytes causes) (next : α → Loader β) :
    FailsShort (first >>= next) bytes causes := by
  intro state cause hinside hagrees hcause
  exact given_bind_of_error (hfirst state cause hinside hagrees hcause)

/-- The causes of two parts in a row. -/
theorem bind {first : Loader α} {next : α → Loader β} {format : Bytes → α → Prop}
    {bytesFirst bytesNext : Bytes} {causesFirst : List (ReadFailure → LoadError)} {value : α}
    (hfirst : FailsShort first bytesFirst causesFirst) (hparses : Parses first format)
    (hformat : format bytesFirst value) (hlength : causesFirst.length = bytesFirst.length)
    (hnext : FailsShort (next value) bytesNext causesNext) :
    FailsShort (first >>= next) (bytesFirst ++ bytesNext) (causesFirst ++ causesNext) := by
  intro state cause hinside hagrees hcause
  by_cases hshort : state.stream.available < bytesFirst.length
  · -- The first part misses a byte.
    have hagreesFirst : state.stream.Agrees bytesFirst := by
      rw [ByteStream.Agrees, hagrees, List.take_append_of_le_length (Nat.le_of_lt hshort)]
    rw [List.getElem?_append_left (hlength ▸ hshort)] at hcause
    exact given_bind_of_error (hfirst state cause hinside hagreesFirst hcause)
  · -- The first part takes its bytes, and the next one runs short.
    have hle : bytesFirst.length ≤ state.stream.available := Nat.not_lt.mp hshort
    obtain ⟨behind, hrest⟩ := hagrees.exists_rest_eq hle
    obtain ⟨between, hbetween, same⟩ := hparses.complete hformat hinside hrest hle
    have havailable : between.stream.available =
        state.stream.available - bytesFirst.length := by
      rw [same.available_eq, available_skip]
    have hcauseNext : causesNext[between.stream.available]? = some cause := by
      rwa [List.getElem?_append_right (hlength ▸ hle), hlength, ← havailable] at hcause
    have hagreesNext := Agrees.of_sameContent same hagrees.skip
    have hinsideNext := same.inside_of_skip_available hinside hle
    rw [given_bind_of_ok hbetween, hnext between cause hinsideNext hagreesNext hcauseNext,
      same.shortage_eq, shortage_skip hle]

/-- The causes of the next part, if the first one takes no bytes. -/
theorem bind_silent {first : Loader α} {next : α → Loader β} {holds : α → Prop} {bytes : Bytes}
    (value : α) (hparses : Parses first fun bytes value => bytes = [] ∧ holds value)
    (hvalue : holds value) (hnext : FailsShort (next value) bytes causesNext) :
    FailsShort (first >>= next) bytes causesNext :=
  (nil first []).bind hparses ⟨rfl, hvalue⟩ rfl hnext

/-- So many bytes with one cause, followed by those of the next part. -/
theorem bind_bytes {first : Loader Bytes} {next : Bytes → Loader β} {count : Nat}
    {taken behind : Bytes} {cause : ReadFailure → LoadError}
    (hfirst : FailsShort first taken (List.replicate count cause))
    (hparses : Parses first fun bytes value => bytes.length = count ∧ value = bytes)
    (hlength : taken.length = count) (hnext : FailsShort (next taken) behind causesNext) :
    FailsShort (first >>= next) (taken ++ behind) (List.replicate count cause ++ causesNext) :=
  hfirst.bind hparses ⟨hlength, rfl⟩ (by rw [List.length_replicate, hlength]) hnext

end FailsShort

/-! ## Parts that read -/

theorem failsShort_take (count : Nat) (bytes : Bytes) {otherwise : ReadFailure → Loader Bytes}
    {cause : ReadFailure → LoadError}
    (hotherwise : ∀ failure state, given (otherwise failure state) = .error (cause failure)) :
    FailsShort (take count otherwise) bytes (List.replicate count cause) := by
  intro state other _ _ hother
  rw [List.getElem?_replicate] at hother
  split at hother
  · rename_i hshort
    cases hother
    obtain ⟨between, hbetween⟩ := take_of_lt otherwise hshort
    rw [hbetween]
    exact hotherwise _ _
  · cases hother

theorem failsShort_plain (count : Nat) (bytes : Bytes) :
    FailsShort (plain count) bytes (List.replicate count .io) :=
  failsShort_take count bytes fun _ _ => rfl

theorem failsShort_record (count : Nat) (bytes : Bytes) :
    FailsShort (record count) bytes (List.replicate count .record) :=
  failsShort_take count bytes fun _ _ => rfl

theorem failsShort_size (bytes : Bytes) :
    FailsShort size bytes (List.replicate 4 fun _ => .truncatedHeading 4) :=
  (failsShort_take 4 bytes fun _ _ => rfl).bind_left _

/-! ## Payloads -/

theorem failsShort_palette {slot : UInt8} {colors : Palette} {size : UInt32}
    (hformed : (Section.palette slot colors).WellFormed)
    (hsize : size.toNat = (Section.palette slot colors).payload.length) :
    FailsShort (palette size) (Section.palette slot colors).payload
      (Section.palette slot colors).causes := by
  have hcount : (word8 [UInt8.ofNat colors.length]).toNat = colors.length := by
    rw [word8_singleton]
    exact toNat_ofNat_of_le hformed
  have hmatches : (size.toNat == 2 + 4 * (word8 [UInt8.ofNat colors.length]).toNat) = true := by
    rw [hcount, beq_iff_eq, hsize, Section.payload, List.length_cons, List.length_cons,
      Palette.length_bytes]
    omega
  have hcolors := failsShort_record (4 * (word8 [UInt8.ofNat colors.length]).toNat)
    (Palette.bytes colors)
  rw [hcount] at hcolors
  apply (failsShort_record 1 [slot]).bind_bytes (parses_record 1) rfl
  apply (failsShort_record 1 [UInt8.ofNat colors.length]).bind_bytes (parses_record 1) rfl
  apply FailsShort.bind_silent () (parses_require _ _ _) hmatches
  rw [hcount]
  exact hcolors.bind_left _

theorem failsShort_icon {name : String} {records : List VariantRecord} {data : Bytes}
    {size : UInt32} (hformed : (Section.icon name records data).WellFormed)
    (hsize : size.toNat = (Section.icon name records data).payload.length) :
    FailsShort (icon size) (Section.icon name records data).payload
      (Section.icon name records data).causes := by
  obtain ⟨hname, hnameLe, hrecords, hrecordsLe, hmax⟩ := hformed
  have hnameCount := toNat_ofNat_of_le hnameLe
  have hrecordCount := toNat_ofNat_of_le hrecordsLe
  have hlength := VariantRecord.length_flatMap_bytes records
  have hheading : iconHeadingSize (UInt8.ofNat (Text.utf8Bytes name).length)
      (UInt8.ofNat records.length) = 1 + (Text.utf8Bytes name).length + 1 + 8 * records.length := by
    rw [iconHeadingSize, hnameCount, hrecordCount]
  rw [← hsize] at hmax
  simp only [Section.payload, List.length_cons, List.length_append] at hsize
  have hdata : size.toNat - (1 + (Text.utf8Bytes name).length + 1 + 8 * records.length) =
      data.length := by omega
  -- The fields in the order in which they are read.
  apply FailsShort.bind_silent () (parses_require _ _ _) (decide_eq_true hmax)
  apply (failsShort_record 1 [_]).bind_bytes (parses_record 1) rfl
  simp only [word8_singleton]
  apply FailsShort.bind_silent () (parses_require _ _ _) (ofNat_bne_zero hname hnameLe)
  rw [hnameCount]
  apply (failsShort_plain _ _).bind_bytes (parses_plain _) rfl
  apply FailsShort.bind_silent name (parses_nameOf _) rfl
  apply (failsShort_record 1 [_]).bind_bytes (parses_record 1) rfl
  simp only [word8_singleton]
  apply FailsShort.bind_silent () (parses_require _ _ _) (ofNat_bne_zero hrecords hrecordsLe)
  rw [hheading, hrecordCount, hdata]
  apply FailsShort.bind_silent () (parses_require _ _ _) (decide_eq_true (by omega))
  apply (failsShort_record _ _).bind_bytes (parses_record _) hlength
  exact (failsShort_plain _ _).bind_left _

theorem failsShort_payload {written : Section} (hformed : written.WellFormed) :
    FailsShort (payload written.tag (UInt32.ofNat written.payload.length)) written.payload
      written.causes := by
  have hsize := toNat_ofNat_length_payload hformed
  unfold payload
  cases written with
  | palette slot colors =>
      show FailsShort (if Tag.palette = .palette then _ else _) _ _
      rw [if_pos rfl]
      exact failsShort_palette hformed hsize
  | icon name records data =>
      show FailsShort (if Tag.icon = .palette then _ else if Tag.icon = .icon then _ else _) _ _
      rw [if_neg (by decide), if_pos rfl]
      exact failsShort_icon hformed hsize
  | other tag payload => exact FailsShort.nil _ _

/-! ## Sections -/

/-- The causes behind the tag of a section. -/
theorem failsShort_sized {written : Section} (hformed : written.WellFormed) :
    FailsShort (sized written.tag)
      (littleEndian32 (UInt32.ofNat written.payload.length) ++ written.payload)
      (List.replicate 4 (fun _ => .truncatedHeading 4) ++ written.causes) := by
  apply (failsShort_size _).bind parses_size rfl rfl
  apply FailsShort.bind_silent () (parses_tell _) trivial
  exact (failsShort_payload hformed).bind_left _

/-- The tag of a section is read if it is there, and the load goes on behind it. -/
theorem exists_section?_eq_of_agrees {written : Section} {state : LoadState}
    (hagrees : state.stream.Agrees written.bytes) (htag : 4 ≤ state.stream.available) :
    ∃ between, Loader.section? state = sized written.tag between ∧
      SameContent between.stream (state.stream.skip 4) ∧
      between.stream.Agrees
        (littleEndian32 (UInt32.ofNat written.payload.length) ++ written.payload) := by
  rw [Section.bytes, Section.heading, List.append_assoc] at hagrees
  obtain ⟨behind, hrest⟩ := hagrees.exists_rest_eq htag
  obtain ⟨between, hbetween, same⟩ := tag?_of_le hrest htag
  refine ⟨between, ?_, same, Agrees.of_sameContent same hagrees.skip⟩
  unfold Loader.section?
  rw [bind_of_ok hbetween]
  rfl

/-- **A section whose tag is there fails with the cause of the first byte that is missed.** -/
theorem given_section?_of_cause {written : Section} (hformed : written.WellFormed)
    {state : LoadState} {cause : ReadFailure → LoadError}
    (hagrees : state.stream.Agrees written.bytes) (htag : 4 ≤ state.stream.available)
    (hcause : (List.replicate 4 (fun _ => .truncatedHeading 4) ++ written.causes)[
      state.stream.available - 4]? = some cause) :
    given (Loader.section? state) = .error (cause state.stream.shortage) := by
  obtain ⟨between, hbetween, same, hagreesBetween⟩ := exists_section?_eq_of_agrees hagrees htag
  have hinside : between.stream.Inside :=
    same.inside_of_skip_available (inside_of_available_pos (by omega)) htag
  rw [← available_skip, ← same.available_eq] at hcause
  rw [hbetween, failsShort_sized hformed between cause hinside hagreesBetween hcause,
    same.shortage_eq, shortage_skip htag]

theorem payload_of_other {tag : Tag} {bytes : Bytes}
    (hformed : (Section.other tag bytes).WellFormed) (size : UInt32) :
    payload (Section.other tag bytes).tag size = other tag size := by
  show payload tag size = _
  rw [payload, if_neg hformed.1, if_neg hformed.2.1]

theorem given_other_of_lt {tag : Tag} {size : UInt32} {state : LoadState}
    (hshort : state.stream.rest.length < size.toNat) :
    given (other tag size state) = .error (.outOfBounds tag size) := by
  unfold other
  rw [given_bind_of_ok (passOver_of_lt (ending_lt_of_length_lt hshort))]
  rfl

/-- Tag and size of a section are read if they are there, and the load goes on with the payload. -/
theorem exists_section?_eq_payload {written : Section} {state : LoadState}
    (hagrees : state.stream.Agrees written.bytes) (hheading : 8 ≤ state.stream.available) :
    ∃ between, Loader.section? state =
        (payload written.tag (UInt32.ofNat written.payload.length) >>= fun found =>
          pure (some found)) between ∧
      SameContent between.stream (state.stream.skip 8) := by
  obtain ⟨afterTag, htag, sameTag, hagreesTag⟩ := exists_section?_eq_of_agrees hagrees (by omega)
  have havailable : 4 ≤ afterTag.stream.available := by
    rw [sameTag.available_eq, available_skip]
    omega
  obtain ⟨behind, hrest⟩ := hagreesTag.exists_rest_eq havailable
  have hinside : afterTag.stream.Inside := inside_of_available_pos (by omega)
  obtain ⟨afterSize, hsize, sameSize⟩ := parses_size.complete rfl hinside hrest havailable
  let begun := LoadEvent.sectionBegun written.tag (UInt32.ofNat written.payload.length)
  refine ⟨{ afterSize with events := afterSize.events.push begun }, ?_,
    (sameSize.trans (sameTag.skip 4)).trans (sameContent_skip_skip _ _ _)⟩
  rw [htag, sized, bind_of_ok hsize]
  rfl

/-- A section that is passed over fails if the stream ends before its payload does. -/
theorem given_section?_of_outOfBounds {tag : Tag} {bytes : Bytes}
    (hformed : (Section.other tag bytes).WellFormed) {state : LoadState}
    (hagrees : state.stream.Agrees (Section.other tag bytes).bytes)
    (hheading : 8 ≤ state.stream.available)
    (hshort : state.stream.rest.length < (Section.other tag bytes).bytes.length) :
    given (Loader.section? state) = .error (.outOfBounds tag (UInt32.ofNat bytes.length)) := by
  obtain ⟨between, hbetween, same⟩ := exists_section?_eq_payload hagrees hheading
  have hlength : between.stream.rest.length < (UInt32.ofNat bytes.length).toNat := by
    have hsize : (UInt32.ofNat bytes.length).toNat = bytes.length :=
      toNat_ofNat_length_payload hformed
    have hbytes : (Section.other tag bytes).bytes.length = 8 + bytes.length :=
      Section.length_bytes _
    have hwithin := state.stream.available_le_length
    rw [hsize, same.rest_eq, ByteStream.skip, List.length_drop]
    omega
  rw [hbetween, payload_of_other hformed]
  exact given_bind_of_error (given_other_of_lt hlength)

theorem given_tagOf?_of_cut {bytes : Bytes} (hpos : 0 < bytes.length) (hshort : bytes.length < 4)
    (state : LoadState) :
    given (tagOf? ⟨bytes, some .endOfStream⟩ state) = .error (.truncatedHeading bytes.length) := by
  match bytes, hpos, hshort with
  | [_], _, _ => rfl
  | [_, _], _, _ => rfl
  | [_, _, _], _, _ => rfl

/-- A tag of which only some bytes are left before the end of the stream. -/
theorem given_section?_of_cut_tag {state : LoadState} (hpos : 0 < state.stream.available)
    (hshort : state.stream.available < 4) (hend : state.stream.shortage = .endOfStream) :
    given (Loader.section? state) = .error (.truncatedHeading state.stream.available) := by
  obtain ⟨between, hfill, _⟩ := exists_fill_eq 4 state
  rw [Nat.min_eq_right (Nat.le_of_lt hshort), if_neg (Nat.not_le.mpr hshort), hend] at hfill
  have hlength := List.length_take_of_le state.stream.available_le_length
  have htag : given (tag? state) = .error (.truncatedHeading state.stream.available) := by
    have hcut := given_tagOf?_of_cut (by rwa [hlength]) (by rwa [hlength]) between
    rw [hlength] at hcut
    rwa [tag?, given_bind_of_ok hfill]
  exact given_bind_of_error htag

end Loader
end VectorIcons
