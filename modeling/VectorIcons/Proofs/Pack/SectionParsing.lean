import VectorIcons.Proofs.Pack.Parsing

/-!
# The bytes of a section, read

A section is read exactly where the bytes of a well-formed section stand:
`section?_complete` and `section?_sound`.  Only its tag follows no `Parses` law, since
the end of the stream in its place is no failure; `tag?_of_le`, `tag?_sound` and
`exists_tag?_eq_none_iff` deal with it.

A pack is then loaded exactly from the bytes of a header and of well-formed sections,
and it is the pack that these sections make: `load_eq_ok_iff`.
-/

namespace VectorIcons

open ByteStream

namespace Loader

/-! ## Payloads -/

/-- `found` is a well-formed section with the given tag, and `bytes` is its payload of
`size` bytes. -/
def IsPayload (tag : Tag) (size : UInt32) (bytes : Bytes) (found : Section) : Prop :=
  found.tag = tag ∧ found.payload = bytes ∧ bytes.length = size.toNat ∧ found.WellFormed

theorem toNat_ofNat_of_le {count : Nat} (hcount : count ≤ 255) :
    (UInt8.ofNat count).toNat = count := by
  rw [UInt8.toNat_ofNat']
  exact Nat.mod_eq_of_lt (by omega)

theorem ofNat_bne_zero {count : Nat} (hpos : 0 < count) (hcount : count ≤ 255) :
    (UInt8.ofNat count != 0) = true := by
  rw [bne_iff_ne, ne_eq, ← UInt8.toNat_inj, toNat_ofNat_of_le hcount]
  exact Nat.ne_of_gt hpos

theorem toNat_pos_of_bne_zero {byte : UInt8} (hne : (byte != 0) = true) : 0 < byte.toNat := by
  rw [bne_iff_ne, ne_eq, ← UInt8.toNat_inj] at hne
  exact Nat.pos_of_ne_zero hne

theorem parses_palette (size : UInt32) : Parses (palette size) (IsPayload .palette size) := by
  refine ((parses_record 1).bind_byte fun slot => (parses_record 1).bind_byte fun count =>
    (parses_require _ _ _).bind_silent fun _ => (parses_record _).bind_bytes fun colors =>
      (parses_tell _).bind_silent fun _ => Parses.pure _).of_iff ?_
  intro bytes found
  constructor
  · rintro ⟨htag, rfl, hsize, hformed⟩
    cases found with
    | palette slot colors =>
        have hcount := toNat_ofNat_of_le hformed
        have hlength := Palette.length_bytes colors
        simp only [Section.payload, List.length_cons] at hsize
        refine ⟨slot, _, rfl, UInt8.ofNat colors.length, _, rfl, (), ?_, Palette.bytes colors, [],
          ?_, ?_, (), trivial, rfl, ?_⟩
        · rw [word8_singleton, hcount]
          exact beq_iff_eq.mpr (by omega)
        · rw [List.append_nil]
        · rw [word8_singleton, hcount, hlength]
        · rw [word8_singleton, Palette.ofBytes_bytes]
    | icon name records data => cases htag
    | other tag payload => exact absurd htag hformed.1
  · rintro ⟨slot, _, rfl, count, _, rfl, _, hsize, colors, _, rfl, hcolors, _, _, rfl, rfl⟩
    rw [word8_singleton] at hcolors hsize
    rw [beq_iff_eq] at hsize
    have hbound := count.toNat_lt
    obtain ⟨hbytes, hlength⟩ := Palette.bytes_ofBytes hcolors
    refine ⟨rfl, ?_, ?_, ?_⟩
    · rw [Section.payload, hbytes, hlength, word8_singleton, UInt8.ofNat_toNat, List.append_nil]
    · simp only [List.length_cons, List.length_append, List.length_nil, hcolors]
      omega
    · show (Palette.ofBytes colors).length ≤ 255
      omega

/-- Fields that pass the checks of an icon section are the payload of one. -/
theorem isPayload_icon {size : UInt32} {length count : UInt8} {name : String}
    {recordBytes data : Bytes} (hmax : size.toNat ≤ Section.maxIconSize)
    (hname : (length != 0) = true) (hnameLength : (Text.utf8Bytes name).length = length.toNat)
    (hcount : (count != 0) = true) (hrecordBytes : recordBytes.length = 8 * count.toNat)
    (hheading : 1 + length.toNat + 1 + 8 * count.toNat ≤ size.toNat)
    (hdata : data.length = size.toNat - (1 + length.toNat + 1 + 8 * count.toNat)) :
    IsPayload .icon size (length :: (Text.utf8Bytes name ++ count :: (recordBytes ++ data)))
      (.icon name (VariantRecord.listOfBytes recordBytes) data) := by
  have hlengthBound := length.toNat_lt
  have hcountBound := count.toNat_lt
  obtain ⟨hbytes, hrecords⟩ := VariantRecord.flatMap_bytes_listOfBytes hrecordBytes
  have hpayload : (Section.icon name (VariantRecord.listOfBytes recordBytes) data).payload =
      length :: (Text.utf8Bytes name ++ count :: (recordBytes ++ data)) := by
    simp only [Section.payload, hbytes, hrecords, hnameLength, UInt8.ofNat_toNat]
  have hsize : (length :: (Text.utf8Bytes name ++ count :: (recordBytes ++ data))).length =
      size.toNat := by
    simp only [List.length_cons, List.length_append]
    omega
  refine ⟨rfl, hpayload, hsize, ?_, ?_, ?_, ?_, ?_⟩
  · rw [hnameLength]
    exact toNat_pos_of_bne_zero hname
  · omega
  · rw [hrecords]
    exact toNat_pos_of_bne_zero hcount
  · omega
  · rw [hpayload, hsize]
    exact hmax

theorem parses_icon (size : UInt32) : Parses (icon size) (IsPayload .icon size) := by
  refine ((parses_require _ _ _).bind_silent fun _ => (parses_record 1).bind_byte fun length =>
    (parses_require _ _ _).bind_silent fun _ => (parses_plain _).bind_bytes fun nameBytes =>
      (parses_nameOf _).bind_silent fun name => (parses_record 1).bind_byte fun count =>
        (parses_require _ _ _).bind_silent fun _ => (parses_require _ _ _).bind_silent fun _ =>
          (parses_record _).bind_bytes fun recordBytes => (parses_plain _).bind_bytes fun data =>
            (parses_tell _).bind_silent fun _ => Parses.pure _).of_iff ?_
  intro bytes found
  constructor
  · rintro ⟨htag, rfl, hsize, hformed⟩
    cases found with
    | palette slot colors => cases htag
    | icon name records data =>
        obtain ⟨hname, hnameLe, hrecords, hrecordsLe, hmax⟩ := hformed
        have hnameCount := toNat_ofNat_of_le hnameLe
        have hrecordCount := toNat_ofNat_of_le hrecordsLe
        have hlength := VariantRecord.length_flatMap_bytes records
        rw [hsize] at hmax
        simp only [Section.payload, List.length_cons, List.length_append] at hsize
        have hheading : iconHeadingSize (UInt8.ofNat (Text.utf8Bytes name).length)
            (UInt8.ofNat records.length) =
              1 + (Text.utf8Bytes name).length + 1 + 8 * records.length := by
          rw [iconHeadingSize, hnameCount, hrecordCount]
        -- The witnesses are the fields in the order in which they are read.
        refine ⟨(), decide_eq_true hmax, _, _, rfl, (), ?_, Text.utf8Bytes name, _, rfl, ?_, name,
          rfl, _, _, rfl, (), ?_, (), ?_, records.flatMap VariantRecord.bytes, data, rfl, ?_,
          data, [], ?_, ?_, (), trivial, rfl, ?_⟩
        · rw [word8_singleton]
          exact ofNat_bne_zero hname hnameLe
        · rw [word8_singleton, hnameCount]
        · rw [word8_singleton]
          exact ofNat_bne_zero hrecords hrecordsLe
        · rw [word8_singleton, word8_singleton, hheading]
          exact decide_eq_true (by omega)
        · rw [word8_singleton, hrecordCount, hlength]
        · rw [List.append_nil]
        · rw [word8_singleton, word8_singleton, hheading]
          omega
        · rw [VariantRecord.listOfBytes_flatMap_bytes]
    | other tag payload => exact absurd htag hformed.2.1
  · rintro ⟨_, hmax, length, _, rfl, _, hname, nameBytes, _, rfl, hnameLength, name, rfl, count, _,
      rfl, _, hcount, _, hheading, recordBytes, _, rfl, hrecordBytes, data, _, rfl, hdata, _, _,
      rfl, rfl⟩
    simp only [word8_singleton] at hname hnameLength hcount hheading hrecordBytes hdata
    rw [List.append_nil]
    exact isPayload_icon (of_decide_eq_true hmax) hname hnameLength hcount hrecordBytes
      (of_decide_eq_true hheading) hdata

/-- Bytes end where the stream does or before, exactly if the stream is not behind its end and
has them. -/
theorem position_add_le_ending_iff {state : LoadState} {count : Nat} :
    state.stream.position + count ≤ state.ending ↔
      state.stream.Inside ∧ count ≤ state.stream.rest.length := by
  rw [state.ending_eq, ← inside_skip_iff]
  rfl

theorem ending_lt_of_length_lt {state : LoadState} {count : Nat}
    (hcount : state.stream.rest.length < count) :
    state.ending < state.stream.position + count := by
  apply Nat.not_le.mp
  intro hle
  exact Nat.not_le.mpr hcount (position_add_le_ending_iff.mp hle).2

theorem passOver_of_le {count : Nat} {state : LoadState}
    (hend : state.stream.position + count ≤ state.ending) :
    passOver count state =
      .ok (some (state.stream.rest.take count)) (state.move (state.stream.skip count) rfl) := by
  unfold passOver
  rw [if_neg (Nat.not_lt.mpr hend)]

theorem passOver_of_lt {count : Nat} {state : LoadState}
    (hend : state.ending < state.stream.position + count) :
    passOver count state = .ok none state := by
  unfold passOver
  rw [if_pos hend]

theorem parses_other (tag : Tag) (size : UInt32) :
    Parses (other tag size) fun bytes found =>
      bytes.length = size.toNat ∧ found = .other tag bytes := by
  constructor
  · rintro bytes _ ⟨hlength, rfl⟩ state behind hinside hrest havailable
    have hcount : size.toNat ≤ state.stream.rest.length :=
      hlength ▸ length_le_of_available havailable
    have htaken : state.stream.rest.take size.toNat = bytes := by
      rw [hrest, ← hlength, List.take_left]
    have hend := position_add_le_ending_iff.mpr ⟨hinside, hcount⟩
    unfold other
    rw [bind_of_ok (passOver_of_le hend), htaken, hlength]
    exact ⟨_, rfl, SameContent.refl _⟩
  · intro state after found hrun
    unfold other at hrun
    by_cases hend : state.stream.position + size.toNat ≤ state.ending
    · obtain ⟨-, hcount⟩ := position_add_le_ending_iff.mp hend
      rw [bind_of_ok (passOver_of_le hend)] at hrun
      cases hrun
      have hlength := List.length_take_of_le hcount
      refine ⟨_, _, ⟨hlength, rfl⟩, (List.take_append_drop _ _).symm, ?_⟩
      rw [hlength]
      exact SameContent.refl _
    · rw [bind_of_ok (passOver_of_lt (Nat.not_le.mp hend))] at hrun
      exact absurd hrun refuse_ne_ok

theorem parses_payload (tag : Tag) (size : UInt32) :
    Parses (payload tag size) (IsPayload tag size) := by
  unfold payload
  split
  · rename_i htag
    rw [htag]
    exact parses_palette size
  · rename_i hpalette
    split
    · rename_i htag
      rw [htag]
      exact parses_icon size
    · rename_i hicon
      refine (parses_other tag size).of_iff fun bytes found => ?_
      constructor
      · rintro ⟨rfl, rfl, hlength, _⟩
        refine ⟨hlength, ?_⟩
        cases found with
        | palette slot colors => exact absurd rfl hpalette
        | icon name records data => exact absurd rfl hicon
        | other tag payload => rfl
      · rintro ⟨hlength, rfl⟩
        have hbound := size.toNat_lt
        refine ⟨rfl, rfl, hlength, hpalette, hicon, ?_⟩
        omega

/-! ## Sections -/

theorem parses_size : Parses size fun bytes value => bytes = littleEndian32 value := by
  have htake : Parses (take 4 fun failure => refuse (.sizeUnreadable failure) (.truncatedHeading 4))
      fun bytes value => bytes.length = 4 ∧ value = bytes :=
    parses_take 4 fun _ _ _ _ => refuse_ne_ok
  refine (htake.bind_bytes fun bytes => Parses.pure (word32 bytes)).of_iff fun bytes value => ?_
  constructor
  · rintro rfl
    exact ⟨littleEndian32 value, [], (List.append_nil _).symm, rfl, rfl,
      (word32_littleEndian32 value).symm⟩
  · rintro ⟨taken, _, rfl, hlength, rfl, rfl⟩
    match taken, hlength with
    | [first, second, third, fourth], _ =>
        rw [littleEndian32_word32, List.append_nil]

/-- What a load does behind the tag of a section. -/
def sized (tag : Tag) : Loader (Option Section) := do
  let size ← size
  tell (.sectionBegun tag size)
  return some (← payload tag size)

/-- What follows the tag of a section. -/
def IsSized (tag : Tag) (bytes : Bytes) (found : Option Section) : Prop :=
  ∃ written, found = some written ∧ written.tag = tag ∧ written.WellFormed ∧
    tag.bytes ++ bytes = written.bytes

theorem length_payload_le {written : Section} (hformed : written.WellFormed) :
    written.payload.length ≤ 0xffffffff := by
  cases written with
  | palette slot colors =>
      have hcount : colors.length ≤ 255 := hformed
      have hlength := Palette.length_bytes colors
      simp only [Section.payload, List.length_cons]
      omega
  | icon name records data =>
      have hmax := hformed.2.2.2.2
      exact Nat.le_trans hmax (by decide)
  | other tag payload => exact hformed.2.2

theorem toNat_ofNat_length_payload {written : Section} (hformed : written.WellFormed) :
    (UInt32.ofNat written.payload.length).toNat = written.payload.length := by
  have hle := length_payload_le hformed
  rw [UInt32.toNat_ofNat']
  exact Nat.mod_eq_of_lt (by omega)

theorem parses_sized (tag : Tag) : Parses (sized tag) (IsSized tag) := by
  refine (parses_size.bind fun size => (parses_tell _).bind_silent fun _ =>
    (parses_payload tag size).bind fun found =>
      Parses.pure (some found)).of_iff fun bytes value => ?_
  constructor
  · rintro ⟨found, rfl, rfl, hformed, hbytes⟩
    rw [Section.bytes, Section.heading, List.append_assoc] at hbytes
    refine ⟨UInt32.ofNat found.payload.length, _, _, List.append_cancel_left hbytes, rfl, (),
      trivial, found, found.payload, [], (List.append_nil _).symm, ⟨rfl, rfl, ?_, hformed⟩,
      rfl, rfl⟩
    exact (toNat_ofNat_length_payload hformed).symm
  · rintro ⟨size, _, _, rfl, rfl, _, _, found, _, _, rfl, ⟨rfl, rfl, hlength, hformed⟩, rfl, rfl⟩
    refine ⟨found, rfl, rfl, hformed, ?_⟩
    rw [Section.bytes, Section.heading, hlength, UInt32.ofNat_toNat, List.append_assoc,
      List.append_nil]

/-! ### The tag -/

theorem tag?_of_le {tag : Tag} {state : LoadState} {behind : Bytes}
    (hrest : state.stream.rest = tag.bytes ++ behind) (havailable : 4 ≤ state.stream.available) :
    ∃ after, tag? state = .ok (some tag) after ∧
      SameContent after.stream (state.stream.skip 4) := by
  obtain ⟨after, hrun, same⟩ := exists_fill_eq 4 state
  have htaken : state.stream.rest.take 4 = tag.bytes := by
    rw [hrest]
    rfl
  rw [Nat.min_eq_left havailable] at same
  rw [Nat.min_eq_left havailable, if_pos havailable, htaken] at hrun
  exact ⟨after, bind_of_ok hrun, same⟩

theorem exists_tag_of_le {stream : ByteStream} (havailable : 4 ≤ stream.available) :
    ∃ (tag : Tag) (behind : Bytes), stream.rest = tag.bytes ++ behind := by
  have hlength := Nat.le_trans havailable stream.available_le_length
  match hrest : stream.rest, hlength with
  | first :: second :: third :: fourth :: behind, _ =>
      exact ⟨⟨first, second, third, fourth⟩, behind, rfl⟩

/-- Where a tag does not fit, only the end of the stream is no failure. -/
theorem tagOf?_of_short {bytes : Bytes} {failure : ReadFailure} {state after : LoadState}
    {found : Option Tag} (hlength : bytes.length < 4)
    (hrun : tagOf? ⟨bytes, some failure⟩ state = .ok found after) :
    found = none ∧ bytes = [] ∧ failure = .endOfStream := by
  cases failure with
  | fault reason => cases hrun
  | endOfStream =>
      match bytes, hlength with
      | [], _ =>
          cases hrun
          exact ⟨rfl, rfl, rfl⟩
      | [_], _ => exact absurd hrun refuse_ne_ok
      | [_, _], _ => exact absurd hrun refuse_ne_ok
      | [_, _, _], _ => exact absurd hrun refuse_ne_ok

theorem tag?_of_lt {state after : LoadState} {found : Option Tag}
    (hshort : state.stream.available < 4) (hrun : tag? state = .ok found after) :
    found = none ∧ state.stream.rest = [] ∧ state.stream.shortage = .endOfStream := by
  obtain ⟨between, hfill, _⟩ := exists_fill_eq 4 state
  rw [if_neg (Nat.not_le.mpr hshort), Nat.min_eq_right (Nat.le_of_lt hshort)] at hfill
  have hlength := List.length_take_of_le state.stream.available_le_length
  unfold tag? at hrun
  rw [bind_of_ok hfill] at hrun
  obtain ⟨hfound, htaken, hend⟩ := tagOf?_of_short (by rw [hlength]; exact hshort) hrun
  refine ⟨hfound, ?_, hend⟩
  rwa [available_eq_length hend, List.take_length] at htaken

theorem tag?_sound {tag : Tag} {state after : LoadState}
    (hrun : tag? state = .ok (some tag) after) :
    ∃ behind, state.stream.rest = tag.bytes ++ behind ∧ 4 ≤ state.stream.available ∧
      SameContent after.stream (state.stream.skip 4) := by
  by_cases havailable : 4 ≤ state.stream.available
  · obtain ⟨found, behind, hrest⟩ := exists_tag_of_le havailable
    obtain ⟨between, hbetween, same⟩ := tag?_of_le hrest havailable
    rw [hrun] at hbetween
    cases hbetween
    exact ⟨behind, hrest, havailable, same⟩
  · have hnone := (tag?_of_lt (Nat.not_le.mp havailable) hrun).1
    cases hnone

/-- There is no tag exactly at the end of the stream. -/
theorem exists_tag?_eq_none_iff {state : LoadState} :
    (∃ after, tag? state = .ok none after) ↔
      state.stream.rest = [] ∧ state.stream.shortage = .endOfStream := by
  constructor
  · rintro ⟨after, hrun⟩
    -- With four bytes available there would have been a tag.
    have hshort : state.stream.available < 4 := by
      refine Nat.not_le.mp fun havailable => ?_
      obtain ⟨found, behind, hrest⟩ := exists_tag_of_le havailable
      obtain ⟨between, hbetween, _⟩ := tag?_of_le hrest havailable
      rw [hrun] at hbetween
      cases hbetween
    exact (tag?_of_lt hshort hrun).2
  · rintro ⟨hrest, hend⟩
    have havailable : state.stream.available = 0 := by
      rw [available_eq_length hend, hrest]
      rfl
    obtain ⟨after, hfill, _⟩ := exists_fill_eq 4 state
    rw [havailable, hend, hrest] at hfill
    exact ⟨after, bind_of_ok hfill⟩

/-! ### Whole sections -/

theorem section?_complete {found : Section} (hformed : found.WellFormed) {state : LoadState}
    {behind : Bytes} (hrest : state.stream.rest = found.bytes ++ behind)
    (havailable : found.bytes.length ≤ state.stream.available) :
    ∃ after, section? state = .ok (some found) after ∧
      SameContent after.stream (state.stream.skip found.bytes.length) := by
  obtain ⟨sized, hsized⟩ : ∃ sized, found.bytes = found.tag.bytes ++ sized := by
    rw [Section.bytes, Section.heading, List.append_assoc]
    exact ⟨_, rfl⟩
  rw [hsized, List.append_assoc] at hrest
  have hlength : found.bytes.length = 4 + sized.length := by
    rw [hsized, List.length_append]
    rfl
  have htag : 4 ≤ state.stream.available := by omega
  obtain ⟨between, hbetween, sameBetween⟩ := tag?_of_le hrest htag
  have hinside : state.stream.Inside := by
    apply inside_of_available_pos
    omega
  have hrestBetween : between.stream.rest = sized ++ behind := by
    rw [sameBetween.rest_eq]
    exact rest_skip hrest
  have havailableBetween : sized.length ≤ between.stream.available := by
    rw [sameBetween.available_eq, available_skip]
    omega
  obtain ⟨after, hafter, sameAfter⟩ := (parses_sized found.tag).complete
    ⟨found, rfl, rfl, hformed, hsized.symm⟩
    (sameBetween.inside_of_skip_available hinside htag) hrestBetween havailableBetween
  refine ⟨after, ?_, ?_⟩
  · unfold section?
    rw [bind_of_ok hbetween]
    exact hafter
  · rw [hlength]
    exact (sameAfter.trans (sameBetween.skip _)).trans (sameContent_skip_skip _ _ _)

theorem section?_sound {found : Section} {state after : LoadState}
    (hrun : section? state = .ok (some found) after) :
    found.WellFormed ∧ (∃ behind, state.stream.rest = found.bytes ++ behind) ∧
      SameContent after.stream (state.stream.skip found.bytes.length) := by
  obtain ⟨tag, between, hbetween, hafter⟩ := bind_eq_ok_iff.mp hrun
  cases tag with
  | none => cases hafter
  | some tag =>
      obtain ⟨behindTag, hrest, _, sameBetween⟩ := tag?_sound hbetween
      obtain ⟨sized, behind, ⟨written, hwritten, rfl, hformed, hbytes⟩, hrestBetween, sameAfter⟩ :=
        (parses_sized tag).sound hafter
      cases hwritten
      have hbehind : behindTag = sized ++ behind := by
        rw [← hrestBetween, sameBetween.rest_eq]
        exact (rest_skip hrest).symm
      have hlength : found.bytes.length = 4 + sized.length := by
        rw [← hbytes, List.length_append]
        rfl
      refine ⟨hformed, ⟨behind, ?_⟩, ?_⟩
      · rw [hrest, hbehind, ← List.append_assoc, hbytes]
      · rw [hlength]
        exact (sameAfter.trans (sameBetween.skip _)).trans (sameContent_skip_skip _ _ _)

/-- No section is left exactly at the end of the stream. -/
theorem exists_section?_eq_none_iff {state : LoadState} :
    (∃ after, section? state = .ok none after) ↔
      state.stream.rest = [] ∧ state.stream.shortage = .endOfStream := by
  rw [← exists_tag?_eq_none_iff]
  constructor
  · rintro ⟨after, hrun⟩
    obtain ⟨tag, between, hbetween, hafter⟩ := bind_eq_ok_iff.mp hrun
    cases tag with
    | none => exact ⟨between, hbetween⟩
    | some tag =>
        obtain ⟨_, _, ⟨written, hwritten, _⟩, _⟩ := (parses_sized tag).sound hafter
        cases hwritten
  · rintro ⟨after, hrun⟩
    exact ⟨after, bind_of_ok hrun⟩

/-! ### All sections -/

/-- The sections are none at the end of the stream, and otherwise the first one and those
behind it. -/
theorem sections_eq_ok_iff {found : List Section} {state after : LoadState} :
    sections state = .ok found after ↔
      (section? state = .ok none after ∧ found = []) ∨
        ∃ first between others, section? state = .ok (some first) between ∧
          sections between = .ok others after ∧ found = first :: others := by
  conv => lhs; rw [sections_eq]
  rw [bind_eq_ok_iff]
  constructor
  · rintro ⟨_ | first, between, hfirst, hnext⟩
    · cases hnext
      exact Or.inl ⟨hfirst, rfl⟩
    · obtain ⟨others, hothers, rfl⟩ := map_eq_ok_iff.mp hnext
      exact Or.inr ⟨first, between, others, hfirst, hothers, rfl⟩
  · rintro (⟨hnone, rfl⟩ | ⟨first, between, others, hfirst, hothers, rfl⟩)
    · exact ⟨none, after, hnone, rfl⟩
    · refine ⟨some first, between, hfirst, ?_⟩
      show ((first :: ·) <$> sections) between = _
      exact map_eq_ok_iff.mpr ⟨others, hothers, rfl⟩

theorem sections_complete {found : List Section} (hformed : ∀ written ∈ found, written.WellFormed)
    {state : LoadState} (hrest : state.stream.rest = found.flatMap Section.bytes)
    (hend : state.stream.shortage = .endOfStream) :
    ∃ after, sections state = .ok found after := by
  -- Behind the first section, the stream holds the bytes of the others.
  induction found generalizing state with
  | nil =>
      obtain ⟨after, hnone⟩ := exists_section?_eq_none_iff.mpr ⟨hrest, hend⟩
      exact ⟨after, sections_eq_ok_iff.mpr (Or.inl ⟨hnone, rfl⟩)⟩
  | cons first others ih =>
      rw [List.flatMap_cons] at hrest
      have havailable : first.bytes.length ≤ state.stream.available := by
        rw [available_eq_length hend, hrest, List.length_append]
        omega
      have hformedFirst := hformed first (List.mem_cons_self ..)
      obtain ⟨between, hfirst, same⟩ := section?_complete hformedFirst hrest havailable
      obtain ⟨after, hothers⟩ := ih
        (fun written hwritten => hformed written (List.mem_cons_of_mem _ hwritten))
        (by rw [same.rest_eq, rest_skip hrest])
        (by rw [same.shortage_eq, shortage_skip havailable, hend])
      exact ⟨after, sections_eq_ok_iff.mpr (Or.inr ⟨first, between, others, hfirst, hothers, rfl⟩)⟩

theorem sections_sound {found : List Section} {state after : LoadState}
    (hrun : sections state = .ok found after) :
    (∀ written ∈ found, written.WellFormed) ∧
      state.stream.rest = found.flatMap Section.bytes := by
  induction found generalizing state with
  | nil =>
      rcases sections_eq_ok_iff.mp hrun with ⟨hnone, _⟩ | ⟨_, _, _, _, _, hcons⟩
      · exact ⟨by simp, (exists_section?_eq_none_iff.mp ⟨after, hnone⟩).1⟩
      · cases hcons
  | cons first others ih =>
      rcases sections_eq_ok_iff.mp hrun with ⟨_, hnil⟩ | ⟨_, between, _, hfirst, hothers, hcons⟩
      · cases hnil
      · cases hcons
        obtain ⟨hformed, ⟨behind, hrest⟩, same⟩ := section?_sound hfirst
        obtain ⟨hformedOthers, hrestOthers⟩ := ih hothers
        constructor
        · intro written hwritten
          rcases List.mem_cons.mp hwritten with rfl | hwritten
          · exact hformed
          · exact hformedOthers written hwritten
        · rw [List.flatMap_cons, ← hrestOthers, same.rest_eq, rest_skip hrest, hrest]

/-! ## Packs -/

theorem parses_header : Parses header fun bytes _ => ∃ count, bytes = packHeader count := by
  have htake : Parses
      (take 8 fun failure => refuse (.headerUnreadable failure) .invalidHeader)
      fun bytes value => bytes.length = 8 ∧ value = bytes :=
    parses_take 8 fun _ _ _ _ => refuse_ne_ok
  refine (htake.bind_bytes fun bytes => (parses_require _ _ _).bind_silent fun _ =>
    parses_tell _).of_iff fun bytes _ => ?_
  constructor
  · rintro ⟨count, rfl⟩
    exact ⟨packHeader count, [], (List.append_nil _).symm, rfl, (), rfl, rfl, trivial⟩
  · rintro ⟨taken, _, rfl, hlength, _, hmagic, rfl, _⟩
    rw [beq_iff_eq] at hmagic
    have hcount : (taken.drop 4).length = 4 := by
      rw [List.length_drop, hlength]
    match hdrop : taken.drop 4, hcount with
    | [first, second, third, fourth], _ =>
        refine ⟨word32 [first, second, third, fourth], ?_⟩
        rw [List.append_nil, packHeader, littleEndian32_word32, ← hdrop, ← hmagic,
          List.take_append_drop]

/-- A header that is there is read. -/
theorem header_of_rest_eq {count : UInt32} {state : LoadState} {behind : Bytes}
    (hrest : state.stream.rest = packHeader count ++ behind)
    (havailable : 8 ≤ state.stream.available) :
    ∃ after, header state = .ok () after ∧ SameContent after.stream (state.stream.skip 8) := by
  have hinside : state.stream.Inside := inside_of_available_pos (by omega)
  have hformat : ∃ announced, packHeader count = packHeader announced := ⟨count, rfl⟩
  exact parses_header.complete hformat hinside hrest havailable

theorem pack_complete {count : UInt32} {found : List Section}
    (hformed : ∀ written ∈ found, written.WellFormed) {state : LoadState}
    (hrest : state.stream.rest = packBytes count found)
    (hend : state.stream.shortage = .endOfStream) :
    ∃ after, pack state = .ok (Pack.ofSections found) after := by
  have havailable : 8 ≤ state.stream.available := by
    rw [available_eq_length hend, hrest, packBytes, List.length_append, length_packHeader]
    omega
  obtain ⟨between, hheader, same⟩ := header_of_rest_eq hrest havailable
  have hrestBetween : between.stream.rest = found.flatMap Section.bytes := by
    rw [same.rest_eq]
    exact rest_skip hrest
  have hendBetween : between.stream.shortage = .endOfStream := by
    rw [same.shortage_eq, shortage_skip havailable, hend]
  obtain ⟨behind, hsections⟩ := sections_complete hformed hrestBetween hendBetween
  refine ⟨{ behind with events := behind.events.push (.loaded (Pack.ofSections found).size) }, ?_⟩
  unfold pack
  rw [bind_of_ok hheader, bind_of_ok hsections]
  rfl

theorem pack_sound {found : Pack} {state after : LoadState}
    (hrun : pack state = .ok found after) :
    ∃ count sections, state.stream.rest = packBytes count sections ∧
      (∀ written ∈ sections, written.WellFormed) ∧ found = Pack.ofSections sections := by
  obtain ⟨_, between, hheader, hrun⟩ := bind_eq_ok_iff.mp hrun
  obtain ⟨sections, behind, hsections, hrun⟩ := bind_eq_ok_iff.mp hrun
  obtain ⟨_, _, _, hrun⟩ := bind_eq_ok_iff.mp hrun
  cases hrun
  obtain ⟨_, _, ⟨count, rfl⟩, hrest, same⟩ := parses_header.sound hheader
  obtain ⟨hformed, hrestSections⟩ := sections_sound hsections
  refine ⟨count, sections, ?_, hformed, rfl⟩
  rw [packBytes, ← hrestSections, same.rest_eq, rest_skip hrest, hrest]

end Loader

namespace Pack

open Loader

/-- **A pack is loaded exactly from the bytes of a header and of well-formed sections.**
It is then the pack that these sections make. -/
theorem load_eq_ok_iff {stream : ByteStream} (hend : stream.shortage = .endOfStream)
    {pack : Pack} :
    (load stream).result = .ok pack ↔
      ∃ count sections, stream.rest = packBytes count sections ∧
        (∀ written ∈ sections, written.WellFormed) ∧ pack = ofSections sections := by
  have hpack : (load stream).result = .ok pack ↔
      ∃ after, Loader.pack (.start stream) = .ok pack after := by
    unfold load
    cases Loader.pack (.start stream) <;> simp
  have hstart := LoadState.stream_start stream
  rw [hpack]
  constructor
  · rintro ⟨after, hrun⟩
    rw [← hstart]
    exact pack_sound hrun
  · rintro ⟨count, sections, hrest, hformed, rfl⟩
    rw [← hstart] at hrest hend
    exact pack_complete hformed hrest hend

/-- **Bytes are loaded exactly if they are those of a header and of well-formed
sections.** -/
theorem ofBytes_eq_ok_iff {bytes : Bytes} {pack : Pack} :
    (ofBytes bytes).result = .ok pack ↔
      ∃ count sections, bytes = packBytes count sections ∧
        (∀ written ∈ sections, written.WellFormed) ∧ pack = ofSections sections :=
  load_eq_ok_iff rfl

theorem result_ofBytes_packBytes (count : UInt32) {sections : List Section}
    (hformed : ∀ written ∈ sections, written.WellFormed) :
    (ofBytes (packBytes count sections)).result = .ok (ofSections sections) :=
  ofBytes_eq_ok_iff.mpr ⟨count, sections, rfl, hformed, rfl⟩

end Pack
end VectorIcons
