import VectorIcons.Proofs.Pack.Grammar
import VectorIcons.Proofs.Pack.Steadiness

/-!
# Sections that are passed over

A section that is neither a palette nor an icon makes no difference, wherever it stands and
whatever it holds: with it and without it, a load gives the same pack or fails for the same
reason, `result_ofBytes_insert_other`.  What stands behind it may be anything.

## Strategy

`sectionsOf` is what a load makes of the bytes behind the header.  Well-formed sections in
front of other bytes only put themselves before what the other bytes give,
`sectionsOf_append`: a load that has read them goes on as if it began there, because
neither the reads that it has made nor where it stands is part of the content of its stream.
And a section that is passed over adds nothing to a pack.
-/

namespace VectorIcons

open ByteStream

/-- What is left of a stream without a fault gives the same as a stream of its own. -/
theorem ByteStream.sameContent_ofBytes {stream : ByteStream} (hinside : stream.Inside)
    (hfault : stream.faultAhead = none) : SameContent stream (.ofBytes stream.rest) :=
  ⟨rfl, hfault, iff_of_true hinside (inside_ofBytes _)⟩

theorem ByteStream.sameContent_skip_ofBytes (front behind : Bytes) :
    SameContent ((ofBytes (front ++ behind)).skip front.length) (.ofBytes behind) := by
  have hinside : ((ofBytes (front ++ behind)).skip front.length).Inside := by
    refine inside_skip_iff.mpr ⟨inside_ofBytes _, ?_⟩
    show front.length ≤ (front ++ behind).length
    simp
  have same := sameContent_ofBytes hinside rfl
  rwa [rest_skip rfl] at same

namespace Loader

/-! ## Sections behind a header -/

/-- The sections that a load finds in the bytes behind the header of a pack. -/
def sectionsOf (bytes : Bytes) : Except LoadError (List Section) :=
  given (sections (.start (.ofBytes bytes)))

/-- A load that has come to a place in the bytes goes on as if it began there. -/
theorem given_sections_eq_sectionsOf {state : LoadState} {bytes : Bytes}
    (same : SameContent state.stream (.ofBytes bytes)) :
    given (sections state) = sectionsOf bytes :=
  (steady_sections state (.start (.ofBytes bytes)) same).given_eq

theorem sectionsOf_nil : sectionsOf [] = .ok [] := by
  obtain ⟨after, hrun⟩ : ∃ after, sections (.start (.ofBytes [])) = .ok [] after :=
    sections_complete (by simp) rfl rfl
  rw [sectionsOf, hrun]
  rfl

/-- A well-formed section is read wherever it stands at the front. -/
theorem exists_section?_ofBytes {written : Section} (hformed : written.WellFormed)
    (behind : Bytes) :
    ∃ between, Loader.section? (.start (.ofBytes (written.bytes ++ behind))) =
        .ok (some written) between ∧
      SameContent between.stream (.ofBytes behind) := by
  have havailable : written.bytes.length ≤
      (ByteStream.ofBytes (written.bytes ++ behind)).available := by
    show _ ≤ (written.bytes ++ behind).length
    rw [List.length_append]
    omega
  obtain ⟨between, hsection, same⟩ : ∃ between,
      Loader.section? (.start (.ofBytes (written.bytes ++ behind))) =
          .ok (some written) between ∧
        SameContent between.stream
          ((ByteStream.ofBytes (written.bytes ++ behind)).skip written.bytes.length) :=
    Loader.section?_complete hformed rfl havailable
  exact ⟨between, hsection, same.trans (sameContent_skip_ofBytes _ _)⟩

theorem sectionsOf_bytes_append {written : Section} (hformed : written.WellFormed)
    (behind : Bytes) :
    sectionsOf (written.bytes ++ behind) = (sectionsOf behind).map (written :: ·) := by
  obtain ⟨between, hsection, same⟩ := exists_section?_ofBytes hformed behind
  rw [sectionsOf, sections_eq, given_bind_of_ok hsection]
  show given (((written :: ·) <$> sections) between) = _
  rw [given_map, given_sections_eq_sectionsOf same]

/-- Well-formed sections put themselves before what comes behind them. -/
theorem sectionsOf_append {earlier : List Section}
    (hformed : ∀ written ∈ earlier, written.WellFormed) (behind : Bytes) :
    sectionsOf (earlier.flatMap Section.bytes ++ behind) =
      (sectionsOf behind).map (earlier ++ ·) := by
  induction earlier with
  | nil => cases hbehind : sectionsOf behind <;> simp [hbehind, Except.map]
  | cons first others ih =>
      obtain ⟨hfirst, hothers⟩ := List.forall_mem_cons.mp hformed
      rw [List.flatMap_cons, List.append_assoc, sectionsOf_bytes_append hfirst, ih hothers]
      cases sectionsOf behind <;> rfl

theorem sectionsOf_flatMap_bytes {sections : List Section}
    (hformed : ∀ written ∈ sections, written.WellFormed) :
    sectionsOf (sections.flatMap Section.bytes) = .ok sections := by
  calc sectionsOf (sections.flatMap Section.bytes)
      = sectionsOf (sections.flatMap Section.bytes ++ []) := by rw [List.append_nil]
    _ = (sectionsOf []).map (sections ++ ·) := sectionsOf_append hformed []
    _ = .ok (sections ++ []) := by rw [sectionsOf_nil]; rfl
    _ = .ok sections := by rw [List.append_nil]

/-- What fails in the first section fails in all. -/
theorem given_sections_of_error {state : LoadState} {cause : LoadError}
    (hsection : given (section? state) = .error cause) :
    given (sections state) = .error cause := by
  rw [sections_eq, given_bind_of_error hsection]

theorem sectionsOf_eq_error {bytes : Bytes} {cause : LoadError}
    (hsection : given (section? (.start (.ofBytes bytes))) = .error cause) :
    sectionsOf bytes = .error cause :=
  given_sections_of_error hsection

/-! ## Headers -/

theorem given_header_of_lt {state : LoadState} (hshort : state.stream.available < 8) :
    given (header state) = .error .invalidHeader := by
  obtain ⟨between, hrefuse⟩ : ∃ between,
      take 8 (fun failure => refuse (.headerUnreadable failure) .invalidHeader) state =
        refuse (.headerUnreadable state.stream.shortage) .invalidHeader between :=
    take_of_lt _ hshort
  apply given_bind_of_error
  rw [hrefuse]
  rfl

/-- Of a header only its first four bytes are checked. -/
theorem header_of_length {heading behind : Bytes} (hlength : heading.length = 8) :
    if heading.take 4 = packMagic then
      ∃ between, header (.start (.ofBytes (heading ++ behind))) = .ok () between ∧
        SameContent between.stream (.ofBytes behind)
    else given (header (.start (.ofBytes (heading ++ behind)))) = .error .invalidHeader := by
  have havailable : 8 ≤ (ByteStream.ofBytes (heading ++ behind)).available := by
    show 8 ≤ (heading ++ behind).length
    rw [List.length_append]
    omega
  obtain ⟨between, htake, same⟩ : ∃ between,
      take 8 (fun failure => refuse (.headerUnreadable failure) .invalidHeader)
          (.start (.ofBytes (heading ++ behind))) = .ok ((heading ++ behind).take 8) between ∧
        SameContent between.stream ((ByteStream.ofBytes (heading ++ behind)).skip 8) :=
    take_of_le _ havailable
  rw [List.take_left' hlength] at htake
  rw [← hlength] at same
  have hbetween : SameContent between.stream (.ofBytes behind) :=
    same.trans (sameContent_skip_ofBytes _ _)
  unfold header
  rw [bind_of_ok htake]
  by_cases hmagic : heading.take 4 = packMagic
  · rw [if_pos hmagic, require, if_pos (beq_iff_eq.mpr hmagic)]
    exact ⟨_, rfl, hbetween⟩
  · rw [if_neg hmagic, require, if_neg (by rwa [beq_iff_eq])]
    rfl

end Loader

open Loader

/-- Where less than a header can be read, there is no pack. -/
theorem Pack.result_load_of_available_lt {stream : ByteStream} (hshort : stream.available < 8) :
    (Pack.load stream).result = .error .invalidHeader := by
  rw [Pack.result_load]
  apply given_bind_of_error
  apply given_header_of_lt
  rwa [LoadState.stream_start]

theorem Pack.result_ofBytes_append {heading : Bytes} (hlength : heading.length = 8)
    (behind : Bytes) :
    (Pack.ofBytes (heading ++ behind)).result =
      if heading.take 4 = packMagic then (sectionsOf behind).map Pack.ofSections
      else .error .invalidHeader := by
  have hheader := @header_of_length heading behind hlength
  rw [Pack.ofBytes, Pack.result_load]
  unfold Loader.pack
  split at hheader
  · rename_i hmagic
    obtain ⟨between, hrun, same⟩ := hheader
    have hsections : given (sections between) = sectionsOf behind :=
      given_sections_eq_sectionsOf same
    rw [given_bind_of_ok hrun, if_pos hmagic, ← hsections]
    show given (EStateM.bind sections _ between) = _
    unfold EStateM.bind
    cases sections between <;> rfl
  · rename_i hmagic
    rw [if_neg hmagic, given_bind_of_error hheader]

/-- Sections that are neither palettes nor icons add nothing to a pack. -/
theorem Pack.ofSections_insert_other (earlier later : List Section) (tag : Tag) (payload : Bytes) :
    ofSections (earlier ++ .other tag payload :: later) = ofSections (earlier ++ later) := by
  rw [ofSections, ofSections, Assembly.ofSections, Assembly.ofSections, List.foldl_append,
    List.foldl_append, List.foldl_cons]
  rfl

/-- **A section with any other tag makes no difference**, wherever it stands among
well-formed sections, whatever it holds, and whatever bytes come behind it. -/
theorem result_ofBytes_insert_other {heading earlier payload : Bytes}
    {described : List IconContent} {tag : Tag} {size : UInt32} (hheading : heading.length = 8)
    (hearlier : SectionsForm earlier described) (hpalette : tag ≠ .palette) (hicon : tag ≠ .icon)
    (hsize : payload.length = size.toNat) (behind : Bytes) :
    (Pack.ofBytes
        (heading ++ earlier ++ (tag.bytes ++ littleEndian32 size ++ payload) ++ behind)).result =
      (Pack.ofBytes (heading ++ earlier ++ behind)).result := by
  obtain ⟨sections, rfl, hformed, -⟩ := sectionsForm_iff.mp hearlier
  have hother : (Section.other tag payload).WellFormed := by
    have hbound := size.toNat_lt
    exact ⟨hpalette, hicon, by omega⟩
  have hbytes : tag.bytes ++ littleEndian32 size ++ payload =
      (Section.other tag payload).bytes := by
    rw [Section.bytes, Section.heading, Section.payload, hsize, UInt32.ofNat_toNat]
    rfl
  have hsections : (sectionsOf (sections.flatMap Section.bytes ++
        ((Section.other tag payload).bytes ++ behind))).map Pack.ofSections =
      (sectionsOf (sections.flatMap Section.bytes ++ behind)).map Pack.ofSections := by
    rw [sectionsOf_append hformed, sectionsOf_append hformed, sectionsOf_bytes_append hother]
    cases sectionsOf behind with
    | error cause => rfl
    | ok later => exact congrArg Except.ok (Pack.ofSections_insert_other sections later tag payload)
  rw [hbytes]
  simp only [List.append_assoc]
  rw [Pack.result_ofBytes_append hheading, Pack.result_ofBytes_append hheading, hsections]

/-- A section that holds the bytes of a palette section, between an icon and a tag that is cut
short. -/
theorem result_ofBytes_insert_other_before_cut_tag :
    let earlier := (Section.icon "a" [⟨1, 1, 0⟩] []).bytes
    let payload := (Section.palette 0 [⟨1, 2, 3, 4⟩]).bytes
    (packHeader 9).length = 8 ∧ SectionsForm earlier [⟨"a", [⟨1, 1, 0⟩], []⟩] ∧
      (⟨0x58, 0x58, 0x58, 0x58⟩ : Tag) ≠ .palette ∧ (⟨0x58, 0x58, 0x58, 0x58⟩ : Tag) ≠ .icon ∧
      payload.length = (14 : UInt32).toNat ∧
      (Pack.ofBytes (packHeader 9 ++ earlier ++
          (Tag.bytes ⟨0x58, 0x58, 0x58, 0x58⟩ ++ littleEndian32 14 ++ payload) ++
            [0x49, 0x43])).result =
        (Pack.ofBytes (packHeader 9 ++ earlier ++ [0x49, 0x43])).result := by
  intro earlier payload
  have hearlier : SectionsForm earlier [⟨"a", [⟨1, 1, 0⟩], []⟩] :=
    sectionsForm_iff.mpr ⟨[.icon "a" [⟨1, 1, 0⟩] []], rfl, by decide +kernel, rfl⟩
  have hpalette : (⟨0x58, 0x58, 0x58, 0x58⟩ : Tag) ≠ .palette := by decide
  have hicon : (⟨0x58, 0x58, 0x58, 0x58⟩ : Tag) ≠ .icon := by decide
  exact ⟨rfl, hearlier, hpalette, hicon, rfl,
    result_ofBytes_insert_other rfl hearlier hpalette hicon rfl [0x49, 0x43]⟩

end VectorIcons
