import Mathlib.Logic.ExistsUnique
import VectorIcons.Proofs.Pack.PassedOver
import VectorIcons.Proofs.Pack.SharedPalettes
import VectorIcons.Proofs.Pack.Shortage

/-!
# Packs that are cut short

A pack that is cut short is loaded exactly if the cut is the end of its header or of one of its
sections, and then it is the pack of the sections before the cut.  Anywhere else the load fails,
and how it fails tells what the cut leaves:

```text
less than a header                       invalidHeader
1, 2 or 3 bytes of a tag                 truncatedHeading, with their number
a tag, less than 4 bytes of a size       truncatedHeading 4
a size, not the whole payload            outOfBounds if it would be passed over,
                                         io or record for palettes and icons
```

## Strategy

The sections before the cut are well formed, so the load fails as it would if the section that
is cut were the first one, `result_ofBytes_take_of_leaves`.  How one section fails is known from
`Section.causes`.
-/

namespace VectorIcons

open ByteStream Loader

/-! ## Places in a pack -/

/-- `bytes` are those of a header and of these sections. -/
def HasSections (bytes : Bytes) (sections : List Section) : Prop :=
  (∃ count, bytes = packBytes count sections) ∧ ∀ written ∈ sections, written.WellFormed

/-- Bytes have no two lists of sections. -/
theorem HasSections.unique {bytes : Bytes} {sections others : List Section}
    (hsections : HasSections bytes sections) (hothers : HasSections bytes others) :
    others = sections := by
  obtain ⟨⟨count, rfl⟩, hformed⟩ := hsections
  obtain ⟨⟨announced, hbytes⟩, hformedOthers⟩ := hothers
  have hbehind := List.append_inj_right hbytes rfl
  have hread := sectionsOf_flatMap_bytes hformed
  rw [hbehind, sectionsOf_flatMap_bytes hformedOthers] at hread
  exact Except.ok.inj hread

/-- Where the last of some sections ends in a pack that begins with them. -/
def endOf (sections : List Section) : Nat := 8 + (sections.flatMap Section.bytes).length

/-- The end of the header or of one of the sections. -/
def AtBoundary (sections : List Section) (place : Nat) : Prop :=
  ∃ before after, sections = before ++ after ∧ place = endOf before

/-- A cut at `place` leaves `left` bytes of the section `broken`, at least one but not all. -/
def Leaves (sections : List Section) (place : Nat) (broken : Section) (left : Nat) : Prop :=
  ∃ before after, sections = before ++ broken :: after ∧ place = endOf before + left ∧
    0 < left ∧ left < broken.bytes.length

theorem endOf_cons (first : Section) (others : List Section) :
    endOf (first :: others) = first.bytes.length + endOf others := by
  unfold endOf
  rw [List.flatMap_cons, List.length_append]
  omega

/-- Behind the header, a cut is a boundary or leaves something of a section. -/
theorem atBoundary_or_exists_leaves {sections : List Section} {place : Nat}
    (hheader : 8 ≤ place) (hplace : place ≤ endOf sections) :
    AtBoundary sections place ∨ ∃ broken left, Leaves sections place broken left := by
  induction sections generalizing place with
  | nil =>
      have hend : place = endOf [] := Nat.le_antisymm hplace hheader
      exact Or.inl ⟨[], [], rfl, hend⟩
  | cons first others ih =>
      rw [endOf_cons] at hplace
      by_cases hfirst : place < 8 + first.bytes.length
      · by_cases hzero : place = 8
        · exact Or.inl ⟨[], first :: others, rfl, hzero⟩
        · refine Or.inr ⟨first, place - 8, [], others, rfl, ?_, by omega, by omega⟩
          show place = 8 + (place - 8)
          omega
      · rcases @ih (place - first.bytes.length) (by omega) (by omega) with
          ⟨before, after, rfl, hbefore⟩ | ⟨broken, left, before, after, rfl, hbefore, hleft⟩
        · refine Or.inl ⟨first :: before, after, rfl, ?_⟩
          rw [endOf_cons]
          omega
        · refine Or.inr ⟨broken, left, first :: before, after, rfl, ?_, hleft⟩
          rw [endOf_cons]
          omega

theorem length_packBytes (count : UInt32) (sections : List Section) :
    (packBytes count sections).length = endOf sections := by
  rw [packBytes, List.length_append, length_packHeader, endOf]

theorem take_packBytes_endOf (count : UInt32) (before after : List Section) :
    (packBytes count (before ++ after)).take (endOf before) = packBytes count before := by
  rw [← length_packBytes count before, packBytes, packBytes, List.flatMap_append,
    ← List.append_assoc, List.take_left]

theorem take_packBytes_endOf_add (count : UInt32) (before after : List Section) (broken : Section)
    {left : Nat} (hleft : left ≤ broken.bytes.length) :
    (packBytes count (before ++ broken :: after)).take (endOf before + left) =
      packHeader count ++ (before.flatMap Section.bytes ++ broken.bytes.take left) := by
  have hsplit : packBytes count (before ++ broken :: after) =
      packBytes count before ++ (broken.bytes ++ after.flatMap Section.bytes) := by
    rw [packBytes, packBytes, List.flatMap_append, List.flatMap_cons, List.append_assoc]
  rw [hsplit, ← length_packBytes count before, List.take_length_add_append,
    List.take_append_of_le_length hleft, packBytes, List.append_assoc]

/-! ## One section that is cut short -/

/-- A load in front of the first bytes of a section. -/
def Section.cut (broken : Section) (left : Nat) : LoadState :=
  .start (.ofBytes (broken.bytes.take left))

namespace Section

variable {broken : Section} {left : Nat}

theorem available_cut (hleft : left < broken.bytes.length) :
    (broken.cut left).stream.available = left :=
  List.length_take_of_le (Nat.le_of_lt hleft)

theorem agrees_cut (hleft : left < broken.bytes.length) :
    (broken.cut left).stream.Agrees broken.bytes := by
  unfold ByteStream.Agrees
  rw [available_cut hleft]
  show (broken.bytes.take left).take left = _
  rw [List.take_take, Nat.min_self]

theorem given_section?_cut_of_tag (hleft : left < broken.bytes.length) (hpos : 0 < left)
    (htag : left < 4) :
    given (Loader.section? (broken.cut left)) = .error (.truncatedHeading left) := by
  have havailable := available_cut hleft
  rw [given_section?_of_cut_tag (by omega) (by omega) rfl, havailable]

theorem given_section?_cut_of_cause {cause : ReadFailure → LoadError}
    (hformed : broken.WellFormed) (hleft : left < broken.bytes.length) (htag : 4 ≤ left)
    (hcause : (List.replicate 4 (fun _ => .truncatedHeading 4) ++ broken.causes)[left - 4]? =
      some cause) :
    given (Loader.section? (broken.cut left)) = .error (cause .endOfStream) := by
  have havailable := available_cut hleft
  exact given_section?_of_cause hformed (agrees_cut hleft) (by omega) (by rwa [havailable])

theorem given_section?_cut_of_size (hformed : broken.WellFormed)
    (hleft : left < broken.bytes.length) (htag : 4 ≤ left) (hsize : left < 8) :
    given (Loader.section? (broken.cut left)) = .error (.truncatedHeading 4) := by
  have hcause : (List.replicate 4 (fun _ => LoadError.truncatedHeading 4) ++ broken.causes)[
      left - 4]? = some fun _ => .truncatedHeading 4 := by
    rw [List.getElem?_append_left (by rw [List.length_replicate]; omega), List.getElem?_replicate,
      if_pos (by omega)]
  exact given_section?_cut_of_cause hformed hleft htag hcause

/-- In the payload of a palette or an icon, each byte has a cause. -/
theorem exists_given_section?_cut (hformed : broken.WellFormed)
    (hkind : broken.tag = .palette ∨ broken.tag = .icon) (hleft : left < broken.bytes.length)
    (hheading : 8 ≤ left) :
    ∃ cause, broken.causes[left - 8]? = some cause ∧
      given (Loader.section? (broken.cut left)) = .error (cause .endOfStream) := by
  have hlength : left - 8 < broken.causes.length := by
    rw [length_causes hkind hformed]
    rw [length_bytes] at hleft
    omega
  refine ⟨broken.causes[left - 8], List.getElem?_eq_getElem hlength, ?_⟩
  apply given_section?_cut_of_cause hformed hleft (by omega)
  rw [List.getElem?_append_right (by rw [List.length_replicate]; omega), List.length_replicate,
    Nat.sub_sub, List.getElem?_eq_getElem hlength]

theorem given_section?_cut_of_other {tag : Tag} {bytes : Bytes}
    (hformed : (other tag bytes).WellFormed) (hleft : left < (other tag bytes).bytes.length)
    (hheading : 8 ≤ left) :
    given (Loader.section? ((other tag bytes).cut left)) =
      .error (.outOfBounds tag (UInt32.ofNat bytes.length)) := by
  have hrest : ((other tag bytes).cut left).stream.rest.length = left := available_cut hleft
  have havailable := available_cut hleft
  exact given_section?_of_outOfBounds hformed (agrees_cut hleft) (by omega) (by omega)

/-- A section that is cut short is never read. -/
theorem exists_given_section?_cut_eq_error (hformed : broken.WellFormed)
    (hleft : left < broken.bytes.length) (hpos : 0 < left) :
    ∃ cause, given (Loader.section? (broken.cut left)) = .error cause := by
  by_cases htag : left < 4
  · exact ⟨_, given_section?_cut_of_tag hleft hpos htag⟩
  by_cases hsize : left < 8
  · exact ⟨_, given_section?_cut_of_size hformed hleft (by omega) hsize⟩
  by_cases hkind : broken.tag = .palette ∨ broken.tag = .icon
  · obtain ⟨cause, -, hcut⟩ := exists_given_section?_cut hformed hkind hleft (by omega)
    exact ⟨_, hcut⟩
  · cases broken with
    | palette slot colors => exact absurd (Or.inl rfl) hkind
    | icon name records data => exact absurd (Or.inr rfl) hkind
    | other tag bytes => exact ⟨_, given_section?_cut_of_other hformed hleft (by omega)⟩

end Section

/-! ## Packs that are cut short -/

theorem take_packHeader (count : UInt32) : (packHeader count).take 4 = packMagic := rfl

/-- What is shorter than a header is no pack. -/
theorem Pack.result_ofBytes_of_length_lt {bytes : Bytes} (hshort : bytes.length < 8) :
    (Pack.ofBytes bytes).result = .error .invalidHeader :=
  Pack.result_load_of_available_lt hshort

/-- A pack is what sections make: their icons in order, the last one under each name, and one
table with their palettes. -/
structure Pack.MadeOf (pack : Pack) (sections : List Section) : Prop where
  eq_ofSections : pack = ofSections sections
  icons : pack.icons.map Icon.content = sections.filterMap Section.content?
  lookup : pack.FindsLast
  palettes : SharesPalettes sections pack

theorem Pack.madeOf_ofSections (sections : List Section) : (ofSections sections).MadeOf sections :=
  ⟨rfl, map_content_icons_ofSections sections, findsLast_ofSections sections,
    sharesPalettes_ofSections sections⟩

/-- How loading a pack with the given sections ends if it is cut at `place`. -/
structure CutShort (sections : List Section) (place : Nat) (result : Except LoadError Pack) :
    Prop where
  /-- A cut is in the header, at a boundary, or leaves something of a section. -/
  somewhere : place < 8 ∨ AtBoundary sections place ∨
    ∃ broken left, Leaves sections place broken left
  /-- There is a pack exactly at a boundary. -/
  ok_iff : (∃ pack, result = .ok pack) ↔ AtBoundary sections place
  /-- It is then the pack of the sections before the cut. -/
  boundary : ∀ before after, sections = before ++ after → place = endOf before →
    ∃ pack, result = .ok pack ∧ pack.MadeOf before
  header : place < 8 → result = .error .invalidHeader
  tag : ∀ broken left, Leaves sections place broken left → left < 4 →
    result = .error (.truncatedHeading left)
  size : ∀ broken left, Leaves sections place broken left → 4 ≤ left → left < 8 →
    result = .error (.truncatedHeading 4)
  /-- A payload that would be passed over. -/
  passedOver : ∀ tag payload left, Leaves sections place (.other tag payload) left → 8 ≤ left →
    ∃ size, size.toNat = payload.length ∧ result = .error (.outOfBounds tag size)
  /-- A payload that is read fails with the cause of the first byte that is cut off. -/
  payload : ∀ broken left, Leaves sections place broken left → 8 ≤ left →
    broken.tag = .palette ∨ broken.tag = .icon →
    ∃ cause, broken.causes[left - 8]? = some cause ∧ (cause = .io ∨ cause = .record) ∧
      result = .error (cause .endOfStream)

/-- A pack that is cut in a section fails as this section does. -/
theorem result_ofBytes_take_of_leaves (count : UInt32) {sections : List Section}
    (hformed : ∀ written ∈ sections, written.WellFormed) {place left : Nat} {broken : Section}
    (hleaves : Leaves sections place broken left) :
    broken.WellFormed ∧ 0 < left ∧ left < broken.bytes.length ∧ ∀ cause,
      given (Loader.section? (broken.cut left)) = .error cause →
        (Pack.ofBytes ((packBytes count sections).take place)).result = .error cause := by
  obtain ⟨before, after, rfl, rfl, hpos, hleft⟩ := hleaves
  obtain ⟨hbefore, hothers⟩ := List.forall_mem_append.mp hformed
  refine ⟨hothers broken (List.mem_cons_self ..), hpos, hleft, ?_⟩
  intro cause hbroken
  rw [take_packBytes_endOf_add count before after broken (Nat.le_of_lt hleft),
    Pack.result_ofBytes_append (length_packHeader count), take_packHeader, if_pos rfl,
    sectionsOf_append hbefore, sectionsOf_eq_error hbroken]
  rfl

theorem result_ofBytes_take_of_boundary (count : UInt32) {before after : List Section}
    (hformed : ∀ written ∈ before ++ after, written.WellFormed) :
    (Pack.ofBytes ((packBytes count (before ++ after)).take (endOf before))).result =
      .ok (Pack.ofSections before) := by
  rw [take_packBytes_endOf]
  exact Pack.result_ofBytes_packBytes count (List.forall_mem_append.mp hformed).1

theorem cutShort_packBytes (count : UInt32) {sections : List Section}
    (hformed : ∀ written ∈ sections, written.WellFormed) {place : Nat}
    (hplace : place ≤ endOf sections) :
    CutShort sections place (Pack.ofBytes ((packBytes count sections).take place)).result := by
  have hsomewhere : place < 8 ∨ AtBoundary sections place ∨
      ∃ broken left, Leaves sections place broken left := by
    by_cases hheader : place < 8
    · exact Or.inl hheader
    · exact Or.inr (atBoundary_or_exists_leaves (Nat.not_lt.mp hheader) hplace)
  have hshort : place < 8 →
      (Pack.ofBytes ((packBytes count sections).take place)).result = .error .invalidHeader := by
    intro hheader
    apply Pack.result_ofBytes_of_length_lt
    rw [List.length_take]
    omega
  constructor
  case somewhere => exact hsomewhere
  case ok_iff =>
    constructor
    · rintro ⟨pack, hpack⟩
      rcases hsomewhere with hheader | hboundary | ⟨broken, left, hleaves⟩
      · rw [hshort hheader] at hpack
        cases hpack
      · exact hboundary
      · obtain ⟨hbroken, hpos, hleft, hfails⟩ := result_ofBytes_take_of_leaves count hformed hleaves
        obtain ⟨cause, hcut⟩ := Section.exists_given_section?_cut_eq_error hbroken hleft hpos
        rw [hfails cause hcut] at hpack
        cases hpack
    · rintro ⟨before, after, rfl, rfl⟩
      exact ⟨_, result_ofBytes_take_of_boundary count hformed⟩
  case boundary =>
    rintro before after rfl rfl
    exact ⟨_, result_ofBytes_take_of_boundary count hformed, Pack.madeOf_ofSections before⟩
  case header => exact hshort
  case tag =>
    intro broken left hleaves htag
    obtain ⟨hbroken, hpos, hleft, hfails⟩ := result_ofBytes_take_of_leaves count hformed hleaves
    exact hfails _ (Section.given_section?_cut_of_tag hleft hpos htag)
  case size =>
    intro broken left hleaves htag hsize
    obtain ⟨hbroken, hpos, hleft, hfails⟩ := result_ofBytes_take_of_leaves count hformed hleaves
    exact hfails _ (Section.given_section?_cut_of_size hbroken hleft htag hsize)
  case passedOver =>
    intro tag payload left hleaves hheading
    obtain ⟨hbroken, hpos, hleft, hfails⟩ := result_ofBytes_take_of_leaves count hformed hleaves
    exact ⟨_, toNat_ofNat_length_payload hbroken,
      hfails _ (Section.given_section?_cut_of_other hbroken hleft hheading)⟩
  case payload =>
    intro broken left hleaves hheading hkind
    obtain ⟨hbroken, hpos, hleft, hfails⟩ := result_ofBytes_take_of_leaves count hformed hleaves
    obtain ⟨cause, hcause, hcut⟩ :=
      Section.exists_given_section?_cut hbroken hkind hleft hheading
    exact ⟨cause, hcause,
      Section.eq_io_or_eq_record_of_mem_causes (List.mem_of_getElem? hcause), hfails _ hcut⟩

/-- **A pack that is cut short is loaded exactly if the cut is the end of its header or of one
of its sections**, and how the load of any other cut fails tells what it leaves. -/
theorem cutShort_of_ofBytes {bytes : Bytes} {pack : Pack}
    (hloaded : (Pack.ofBytes bytes).result = .ok pack) :
    (∃! sections, HasSections bytes sections) ∧
      ∀ sections, HasSections bytes sections →
        pack.MadeOf sections ∧
          ∀ place < bytes.length,
            CutShort sections place (Pack.ofBytes (bytes.take place)).result := by
  obtain ⟨count, sections, rfl, hformed, rfl⟩ := Pack.ofBytes_eq_ok_iff.mp hloaded
  have hsections : HasSections (packBytes count sections) sections := ⟨⟨count, rfl⟩, hformed⟩
  constructor
  · refine ⟨sections, hsections, ?_⟩
    intro others hothers
    exact hsections.unique hothers
  · intro others hothers
    rw [hsections.unique hothers]
    refine ⟨Pack.madeOf_ofSections sections, ?_⟩
    intro place hplace
    rw [length_packBytes] at hplace
    exact cutShort_packBytes count hformed (Nat.le_of_lt hplace)

/-- A palette, a section that is passed over, and an icon. -/
theorem cutShort_of_ofBytes_of_three_sections :
    let sections : List Section :=
      [.palette 0 [⟨1, 2, 3, 4⟩], .other ⟨0x58, 0x58, 0x58, 0x58⟩ [1, 2, 3],
        .icon "a" [⟨1, 1, 0⟩] []]
    (Pack.ofBytes (packBytes 1 sections)).result = .ok (Pack.ofSections sections) ∧
      (∃! written, HasSections (packBytes 1 sections) written) ∧
      ∀ written, HasSections (packBytes 1 sections) written →
        (Pack.ofSections sections).MadeOf written ∧
          ∀ place < (packBytes 1 sections).length,
            CutShort written place (Pack.ofBytes ((packBytes 1 sections).take place)).result := by
  intro sections
  have hformed : ∀ written ∈ sections, written.WellFormed := by decide +kernel
  have hloaded := Pack.result_ofBytes_packBytes 1 hformed
  exact ⟨hloaded, cutShort_of_ofBytes hloaded⟩

end VectorIcons
