import VectorIcons.Proofs.Pack.Contents
import VectorIcons.Proofs.Pack.SectionParsing

/-!
# The grammar of packs

The format of a pack, stated without the loader or the builder:

```text
pack      "icpk"  any four bytes  sections
section   tag (4)  size (4, low byte first)  payload of that size
PALT      slot  n  4 n bytes
ICON      n  n bytes  k  k records  any bytes, 1 MiB in all at most
record    width (2)  height (2)  size (4), each low byte first
```

with `n` and `k` of an icon at least one and its `n` bytes the UTF-8 of a name.  Sections with
other tags have any payload.

`packForm_iff` says that loading accepts exactly these packs, and what icons it gives.

## Strategy

A section in the sense of the grammar is a well-formed `Section` and the other way
round, `sectionsForm_iff`.  So a derivation is a list of well-formed sections, which
`ofBytes_eq_ok_iff` ties to loading.
-/

namespace VectorIcons

/-! ## The grammar -/

/-- What an icon section says of its icon. -/
structure IconContent where
  name : String
  records : List VariantRecord
  data : Bytes
deriving DecidableEq, Repr

/-- What an icon says apart from the places of its variants and its colors. -/
def Icon.content (icon : Icon) : IconContent :=
  ⟨icon.name, icon.variants.map Variant.record, icon.data⟩

/-- The payloads that a section with a given tag may have, and the icon that such a
payload describes, if it is that of an icon. -/
inductive PayloadForm : Tag → Bytes → Option IconContent → Prop
  | palette (slot count : UInt8) (colors : Bytes) (hcolors : colors.length = 4 * count.toNat) :
      PayloadForm .palette (slot :: count :: colors) none
  | icon (nameLength variantCount : UInt8) (nameBytes data : Bytes) (name : String)
      (records : List VariantRecord) (hnameLength : nameBytes.length = nameLength.toNat)
      (hnamePos : 0 < nameLength.toNat) (hname : nameBytes = Text.utf8Bytes name)
      (hrecords : records.length = variantCount.toNat) (hvariantPos : 0 < variantCount.toNat)
      (hsize : (nameLength :: (nameBytes ++ variantCount ::
        (records.flatMap VariantRecord.bytes ++ data))).length ≤ 0x100000) :
      PayloadForm .icon
        (nameLength :: (nameBytes ++ variantCount ::
          (records.flatMap VariantRecord.bytes ++ data)))
        (some ⟨name, records, data⟩)
  | other (tag : Tag) (payload : Bytes) (hpalette : tag ≠ .palette) (hicon : tag ≠ .icon) :
      PayloadForm tag payload none

/-- The bytes of sections one after another, and the icons that they describe. -/
inductive SectionsForm : Bytes → List IconContent → Prop
  | nil : SectionsForm [] []
  | cons (tag : Tag) (size : UInt32) (payload behind : Bytes) (described : Option IconContent)
      (others : List IconContent) (hsize : payload.length = size.toNat)
      (hpayload : PayloadForm tag payload described) (hbehind : SectionsForm behind others) :
      SectionsForm (tag.bytes ++ littleEndian32 size ++ payload ++ behind)
        (described.toList ++ others)

/-- The bytes of a pack, and the icons that it describes. -/
inductive PackForm : Bytes → List IconContent → Prop
  | pack (announced body : Bytes) (described : List IconContent) (hannounced : announced.length = 4)
      (hbody : SectionsForm body described) :
      PackForm ([0x69, 0x63, 0x70, 0x6b] ++ announced ++ body) described

/-! ## Sections of the grammar -/

/-- The icon that a section describes. -/
def Section.content? : Section → Option IconContent
  | .icon name records data => some ⟨name, records, data⟩
  | _ => none

theorem payloadForm_of_wellFormed {written : Section} (hformed : written.WellFormed) :
    PayloadForm written.tag written.payload written.content? := by
  cases written with
  | palette slot colors =>
      refine .palette slot _ _ ?_
      rw [Palette.length_bytes, Loader.toNat_ofNat_of_le hformed]
  | icon name records data =>
      obtain ⟨hname, hnameLe, hrecords, hrecordsLe, hmax⟩ := hformed
      have hnameCount := Loader.toNat_ofNat_of_le hnameLe
      have hrecordCount := Loader.toNat_ofNat_of_le hrecordsLe
      exact .icon _ _ _ data name records hnameCount.symm (hnameCount.symm ▸ hname) rfl
        hrecordCount.symm (hrecordCount.symm ▸ hrecords) hmax
  | other tag payload => exact .other tag payload hformed.1 hformed.2.1

/-- A payload of the grammar is that of a well-formed section. -/
theorem exists_wellFormed_of_payloadForm {tag : Tag} {payload : Bytes}
    {described : Option IconContent} (hform : PayloadForm tag payload described)
    (hlength : payload.length ≤ 0xffffffff) :
    ∃ written : Section, written.WellFormed ∧ written.tag = tag ∧ written.payload = payload ∧
      written.content? = described := by
  cases hform with
  | palette slot count colors hcolors =>
      obtain ⟨hbytes, hcount⟩ := Palette.bytes_ofBytes hcolors
      have hbound := count.toNat_lt
      refine ⟨.palette slot (Palette.ofBytes colors), ?_, rfl, ?_, rfl⟩
      · show (Palette.ofBytes colors).length ≤ 255
        omega
      · rw [Section.payload, hbytes, hcount, UInt8.ofNat_toNat]
  | icon nameLength variantCount nameBytes data name records hnameLength hnamePos hname
      hrecords hvariantPos hsize =>
      subst hname
      have hnameBound := nameLength.toNat_lt
      have hvariantBound := variantCount.toNat_lt
      have hpayload : (Section.icon name records data).payload =
          nameLength :: (Text.utf8Bytes name ++ variantCount ::
            (records.flatMap VariantRecord.bytes ++ data)) := by
        simp only [Section.payload, hnameLength, hrecords, UInt8.ofNat_toNat]
      refine ⟨.icon name records data, ⟨?_, ?_, ?_, ?_, ?_⟩, rfl, hpayload, rfl⟩
      · rwa [hnameLength]
      · omega
      · rwa [hrecords]
      · omega
      · rw [hpayload]
        exact hsize
  | other tag payload hpalette hicon =>
      exact ⟨.other tag payload, ⟨hpalette, hicon, hlength⟩, rfl, rfl, rfl⟩

/-- The bytes of sections in the sense of the grammar are those of well-formed sections. -/
theorem sectionsForm_iff {bytes : Bytes} {described : List IconContent} :
    SectionsForm bytes described ↔
      ∃ sections : List Section, bytes = sections.flatMap Section.bytes ∧
        (∀ written ∈ sections, written.WellFormed) ∧
          sections.filterMap Section.content? = described := by
  constructor
  · intro hform
    induction hform with
    | nil => exact ⟨[], rfl, by simp, rfl⟩
    | cons tag size payload behind described others hsize hpayload _ ih =>
        obtain ⟨sections, rfl, hformed, rfl⟩ := ih
        have hbound := size.toNat_lt
        obtain ⟨written, hwritten, rfl, rfl, rfl⟩ :=
          exists_wellFormed_of_payloadForm hpayload (by omega)
        refine ⟨written :: sections, ?_, ?_, ?_⟩
        · rw [List.flatMap_cons, Section.bytes, Section.heading, hsize, UInt32.ofNat_toNat]
        · intro other hother
          rcases List.mem_cons.mp hother with rfl | hother
          · exact hwritten
          · exact hformed other hother
        · cases hcontent : written.content? with
          | none => rw [List.filterMap_cons_none hcontent]; rfl
          | some content => rw [List.filterMap_cons_some hcontent]; rfl
  · rintro ⟨sections, rfl, hformed, rfl⟩
    induction sections with
    | nil => exact .nil
    | cons written rest ih =>
        have hwritten := hformed written (List.mem_cons_self ..)
        have hrest := ih fun other hother => hformed other (List.mem_cons_of_mem _ hother)
        have hform := SectionsForm.cons written.tag (UInt32.ofNat written.payload.length)
          written.payload _ written.content? _
          (Loader.toNat_ofNat_length_payload hwritten).symm (payloadForm_of_wellFormed hwritten)
          hrest
        cases hcontent : written.content? with
        | none =>
            rw [hcontent] at hform
            rw [List.filterMap_cons_none hcontent]
            exact hform
        | some content =>
            rw [hcontent] at hform
            rw [List.filterMap_cons_some hcontent]
            exact hform

theorem packForm_iff_sections {bytes : Bytes} {described : List IconContent} :
    PackForm bytes described ↔
      ∃ count sections, bytes = packBytes count sections ∧
        (∀ written ∈ sections, written.WellFormed) ∧
          sections.filterMap Section.content? = described := by
  constructor
  · rintro ⟨announced, body, _, hannounced, hbody⟩
    obtain ⟨sections, rfl, hformed, hdescribed⟩ := sectionsForm_iff.mp hbody
    match announced, hannounced with
    | [first, second, third, fourth], _ =>
        refine ⟨word32 [first, second, third, fourth], sections, ?_, hformed, hdescribed⟩
        rw [packBytes, packHeader, littleEndian32_word32]
        rfl
  · rintro ⟨count, sections, rfl, hformed, hdescribed⟩
    exact .pack (littleEndian32 count) _ _ rfl
      (sectionsForm_iff.mpr ⟨sections, rfl, hformed, hdescribed⟩)

/-! ## What loading accepts -/

theorem map_content_packedIcons (pack : Pack) (current : Option TableRef)
    (sections : List Section) :
    ((packedIcons current sections).map pack.toIcon).map Icon.content =
      sections.filterMap Section.content? := by
  induction sections generalizing current with
  | nil => rfl
  | cons first rest ih =>
      cases first with
      | palette slot colors => exact ih (some firstTable)
      | icon name records data =>
          rw [packedIcons, List.map_cons, List.map_cons, ih, Icon.content, Pack.toIcon,
            map_record_ofRecords]
          rfl
      | other tag payload => exact ih current

/-- The icons of a pack are those that its sections describe. -/
theorem map_content_icons_ofSections (sections : List Section) :
    (Pack.ofSections sections).icons.map Icon.content = sections.filterMap Section.content? := by
  rw [Pack.icons_ofSections, map_content_packedIcons]

/-- **Loading accepts exactly the packs of the grammar, and gives the icons that they
describe, in their order.** -/
theorem packForm_iff (bytes : Bytes) (described : List IconContent) :
    PackForm bytes described ↔
      ∃ pack, (Pack.ofBytes bytes).result = .ok pack ∧
        pack.icons.map Icon.content = described := by
  rw [packForm_iff_sections]
  constructor
  · rintro ⟨count, sections, hbytes, hformed, rfl⟩
    exact ⟨Pack.ofSections sections,
      Pack.ofBytes_eq_ok_iff.mpr ⟨count, sections, hbytes, hformed, rfl⟩,
      map_content_icons_ofSections sections⟩
  · rintro ⟨pack, hresult, rfl⟩
    obtain ⟨count, sections, hbytes, hformed, rfl⟩ := Pack.ofBytes_eq_ok_iff.mp hresult
    exact ⟨count, sections, hbytes, hformed, (map_content_icons_ofSections sections).symm⟩

end VectorIcons
