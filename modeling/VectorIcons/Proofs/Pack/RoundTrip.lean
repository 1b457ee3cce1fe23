import Mathlib.Algebra.BigOperators.Group.List.Basic
import VectorIcons.Pack.Builder
import VectorIcons.Proofs.Pack.Contents
import VectorIcons.Proofs.Pack.SectionParsing

/-!
# Packs that are built are loaded again

A builder is asked to add palettes, icons and other sections, in any order, and refuses
some of them.  If what it took fits the format, then encoding succeeds, the bytes are
loaded, and the pack holds the icons that were taken: `exists_ofBytes_encode_addAll`.

The format asks less of a builder than `PackBuilder.add` checks in one place only: the
payload of an icon may have at most 1 MiB.  The other conditions of `Addition.Fits` are
that the tags of palettes and icons are left to them, and that sizes can be stated.

## Strategy

An addition that is taken and fits becomes a well-formed section
(`Addition.wellFormed_toSection`), so `ofBytes_eq_ok_iff` gives the pack.  Its icons are
those of the sections in order, and the part of the data at the sum of the earlier
lengths is the program that was put there (`take_drop_flatMap_program`).
-/

namespace VectorIcons

/-! ## The length of some programs -/

/-- How many bytes the programs of some variants have together. -/
def programLength (variants : List VariantProgram) : Nat :=
  (variants.map fun variant => variant.program.length).sum

theorem programLength_take_add {variants : List VariantProgram} {position : Nat}
    {given : VariantProgram} (hgiven : variants[position]? = some given) :
    programLength (variants.take position) + given.program.length =
      programLength (variants.take (position + 1)) := by
  unfold programLength
  rw [List.take_add_one, hgiven]
  simp

theorem programLength_take_le (variants : List VariantProgram) (position : Nat) :
    programLength (variants.take position) ≤ programLength variants := by
  conv => rhs; rw [← List.take_append_drop position variants]
  unfold programLength
  rw [List.map_append, List.sum_append]
  exact Nat.le_add_right _ _

theorem length_program_le {variants : List VariantProgram} {variant : VariantProgram}
    (hvariant : variant ∈ variants) : variant.program.length ≤ programLength variants := by
  obtain ⟨position, hposition⟩ := List.getElem?_of_mem hvariant
  have hadd := programLength_take_add hposition
  have hle := programLength_take_le variants (position + 1)
  omega

theorem length_flatMap_program (variants : List VariantProgram) :
    (variants.flatMap VariantProgram.program).length = programLength variants :=
  List.length_flatMap

/-! ## Asking a builder -/

/-- Whether an addition is an icon. -/
def Addition.isIcon : Addition → Bool
  | .icon _ _ => true
  | _ => false

/-- What a builder checks of an addition. -/
def Addition.Acceptable : Addition → Prop
  | .palette _ colors => colors.length ≤ 255
  | .icon name variants =>
      (0 < (Text.utf8Bytes name).length ∧ (Text.utf8Bytes name).length ≤ 255) ∧
        0 < variants.length ∧ variants.length ≤ 255
  | .other _ _ => True

/-- What the format asks of an addition beyond what a builder checks. -/
def Addition.Fits : Addition → Prop
  | .palette _ _ => True
  | .icon name variants =>
      1 + (Text.utf8Bytes name).length + 1 + 8 * variants.length + programLength variants ≤
        Section.maxIconSize
  | .other tag payload => tag ≠ .palette ∧ tag ≠ .icon ∧ payload.length < 0x100000000

instance (addition : Addition) : Decidable addition.Fits :=
  match addition with
  | .palette _ _ => .isTrue trivial
  | .icon _ _ => inferInstanceAs (Decidable (_ ≤ _))
  | .other _ _ => inferInstanceAs (Decidable (_ ∧ _ ∧ _))

namespace PackBuilder

/-- Whether a builder takes an addition. -/
def accepts (builder : PackBuilder) (addition : Addition) : Bool :=
  (builder.add addition).isOk

/-- The builder after it was asked for several additions, whether it took them or
not. -/
def addAll (builder : PackBuilder) (asked : List Addition) : PackBuilder :=
  asked.foldl (fun before addition => (before.add addition).toOption.getD before) builder

theorem add_eq_ok_iff {builder after : PackBuilder} {addition : Addition} :
    builder.add addition = .ok after ↔
      addition.Acceptable ∧ after = builder.push addition := by
  cases addition with
  | palette slot colors =>
      unfold add addPalette
      dsimp only
      split
      · rename_i hlarge
        simp only [reduceCtorEq, Addition.Acceptable, false_iff]
        omega
      · rename_i hlarge
        rw [Except.ok.injEq, eq_comm, Addition.Acceptable, iff_and_self]
        omega
  | icon name variants =>
      unfold add addIcon
      dsimp only
      split
      · rename_i hname
        simp only [reduceCtorEq, Addition.Acceptable, false_iff]
        omega
      · rename_i hname
        split
        · rename_i hvariants
          simp only [reduceCtorEq, Addition.Acceptable, false_iff]
          omega
        · rename_i hvariants
          rw [Except.ok.injEq, eq_comm, Addition.Acceptable, iff_and_self]
          omega
  | other tag payload =>
      unfold add addOther
      rw [Except.ok.injEq, eq_comm, Addition.Acceptable, true_and]

/-- What a builder takes does not depend on what was added before. -/
theorem accepts_iff {builder : PackBuilder} {addition : Addition} :
    builder.accepts addition = true ↔ addition.Acceptable := by
  unfold accepts
  cases hadd : builder.add addition with
  | ok after => simp [Except.isOk, Except.toBool, (add_eq_ok_iff.mp hadd).1]
  | error cause =>
      have hnot : ¬ addition.Acceptable := fun hacceptable => by
        rw [add_eq_ok_iff.mpr ⟨hacceptable, rfl⟩] at hadd
        cases hadd
      simp [Except.isOk, Except.toBool, hnot]

/-- What a builder refuses contributes nothing. -/
theorem additions_addAll (builder : PackBuilder) (asked : List Addition) :
    (builder.addAll asked).additions.toList =
      builder.additions.toList ++ asked.filter empty.accepts := by
  unfold addAll
  induction asked generalizing builder with
  | nil => simp
  | cons addition rest ih =>
      rw [List.foldl_cons, ih]
      by_cases hacceptable : addition.Acceptable
      · rw [add_eq_ok_iff.mpr ⟨hacceptable, rfl⟩,
          List.filter_cons_of_pos (accepts_iff.mpr hacceptable)]
        simp [Except.toOption, push]
      · have hrefused : ¬ empty.accepts addition = true := fun haccepts =>
          hacceptable (accepts_iff.mp haccepts)
        rw [List.filter_cons_of_neg hrefused]
        cases hadd : builder.add addition with
        | ok after => exact absurd (add_eq_ok_iff.mp hadd).1 hacceptable
        | error cause => rfl

end PackBuilder

/-! ## What fits is well formed -/

theorem length_payload_ofPrograms (name : String) (variants : List VariantProgram) :
    (Section.ofPrograms name variants).payload.length =
      1 + (Text.utf8Bytes name).length + 1 + 8 * variants.length + programLength variants := by
  rw [← length_flatMap_program]
  simp only [Section.ofPrograms, Section.payload, List.length_cons, List.length_append,
    VariantRecord.length_flatMap_bytes, List.length_map]
  omega

namespace Addition

theorem wellFormed_toSection {addition : Addition} (hacceptable : addition.Acceptable)
    (hfits : addition.Fits) : addition.toSection.WellFormed := by
  cases addition with
  | palette slot colors => exact hacceptable
  | icon name variants =>
      obtain ⟨⟨hname, hnameLe⟩, hvariants, hvariantsLe⟩ := hacceptable
      refine ⟨hname, hnameLe, ?_, ?_, ?_⟩
      · rwa [List.length_map]
      · rwa [List.length_map]
      · have hlength := length_payload_ofPrograms name variants
        unfold Section.ofPrograms at hlength
        rw [hlength]
        exact hfits
  | other tag payload =>
      obtain ⟨hpalette, hicon, hlength⟩ := hfits
      exact ⟨hpalette, hicon, by omega⟩

theorem programLength_le {name : String} {variants : List VariantProgram}
    (hfits : (icon name variants).Fits) : programLength variants ≤ Section.maxIconSize := by
  unfold Fits at hfits
  omega

theorem unstated?_eq_none {addition : Addition} (hacceptable : addition.Acceptable)
    (hfits : addition.Fits) : addition.unstated? = none := by
  have hpayload := Loader.length_payload_le (wellFormed_toSection hacceptable hfits)
  have hstated : ∀ {length : Nat}, length ≤ maxStatedSize → VectorIcons.unstated? length = none :=
    fun hle => if_pos hle
  unfold unstated?
  rw [List.findSome?_eq_none_iff]
  intro length hlength
  rcases List.mem_append.mp hlength with hprogram | hsection
  · cases addition with
    | icon name variants =>
        obtain ⟨variant, hvariant, rfl⟩ := List.mem_map.mp hprogram
        have hle := Nat.le_trans (length_program_le hvariant) (programLength_le hfits)
        exact hstated (Nat.le_trans hle (by decide))
    | palette slot colors => cases hprogram
    | other tag payload => cases hprogram
  · rw [List.mem_singleton.mp hsection]
    exact hstated hpayload

theorem isIcon_toSection (addition : Addition) : addition.toSection.isIcon = addition.isIcon := by
  cases addition <;> rfl

end Addition

/-! ## The icon that is loaded -/

/-- `icon` is the icon that was added with the given name and variants: each variant is
where it was, and its program is the one that was given. -/
structure Icon.Holds (icon : Icon) (name : String) (variants : List VariantProgram) : Prop where
  name_eq : icon.name = name
  data_eq : icon.data = variants.flatMap VariantProgram.program
  length_variants : icon.variants.length = variants.length
  variant : ∀ (position : Nat) (given : VariantProgram), variants[position]? = some given →
    ∃ placed, icon.variants[position]? = some placed ∧
      placed.width = given.width ∧ placed.height = given.height ∧
      placed.size.toNat = given.program.length ∧
      placed.offset.toNat = programLength (variants.take position) ∧
      icon.program? placed = some given.program

/-- The part of the data that begins where the programs before it end is the program. -/
theorem take_drop_flatMap_program {variants : List VariantProgram} {position : Nat}
    {given : VariantProgram} (hgiven : variants[position]? = some given) :
    ((variants.flatMap VariantProgram.program).drop
      (programLength (variants.take position))).take given.program.length = given.program := by
  obtain ⟨hposition, rfl⟩ := List.getElem?_eq_some_iff.mp hgiven
  -- Dropping as many bytes as the programs before have leaves the programs from here on.
  have hdrop := List.drop_sum_flatten (variants.map VariantProgram.program) position
  rw [List.map_map, ← List.map_take, ← List.flatMap_def, ← List.map_drop,
    List.drop_eq_getElem_cons hposition] at hdrop
  have hlength : programLength (variants.take position) =
      ((variants.take position).map (List.length ∘ VariantProgram.program)).sum := rfl
  rw [hlength, hdrop, List.map_cons, List.flatten_cons]
  exact List.take_left

theorem toNat_ofNat_of_le_maxIconSize {size : Nat} (hsize : size ≤ Section.maxIconSize) :
    (UInt32.ofNat size).toNat = size := by
  have hmax : Section.maxIconSize = 0x100000 := rfl
  rw [UInt32.toNat_ofNat']
  exact Nat.mod_eq_of_lt (by omega)

theorem totalSize_map_record {variants : List VariantProgram}
    (htotal : programLength variants ≤ Section.maxIconSize) :
    totalSize (variants.map VariantProgram.record) = programLength variants := by
  unfold totalSize programLength
  rw [List.map_map]
  congr 1
  refine List.map_congr_left fun variant hvariant => ?_
  exact toNat_ofNat_of_le_maxIconSize (Nat.le_trans (length_program_le hvariant) htotal)

theorem holds_ofPrograms {name : String} {variants : List VariantProgram}
    (htotal : programLength variants ≤ Section.maxIconSize) (palettes : Option PaletteTable) :
    Icon.Holds ⟨name, Variant.ofRecords 0 (variants.map VariantProgram.record),
      variants.flatMap VariantProgram.program, palettes⟩ name variants := by
  refine ⟨rfl, rfl, ?_, ?_⟩
  · rw [length_ofRecords, List.length_map]
  · intro position given hgiven
    have hmax : Section.maxIconSize = 0x100000 := rfl
    have hbefore := programLength_take_le variants position
    have hthrough := programLength_take_le variants (position + 1)
    have hadd := programLength_take_add hgiven
    -- All programs together are far below the largest word, so no offset is cut.
    have hoffset : min (totalSize ((variants.map VariantProgram.record).take position)) 0xffffffff =
        programLength (variants.take position) := by
      rw [← List.map_take, totalSize_map_record (Nat.le_trans hbefore htotal)]
      omega
    have hplaced := getElem?_ofRecords (variants.map VariantProgram.record) position
    rw [List.getElem?_map, hgiven, hoffset] at hplaced
    have hoffsetNat := toNat_ofNat_of_le_maxIconSize (Nat.le_trans hbefore htotal)
    have hsizeNat : (UInt32.ofNat given.program.length).toNat = given.program.length :=
      toNat_ofNat_of_le_maxIconSize (by omega)
    refine ⟨_, hplaced, rfl, rfl, hsizeNat, hoffsetNat, (Icon.program?_of_le ?_).trans ?_⟩
    · show (UInt32.ofNat (programLength (variants.take position))).toNat +
        (UInt32.ofNat given.program.length).toNat ≤
          (variants.flatMap VariantProgram.program).length
      rw [hoffsetNat, hsizeNat, length_flatMap_program]
      omega
    · show some (((variants.flatMap VariantProgram.program).drop
        (UInt32.ofNat (programLength (variants.take position))).toNat).take
          (UInt32.ofNat given.program.length).toNat) = _
      rw [hoffsetNat, hsizeNat, take_drop_flatMap_program hgiven]

/-! ## The pack that is loaded -/

theorem sections_addAll (asked : List Addition) :
    (PackBuilder.empty.addAll asked).sections =
      (asked.filter PackBuilder.empty.accepts).map Addition.toSection := by
  rw [PackBuilder.sections, PackBuilder.additions_addAll]
  rfl

theorem acceptable_of_mem_filter {asked : List Addition} {addition : Addition}
    (hmem : addition ∈ asked.filter PackBuilder.empty.accepts) : addition.Acceptable :=
  PackBuilder.accepts_iff.mp (List.mem_filter.mp hmem).2

theorem wellFormed_sections_addAll {asked : List Addition}
    (hfits : ∀ addition ∈ asked, PackBuilder.empty.accepts addition = true → addition.Fits) :
    ∀ written ∈ (PackBuilder.empty.addAll asked).sections, written.WellFormed := by
  intro written hwritten
  rw [sections_addAll] at hwritten
  obtain ⟨addition, haddition, rfl⟩ := List.mem_map.mp hwritten
  obtain ⟨hasked, haccepts⟩ := List.mem_filter.mp haddition
  exact Addition.wellFormed_toSection (acceptable_of_mem_filter haddition)
    (hfits addition hasked haccepts)

theorem encode_addAll {asked : List Addition}
    (hfits : ∀ addition ∈ asked, PackBuilder.empty.accepts addition = true → addition.Fits) :
    (PackBuilder.empty.addAll asked).encode = .ok (PackBuilder.empty.addAll asked).bytes := by
  have hstated : (PackBuilder.empty.addAll asked).additions.toList.findSome? Addition.unstated? =
      none := by
    rw [List.findSome?_eq_none_iff, PackBuilder.additions_addAll]
    intro addition haddition
    obtain ⟨hasked, haccepts⟩ := List.mem_filter.mp haddition
    exact Addition.unstated?_eq_none (acceptable_of_mem_filter haddition)
      (hfits addition hasked haccepts)
  unfold PackBuilder.encode
  rw [hstated]

theorem countP_isIcon_map_toSection (additions : List Addition) :
    (additions.map Addition.toSection).countP Section.isIcon =
      additions.countP Addition.isIcon := by
  rw [List.countP_map]
  exact List.countP_congr fun addition _ => by
    rw [Function.comp_apply, Addition.isIcon_toSection]

theorem any_isPalette_map_toSection (additions : List Addition) :
    (additions.map Addition.toSection).any Section.isPalette = true ↔
      ∃ slot colors, Addition.palette slot colors ∈ additions := by
  rw [List.any_map, List.any_eq_true]
  constructor
  · rintro ⟨addition, haddition, hpalette⟩
    cases addition with
    | palette slot colors => exact ⟨slot, colors, haddition⟩
    | icon name variants => cases hpalette
    | other tag payload => cases hpalette
  · rintro ⟨slot, colors, haddition⟩
    exact ⟨.palette slot colors, haddition, rfl⟩

/-- An icon section makes an icon at the position that the number of icons before it
gives.  It has a table if a palette stands before it. -/
theorem icon?_ofSections (before after : List Section) (name : String)
    (records : List VariantRecord) (data : Bytes) :
    ∃ palettes, (Pack.ofSections (before ++ .icon name records data :: after)).icon?
        (before.countP Section.isIcon) =
          some ⟨name, Variant.ofRecords 0 records, data, palettes⟩ ∧
      palettes.isSome = before.any Section.isPalette := by
  rw [Pack.icon?_of_append]
  refine ⟨_, rfl, ?_⟩
  cases before.any Section.isPalette <;> rfl

/-- **What is added to a builder and fits the format is found again in the pack**: it
can be encoded, its bytes are loaded, and the icons that were taken are there in order.
An icon has palettes exactly if a palette was added before it. -/
theorem exists_ofBytes_encode_addAll (asked : List Addition)
    (hfits : ∀ addition ∈ asked, PackBuilder.empty.accepts addition = true → addition.Fits) :
    ∃ bytes pack, (PackBuilder.empty.addAll asked).encode = .ok bytes ∧
      (Pack.ofBytes bytes).result = .ok pack ∧
      pack.size = (asked.filter PackBuilder.empty.accepts).countP Addition.isIcon ∧
      ∀ before name variants after,
        asked.filter PackBuilder.empty.accepts = before ++ .icon name variants :: after →
        ∃ icon, pack.icon? (before.countP Addition.isIcon) = some icon ∧
          icon.Holds name variants ∧
          (icon.palettes.isSome = true ↔
            ∃ slot colors, Addition.palette slot colors ∈ before) := by
  let written := (PackBuilder.empty.addAll asked).sections
  have hload : (Pack.ofBytes (PackBuilder.empty.addAll asked).bytes).result =
      .ok (Pack.ofSections written) :=
    Pack.ofBytes_eq_ok_iff.mpr ⟨_, written, rfl, wellFormed_sections_addAll hfits, rfl⟩
  refine ⟨_, _, encode_addAll hfits, hload, ?_, ?_⟩
  · rw [← Pack.length_icons, Pack.icons_ofSections, List.length_map, length_packedIcons]
    show (PackBuilder.empty.addAll asked).sections.countP _ = _
    rw [sections_addAll, countP_isIcon_map_toSection]
  · intro before name variants after hsplit
    have hmem : Addition.icon name variants ∈ asked.filter PackBuilder.empty.accepts := by
      rw [hsplit]
      exact List.mem_append_right _ List.mem_cons_self
    have hicon : (Addition.icon name variants).Fits :=
      hfits _ (List.mem_filter.mp hmem).1 (List.mem_filter.mp hmem).2
    have hwritten : written = before.map Addition.toSection ++
        Section.ofPrograms name variants :: after.map Addition.toSection := by
      show (PackBuilder.empty.addAll asked).sections = _
      rw [sections_addAll, hsplit, List.map_append, List.map_cons]
      rfl
    obtain ⟨palettes, hfound, hpalettes⟩ := icon?_ofSections (before.map Addition.toSection)
      (after.map Addition.toSection) name (variants.map VariantProgram.record)
      (variants.flatMap VariantProgram.program)
    rw [countP_isIcon_map_toSection] at hfound
    refine ⟨_, ?_, holds_ofPrograms (Addition.programLength_le hicon) palettes, ?_⟩
    · rw [hwritten]
      exact hfound
    · rw [← any_isPalette_map_toSection, ← hpalettes]

/-- Two icons of one name on both sides of a palette, a section of another kind, and an
icon that is refused. -/
theorem exists_ofBytes_encode_addAll_of_same_name :
    (∀ addition ∈ [Addition.icon "a" [⟨1, 1, [0xff]⟩], .palette 0 [⟨1, 2, 3, 4⟩], .icon "" [],
        .other ⟨0x58, 0x58, 0x58, 0x58⟩ [7], .icon "a" [⟨1, 1, []⟩, ⟨2, 2, [0xff, 0]⟩]],
      PackBuilder.empty.accepts addition = true → addition.Fits) ∧
    ∃ bytes pack, (PackBuilder.empty.addAll [.icon "a" [⟨1, 1, [0xff]⟩], .palette 0 [⟨1, 2, 3, 4⟩],
        .icon "" [], .other ⟨0x58, 0x58, 0x58, 0x58⟩ [7],
        .icon "a" [⟨1, 1, []⟩, ⟨2, 2, [0xff, 0]⟩]]).encode = .ok bytes ∧
      (Pack.ofBytes bytes).result = .ok pack ∧ pack.size = 2 ∧
      ∃ icon, pack.icon? 1 = some icon ∧
        icon.Holds "a" [⟨1, 1, []⟩, ⟨2, 2, [0xff, 0]⟩] ∧ icon.palettes.isSome = true := by
  have hfits : ∀ addition ∈ [Addition.icon "a" [⟨1, 1, [0xff]⟩], .palette 0 [⟨1, 2, 3, 4⟩],
      .icon "" [], .other ⟨0x58, 0x58, 0x58, 0x58⟩ [7],
      .icon "a" [⟨1, 1, []⟩, ⟨2, 2, [0xff, 0]⟩]],
      PackBuilder.empty.accepts addition = true → addition.Fits := by decide +kernel
  obtain ⟨bytes, pack, hencode, hload, hsize, hicons⟩ := exists_ofBytes_encode_addAll _ hfits
  obtain ⟨icon, hfound, hholds, hpalettes⟩ := hicons
    [.icon "a" [⟨1, 1, [0xff]⟩], .palette 0 [⟨1, 2, 3, 4⟩], .other ⟨0x58, 0x58, 0x58, 0x58⟩ [7]]
    "a" [⟨1, 1, []⟩, ⟨2, 2, [0xff, 0]⟩] [] (by decide +kernel)
  refine ⟨hfits, bytes, pack, hencode, hload, ?_, icon, hfound, hholds, ?_⟩
  · rw [hsize]
    decide +kernel
  · exact hpalettes.mpr ⟨0, [⟨1, 2, 3, 4⟩], by simp⟩

end VectorIcons
