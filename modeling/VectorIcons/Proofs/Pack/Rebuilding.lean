import VectorIcons.Proofs.Pack.Building

/-!
# Packs that are built again from what was loaded

The sections of a pack are given to a builder again: a palette with its slot and colors, a
section of another kind as it is, and an icon with the programs that are found in it
(`replay`).  Then the builder writes the very bytes that were loaded
(`exists_replay_encode`), provided that the header announces as many icons as there are
and that no byte of an icon lies behind its last program.

Both conditions are needed.  Loading does not look at the announced number, and it does not ask
whether the programs of an icon fill its data; a builder derives the one and leaves no such
bytes.

## Strategy

The programs of an icon are found at the sums of the sizes before them, so one after another
they are its data again (`exists_variantPrograms`).  The builder then holds the sections that
were loaded, and their bytes are those of the pack.
-/

namespace VectorIcons

/-! ## Taking a pack apart -/

/-- The variants of an icon with their programs, if each of them has one. -/
def Icon.variantPrograms? (icon : Icon) : Option (List VariantProgram) :=
  icon.variants.mapM fun variant =>
    (icon.program? variant).map fun program => ⟨variant.width, variant.height, program⟩

/-- What a builder is asked for to build sections again, with the icons that were loaded from
them in order. -/
def replay : List Frame → List Icon → Option (List Addition)
  | [], _ => some []
  | frame :: others, icons =>
      if frame.tag = .palette then
        match frame.payload with
        | slot :: _ :: colors => (replay others icons).map (.palette slot (.ofBytes colors) :: ·)
        | _ => none
      else if frame.tag = .icon then
        match icons with
        | icon :: otherIcons =>
            icon.variantPrograms?.bind fun variants =>
              (replay others otherIcons).map (.icon icon.name variants :: ·)
        | [] => none
      else (replay others icons).map (.other frame.tag frame.payload :: ·)

theorem replay_palette (slot count : UInt8) (colors : Bytes) (others : List Frame)
    (icons : List Icon) :
    replay (⟨.palette, slot :: count :: colors⟩ :: others) icons =
      (replay others icons).map (.palette slot (.ofBytes colors) :: ·) := by
  rw [replay.eq_def]
  exact if_pos rfl

theorem replay_icon (payload : Bytes) (others : List Frame) (icon : Icon) (icons : List Icon) :
    replay (⟨.icon, payload⟩ :: others) (icon :: icons) =
      icon.variantPrograms?.bind fun variants =>
        (replay others icons).map (.icon icon.name variants :: ·) := by
  rw [replay.eq_def]
  exact (if_neg (show Tag.icon ≠ Tag.palette by decide)).trans (if_pos rfl)

theorem replay_other {frame : Frame} (hpalette : frame.tag ≠ .palette) (hicon : frame.tag ≠ .icon)
    (others : List Frame) (icons : List Icon) :
    replay (frame :: others) icons =
      (replay others icons).map (.other frame.tag frame.payload :: ·) := by
  rw [replay.eq_def]
  exact (if_neg hpalette).trans (if_neg hicon)

/-! ## The programs of an icon -/

theorem cappedSum_ofNat {offset : Nat} {size : UInt32}
    (hsum : offset + size.toNat ≤ Section.maxIconSize) :
    cappedSum (UInt32.ofNat offset) size = UInt32.ofNat (offset + size.toNat) := by
  have hmax : Section.maxIconSize = 0x100000 := rfl
  have hmin := cappedSum_ofNat_min offset size
  rwa [Nat.min_eq_left (by omega), Nat.min_eq_left (by omega)] at hmin

/-- Variants whose programs fill the data from some byte on have programs that are the data from
there on. -/
theorem exists_variantPrograms {icon : Icon} (hdata : icon.data.length ≤ Section.maxIconSize)
    (records : List VariantRecord) {offset : Nat}
    (hfill : offset + totalSize records = icon.data.length) :
    ∃ variants : List VariantProgram,
      ((Variant.ofRecords (UInt32.ofNat offset) records).mapM fun variant =>
        (icon.program? variant).map fun program =>
          (⟨variant.width, variant.height, program⟩ : VariantProgram)) = some variants ∧
      variants.map VariantProgram.record = records ∧
      variants.flatMap VariantProgram.program = icon.data.drop offset := by
  induction records generalizing offset with
  | nil =>
      refine ⟨[], rfl, rfl, ?_⟩
      have hend : offset = icon.data.length := hfill
      rw [hend, List.drop_length]
      rfl
  | cons record others ih =>
      have htotal : totalSize (record :: others) = record.size.toNat + totalSize others := by
        unfold totalSize
        rw [List.map_cons, List.sum_cons]
      rw [htotal, ← Nat.add_assoc] at hfill
      obtain ⟨variants, hprograms, hrecords, hbytes⟩ := ih hfill
      have hoffset : (UInt32.ofNat offset).toNat = offset :=
        toNat_ofNat_of_le_maxIconSize (by omega)
      have hprogram :
          icon.program? ⟨record.width, record.height, UInt32.ofNat offset, record.size⟩ =
            some ((icon.data.drop offset).take record.size.toNat) := by
        have hwithin := @Icon.program?_of_le icon
          ⟨record.width, record.height, UInt32.ofNat offset, record.size⟩
        dsimp only at hwithin
        rw [hoffset] at hwithin
        exact hwithin (by omega)
      refine ⟨⟨record.width, record.height, (icon.data.drop offset).take record.size.toNat⟩ ::
        variants, ?_, ?_, ?_⟩
      · rw [Variant.ofRecords, cappedSum_ofNat (by omega), List.mapM_cons, hprogram, hprograms]
        rfl
      · have hlength : ((icon.data.drop offset).take record.size.toNat).length =
            record.size.toNat := by
          rw [List.length_take, List.length_drop]
          omega
        rw [List.map_cons, hrecords, VariantProgram.record, hlength, UInt32.ofNat_toNat]
      · rw [List.flatMap_cons, hbytes, ← List.drop_drop, List.take_append_drop]

/-- How many bytes the variants of an icon say that their programs have. -/
def Icon.statedLength (icon : Icon) : Nat :=
  (icon.variants.map fun variant => variant.size.toNat).sum

theorem statedLength_ofRecords (name : String) (records : List VariantRecord) (data : Bytes)
    (palettes : Option PaletteTable) :
    Icon.statedLength ⟨name, Variant.ofRecords 0 records, data, palettes⟩ = totalSize records := by
  rw [Icon.statedLength, ← totalSize_map_variant_record, map_record_ofRecords]

/-- The icon of a section whose programs fill its data becomes this section again. -/
theorem exists_variantPrograms?_eq_some {name : String} {records : List VariantRecord}
    {data : Bytes}
    (hformed : (Section.icon name records data).WellFormed)
    (hfill : totalSize records = data.length) (palettes : Option PaletteTable) :
    ∃ variants,
      Icon.variantPrograms? ⟨name, Variant.ofRecords 0 records, data, palettes⟩ = some variants ∧
      Section.ofPrograms name variants = .icon name records data := by
  obtain ⟨variants, hprograms, hrecords, hbytes⟩ :=
    @exists_variantPrograms ⟨name, Variant.ofRecords 0 records, data, palettes⟩
      (Section.length_data_le hformed) records 0 ((Nat.zero_add _).trans hfill)
  refine ⟨variants, hprograms, ?_⟩
  rw [Section.ofPrograms, hrecords, hbytes]
  rfl

/-! ## The sections of a pack -/

theorem Addition.acceptable_of_wellFormed {addition : Addition}
    (hformed : addition.toSection.WellFormed) : addition.Acceptable := by
  cases addition with
  | palette slot colors => exact hformed
  | icon name variants =>
      obtain ⟨hname, hnameLe, hvariants, hvariantsLe, -⟩ := hformed
      rw [List.length_map] at hvariants hvariantsLe
      exact ⟨⟨hname, hnameLe⟩, hvariants, hvariantsLe⟩
  | other tag payload => trivial

theorem isIcon_iff_tag_frame {written : Section} (hformed : written.WellFormed) :
    decide (written.frame.tag = .icon) = written.isIcon := by
  cases written with
  | palette slot colors => rfl
  | icon name records data => rfl
  | other tag payload => exact decide_eq_false hformed.2.1

/-- Additions that become the sections of a pack are found from its bytes and its icons. -/
theorem exists_replay (pack : Pack) {sections : List Section}
    (hformed : ∀ written ∈ sections, written.WellFormed) (current : Option TableRef)
    (hfill : ∀ icon ∈ (packedIcons current sections).map pack.toIcon,
      icon.statedLength = icon.data.length) :
    ∃ asked, replay (sections.map Section.frame)
        ((packedIcons current sections).map pack.toIcon) = some asked ∧
      asked.map Addition.toSection = sections := by
  induction sections generalizing current with
  | nil => exact ⟨[], rfl, rfl⟩
  | cons first others ih =>
      obtain ⟨hfirst, hothers⟩ := List.forall_mem_cons.mp hformed
      cases first with
      | palette slot colors =>
          obtain ⟨asked, hreplay, hsections⟩ := ih hothers (some firstTable) hfill
          refine ⟨.palette slot colors :: asked, ?_, congrArg (_ :: ·) hsections⟩
          refine (replay_palette slot _ (Palette.bytes colors) _ _).trans ?_
          rw [Palette.ofBytes_bytes]
          exact congrArg (Option.map _) hreplay
      | icon name records data =>
          obtain ⟨hicon, hicons⟩ := List.forall_mem_cons.mp hfill
          obtain ⟨asked, hreplay, hsections⟩ := ih hothers current hicons
          change Icon.statedLength ⟨name, Variant.ofRecords 0 records, data, _⟩ =
            data.length at hicon
          rw [statedLength_ofRecords] at hicon
          obtain ⟨variants, hvariants, hsection⟩ := exists_variantPrograms?_eq_some hfirst hicon
            (current >>= pack.table?)
          refine ⟨.icon name variants :: asked, ?_, ?_⟩
          · refine (replay_icon _ _ _ _).trans ?_
            change (Icon.variantPrograms? ⟨name, Variant.ofRecords 0 records, data, _⟩).bind _ = _
            rw [hvariants]
            exact congrArg (Option.map _) hreplay
          · rw [List.map_cons, hsections]
            exact congrArg (· :: others) hsection
      | other tag payload =>
          obtain ⟨asked, hreplay, hsections⟩ := ih hothers current hfill
          refine ⟨.other tag payload :: asked, ?_, congrArg (_ :: ·) hsections⟩
          refine (replay_other hfirst.1 hfirst.2.1 _ _).trans ?_
          exact congrArg (Option.map _) hreplay

/-- **A pack that was loaded is built again byte for byte.**  Every addition is taken, and encoding
gives the bytes that the pack was loaded from. -/
theorem exists_replay_encode {bytes : Bytes} {pack : Pack}
    (hload : (Pack.ofBytes bytes).result = .ok pack)
    (hcount : (word32 ((bytes.drop 4).take 4)).toNat =
      (frames (bytes.drop 8)).countP fun frame => decide (frame.tag = .icon))
    (hfill : ∀ icon ∈ pack.icons, icon.statedLength = icon.data.length) :
    ∃ asked builder, replay (frames (bytes.drop 8)) pack.icons = some asked ∧
      asked.foldlM PackBuilder.add .empty = .ok builder ∧ builder.encode = .ok bytes := by
  obtain ⟨count, sections, rfl, hformed, rfl⟩ := Pack.ofBytes_eq_ok_iff.mp hload
  have hstated : ∀ written ∈ sections, written.Stated := fun written hwritten =>
    (hformed written hwritten).stated
  rw [Pack.icons_ofSections] at hfill ⊢
  rw [frames_drop_packBytes count hstated] at hcount ⊢
  obtain ⟨asked, hreplay, hsections⟩ := exists_replay _ hformed none hfill
  have hacceptable : ∀ addition ∈ asked, addition.Acceptable := by
    rw [← hsections, List.forall_mem_map] at hformed
    exact fun addition hmem => Addition.acceptable_of_wellFormed (hformed addition hmem)
  have hadd : asked.foldlM PackBuilder.add .empty = .ok ⟨asked.toArray⟩ :=
    PackBuilder.foldlM_add_eq_ok_iff.mpr ⟨hacceptable, rfl⟩
  refine ⟨asked, ⟨asked.toArray⟩, hreplay, hadd, PackBuilder.encode_eq_ok_iff.mpr ?_⟩
  have hbuilt : PackBuilder.sections ⟨asked.toArray⟩ = sections :=
    (sections_of_foldlM_add hadd).trans hsections
  have hannounced : count = UInt32.ofNat (sections.countP Section.isIcon) := by
    change (word32 (littleEndian32 count)).toNat = _ at hcount
    have hicons : sections.countP ((fun frame => decide (frame.tag = .icon)) ∘ Section.frame) =
        sections.countP Section.isIcon :=
      List.countP_congr fun written hwritten => by
        rw [Function.comp_apply, isIcon_iff_tag_frame (hformed written hwritten)]
    rw [word32_littleEndian32, List.countP_map, hicons] at hcount
    rw [← hcount, UInt32.ofNat_toNat]
  rw [PackBuilder.bytes, PackBuilder.iconCount, hbuilt, ← hannounced]
  exact ⟨hstated, rfl⟩

/-- A palette, an icon of two variants, and a section of another kind. -/
theorem exists_replay_encode_of_two_variants :
    ∃ bytes pack, (Pack.ofBytes bytes).result = .ok pack ∧
      (word32 ((bytes.drop 4).take 4)).toNat =
        (frames (bytes.drop 8)).countP (fun frame => decide (frame.tag = .icon)) ∧
      (∀ icon ∈ pack.icons, icon.statedLength = icon.data.length) ∧
      bytes = packBytes 1 [.palette 1 [⟨1, 2, 3, 4⟩],
        .icon "a" [⟨16, 16, 2⟩, ⟨32, 24, 1⟩] [0xff, 0x00, 0x07],
        .other ⟨0x58, 0x58, 0x58, 0x58⟩ [7]] ∧
      ∃ asked builder, replay (frames (bytes.drop 8)) pack.icons = some asked ∧
        asked.foldlM PackBuilder.add .empty = .ok builder ∧ builder.encode = .ok bytes := by
  have hformed : ∀ written ∈ [Section.palette 1 [⟨1, 2, 3, 4⟩],
      .icon "a" [⟨16, 16, 2⟩, ⟨32, 24, 1⟩] [0xff, 0x00, 0x07],
      .other ⟨0x58, 0x58, 0x58, 0x58⟩ [7]], written.WellFormed := by
    simp only [List.forall_mem_cons]
    exact ⟨Nat.le_of_ble_eq_true rfl, ⟨by decide, by decide, by decide, by decide, by decide⟩,
      ⟨by decide, by decide, by decide⟩, List.forall_mem_nil _⟩
  have hload := Pack.ofBytes_eq_ok_iff.mpr ⟨1, _, rfl, hformed, rfl⟩
  have hcount := congrArg (List.countP fun frame => decide (frame.tag = .icon))
    (frames_drop_packBytes 1 fun written hwritten => (hformed written hwritten).stated)
  have hfill : ∀ icon ∈ (Pack.ofSections [Section.palette 1 [⟨1, 2, 3, 4⟩],
      .icon "a" [⟨16, 16, 2⟩, ⟨32, 24, 1⟩] [0xff, 0x00, 0x07],
      .other ⟨0x58, 0x58, 0x58, 0x58⟩ [7]]).icons, icon.statedLength = icon.data.length := by
    rw [Pack.icons_ofSections, List.forall_mem_map]
    intro entry hentry
    rw [List.mem_singleton.mp hentry]
    rfl
  exact ⟨_, _, hload, hcount.symm, hfill, rfl, exists_replay_encode hload hcount.symm hfill⟩

end VectorIcons
