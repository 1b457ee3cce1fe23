import VectorIcons.Proofs.Pack.SectionParsing
import VectorIcons.Proofs.Pack.Contents

/-!
# Where the programs of an icon lie

A section states the size of each program and no offset, so the programs lie one after another
from the front of the data.  The offset of a variant is the sum of the sizes before it, but it is
kept in a word and stops at the largest one.

That makes no difference for an icon of a loaded pack: `tilesData_of_ofBytes`.  Its data has at
most 1 MiB, so an offset that is not the exact sum lies behind the data, and so does the exact
sum.  From the first program that does not fit on, no program is there, not even an empty one.

## Strategy

`program?_of_offset` replaces the offset by the exact sum in one equation.  The programs are then
found along the records, the sum growing by one size at a time: `exists_programs`.
-/

namespace VectorIcons

/-- The sum of the sizes of the variants before a position. -/
def Icon.startOf (icon : Icon) (position : Nat) : Nat :=
  ((icon.variants.take position).map fun variant => variant.size.toNat).sum

/-- The programs of an icon lie one after another in its data. -/
structure Icon.TilesData (icon : Icon) : Prop where
  /-- A variant has a program exactly if the data has room for it and for those before it. -/
  isSome_program?_iff : ∀ {position : Nat} {variant : Variant},
    icon.variants[position]? = some variant →
      ((icon.program? variant).isSome ↔ icon.startOf (position + 1) ≤ icon.data.length)
  /-- The program begins where those before it end. -/
  eq_of_program? : ∀ {position : Nat} {variant : Variant} {program : Bytes},
    icon.variants[position]? = some variant → icon.program? variant = some program →
      program.length = variant.size.toNat ∧
        program = (icon.data.drop (icon.startOf position)).take variant.size.toNat
  /-- The programs that are there are those of the first variants, and one after another they
  are the front of the data. -/
  exists_programs : ∃ (programs : List Bytes) (missing : Nat),
    icon.variants.map icon.program? = programs.map some ++ List.replicate missing none ∧
      programs.flatten <+: icon.data
  /-- Behind a variant without a program there is no variant with one. -/
  eq_none_of_le : ∀ {earlier later : Nat} {first second : Variant}, earlier ≤ later →
    icon.variants[earlier]? = some first → icon.variants[later]? = some second →
      icon.program? first = none → icon.program? second = none

/-! ## One program -/

/-- The offset in a word gives the same program as the exact sum. -/
theorem Icon.program?_of_offset {icon : Icon} (hdata : icon.data.length ≤ Section.maxIconSize)
    (width height : UInt16) (start : Nat) (size : UInt32) :
    icon.program? ⟨width, height, UInt32.ofNat (min start 0xffffffff), size⟩ =
      if start + size.toNat ≤ icon.data.length then
        some ((icon.data.drop start).take size.toNat)
      else none := by
  have hmax : Section.maxIconSize = 0x100000 := rfl
  unfold program?
  dsimp only
  rw [toNat_ofNat_min]
  -- An offset that is cut off is far behind the data, and so is the sum that it stands for.
  by_cases hfits : start + size.toNat ≤ icon.data.length
  · rw [if_pos hfits, if_pos (by omega), Nat.min_eq_left (by omega)]
  · rw [if_neg hfits, if_neg (by omega)]

section Records

variable {icon : Icon} {records : List VariantRecord}

theorem startOf_eq_totalSize (hvariants : icon.variants = Variant.ofRecords 0 records)
    (position : Nat) : icon.startOf position = totalSize (records.take position) := by
  rw [Icon.startOf, ← totalSize_map_variant_record, List.map_take, hvariants, map_record_ofRecords]

theorem startOf_succ {position : Nat} {variant : Variant}
    (hvariant : icon.variants[position]? = some variant) :
    icon.startOf (position + 1) = icon.startOf position + variant.size.toNat := by
  unfold Icon.startOf
  rw [List.take_add_one, hvariant, List.map_append, List.sum_append]
  simp

theorem startOf_mono (icon : Icon) {earlier later : Nat} (hle : earlier ≤ later) :
    icon.startOf earlier ≤ icon.startOf later := by
  obtain ⟨more, rfl⟩ := Nat.exists_eq_add_of_le hle
  unfold Icon.startOf
  rw [List.take_add, List.map_append, List.sum_append]
  exact Nat.le_add_right _ _

/-- The program of a variant, by the exact sum of the sizes before it. -/
theorem program?_of_getElem? (hdata : icon.data.length ≤ Section.maxIconSize)
    (hvariants : icon.variants = Variant.ofRecords 0 records) {position : Nat} {variant : Variant}
    (hvariant : icon.variants[position]? = some variant) :
    icon.program? variant =
      if icon.startOf (position + 1) ≤ icon.data.length then
        some ((icon.data.drop (icon.startOf position)).take variant.size.toNat)
      else none := by
  rw [startOf_succ hvariant, startOf_eq_totalSize hvariants]
  rw [hvariants, getElem?_ofRecords] at hvariant
  obtain ⟨record, -, rfl⟩ := Option.map_eq_some_iff.mp hvariant
  exact Icon.program?_of_offset hdata _ _ _ _

end Records

/-! ## All programs -/

/-- Once the sum of the sizes is behind the data, no program is there any more. -/
theorem map_program?_of_lt {icon : Icon} (hdata : icon.data.length ≤ Section.maxIconSize)
    (records : List VariantRecord) {start : Nat} (hbehind : icon.data.length < start) :
    (Variant.ofRecords (UInt32.ofNat (min start 0xffffffff)) records).map icon.program? =
      List.replicate records.length none := by
  induction records generalizing start with
  | nil => rfl
  | cons record rest ih =>
      rw [Variant.ofRecords, List.map_cons, Icon.program?_of_offset hdata, if_neg (by omega),
        cappedSum_ofNat_min, ih (by omega)]
      rfl

/-- The programs from some byte on: as many as fit, without a gap between them, and then none. -/
theorem exists_programs_from {icon : Icon} (hdata : icon.data.length ≤ Section.maxIconSize)
    (records : List VariantRecord) (start : Nat) :
    ∃ (programs : List Bytes) (missing : Nat),
      (Variant.ofRecords (UInt32.ofNat (min start 0xffffffff)) records).map icon.program? =
          programs.map some ++ List.replicate missing none ∧
        programs.flatten <+: icon.data.drop start := by
  induction records generalizing start with
  | nil => exact ⟨[], 0, rfl, List.nil_prefix⟩
  | cons record rest ih =>
      rw [Variant.ofRecords, List.map_cons, Icon.program?_of_offset hdata, cappedSum_ofNat_min]
      by_cases hfits : start + record.size.toNat ≤ icon.data.length
      · obtain ⟨programs, missing, hprograms, hfront⟩ := ih (start + record.size.toNat)
        refine ⟨(icon.data.drop start).take record.size.toNat :: programs, missing, ?_, ?_⟩
        · rw [if_pos hfits, hprograms]
          rfl
        · rw [← List.drop_drop] at hfront
          calc ((icon.data.drop start).take record.size.toNat :: programs).flatten
              = (icon.data.drop start).take record.size.toNat ++ programs.flatten :=
                List.flatten_cons
            _ <+: (icon.data.drop start).take record.size.toNat ++
                  (icon.data.drop start).drop record.size.toNat :=
                (List.prefix_append_right_inj _).mpr hfront
            _ = icon.data.drop start := List.take_append_drop _ _
      · -- The sum only grows, so that no later program fits either.
        refine ⟨[], rest.length + 1, ?_, List.nil_prefix⟩
        rw [if_neg hfits, map_program?_of_lt hdata rest (by omega)]
        rfl

/-- Programs lie one after another whenever the data is no larger than a section can be. -/
theorem tilesData_ofRecords {icon : Icon} {records : List VariantRecord}
    (hdata : icon.data.length ≤ Section.maxIconSize)
    (hvariants : icon.variants = Variant.ofRecords 0 records) : icon.TilesData where
  isSome_program?_iff := by
    intro position variant hvariant
    rw [program?_of_getElem? hdata hvariants hvariant]
    split <;> simp [*]
  eq_of_program? := by
    intro position variant program hvariant hprogram
    refine ⟨Icon.length_of_program?_eq_some hprogram, ?_⟩
    rw [program?_of_getElem? hdata hvariants hvariant] at hprogram
    split at hprogram
    · exact (Option.some.inj hprogram).symm
    · cases hprogram
  exists_programs := by
    rw [hvariants]
    exact exists_programs_from hdata records 0
  eq_none_of_le := by
    intro earlier later first second hle hfirst hsecond hnone
    rw [program?_of_getElem? hdata hvariants hfirst, ite_eq_right_iff] at hnone
    rw [program?_of_getElem? hdata hvariants hsecond, if_neg]
    intro hfits
    exact Option.some_ne_none _
      (hnone (Nat.le_trans (startOf_mono icon (Nat.succ_le_succ hle)) hfits))

/-- **The programs of each icon of a loaded pack lie one after another in its data**, whatever
sizes the variants say. -/
theorem tilesData_of_ofBytes {bytes : Bytes} {pack : Pack}
    (hload : (Pack.ofBytes bytes).result = .ok pack) {icon : Icon} (hicon : icon ∈ pack.icons) :
    icon.TilesData := by
  obtain ⟨count, sections, rfl, hformed, rfl⟩ := Pack.ofBytes_eq_ok_iff.mp hload
  obtain ⟨name, records, data, palettes, hsection, rfl⟩ := Pack.exists_section_of_mem_icons hicon
  exact tilesData_ofRecords (Section.length_data_le (hformed _ hsection)) rfl

/-- The third size takes the offset to the largest word, so that the fourth program is not there,
though it is as empty as the second. -/
theorem tilesData_of_ofBytes_of_largest_size :
    ∃ bytes pack icon, (Pack.ofBytes bytes).result = .ok pack ∧ icon ∈ pack.icons ∧
      icon.variants.map icon.program? = [some [0xff, 0x00], some [], none, none] ∧
      icon.TilesData := by
  have hformed : ∀ written ∈ [Section.icon "a"
      [⟨16, 16, 2⟩, ⟨8, 8, 0⟩, ⟨32, 32, 0xffffffff⟩, ⟨8, 8, 0⟩] [0xff, 0x00, 0x07]],
      written.WellFormed := by
    intro written hwritten
    rw [List.mem_singleton.mp hwritten]
    exact ⟨by decide, by decide, by decide, by decide, by decide⟩
  have hload := Pack.ofBytes_eq_ok_iff.mpr ⟨1, _, rfl, hformed, rfl⟩
  have hicon : (⟨"a", Variant.ofRecords 0
      [⟨16, 16, 2⟩, ⟨8, 8, 0⟩, ⟨32, 32, 0xffffffff⟩, ⟨8, 8, 0⟩], [0xff, 0x00, 0x07], none⟩ : Icon) ∈
      (Pack.ofSections [Section.icon "a"
        [⟨16, 16, 2⟩, ⟨8, 8, 0⟩, ⟨32, 32, 0xffffffff⟩, ⟨8, 8, 0⟩] [0xff, 0x00, 0x07]]).icons := by
    rw [Pack.icons_ofSections]
    exact List.mem_cons_self
  exact ⟨_, _, _, hload, hicon, by decide, tilesData_of_ofBytes hload hicon⟩

end VectorIcons
