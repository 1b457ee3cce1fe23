import Mathlib.Data.List.Induction
import VectorIcons.Proofs.Pack.Contents
import VectorIcons.Proofs.Pack.SectionParsing

/-!
# The table that icons share

All icons behind the first palette section of a pack take their colors from one and the
same table, and they take them from its final contents: in each slot stands the palette of
the last section for that slot, wherever the icon stands.  The icons before the first
palette section have no table.  `sharesPalettes_of_ofBytes` says so for every pack that is
loaded.

## Strategy

Which table an icon refers to, and that there is only one, is `Assembly.holds_ofSections`: the
first palette makes the table, and what goes to it later is seen by all icons with a reference
to it.

What stands in the table follows section by section from the back, since a palette replaces
what its slot held before.
-/

namespace VectorIcons

/-! ## What stands in a slot -/

/-- `colors` are those of the last palette section for a slot. -/
def IsLastPalette (sections : List Section) (slot : Nat) (colors : Palette) : Prop :=
  ∃ before number after, sections = before ++ .palette number colors :: after ∧
    number.toNat = slot ∧ ∀ later, .palette number later ∉ after

/-- The palette that a section has for a slot. -/
def Section.paletteFor? (slot : Nat) : Section → Option Palette
  | .palette number colors => if number.toNat = slot then some colors else none
  | _ => none

theorem Section.paletteFor?_eq_some_iff {slot : Nat} {written : Section} {colors : Palette} :
    written.paletteFor? slot = some colors ↔
      ∃ number, written = .palette number colors ∧ number.toNat = slot := by
  cases written with
  | palette number shown =>
      simp only [paletteFor?, Option.ite_none_right_eq_some, Option.some.injEq,
        Section.palette.injEq]
      constructor
      · rintro ⟨hslot, rfl⟩
        exact ⟨number, ⟨rfl, rfl⟩, hslot⟩
      · rintro ⟨_, ⟨rfl, rfl⟩, hslot⟩
        exact ⟨hslot, rfl⟩
  | icon name records data => simp [paletteFor?]
  | other tag payload => simp [paletteFor?]

/-- The palette of the last section for a slot, found from the back. -/
def lastPalette? (sections : List Section) (slot : Nat) : Option Palette :=
  sections.reverse.findSome? (Section.paletteFor? slot)

theorem lastPalette?_concat (sections : List Section) (written : Section) (slot : Nat) :
    lastPalette? (sections ++ [written]) slot =
      (written.paletteFor? slot).or (lastPalette? sections slot) := by
  unfold lastPalette?
  rw [List.reverse_append, List.reverse_singleton, List.singleton_append, List.findSome?_cons]
  cases written.paletteFor? slot <;> rfl

theorem lastPalette?_eq_some_iff {sections : List Section} {slot : Nat} {colors : Palette} :
    lastPalette? sections slot = some colors ↔ IsLastPalette sections slot colors := by
  rw [lastPalette?, List.findSome?_eq_some_iff]
  constructor
  · rintro ⟨behind, written, before, hreverse, hfound, hbehind⟩
    obtain ⟨number, rfl, rfl⟩ := Section.paletteFor?_eq_some_iff.mp hfound
    refine ⟨before.reverse, number, behind.reverse, ?_, rfl, ?_⟩
    · rw [← List.reverse_reverse sections, hreverse]
      simp
    · intro later hlater
      have hnone := hbehind _ (List.mem_reverse.mp hlater)
      simp [Section.paletteFor?] at hnone
  · rintro ⟨before, number, after, rfl, rfl, hafter⟩
    refine ⟨after.reverse, .palette number colors, before.reverse, by simp, by
      simp [Section.paletteFor?], ?_⟩
    intro written hwritten
    rw [Option.eq_none_iff_forall_ne_some]
    intro later hlater
    obtain ⟨other, rfl, hother⟩ := Section.paletteFor?_eq_some_iff.mp hlater
    rw [UInt8.toNat_inj] at hother
    exact hafter later (hother ▸ List.mem_reverse.mp hwritten)

/-- What a table holds once all sections are read. -/
structure FinalTable (sections : List Section) (table : PaletteTable) : Prop where
  /-- It reaches up to the largest slot of all sections. -/
  size : ∃ slot colors, .palette slot colors ∈ sections ∧ table.size = slot.toNat + 1 ∧
    ∀ other otherColors, .palette other otherColors ∈ sections → other.toNat ≤ slot.toNat
  get?_eq_some : ∀ slot colors, IsLastPalette sections slot colors →
    table.get? slot = some colors
  /-- The slots between those of the sections hold empty palettes. -/
  get?_eq_empty : ∀ slot, slot < table.size → (∀ colors, ¬ IsLastPalette sections slot colors) →
    table.get? slot = some []
  /-- There are no colors but those of the last section for a slot. -/
  isSome_color?_iff : ∀ slot index, (table.color? slot index).isSome = true ↔
    ∃ colors, IsLastPalette sections slot colors ∧ index < colors.length

theorem get?_tableOf (sections : List Section) (slot : Nat) :
    (tableOf sections).get? slot =
      (lastPalette? sections slot).or
        (if slot < (tableOf sections).size then some [] else none) := by
  induction sections using List.reverseRecOn with
  | nil => rfl
  | append_singleton sections written ih =>
      rw [tableOf_concat, lastPalette?_concat]
      cases written with
      | palette number colors =>
          rw [Section.insertInto, PaletteTable.get?_insert, PaletteTable.size_insert,
            Section.paletteFor?]
          by_cases hslot : slot = number.toNat
          · rw [if_pos hslot, if_pos hslot.symm]
            rfl
          · rw [if_neg hslot, if_neg (Ne.symm hslot), Option.none_or, ih]
            rcases hlast : lastPalette? sections slot with _ | shown
            · -- The table is filled up with empty palettes to below the new slot.
              simp only [Option.none_or]
              split
              · rw [if_pos (by omega)]
              · split
                · rw [if_pos (by omega)]
                · rw [if_neg (by omega)]
            · rw [hlast, Option.some_or] at ih
              have hwithin : slot < (tableOf sections).size :=
                (List.getElem?_eq_some_iff.mp ih).1
              rw [if_pos hwithin]
              rfl
      | icon name records data => exact ih
      | other tag payload => exact ih

/-- The table is as long as the slots of all sections ask for. -/
theorem size_tableOf_le_iff (sections : List Section) (bound : Nat) :
    (tableOf sections).size ≤ bound ↔
      ∀ slot colors, .palette slot colors ∈ sections → slot.toNat < bound := by
  induction sections using List.reverseRecOn with
  | nil => exact iff_of_true (Nat.zero_le _) (by simp)
  | append_singleton sections written ih =>
      rw [tableOf_concat]
      cases written with
      | palette number colors =>
          rw [Section.insertInto, PaletteTable.size_insert, Nat.max_le, ih]
          constructor
          · rintro ⟨hbefore, hnumber⟩ slot shown hmem
            rcases List.mem_append.mp hmem with hmem | hmem
            · exact hbefore slot shown hmem
            · cases List.mem_singleton.mp hmem
              exact hnumber
          · intro hall
            constructor
            · intro slot shown hmem
              exact hall slot shown (List.mem_append_left _ hmem)
            · exact hall number colors (by simp)
      | icon name records data =>
          show (tableOf sections).size ≤ bound ↔ _
          simp [ih]
      | other tag payload =>
          show (tableOf sections).size ≤ bound ↔ _
          simp [ih]

/-- With a palette in a pack, its table ends with the largest slot. -/
theorem exists_size_tableOf {sections : List Section}
    (hpalette : sections.any Section.isPalette = true) :
    ∃ slot colors, .palette slot colors ∈ sections ∧
      (tableOf sections).size = slot.toNat + 1 ∧
      ∀ other otherColors, .palette other otherColors ∈ sections →
        other.toNat ≤ slot.toNat := by
  have hbounds := size_tableOf_le_iff sections
  have hwithin := (hbounds _).mp (Nat.le_refl _)
  -- Some slot is not below the last position of the table, for want of a shorter table.
  obtain ⟨slot, colors, hmem, hlast⟩ : ∃ slot colors, .palette slot colors ∈ sections ∧
      (tableOf sections).size ≤ slot.toNat + 1 := by
    by_contra hnone
    push Not at hnone
    obtain ⟨written, hwritten, hpalette⟩ := List.any_eq_true.mp hpalette
    cases written with
    | palette slot colors =>
        have hshorter : (tableOf sections).size ≤
            (tableOf sections).size - 1 := by
          rw [hbounds]
          intro other otherColors hother
          have := hnone other otherColors hother
          omega
        have := hwithin slot colors hwritten
        omega
    | icon name records data => cases hpalette
    | other tag payload => cases hpalette
  have hslot := hwithin slot colors hmem
  refine ⟨slot, colors, hmem, by omega, ?_⟩
  intro other otherColors hother
  have := hwithin other otherColors hother
  omega

theorem isSome_color?_tableOf_iff (sections : List Section) (slot index : Nat) :
    ((tableOf sections).color? slot index).isSome = true ↔
      ∃ colors, IsLastPalette sections slot colors ∧ index < colors.length := by
  simp only [← lastPalette?_eq_some_iff]
  rw [PaletteTable.color?, get?_tableOf]
  rcases lastPalette? sections slot with _ | colors
  · rw [Option.none_or]
    split <;> simp
  · simp

/-- The table that the sections of a pack leave behind. -/
theorem finalTable_tableOf {sections : List Section}
    (hpalette : sections.any Section.isPalette = true) :
    FinalTable sections (tableOf sections) where
  size := exists_size_tableOf hpalette
  get?_eq_some := by
    intro slot colors hlast
    rw [get?_tableOf, lastPalette?_eq_some_iff.mpr hlast]
    rfl
  get?_eq_empty := by
    intro slot hslot hnone
    have hlast : lastPalette? sections slot = none := by
      rw [Option.eq_none_iff_forall_ne_some]
      intro colors hcolors
      exact hnone colors (lastPalette?_eq_some_iff.mp hcolors)
    rw [get?_tableOf, hlast, if_pos hslot]
    rfl
  isSome_color?_iff := isSome_color?_tableOf_iff sections

/-! ## Packs that share a table -/

/-- The icon at a position comes from an icon section with a palette before it. -/
def BehindPalette (sections : List Section) (position : Nat) : Prop :=
  ∃ before name records data after,
    sections = before ++ .icon name records data :: after ∧
      before.any Section.isPalette = true ∧ position = before.countP Section.isIcon

/-- How the icons of a pack share the table that its sections make. -/
structure SharesPalettes (sections : List Section) (pack : Pack) : Prop where
  /-- There is one icon for each icon section. -/
  size : pack.size = sections.countP Section.isIcon
  /-- An icon before the first palette has no table. -/
  before_palette : ∀ before name records data after,
    sections = before ++ .icon name records data :: after →
    before.any Section.isPalette = false →
    pack.icon? (before.countP Section.isIcon) =
      some ⟨name, Variant.ofRecords 0 records, data, none⟩
  /-- Any other icon sees the final table, and has its colors. -/
  behind_palette : ∀ before name records data after,
    sections = before ++ .icon name records data :: after →
    before.any Section.isPalette = true →
    ∃ icon table, pack.icon? (before.countP Section.isIcon) = some icon ∧
      icon = ⟨name, Variant.ofRecords 0 records, data, some table⟩ ∧
      FinalTable sections table ∧
      ∀ selector index, (icon.color? selector index).isSome = true ↔
        ∃ colors, IsLastPalette sections selector colors ∧ index < colors.length
  /-- These icons refer to the very same table, and it is the final one. -/
  same_table : ∀ first second, BehindPalette sections first → BehindPalette sections second →
    pack.sameTable? first second = some true ∧
      ∃ reference table, pack.reference? first = some reference ∧
        pack.reference? second = some reference ∧ pack.table? reference = some table ∧
        FinalTable sections table
  /-- What an icon sees is what has become of the table that it refers to. -/
  seen : ∀ position icon, pack.icon? position = some icon →
    icon.palettes = pack.reference? position >>= pack.table?

/-- An icon behind a palette refers to the first table. -/
theorem BehindPalette.reference? {sections : List Section} {position : Nat}
    (hbehind : BehindPalette sections position) :
    sections.any Section.isPalette = true ∧
      (Pack.ofSections sections).reference? position = some firstTable := by
  obtain ⟨before, name, records, data, after, rfl, hbefore, rfl⟩ := hbehind
  constructor
  · rw [List.any_append, hbefore, Bool.true_or]
  · rw [Pack.reference?, Pack.getElem?_entries_ofSections, tableRef?, hbefore]
    rfl

theorem sharesPalettes_ofSections (sections : List Section) :
    SharesPalettes sections (Pack.ofSections sections) where
  size := by
    rw [← Pack.length_icons, Pack.icons_ofSections, List.length_map, length_packedIcons]
  before_palette := by
    rintro before name records data after rfl hbefore
    rw [Pack.icon?_of_append, hbefore]
    rfl
  behind_palette := by
    rintro before name records data after rfl hbefore
    have hpalette : (before ++ .icon name records data :: after).any Section.isPalette = true := by
      rw [List.any_append, hbefore, Bool.true_or]
    refine ⟨_, _, ?_, rfl, finalTable_tableOf hpalette, isSome_color?_tableOf_iff _⟩
    rw [Pack.icon?_of_append, hbefore, if_pos rfl]
  same_table := by
    intro first second hfirst hsecond
    obtain ⟨hpalette, hone⟩ := hfirst.reference?
    obtain ⟨-, hother⟩ := hsecond.reference?
    refine ⟨?_, firstTable, tableOf sections, hone, hother, Pack.table?_firstTable hpalette,
      finalTable_tableOf hpalette⟩
    rw [Pack.sameTable?, hone, hother]
    rfl
  seen := by
    intro position icon hicon
    obtain ⟨entry, hentry, rfl⟩ := Option.map_eq_some_iff.mp hicon
    rw [Pack.reference?, hentry]
    rfl

/-- **In every pack that is loaded, the icons behind the first palette share one table and
see its final contents.** -/
theorem sharesPalettes_of_ofBytes {bytes : Bytes} {pack : Pack}
    (hloaded : (Pack.ofBytes bytes).result = .ok pack) :
    ∃ count sections, bytes = packBytes count sections ∧
      (∀ written ∈ sections, written.WellFormed) ∧ SharesPalettes sections pack := by
  obtain ⟨count, sections, hbytes, hformed, rfl⟩ := Pack.ofBytes_eq_ok_iff.mp hloaded
  exact ⟨count, sections, hbytes, hformed, sharesPalettes_ofSections sections⟩

/-- Three icons, with palettes in three slots between them and behind them. -/
theorem sharesPalettes_of_ofBytes_interleaved :
    let sections : List Section :=
      [.icon "a" [⟨1, 1, 0⟩] [], .palette 2 [⟨1, 2, 3, 4⟩], .icon "b" [⟨1, 1, 0⟩] [],
        .palette 0 [⟨5, 6, 7, 8⟩, ⟨9, 9, 9, 9⟩], .icon "c" [⟨1, 1, 0⟩] [], .palette 2 []]
    (Pack.ofBytes (packBytes 3 sections)).result = .ok (Pack.ofSections sections) ∧
      ∃ count written, packBytes 3 sections = packBytes count written ∧
        (∀ part ∈ written, part.WellFormed) ∧
          SharesPalettes written (Pack.ofSections sections) := by
  intro sections
  have hformed : ∀ written ∈ sections, written.WellFormed := by decide +kernel
  have hloaded := Pack.result_ofBytes_packBytes 3 hformed
  exact ⟨hloaded, sharesPalettes_of_ofBytes hloaded⟩

end VectorIcons
