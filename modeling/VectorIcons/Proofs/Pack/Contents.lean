import Mathlib.Algebra.GroupWithZero.Nat
import Mathlib.Data.List.Induction
import VectorIcons.Pack.Basic

/-!
# What sections add up to

`Assembly.ofSections` adds one section after another.  Read at once, the icons of a pack are
those of its icon sections in order, and there is one table if there is a palette.  Its palettes
are those of all palette sections, and the icons behind the first of them refer to it.  `Holds`
says so of an assembly; it is kept by one more section (`Holds.add`), so it holds of all of them
(`holds_ofSections`).  By name a pack finds the last icon, `findsLast_ofSections`.

The offset of a variant is the sum of the sizes before it, as far as a word can hold
it: `getElem?_ofRecords`.
-/

namespace VectorIcons

/-! ## Offsets -/

theorem toNat_ofNat_min (amount : Nat) :
    (UInt32.ofNat (min amount 0xffffffff)).toNat = min amount 0xffffffff := by
  rw [UInt32.toNat_ofNat']
  exact Nat.mod_eq_of_lt (by omega)

theorem cappedSum_ofNat_min (amount : Nat) (size : UInt32) :
    cappedSum (UInt32.ofNat (min amount 0xffffffff)) size =
      UInt32.ofNat (min (amount + size.toNat) 0xffffffff) := by
  apply UInt32.toNat_inj.mp
  rw [toNat_cappedSum, toNat_ofNat_min, toNat_ofNat_min]
  omega

/-- The sum of the sizes of some variants. -/
def totalSize (records : List VariantRecord) : Nat :=
  (records.map fun record => record.size.toNat).sum

private theorem getElem?_ofRecords_from (amount : Nat) (records : List VariantRecord)
    (position : Nat) :
    (Variant.ofRecords (UInt32.ofNat (min amount 0xffffffff)) records)[position]? =
      records[position]?.map fun record =>
        ⟨record.width, record.height,
          UInt32.ofNat (min (amount + totalSize (records.take position)) 0xffffffff),
          record.size⟩ := by
  induction records generalizing amount position with
  | nil => rfl
  | cons record rest ih =>
      cases position with
      | zero => simp [Variant.ofRecords, totalSize]
      | succ position =>
          simp only [Variant.ofRecords, List.getElem?_cons_succ, List.take_succ_cons]
          rw [cappedSum_ofNat_min, ih]
          simp only [totalSize, List.map_cons, List.sum_cons, Nat.add_assoc]

/-- The variant at a position has the size of its record and begins where the programs
before it end. -/
theorem getElem?_ofRecords (records : List VariantRecord) (position : Nat) :
    (Variant.ofRecords 0 records)[position]? =
      records[position]?.map fun record =>
        ⟨record.width, record.height,
          UInt32.ofNat (min (totalSize (records.take position)) 0xffffffff), record.size⟩ := by
  have hfrom := getElem?_ofRecords_from 0 records position
  rwa [Nat.zero_min, Nat.zero_add] at hfrom

theorem length_ofRecords (offset : UInt32) (records : List VariantRecord) :
    (Variant.ofRecords offset records).length = records.length := by
  induction records generalizing offset with
  | nil => rfl
  | cons record rest ih => rw [Variant.ofRecords, List.length_cons, ih, List.length_cons]

/-- What a variant says apart from its place. -/
def Variant.record (variant : Variant) : VariantRecord :=
  ⟨variant.width, variant.height, variant.size⟩

theorem map_record_ofRecords (offset : UInt32) (records : List VariantRecord) :
    (Variant.ofRecords offset records).map Variant.record = records := by
  induction records generalizing offset with
  | nil => rfl
  | cons record rest ih => rw [Variant.ofRecords, List.map_cons, ih, Variant.record]

theorem totalSize_map_variant_record (variants : List Variant) :
    totalSize (variants.map Variant.record) =
      (variants.map fun variant => variant.size.toNat).sum := by
  rw [totalSize, List.map_map]
  rfl

theorem Icon.program?_of_le {icon : Icon} {variant : Variant}
    (hwithin : variant.offset.toNat + variant.size.toNat ≤ icon.data.length) :
    icon.program? variant =
      some ((icon.data.drop variant.offset.toNat).take variant.size.toNat) :=
  if_pos hwithin

/-! ## The icons of a list of sections -/

/-- Whether a section is a palette. -/
def Section.isPalette : Section → Bool
  | .palette _ _ => true
  | _ => false

theorem any_isPalette_concat (sections : List Section) (written : Section) :
    (sections ++ [written]).any Section.isPalette =
      (sections.any Section.isPalette || written.isPalette) := by
  rw [List.any_append, List.any_cons, List.any_nil, Bool.or_false]

/-- The cell of the first table, and of the only one. -/
def firstTable : TableRef := ⟨0⟩

/-- The table that an icon behind the sections refers to. -/
def tableRef? (sections : List Section) : Option TableRef :=
  if sections.any Section.isPalette then some firstTable else none

/-- The icons that sections add to a pack, where `current` is the table before them. -/
def packedIcons (current : Option TableRef) : List Section → List PackedIcon
  | [] => []
  | .palette _ _ :: rest => packedIcons (some firstTable) rest
  | .icon name records data :: rest =>
      ⟨name, Variant.ofRecords 0 records, data, current⟩ :: packedIcons current rest
  | .other _ _ :: rest => packedIcons current rest

theorem packedIcons_append (current : Option TableRef) (before after : List Section) :
    packedIcons current (before ++ after) =
      packedIcons current before ++ packedIcons ((tableRef? before).or current) after := by
  induction before generalizing current with
  | nil => rfl
  | cons first rest ih =>
      cases first with
      | palette slot colors =>
          have htable : (tableRef? rest).or (some firstTable) = some firstTable := by
            unfold tableRef?
            split <;> rfl
          rw [List.cons_append, packedIcons, packedIcons, ih, htable]
          rfl
      | icon name records data =>
          rw [List.cons_append, packedIcons, packedIcons, ih, List.cons_append]
          rfl
      | other tag payload =>
          rw [List.cons_append, packedIcons, packedIcons, ih]
          rfl

theorem exists_section_of_mem_packedIcons {current : Option TableRef} {sections : List Section}
    {entry : PackedIcon} (hentry : entry ∈ packedIcons current sections) :
    ∃ name records data palettes, Section.icon name records data ∈ sections ∧
      entry = ⟨name, Variant.ofRecords 0 records, data, palettes⟩ := by
  induction sections generalizing current with
  | nil => cases hentry
  | cons first rest ih =>
      cases first with
      | palette slot colors =>
          obtain ⟨name, records, data, palettes, hsection, rfl⟩ := ih hentry
          exact ⟨name, records, data, palettes, List.mem_cons_of_mem _ hsection, rfl⟩
      | icon name records data =>
          rcases List.mem_cons.mp hentry with rfl | hentry
          · exact ⟨name, records, data, current, List.mem_cons_self, rfl⟩
          · obtain ⟨name, records, data, palettes, hsection, rfl⟩ := ih hentry
            exact ⟨name, records, data, palettes, List.mem_cons_of_mem _ hsection, rfl⟩
      | other tag payload =>
          obtain ⟨name, records, data, palettes, hsection, rfl⟩ := ih hentry
          exact ⟨name, records, data, palettes, List.mem_cons_of_mem _ hsection, rfl⟩

/-- The data of an icon has no more bytes than the section that it stands in. -/
theorem Section.length_data_le {name : String} {records : List VariantRecord} {data : Bytes}
    (hformed : (Section.icon name records data).WellFormed) : data.length ≤ maxIconSize := by
  have hpayload := hformed.2.2.2.2
  simp only [Section.payload, List.length_cons, List.length_append] at hpayload
  omega

theorem length_packedIcons (current : Option TableRef) (sections : List Section) :
    (packedIcons current sections).length = sections.countP Section.isIcon := by
  induction sections generalizing current with
  | nil => rfl
  | cons first rest ih =>
      cases first with
      | palette slot colors => simp [packedIcons, ih, Section.isIcon]
      | icon name records data => simp [packedIcons, ih, List.countP_cons, Section.isIcon]
      | other tag payload => simp [packedIcons, ih, Section.isIcon]

/-! ## The table of a list of sections -/

/-- The table with what a section puts there. -/
def Section.insertInto (table : PaletteTable) : Section → PaletteTable
  | .palette slot colors => table.insert slot.toNat colors
  | _ => table

/-- The table that all palettes go to, one after another. -/
def tableOf (sections : List Section) : PaletteTable :=
  sections.foldl Section.insertInto .empty

theorem tableOf_concat (sections : List Section) (written : Section) :
    tableOf (sections ++ [written]) = written.insertInto (tableOf sections) := by
  rw [tableOf, List.foldl_append]
  rfl

theorem tableOf_of_no_palette {sections : List Section}
    (hnone : sections.any Section.isPalette = false) : tableOf sections = .empty := by
  unfold tableOf
  induction sections with
  | nil => rfl
  | cons first rest ih =>
      obtain ⟨hfirst, hrest⟩ := Bool.or_eq_false_iff.mp hnone
      cases first with
      | palette slot colors => cases hfirst
      | icon name records data => exact ih hrest
      | other tag payload => exact ih hrest

/-! ## Putting sections together -/

namespace Assembly

theorem ofSections_concat (sections : List Section) (written : Section) :
    ofSections (sections ++ [written]) = (ofSections sections).add written := by
  rw [ofSections, List.foldl_append]
  rfl

/-- What an assembly has from sections. -/
structure Holds (assembly : Assembly) (sections : List Section) : Prop where
  current_eq : assembly.current = tableRef? sections
  tables_eq : assembly.pack.tables =
    if sections.any Section.isPalette then #[tableOf sections] else #[]
  entries_eq : assembly.pack.entries.toList = packedIcons none sections

/-- The current table is the first one that was made, and it takes the palette. -/
theorem Holds.add_palette {assembly : Assembly} {sections : List Section}
    (hholds : assembly.Holds sections) (slot : UInt8) (colors : Palette) :
    (assembly.add (.palette slot colors)).current = some firstTable ∧
      (assembly.add (.palette slot colors)).pack.tables =
        #[(tableOf sections).insert slot.toNat colors] ∧
      (assembly.add (.palette slot colors)).pack.entries = assembly.pack.entries := by
  obtain ⟨⟨entries, positions, tables⟩, current⟩ := assembly
  obtain ⟨hcurrent, htables, -⟩ := hholds
  dsimp only at hcurrent htables
  cases hpalette : sections.any Section.isPalette with
  | false =>
      rw [tableRef?, hpalette] at hcurrent
      rw [hpalette] at htables
      subst hcurrent htables
      rw [tableOf_of_no_palette hpalette]
      exact ⟨rfl, rfl, rfl⟩
  | true =>
      rw [tableRef?, hpalette] at hcurrent
      rw [hpalette] at htables
      subst hcurrent htables
      exact ⟨rfl, rfl, rfl⟩

theorem Holds.add {assembly : Assembly} {sections : List Section}
    (hholds : assembly.Holds sections) (written : Section) :
    (assembly.add written).Holds (sections ++ [written]) := by
  have hentries := packedIcons_append none sections [written]
  rw [Option.or_none] at hentries
  cases written with
  | palette slot colors =>
      obtain ⟨hcurrent, htables, hsame⟩ := hholds.add_palette slot colors
      have hpalette : (sections ++ [Section.palette slot colors]).any Section.isPalette = true :=
        (any_isPalette_concat _ _).trans (Bool.or_true _)
      refine ⟨?_, ?_, ?_⟩
      · rw [hcurrent, tableRef?, hpalette]
        rfl
      · rw [htables, hpalette, tableOf_concat]
        rfl
      · rw [hsame, hholds.entries_eq, hentries]
        exact (List.append_nil _).symm
  | icon name records data =>
      have hpalette : (sections ++ [Section.icon name records data]).any Section.isPalette =
          sections.any Section.isPalette :=
        (any_isPalette_concat _ _).trans (Bool.or_false _)
      refine ⟨?_, ?_, ?_⟩
      · rw [tableRef?, hpalette]
        exact hholds.current_eq
      · rw [hpalette, tableOf_concat]
        exact hholds.tables_eq
      · change (assembly.pack.entries.push _).toList = _
        rw [Array.toList_push, hholds.entries_eq, hholds.current_eq, hentries]
        rfl
  | other tag payload =>
      have hpalette : (sections ++ [Section.other tag payload]).any Section.isPalette =
          sections.any Section.isPalette :=
        (any_isPalette_concat _ _).trans (Bool.or_false _)
      refine ⟨?_, ?_, ?_⟩
      · rw [tableRef?, hpalette]
        exact hholds.current_eq
      · rw [hpalette, tableOf_concat]
        exact hholds.tables_eq
      · rw [hentries]
        exact hholds.entries_eq.trans (List.append_nil _).symm

theorem holds_ofSections (sections : List Section) : (ofSections sections).Holds sections := by
  induction sections using List.reverseRecOn with
  | nil => exact ⟨rfl, rfl, rfl⟩
  | append_singleton sections written ih =>
      rw [ofSections_concat]
      exact ih.add written

end Assembly

namespace Pack

/-- The entries of a pack are the icons of its sections. -/
theorem entries_ofSections (sections : List Section) :
    (ofSections sections).entries.toList = packedIcons none sections :=
  (Assembly.holds_ofSections sections).entries_eq

/-- With a palette in a pack, the first cell has its table. -/
theorem table?_firstTable {sections : List Section}
    (hpalette : sections.any Section.isPalette = true) :
    (ofSections sections).table? firstTable = some (tableOf sections) := by
  have htables := (Assembly.holds_ofSections sections).tables_eq
  rw [hpalette, if_pos rfl] at htables
  rw [table?, ofSections, htables]
  rfl

theorem icons_ofSections (sections : List Section) :
    (ofSections sections).icons =
      (packedIcons none sections).map (ofSections sections).toIcon := by
  rw [icons, entries_ofSections]

/-- Each icon of a pack comes from an icon section. -/
theorem exists_section_of_mem_icons {sections : List Section} {icon : Icon}
    (hicon : icon ∈ (ofSections sections).icons) :
    ∃ name records data palettes, Section.icon name records data ∈ sections ∧
      icon = ⟨name, Variant.ofRecords 0 records, data, palettes⟩ := by
  rw [icons_ofSections] at hicon
  obtain ⟨entry, hentry, rfl⟩ := List.mem_map.mp hicon
  obtain ⟨name, records, data, palettes, hsection, rfl⟩ :=
    exists_section_of_mem_packedIcons hentry
  exact ⟨name, records, data, _, hsection, rfl⟩

/-- An icon section makes an entry at the position that the number of icons before it gives. -/
theorem getElem?_entries_ofSections (before after : List Section) (name : String)
    (records : List VariantRecord) (data : Bytes) :
    (ofSections (before ++ .icon name records data :: after)).entries[
        before.countP Section.isIcon]? =
      some ⟨name, Variant.ofRecords 0 records, data, tableRef? before⟩ := by
  rw [← Array.getElem?_toList, entries_ofSections, packedIcons_append, packedIcons,
    ← length_packedIcons none before, Option.or_none, List.getElem?_append_right (Nat.le_refl _),
    Nat.sub_self, List.getElem?_cons_zero]

/-- The icon of that entry sees the table of all sections if a palette stands before it. -/
theorem icon?_of_append (before after : List Section) (name : String)
    (records : List VariantRecord) (data : Bytes) :
    (ofSections (before ++ .icon name records data :: after)).icon?
        (before.countP Section.isIcon) =
      some ⟨name, Variant.ofRecords 0 records, data,
        if before.any Section.isPalette then
          some (tableOf (before ++ .icon name records data :: after))
        else none⟩ := by
  rw [icon?, getElem?_entries_ofSections, Option.map_some, toIcon, tableRef?]
  split
  · rename_i hbefore
    have hpalette : (before ++ .icon name records data :: after).any Section.isPalette = true := by
      rw [List.any_append, hbefore, Bool.true_or]
    rw [Option.bind_eq_bind, Option.bind_some, table?_firstTable hpalette]
  · rfl

/-! ## Finding icons by name -/

/-- The last icon with the given name stands at this position. -/
def IsLastNamed (pack : Pack) (name : String) (position : Nat) : Prop :=
  (∃ entry, pack.entries[position]? = some entry ∧ entry.name = name) ∧
    ∀ later entry, position < later → pack.entries[later]? = some entry → entry.name ≠ name

/-- Whether a pack finds the last icon of each name, and none where there is none. -/
def FindsLast (pack : Pack) : Prop :=
  ∀ name position, pack.position? name = some position ↔ pack.IsLastNamed name position

theorem findsLast_empty : FindsLast empty := by
  intro name position
  constructor
  · intro hfound
    rw [position?, empty, Std.HashMap.getElem?_empty] at hfound
    cases hfound
  · rintro ⟨⟨entry, hentry, -⟩, -⟩
    cases hentry

theorem getElem?_entries_push (pack : Pack) (entry : PackedIcon) (position : Nat) :
    (pack.push entry).entries[position]? =
      if position = pack.entries.size then some entry else pack.entries[position]? :=
  Array.getElem?_push

theorem lt_size_of_getElem?_entries {pack : Pack} {entry : PackedIcon} {position : Nat}
    (hentry : pack.entries[position]? = some entry) : position < pack.entries.size :=
  (Array.getElem?_eq_some_iff.mp hentry).1

/-- The entry that is pushed is the last one with its name. -/
theorem isLastNamed_push_iff (pack : Pack) (entry : PackedIcon) (position : Nat) :
    (pack.push entry).IsLastNamed entry.name position ↔ position = pack.entries.size := by
  constructor
  · rintro ⟨⟨found, hfound, -⟩, hlater⟩
    apply Decidable.byContradiction
    intro hne
    rw [getElem?_entries_push, if_neg hne] at hfound
    have hpushed : (pack.push entry).entries[pack.entries.size]? = some entry := by
      rw [getElem?_entries_push, if_pos rfl]
    exact hlater _ entry (lt_size_of_getElem?_entries hfound) hpushed rfl
  · rintro rfl
    constructor
    · exact ⟨entry, by rw [getElem?_entries_push, if_pos rfl], rfl⟩
    · intro later other hlater hother
      rw [getElem?_entries_push, if_neg (Nat.ne_of_gt hlater)] at hother
      have hwithin := lt_size_of_getElem?_entries hother
      omega

/-- For other names nothing changes. -/
theorem isLastNamed_push_iff_of_ne {pack : Pack} {entry : PackedIcon} {name : String}
    (hname : entry.name ≠ name) (position : Nat) :
    (pack.push entry).IsLastNamed name position ↔ pack.IsLastNamed name position := by
  constructor
  · rintro ⟨⟨found, hfound, hfoundName⟩, hlater⟩
    have hne : position ≠ pack.entries.size := by
      rintro rfl
      rw [getElem?_entries_push, if_pos rfl] at hfound
      exact hname (Option.some.inj hfound ▸ hfoundName)
    rw [getElem?_entries_push, if_neg hne] at hfound
    refine ⟨⟨found, hfound, hfoundName⟩, ?_⟩
    intro later other hlt hother
    apply hlater later other hlt
    rw [getElem?_entries_push, if_neg (Nat.ne_of_lt (lt_size_of_getElem?_entries hother))]
    exact hother
  · rintro ⟨⟨found, hfound, hfoundName⟩, hlater⟩
    constructor
    · refine ⟨found, ?_, hfoundName⟩
      rw [getElem?_entries_push, if_neg (Nat.ne_of_lt (lt_size_of_getElem?_entries hfound))]
      exact hfound
    · intro later other hlt hother
      rw [getElem?_entries_push] at hother
      split at hother
      · exact Option.some.inj hother ▸ hname
      · exact hlater later other hlt hother

theorem FindsLast.push {pack : Pack} (hfinds : pack.FindsLast) (entry : PackedIcon) :
    (pack.push entry).FindsLast := by
  intro name position
  have hposition : (pack.push entry).position? name =
      if entry.name == name then some pack.entries.size else pack.position? name :=
    Std.HashMap.getElem?_insert
  rw [hposition]
  by_cases hname : entry.name = name
  · rw [if_pos (beq_iff_eq.mpr hname), ← hname, isLastNamed_push_iff, Option.some_inj, eq_comm]
  · rw [if_neg (by rwa [beq_iff_eq]), isLastNamed_push_iff_of_ne hname]
    exact hfinds name position

/-- What a section adds to a pack finds the last icons if the pack does. -/
theorem FindsLast.add {assembly : Assembly} (hfinds : assembly.pack.FindsLast)
    (written : Section) : (assembly.add written).pack.FindsLast := by
  cases written with
  | palette slot colors =>
      obtain ⟨pack, current⟩ := assembly
      cases current <;> exact hfinds
  | icon name records data => exact hfinds.push _
  | other tag payload => exact hfinds

/-- A pack that sections make finds the last icon of each name. -/
theorem findsLast_ofSections (sections : List Section) : (ofSections sections).FindsLast := by
  induction sections using List.reverseRecOn with
  | nil => exact findsLast_empty
  | append_singleton sections written ih =>
      rw [ofSections, Assembly.ofSections_concat]
      exact ih.add written

end Pack
end VectorIcons
