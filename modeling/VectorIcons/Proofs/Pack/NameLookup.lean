import Mathlib.Data.Nat.Find
import VectorIcons.Proofs.Pack.SectionParsing
import VectorIcons.Proofs.Pack.Contents

/-!
# Finding icons by name

A pack keeps its icons in an array and, beside it, a position for each name.  Icons of the same
name may be pushed as often as one likes; the position is then that of the last one, and the
others are still in their places: `findsLastIcon`.

## Strategy

`FindsLast` relates the positions to the array and is kept by a push, so it holds after any number
of pushes (`findsLast_pushAll`).  What an icon section adds to a pack is a push, and what any other
section adds leaves icons and positions alone.  So a loaded pack has the very positions that
pushing its icons gives (`ofSections_eq_pushAll`), and both kinds of packs are settled at once.

For a name without a position it remains to see that no icon has it: an array with such an icon
has a last one (`exists_isLastNamed`).
-/

namespace VectorIcons
namespace Pack

/-! ## Pushing many icons -/

/-- The pack after icons were pushed one after another. -/
def pushAll (pack : Pack) (entries : List PackedIcon) : Pack := entries.foldl push pack

@[simp] theorem pushAll_cons (pack : Pack) (entry : PackedIcon) (entries : List PackedIcon) :
    pack.pushAll (entry :: entries) = (pack.push entry).pushAll entries := rfl

theorem entries_pushAll (pack : Pack) (entries : List PackedIcon) :
    (pack.pushAll entries).entries.toList = pack.entries.toList ++ entries := by
  induction entries generalizing pack with
  | nil => exact (List.append_nil _).symm
  | cons entry entries ih =>
      rw [pushAll_cons, ih, push, Array.toList_push, List.append_assoc]
      rfl

theorem findsLast_pushAll {pack : Pack} (hfinds : pack.FindsLast) (entries : List PackedIcon) :
    (pack.pushAll entries).FindsLast := by
  induction entries generalizing pack with
  | nil => exact hfinds
  | cons entry entries ih => exact ih (hfinds.push entry)

theorem pushAll_append (pack : Pack) (entries others : List PackedIcon) :
    pack.pushAll (entries ++ others) = (pack.pushAll entries).pushAll others :=
  List.foldl_append

/-- Icons are pushed without a look at the tables. -/
theorem pushAll_with_tables (pack : Pack) (tables : Array PaletteTable)
    (entries : List PackedIcon) :
    { pack with tables := tables }.pushAll entries =
      { pack.pushAll entries with tables := tables } := by
  induction entries generalizing pack with
  | nil => rfl
  | cons entry entries ih => exact ih (pack.push entry)

/-- What a section adds to a pack is pushing its icon, but for the tables. -/
theorem pack_add_eq_pushAll (assembly : Assembly) (written : Section) :
    (assembly.add written).pack =
      { assembly.pack.pushAll (packedIcons assembly.current [written]) with
        tables := (assembly.add written).pack.tables } := by
  cases written with
  | palette slot colors =>
      obtain ⟨pack, current⟩ := assembly
      cases current <;> rfl
  | icon name records data => rfl
  | other tag payload => rfl

/-- **A pack that sections make is what pushing their icons gives**, but for the tables. -/
theorem ofSections_eq_pushAll (sections : List Section) :
    ofSections sections =
      { empty.pushAll (packedIcons none sections) with
        tables := (ofSections sections).tables } := by
  induction sections using List.reverseRecOn with
  | nil => rfl
  | append_singleton sections written ih =>
      have hcurrent := (Assembly.holds_ofSections sections).current_eq
      have hadd := pack_add_eq_pushAll (Assembly.ofSections sections) written
      rw [show (Assembly.ofSections sections).pack = _ from ih, pushAll_with_tables,
        ← pushAll_append, hcurrent] at hadd
      rw [packedIcons_append, Option.or_none, ofSections, Assembly.ofSections_concat]
      exact hadd

/-! ## The last icon of a name -/

/-- Where one icon has a name, one of them is the last. -/
theorem exists_isLastNamed {pack : Pack} {position : Nat} {entry : PackedIcon}
    (hentry : pack.entries[position]? = some entry) :
    ∃ last, pack.IsLastNamed entry.name last := by
  classical
  let Named (place : Nat) : Prop :=
    ∃ other, pack.entries[place]? = some other ∧ other.name = entry.name
  have hwithin : position ≤ pack.entries.size := Nat.le_of_lt (lt_size_of_getElem?_entries hentry)
  have hlast : Named (Nat.findGreatest Named pack.entries.size) :=
    Nat.findGreatest_spec hwithin ⟨entry, hentry, rfl⟩
  refine ⟨_, hlast, ?_⟩
  intro later other hlater hother hname
  have hle : later ≤ pack.entries.size := Nat.le_of_lt (lt_size_of_getElem?_entries hother)
  exact Nat.findGreatest_is_greatest hlater hle ⟨other, hother, hname⟩

theorem icon?_eq_some_iff {pack : Pack} {position : Nat} {icon : Icon} :
    pack.icon? position = some icon ↔
      ∃ entry, pack.entries[position]? = some entry ∧ pack.toIcon entry = icon :=
  Option.map_eq_some_iff

/-- The icon at this position is the last one with the given name. -/
def IsLastIcon (pack : Pack) (name : String) (position : Nat) (icon : Icon) : Prop :=
  (pack.icon? position = some icon ∧ icon.name = name) ∧
    ∀ later other, position < later → pack.icon? later = some other → other.name ≠ name

theorem isLastNamed_iff {pack : Pack} {name : String} {position : Nat} :
    pack.IsLastNamed name position ↔ ∃ icon, pack.IsLastIcon name position icon := by
  constructor
  · rintro ⟨⟨entry, hentry, hname⟩, hlater⟩
    refine ⟨pack.toIcon entry, ⟨icon?_eq_some_iff.mpr ⟨entry, hentry, rfl⟩, hname⟩, ?_⟩
    intro later other hlt hother
    obtain ⟨found, hfound, rfl⟩ := icon?_eq_some_iff.mp hother
    exact hlater later found hlt hfound
  · rintro ⟨icon, ⟨hicon, hname⟩, hlater⟩
    obtain ⟨entry, hentry, rfl⟩ := icon?_eq_some_iff.mp hicon
    refine ⟨⟨entry, hentry, hname⟩, ?_⟩
    intro later other hlt hother
    exact hlater later _ hlt (icon?_eq_some_iff.mpr ⟨other, hother, rfl⟩)

/-! ## Finding -/

/-- A pack has these icons in this order, and finds the last one of each name. -/
structure Keeps (pack : Pack) (entries : List PackedIcon) : Prop where
  /-- Each icon is at its own position, also if another one has its name. -/
  icon?_eq : ∀ position, pack.icon? position = entries[position]?.map pack.toIcon
  icons_eq : pack.icons = entries.map pack.toIcon
  find?_eq_some_iff : ∀ name icon,
    pack.find? name = some icon ↔ ∃ position, pack.IsLastIcon name position icon
  find?_eq_none_iff : ∀ name, pack.find? name = none ↔ ∀ icon ∈ pack.icons, icon.name ≠ name
  /-- No stored position is behind the last icon. -/
  lt_size : ∀ (name : String) (position : Nat),
    pack.positions[name]? = some position → position < pack.size

section Finding

variable {pack : Pack} (hfinds : pack.FindsLast)
include hfinds

theorem FindsLast.find?_eq_some_iff (name : String) (icon : Icon) :
    pack.find? name = some icon ↔ ∃ position, pack.IsLastIcon name position icon := by
  constructor
  · intro hfound
    obtain ⟨position, hposition, hicon⟩ := Option.bind_eq_some_iff.mp hfound
    obtain ⟨found, hlast⟩ := isLastNamed_iff.mp ((hfinds name position).mp hposition)
    rw [hlast.1.1] at hicon
    exact ⟨position, Option.some.inj hicon ▸ hlast⟩
  · rintro ⟨position, hlast⟩
    have hposition := (hfinds name position).mpr (isLastNamed_iff.mpr ⟨icon, hlast⟩)
    exact Option.bind_eq_some_iff.mpr ⟨position, hposition, hlast.1.1⟩

theorem FindsLast.find?_eq_none_iff (name : String) :
    pack.find? name = none ↔ ∀ icon ∈ pack.icons, icon.name ≠ name := by
  constructor
  · intro hnone icon hicon hname
    obtain ⟨position, hposition⟩ := List.mem_iff_getElem?.mp hicon
    rw [getElem?_icons] at hposition
    obtain ⟨entry, hentry, rfl⟩ := icon?_eq_some_iff.mp hposition
    -- This icon may not be the last one of its name, but then there is a last one to be found.
    obtain ⟨last, hlast⟩ := exists_isLastNamed hentry
    obtain ⟨found, hfound⟩ := isLastNamed_iff.mp hlast
    have hfind := (hfinds.find?_eq_some_iff entry.name found).mpr ⟨last, hfound⟩
    rw [← hname, show (pack.toIcon entry).name = entry.name from rfl, hfind] at hnone
    cases hnone
  · intro hnames
    rw [Option.eq_none_iff_forall_ne_some]
    intro icon hfound
    obtain ⟨position, ⟨hicon, hname⟩, -⟩ := (hfinds.find?_eq_some_iff name icon).mp hfound
    rw [← getElem?_icons] at hicon
    exact hnames icon (List.mem_of_getElem? hicon) hname

theorem FindsLast.lt_size (name : String) (position : Nat)
    (hposition : pack.positions[name]? = some position) : position < pack.size := by
  obtain ⟨⟨entry, hentry, -⟩, -⟩ := (hfinds name position).mp hposition
  exact lt_size_of_getElem?_entries hentry

theorem FindsLast.keeps {entries : List PackedIcon} (hentries : pack.entries.toList = entries) :
    pack.Keeps entries where
  icon?_eq position := by rw [icon?, ← hentries, Array.getElem?_toList]
  icons_eq := by rw [icons, hentries]
  find?_eq_some_iff := hfinds.find?_eq_some_iff
  find?_eq_none_iff := hfinds.find?_eq_none_iff
  lt_size := hfinds.lt_size

end Finding

/-! ## Packs -/

/-- **A pack finds the last icon of each name**, after any icons were pushed and after any load, and
keeps the earlier icons of that name in their places.  A loaded pack is the pack after its icons
were pushed, with the tables that they refer to. -/
theorem findsLastIcon :
    (∀ entries, (empty.pushAll entries).Keeps entries) ∧
      ∀ bytes pack, (ofBytes bytes).result = .ok pack →
        ∃ count sections, bytes = packBytes count sections ∧
          pack = { empty.pushAll (packedIcons none sections) with tables := pack.tables } ∧
          pack.Keeps (packedIcons none sections) := by
  constructor
  · intro entries
    exact (findsLast_pushAll findsLast_empty entries).keeps (entries_pushAll empty entries)
  · intro bytes pack hload
    obtain ⟨count, sections, hbytes, -, rfl⟩ := ofBytes_eq_ok_iff.mp hload
    exact ⟨count, sections, hbytes, ofSections_eq_pushAll sections,
      (findsLast_ofSections sections).keeps (entries_ofSections sections)⟩

/-- Two icons share a name: by name only the second is found, by position both are. -/
theorem findsLastIcon_of_same_name :
    ∃ bytes pack, (ofBytes bytes).result = .ok pack ∧
      pack.icon? 0 = some ⟨"a", [⟨16, 16, 0, 1⟩], [0x00], none⟩ ∧
      pack.icon? 2 = some ⟨"a", [⟨32, 32, 0, 0⟩], [], none⟩ ∧
      pack.find? "a" = pack.icon? 2 ∧ pack.find? "c" = none := by
  let sections : List Section :=
    [.icon "a" [⟨16, 16, 1⟩] [0x00], .icon "b" [⟨16, 16, 0⟩] [], .icon "a" [⟨32, 32, 0⟩] []]
  have hformed : ∀ written ∈ sections, written.WellFormed := by decide
  have hload := result_ofBytes_packBytes 3 hformed
  have hicons : (ofSections sections).icons = [⟨"a", [⟨16, 16, 0, 1⟩], [0x00], none⟩,
      ⟨"b", [⟨16, 16, 0, 0⟩], [], none⟩, ⟨"a", [⟨32, 32, 0, 0⟩], [], none⟩] :=
    icons_ofSections sections
  obtain ⟨_, _, _, _, hkeeps⟩ := findsLastIcon.2 _ _ hload
  have hfirst : (ofSections sections).icon? 0 = some ⟨"a", [⟨16, 16, 0, 1⟩], [0x00], none⟩ := by
    rw [← getElem?_icons, hicons]
    rfl
  have hsecond : (ofSections sections).icon? 2 = some ⟨"a", [⟨32, 32, 0, 0⟩], [], none⟩ := by
    rw [← getElem?_icons, hicons]
    rfl
  refine ⟨_, _, hload, hfirst, hsecond, ?_, ?_⟩
  · rw [hsecond, hkeeps.find?_eq_some_iff]
    refine ⟨2, ⟨hsecond, rfl⟩, ?_⟩
    intro later other hlater hother
    rw [← getElem?_icons, hicons, List.getElem?_eq_none hlater] at hother
    cases hother
  · rw [hkeeps.find?_eq_none_iff, hicons]
    decide

end Pack
end VectorIcons
