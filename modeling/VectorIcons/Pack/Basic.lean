import Std.Data.HashMap
import VectorIcons.Icon
import VectorIcons.Pack.Section

/-!
# Packs

A pack holds icons in order and finds them by name; of icons with the same name it
finds the last.  A palette table lies in a cell of its own, and an icon has a
reference to the cell instead of a copy, so it sees what later palettes do to the
table.

A pack is put together from sections, one after another.  The first palette makes a
table, later ones go to the same table, and an icon takes a reference to it as it is
then.
-/

namespace VectorIcons

/-! ## Icons in a pack -/

/-- The sum of two words, or the largest word if the sum is too large. -/
def cappedSum (first second : UInt32) : UInt32 :=
  UInt32.ofNat (min (first.toNat + second.toNat) 0xffffffff)

theorem toNat_cappedSum (first second : UInt32) :
    (cappedSum first second).toNat = min (first.toNat + second.toNat) 0xffffffff := by
  unfold cappedSum
  rw [UInt32.toNat_ofNat']
  exact Nat.mod_eq_of_lt (by omega)

/-- The variants with the given records, whose programs lie one after another from
`offset` on. -/
def Variant.ofRecords (offset : UInt32) : List VariantRecord → List Variant
  | [] => []
  | record :: rest =>
      ⟨record.width, record.height, offset, record.size⟩ ::
        Variant.ofRecords (cappedSum offset record.size) rest

/-- A reference to a palette table: the cell that the table lies in. -/
structure TableRef where
  cell : Nat
deriving DecidableEq, Repr

/-- An icon as it lies in a pack. -/
structure PackedIcon where
  name : String
  variants : List Variant
  data : Bytes
  /-- The table that palette fills take their colors from. -/
  palettes : Option TableRef
deriving DecidableEq, Repr

/-! ## Packs -/

structure Pack where
  entries : Array PackedIcon
  /-- The position of the last icon of each name. -/
  positions : Std.HashMap String Nat
  /-- The cells with the tables that icons refer to. -/
  tables : Array PaletteTable

namespace Pack

def empty : Pack := ⟨#[], ∅, #[]⟩

def push (pack : Pack) (entry : PackedIcon) : Pack :=
  let position := pack.entries.size
  { pack with
    entries := pack.entries.push entry
    positions := pack.positions.insert entry.name position }

/-- A reference to a new table without palettes. -/
def newTable (pack : Pack) : TableRef × Pack :=
  (⟨pack.tables.size⟩, { pack with tables := pack.tables.push .empty })

/-- The pack with a palette in a slot of a table, for all that refer to the table. -/
def insertPalette (pack : Pack) (reference : TableRef) (slot : Nat) (palette : Palette) : Pack :=
  { pack with tables := pack.tables.modify reference.cell fun table => table.insert slot palette }

end Pack

/-! ## Putting a pack together -/

/-- A pack that is being put together. -/
structure Assembly where
  pack : Pack
  /-- The table that palettes go to, and that icons refer to from now on. -/
  current : Option TableRef

namespace Assembly

def empty : Assembly := ⟨.empty, none⟩

/-- The current table.  If there is none, a new one becomes the current table. -/
def getTable (assembly : Assembly) : TableRef × Assembly :=
  match assembly.current with
  | some reference => (reference, assembly)
  | none =>
      let (reference, pack) := assembly.pack.newTable
      (reference, ⟨pack, some reference⟩)

/-- The assembly after one more section. -/
def add (assembly : Assembly) : Section → Assembly
  | .palette slot colors =>
      let (reference, assembly) := assembly.getTable
      { assembly with pack := assembly.pack.insertPalette reference slot.toNat colors }
  | .icon name records data =>
      let entry := ⟨name, Variant.ofRecords 0 records, data, assembly.current⟩
      { assembly with pack := assembly.pack.push entry }
  | .other _ _ => assembly

/-- What sections make. -/
def ofSections (sections : List Section) : Assembly := sections.foldl add empty

end Assembly

namespace Pack

/-- The pack that sections make. -/
def ofSections (sections : List Section) : Pack := (Assembly.ofSections sections).pack

/-! ## Reading a pack -/

def size (pack : Pack) : Nat := pack.entries.size

/-- The table that a reference leads to. -/
def table? (pack : Pack) (reference : TableRef) : Option PaletteTable :=
  pack.tables[reference.cell]?

/-- An entry as an icon of its own, with the table that it sees. -/
def toIcon (pack : Pack) (entry : PackedIcon) : Icon :=
  ⟨entry.name, entry.variants, entry.data, entry.palettes >>= pack.table?⟩

def icons (pack : Pack) : List Icon := pack.entries.toList.map pack.toIcon

def icon? (pack : Pack) (position : Nat) : Option Icon :=
  pack.entries[position]?.map pack.toIcon

/-- The position of the last icon with the given name. -/
def position? (pack : Pack) (name : String) : Option Nat := pack.positions[name]?

/-- The last icon with the given name. -/
def find? (pack : Pack) (name : String) : Option Icon :=
  pack.position? name >>= pack.icon?

/-- The table that the icon at a position refers to. -/
def reference? (pack : Pack) (position : Nat) : Option TableRef :=
  pack.entries[position]? >>= PackedIcon.palettes

/-- Whether the icons at two positions refer to the same table.  There is no answer if
one of them refers to none. -/
def sameTable? (pack : Pack) (first second : Nat) : Option Bool := do
  let one ← pack.reference? first
  let other ← pack.reference? second
  return one = other

/-- The icons as a list stand at their positions. -/
theorem getElem?_icons (pack : Pack) (position : Nat) :
    pack.icons[position]? = pack.icon? position := by
  unfold icons icon?
  rw [List.getElem?_map, Array.getElem?_toList]

@[simp] theorem length_icons (pack : Pack) : pack.icons.length = pack.size := by
  unfold icons size
  rw [List.length_map, Array.length_toList]

end Pack
end VectorIcons
