import VectorIcons.Color

/-!
# Palettes

A palette is a list of colors, and a palette table holds palettes in numbered
slots.  A drawing picks one palette of a table by a selector; its fills then name
colors of that palette by index.
-/

namespace VectorIcons

abbrev Palette := List Rgba

/-- Palettes by slot. -/
structure PaletteTable where
  palettes : List Palette
deriving DecidableEq, Repr

namespace PaletteTable

def empty : PaletteTable := ⟨[]⟩

def size (table : PaletteTable) : Nat := table.palettes.length

def get? (table : PaletteTable) (slot : Nat) : Option Palette := table.palettes[slot]?

/-- The color at `index` of the palette in the slot `selector`. -/
def color? (table : PaletteTable) (selector index : Nat) : Option Rgba :=
  table.get? selector >>= fun palette => palette[index]?

/-- The table with `palette` in `slot`.  Slots that are missing before it become
empty palettes. -/
def insert (table : PaletteTable) (slot : Nat) (palette : Palette) : PaletteTable :=
  ⟨(table.palettes ++ List.replicate (slot + 1 - table.palettes.length) []).set slot palette⟩

/-- The table after the palettes of `assignments` went into their slots in order;
there is none without any assignment. -/
def ofAssignments (assignments : List (Nat × Palette)) : Option PaletteTable :=
  if assignments.isEmpty then none
  else some (assignments.foldl (fun table (slot, palette) => table.insert slot palette) empty)

theorem size_insert (table : PaletteTable) (slot : Nat) (palette : Palette) :
    (table.insert slot palette).size = max table.size (slot + 1) := by
  simp only [size, insert, List.length_set, List.length_append, List.length_replicate]
  omega

/-- A slot holds what was put there last; the others keep their palette, and a
slot that came into being on the way is empty. -/
theorem get?_insert (table : PaletteTable) (slot other : Nat) (palette : Palette) :
    (table.insert slot palette).get? other =
      if other = slot then some palette
      else if other < table.size then table.get? other
      else if other < slot then some [] else none := by
  simp only [get?, insert, size, List.getElem?_set, List.getElem?_append,
    List.getElem?_replicate, List.length_append, List.length_replicate]
  by_cases hsame : slot = other
  · subst hsame
    have hlt : slot < table.palettes.length + (slot + 1 - table.palettes.length) := by omega
    simp [hlt]
  · have hother : other ≠ slot := fun h => hsame h.symm
    rw [if_neg hsame, if_neg hother]
    by_cases hlt : other < table.palettes.length
    · simp [hlt]
    · by_cases hbelow : other < slot
      · have hgap : other - table.palettes.length < slot + 1 - table.palettes.length := by omega
        simp [hlt, hbelow, hgap]
      · have hgap : ¬ other - table.palettes.length < slot + 1 - table.palettes.length := by omega
        simp [hlt, hbelow, hgap]

end PaletteTable

/-- The palette that a drawing takes its indexed colors from: a slot of a table,
if there is a table. -/
structure PaletteChoice where
  table : Option PaletteTable
  selector : Nat
deriving DecidableEq, Repr

namespace PaletteChoice

/-- The color at `index` of the chosen palette. -/
def color? (choice : PaletteChoice) (index : Nat) : Option Rgba :=
  choice.table >>= fun table => table.color? choice.selector index

end PaletteChoice
end VectorIcons
