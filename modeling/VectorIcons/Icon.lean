import VectorIcons.Program.Drawing

/-!
# Icons

An icon has variants, each drawn for a size of its own, and the programs of all
variants lie in one byte string.  A variant names its part of it; a part that
reaches past the end has no program.

A request for a size picks the first variant that is no larger.  If every variant
is larger, it picks the last one.
-/

namespace VectorIcons

/-! ## Variants -/

/-- One version of an icon: the size it was drawn for, and where its program lies
in the data of the icon. -/
structure Variant where
  width : UInt16
  height : UInt16
  offset : UInt32
  size : UInt32
deriving DecidableEq, Repr

/-- Whether the variant is no larger than `width` by `height`. -/
def Variant.fits (variant : Variant) (width height : UInt16) : Bool :=
  variant.width ≤ width && variant.height ≤ height

/-! ## Icons -/

structure Icon where
  name : String
  variants : List Variant
  data : Bytes
  /-- The table that palette fills take their colors from. -/
  palettes : Option PaletteTable
deriving DecidableEq, Repr

namespace Icon

/-- The first variant that fits `width` by `height`, or the last variant if none
does. -/
def select? (icon : Icon) (width height : UInt16) : Option Variant :=
  match icon.variants.find? fun variant => variant.fits width height with
  | some variant => some variant
  | none => icon.variants.getLast?

/-- The program of a variant, if it lies within the data. -/
def program? (icon : Icon) (variant : Variant) : Option Bytes :=
  if variant.offset.toNat + variant.size.toNat ≤ icon.data.length then
    some ((icon.data.drop variant.offset.toNat).take variant.size.toNat)
  else none

/-- The color at `index` of the palette in the slot `selector`. -/
def color? (icon : Icon) (selector index : Nat) : Option Rgba :=
  PaletteChoice.color? ⟨icon.palettes, selector⟩ index

/-- Draws the variant selected for `width` by `height` with the palette in the slot
`selector`.  Without a program for it, the canvas is only told so. -/
def draw (icon : Icon) (width height : UInt16) (selector : Nat) : Drawing :=
  match icon.select? width height >>= icon.program? with
  | some program => VectorIcons.draw program ⟨icon.palettes, selector⟩
  | none => ⟨[.error .emptyImage], .error .emptyImage, [.noDrawableVariant icon.name]⟩

/-! ## The length of a program -/

/-- A program has as many bytes as its variant says. -/
theorem length_of_program?_eq_some {icon : Icon} {variant : Variant} {program : Bytes}
    (hprogram : icon.program? variant = some program) :
    program.length = variant.size.toNat := by
  unfold program? at hprogram
  split at hprogram
  · rename_i hwithin
    rw [← Option.some.inj hprogram, List.length_take, List.length_drop]
    omega
  · exact absurd hprogram (by simp)

end Icon
end VectorIcons
