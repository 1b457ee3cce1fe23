import VectorIcons.Icon

/-!
# Which variant is selected

A request for a size selects the first variant that is no larger, or the last variant if all are
larger.  Variants may have any sizes in any order, and several may be equal, so a selection is a
position (`selectedPosition?`) and not just a variant.

A larger request never selects a later position: `selectsFirstFit`.  The variant that fits the
smaller request fits the larger one too, so the search for the larger one ends there or before; and
where nothing fits the smaller request, its position is the last one.
-/

namespace VectorIcons
namespace Icon

/-! ## Positions -/

/-- The position of the last variant. -/
def lastPosition? (icon : Icon) : Option Nat :=
  if icon.variants = [] then none else some (icon.variants.length - 1)

/-- The position of the variant that is selected for `width` by `height`. -/
def selectedPosition? (icon : Icon) (width height : UInt16) : Option Nat :=
  match icon.variants.findIdx? fun variant => variant.fits width height with
  | some position => some position
  | none => icon.lastPosition?

/-- The variant at a position is no larger than `width` by `height`. -/
def FitsAt (icon : Icon) (width height : UInt16) (position : Nat) : Prop :=
  ∃ variant, icon.variants[position]? = some variant ∧
    variant.width ≤ width ∧ variant.height ≤ height

/-- This is the position of the first variant that fits, or that of the last variant if none
does. -/
def IsChoice (icon : Icon) (width height : UInt16) (position : Nat) : Prop :=
  (icon.FitsAt width height position ∧
      ∀ earlier, earlier < position → ¬ icon.FitsAt width height earlier) ∨
    ((∀ any, ¬ icon.FitsAt width height any) ∧ position + 1 = icon.variants.length)

/-- What a request for a size selects. -/
structure SelectsFirstFit (icon : Icon) : Prop where
  exists_selected : icon.variants ≠ [] → ∀ width height, ∃ position variant,
    icon.selectedPosition? width height = some position ∧
      icon.variants[position]? = some variant ∧ icon.select? width height = some variant
  selectedPosition?_eq_some_iff : ∀ width height position,
    icon.selectedPosition? width height = some position ↔ icon.IsChoice width height position
  /-- A larger request is never answered by a later variant. -/
  le_of_le : ∀ {width height largerWidth largerHeight position other},
    width ≤ largerWidth → height ≤ largerHeight →
      icon.selectedPosition? width height = some position →
        icon.selectedPosition? largerWidth largerHeight = some other → other ≤ position

section Search

variable {icon : Icon} {width height : UInt16} {position : Nat}

theorem fitsAt_iff :
    icon.FitsAt width height position ↔
      ∃ h : position < icon.variants.length, icon.variants[position].fits width height = true := by
  simp only [FitsAt, Variant.fits, Bool.and_eq_true, decide_eq_true_eq, List.getElem?_eq_some_iff]
  constructor
  · rintro ⟨_, ⟨hlt, rfl⟩, hfits⟩
    exact ⟨hlt, hfits⟩
  · rintro ⟨hlt, hfits⟩
    exact ⟨_, ⟨hlt, rfl⟩, hfits⟩

theorem findIdx?_fits_eq_some_iff :
    (icon.variants.findIdx? fun variant => variant.fits width height) = some position ↔
      icon.FitsAt width height position ∧
        ∀ earlier, earlier < position → ¬ icon.FitsAt width height earlier := by
  rw [List.findIdx?_eq_some_iff_getElem, fitsAt_iff]
  constructor
  · rintro ⟨hlt, hfits, hnone⟩
    refine ⟨⟨hlt, hfits⟩, ?_⟩
    intro earlier hearlier hother
    obtain ⟨_, hother⟩ := fitsAt_iff.mp hother
    exact hnone earlier hearlier hother
  · rintro ⟨⟨hlt, hfits⟩, hnone⟩
    refine ⟨hlt, hfits, ?_⟩
    intro earlier hearlier hother
    exact hnone earlier hearlier (fitsAt_iff.mpr ⟨Nat.lt_trans hearlier hlt, hother⟩)

theorem findIdx?_fits_eq_none_iff :
    (icon.variants.findIdx? fun variant => variant.fits width height) = none ↔
      ∀ any, ¬ icon.FitsAt width height any := by
  rw [List.findIdx?_eq_none_iff]
  constructor
  · intro hnone any hany
    obtain ⟨hlt, hfits⟩ := fitsAt_iff.mp hany
    rw [hnone _ (List.getElem_mem hlt)] at hfits
    cases hfits
  · intro hnone variant hvariant
    obtain ⟨any, hlt, rfl⟩ := List.getElem_of_mem hvariant
    exact Bool.eq_false_iff.mpr fun hfits => hnone any (fitsAt_iff.mpr ⟨hlt, hfits⟩)

theorem lastPosition?_eq_some_iff :
    icon.lastPosition? = some position ↔ position + 1 = icon.variants.length := by
  have hlength := List.length_eq_zero_iff (l := icon.variants)
  unfold lastPosition?
  split
  · rename_i hempty
    have hzero := hlength.mpr hempty
    simp [hzero]
  · rename_i hmore
    have hpos : icon.variants.length ≠ 0 := fun hzero => hmore (hlength.mp hzero)
    rw [Option.some_inj]
    omega

theorem selectedPosition?_of_fitsAt (hfits : icon.FitsAt width height position)
    (hfirst : ∀ earlier, earlier < position → ¬ icon.FitsAt width height earlier) :
    icon.selectedPosition? width height = some position := by
  rw [selectedPosition?, findIdx?_fits_eq_some_iff.mpr ⟨hfits, hfirst⟩]

theorem selectedPosition?_of_not_fitsAt (hnone : ∀ any, ¬ icon.FitsAt width height any) :
    icon.selectedPosition? width height = icon.lastPosition? := by
  rw [selectedPosition?, findIdx?_fits_eq_none_iff.mpr hnone]

theorem selectedPosition?_eq_some_iff :
    icon.selectedPosition? width height = some position ↔ icon.IsChoice width height position := by
  constructor
  · intro hselected
    unfold selectedPosition? at hselected
    cases hfound : icon.variants.findIdx? fun variant => variant.fits width height with
    | some first =>
        rw [hfound] at hselected
        exact .inl (findIdx?_fits_eq_some_iff.mp (hfound.trans hselected))
    | none =>
        rw [hfound] at hselected
        exact .inr ⟨findIdx?_fits_eq_none_iff.mp hfound, lastPosition?_eq_some_iff.mp hselected⟩
  · rintro (⟨hfits, hfirst⟩ | ⟨hnone, hlast⟩)
    · exact selectedPosition?_of_fitsAt hfits hfirst
    · rw [selectedPosition?_of_not_fitsAt hnone]
      exact lastPosition?_eq_some_iff.mpr hlast

theorem lt_length_of_selectedPosition?
    (hselected : icon.selectedPosition? width height = some position) :
    position < icon.variants.length := by
  rcases selectedPosition?_eq_some_iff.mp hselected with ⟨hfits, -⟩ | ⟨-, hlast⟩
  · exact (fitsAt_iff.mp hfits).1
  · omega

theorem exists_selectedPosition? (hvariants : icon.variants ≠ []) (width height : UInt16) :
    ∃ position, icon.selectedPosition? width height = some position := by
  unfold selectedPosition? lastPosition?
  rw [if_neg hvariants]
  split
  · exact ⟨_, rfl⟩
  · exact ⟨_, rfl⟩

/-- The selected variant is the one at the selected position. -/
theorem select?_eq (icon : Icon) (width height : UInt16) :
    icon.select? width height =
      icon.selectedPosition? width height >>= fun position => icon.variants[position]? := by
  unfold select?
  rw [List.find?_eq_bind_findIdx?_getElem?]
  cases hfound : icon.variants.findIdx? fun variant => variant.fits width height with
  | some first =>
      obtain ⟨hlt, -⟩ := fitsAt_iff.mp (findIdx?_fits_eq_some_iff.mp hfound).1
      rw [selectedPosition?, hfound]
      simp [hlt]
  | none =>
      rw [selectedPosition?, hfound, lastPosition?]
      by_cases hempty : icon.variants = []
      · simp [hempty]
      · rw [if_neg hempty]
        exact List.getLast?_eq_getElem?

/-! ## Larger requests -/

/-- What fits a size fits a larger one. -/
theorem FitsAt.mono {largerWidth largerHeight : UInt16} (hfits : icon.FitsAt width height position)
    (hwidth : width ≤ largerWidth) (hheight : height ≤ largerHeight) :
    icon.FitsAt largerWidth largerHeight position := by
  obtain ⟨variant, hvariant, hnarrow, hlow⟩ := hfits
  exact ⟨variant, hvariant, UInt16.le_trans hnarrow hwidth, UInt16.le_trans hlow hheight⟩

theorem le_of_selectedPosition? {largerWidth largerHeight : UInt16} {other : Nat}
    (hwidth : width ≤ largerWidth) (hheight : height ≤ largerHeight)
    (hselected : icon.selectedPosition? width height = some position)
    (hlarger : icon.selectedPosition? largerWidth largerHeight = some other) :
    other ≤ position := by
  rcases selectedPosition?_eq_some_iff.mp hselected with ⟨hfits, -⟩ | ⟨-, hlast⟩
  · -- The variant of the smaller request ends the search for the larger one.
    have hfitsLarger := hfits.mono hwidth hheight
    rcases selectedPosition?_eq_some_iff.mp hlarger with ⟨-, hfirst⟩ | ⟨hnone, -⟩
    · exact Nat.le_of_not_lt fun hlt => hfirst position hlt hfitsLarger
    · exact absurd hfitsLarger (hnone position)
  · -- The smaller request fell back to the last position, and none is later.
    have hlt := lt_length_of_selectedPosition? hlarger
    omega

end Search

/-- **A request selects the first variant that fits, or the last one, and a larger request never
selects a later one.** -/
theorem selectsFirstFit (icon : Icon) : icon.SelectsFirstFit where
  exists_selected := by
    intro hvariants width height
    obtain ⟨position, hselected⟩ := exists_selectedPosition? hvariants width height
    have hvariant := List.getElem?_eq_getElem (lt_length_of_selectedPosition? hselected)
    refine ⟨position, _, hselected, hvariant, ?_⟩
    rw [select?_eq, hselected]
    exact hvariant
  selectedPosition?_eq_some_iff _ _ _ := selectedPosition?_eq_some_iff
  le_of_le := le_of_selectedPosition?

/-- Nothing is small enough for the first request, which falls back to the last variant.  The larger
request is answered by the first one. -/
example :
    let icon : Icon := ⟨"a", [⟨24, 24, 0, 0⟩, ⟨16, 16, 0, 0⟩], [], none⟩
    icon.selectedPosition? 8 48 = some 1 ∧ icon.selectedPosition? 24 48 = some 0 := by
  decide

end Icon
end VectorIcons
