/-!
# Sets of characters by ranges

A large set of characters is a list of ranges of code points, each with its first
and its last, in ascending order.  A search stops at the first range that begins
behind the character, which is right because of the order: `contains_iff`.
-/

namespace VectorIcons
namespace Text

/-- Whether the ranges ascend without touching, so that each is as long as it can
be. -/
def ascending : List (Nat × Nat) → Bool
  | [] => true
  | [(first, last)] => decide (first ≤ last)
  | (first, last) :: (next, nextLast) :: rest =>
      decide (first ≤ last) && decide (last + 1 < next) && ascending ((next, nextLast) :: rest)

/-- A set of characters. -/
structure CharSet where
  ranges : List (Nat × Nat)
  ascending : ascending ranges = true

/-- Whether a code point lies in one of some ascending ranges. -/
def inRanges : List (Nat × Nat) → Nat → Bool
  | [], _ => false
  | (first, last) :: rest, code =>
      if code < first then false
      else if code ≤ last then true
      else inRanges rest code

/-- No range begins before the first one does. -/
theorem le_of_mem_of_ascending {first last : Nat} {rest : List (Nat × Nat)}
    (hascending : ascending ((first, last) :: rest) = true) :
    ∀ range ∈ (first, last) :: rest, first ≤ range.1 := by
  induction rest generalizing first last with
  | nil => exact fun range hmem => List.mem_singleton.mp hmem ▸ Nat.le_refl first
  | cons next rest ih =>
      obtain ⟨nextFirst, nextLast⟩ := next
      simp only [Text.ascending, Bool.and_eq_true, decide_eq_true_eq] at hascending
      intro range hmem
      rcases List.mem_cons.mp hmem with rfl | hrest
      · exact Nat.le_refl first
      · have hnext := ih hascending.2 range hrest
        omega

theorem ascending_tail {range : Nat × Nat} {rest : List (Nat × Nat)}
    (hascending : ascending (range :: rest) = true) : ascending rest = true := by
  cases rest with
  | nil => rfl
  | cons next rest => exact (Bool.and_eq_true_iff.mp hascending).2

theorem inRanges_iff {ranges : List (Nat × Nat)} (hascending : ascending ranges = true)
    (code : Nat) :
    inRanges ranges code = true ↔ ∃ range ∈ ranges, range.1 ≤ code ∧ code ≤ range.2 := by
  induction ranges with
  | nil => simp [inRanges]
  | cons range rest ih =>
      obtain ⟨first, last⟩ := range
      have hfirst := le_of_mem_of_ascending hascending
      have hrest := ih (ascending_tail hascending)
      unfold inRanges
      split
      · -- All ranges begin behind the code point.
        refine iff_of_false Bool.false_ne_true ?_
        rintro ⟨range, hmem, hle, -⟩
        have hlt := hfirst range hmem
        omega
      · split
        · exact iff_of_true rfl ⟨_, List.mem_cons_self, by omega, by omega⟩
        · rw [hrest]
          constructor
          · rintro ⟨range, hmem, hwithin⟩
            exact ⟨range, List.mem_cons_of_mem _ hmem, hwithin⟩
          · rintro ⟨range, hmem, hle, hlast⟩
            rcases List.mem_cons.mp hmem with rfl | hmem
            · omega
            · exact ⟨range, hmem, hle, hlast⟩

namespace CharSet

def contains (set : CharSet) (c : Char) : Bool := inRanges set.ranges c.toNat

/-- A set has the characters of its ranges. -/
theorem contains_iff (set : CharSet) (c : Char) :
    set.contains c = true ↔ ∃ range ∈ set.ranges, range.1 ≤ c.toNat ∧ c.toNat ≤ range.2 :=
  inRanges_iff set.ascending c.toNat

end CharSet
end Text
end VectorIcons
