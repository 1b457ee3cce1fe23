import VectorIcons.Proofs.Program.CoordinateStream

/-!
# Which form is written

Writing a coordinate is to take the shortest form that has a number within the precision.  It
tries one number of each form: the multiple of the step of this form that is nearest to the
coordinate, a half going away from zero.

```text
form         step    numbers             rounded into the form
one byte     1       -64 to 63           -64.5 < x < 63.5
two bytes    1/64    -128 up to 128      -128 - 1/128 < x < 128 - 1/128
```

No number of a form is nearer than that multiple.  But a coordinate beyond the last column is
rounded to a multiple that the form does not have, and then the end of the form may still be
within the precision without being tried.  That is the only way to miss the shortest form:
`isShortestWidth_encode_iff`.

## Strategy

`RoundsTo value number` is rounding on exact numbers.  Scaled by the steps in one, a form has the
whole numbers from `-bound` up to `bound`, and `RoundsTo` decides which coordinates are rounded
into it (`neg_le_iff`, `lt_iff`) and that it finds the nearest number (`distance_le`).  What the
encoder compares in binary32 is exact, so it comes to the same: `represents_round_iff` and
`represents_nearestSixtyFourth_iff`.
-/

namespace VectorIcons

open Binary32

/-! ## Rounding on exact numbers -/

/-- `number` is the whole number nearest to `value`; a half goes away from zero. -/
structure RoundsTo (value : ℝ) (number : ℤ) : Prop where
  near : |value - number| ≤ 1 / 2
  away : |value - number| = 1 / 2 → |value| < |(number : ℝ)|

namespace RoundsTo

variable {value : ℝ} {number bound : ℤ}

/-- No whole number is nearer. -/
theorem distance_le (hround : RoundsTo value number) (other : ℤ) :
    |value - number| ≤ |value - other| := by
  rcases eq_or_ne other number with rfl | hne
  · exact le_refl _
  · have hapart : (1 : ℝ) ≤ |(number : ℝ) - other| := by
      exact_mod_cast Int.one_le_abs (sub_ne_zero.mpr hne.symm)
    have htriangle := abs_sub_le (number : ℝ) value other
    rw [abs_sub_comm (number : ℝ) value] at htriangle
    have hnear := hround.near
    linarith

theorem neg_le_iff (hround : RoundsTo value number) (hbound : 0 < bound) :
    -bound ≤ number ↔ -(bound : ℝ) - 1 / 2 < value := by
  have hpos : (0 : ℝ) < bound := mod_cast hbound
  obtain ⟨hlow, hhigh⟩ := abs_le.mp hround.near
  constructor
  · intro hle
    have hleReal : -(bound : ℝ) ≤ number := mod_cast hle
    rcases hlow.lt_or_eq with hlt | htie
    · linarith
    · -- A half below the number is rounded to it only if the number is positive.
      have haway := hround.away (by rw [← htie, abs_neg, abs_of_pos (by norm_num)])
      by_contra hvalue
      rw [abs_of_neg (by linarith), abs_of_neg (by linarith)] at haway
      linarith
  · intro hlt
    by_contra hnumber
    have hlast : (number : ℝ) ≤ -bound - 1 := by
      exact_mod_cast (show number ≤ -bound - 1 by omega)
    linarith

theorem lt_iff (hround : RoundsTo value number) (hbound : 0 < bound) :
    number < bound ↔ value < bound - 1 / 2 := by
  have hpos : (1 : ℝ) ≤ bound := mod_cast hbound
  obtain ⟨hlow, hhigh⟩ := abs_le.mp hround.near
  constructor
  · intro hlt
    have hlast : (number : ℝ) ≤ bound - 1 := by
      exact_mod_cast (show number ≤ bound - 1 by omega)
    rcases hhigh.lt_or_eq with hlt | htie
    · linarith
    · have haway := hround.away (by rw [htie, abs_of_pos (by norm_num)])
      by_contra hvalue
      rw [abs_of_pos (by linarith), abs_of_nonneg (by linarith)] at haway
      linarith
  · intro hlt
    by_contra hnumber
    have hfirst : (bound : ℝ) ≤ number := mod_cast not_lt.mp hnumber
    linarith

end RoundsTo

theorem abs_mul_scale {scale : ℝ} (hpos : 0 < scale) (real : ℝ) :
    |real| * scale = |real * scale| := by
  rw [abs_mul, abs_of_pos hpos]

/-- Rounding by counts of units is rounding of what they count. -/
theorem Binary32.IsNearest.roundsTo {exponent : ℕ} {count multiple : ℤ}
    (hnearest : IsNearest exponent count multiple) :
    RoundsTo (count / 2 ^ exponent) multiple := by
  have hpos : (0 : ℝ) < 2 ^ exponent := by positivity
  have hdistance : |(count / 2 ^ exponent : ℝ) - multiple| * 2 ^ exponent =
      ((count - multiple * 2 ^ exponent).natAbs : ℝ) := by
    rw [abs_mul_scale hpos, sub_mul, div_mul_cancel₀ _ hpos.ne', Nat.cast_natAbs, Int.cast_abs]
    push_cast
    rfl
  constructor
  · rw [← mul_le_mul_iff_left₀ hpos, hdistance, div_mul_eq_mul_div, one_mul, le_div_iff₀' two_pos]
    exact_mod_cast hnearest.near
  · intro htie
    rw [htie, div_mul_eq_mul_div, one_mul, div_eq_iff two_ne_zero, mul_comm, eq_comm]
      at hdistance
    have haway := hnearest.away (by exact_mod_cast hdistance)
    rw [← mul_lt_mul_iff_left₀ hpos, abs_mul_scale hpos, abs_mul_scale hpos,
      div_mul_cancel₀ _ hpos.ne', ← Int.cast_abs, ← Nat.cast_natAbs]
    calc (count.natAbs : ℝ) < (multiple * 2 ^ exponent).natAbs := mod_cast haway
      _ = |(multiple * 2 ^ exponent : ℝ)| := by
        rw [Nat.cast_natAbs, Int.cast_abs]
        push_cast
        rfl

namespace Coordinate

/-! ## The forms -/

/-- Some multiple of `1 / perOne`, from `-bound` up to and not including `bound`, is within
`precision` of `value`. -/
def HasNear (perOne bound : ℕ) (precision value : ℝ) : Prop :=
  ∃ number : ℤ, -(bound : ℝ) ≤ number / perOne ∧ (number / perOne : ℝ) < bound ∧
    |value - number / perOne| ≤ precision

/-- The multiple of `1 / perOne` nearest to `value` lies from `-bound` up to and not including
`bound`. -/
structure RoundsInto (perOne bound : ℕ) (value : ℝ) : Prop where
  low : -(bound : ℝ) - 1 / (2 * perOne) < value
  high : value < bound - 1 / (2 * perOne)

/-- `width` is that of the shortest form with a number within `precision` of `value`: one byte
for the whole numbers, two for the sixty-fourths, and else four. -/
structure IsShortestWidth (precision value : ℝ) (width : ℕ) : Prop where
  whole : HasNear 1 64 precision value → width = 1
  sixtyFourths : ¬HasNear 1 64 precision value → HasNear 64 128 precision value → width = 2
  full : ¬HasNear 1 64 precision value → ¬HasNear 64 128 precision value → width = 4

section Forms

variable {perOne bound : ℕ} {precision value : ℝ} {number : ℤ}

theorem div_mem_range_iff (hperOne : 0 < perOne) :
    -(bound : ℝ) ≤ number / perOne ∧ (number / perOne : ℝ) < bound ↔
      -(bound * perOne : ℤ) ≤ number ∧ number < bound * perOne := by
  have hpos : (0 : ℝ) < perOne := mod_cast hperOne
  rw [le_div_iff₀ hpos, div_lt_iff₀ hpos, neg_mul]
  norm_cast

/-- A coordinate is rounded into a form if the number that is tried is one of it. -/
theorem roundsInto_iff (hperOne : 0 < perOne) (hbound : 0 < bound)
    (hround : RoundsTo (value * perOne) number) :
    RoundsInto perOne bound value ↔
      -(bound : ℝ) ≤ number / perOne ∧ (number / perOne : ℝ) < bound := by
  have hpos : (0 : ℝ) < perOne := mod_cast hperOne
  have hproduct : (0 : ℤ) < bound * perOne := mod_cast Nat.mul_pos hbound hperOne
  have hhalf : (1 / (2 * perOne) : ℝ) * perOne = 1 / 2 := by field_simp
  have hlow : -(bound : ℝ) - 1 / (2 * perOne) < value ↔
      -((bound * perOne : ℤ) : ℝ) - 1 / 2 < value * perOne := by
    rw [← mul_lt_mul_iff_left₀ hpos, sub_mul, hhalf, neg_mul]
    push_cast
    rfl
  have hhigh : value < bound - 1 / (2 * perOne) ↔
      value * perOne < ((bound * perOne : ℤ) : ℝ) - 1 / 2 := by
    rw [← mul_lt_mul_iff_left₀ hpos, sub_mul, hhalf]
    push_cast
    rfl
  rw [div_mem_range_iff hperOne, hround.neg_le_iff hproduct, hround.lt_iff hproduct, ← hlow,
    ← hhigh]
  constructor
  · intro hinto
    exact ⟨hinto.low, hinto.high⟩
  · rintro ⟨hlow, hhigh⟩
    exact ⟨hlow, hhigh⟩

/-- The number that is tried decides, as far as coordinates are rounded into the form. -/
theorem hasNear_iff (hperOne : 0 < perOne) (hbound : 0 < bound)
    (hround : RoundsTo (value * perOne) number) :
    HasNear perOne bound precision value ∧ RoundsInto perOne bound value ↔
      -(bound : ℝ) ≤ number / perOne ∧ (number / perOne : ℝ) < bound ∧
        |value - number / perOne| ≤ precision := by
  have hpos : (0 : ℝ) < perOne := mod_cast hperOne
  rw [roundsInto_iff hperOne hbound hround]
  constructor
  · rintro ⟨⟨other, -, -, hwithin⟩, hlow, hhigh⟩
    refine ⟨hlow, hhigh, le_trans ?_ hwithin⟩
    have hscaled : ∀ tried : ℤ, |value - tried / perOne| * perOne = |value * perOne - tried| := by
      intro tried
      rw [abs_mul_scale hpos, sub_mul, div_mul_cancel₀ _ hpos.ne']
    rw [← mul_le_mul_iff_left₀ hpos, hscaled, hscaled]
    exact hround.distance_le other
  · rintro ⟨hlow, hhigh, hwithin⟩
    exact ⟨⟨number, hlow, hhigh, hwithin⟩, hlow, hhigh⟩

end Forms

/-! ## What the encoder compares -/

section Represents

variable {approximation x precision : Binary32} {value limit : ℝ}

/-- With counts that are exact, `represents` is about exact numbers. -/
theorem represents_iff {count target allowed bound : ℤ} (hx : x.Counts count)
    (happroximation : approximation.Counts target) (hprecision : precision.Counts allowed)
    (hdifference : Representable (count - target).natAbs) (hbound : bound.natAbs < 0x1000000) :
    represents approximation x precision bound = true ↔
      ((count - target).natAbs : ℤ) ≤ allowed ∧
        -bound * 2 ^ 149 ≤ target ∧ target < bound * 2 ^ 149 := by
  have hlow : (ofInt (-bound)).Counts (-bound * 2 ^ 149) := counts_ofInt (by omega)
  have hhigh := counts_ofInt hbound
  unfold represents
  rw [Bool.and_eq_true, Bool.and_eq_true, and_assoc,
    (hx.sub happroximation hdifference).abs.le_iff_le hprecision,
    hlow.le_iff_le happroximation, happroximation.lt_iff_lt hhigh]

/-- The number of a form that is tried is taken exactly if the form has a number within the
precision and the coordinate is rounded into it. -/
theorem represents_iff_hasNear {perOne bound exponent : ℕ} {count number allowed : ℤ}
    (hscale : perOne * 2 ^ exponent = 2 ^ 149) (hbound : 0 < bound) (hsmall : bound < 0x1000000)
    (hx : x.Counts count) (hprecision : precision.Counts allowed)
    (happroximation : approximation.Counts (number * 2 ^ exponent))
    (hnearest : IsNearest exponent count number) :
    represents approximation x precision bound = true ↔
      HasNear perOne bound (allowed / 2 ^ 149) (count / 2 ^ 149) ∧
        RoundsInto perOne bound (count / 2 ^ 149) := by
  have hperOne : 0 < perOne := Nat.pos_of_ne_zero fun hzero => by simp [hzero] at hscale
  have hpos : (0 : ℝ) < perOne := mod_cast hperOne
  have hscaleReal : (perOne * 2 ^ exponent : ℝ) = 2 ^ 149 := mod_cast hscale
  have hround := hnearest.roundsTo
  have hvalue : (count / 2 ^ exponent : ℝ) = count / 2 ^ 149 * perOne := by
    rw [← hscaleReal]
    field_simp
  rw [hvalue] at hround
  have hnumber : (number / perOne : ℝ) = number * 2 ^ exponent / 2 ^ 149 := by
    rw [← hscaleReal]
    field_simp
  have hunits : (0 : ℝ) < 2 ^ 149 := by positivity
  rw [hasNear_iff hperOne hbound hround, hnumber, le_div_iff₀ hunits, div_lt_iff₀ hunits, ← sub_div,
    abs_div, abs_of_pos hunits, div_le_div_iff_of_pos_right hunits,
    represents_iff hx happroximation hprecision
      (representable_natAbs_sub hx.representable hnearest.near) (by simpa using hsmall),
    Int.natCast_natAbs, and_comm, and_assoc]
  norm_cast

theorem represents_round_iff (hx : x.exactValue? = some (value : EReal))
    (hprecision : precision.exactValue? = some (limit : EReal)) :
    represents x.round x precision 64 = true ↔
      HasNear 1 64 limit value ∧ RoundsInto 1 64 value := by
  obtain ⟨count, hcount, rfl⟩ := exists_counts_of_exactValue? hx
  obtain ⟨allowed, hallowed, rfl⟩ := exists_counts_of_exactValue? hprecision
  obtain ⟨number, hround, hnearest⟩ := hcount.exists_round
  exact represents_iff_hasNear (by norm_num) (by decide) (by decide) hcount hallowed hround hnearest

/-- Sixty-four times a number that is rounded into the two-byte form is finite. -/
theorem isFinite_mul_stepsPerOne {count : ℤ} (hx : x.Counts count)
    (hinto : RoundsInto 64 128 (count / 2 ^ 149)) : (x * stepsPerOne).isFinite = true := by
  obtain ⟨hlow, hhigh⟩ := hinto
  have hsmall : count.natAbs < 129 * 2 ^ 149 := by
    have habs : |(count : ℝ)| < 129 * 2 ^ 149 := by
      rw [lt_div_iff₀ (by positivity)] at hlow
      rw [div_lt_iff₀ (by positivity)] at hhigh
      rw [abs_lt]
      constructor
      · refine lt_trans ?_ hlow
        norm_num
      · refine lt_trans hhigh ?_
        norm_num
    zify
    exact_mod_cast habs
  rcases hx.representable.mul_64 with hproduct | hlarge
  · exact (counts_mul_stepsPerOne hx hproduct).1
  · rw [unitsOfMagnitude_infiniteMagnitude] at hlarge
    omega

theorem represents_nearestSixtyFourth_iff (hx : x.exactValue? = some (value : EReal))
    (hprecision : precision.exactValue? = some (limit : EReal)) :
    represents (nearestSixtyFourth x) x precision 128 = true ↔
      HasNear 64 128 limit value ∧ RoundsInto 64 128 value := by
  obtain ⟨count, hcount, rfl⟩ := exists_counts_of_exactValue? hx
  obtain ⟨allowed, hallowed, rfl⟩ := exists_counts_of_exactValue? hprecision
  by_cases hfinite : (x * stepsPerOne).isFinite = true
  · obtain ⟨number, hnearestCounts, hnearest⟩ := exists_counts_nearestSixtyFourth hcount hfinite
    exact represents_iff_hasNear (by norm_num) (by decide) (by decide) hcount hallowed
      hnearestCounts hnearest
  · -- A product that is too large lies outside of the range, and so does the coordinate.
    refine iff_of_false ?_ ?_
    · intro hshort
      obtain ⟨hquotient, -⟩ := range_of_represents (by decide) hshort
      exact hfinite (isFinite_of_round (isFinite_of_div hquotient))
    · rintro ⟨-, hinto⟩
      exact hfinite (isFinite_mul_stepsPerOne hcount hinto)

end Represents

/-! ## The width that is written -/

theorem length_encode (precision x : Binary32) :
    (encode precision x).length =
      if represents x.round x precision 64 then 1
      else if represents (nearestSixtyFourth x) x precision 128 then 2 else 4 := by
  unfold encode
  split
  · rfl
  · split <;> rfl

/-- What is rounded into the one-byte form is rounded into the two-byte form. -/
theorem RoundsInto.sixtyFourths {value : ℝ} (hinto : RoundsInto 1 64 value) :
    RoundsInto 64 128 value := by
  obtain ⟨hlow, hhigh⟩ := hinto
  norm_num at hlow hhigh
  constructor
  · norm_num
    linarith
  · norm_num
    linarith

section Width

variable {x precision : Binary32} {value limit : ℝ}

/-- The shortest form is written if coordinates are rounded into each form that has a number
within the precision. -/
theorem isShortestWidth_encode (hx : x.exactValue? = some (value : EReal))
    (hprecision : precision.exactValue? = some (limit : EReal))
    (hwhole : HasNear 1 64 limit value → RoundsInto 1 64 value)
    (hsixtyFourths : HasNear 64 128 limit value → RoundsInto 64 128 value) :
    IsShortestWidth limit value (encode precision x).length := by
  have hround := represents_round_iff hx hprecision
  have hnearest := represents_nearestSixtyFourth_iff hx hprecision
  rw [length_encode]
  constructor
  · intro hnear
    exact if_pos (hround.mpr ⟨hnear, hwhole hnear⟩)
  · intro hfar hnear
    rw [if_neg (fun hshort => hfar (hround.mp hshort).1),
      if_pos (hnearest.mpr ⟨hnear, hsixtyFourths hnear⟩)]
  · intro hfar hfarther
    rw [if_neg (fun hshort => hfar (hround.mp hshort).1),
      if_neg (fun hshort => hfarther (hnearest.mp hshort).1)]

/-- A precision of less than half a step leaves no number of a form within reach of coordinates
that are not rounded into it. -/
theorem HasNear.roundsInto {perOne bound : ℕ} (hperOne : 0 < perOne)
    (hnear : HasNear perOne bound limit value) (hlimit : limit < 1 / (2 * perOne)) :
    RoundsInto perOne bound value := by
  have hpos : (0 : ℝ) < perOne := mod_cast hperOne
  obtain ⟨number, hlow, hhigh, hwithin⟩ := hnear
  obtain ⟨hbelow, habove⟩ := abs_le.mp hwithin
  have hlast : (number / perOne : ℝ) ≤ bound - 1 / perOne := by
    rw [div_lt_iff₀ hpos] at hhigh
    have hstep : (number : ℝ) + 1 ≤ bound * perOne := by
      exact_mod_cast (show number + 1 ≤ bound * perOne by
        have hlt : number < bound * perOne := mod_cast hhigh
        omega)
    rw [le_sub_iff_add_le, ← add_div, div_le_iff₀ hpos]
    exact hstep
  have hhalves : (1 / perOne : ℝ) = 1 / (2 * perOne) + 1 / (2 * perOne) := by
    field_simp
    norm_num
  constructor <;> linarith

/-- With a precision of less than `1 / 128`, the shortest form is written. -/
theorem isShortestWidth_encode_of_lt (hx : x.exactValue? = some (value : EReal))
    (hprecision : precision.exactValue? = some (limit : EReal)) (hlimit : limit < 1 / 128) :
    IsShortestWidth limit value (encode precision x).length := by
  refine isShortestWidth_encode hx hprecision (fun hnear => ?_) (fun hnear => ?_)
  · exact hnear.roundsInto Nat.one_pos (by norm_num; linarith)
  · exact hnear.roundsInto (by decide) (by norm_num; linarith)

/-- **The shortest form is written, except where only the end of a form is within the precision.**
That is so for a coordinate that is not rounded into a form which has a number within the
precision. -/
theorem isShortestWidth_encode_iff (hx : x.exactValue? = some (value : EReal))
    (hprecision : precision.exactValue? = some (limit : EReal)) :
    IsShortestWidth limit value (encode precision x).length ↔
      (HasNear 1 64 limit value → RoundsInto 1 64 value) ∧
        (HasNear 64 128 limit value → RoundsInto 64 128 value) := by
  constructor
  · intro hshortest
    have hround := represents_round_iff hx hprecision
    have hnearest := represents_nearestSixtyFourth_iff hx hprecision
    rw [length_encode] at hshortest
    have hwhole : HasNear 1 64 limit value → RoundsInto 1 64 value := by
      intro hnear
      by_contra hinto
      have hwidth := hshortest.whole hnear
      rw [if_neg (fun hshort => hinto (hround.mp hshort).2)] at hwidth
      split at hwidth <;> cases hwidth
    refine ⟨hwhole, fun hnear => ?_⟩
    by_cases hone : HasNear 1 64 limit value
    · exact (hwhole hone).sixtyFourths
    · by_contra hinto
      have hwidth := hshortest.sixtyFourths hone hnear
      rw [if_neg (fun hshort => hone (hround.mp hshort).1),
        if_neg (fun hshort => hinto (hnearest.mp hshort).2)] at hwidth
      cases hwidth
  · rintro ⟨hwhole, hsixtyFourths⟩
    exact isShortestWidth_encode hx hprecision hwhole hsixtyFourths

end Width

theorem exactValue?_half_below_range :
    (⟨0xc2810000⟩ : Binary32).exactValue? = some ((-129 / 2 : ℝ) : EReal) := by
  have hcounts : (⟨0xc2810000⟩ : Binary32).Counts (-129 * 2 ^ 148) := ⟨rfl, by decide +kernel⟩
  rw [hcounts.exactValue?_eq]
  norm_num

/-- Half a step below the one-byte form, with a precision of a quarter. -/
theorem isShortestWidth_encode_iff_of_quarter :
    (⟨0xc2810000⟩ : Binary32).exactValue? = some ((-129 / 2 : ℝ) : EReal) ∧
      (⟨0x3e800000⟩ : Binary32).exactValue? = some ((1 / 4 : ℝ) : EReal) ∧
      IsShortestWidth (1 / 4) (-129 / 2) (encode ⟨0x3e800000⟩ ⟨0xc2810000⟩).length := by
  have hcounts : (⟨0x3e800000⟩ : Binary32).Counts (2 ^ 147) := ⟨rfl, by decide +kernel⟩
  have hprecision : (⟨0x3e800000⟩ : Binary32).exactValue? = some ((1 / 4 : ℝ) : EReal) := by
    rw [hcounts.exactValue?_eq]
    norm_num
  refine ⟨exactValue?_half_below_range, hprecision,
    (isShortestWidth_encode_iff exactValue?_half_below_range hprecision).mpr ⟨?_, ?_⟩⟩
  · intro hnear
    exact hnear.roundsInto Nat.one_pos (by norm_num)
  · rintro -
    constructor <;> norm_num

/-- With a precision of a half, the one-byte form ends within the precision, and two bytes are
written. -/
theorem not_isShortestWidth_half_below_range :
    (⟨0xc2810000⟩ : Binary32).exactValue? = some ((-129 / 2 : ℝ) : EReal) ∧
      (⟨0x3f000000⟩ : Binary32).exactValue? = some ((1 / 2 : ℝ) : EReal) ∧
      HasNear 1 64 (1 / 2) (-129 / 2) ∧ (encode ⟨0x3f000000⟩ ⟨0xc2810000⟩).length = 2 ∧
      ¬IsShortestWidth (1 / 2) (-129 / 2) (encode ⟨0x3f000000⟩ ⟨0xc2810000⟩).length := by
  have hcounts : (⟨0x3f000000⟩ : Binary32).Counts (2 ^ 148) := ⟨rfl, by decide +kernel⟩
  have hprecision : (⟨0x3f000000⟩ : Binary32).exactValue? = some ((1 / 2 : ℝ) : EReal) := by
    rw [hcounts.exactValue?_eq]
    norm_num
  have hnear : HasNear 1 64 (1 / 2) (-129 / 2) := by
    refine ⟨-64, ?_, ?_, ?_⟩ <;> norm_num
  have hlength : (encode ⟨0x3f000000⟩ ⟨0xc2810000⟩).length = 2 := by decide +kernel
  refine ⟨exactValue?_half_below_range, hprecision, hnear, hlength, fun hshortest => ?_⟩
  have hwidth := hshortest.whole hnear
  rw [hlength] at hwidth
  cases hwidth

end Coordinate
end VectorIcons
