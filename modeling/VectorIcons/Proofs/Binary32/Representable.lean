import Mathlib.Order.Monotone.Basic
import Mathlib.Tactic.Ring
import VectorIcons.Binary32.Arithmetic

/-!
# Counts that need no rounding

A result that some finite number has exactly is not changed by rounding:
`nearestMagnitude_unitsOfMagnitude`.  So an operation is exact as soon as its result is a
`Representable` count of units, and that is a question about whole numbers: a fraction of
twenty-four bits, doubled at most 253 times, is one (`representable_mul_two_pow`).

Three counts are needed by whoever moves a number to a grid of powers of two and
back: sixty-four times a count, a sixty-fourth of one, and the distance of a count
to the nearest point of the grid (`representable_natAbs_sub`).
-/

namespace VectorIcons

/-! ## Quotients without a remainder -/

theorem roundHalfEven_mul {quotient denominator : Nat} (hpos : 0 < denominator) :
    roundHalfEven (quotient * denominator) denominator = quotient := by
  unfold roundHalfEven
  rw [Nat.mul_div_cancel _ hpos, Nat.mul_mod_left]
  exact if_pos hpos

theorem le_roundHalfEven (numerator denominator : Nat) :
    numerator / denominator ≤ roundHalfEven numerator denominator := by
  unfold roundHalfEven
  dsimp only
  split
  · exact Nat.le_refl _
  · split <;> omega

namespace Binary32

/-! ## The units of a magnitude

Below `0x800000` a magnitude is its own count.  From there on it is a shift and a
fraction of twenty-four bits. -/

theorem unitsOfMagnitude_of_lt {magnitude : Nat} (hlt : magnitude < 0x800000) :
    unitsOfMagnitude magnitude = magnitude := by
  unfold unitsOfMagnitude
  dsimp only
  rw [if_pos (by omega), Nat.mod_eq_of_lt hlt]

theorem unitsOfMagnitude_add {shift fraction : Nat} (hlow : 0x800000 ≤ fraction)
    (hhigh : fraction < 0x1000000) :
    unitsOfMagnitude (shift * 0x800000 + fraction) = fraction * 2 ^ shift := by
  have hexponent : (shift * 0x800000 + fraction) / 0x800000 = shift + 1 := by omega
  have hfraction : 0x800000 + (shift * 0x800000 + fraction) % 0x800000 = fraction := by omega
  unfold unitsOfMagnitude
  dsimp only
  rw [hexponent, if_neg (Nat.succ_ne_zero shift), hfraction, Nat.add_sub_cancel,
    Nat.shiftLeft_eq]

theorem unitsOfMagnitude_infiniteMagnitude :
    unitsOfMagnitude infiniteMagnitude = 0x800000 * 2 ^ 254 := by
  rw [show infiniteMagnitude = 254 * 0x800000 + 0x800000 from rfl]
  exact unitsOfMagnitude_add (Nat.le_refl _) (by decide)

theorem exists_shift_fraction {magnitude : Nat} (hle : 0x800000 ≤ magnitude) :
    ∃ shift fraction, 0x800000 ≤ fraction ∧ fraction < 0x1000000 ∧
      magnitude = shift * 0x800000 + fraction :=
  ⟨magnitude / 0x800000 - 1, 0x800000 + magnitude % 0x800000, by omega, by omega, by omega⟩

theorem strictMono_unitsOfMagnitude : StrictMono unitsOfMagnitude := by
  refine strictMono_nat_of_lt_succ fun magnitude => ?_
  by_cases hlow : magnitude + 1 < 0x800000
  · rw [unitsOfMagnitude_of_lt hlow, unitsOfMagnitude_of_lt (by omega)]
    exact Nat.lt_succ_self magnitude
  · obtain ⟨shift, fraction, hfraction, hhigh, hnext⟩ := exists_shift_fraction (Nat.not_lt.mp hlow)
    rw [hnext, unitsOfMagnitude_add hfraction hhigh]
    rcases Nat.eq_or_lt_of_le hfraction with heq | hgt
    · cases shift with
      | zero =>
          rw [unitsOfMagnitude_of_lt (by omega), ← heq]
          omega
      | succ shift =>
          -- The step before a power of two is half as wide.
          have hbefore : magnitude = shift * 0x800000 + 0xffffff := by omega
          rw [hbefore, unitsOfMagnitude_add (by decide) (by decide), ← heq, Nat.pow_succ]
          have hpos := Nat.two_pow_pos shift
          omega
    · have hbefore : magnitude = shift * 0x800000 + (fraction - 1) := by omega
      rw [hbefore, unitsOfMagnitude_add (by omega) (by omega)]
      exact Nat.mul_lt_mul_of_pos_right (by omega) (Nat.two_pow_pos shift)

/-! ## Rounding -/

theorem log2_mul_two_pow {shift fraction : Nat} (hlow : 0x800000 ≤ fraction)
    (hhigh : fraction < 0x1000000) : (fraction * 2 ^ shift).log2 = 23 + shift := by
  have hpos : 0 < 2 ^ shift := Nat.two_pow_pos shift
  have hne : fraction * 2 ^ shift ≠ 0 := Nat.mul_ne_zero (by omega) (Nat.ne_of_gt hpos)
  rw [Nat.log2_eq_iff hne, Nat.add_right_comm, Nat.pow_add, Nat.pow_add]
  exact ⟨Nat.mul_le_mul_right _ hlow, Nat.mul_lt_mul_of_pos_right hhigh hpos⟩

theorem le_log2_of_mul_two_pow_le {amount shift : Nat} (hle : 0x800000 * 2 ^ shift ≤ amount) :
    23 + shift ≤ amount.log2 := by
  have hpos : 0 < 0x800000 * 2 ^ shift := Nat.mul_pos (by decide) (Nat.two_pow_pos shift)
  rw [Nat.le_log2 (Nat.ne_of_gt (Nat.lt_of_lt_of_le hpos hle)), Nat.pow_add]
  exact hle

/-- **A count that a finite number has is not changed by rounding.** -/
theorem nearestMagnitude_unitsOfMagnitude {magnitude denominator : Nat}
    (hfinite : magnitude < infiniteMagnitude) (hpos : 0 < denominator) :
    nearestMagnitude (unitsOfMagnitude magnitude * denominator) denominator = magnitude := by
  unfold nearestMagnitude
  dsimp only
  rw [Nat.mul_div_cancel _ hpos]
  by_cases hlt : magnitude < 0x800000
  · have hlog : magnitude.log2 ≤ 23 := by
      rcases Nat.eq_zero_or_pos magnitude with rfl | hpositive
      · decide
      · exact Nat.le_of_lt ((Nat.log2_lt (Nat.ne_of_gt hpositive)).mpr hlt)
    rw [unitsOfMagnitude_of_lt hlt, Nat.sub_eq_zero_of_le hlog, Nat.shiftLeft_zero,
      roundHalfEven_mul hpos]
    omega
  · obtain ⟨shift, fraction, hlow, hhigh, rfl⟩ := exists_shift_fraction (Nat.not_lt.mp hlt)
    rw [unitsOfMagnitude_add hlow hhigh, log2_mul_two_pow hlow hhigh, Nat.add_sub_cancel_left,
      Nat.shiftLeft_eq, Nat.mul_assoc, Nat.mul_comm (2 ^ shift),
      roundHalfEven_mul (Nat.mul_pos hpos (Nat.two_pow_pos shift))]
    omega

/-- A quotient that is as large as the place of the infinities is rounded to one. -/
theorem nearestMagnitude_of_large {numerator denominator : Nat} (hpos : 0 < denominator)
    (hlarge : unitsOfMagnitude infiniteMagnitude * denominator ≤ numerator) :
    nearestMagnitude numerator denominator = infiniteMagnitude := by
  rw [unitsOfMagnitude_infiniteMagnitude, ← Nat.le_div_iff_mul_le hpos] at hlarge
  have hlog := le_log2_of_mul_two_pow_le hlarge
  obtain ⟨shift, hshift⟩ : ∃ shift, (numerator / denominator).log2 = 23 + shift :=
    Nat.exists_eq_add_of_le (by omega)
  have hne : numerator / denominator ≠ 0 := by
    intro hzero
    rw [hzero, Nat.log2_zero] at hlog
    omega
  -- Above the shift, the quotient still has twenty-four bits.
  have hround : 0x800000 ≤ roundHalfEven numerator (denominator <<< shift) := by
    refine Nat.le_trans ?_ (le_roundHalfEven _ _)
    rw [Nat.shiftLeft_eq, ← Nat.div_div_eq_div_mul, Nat.le_div_iff_mul_le (Nat.two_pow_pos shift)]
    have hself := Nat.log2_self_le hne
    rwa [hshift, Nat.pow_add] at hself
  unfold nearestMagnitude
  dsimp only
  rw [hshift, Nat.add_sub_cancel_left]
  refine Nat.min_eq_right ?_
  unfold infiniteMagnitude
  omega

/-! ## Representable counts -/

/-- The counts of units that finite numbers have, apart from the sign. -/
def Representable (amount : Nat) : Prop :=
  ∃ magnitude, magnitude < infiniteMagnitude ∧ unitsOfMagnitude magnitude = amount

theorem representable_mul_two_pow {fraction shift : Nat} (hfraction : fraction < 0x1000000)
    (hshift : shift ≤ 253) : Representable (fraction * 2 ^ shift) := by
  -- A fraction with room above is doubled until it has none, or the shift is used up.
  induction shift generalizing fraction with
  | zero =>
      refine ⟨fraction, ?_, ?_⟩
      · unfold infiniteMagnitude
        omega
      · by_cases hlow : fraction < 0x800000
        · rw [unitsOfMagnitude_of_lt hlow, Nat.pow_zero, Nat.mul_one]
        · have hunits : unitsOfMagnitude (0 * 0x800000 + fraction) = fraction * 2 ^ 0 :=
            unitsOfMagnitude_add (Nat.not_lt.mp hlow) hfraction
          rwa [Nat.zero_mul, Nat.zero_add] at hunits
  | succ shift ih =>
      by_cases hlow : fraction < 0x800000
      · have hdouble : Representable (2 * fraction * 2 ^ shift) := ih (by omega) (by omega)
        rwa [Nat.mul_comm 2, Nat.mul_assoc, ← Nat.pow_succ'] at hdouble
      · refine ⟨(shift + 1) * 0x800000 + fraction, ?_,
          unitsOfMagnitude_add (Nat.not_lt.mp hlow) hfraction⟩
        unfold infiniteMagnitude
        omega

theorem Representable.exists_eq {amount : Nat} (hamount : Representable amount) :
    ∃ fraction shift, fraction < 0x1000000 ∧ shift ≤ 253 ∧
      (shift = 0 ∨ 0x800000 ≤ fraction) ∧ amount = fraction * 2 ^ shift := by
  obtain ⟨magnitude, hfinite, rfl⟩ := hamount
  by_cases hlow : magnitude < 0x800000
  · refine ⟨magnitude, 0, by omega, by omega, .inl rfl, ?_⟩
    rw [unitsOfMagnitude_of_lt hlow, Nat.pow_zero, Nat.mul_one]
  · obtain ⟨shift, fraction, hfraction, hhigh, rfl⟩ := exists_shift_fraction (Nat.not_lt.mp hlow)
    unfold infiniteMagnitude at hfinite
    exact ⟨fraction, shift, hhigh, by omega, .inr hfraction, unitsOfMagnitude_add hfraction hhigh⟩

theorem representable_zero : Representable 0 := ⟨0, by decide, by decide⟩

/-- Six steps of the exponent are left below the largest numbers, or the product is too large
for a finite number. -/
theorem Representable.mul_64 {amount : Nat} (hamount : Representable amount) :
    Representable (amount * 2 ^ 6) ∨ unitsOfMagnitude infiniteMagnitude ≤ amount * 2 ^ 6 := by
  obtain ⟨fraction, shift, hhigh, hshift, hnormal, rfl⟩ := hamount.exists_eq
  have hproduct : fraction * 2 ^ shift * 2 ^ 6 = fraction * 2 ^ (shift + 6) := by
    rw [Nat.mul_assoc, Nat.pow_add]
  rw [hproduct]
  by_cases hroom : shift + 6 ≤ 253
  · exact .inl (representable_mul_two_pow hhigh hroom)
  · right
    calc unitsOfMagnitude infiniteMagnitude = 0x800000 * 2 ^ 254 :=
          unitsOfMagnitude_infiniteMagnitude
      _ ≤ fraction * 2 ^ (shift + 6) :=
        Nat.mul_le_mul (by omega) (Nat.pow_le_pow_right (by decide) (by omega))

/-- What is a whole number of ones is a whole number of sixty-fourths below. -/
theorem Representable.of_mul_64 {amount : Nat} (hamount : Representable (amount * 2 ^ 6))
    (hmultiple : 2 ^ 143 ∣ amount) : Representable amount := by
  obtain ⟨fraction, shift, hhigh, hshift, -, hcount⟩ := hamount.exists_eq
  by_cases hroom : 6 ≤ shift
  · obtain ⟨lower, rfl⟩ := Nat.exists_eq_add_of_le hroom
    rw [Nat.pow_add, Nat.mul_comm (2 ^ 6), ← Nat.mul_assoc] at hcount
    rw [Nat.eq_of_mul_eq_mul_right (Nat.two_pow_pos 6) hcount]
    exact representable_mul_two_pow hhigh (by omega)
  · -- So small a count is no multiple of a sixty-fourth, unless it is zero.
    have hle : 2 ^ shift ≤ 2 ^ 5 := Nat.pow_le_pow_right (by decide) (by omega)
    have hsmall : fraction * 2 ^ shift ≤ 0xffffff * 2 ^ 5 := Nat.mul_le_mul (by omega) hle
    have hzero : amount = 0 := Nat.eq_zero_of_dvd_of_lt hmultiple (by omega)
    rw [hzero]
    exact representable_zero

theorem natAbs_mul_two_pow (number : Int) (exponent : Nat) :
    (number * 2 ^ exponent).natAbs = number.natAbs * 2 ^ exponent := by
  rw [Int.natAbs_mul, Int.natAbs_pow]
  rfl

/-- The nearest multiple of a power of two is representable. -/
theorem Representable.nearest {amount exponent : Nat} (hamount : Representable amount)
    (hexponent : exponent ≤ 253) :
    Representable ((2 * amount + 2 ^ exponent) / (2 * 2 ^ exponent) * 2 ^ exponent) := by
  obtain ⟨fraction, shift, hhigh, hshift, -, rfl⟩ := hamount.exists_eq
  have hpos := Nat.two_pow_pos exponent
  rcases Nat.le_total exponent shift with hle | hle
  · -- The count is a multiple itself.
    obtain ⟨more, rfl⟩ := Nat.exists_eq_add_of_le hle
    have hmultiple : fraction * 2 ^ (exponent + more) = fraction * 2 ^ more * 2 ^ exponent := by
      ring
    have hquotient : (2 * (fraction * 2 ^ more * 2 ^ exponent) + 2 ^ exponent) /
        (2 * 2 ^ exponent) = fraction * 2 ^ more := by
      rw [show 2 * (fraction * 2 ^ more * 2 ^ exponent) + 2 ^ exponent =
          2 ^ exponent + fraction * 2 ^ more * (2 * 2 ^ exponent) by ring,
        Nat.add_mul_div_right _ _ (by omega), Nat.div_eq_of_lt (by omega), Nat.zero_add]
    rw [hmultiple, hquotient, ← hmultiple]
    exact representable_mul_two_pow hhigh hshift
  · refine representable_mul_two_pow ?_ hexponent
    have hbound : fraction * 2 ^ shift ≤ 0xffffff * 2 ^ exponent :=
      Nat.mul_le_mul (by omega) (Nat.pow_le_pow_right (by decide) hle)
    rw [Nat.div_lt_iff_lt_mul (by omega)]
    omega

theorem Representable.exists_int_eq {count : Int} (hcount : Representable count.natAbs) :
    ∃ (fraction : Int) (shift : Nat), fraction.natAbs < 0x1000000 ∧ shift ≤ 253 ∧
      count = fraction * 2 ^ shift := by
  obtain ⟨fraction, shift, hhigh, hshift, -, habs⟩ := hcount.exists_eq
  rcases Int.natAbs_eq count with hsign | hsign
  · refine ⟨fraction, shift, hhigh, hshift, ?_⟩
    rw [hsign, habs]
    push_cast
    rfl
  · refine ⟨-fraction, shift, by rwa [Int.natAbs_neg], hshift, ?_⟩
    rw [hsign, habs]
    push_cast
    ring

/-- The nearest multiple of a step is no farther away than zero. -/
theorem natAbs_sub_mul_le {count multiple : Int} {step : Nat}
    (hnear : 2 * (count - multiple * step).natAbs ≤ step) :
    (count - multiple * step).natAbs ≤ count.natAbs := by
  rcases eq_or_ne multiple 0 with rfl | hne
  · rw [Int.zero_mul, Int.sub_zero]
  · have hstep : step ≤ (multiple * step).natAbs := by
      rw [Int.natAbs_mul, Int.natAbs_natCast]
      exact Nat.le_mul_of_pos_left _ (Int.natAbs_pos.mpr hne)
    omega

/-- **The distance to the nearest multiple of a power of two is representable**, so a
subtraction finds it without an error. -/
theorem representable_natAbs_sub {count multiple : Int} {exponent : Nat}
    (hcount : Representable count.natAbs)
    (hnear : 2 * (count - multiple * 2 ^ exponent).natAbs ≤ 2 ^ exponent) :
    Representable (count - multiple * 2 ^ exponent).natAbs := by
  obtain ⟨fraction, shift, hhigh, hshift, rfl⟩ := hcount.exists_int_eq
  rcases Nat.le_total exponent shift with hle | hle
  · -- The count is a multiple itself, and there is no distance.
    obtain ⟨more, rfl⟩ := Nat.exists_eq_add_of_le hle
    have hfactor : fraction * 2 ^ (exponent + more) - multiple * 2 ^ exponent =
        (fraction * 2 ^ more - multiple) * 2 ^ exponent := by ring
    have hpos := Nat.two_pow_pos exponent
    rw [hfactor, natAbs_mul_two_pow] at hnear ⊢
    have hzero : (fraction * 2 ^ more - multiple).natAbs = 0 := by
      by_contra hne
      have hone := Nat.le_mul_of_pos_left (2 ^ exponent) (Nat.pos_of_ne_zero hne)
      omega
    rw [hzero, Nat.zero_mul]
    exact representable_zero
  · -- The distance is a whole number of the steps that the count has.
    obtain ⟨more, rfl⟩ := Nat.exists_eq_add_of_le hle
    have hfactor : fraction * 2 ^ shift - multiple * 2 ^ (shift + more) =
        (fraction - multiple * 2 ^ more) * 2 ^ shift := by ring
    have hdistance : (fraction * 2 ^ shift - multiple * 2 ^ (shift + more)).natAbs ≤
        (fraction * 2 ^ shift).natAbs :=
      natAbs_sub_mul_le hnear
    rw [hfactor, natAbs_mul_two_pow, natAbs_mul_two_pow] at hdistance
    rw [hfactor, natAbs_mul_two_pow]
    have hsmaller := Nat.le_of_mul_le_mul_right hdistance (Nat.two_pow_pos shift)
    exact representable_mul_two_pow (by omega) hshift

end Binary32
end VectorIcons
