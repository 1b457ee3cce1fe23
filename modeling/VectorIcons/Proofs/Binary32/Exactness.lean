import VectorIcons.Proofs.Binary32.Representable

/-!
# Arithmetic without an error

`x.Counts count` tells that `x` is finite and has exactly that many units.  An operation
on counts whose exact result is `Representable` gives a number that counts this result:
`Counts.neg`, `Counts.abs`, `Counts.sub`, `Counts.exists_round`.  What is left of binary32 is
then a statement about integers, and so is the order of two numbers (`le_iff`, `lt_iff`).

Only finite numbers have a count.  A number that is not finite stays so through the
operations that follow it, and no number between two finite ones is like that.
-/

namespace VectorIcons
namespace Binary32

/-- `x` is finite, and `count` is its exact number of units. -/
def Counts (x : Binary32) (count : Int) : Prop := x.isFinite = true ∧ x.units = count

/-! ## Values -/

theorem isFinite_iff {x : Binary32} : x.isFinite = true ↔ x.magnitude < infiniteMagnitude :=
  decide_eq_true_iff

theorem value_of_isFinite {x : Binary32} (hfinite : x.isFinite = true) :
    x.value = .finite x.isNegative (unitsOfMagnitude x.magnitude) :=
  if_pos (isFinite_iff.mp hfinite)

theorem Counts.exists_value {x : Binary32} {count : Int} (hx : x.Counts count) :
    ∃ negative amount, x.value = .finite negative amount ∧ signed negative amount = count :=
  ⟨_, _, value_of_isFinite hx.1, hx.2⟩

theorem counts_of_value {x : Binary32} {negative : Bool} {amount : Nat}
    (hvalue : x.value = .finite negative amount) : x.Counts (signed negative amount) := by
  unfold value at hvalue
  split at hvalue
  · rename_i hfinite
    cases hvalue
    exact ⟨isFinite_iff.mpr hfinite, rfl⟩
  · split at hvalue <;> cases hvalue

theorem natAbs_signed (negative : Bool) (amount : Nat) :
    (signed negative amount).natAbs = amount := by
  cases negative
  · rfl
  · exact Int.natAbs_neg _

theorem Counts.representable {x : Binary32} {count : Int} (hx : x.Counts count) :
    Representable count.natAbs := by
  obtain ⟨hfinite, rfl⟩ := hx
  exact ⟨x.magnitude, isFinite_iff.mp hfinite, (natAbs_signed _ _).symm⟩

/-! ## Rounding -/

theorem value_ofMagnitude (negative : Bool) {magnitude : Nat}
    (hfinite : magnitude < infiniteMagnitude) :
    (ofMagnitude negative magnitude).value = .finite negative (unitsOfMagnitude magnitude) := by
  have hlt : magnitude < 0x80000000 := Nat.lt_trans hfinite (by decide)
  unfold value
  rw [magnitude_ofMagnitude negative hlt, isNegative_ofMagnitude negative hlt, if_pos hfinite]

theorem value_infinity (negative : Bool) : (infinity negative).value = .infinite negative := by
  cases negative <;> decide

/-- **A representable result is not changed by rounding.** -/
theorem value_rounded (negative : Bool) {amount denominator : Nat} (hamount : Representable amount)
    (hpos : 0 < denominator) :
    (rounded negative (amount * denominator) denominator).value = .finite negative amount := by
  obtain ⟨magnitude, hfinite, rfl⟩ := hamount
  unfold rounded
  rw [nearestMagnitude_unitsOfMagnitude hfinite hpos, value_ofMagnitude negative hfinite]

theorem value_rounded_of_large (negative : Bool) {numerator denominator : Nat}
    (hpos : 0 < denominator)
    (hlarge : unitsOfMagnitude infiniteMagnitude * denominator ≤ numerator) :
    (rounded negative numerator denominator).value = .infinite negative := by
  unfold rounded
  rw [nearestMagnitude_of_large hpos hlarge]
  exact value_infinity negative

theorem counts_ofUnits (negativeZero : Bool) {count : Int} (hcount : Representable count.natAbs) :
    (ofUnits negativeZero count).Counts count := by
  unfold ofUnits
  split
  · rename_i hzero
    have hvalue : (zero negativeZero).value = .finite negativeZero (unitsOfMagnitude 0) :=
      value_ofMagnitude negativeZero (by decide)
    rw [hzero]
    cases negativeZero <;> exact counts_of_value hvalue
  · rename_i hne
    have hvalue := counts_of_value
      (value_rounded (decide (count < 0)) hcount (Nat.one_pos))
    rw [Nat.mul_one] at hvalue
    have hsigned : signed (decide (count < 0)) count.natAbs = count := by
      unfold signed
      split
      · rename_i hneg
        have := of_decide_eq_true hneg
        omega
      · rename_i hneg
        have := of_decide_eq_false (Bool.not_eq_true _ ▸ hneg)
        omega
    rwa [hsigned] at hvalue

/-! ## Signs -/

theorem magnitude_neg (x : Binary32) : x.neg.magnitude = x.magnitude :=
  magnitude_ofMagnitude _ x.magnitude_lt

theorem magnitude_abs (x : Binary32) : x.abs.magnitude = x.magnitude :=
  magnitude_ofMagnitude _ x.magnitude_lt

theorem Counts.neg {x : Binary32} {count : Int} (hx : x.Counts count) : x.neg.Counts (-count) := by
  obtain ⟨hfinite, rfl⟩ := hx
  refine ⟨?_, ?_⟩
  · rwa [isFinite_iff, magnitude_neg, ← isFinite_iff]
  · unfold units
    rw [magnitude_neg, show x.neg.isNegative = !x.isNegative from
      isNegative_ofMagnitude _ x.magnitude_lt]
    cases x.isNegative <;> simp [signed]

theorem Counts.abs {x : Binary32} {count : Int} (hx : x.Counts count) :
    x.abs.Counts count.natAbs := by
  obtain ⟨hfinite, rfl⟩ := hx
  refine ⟨?_, ?_⟩
  · rwa [isFinite_iff, magnitude_abs, ← isFinite_iff]
  · unfold units
    rw [magnitude_abs, natAbs_signed, show x.abs.isNegative = false from
      isNegative_ofMagnitude _ x.magnitude_lt]
    rfl

/-! ## Operations on finite numbers -/

section Operations

variable {x y : Binary32} {sign otherSign : Bool} {amount otherAmount : Nat}

theorem add_of_finite (hx : x.value = .finite sign amount)
    (hy : y.value = .finite otherSign otherAmount) :
    add x y = ofUnits (sign && otherSign) (signed sign amount + signed otherSign otherAmount) := by
  unfold add
  rw [hx, hy]

theorem mul_of_finite (hx : x.value = .finite sign amount)
    (hy : y.value = .finite otherSign otherAmount) :
    x * y = rounded (sign != otherSign) (amount * otherAmount) unitsPerOne := by
  show mul x y = _
  unfold mul
  rw [hx, hy]

theorem div_of_finite (hx : x.value = .finite sign amount)
    (hy : y.value = .finite otherSign otherAmount) (hne : otherAmount ≠ 0) :
    x / y = rounded (sign != otherSign) (amount * unitsPerOne) otherAmount := by
  show div x y = _
  unfold div
  rw [hx, hy]
  exact if_neg hne

theorem round_of_finite (hx : x.value = .finite sign amount) :
    x.round =
      rounded sign ((2 * amount + unitsPerOne) / (2 * unitsPerOne) * unitsPerOne) 1 := by
  unfold round
  rw [hx]

theorem truncate_of_finite (hx : x.value = .finite sign amount) :
    x.truncate = signed sign (amount / unitsPerOne) := by
  unfold truncate
  rw [hx]

end Operations

/-! ## Results that are exact -/

theorem unitsPerOne_eq : unitsPerOne = 2 ^ 149 := rfl

theorem signed_mul_two_pow (negative : Bool) (amount exponent : Nat) :
    signed negative (amount * 2 ^ exponent) = signed negative amount * 2 ^ exponent := by
  cases negative <;> simp [signed]

theorem Counts.sub {x y : Binary32} {first second : Int} (hx : x.Counts first)
    (hy : y.Counts second) (hdifference : Representable (first - second).natAbs) :
    (x - y).Counts (first - second) := by
  obtain ⟨sign, amount, hxValue, rfl⟩ := hx.exists_value
  obtain ⟨otherSign, otherAmount, hyValue, hother⟩ := hy.neg.exists_value
  show (add x y.neg).Counts _
  rw [add_of_finite hxValue hyValue, hother, ← Int.sub_eq_add_neg]
  exact counts_ofUnits _ hdifference

theorem counts_ofInt {number : Int} (hnumber : number.natAbs < 0x1000000) :
    (ofInt number).Counts (number * 2 ^ 149) := by
  have hamount : Representable (number * 2 ^ 149).natAbs := by
    rw [natAbs_mul_two_pow]
    exact representable_mul_two_pow hnumber (by decide)
  exact counts_ofUnits false hamount

/-- Of all multiples of `2 ^ exponent`, this one is nearest to `count`; a half goes away from
zero. -/
structure IsNearest (exponent : Nat) (count multiple : Int) : Prop where
  near : 2 * (count - multiple * 2 ^ exponent).natAbs ≤ 2 ^ exponent
  away : 2 * (count - multiple * 2 ^ exponent).natAbs = 2 ^ exponent →
    count.natAbs < (multiple * 2 ^ exponent).natAbs

theorem isNearest_signed (negative : Bool) (amount exponent : Nat) :
    IsNearest exponent (signed negative amount)
      (signed negative ((2 * amount + 2 ^ exponent) / (2 * 2 ^ exponent))) := by
  have hpos := Nat.two_pow_pos exponent
  have hle := Nat.div_mul_le_self (2 * amount + 2 ^ exponent) (2 * 2 ^ exponent)
  have hlt : 2 * amount + 2 ^ exponent <
      (2 * amount + 2 ^ exponent) / (2 * 2 ^ exponent) * (2 * 2 ^ exponent) + 2 * 2 ^ exponent :=
    Nat.lt_div_mul_add (Nat.mul_pos Nat.two_pos hpos)
  rw [Nat.mul_left_comm] at hle hlt
  have hproduct := signed_mul_two_pow negative
    ((2 * amount + 2 ^ exponent) / (2 * 2 ^ exponent)) exponent
  generalize (2 * amount + 2 ^ exponent) / (2 * 2 ^ exponent) * 2 ^ exponent = nearest at *
  constructor
  · rw [← hproduct]
    unfold signed
    split <;> omega
  · rw [← hproduct]
    unfold signed
    split <;> omega

/-- What is nearest to a multiple is nearest on a finer scale too. -/
theorem IsNearest.of_mul_two_pow {exponent shift : Nat} {count multiple : Int}
    (hnearest : IsNearest (exponent + shift) (count * 2 ^ shift) multiple) :
    IsNearest exponent count multiple := by
  have hpos := Nat.two_pow_pos shift
  obtain ⟨hnear, haway⟩ := hnearest
  have hdifference : count * 2 ^ shift - multiple * 2 ^ (exponent + shift) =
      (count - multiple * 2 ^ exponent) * 2 ^ shift := by ring
  rw [hdifference, natAbs_mul_two_pow, ← Nat.mul_assoc, Nat.pow_add] at hnear haway
  constructor
  · exact Nat.le_of_mul_le_mul_right hnear hpos
  · intro htie
    have hlt := haway (congrArg (· * 2 ^ shift) htie)
    rw [natAbs_mul_two_pow, Int.pow_add, ← Int.mul_assoc, natAbs_mul_two_pow] at hlt
    exact Nat.lt_of_mul_lt_mul_right hlt

/-- The nearest whole number is found exactly. -/
theorem Counts.exists_round {x : Binary32} {count : Int} (hx : x.Counts count) :
    ∃ number : Int, x.round.Counts (number * 2 ^ 149) ∧ IsNearest 149 count number := by
  have hcount := hx.representable
  obtain ⟨sign, amount, hvalue, rfl⟩ := hx.exists_value
  rw [natAbs_signed] at hcount
  have hresult := counts_of_value (value_rounded sign
    (hcount.nearest (show 149 ≤ 253 by decide)) Nat.one_pos)
  rw [Nat.mul_one, ← unitsPerOne_eq, ← round_of_finite hvalue, unitsPerOne_eq,
    signed_mul_two_pow] at hresult
  exact ⟨_, hresult, isNearest_signed sign amount 149⟩

theorem Counts.truncate_eq {x : Binary32} {number : Int} (hx : x.Counts (number * 2 ^ 149)) :
    x.truncate = number := by
  obtain ⟨sign, amount, hvalue, hamount⟩ := hx.exists_value
  have habs : amount = number.natAbs * 2 ^ 149 := by
    rw [← natAbs_signed sign amount, hamount, natAbs_mul_two_pow]
  rw [habs, signed_mul_two_pow] at hamount
  rw [truncate_of_finite hvalue, habs, unitsPerOne_eq, Nat.mul_div_cancel _ (by decide)]
  exact Int.eq_of_mul_eq_mul_right (by decide) hamount

/-! ## Order -/

theorem signed_le_signed_iff {scale : Nat → Nat} (hscale : StrictMono scale) (hzero : scale 0 = 0)
    (sign otherSign : Bool) (amount otherAmount : Nat) :
    signed sign (scale amount) ≤ signed otherSign (scale otherAmount) ↔
      signed sign amount ≤ signed otherSign otherAmount := by
  have hle : scale amount ≤ scale otherAmount ↔ amount ≤ otherAmount := hscale.le_iff_le
  have hge : scale otherAmount ≤ scale amount ↔ otherAmount ≤ amount := hscale.le_iff_le
  have hfirst : scale amount ≤ scale 0 ↔ amount ≤ 0 := hscale.le_iff_le
  have hsecond : scale otherAmount ≤ scale 0 ↔ otherAmount ≤ 0 := hscale.le_iff_le
  unfold signed
  cases sign <;> cases otherSign <;> simp only [Bool.false_eq_true, if_false, if_true] <;> omega

theorem le_iff {x y : Binary32} :
    x.le y = true ↔ x.isNaN = false ∧ y.isNaN = false ∧ x.units ≤ y.units := by
  unfold le units rank?
  rw [signed_le_signed_iff strictMono_unitsOfMagnitude (unitsOfMagnitude_of_lt (by decide))]
  cases x.isNaN <;> cases y.isNaN <;> simp

theorem lt_iff {x y : Binary32} :
    x.lt y = true ↔ x.isNaN = false ∧ y.isNaN = false ∧ x.units < y.units := by
  unfold lt units rank?
  rw [← Int.not_le, signed_le_signed_iff strictMono_unitsOfMagnitude
    (unitsOfMagnitude_of_lt (by decide)), Int.not_le]
  cases x.isNaN <;> cases y.isNaN <;> simp

theorem Counts.isNaN_eq_false {x : Binary32} {count : Int} (hx : x.Counts count) :
    x.isNaN = false :=
  decide_eq_false (Nat.lt_asymm (isFinite_iff.mp hx.1))

/-- Numbers with a count are compared like their counts. -/
theorem Counts.le_iff_le {x y : Binary32} {first second : Int} (hx : x.Counts first)
    (hy : y.Counts second) : x.le y = true ↔ first ≤ second := by
  rw [le_iff, hx.2, hy.2, and_iff_right hx.isNaN_eq_false,
    and_iff_right hy.isNaN_eq_false]

theorem Counts.lt_iff_lt {x y : Binary32} {first second : Int} (hx : x.Counts first)
    (hy : y.Counts second) : x.lt y = true ↔ first < second := by
  rw [lt_iff, hx.2, hy.2, and_iff_right hx.isNaN_eq_false,
    and_iff_right hy.isNaN_eq_false]

/-! ## Numbers that are not finite -/

theorem isFinite_nan : nan.isFinite = false := rfl

theorem isFinite_infinity (negative : Bool) : (infinity negative).isFinite = false := by
  cases negative <;> rfl

theorem magnitude_of_not_isFinite {x : Binary32} (hnumber : x.isNaN = false)
    (hinfinite : ¬ x.isFinite = true) : x.magnitude = infiniteMagnitude := by
  have hle := of_decide_eq_false hnumber
  rw [isFinite_iff] at hinfinite
  omega

theorem isFinite_of_round {x : Binary32} (hresult : x.round.isFinite = true) :
    x.isFinite = true := by
  unfold round at hresult
  split at hresult
  · rename_i hvalue
    exact (counts_of_value hvalue).1
  · exact hresult

theorem isFinite_of_mul {x y : Binary32} (hresult : (x * y).isFinite = true) :
    x.isFinite = true := by
  change (mul x y).isFinite = true at hresult
  unfold mul at hresult
  cases hvalue : x.value with
  | finite sign amount => exact (counts_of_value hvalue).1
  | notANumber | infinite sign =>
      rw [hvalue] at hresult
      cases hother : y.value <;> simp only [hother] at hresult <;>
        simp [apply_ite isFinite, isFinite_nan, isFinite_infinity] at hresult

theorem isFinite_of_div {x y : Binary32} (hresult : (x / y).isFinite = true) :
    x.isFinite = true := by
  change (div x y).isFinite = true at hresult
  unfold div at hresult
  cases hvalue : x.value with
  | finite sign amount => exact (counts_of_value hvalue).1
  | notANumber | infinite sign =>
      rw [hvalue] at hresult
      cases hother : y.value <;> simp only [hother] at hresult <;>
        simp [isFinite_nan, isFinite_infinity] at hresult

theorem isFinite_iff_natAbs_lt {x : Binary32} :
    x.isFinite = true ↔ x.units.natAbs < unitsOfMagnitude infiniteMagnitude := by
  rw [isFinite_iff, units, natAbs_signed, strictMono_unitsOfMagnitude.lt_iff_lt]

/-- A number between two finite ones is finite. -/
theorem isFinite_of_between {x low high : Binary32} (hlow : low.isFinite = true)
    (hhigh : high.isFinite = true) (hle : low.le x = true) (hlt : x.lt high = true) :
    x.isFinite = true := by
  rw [isFinite_iff_natAbs_lt] at hlow hhigh ⊢
  obtain ⟨-, -, hle⟩ := le_iff.mp hle
  obtain ⟨-, -, hlt⟩ := lt_iff.mp hlt
  omega

end Binary32
end VectorIcons
