import Mathlib.Data.EReal.Basic
import Mathlib.Tactic.FieldSimp
import VectorIcons.Proofs.Binary32.Exactness
import VectorIcons.Proofs.Program.ReadBack

/-!
# The numbers of a coordinate stream

Coordinates that were written one after another are read back one for one, and each
read stops where the next coordinate begins.  What a read gives is near the number that was
written: `Coordinate.Keeps`.

## Strategy

Writing computes the error of a short form in binary32 and compares it with the precision.
That this decides about the exact error needs every step to be exact, up to the comparison:

```text
x                            count
x.round                      number * 2 ^ 149            Counts.exists_round
nearestSixtyFourth x         number * 2 ^ 143            Counts.exists_nearestSixtyFourth
x - approximation            the difference of counts    representable_natAbs_sub
```

The product by sixty-four may be too large for a finite number.  So may the number itself, or
it is none.  Then the approximation is not finite, and it lies in neither range.
-/

namespace VectorIcons

/-! ## Exact values -/

namespace Binary32

/-- The exact number that `x` stands for, `none` for a not-a-number. -/
noncomputable def exactValue? (x : Binary32) : Option EReal :=
  match x.value with
  | .notANumber => none
  | .infinite negative => some (if negative then ⊥ else ⊤)
  | .finite negative amount => some (((signed negative amount : Int) / 2 ^ 149 : ℝ) : EReal)

/-- `x` and `y` are finite, and their exact distance is at most `precision`. -/
def Within (precision x y : Binary32) : Prop :=
  ∃ (first second : ℝ) (bound : EReal), x.exactValue? = some (first : EReal) ∧
    y.exactValue? = some (second : EReal) ∧ precision.exactValue? = some bound ∧
    ((|first - second| : ℝ) : EReal) ≤ bound

theorem Counts.exactValue?_eq {x : Binary32} {count : Int} (hx : x.Counts count) :
    x.exactValue? = some ((count / 2 ^ 149 : ℝ) : EReal) := by
  obtain ⟨sign, amount, hvalue, rfl⟩ := hx.exists_value
  unfold exactValue?
  rw [hvalue]

theorem exists_counts_of_exactValue? {x : Binary32} {value : ℝ}
    (hx : x.exactValue? = some (value : EReal)) :
    ∃ count : ℤ, x.Counts count ∧ value = count / 2 ^ 149 := by
  unfold exactValue? at hx
  split at hx
  · cases hx
  · rename_i negative hvalue
    cases negative <;> simp at hx
  · rename_i negative amount hvalue
    rw [Option.some_inj, EReal.coe_eq_coe_iff] at hx
    exact ⟨_, counts_of_value hvalue, hx.symm⟩

/-- The exact value of a number tells its count. -/
theorem counts_iff {x : Binary32} {count : Int} :
    x.Counts count ↔ x.exactValue? = some ((count / 2 ^ 149 : ℝ) : EReal) := by
  constructor
  · exact Counts.exactValue?_eq
  · intro hx
    obtain ⟨other, hcounts, hvalue⟩ := exists_counts_of_exactValue? hx
    rw [div_left_inj' (by positivity), Int.cast_inj] at hvalue
    rwa [hvalue]

theorem counts_whole_iff {x : Binary32} {number : Int} :
    x.Counts (number * 2 ^ 149) ↔ x.exactValue? = some ((number : ℝ) : EReal) := by
  rw [counts_iff, Int.cast_mul, Int.cast_pow, Int.cast_ofNat,
    mul_div_cancel_right₀ _ (by positivity)]

theorem counts_sixtyFourths_iff {x : Binary32} {number : Int} :
    x.Counts (number * 2 ^ 143) ↔ x.exactValue? = some ((number / 64 : ℝ) : EReal) := by
  rw [counts_iff, Int.cast_mul, Int.cast_pow, Int.cast_ofNat,
    show (2 : ℝ) ^ 149 = 64 * 2 ^ 143 by norm_num, mul_div_mul_right _ _ (by positivity)]

/-- What a number with a count is at most, has an exact value that is not below. -/
theorem Counts.exists_bound {x bound : Binary32} {count : Int} (hx : x.Counts count)
    (hle : x.le bound = true) :
    ∃ exact, bound.exactValue? = some exact ∧ ((count / 2 ^ 149 : ℝ) : EReal) ≤ exact := by
  obtain ⟨hfinite, rfl⟩ := hx
  obtain ⟨-, hnumber, hunits⟩ := le_iff.mp hle
  change x.units ≤ signed bound.isNegative (unitsOfMagnitude bound.magnitude) at hunits
  by_cases hbound : bound.isFinite = true
  · refine ⟨_, Counts.exactValue?_eq ⟨hbound, rfl⟩, EReal.coe_le_coe_iff.mpr ?_⟩
    gcongr
    exact hunits
  · -- The negative infinity is below every finite number.
    have hmagnitude := magnitude_of_not_isFinite hnumber hbound
    have hpositive : bound.isNegative = false := by
      rw [isFinite_iff_natAbs_lt] at hfinite
      rw [hmagnitude] at hunits
      cases hsign : bound.isNegative with
      | false => rfl
      | true =>
          rw [hsign, signed, if_pos rfl] at hunits
          omega
    have hvalue : bound.value = .infinite false := by
      rw [value, if_neg (isFinite_iff.not.mp hbound), if_pos hmagnitude, hpositive]
    refine ⟨⊤, ?_, le_top⟩
    unfold exactValue?
    rw [hvalue]
    rfl

end Binary32

namespace Coordinate

open Binary32

/-! ## The scale of sixty-fourths -/

theorem value_stepsPerOne : stepsPerOne.value = .finite false (2 ^ 6 * unitsPerOne) := by
  decide +kernel

theorem counts_mul_stepsPerOne {x : Binary32} {count : Int} (hx : x.Counts count)
    (hproduct : Representable (count.natAbs * 2 ^ 6)) :
    (x * stepsPerOne).Counts (count * 2 ^ 6) := by
  obtain ⟨sign, amount, hvalue, rfl⟩ := hx.exists_value
  rw [natAbs_signed] at hproduct
  have hresult := counts_of_value (value_rounded sign hproduct (show 0 < unitsPerOne by decide))
  rw [mul_of_finite hvalue value_stepsPerOne, ← Nat.mul_assoc, Bool.bne_false,
    ← signed_mul_two_pow]
  exact hresult

/-- Sixty-four times a number is exact, unless it is too large. -/
theorem counts_mul_stepsPerOne_of_isFinite {x : Binary32} {count : Int} (hx : x.Counts count)
    (hfinite : (x * stepsPerOne).isFinite = true) :
    (x * stepsPerOne).Counts (count * 2 ^ 6) := by
  rcases hx.representable.mul_64 with hproduct | hlarge
  · exact counts_mul_stepsPerOne hx hproduct
  · obtain ⟨sign, amount, hvalue, rfl⟩ := hx.exists_value
    rw [natAbs_signed] at hlarge
    have hinfinite := value_rounded_of_large (sign != false) (show 0 < unitsPerOne by decide)
      (Nat.mul_le_mul_right unitsPerOne hlarge)
    rw [Nat.mul_assoc, ← mul_of_finite hvalue value_stepsPerOne] at hinfinite
    rw [value_of_isFinite hfinite] at hinfinite
    cases hinfinite

/-- A sixty-fourth of a whole number is exact. -/
theorem counts_div_stepsPerOne {x : Binary32} {number : Int} (hx : x.Counts (number * 2 ^ 149)) :
    (x / stepsPerOne).Counts (number * 2 ^ 143) := by
  have hcount := hx.representable
  obtain ⟨sign, amount, hvalue, hamount⟩ := hx.exists_value
  have habs : amount = number.natAbs * 2 ^ 143 * 2 ^ 6 := by
    rw [← natAbs_signed sign amount, hamount, natAbs_mul_two_pow, Nat.mul_assoc, ← Nat.pow_add]
  have hexact : Representable (number.natAbs * 2 ^ 143) := by
    refine Representable.of_mul_64 ?_ (Nat.dvd_mul_left _ _)
    rwa [← habs, ← natAbs_signed sign amount, hamount]
  have hsigned : signed sign number.natAbs = number := by
    rw [habs, Nat.mul_assoc, ← Nat.pow_add, signed_mul_two_pow] at hamount
    exact Int.eq_of_mul_eq_mul_right (by decide) hamount
  have hresult := counts_of_value (value_rounded sign hexact
    (show 0 < 2 ^ 6 * unitsPerOne by decide))
  rwa [← Nat.mul_assoc, ← habs, ← Bool.bne_false sign,
    ← div_of_finite hvalue value_stepsPerOne (by decide), Bool.bne_false, signed_mul_two_pow,
    hsigned] at hresult

/-- The nearest sixty-fourth is found exactly. -/
theorem exists_counts_nearestSixtyFourth {x : Binary32} {count : Int} (hx : x.Counts count)
    (hfinite : (x * stepsPerOne).isFinite = true) :
    ∃ number : Int, (nearestSixtyFourth x).Counts (number * 2 ^ 143) ∧
      IsNearest 143 count number := by
  have hproduct := counts_mul_stepsPerOne_of_isFinite hx hfinite
  obtain ⟨number, hround, hnearest⟩ := hproduct.exists_round
  exact ⟨number, counts_div_stepsPerOne hround, @IsNearest.of_mul_two_pow 143 6 _ _ hnearest⟩

/-! ## What a short form stands for -/

section Represents

variable {approximation x precision : Binary32} {bound : Int}

/-- An approximation in range is finite, and its count is in range. -/
theorem range_of_represents (hbound : bound.natAbs < 0x1000000)
    (hshort : represents approximation x precision bound = true) :
    approximation.isFinite = true ∧ -bound * 2 ^ 149 ≤ approximation.units ∧
      approximation.units < bound * 2 ^ 149 := by
  unfold represents at hshort
  rw [Bool.and_eq_true, Bool.and_eq_true] at hshort
  obtain ⟨⟨-, hlow⟩, hhigh⟩ := hshort
  obtain ⟨hlowFinite, hlowUnits⟩ := @counts_ofInt (-bound) (by omega)
  obtain ⟨hhighFinite, hhighUnits⟩ := counts_ofInt hbound
  refine ⟨isFinite_of_between hlowFinite hhighFinite hlow hhigh, ?_, ?_⟩
  · rw [← hlowUnits]
    exact (le_iff.mp hlow).2.2
  · rw [← hhighUnits]
    exact (lt_iff.mp hhigh).2.2

/-- Where the difference is exact, the comparison with the precision is one of exact
numbers. -/
theorem within_of_represents {y : Binary32} {first second : Int} (hx : x.Counts first)
    (happroximation : approximation.Counts second) (hy : y.Counts second)
    (hdifference : Representable (first - second).natAbs)
    (hshort : represents approximation x precision bound = true) : Within precision x y := by
  unfold represents at hshort
  rw [Bool.and_eq_true, Bool.and_eq_true] at hshort
  obtain ⟨⟨hle, -⟩, -⟩ := hshort
  obtain ⟨exact, hprecision, hbound⟩ := (hx.sub happroximation hdifference).abs.exists_bound hle
  refine ⟨_, _, exact, hx.exactValue?_eq, hy.exactValue?_eq, hprecision, ?_⟩
  calc ((|(first : ℝ) / 2 ^ 149 - (second : ℝ) / 2 ^ 149| : ℝ) : EReal)
      = ((((first - second).natAbs : Int) / 2 ^ 149 : ℝ) : EReal) := by
        rw [← sub_div, abs_div, abs_of_pos (show (0 : ℝ) < 2 ^ 149 by positivity)]
        push_cast
        rfl
    _ ≤ exact := hbound

end Represents

/-- A number that the one-byte form stands for is near the whole number that is written. -/
theorem exists_whole {x precision : Binary32} (hshort : represents x.round x precision 64 = true) :
    ∃ number : Int, -64 ≤ number ∧ number < 64 ∧ x.round.Counts (number * 2 ^ 149) ∧
      ∀ y : Binary32, y.Counts (number * 2 ^ 149) → Within precision x y := by
  obtain ⟨hfinite, hlow, hhigh⟩ := range_of_represents (by decide) hshort
  have hx : x.Counts x.units := ⟨isFinite_of_round hfinite, rfl⟩
  obtain ⟨number, hround, hnearest⟩ := hx.exists_round
  rw [hround.2] at hlow hhigh
  refine ⟨number, by omega, by omega, hround, fun y hy => ?_⟩
  exact within_of_represents hx hround hy
    (representable_natAbs_sub hx.representable hnearest.near) hshort

/-- A number that the two-byte form stands for is near the number of sixty-fourths that is
written. -/
theorem exists_sixtyFourths {x precision : Binary32}
    (hshort : represents (nearestSixtyFourth x) x precision 128 = true) :
    ∃ number : Int, -8192 ≤ number ∧ number < 8192 ∧
      (nearestSixtyFourth x).Counts (number * 2 ^ 143) ∧
      ∀ y : Binary32, y.Counts (number * 2 ^ 143) → Within precision x y := by
  obtain ⟨hfinite, hlow, hhigh⟩ := range_of_represents (by decide) hshort
  have hproduct : (x * stepsPerOne).isFinite = true :=
    isFinite_of_round (isFinite_of_div hfinite)
  have hx : x.Counts x.units := ⟨isFinite_of_mul hproduct, rfl⟩
  obtain ⟨number, hcounts, hnearest⟩ := exists_counts_nearestSixtyFourth hx hproduct
  rw [hcounts.2] at hlow hhigh
  refine ⟨number, by omega, by omega, hcounts, fun y hy => ?_⟩
  exact within_of_represents hx hcounts hy
    (representable_natAbs_sub hx.representable hnearest.near) hshort

/-! ## What is read -/

theorem ofBytes_wholeBytes (number : Int) :
    ofBytes (wholeBytes number) = ofWholeByte (UInt8.ofNat (2 * (number + 64).toNat + 1)) := by
  simp only [ofBytes, Cursor.coordinate, Cursor.start, Cursor.atEnd, Cursor.byte, wholeBytes,
    List.isEmpty_cons, ofByte_whole, Bool.false_eq_true, if_false]

theorem counts_wholeBytes {number : Int} (hlow : -64 ≤ number) (hhigh : number < 64) :
    (ofBytes (wholeBytes number)).Counts (number * 2 ^ 149) := by
  have hnumber : (((UInt8.ofNat (2 * (number + 64).toNat + 1)).toNat / 2 : Nat) : Int) - 64 =
      number := by
    rw [UInt8.toNat_ofNat']
    omega
  rw [ofBytes_wholeBytes, ofWholeByte, hnumber]
  exact counts_ofInt (by omega)

theorem ofBytes_sixtyFourthsBytes (number : Int) :
    ofBytes (sixtyFourthsBytes number) =
      ofSixtyFourthsWord (UInt16.ofNat (4 * (number + 8192).toNat + 2)) := by
  rw [← word16_littleEndian16 (UInt16.ofNat (4 * (number + 8192).toNat + 2))]
  simp only [ofBytes, Cursor.coordinate, Cursor.start, Cursor.atEnd, Cursor.byte,
    sixtyFourthsBytes, littleEndian16, List.isEmpty_cons, ofByte_sixtyFourths,
    Bool.false_eq_true, if_false]

theorem counts_sixtyFourthsBytes {number : Int} (hlow : -8192 ≤ number) (hhigh : number < 8192) :
    (ofBytes (sixtyFourthsBytes number)).Counts (number * 2 ^ 143) := by
  have hnumber : (((UInt16.ofNat (4 * (number + 8192).toNat + 2)).toNat / 4 : Nat) : Int) - 8192 =
      number := by
    rw [UInt16.toNat_ofNat']
    omega
  rw [ofBytes_sixtyFourthsBytes, ofSixtyFourthsWord, hnumber]
  exact counts_div_stepsPerOne (counts_ofInt (by omega))

theorem truncate_nearestSixtyFourth {x : Binary32} {number : Int} (hlow : -8192 ≤ number)
    (hhigh : number < 8192) (hnearest : (nearestSixtyFourth x).Counts (number * 2 ^ 143)) :
    (nearestSixtyFourth x * stepsPerOne).truncate = number := by
  have hproduct : Representable ((number * 2 ^ 143).natAbs * 2 ^ 6) := by
    rw [natAbs_mul_two_pow, Nat.mul_assoc, ← Nat.pow_add]
    exact representable_mul_two_pow (by omega) (by decide)
  have hcounts := counts_mul_stepsPerOne hnearest hproduct
  rw [Int.mul_assoc, ← Int.pow_add] at hcounts
  exact hcounts.truncate_eq

theorem ofNat_div_mul_four (bits : UInt32) :
    UInt32.ofNat (bits.toNat / 4 * 4) = bits &&& 0xfffffffc := by
  have hbits := bits.toNat_lt
  apply UInt32.toNat_inj.mp
  rw [UInt32.toNat_and, UInt32.toNat_ofNat', Nat.mod_eq_of_lt (by omega),
    show (0xfffffffc : UInt32).toNat = (2 ^ 30 - 1) * 2 ^ 2 from rfl]
  refine Nat.eq_of_testBit_eq fun place => ?_
  rw [Nat.testBit_and, show bits.toNat / 4 * 4 = bits.toNat / 2 ^ 2 * 2 ^ 2 from rfl,
    Nat.testBit_mul_two_pow, Nat.testBit_mul_two_pow, Nat.testBit_two_pow_sub_one,
    Nat.testBit_div_two_pow]
  rcases Nat.lt_or_ge place 2 with hlow | hhigh
  · rw [decide_eq_false (Nat.not_le.mpr hlow), Bool.false_and, Bool.false_and, Bool.and_false]
  · rw [Nat.sub_add_cancel hhigh, decide_eq_true hhigh, Bool.true_and, Bool.true_and]
    rcases Nat.lt_or_ge place 32 with hlt | hge
    · rw [decide_eq_true (by omega), Bool.and_true]
    · -- Beyond the word there is no bit to clear.
      rw [Nat.testBit_lt_two_pow (Nat.lt_of_lt_of_le hbits (Nat.pow_le_pow_right (by decide) hge)),
        Bool.false_and]

theorem ofBytes_fullBytes (x : Binary32) : ofBytes (fullBytes x) = ⟨x.bits &&& 0xfffffffc⟩ := by
  rw [← ofNat_div_mul_four, ← word32_littleEndian32 (UInt32.ofNat (x.bits.toNat / 4 * 4))]
  simp only [ofBytes, Cursor.coordinate, Cursor.start, Cursor.atEnd, Cursor.byte, fullBytes,
    littleEndian32, List.isEmpty_cons, ofByte_full, Bool.false_eq_true, if_false, ofFullWord]

/-! ## The stream -/

/-- What becomes of `x` when it is written with a precision and read: the bytes that the read
takes, and the number it gives. -/
structure Keeps (precision x : Binary32) (read : Spelled Binary32) : Prop where
  bytes_eq : read.bytes = encode precision x
  length : read.bytes.length = 1 ∨ read.bytes.length = 2 ∨ read.bytes.length = 4
  whole : read.bytes.length = 1 →
    ∃ number : Int, -64 ≤ number ∧ number ≤ 63 ∧
      read.value.exactValue? = some ((number : ℝ) : EReal)
  sixtyFourths : read.bytes.length = 2 →
    ∃ number : Int, -128 ≤ (number / 64 : ℝ) ∧ (number / 64 : ℝ) < 128 ∧
      read.value.exactValue? = some ((number / 64 : ℝ) : EReal)
  within : read.bytes.length ≤ 2 → Within precision x read.value
  full : read.bytes.length = 4 → read.value.bits = x.bits &&& 0xfffffffc

theorem keeps_of_whole {precision x : Binary32}
    (hshort : represents x.round x precision 64 = true) :
    Keeps precision x ⟨encode precision x, decoded precision x⟩ := by
  obtain ⟨number, hlow, hhigh, hround, hwithin⟩ := exists_whole hshort
  have hencode : encode precision x = wholeBytes number := by
    rw [encode, if_pos hshort, hround.truncate_eq]
  have hlength : (encode precision x).length = 1 := congrArg List.length hencode
  have hread : (decoded precision x).Counts (number * 2 ^ 149) := by
    rw [decoded_eq, hencode]
    exact counts_wholeBytes hlow hhigh
  have hexact := counts_whole_iff.mp hread
  exact
    { bytes_eq := rfl
      length := .inl hlength
      whole := fun _ => ⟨number, hlow, by omega, hexact⟩
      sixtyFourths := fun htwo => absurd (hlength.symm.trans htwo) (by decide)
      within := fun _ => hwithin _ hread
      full := fun hfour => absurd (hlength.symm.trans hfour) (by decide) }

theorem keeps_of_sixtyFourths {precision x : Binary32}
    (hlong : ¬represents x.round x precision 64 = true)
    (hshort : represents (nearestSixtyFourth x) x precision 128 = true) :
    Keeps precision x ⟨encode precision x, decoded precision x⟩ := by
  obtain ⟨number, hlow, hhigh, hnearest, hwithin⟩ := exists_sixtyFourths hshort
  have hencode : encode precision x = sixtyFourthsBytes number := by
    rw [encode, if_neg hlong, if_pos hshort, truncate_nearestSixtyFourth hlow hhigh hnearest]
  have hlength : (encode precision x).length = 2 := congrArg List.length hencode
  have hread : (decoded precision x).Counts (number * 2 ^ 143) := by
    rw [decoded_eq, hencode]
    exact counts_sixtyFourthsBytes hlow hhigh
  have hexact := counts_sixtyFourths_iff.mp hread
  have hlowReal : (-8192 : ℝ) ≤ number := mod_cast hlow
  have hhighReal : (number : ℝ) < 8192 := mod_cast hhigh
  exact
    { bytes_eq := rfl
      length := .inr (.inl hlength)
      whole := fun hone => absurd (hlength.symm.trans hone) (by decide)
      sixtyFourths := fun _ => ⟨number, by linarith, by linarith, hexact⟩
      within := fun _ => hwithin _ hread
      full := fun hfour => absurd (hlength.symm.trans hfour) (by decide) }

theorem keeps_of_full {precision x : Binary32}
    (hlong : ¬represents x.round x precision 64 = true)
    (hlonger : ¬represents (nearestSixtyFourth x) x precision 128 = true) :
    Keeps precision x ⟨encode precision x, decoded precision x⟩ := by
  have hencode : encode precision x = fullBytes x := by
    rw [encode, if_neg hlong, if_neg hlonger]
  have hlength : (encode precision x).length = 4 := congrArg List.length hencode
  have hread : decoded precision x = ⟨x.bits &&& 0xfffffffc⟩ := by
    rw [decoded_eq, hencode, ofBytes_fullBytes]
  exact
    { bytes_eq := rfl
      length := .inr (.inr hlength)
      whole := fun hone => absurd (hlength.symm.trans hone) (by decide)
      sixtyFourths := fun htwo => absurd (hlength.symm.trans htwo) (by decide)
      within := fun hle => absurd (hlength ▸ hle) (by decide)
      full := fun _ => congrArg Binary32.bits hread }

/-- Whatever the number and the precision are, one of the three forms is written. -/
theorem keeps_decoded (precision x : Binary32) :
    Keeps precision x ⟨encode precision x, decoded precision x⟩ := by
  by_cases hwhole : represents x.round x precision 64 = true
  · exact keeps_of_whole hwhole
  · by_cases hshort : represents (nearestSixtyFourth x) x precision 128 = true
    · exact keeps_of_sixtyFourths hwhole hshort
    · exact keeps_of_full hwhole hshort

/-- **Coordinates written one after another are read back one for one.**  Each read takes the
bytes that were written for its number, the reads end where the bytes behind begin, and each
number is kept as its form allows. -/
theorem repeated_coordinate_flatMap_encode (precision : Binary32) (values : List Binary32)
    (rest : Bytes) :
    ∃ reads : List (Spelled Binary32),
      Cursor.repeated (Cursor.spelled Cursor.coordinate) values.length
          (Cursor.start (values.flatMap (encode precision) ++ rest)) =
        (reads, ⟨(values.flatMap (encode precision)).length, rest⟩) ∧
      List.Forall₂ (Keeps precision) values reads := by
  refine ⟨values.map fun x => ⟨encode precision x, decoded precision x⟩, ?_, ?_⟩
  · have hread := Cursor.ReadsBack.repeated
      (fun x => (Cursor.readsBack_coordinate precision x).spelled) values 0 rest
    rwa [Nat.zero_add] at hread
  · rw [List.forall₂_map_right_iff, List.forall₂_same]
    exact fun x _ => keeps_decoded precision x

end Coordinate
end VectorIcons
