import VectorIcons.Proofs.Program.ShortestForm

/-!
# Writing a coordinate again

A number may be written in up to three forms.  Whoever wrote it, reading it and writing it again
with a precision of zero gives the number back, in the least number of bytes that any of its
encodings has, and writing it once more changes nothing: `rewritesExactly`.

## Strategy

The exact value of a number decides on all of it.  The numbers of the two short forms are multiples
of a step in a range, `IsMultiple`, and so the value tells how short an encoding can be:

```text
whole number from -64 to 63                  one byte
sixty-fourths from -128 up to 128            two bytes
any other number, and what is not a number   four bytes
```

Bytes that someone wrote cannot be shorter than their value allows (`isMultiple_of_length`), and the
encoder is just as short (`length_encode_zero_le`).  A short form has one encoding of a value at
most (`eq_of_exactValue?_eq`), so there the encoder has no choice.  In the long form zero has two
encodings and a not-a-number has many, but there the bits stay as they are.
-/

namespace VectorIcons

open Binary32

namespace Binary32

theorem exactValue?_zero : (zero false).exactValue? = some ((0 : ℝ) : EReal) := by
  have hcounts : (zero false).Counts 0 := ⟨rfl, by decide⟩
  rw [hcounts.exactValue?_eq, Int.cast_zero, zero_div]

theorem exactValue?_eq_none_iff {x : Binary32} : x.exactValue? = none ↔ x.isNaN = true := by
  unfold exactValue? value isNaN
  rw [decide_eq_true_eq]
  split_ifs with hfinite hinfinite
  · exact iff_of_false id (by omega)
  · exact iff_of_false id (by omega)
  · exact iff_of_true rfl (by omega)

end Binary32

namespace Coordinate

/-! ## The numbers of the short forms -/

/-- `x` is a multiple of `1 / perOne`, from `-bound` up to and not including `bound`. -/
def IsMultiple (perOne bound : ℕ) (x : Binary32) : Prop :=
  ∃ number : ℤ, -(bound : ℝ) ≤ number / perOne ∧ (number / perOne : ℝ) < bound ∧
    x.exactValue? = some ((number / perOne : ℝ) : EReal)

section Multiples

variable {perOne bound : ℕ} {x y : Binary32}

theorem isMultiple_congr (hvalue : x.exactValue? = y.exactValue?) :
    IsMultiple perOne bound x ↔ IsMultiple perOne bound y := by
  unfold IsMultiple
  rw [hvalue]

/-- With a precision of zero, nothing but the number itself is near to it. -/
theorem isMultiple_iff {value : ℝ} (hx : x.exactValue? = some (value : EReal)) :
    IsMultiple perOne bound x ↔ HasNear perOne bound 0 value := by
  unfold IsMultiple HasNear
  simp only [hx, Option.some_inj, EReal.coe_eq_coe_iff, abs_nonpos_iff, sub_eq_zero]

theorem isMultiple_wholeBytes {number : ℤ} (hlow : -64 ≤ number) (hhigh : number < 64) :
    IsMultiple 1 64 (ofBytes (wholeBytes number)) := by
  have hrange := (@div_mem_range_iff 1 64 number (by decide)).mpr ⟨by omega, by omega⟩
  refine ⟨number, hrange.1, hrange.2, ?_⟩
  rw [Nat.cast_one, div_one]
  exact counts_whole_iff.mp (counts_wholeBytes hlow hhigh)

theorem isMultiple_sixtyFourthsBytes {number : ℤ} (hlow : -8192 ≤ number) (hhigh : number < 8192) :
    IsMultiple 64 128 (ofBytes (sixtyFourthsBytes number)) := by
  have hrange := (@div_mem_range_iff 64 128 number (by decide)).mpr ⟨by omega, by omega⟩
  refine ⟨number, hrange.1, hrange.2, ?_⟩
  exact_mod_cast counts_sixtyFourths_iff.mp (counts_sixtyFourthsBytes hlow hhigh)

end Multiples

/-! ## Complete coordinates -/

theorem ofByte_eq (first : UInt8) :
    (CoordinateForm.ofByte first = .whole → first.toNat % 2 = 1) ∧
      (CoordinateForm.ofByte first = .sixtyFourths → first.toNat % 4 = 2) ∧
      (CoordinateForm.ofByte first = .full → first.toNat % 4 = 0) := by
  unfold CoordinateForm.ofByte
  split_ifs with hodd htwo
  · exact ⟨fun _ => hodd, nofun, nofun⟩
  · exact ⟨nofun, fun _ => by omega, nofun⟩
  · exact ⟨nofun, nofun, fun _ => by omega⟩

theorem exists_wholeBytes_eq {first : UInt8} (hodd : first.toNat % 2 = 1) :
    ∃ number : ℤ, -64 ≤ number ∧ number < 64 ∧ [first] = wholeBytes number := by
  have hbound := first.toNat_lt
  refine ⟨first.toNat / 2 - 64, by omega, by omega, ?_⟩
  have hfirst : UInt8.ofNat (2 * ((first.toNat / 2 - 64 : ℤ) + 64).toNat + 1) = first := by
    rw [← UInt8.toNat_inj, UInt8.toNat_ofNat']
    omega
  rw [wholeBytes, hfirst]

theorem exists_sixtyFourthsBytes_eq {first second : UInt8} (hlow : first.toNat % 4 = 2) :
    ∃ number : ℤ, -8192 ≤ number ∧ number < 8192 ∧ [first, second] = sixtyFourthsBytes number := by
  obtain ⟨word, hword⟩ : ∃ word, littleEndian16 word = [first, second] :=
    ⟨_, littleEndian16_word16 first second⟩
  have hfirst : UInt8.ofNat word.toNat = first := (List.cons.inj hword).1
  rw [← hfirst, UInt8.toNat_ofNat'] at hlow
  have hbound := word.toNat_lt
  refine ⟨word.toNat / 4 - 8192, by omega, by omega, ?_⟩
  rw [← hword, sixtyFourthsBytes]
  congr 1
  rw [← UInt16.toNat_inj, UInt16.toNat_ofNat']
  omega

theorem exists_fullBytes_eq {first second third fourth : UInt8} (hlow : first.toNat % 4 = 0) :
    ∃ x : Binary32, [first, second, third, fourth] = fullBytes x := by
  obtain ⟨word, hword⟩ : ∃ word, littleEndian32 word = [first, second, third, fourth] :=
    ⟨_, littleEndian32_word32 first second third fourth⟩
  have hfirst : UInt8.ofNat word.toNat = first := (List.cons.inj hword).1
  rw [← hfirst, UInt8.toNat_ofNat'] at hlow
  have hbound := word.toNat_lt
  refine ⟨⟨word⟩, ?_⟩
  rw [← hword, fullBytes]
  congr 1
  rw [← UInt32.toNat_inj, UInt32.toNat_ofNat']
  dsimp only
  omega

/-- The bytes of a coordinate are those of one of the three forms. -/
theorem IsComplete.exists_form {bytes : Bytes} (hcomplete : IsComplete bytes) :
    (∃ number : ℤ, -64 ≤ number ∧ number < 64 ∧ bytes = wholeBytes number) ∨
      (∃ number : ℤ, -8192 ≤ number ∧ number < 8192 ∧ bytes = sixtyFourthsBytes number) ∨
      ∃ x : Binary32, bytes = fullBytes x := by
  obtain ⟨first, hform, rfl⟩ | ⟨first, second, hform, rfl⟩ |
    ⟨first, second, third, fourth, hform, rfl⟩ := hcomplete.exists_bytes
  · exact .inl (exists_wholeBytes_eq ((ofByte_eq first).1 hform))
  · exact .inr (.inl (exists_sixtyFourthsBytes_eq ((ofByte_eq first).2.1 hform)))
  · exact .inr (.inr (exists_fullBytes_eq ((ofByte_eq first).2.2 hform)))

/-- How many bytes a coordinate has tells what numbers it can stand for. -/
theorem IsComplete.isMultiple_of_length {bytes : Bytes} (hcomplete : IsComplete bytes) :
    bytes.length = 1 ∧ IsMultiple 1 64 (ofBytes bytes) ∨
      bytes.length = 2 ∧ IsMultiple 64 128 (ofBytes bytes) ∨
      bytes.length = 4 ∧ ∃ x : Binary32, ofBytes bytes = ⟨x.bits &&& 0xfffffffc⟩ := by
  obtain ⟨number, hlow, hhigh, rfl⟩ | ⟨number, hlow, hhigh, rfl⟩ | ⟨x, rfl⟩ :=
    hcomplete.exists_form
  · exact .inl ⟨rfl, isMultiple_wholeBytes hlow hhigh⟩
  · exact .inr (.inl ⟨rfl, isMultiple_sixtyFourthsBytes hlow hhigh⟩)
  · exact .inr (.inr ⟨rfl, x, ofBytes_fullBytes x⟩)

/-- A short form has one encoding of a number. -/
theorem IsComplete.eq_of_exactValue?_eq {bytes other : Bytes} (hbytes : IsComplete bytes)
    (hother : IsComplete other) (hlength : bytes.length = other.length) (hshort : bytes.length ≤ 2)
    (hvalue : (ofBytes bytes).exactValue? = (ofBytes other).exactValue?) : bytes = other := by
  obtain ⟨number, hlow, hhigh, rfl⟩ | ⟨number, hlow, hhigh, rfl⟩ | ⟨x, rfl⟩ := hbytes.exists_form
  · obtain ⟨second, hsecondLow, hsecondHigh, rfl⟩ | ⟨second, -, -, rfl⟩ | ⟨y, rfl⟩ :=
      hother.exists_form
    · rw [counts_whole_iff.mp (counts_wholeBytes hlow hhigh),
        counts_whole_iff.mp (counts_wholeBytes hsecondLow hsecondHigh), Option.some_inj,
        EReal.coe_eq_coe_iff, Int.cast_inj] at hvalue
      rw [hvalue]
    · cases hlength
    · cases hlength
  · obtain ⟨second, -, -, rfl⟩ | ⟨second, hsecondLow, hsecondHigh, rfl⟩ | ⟨y, rfl⟩ :=
      hother.exists_form
    · cases hlength
    · rw [counts_sixtyFourths_iff.mp (counts_sixtyFourthsBytes hlow hhigh),
        counts_sixtyFourths_iff.mp (counts_sixtyFourthsBytes hsecondLow hsecondHigh),
        Option.some_inj, EReal.coe_eq_coe_iff, div_left_inj' (by norm_num), Int.cast_inj] at hvalue
      rw [hvalue]
    · cases hlength
  · have hfour : (fullBytes x).length = 4 := rfl
    omega

/-! ## Writing with a precision of zero -/

section ExactEncoding

variable {x : Binary32}

theorem length_encode_zero_of_whole (hwhole : IsMultiple 1 64 x) :
    (encode (Binary32.zero false) x).length = 1 := by
  obtain ⟨number, hlow, hhigh, hx⟩ := hwhole
  have hshortest := isShortestWidth_encode_of_lt hx exactValue?_zero (by norm_num)
  exact hshortest.whole ((isMultiple_iff hx).mp ⟨number, hlow, hhigh, hx⟩)

theorem length_encode_zero_of_sixtyFourths (hsixtyFourths : IsMultiple 64 128 x) :
    (encode (Binary32.zero false) x).length ≤ 2 := by
  obtain ⟨number, hlow, hhigh, hx⟩ := hsixtyFourths
  by_cases hwhole : IsMultiple 1 64 x
  · rw [length_encode_zero_of_whole hwhole]
    exact Nat.le_succ 1
  · have hshortest := isShortestWidth_encode_of_lt hx exactValue?_zero (by norm_num)
    rw [isMultiple_iff hx] at hwhole
    exact (hshortest.sixtyFourths hwhole
      ((isMultiple_iff hx).mp ⟨number, hlow, hhigh, hx⟩)).le

/-- **No encoding of a number is shorter than the one that is written with a precision of zero.** -/
theorem length_encode_zero_le {bytes : Bytes} (hcomplete : IsComplete bytes)
    (hvalue : (ofBytes bytes).exactValue? = x.exactValue?) :
    (encode (Binary32.zero false) x).length ≤ bytes.length := by
  obtain ⟨hlength, hwhole⟩ | ⟨hlength, hsixtyFourths⟩ | ⟨hlength, -⟩ :=
    hcomplete.isMultiple_of_length
  · rw [isMultiple_congr hvalue] at hwhole
    rw [hlength, length_encode_zero_of_whole hwhole]
  · rw [isMultiple_congr hvalue] at hsixtyFourths
    rw [hlength]
    exact length_encode_zero_of_sixtyFourths hsixtyFourths
  · -- Nothing is longer than four bytes.
    have hkeeps := (keeps_decoded (Binary32.zero false) x).length
    dsimp only at hkeeps
    omega

/-- A short form that is written with a precision of zero has just the number. -/
theorem exactValue?_decoded_zero (hshort : (encode (Binary32.zero false) x).length ≤ 2) :
    (decoded (Binary32.zero false) x).exactValue? = x.exactValue? := by
  obtain ⟨first, second, bound, hfirst, hsecond, hbound, hle⟩ :=
    (keeps_decoded (Binary32.zero false) x).within hshort
  rw [exactValue?_zero, Option.some_inj] at hbound
  rw [← hbound, EReal.coe_le_coe_iff, abs_nonpos_iff, sub_eq_zero] at hle
  rw [hfirst, hsecond, hle]

/-- The bits stay as they are in the long form, if the number was read from it. -/
theorem decoded_zero_of_long (hlong : (encode (Binary32.zero false) x).length = 4)
    (hbits : x.bits &&& 0xfffffffc = x.bits) : decoded (Binary32.zero false) x = x := by
  have hread := (keeps_decoded (Binary32.zero false) x).full hlong
  dsimp only at hread
  rw [hbits] at hread
  exact congrArg Binary32.mk hread

end ExactEncoding

/-! ## Reading and writing again -/

/-- The bytes of a coordinate that is read and written again with a precision of zero. -/
def rewritten (bytes : Bytes) : Bytes := encode (Binary32.zero false) (ofBytes bytes)

/-- Reading the bytes of a coordinate and writing it again with a precision of zero keeps the
number, in the least number of bytes. -/
structure RewritesExactly (bytes : Bytes) : Prop where
  isComplete : IsComplete (rewritten bytes)
  length_le : (rewritten bytes).length ≤ bytes.length
  exactValue?_eq : (ofBytes (rewritten bytes)).exactValue? = (ofBytes bytes).exactValue?
  isNaN_eq : (ofBytes (rewritten bytes)).isNaN = (ofBytes bytes).isNaN
  shortest : ∀ other, IsComplete other →
    (ofBytes other).exactValue? = (ofBytes bytes).exactValue? →
      (rewritten bytes).length ≤ other.length
  again : rewritten (rewritten bytes) = rewritten bytes

section Rewriting

variable {bytes : Bytes}

theorem isComplete_rewritten (bytes : Bytes) : IsComplete (rewritten bytes) :=
  isComplete_encode (Binary32.zero false) (ofBytes bytes)

/-- What is written again in the long form was read from it, and its bits stay as they are. -/
theorem ofBytes_rewritten_of_long (hcomplete : IsComplete bytes)
    (hlong : (rewritten bytes).length = 4) : ofBytes (rewritten bytes) = ofBytes bytes := by
  have hle : (rewritten bytes).length ≤ bytes.length := length_encode_zero_le hcomplete rfl
  obtain ⟨hlength, -⟩ | ⟨hlength, -⟩ | ⟨-, x, hbits⟩ := hcomplete.isMultiple_of_length
  · omega
  · omega
  · -- The low bits that writing clears are clear in a number that was read.
    refine decoded_zero_of_long hlong ?_
    rw [hbits, UInt32.and_assoc, UInt32.and_self]

theorem length_rewritten (bytes : Bytes) :
    (rewritten bytes).length ≤ 2 ∨ (rewritten bytes).length = 4 := by
  have hlength := (keeps_decoded (Binary32.zero false) (ofBytes bytes)).length
  dsimp only at hlength
  unfold rewritten
  omega

theorem exactValue?_rewritten (hcomplete : IsComplete bytes) :
    (ofBytes (rewritten bytes)).exactValue? = (ofBytes bytes).exactValue? := by
  rcases length_rewritten bytes with hshort | hlong
  · exact exactValue?_decoded_zero hshort
  · rw [ofBytes_rewritten_of_long hcomplete hlong]

/-- The bytes that are written again have no shorter encoding of their number, and only one that is
as short. -/
theorem rewritten_rewritten (hcomplete : IsComplete bytes) :
    rewritten (rewritten bytes) = rewritten bytes := by
  have hfirst := isComplete_rewritten bytes
  have hsecond := isComplete_rewritten (rewritten bytes)
  rcases length_rewritten bytes with hshort | hlong
  · have hagain := exactValue?_rewritten hfirst
    have hvalue : (ofBytes (rewritten (rewritten bytes))).exactValue? =
        (ofBytes bytes).exactValue? :=
      hagain.trans (exactValue?_rewritten hcomplete)
    -- Each of the two is an encoding of the number that the other one was made from.
    have hle : (rewritten (rewritten bytes)).length ≤ (rewritten bytes).length :=
      length_encode_zero_le hfirst rfl
    have hge : (rewritten bytes).length ≤ (rewritten (rewritten bytes)).length :=
      length_encode_zero_le hsecond hvalue
    exact hsecond.eq_of_exactValue?_eq hfirst (le_antisymm hle hge) (hle.trans hshort) hagain
  · have hsame := ofBytes_rewritten_of_long hcomplete hlong
    exact congrArg (encode (Binary32.zero false)) hsame

/-- **Reading a coordinate and writing it again with a precision of zero keeps its number, takes the
least number of bytes, and leaves nothing to be changed by writing it once more.** -/
theorem rewritesExactly (hcomplete : IsComplete bytes) : RewritesExactly bytes where
  isComplete := isComplete_rewritten bytes
  length_le := length_encode_zero_le hcomplete rfl
  exactValue?_eq := exactValue?_rewritten hcomplete
  isNaN_eq := by
    rw [Bool.eq_iff_iff, ← exactValue?_eq_none_iff, ← exactValue?_eq_none_iff,
      exactValue?_rewritten hcomplete]
  shortest := by
    intro other hother hvalue
    exact length_encode_zero_le hother hvalue
  again := rewritten_rewritten hcomplete

end Rewriting

/-- The negative zero in four bytes becomes a zero in one. -/
theorem rewritesExactly_negative_zero :
    IsComplete [0x00, 0x00, 0x00, 0x80] ∧ rewritten [0x00, 0x00, 0x00, 0x80] = [0x81] ∧
      RewritesExactly [0x00, 0x00, 0x00, 0x80] :=
  ⟨rfl, by decide +kernel, rewritesExactly rfl⟩

end Coordinate
end VectorIcons
