import VectorIcons.Proofs.Pack.PassedOver

/-!
# Loads that begin anywhere in a stream

A load begins where its stream stands.  That may be behind the front of its bytes and even behind
their end, and what stands before it is never looked at: a load from a position gives what the
bytes from there on give when they are read whole, `result_load_skip`.

Positions and the end are counted from the front of all bytes, so the two loads compare different
numbers where a section is passed over.  Within the bytes they come to the same answer,
`position_add_le_ending_iff`, and what is left of the stream gives the same as a stream of its own.
Behind the end they would not: nothing ends there at the end or before, not even no bytes.  But such
a load finds no header.
-/

namespace VectorIcons

open ByteStream

/-! ## Within the bytes -/

theorem ByteStream.sameContent_atFront_skip {bytes : Bytes} {start : Nat}
    (hstart : start ≤ bytes.length) (deliveries : Nat → Delivery) :
    SameContent ((atFront bytes none deliveries).skip start) (.ofBytes (bytes.drop start)) :=
  sameContent_ofBytes (inside_skip_iff.mpr ⟨inside_atFront _ _ _, hstart⟩) rfl

/-! ## Behind the end -/

/-- Behind the end, a stream has nothing available. -/
theorem ByteStream.available_of_not_inside {stream : ByteStream} (houtside : ¬ stream.Inside) :
    stream.available = 0 :=
  Nat.eq_zero_of_not_pos (mt inside_of_available_pos houtside)

/-! ## Loads from a position -/

namespace Pack

/-- A load that begins behind the end fails as that of no bytes does. -/
theorem result_load_of_not_inside {stream : ByteStream} (houtside : ¬ stream.Inside) :
    (load stream).result = (ofBytes []).result := by
  have hnone := available_of_not_inside houtside
  rw [ofBytes, result_load_of_available_lt (by omega), result_load_of_available_lt]
  exact Nat.zero_lt_succ 7

/-- **A load does not depend on how its stream delivers the bytes, nor on what stands before
the position where it begins**, which may be behind the end. -/
theorem result_load_skip (bytes : Bytes) (start : Nat) (deliveries : Nat → Delivery) :
    (load ((atFront bytes none deliveries).skip start)).result =
      (ofBytes (bytes.drop start)).result := by
  by_cases hstart : start ≤ bytes.length
  · exact result_load_congr (sameContent_atFront_skip hstart deliveries)
  · have houtside : ¬ ((atFront bytes none deliveries).skip start).Inside := by
      intro hinside
      exact hstart (inside_skip_iff.mp hinside).2
    rw [result_load_of_not_inside houtside, List.drop_of_length_le (Nat.le_of_not_le hstart)]

end Pack
end VectorIcons
