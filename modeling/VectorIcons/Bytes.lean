/-!
# Byte strings and little-endian words

Programs and packs are byte strings.  Their words are written with the least
significant byte first; `word16_littleEndian16` and `word32_littleEndian32` say
that a word is read back from its bytes, `littleEndian16_word16` and
`littleEndian32_word32` that the bytes of a word are those it was read from.
-/

namespace VectorIcons

abbrev Bytes := List UInt8

/-- The number that bytes stand for, the lowest one first. -/
def littleEndianValue (bytes : Bytes) : Nat :=
  bytes.foldr (fun byte value => byte.toNat + 0x100 * value) 0

/-! ## Words of one byte -/

def word8 (bytes : Bytes) : UInt8 := UInt8.ofNat (littleEndianValue bytes)

@[simp] theorem word8_singleton (byte : UInt8) : word8 [byte] = byte := by
  apply UInt8.toNat_inj.mp
  have hbound := byte.toNat_lt
  simp only [word8, littleEndianValue, List.foldr_cons, List.foldr_nil, UInt8.toNat_ofNat']
  omega

/-! ## Words of two bytes -/

/-- The bytes of a 16-bit word, the low one first. -/
def littleEndian16 (word : UInt16) : Bytes :=
  [UInt8.ofNat word.toNat, UInt8.ofNat (word.toNat / 0x100)]

def word16 (bytes : Bytes) : UInt16 := UInt16.ofNat (littleEndianValue bytes)

@[simp] theorem length_littleEndian16 (word : UInt16) : (littleEndian16 word).length = 2 := rfl

theorem word16_littleEndian16 (word : UInt16) : word16 (littleEndian16 word) = word := by
  apply UInt16.toNat_inj.mp
  have hbound := word.toNat_lt
  simp only [word16, littleEndianValue, littleEndian16, List.foldr_cons, List.foldr_nil,
    UInt16.toNat_ofNat', UInt8.toNat_ofNat']
  omega

theorem littleEndian16_word16 (low high : UInt8) :
    littleEndian16 (word16 [low, high]) = [low, high] := by
  have hlow := low.toNat_lt
  have hhigh := high.toNat_lt
  simp only [littleEndian16, word16, littleEndianValue, List.foldr_cons, List.foldr_nil,
    List.cons.injEq, and_true, ← UInt8.toNat_inj, UInt16.toNat_ofNat', UInt8.toNat_ofNat']
  omega

/-! ## Words of four bytes -/

/-- The bytes of a 32-bit word, the low one first. -/
def littleEndian32 (word : UInt32) : Bytes :=
  [UInt8.ofNat word.toNat, UInt8.ofNat (word.toNat / 0x100),
    UInt8.ofNat (word.toNat / 0x10000), UInt8.ofNat (word.toNat / 0x1000000)]

def word32 (bytes : Bytes) : UInt32 := UInt32.ofNat (littleEndianValue bytes)

@[simp] theorem length_littleEndian32 (word : UInt32) : (littleEndian32 word).length = 4 := rfl

theorem word32_littleEndian32 (word : UInt32) : word32 (littleEndian32 word) = word := by
  apply UInt32.toNat_inj.mp
  have hbound := word.toNat_lt
  simp only [word32, littleEndianValue, littleEndian32, List.foldr_cons, List.foldr_nil,
    UInt32.toNat_ofNat', UInt8.toNat_ofNat']
  omega

theorem littleEndian32_word32 (first second third fourth : UInt8) :
    littleEndian32 (word32 [first, second, third, fourth]) = [first, second, third, fourth] := by
  have hfirst := first.toNat_lt
  have hsecond := second.toNat_lt
  have hthird := third.toNat_lt
  have hfourth := fourth.toNat_lt
  simp only [littleEndian32, word32, littleEndianValue, List.foldr_cons, List.foldr_nil,
    List.cons.injEq, and_true, ← UInt8.toNat_inj, UInt32.toNat_ofNat', UInt8.toNat_ofNat']
  omega

end VectorIcons
