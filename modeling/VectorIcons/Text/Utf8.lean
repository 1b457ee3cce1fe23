import VectorIcons.Bytes

/-!
# Text as bytes

Names are stored as UTF-8.  `ofUtf8?` accepts exactly the bytes that some text
has, and gives that text.  `ofUtf8Lossy` shows any bytes at all: each longest
piece that begins like a character but does not become one, and each byte that
begins none, is shown as the replacement character.
-/

namespace VectorIcons
namespace Text

/-! ## Exact -/

def utf8Bytes (text : String) : Bytes := text.toUTF8.data.toList

def ofUtf8? (bytes : Bytes) : Option String := String.fromUTF8? bytes.toByteArray

private theorem toByteArray_utf8Bytes (text : String) :
    (utf8Bytes text).toByteArray = text.toByteArray := by
  apply ByteArray.ext
  apply Array.toList_inj.mp
  rw [List.toList_data_toByteArray]
  rfl

@[simp] theorem ofUtf8?_utf8Bytes (text : String) : ofUtf8? (utf8Bytes text) = some text := by
  unfold ofUtf8? String.fromUTF8?
  rw [toByteArray_utf8Bytes, dif_pos text.isValidUTF8]
  rfl

theorem ofUtf8?_eq_some_iff {bytes : Bytes} {text : String} :
    ofUtf8? bytes = some text ↔ bytes = utf8Bytes text := by
  constructor
  · intro hdecoded
    unfold ofUtf8? String.fromUTF8? at hdecoded
    split at hdecoded
    · rw [← Option.some.inj hdecoded]
      exact List.toList_data_toByteArray.symm
    · exact absurd hdecoded (by simp)
  · rintro rfl
    exact ofUtf8?_utf8Bytes text

/-! ## Lossy -/

/-- What has been seen of a character that is not complete: the value of its bits
so far, how many bytes it still needs, and the bounds of the next one. -/
structure PartialChar where
  value : Nat
  needed : Nat
  lower : Nat
  upper : Nat

/-- What a byte begins: a whole character, the first part of a longer one, or
nothing. -/
inductive LeadByte where
  | complete (c : Char)
  | incomplete (start : PartialChar)
  | invalid

/-- What `byte` begins.  The bounds leave out longer spellings of a character,
surrogates, and values past the last character. -/
def leadByte (byte : UInt8) : LeadByte :=
  let b := byte.toNat
  if b < 0x80 then .complete (Char.ofNat b)
  else if b < 0xc2 then .invalid
  else if b < 0xe0 then .incomplete ⟨b % 0x20, 1, 0x80, 0xbf⟩
  else if b < 0xf0 then
    .incomplete ⟨b % 0x10, 2, if b = 0xe0 then 0xa0 else 0x80, if b = 0xed then 0x9f else 0xbf⟩
  else if b < 0xf5 then
    .incomplete ⟨b % 0x08, 3, if b = 0xf0 then 0x90 else 0x80, if b = 0xf4 then 0x8f else 0xbf⟩
  else .invalid

/-- The character that stands for bytes that are none. -/
def replacement : Char := Char.ofNat 0xfffd

/-- The characters of `bytes` when `pending` has been seen before them. -/
private def lossyChars : Option PartialChar → Bytes → List Char
  | none, [] => []
  | some _, [] => [replacement]
  | none, byte :: rest =>
      match leadByte byte with
      | .complete c => c :: lossyChars none rest
      | .incomplete start => lossyChars (some start) rest
      | .invalid => replacement :: lossyChars none rest
  | some pending, byte :: rest =>
      if pending.lower ≤ byte.toNat ∧ byte.toNat ≤ pending.upper then
        let value := pending.value * 0x40 + byte.toNat % 0x40
        if pending.needed = 1 then Char.ofNat value :: lossyChars none rest
        else lossyChars (some ⟨value, pending.needed - 1, 0x80, 0xbf⟩) rest
      else
        match leadByte byte with
        | .complete c => replacement :: c :: lossyChars none rest
        | .incomplete start => replacement :: lossyChars (some start) rest
        | .invalid => replacement :: replacement :: lossyChars none rest

/-- The text of `bytes`, with a replacement character for each part that is not
UTF-8. -/
def ofUtf8Lossy (bytes : Bytes) : String := String.ofList (lossyChars none bytes)

end Text
end VectorIcons
