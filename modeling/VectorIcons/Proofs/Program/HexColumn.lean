import VectorIcons.Program.Listing

/-!
# The hexadecimal column of a listing

The first twenty-four columns of a line show bytes of the program, and they can be read
off again from the text: `hexColumn_text`.  A byte takes two digits and a blank, so eight
bytes fill the column, and no line has more.
-/

namespace VectorIcons

/-! ## Rows of bytes -/

namespace Text

/-- The value of a hexadecimal digit. -/
def digitValue? (digit : Char) : Option Nat :=
  if '0' ≤ digit ∧ digit ≤ '9' then some (digit.toNat - '0'.toNat)
  else if 'a' ≤ digit ∧ digit ≤ 'f' then some (digit.toNat - 'a'.toNat + 10)
  else none

/-- The byte of two digits. -/
def byteOfDigits? (high low : Char) : Option UInt8 :=
  match digitValue? high, digitValue? low with
  | some highValue, some lowValue => some (UInt8.ofNat (16 * highValue + lowValue))
  | _, _ => none

/-- The bytes that two digits stand for in each group of three columns, up to the first group
without digits. -/
def bytesOfColumns : List Char → Bytes
  | [high, low] => (byteOfDigits? high low).toList
  | high :: low :: _ :: columns =>
      match byteOfDigits? high low with
      | some byte => byte :: bytesOfColumns columns
      | none => []
  | _ => []

theorem digitValue?_hexDigit {value : Nat} (hvalue : value < 16) :
    digitValue? (hexDigit value) = some value := by
  have hall : ∀ digit : Fin 16, digitValue? (hexDigit digit.val) = some digit.val := by decide
  exact hall ⟨value, hvalue⟩

theorem byteOfDigits?_hexDigit (byte : UInt8) :
    byteOfDigits? (hexDigit (byte.toNat / 16)) (hexDigit (byte.toNat % 16)) = some byte := by
  have hbyte := byte.toNat_lt
  unfold byteOfDigits?
  rw [digitValue?_hexDigit (by omega), digitValue?_hexDigit (by omega)]
  dsimp only
  rw [Nat.div_add_mod, UInt8.ofNat_toNat]

theorem bytesOfColumns_replicate (count : Nat) :
    bytesOfColumns (List.replicate count ' ') = [] := by
  match count with
  | 0 | 1 | 2 => rfl
  | count + 3 => rfl

theorem toList_hexRow_cons (byte : UInt8) (bytes : Bytes) :
    (hexRow " " (byte :: bytes)).toList =
      hexDigit (byte.toNat / 16) :: hexDigit (byte.toNat % 16) ::
        (if bytes = [] then [] else ' ' :: (hexRow " " bytes).toList) := by
  unfold hexRow
  cases bytes with
  | nil => simp [hexByte]
  | cons other others => simp [hexByte, String.intercalate_cons_cons]

/-- A row of bytes is read off again, with any number of blanks behind it. -/
theorem bytesOfColumns_hexRow (bytes : Bytes) (count : Nat) :
    bytesOfColumns ((hexRow " " bytes).toList ++ List.replicate count ' ') = bytes := by
  induction bytes generalizing count with
  | nil => exact bytesOfColumns_replicate count
  | cons byte bytes ih =>
      rw [toList_hexRow_cons]
      by_cases hbytes : bytes = []
      · rw [if_pos hbytes, hbytes]
        cases count with
        | zero => simp [bytesOfColumns, byteOfDigits?_hexDigit]
        | succ count =>
            simp [List.replicate_succ, bytesOfColumns, byteOfDigits?_hexDigit,
              bytesOfColumns_replicate]
      · rw [if_neg hbytes]
        simp only [List.cons_append, bytesOfColumns, byteOfDigits?_hexDigit, ih]

theorem length_hexRow_le (bytes : Bytes) : (hexRow " " bytes).toList.length ≤ 3 * bytes.length := by
  induction bytes with
  | nil => exact Nat.le_refl 0
  | cons byte bytes ih =>
      rw [toList_hexRow_cons]
      split <;> simp only [List.length_cons, List.length_nil] <;> omega

end Text

/-! ## Lines -/

/-- The bytes in the first twenty-four columns of a line. -/
def hexColumn (text : String) : Bytes := Text.bytesOfColumns (text.toList.take 24)

theorem hexColumn_bytesColumn {bytes : Bytes} (hlength : bytes.length ≤ 8) (meaning : String) :
    hexColumn (bytesColumn bytes ++ meaning) = bytes := by
  have hrow := Text.length_hexRow_le bytes
  unfold hexColumn bytesColumn Text.leftAligned Text.blanks
  rw [String.toList_append, String.toList_append, String.toList_ofList, List.take_left']
  · exact Text.bytesOfColumns_hexRow bytes _
  · rw [List.length_append, List.length_replicate, ← String.length_toList]
    omega

theorem hexColumn_hexRow {bytes : Bytes} (hlength : bytes.length ≤ 8) :
    hexColumn (Text.hexRow " " bytes) = bytes := by
  have hrow := Text.length_hexRow_le bytes
  have hread := Text.bytesOfColumns_hexRow bytes 0
  rw [List.replicate_zero, List.append_nil] at hread
  unfold hexColumn
  rw [List.take_of_length_le (by omega), hread]

/-- The slice that a line shows, if it is not the heading. -/
def ListingLine.slice? {program : Bytes} : ListingLine program → Option (Slice program)
  | .viewBoxHeading => none
  | .point slice _ | .opcode slice _ | .raw slice => some slice

theorem hexColumn_text {program : Bytes} {line : ListingLine program} {slice : Slice program}
    (hslice : line.slice? = some slice) (hlength : slice.bytes.length ≤ 8) :
    hexColumn line.text = slice.bytes := by
  cases line with
  | viewBoxHeading => cases hslice
  | point _ shown =>
      cases hslice
      simp only [ListingLine.text, String.append_assoc]
      exact hexColumn_bytesColumn hlength _
  | opcode _ mnemonic =>
      cases hslice
      simp only [ListingLine.text, String.append_assoc]
      exact hexColumn_bytesColumn hlength _
  | raw _ =>
      cases hslice
      exact hexColumn_hexRow hlength

/-! ## How many bytes a line shows -/

namespace Cursor

theorem position_byte_le (cursor : Cursor) : cursor.byte.2.position ≤ cursor.position + 1 := by
  unfold byte
  split <;> simp

theorem position_coordinate_le (cursor : Cursor) :
    cursor.coordinate.2.position ≤ cursor.position + 4 := by
  have hfirst := position_byte_le cursor
  have hsecond := position_byte_le cursor.byte.2
  have hthird := position_byte_le cursor.byte.2.byte.2
  have hfourth := position_byte_le cursor.byte.2.byte.2.byte.2
  unfold coordinate
  split
  · exact Nat.le_add_right _ _
  · dsimp only
    split <;> dsimp only <;> omega

theorem position_point_le (cursor : Cursor) : cursor.point.2.position ≤ cursor.position + 8 := by
  have hx := position_coordinate_le cursor
  have hy := position_coordinate_le cursor.coordinate.2
  change cursor.coordinate.2.coordinate.2.position ≤ _
  omega

theorem position_color_le (cursor : Cursor) : cursor.color.2.position ≤ cursor.position + 4 := by
  have hred := position_byte_le cursor
  have hgreen := position_byte_le cursor.byte.2
  have hblue := position_byte_le cursor.byte.2.byte.2
  have halpha := position_byte_le cursor.byte.2.byte.2.byte.2
  change cursor.byte.2.byte.2.byte.2.byte.2.position ≤ _
  omega

theorem position_mnemonic_le (cursor : Cursor) :
    cursor.mnemonic.2.position ≤ cursor.position + 5 := by
  have hopcode := position_byte_le cursor
  have hindex := position_byte_le cursor.byte.2
  have hcolor := position_color_le cursor.byte.2
  unfold mnemonic
  dsimp only
  repeat' split
  all_goals
    dsimp only
    omega

theorem position_skip_le (cursor : Cursor) (count : Nat) :
    (cursor.skip count).position ≤ cursor.position + count :=
  Nat.add_le_add_left (List.length_take_le _ _) _

end Cursor
end VectorIcons
