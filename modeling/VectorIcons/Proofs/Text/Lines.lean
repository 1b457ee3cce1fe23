import VectorIcons.Binary32.FixedPlaces
import VectorIcons.Text.Columns
import VectorIcons.Text.Hex

/-!
# Lines of text

A text that was written line by line, with a line break behind each, is taken apart into the same
lines again if none of them has a line break in itself: `lines_join`.

Digits and blanks are no line breaks, so numbers, rows of bytes and columns are `OneLine`.
-/

namespace VectorIcons
namespace Text

/-- A text without a line break. -/
def OneLine (text : String) : Prop := '\n' ∉ text.toList

instance (text : String) : Decidable (OneLine text) :=
  inferInstanceAs (Decidable ('\n' ∉ text.toList))

/-- The lines of a text.  What follows the last line break is a line too, unless nothing does. -/
def lines (text : String) : List String :=
  let pieces := text.toList.splitOn '\n'
  (if pieces.getLast? = some [] then pieces.dropLast else pieces).map String.ofList

/-! ## Taking a text apart -/

theorem splitOn_join {texts : List String} (htexts : ∀ text ∈ texts, OneLine text) :
    (String.join (texts.map (· ++ "\n"))).toList.splitOn '\n' =
      texts.map String.toList ++ [[]] := by
  induction texts with
  | nil => rfl
  | cons text texts ih =>
      obtain ⟨htext, hothers⟩ := List.forall_mem_cons.mp htexts
      have hbreak : "\n".toList = ['\n'] := rfl
      rw [List.map_cons, String.join_cons, String.toList_append, String.toList_append, hbreak,
        List.append_assoc, List.singleton_append, List.splitOn_append_cons_self_of_not_mem htext,
        ih hothers, List.map_cons, List.cons_append]

/-- **Lines that are written one after another are read off again.** -/
theorem lines_join {texts : List String} (htexts : ∀ text ∈ texts, OneLine text) :
    lines (String.join (texts.map (· ++ "\n"))) = texts := by
  unfold lines
  rw [splitOn_join htexts]
  dsimp only
  rw [if_pos List.getLast?_concat, List.dropLast_concat, List.map_map]
  exact List.map_id'' (fun text => String.ofList_toList) texts

/-! ## Texts of one line -/

theorem OneLine.append {first second : String} (hfirst : OneLine first) (hsecond : OneLine second) :
    OneLine (first ++ second) := by
  unfold OneLine
  rw [String.toList_append, List.mem_append]
  exact not_or.mpr ⟨hfirst, hsecond⟩

theorem oneLine_replicate {character : Char} (hne : '\n' ≠ character) (count : Nat) :
    OneLine (String.ofList (List.replicate count character)) := by
  unfold OneLine
  rw [String.toList_ofList]
  intro hmem
  exact hne (List.eq_of_mem_replicate hmem)

theorem oneLine_intercalate {separator : String} (hseparator : OneLine separator)
    {texts : List String} (htexts : ∀ text ∈ texts, OneLine text) :
    OneLine (separator.intercalate texts) := by
  induction texts with
  | nil => exact List.not_mem_nil
  | cons text texts ih =>
      obtain ⟨htext, hothers⟩ := List.forall_mem_cons.mp htexts
      cases texts with
      | nil => exact htext
      | cons other others =>
          rw [String.intercalate_cons_cons]
          exact (htext.append hseparator).append (ih hothers)

theorem oneLine_repr (n : Nat) : OneLine (Nat.repr n) := by
  unfold OneLine Nat.repr
  rw [String.toList_ofList]
  intro hmem
  exact absurd (Nat.isDigit_of_mem_toDigits (by decide) (by decide) hmem) (by decide)

/-! ## Bytes and numbers -/

theorem oneLine_hexByte (byte : UInt8) : OneLine (hexByte byte) := by
  have hdigits : ∀ digit : Fin 16, '\n' ≠ hexDigit digit.val := by decide
  have hbyte := byte.toNat_lt
  have hhigh : '\n' ≠ hexDigit (byte.toNat / 16) := hdigits ⟨byte.toNat / 16, by omega⟩
  have hlow : '\n' ≠ hexDigit (byte.toNat % 16) := hdigits ⟨byte.toNat % 16, by omega⟩
  unfold OneLine hexByte
  rw [String.toList_ofList, List.mem_cons, List.mem_singleton]
  exact not_or.mpr ⟨hhigh, hlow⟩

theorem oneLine_hexRow {separator : String} (hseparator : OneLine separator) (bytes : Bytes) :
    OneLine (hexRow separator bytes) :=
  oneLine_intercalate hseparator (List.forall_mem_map.mpr fun byte _ => oneLine_hexByte byte)

theorem OneLine.leftAligned {text : String} (htext : OneLine text) (width : Nat) :
    OneLine (leftAligned width text) :=
  htext.append (oneLine_replicate (by decide) _)

theorem OneLine.rightAligned {text : String} (htext : OneLine text) (width : Nat) :
    OneLine (rightAligned width text) :=
  (oneLine_replicate (by decide) _).append htext

theorem oneLine_fixedPlaces (places : Nat) (x : Binary32) : OneLine (x.fixedPlaces places) := by
  have hsign : ∀ negative : Bool, OneLine (if negative then "-" else "") := by decide
  have hpoint : OneLine "." := by decide
  unfold Binary32.fixedPlaces
  split
  · exact (by decide : OneLine "NaN")
  · exact (hsign _).append (by decide)
  · rename_i negative amount _
    have hwhole (count : Nat) := (hsign negative).append (oneLine_repr count)
    have hdecimals (zeros count : Nat) :=
      (oneLine_replicate (show '\n' ≠ '0' by decide) zeros).append (oneLine_repr count)
    exact ((hwhole _).append hpoint).append (hdecimals _ _)

end Text
end VectorIcons
