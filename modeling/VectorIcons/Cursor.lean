import VectorIcons.Bytes

/-!
# Reading a byte string from front to back

A cursor stands at a position of a byte string.  Reading past the end gives zero
bytes and does not move the cursor, so every read is total: a program that was
cut short is read as if zeros followed it.

`Reaches` relates a cursor to one further on in the same bytes.  Every read ends
at a cursor that is reached from the one where it began.
-/

namespace VectorIcons

/-- A place in a byte string: how many bytes lie before it, and the bytes from
there on. -/
structure Cursor where
  position : Nat
  rest : Bytes
deriving DecidableEq, Repr

/-- A value with the bytes it was read from. -/
structure Spelled (α : Type) where
  bytes : Bytes
  value : α
deriving DecidableEq, Repr

namespace Cursor

def start (bytes : Bytes) : Cursor := ⟨0, bytes⟩

def atEnd (cursor : Cursor) : Bool := cursor.rest.isEmpty

/-- The next byte, zero at the end. -/
def byte (cursor : Cursor) : UInt8 × Cursor :=
  match cursor.rest with
  | [] => (0, cursor)
  | first :: rest => (first, ⟨cursor.position + 1, rest⟩)

/-- The place `count` bytes further on, or the end if that comes first. -/
def skip (cursor : Cursor) (count : Nat) : Cursor :=
  ⟨cursor.position + (cursor.rest.take count).length, cursor.rest.drop count⟩

/-! ## Repeated reads -/

/-- The values of `count` further reads, after those in `earlier`, whose last one
comes first. -/
private def repeatedAfter {α : Type} (read : Cursor → α × Cursor) :
    Nat → List α → Cursor → List α × Cursor
  | 0, earlier, cursor => (earlier.reverse, cursor)
  | count + 1, earlier, cursor =>
      repeatedAfter read count ((read cursor).1 :: earlier) (read cursor).2

/-- The values of `count` reads, in order. -/
def repeated {α : Type} (read : Cursor → α × Cursor) (count : Nat) (cursor : Cursor) :
    List α × Cursor :=
  repeatedAfter read count [] cursor

private theorem repeatedAfter_eq {α : Type} (read : Cursor → α × Cursor) (count : Nat) :
    ∀ (earlier : List α) (cursor : Cursor),
      repeatedAfter read count earlier cursor =
        (earlier.reverse ++ (repeatedAfter read count [] cursor).1,
          (repeatedAfter read count [] cursor).2) := by
  induction count with
  | zero => intro earlier cursor; simp [repeatedAfter]
  | succ count ih =>
      intro earlier cursor
      simp only [repeatedAfter]
      rw [ih ((read cursor).1 :: earlier), ih [(read cursor).1]]
      simp

@[simp] theorem repeated_zero {α : Type} (read : Cursor → α × Cursor) (cursor : Cursor) :
    repeated read 0 cursor = ([], cursor) := rfl

/-- Repeating a read once more puts its first value in front. -/
theorem repeated_succ {α : Type} (read : Cursor → α × Cursor) (count : Nat) (cursor : Cursor) :
    repeated read (count + 1) cursor =
      ((read cursor).1 :: (repeated read count (read cursor).2).1,
        (repeated read count (read cursor).2).2) := by
  simp only [repeated, repeatedAfter]
  rw [repeatedAfter_eq]
  simp

/-! ## The bytes of a read -/

/-- The bytes between a cursor and a later one. -/
def bytesUntil (cursor later : Cursor) : Bytes :=
  cursor.rest.take (later.position - cursor.position)

/-- What `read` gives, with the bytes it took. -/
def spelled {α : Type} (read : Cursor → α × Cursor) (cursor : Cursor) : Spelled α × Cursor :=
  let (value, later) := read cursor
  (⟨cursor.bytesUntil later, value⟩, later)

/-! ## Moving forward -/

/-- `later` stands in the same bytes as `cursor`, at the same place or further
on. -/
def Reaches (cursor later : Cursor) : Prop :=
  ∃ taken : Bytes,
    cursor.rest = taken ++ later.rest ∧ later.position = cursor.position + taken.length

namespace Reaches

theorem refl (cursor : Cursor) : Reaches cursor cursor := ⟨[], rfl, rfl⟩

theorem trans {first second third : Cursor} (hfirst : Reaches first second)
    (hsecond : Reaches second third) : Reaches first third := by
  obtain ⟨taken, hrest, hposition⟩ := hfirst
  obtain ⟨more, hmoreRest, hmorePosition⟩ := hsecond
  refine ⟨taken ++ more, ?_, ?_⟩
  · rw [hrest, hmoreRest, List.append_assoc]
  · rw [hmorePosition, hposition, List.length_append, Nat.add_assoc]

theorem length_le {cursor later : Cursor} (hreaches : Reaches cursor later) :
    later.rest.length ≤ cursor.rest.length := by
  obtain ⟨taken, hrest, _⟩ := hreaches
  rw [hrest, List.length_append]
  exact Nat.le_add_left _ _

/-- No cursor gets past the end. -/
theorem position_add_length_rest {cursor later : Cursor} (hreaches : Reaches cursor later) :
    later.position + later.rest.length = cursor.position + cursor.rest.length := by
  obtain ⟨taken, hrest, hposition⟩ := hreaches
  rw [hrest, hposition, List.length_append, Nat.add_assoc]

theorem position_le {cursor later : Cursor} (hreaches : Reaches cursor later) :
    cursor.position ≤ later.position := by
  obtain ⟨taken, -, hposition⟩ := hreaches
  rw [hposition]
  exact Nat.le_add_right _ _

theorem position_le_length {bytes : Bytes} {later : Cursor}
    (hreaches : Reaches (start bytes) later) : later.position ≤ bytes.length := by
  have hlength := hreaches.position_add_length_rest
  dsimp only [start] at hlength
  omega

/-- The bytes between two cursors, followed by those after the later one, are
those after the earlier one. -/
theorem bytesUntil_append {cursor later : Cursor} (hreaches : Reaches cursor later) :
    cursor.bytesUntil later ++ later.rest = cursor.rest := by
  obtain ⟨taken, hrest, hposition⟩ := hreaches
  rw [bytesUntil, hposition, Nat.add_sub_cancel_left, hrest, List.take_left]

end Reaches

theorem reaches_byte (cursor : Cursor) : Reaches cursor cursor.byte.2 := by
  obtain ⟨position, rest⟩ := cursor
  cases rest with
  | nil => exact Reaches.refl _
  | cons first rest => exact ⟨[first], rfl, rfl⟩

/-- A read before the end takes at least the next byte. -/
theorem length_byte_lt {cursor : Cursor} (hnonempty : cursor.rest ≠ []) :
    cursor.byte.2.rest.length < cursor.rest.length := by
  obtain ⟨position, rest⟩ := cursor
  cases rest with
  | nil => exact absurd rfl hnonempty
  | cons first rest => exact Nat.lt_succ_self _

theorem reaches_skip (cursor : Cursor) (count : Nat) : Reaches cursor (cursor.skip count) :=
  ⟨cursor.rest.take count, (List.take_append_drop count _).symm, rfl⟩

theorem reaches_spelled {α : Type} {read : Cursor → α × Cursor} {cursor : Cursor}
    (hread : Reaches cursor (read cursor).2) : Reaches cursor (spelled read cursor).2 := hread

theorem reaches_repeated {α : Type} {read : Cursor → α × Cursor}
    (hread : ∀ cursor, Reaches cursor (read cursor).2) (count : Nat) :
    ∀ cursor, Reaches cursor (repeated read count cursor).2 := by
  induction count with
  | zero => exact fun cursor => Reaches.refl cursor
  | succ count ih =>
      intro cursor
      rw [repeated_succ]
      exact (hread cursor).trans (ih _)

end Cursor
end VectorIcons
