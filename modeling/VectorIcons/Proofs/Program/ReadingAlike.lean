import VectorIcons.Program.Instruction

/-!
# Two programs that are read alike

Cursors in two programs read the same values as long as the bytes before them are the same, or
at least are read the same.  A relation of cursors that is kept by the smallest reads, of a byte and
of a coordinate at the end, is kept by all reads up to a whole instruction: `Tracks.instruction`.

Only what one side does may end this.  The first cursor may get past a place behind which the two
programs have nothing in common, and then nothing is said any more.

There are two such relations.

* `SharesFront`: the programs are the same up to a place, and the place is where they part.  So a
  point is read in the same way where nothing stands behind it (`point_bytesUntil`).
* `FilledUp`: where the first program ends, the second one goes on with zeros.
-/

namespace VectorIcons

/-- Two instructions that do the same, though their operands may be spelled in different bytes. -/
structure Instruction.Alike (first second : Instruction) : Prop where
  offset_eq : first.offset = second.offset
  operation_eq : first.operation.value = second.operation.value
  points_eq : first.points.map Spelled.value = second.points.map Spelled.value

namespace Cursor

/-! ## Relations that reads keep -/

/-- Related cursors read the same bytes, unless the first one gets past a place. -/
structure Tracks (Alike : Cursor → Cursor → Prop) (Past : Cursor → Prop) : Prop where
  byte : ∀ {cursor other}, Alike cursor other →
    Past cursor.byte.2 ∨ cursor.byte.1 = other.byte.1 ∧ Alike cursor.byte.2 other.byte.2
  /-- Before the end of the first program, the second one has not ended either. -/
  more : ∀ {cursor other}, Alike cursor other → cursor.rest ≠ [] →
    Past cursor.byte.2 ∨ other.rest ≠ []
  coordinate_end : ∀ {cursor other}, Alike cursor other → cursor.rest = [] →
    other.coordinate.1 = Binary32.zero false ∧ Alike cursor other.coordinate.2
  past : ∀ {cursor later}, Reaches cursor later → Past cursor → Past later

/-- A read that gives the same value from related cursors and leaves them related. -/
structure ReadsAlike (Alike : Cursor → Cursor → Prop) (Past : Cursor → Prop) {α : Type}
    (read : Cursor → α × Cursor) : Prop where
  reaches : ∀ cursor, Reaches cursor (read cursor).2
  alike : ∀ {cursor other}, Alike cursor other →
    Past (read cursor).2 ∨ (read cursor).1 = (read other).1 ∧ Alike (read cursor).2 (read other).2

/-! ## Coordinates and instructions as reads in a row -/

/-- What is read of a coordinate behind its first byte. -/
def coordinateBehind (first : UInt8) (cursor : Cursor) : Binary32 × Cursor :=
  match CoordinateForm.ofByte first with
  | .whole => (Coordinate.ofWholeByte first, cursor)
  | .sixtyFourths =>
      let (second, afterSecond) := cursor.byte
      (Coordinate.ofSixtyFourthsWord (word16 [first, second]), afterSecond)
  | .full =>
      let (second, afterSecond) := cursor.byte
      let (third, afterThird) := afterSecond.byte
      let (fourth, afterFourth) := afterThird.byte
      (Coordinate.ofFullWord (word32 [first, second, third, fourth]), afterFourth)

theorem coordinate_of_end {cursor : Cursor} (hend : cursor.rest = []) :
    cursor.coordinate = (Binary32.zero false, cursor) := by
  unfold coordinate atEnd
  rw [hend]
  rfl

theorem coordinate_of_more {cursor : Cursor} (hmore : cursor.rest ≠ []) :
    cursor.coordinate = coordinateBehind cursor.byte.1 cursor.byte.2 := by
  unfold coordinate atEnd
  rw [if_neg (by rwa [List.isEmpty_iff])]
  rfl

/-- The operation and the points of an instruction, without the bytes that spell them. -/
def instructionValues (cursor : Cursor) : (Operation × List Point) × Cursor :=
  let (operation, afterOperation) := cursor.operation
  let (points, afterPoints) := afterOperation.points operation.pointCount
  ((operation, points), afterPoints)

theorem repeated_spelled {α : Type} (read : Cursor → α × Cursor) (count : Nat) (cursor : Cursor) :
    (repeated (spelled read) count cursor).1.map Spelled.value = (repeated read count cursor).1 ∧
      (repeated (spelled read) count cursor).2 = (repeated read count cursor).2 := by
  induction count generalizing cursor with
  | zero => exact ⟨rfl, rfl⟩
  | succ count ih =>
      obtain ⟨hvalues, hlater⟩ := ih (read cursor).2
      rw [repeated_succ, repeated_succ]
      exact ⟨congrArg ((read cursor).1 :: ·) hvalues, hlater⟩

theorem instruction_eq (cursor : Cursor) :
    cursor.instruction.1.offset = cursor.position ∧
      cursor.instruction.1.operation.value = cursor.instructionValues.1.1 ∧
      cursor.instruction.1.points.map Spelled.value = cursor.instructionValues.1.2 ∧
      cursor.instruction.2 = cursor.instructionValues.2 := by
  obtain ⟨hpoints, hlater⟩ :=
    repeated_spelled Cursor.point cursor.operation.1.pointCount cursor.operation.2
  exact ⟨rfl, rfl, hpoints, hlater⟩

/-! ## Reads -/

section Reads

variable {Alike : Cursor → Cursor → Prop} {Past : Cursor → Prop} {α β : Type}

theorem ReadsAlike.pure (value : α) : ReadsAlike Alike Past fun cursor => (value, cursor) :=
  ⟨Reaches.refl, fun halike => .inr ⟨rfl, halike⟩⟩

namespace Tracks

variable (tracks : Tracks Alike Past)
include tracks

/-- Two reads one after the other. -/
theorem bind {first : Cursor → α × Cursor} {next : α → Cursor → β × Cursor}
    (hfirst : ReadsAlike Alike Past first) (hnext : ∀ value, ReadsAlike Alike Past (next value)) :
    ReadsAlike Alike Past fun cursor => next (first cursor).1 (first cursor).2 where
  reaches cursor := (hfirst.reaches cursor).trans ((hnext _).reaches _)
  alike := by
    intro cursor other halike
    rcases hfirst.alike halike with hpast | ⟨hvalue, hbetween⟩
    · exact .inl (tracks.past ((hnext _).reaches _) hpast)
    · rw [← hvalue]
      exact (hnext _).alike hbetween

theorem byte_alike : ReadsAlike Alike Past Cursor.byte := ⟨reaches_byte, tracks.byte⟩

theorem color_alike : ReadsAlike Alike Past Cursor.color :=
  tracks.bind tracks.byte_alike fun red => tracks.bind tracks.byte_alike fun green =>
    tracks.bind tracks.byte_alike fun blue => tracks.bind tracks.byte_alike fun alpha =>
      ReadsAlike.pure (Rgba.mk red green blue alpha)

theorem coordinateBehind_alike (first : UInt8) :
    ReadsAlike Alike Past (coordinateBehind first) := by
  unfold coordinateBehind
  cases CoordinateForm.ofByte first with
  | whole => exact .pure _
  | sixtyFourths =>
      exact tracks.bind tracks.byte_alike fun second =>
        ReadsAlike.pure (Coordinate.ofSixtyFourthsWord (word16 [first, second]))
  | full =>
      exact tracks.bind tracks.byte_alike fun second => tracks.bind tracks.byte_alike fun third =>
        tracks.bind tracks.byte_alike fun fourth =>
          ReadsAlike.pure (Coordinate.ofFullWord (word32 [first, second, third, fourth]))

theorem coordinate_alike : ReadsAlike Alike Past Cursor.coordinate where
  reaches := reaches_coordinate
  alike := by
    intro cursor other halike
    by_cases hend : cursor.rest = []
    · obtain ⟨hzero, hlater⟩ := tracks.coordinate_end halike hend
      rw [coordinate_of_end hend]
      exact .inr ⟨hzero.symm, hlater⟩
    · have hbehind := tracks.coordinateBehind_alike cursor.byte.1
      rw [coordinate_of_more hend]
      rcases tracks.more halike hend with hpast | hmore
      · exact .inl (tracks.past (hbehind.reaches _) hpast)
      · rw [coordinate_of_more hmore]
        exact (tracks.bind tracks.byte_alike tracks.coordinateBehind_alike).alike halike

theorem point_alike : ReadsAlike Alike Past Cursor.point :=
  tracks.bind tracks.coordinate_alike fun x => tracks.bind tracks.coordinate_alike fun y =>
    ReadsAlike.pure (Point.mk x y)

/-- The opcode decides what is read behind it. -/
theorem operation_alike : ReadsAlike Alike Past Cursor.operation where
  reaches cursor := (reaches_byte cursor).trans (reaches_operation_of_byte cursor)
  alike := by
    intro cursor other halike
    rcases tracks.byte halike with hpast | ⟨hopcode, hbehind⟩
    · exact .inl (tracks.past (reaches_operation_of_byte cursor) hpast)
    have hcolor : ReadsAlike Alike Past fun place =>
        (Operation.solidFill place.color.1, place.color.2) :=
      tracks.bind tracks.color_alike fun color => ReadsAlike.pure (Operation.solidFill color)
    have hindex : ReadsAlike Alike Past fun place =>
        (Operation.paletteFill place.byte.1, place.byte.2) :=
      tracks.bind tracks.byte_alike fun index => ReadsAlike.pure (Operation.paletteFill index)
    unfold operation
    dsimp only
    rw [← hopcode]
    split
    · exact .inr ⟨rfl, hbehind⟩
    split
    · exact hcolor.alike hbehind
    split
    · exact hindex.alike hbehind
    split
    · exact .inr ⟨rfl, hbehind⟩
    split
    · exact .inr ⟨rfl, hbehind⟩
    split <;> exact .inr ⟨rfl, hbehind⟩

theorem repeated_alike {read : Cursor → α × Cursor} (hread : ReadsAlike Alike Past read)
    (count : Nat) : ReadsAlike Alike Past (repeated read count) := by
  induction count with
  | zero => exact .pure []
  | succ count ih =>
      have hboth := tracks.bind hread fun value => tracks.bind ih fun values =>
        ReadsAlike.pure (value :: values)
      rwa [← funext (repeated_succ read count)] at hboth

theorem instructionValues_alike : ReadsAlike Alike Past instructionValues :=
  tracks.bind tracks.operation_alike fun operation =>
    tracks.bind (tracks.repeated_alike tracks.point_alike operation.pointCount) fun points =>
      ReadsAlike.pure (operation, points)

/-- Related cursors at the same position read instructions that do the same. -/
theorem instruction {cursor other : Cursor} (halike : Alike cursor other)
    (hposition : cursor.position = other.position) (hmore : cursor.rest ≠ []) :
    Past cursor.instruction.2 ∨
      other.rest ≠ [] ∧ cursor.instruction.1.Alike other.instruction.1 ∧
        Alike cursor.instruction.2 other.instruction.2 := by
  obtain ⟨hoffset, hoperation, hpoints, hlater⟩ := cursor.instruction_eq
  obtain ⟨hoffsetOther, hoperationOther, hpointsOther, hlaterOther⟩ := other.instruction_eq
  rcases tracks.more halike hmore with hpast | hmoreOther
  · exact .inl (tracks.past (reaches_instruction_of_byte cursor) hpast)
  rcases tracks.instructionValues_alike.alike halike with hpast | ⟨hvalues, hbehind⟩
  · exact .inl (hlater ▸ hpast)
  rw [hlater, hlaterOther]
  refine .inr ⟨hmoreOther, ⟨?_, ?_, ?_⟩, hbehind⟩
  · rw [hoffset, hoffsetOther, hposition]
  · rw [hoperation, hoperationOther, hvalues]
  · rw [hpoints, hpointsOther, hvalues]

end Tracks
end Reads

/-! ## The same bytes up to a place -/

/-- Between each cursor and a place lie the same bytes, with `shift` more bytes before the first
one.  At the place the first program goes on with `behind`, and the second one with `instead`. -/
def SharesFront (shift : Nat) (behind instead : Bytes) (cursor other : Cursor) : Prop :=
  cursor.position = other.position + shift ∧
    ∃ between, cursor.rest = between ++ behind ∧ other.rest = between ++ instead

/-- Some of the last bytes of a program have been read. -/
def GoneInto (behind : Bytes) (cursor : Cursor) : Prop := cursor.rest.length < behind.length

theorem tracks_sharesFront {behind instead : Bytes} (hends : behind = [] → instead = [])
    (shift : Nat) : Tracks (SharesFront shift behind instead) (GoneInto behind) where
  byte := by
    rintro ⟨_, _⟩ ⟨position, _⟩ ⟨rfl, between, rfl, rfl⟩
    cases between with
    | cons first between => exact .inr ⟨rfl, Nat.add_right_comm .., between, rfl, rfl⟩
    | nil =>
        by_cases hbehind : behind = []
        · obtain rfl := hbehind
          obtain rfl := hends rfl
          exact .inr ⟨rfl, rfl, [], rfl, rfl⟩
        · exact .inl (length_byte_lt hbehind)
  more := by
    rintro ⟨_, _⟩ ⟨position, _⟩ ⟨rfl, between, rfl, rfl⟩ hmore
    cases between with
    | cons first between => exact .inr (List.cons_ne_nil _ _)
    | nil => exact .inl (length_byte_lt hmore)
  coordinate_end := by
    rintro ⟨_, _⟩ ⟨position, _⟩ ⟨rfl, between, rfl, rfl⟩ hend
    obtain ⟨rfl, rfl⟩ := List.append_eq_nil_iff.mp hend
    obtain rfl := hends rfl
    exact ⟨rfl, rfl, [], rfl, rfl⟩
  past hreaches hpast := Nat.lt_of_le_of_lt hreaches.length_le hpast

/-- The bytes of a point are enough to read it. -/
theorem point_bytesUntil (cursor : Cursor) :
    (start (cursor.bytesUntil cursor.point.2)).point.1 = cursor.point.1 := by
  have hfront : SharesFront cursor.position cursor.point.2.rest [] cursor
      (start (cursor.bytesUntil cursor.point.2)) :=
    ⟨(Nat.zero_add _).symm, _, (reaches_point cursor).bytesUntil_append.symm,
      (List.append_nil _).symm⟩
  rcases (tracks_sharesFront (fun _ => rfl) cursor.position).point_alike.alike hfront with
    hpast | ⟨hpoint, -⟩
  · exact absurd hpast (Nat.lt_irrefl _)
  · exact hpoint.symm

/-! ## Zeros behind the end -/

/-- The second program goes on with zeros where the first one ends.  There the positions may
differ, because only the second cursor moves on. -/
structure FilledUp (cursor other : Cursor) : Prop where
  exists_rest_eq : ∃ count, other.rest = cursor.rest ++ List.replicate count 0
  position_eq : cursor.rest ≠ [] → cursor.position = other.position

theorem FilledUp.byte {cursor other : Cursor} (hfilled : FilledUp cursor other) :
    cursor.byte.1 = other.byte.1 ∧ FilledUp cursor.byte.2 other.byte.2 := by
  obtain ⟨position, rest⟩ := cursor
  obtain ⟨otherPosition, _⟩ := other
  obtain ⟨⟨count, rfl⟩, hposition⟩ := hfilled
  cases rest with
  | nil =>
      cases count with
      | zero => exact ⟨rfl, ⟨0, rfl⟩, fun hmore => absurd rfl hmore⟩
      | succ count => exact ⟨rfl, ⟨count, rfl⟩, fun hmore => absurd rfl hmore⟩
  | cons first rest =>
      refine ⟨rfl, ⟨count, rfl⟩, fun _ => ?_⟩
      exact congrArg (· + 1) (hposition (List.cons_ne_nil _ _))

/-- Behind the end, the second program has nothing but zeros. -/
theorem FilledUp.byte_of_end {cursor other : Cursor} (hfilled : FilledUp cursor other)
    (hend : cursor.rest = []) : other.byte.1 = 0 ∧ FilledUp cursor other.byte.2 := by
  obtain ⟨hvalue, hbehind⟩ := hfilled.byte
  have hbyte : cursor.byte = (0, cursor) := by
    unfold Cursor.byte
    rw [hend]
  rw [hbyte] at hvalue hbehind
  exact ⟨hvalue.symm, hbehind⟩

/-- Four zeros are the coordinate that is read at the end. -/
theorem FilledUp.coordinate_of_end {cursor other : Cursor} (hfilled : FilledUp cursor other)
    (hend : cursor.rest = []) :
    other.coordinate.1 = Binary32.zero false ∧ FilledUp cursor other.coordinate.2 := by
  by_cases hmore : other.rest = []
  · rw [Cursor.coordinate_of_end hmore]
    exact ⟨rfl, hfilled⟩
  · obtain ⟨hfirst, hbehindFirst⟩ := hfilled.byte_of_end hend
    obtain ⟨hsecond, hbehindSecond⟩ := hbehindFirst.byte_of_end hend
    obtain ⟨hthird, hbehindThird⟩ := hbehindSecond.byte_of_end hend
    obtain ⟨hfourth, hbehindFourth⟩ := hbehindThird.byte_of_end hend
    have hcoordinate : other.coordinate =
        (Coordinate.ofFullWord (word32 [0, other.byte.2.byte.1, other.byte.2.byte.2.byte.1,
          other.byte.2.byte.2.byte.2.byte.1]), other.byte.2.byte.2.byte.2.byte.2) := by
      rw [coordinate_of_more hmore, hfirst]
      rfl
    have hzero : Coordinate.ofFullWord (word32 [0, 0, 0, 0]) = Binary32.zero false := by decide
    rw [hcoordinate, hsecond, hthird, hfourth]
    exact ⟨hzero, hbehindFourth⟩

theorem tracks_filledUp : Tracks FilledUp fun _ => False where
  byte hfilled := .inr hfilled.byte
  more := by
    rintro ⟨position, rest⟩ ⟨_, _⟩ ⟨⟨count, rfl⟩, hposition⟩ hmore
    exact .inr fun hend => hmore (List.append_eq_nil_iff.mp hend).1
  coordinate_end := FilledUp.coordinate_of_end
  past _ hpast := hpast

end Cursor
end VectorIcons
