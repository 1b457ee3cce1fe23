import VectorIcons.Bytes

/-!
# Byte streams

A stream stands at a position of its bytes, and can be moved to any other, also behind
their end.  It delivers them in pieces of its own choosing.  A read may be
interrupted a number of times before it gives anything, and then gives at least
one byte, but perhaps fewer than were asked for.  A stream may also have a fault:
bytes before it can be read, and every read from there on fails.

`fill` reads on until it has as many bytes as it needs.

## Main statements

How a stream cuts its bytes into pieces makes no difference to `fill`.

* `fill_filled`: it gives the bytes that were asked for if that many lie before the
  end and the fault, and otherwise the bytes that there are, with the reason.
* `samePlace_fill`: afterwards the stream stands behind the bytes it gave.
-/

namespace VectorIcons

/-! ## Streams -/

/-- How a stream answers one read: how often it interrupts it first, and how many
bytes it then gives at most. -/
structure Delivery where
  interruptions : Nat
  most : Option Nat

namespace Delivery

/-- The delivery that gives all that is asked for at once. -/
def whole : Delivery := ⟨0, none⟩

/-- How many of the bytes that a read wants it gets.  It gets at least one. -/
def portion (delivery : Delivery) (wanted : Nat) : Nat :=
  match delivery.most with
  | none => wanted
  | some most => min wanted (max 1 most)

end Delivery

/-- Where reading breaks down: how many bytes lie before that place, and why. -/
structure Fault where
  place : Nat
  reason : String
deriving DecidableEq, Repr

/-- A stream: all of its bytes, where it stands among them or behind them, its fault, and
how it answers its reads. -/
structure ByteStream where
  bytes : Bytes
  position : Nat
  /-- The bytes from the position on, which a read takes without looking for them. -/
  rest : Bytes
  rest_eq : rest = bytes.drop position
  fault : Option Fault
  deliveries : Nat → Delivery
  /-- How many reads have been answered. -/
  answered : Nat
  /-- How many interruptions come before the next answer. -/
  interruptionsLeft : Nat

/-- Why bytes could not be read. -/
inductive ReadFailure where
  | endOfStream
  | fault (reason : String)
deriving DecidableEq, Repr

def ReadFailure.message : ReadFailure → String
  | .endOfStream => "failed to fill whole buffer"
  | .fault reason => reason

/-- The answer to one read. -/
inductive ReadAnswer where
  | interrupted
  /-- Some bytes; there are none only at the end. -/
  | bytes (given : Bytes)
  | failed (reason : String)

namespace ByteStream

/-- The stream that stands in front of all of `bytes`. -/
def atFront (bytes : Bytes) (fault : Option Fault) (deliveries : Nat → Delivery) :
    ByteStream where
  bytes := bytes
  position := 0
  rest := bytes
  rest_eq := rfl
  fault := fault
  deliveries := deliveries
  answered := 0
  interruptionsLeft := (deliveries 0).interruptions

/-- The stream that gives `bytes` whole and without a fault. -/
def ofBytes (bytes : Bytes) : ByteStream := atFront bytes none fun _ => .whole

/-! ## Positions -/

/-- The stream at another position. -/
def seek (stream : ByteStream) (position : Nat) : ByteStream :=
  { stream with
    position := position
    rest := stream.bytes.drop position
    rest_eq := rfl }

/-- The stream behind its last byte. -/
def seekEnd (stream : ByteStream) : ByteStream := stream.seek stream.bytes.length

/-- The stream behind its next `count` bytes, also if it has fewer of them. -/
def skip (stream : ByteStream) (count : Nat) : ByteStream :=
  { stream with
    position := stream.position + count
    rest := stream.rest.drop count
    rest_eq := by rw [stream.rest_eq, List.drop_drop] }

/-- The fault, counted from where the stream stands. -/
def faultAhead (stream : ByteStream) : Option Fault :=
  stream.fault.map fun fault => { fault with place := fault.place - stream.position }

/-- Whether the stream does not stand behind its end. -/
def Inside (stream : ByteStream) : Prop := stream.position ≤ stream.bytes.length

theorem inside_atFront (bytes : Bytes) (fault : Option Fault) (deliveries : Nat → Delivery) :
    (atFront bytes fault deliveries).Inside := Nat.zero_le _

theorem inside_ofBytes (bytes : Bytes) : (ofBytes bytes).Inside := inside_atFront _ _ _

theorem seek_position (stream : ByteStream) : stream.seek stream.position = stream := by
  obtain ⟨bytes, position, _, rfl, _⟩ := stream
  rfl

theorem length_rest (stream : ByteStream) :
    stream.rest.length = stream.bytes.length - stream.position := by
  rw [stream.rest_eq, List.length_drop]

/-- Where there are bytes left is inside. -/
theorem inside_of_length_pos {stream : ByteStream} (hrest : 0 < stream.rest.length) :
    stream.Inside := by
  rw [length_rest] at hrest
  exact Nat.le_of_lt (Nat.lt_of_sub_pos hrest)

theorem inside_skip_iff {stream : ByteStream} {count : Nat} :
    (stream.skip count).Inside ↔ stream.Inside ∧ count ≤ stream.rest.length := by
  rw [length_rest]
  show stream.position + count ≤ stream.bytes.length ↔ stream.position ≤ stream.bytes.length ∧ _
  omega

theorem faultAhead_skip (stream : ByteStream) (count : Nat) :
    (stream.skip count).faultAhead =
      stream.faultAhead.map fun fault => { fault with place := fault.place - count } := by
  unfold faultAhead skip
  cases stream.fault with
  | none => rfl
  | some fault => simp [Nat.sub_sub]

/-! ## One read -/

/-- How many bytes lie before the end and the fault. -/
def available (stream : ByteStream) : Nat :=
  match stream.faultAhead with
  | none => stream.rest.length
  | some fault => min fault.place stream.rest.length

/-- How many bytes a read that wants `wanted` can get at most before the fault. -/
private def beforeFault (stream : ByteStream) (wanted : Nat) : Nat :=
  match stream.faultAhead with
  | none => wanted
  | some fault => min fault.place wanted

/-- The bytes that the next answer gives to a read that wants `wanted`. -/
private def nextPortion (stream : ByteStream) (wanted : Nat) : Bytes :=
  stream.rest.take
    (stream.beforeFault ((stream.deliveries stream.answered).portion wanted))

/-- The stream after one more answer. -/
private def afterAnswer (stream : ByteStream) : ByteStream :=
  { stream with
    answered := stream.answered + 1
    interruptionsLeft := (stream.deliveries (stream.answered + 1)).interruptions }

/-- Asks for `wanted` bytes once. -/
def read (stream : ByteStream) (wanted : Nat) : ReadAnswer × ByteStream :=
  match stream.interruptionsLeft with
  | left + 1 => (.interrupted, { stream with interruptionsLeft := left })
  | 0 =>
      match stream.faultAhead with
      | some ⟨0, reason⟩ => (.failed reason, stream.afterAnswer)
      | _ =>
          let given := stream.nextPortion wanted
          (.bytes given, (stream.skip given.length).afterAnswer)

/-! ## Reading on until there is enough -/

/-- What reading on gave: the bytes, and why there are not more of them if some are
missing. -/
structure Filled where
  bytes : Bytes
  failure : Option ReadFailure
deriving DecidableEq, Repr

private theorem interruptionsLeft_of_read_eq_interrupted {stream after : ByteStream}
    {wanted : Nat} (hread : stream.read wanted = (.interrupted, after)) :
    after.interruptionsLeft < stream.interruptionsLeft := by
  unfold read at hread
  split at hread
  · rename_i left hleft
    rw [← (Prod.mk.inj hread).2, hleft]
    exact Nat.lt_succ_self left
  · split at hread <;> cases hread

/-- Asks for `wanted` bytes again until it is not interrupted, and gives them or the
reason why reading failed. -/
private def persist (stream : ByteStream) (wanted : Nat) : Except String Bytes × ByteStream :=
  match _hread : stream.read wanted with
  | (.interrupted, after) => after.persist wanted
  | (.failed reason, after) => (.error reason, after)
  | (.bytes given, after) => (.ok given, after)
termination_by stream.interruptionsLeft
decreasing_by exact interruptionsLeft_of_read_eq_interrupted _hread

/-- Reads `wanted` further bytes after those in `earlier`, whose last one comes
first. -/
private def fillAfter (earlier : Bytes) (stream : ByteStream) (wanted : Nat) :
    Filled × ByteStream :=
  if _hwanted : wanted = 0 then (⟨earlier.reverse, none⟩, stream)
  else
    match stream.persist wanted with
    | (.error reason, after) => (⟨earlier.reverse, some (.fault reason)⟩, after)
    | (.ok [], after) => (⟨earlier.reverse, some .endOfStream⟩, after)
    | (.ok (first :: others), after) =>
        fillAfter (others.reverse ++ (first :: earlier)) after
          (wanted - (others.length + 1))
termination_by wanted

/-- Reads until there are `wanted` bytes, or no more can be had. -/
def fill (stream : ByteStream) (wanted : Nat) : Filled × ByteStream :=
  fillAfter [] stream wanted

/-! ## Streams that give the same -/

/-- Why a stream gives no more bytes than are available. -/
def shortage (stream : ByteStream) : ReadFailure :=
  match stream.faultAhead with
  | none => .endOfStream
  | some fault =>
      if fault.place ≤ stream.rest.length then .fault fault.reason else .endOfStream

/-- Two streams at the same place of the same bytes, which may have answered different reads. -/
structure SamePlace (first second : ByteStream) : Prop where
  bytes_eq : first.bytes = second.bytes
  position_eq : first.position = second.position
  fault_eq : first.fault = second.fault

namespace SamePlace

variable {first second third : ByteStream}

theorem trans (hfirst : SamePlace first second) (hsecond : SamePlace second third) :
    SamePlace first third :=
  ⟨hfirst.bytes_eq.trans hsecond.bytes_eq, hfirst.position_eq.trans hsecond.position_eq,
    hfirst.fault_eq.trans hsecond.fault_eq⟩

theorem skip (same : SamePlace first second) (count : Nat) :
    SamePlace (first.skip count) (second.skip count) :=
  ⟨same.bytes_eq, congrArg (· + count) same.position_eq, same.fault_eq⟩

end SamePlace

theorem samePlace_skip_zero (stream : ByteStream) : SamePlace stream (stream.skip 0) :=
  ⟨rfl, rfl, rfl⟩

theorem samePlace_skip_skip (stream : ByteStream) (first second : Nat) :
    SamePlace ((stream.skip first).skip second) (stream.skip (first + second)) :=
  ⟨rfl, Nat.add_assoc _ _ _, rfl⟩

/-- Two streams with the same bytes before them and the same fault, which may
deliver the bytes in different pieces.  Neither stands behind its end if the other does not. -/
structure SameContent (first second : ByteStream) : Prop where
  rest_eq : first.rest = second.rest
  fault_eq : first.faultAhead = second.faultAhead
  inside_iff : first.Inside ↔ second.Inside

theorem SamePlace.sameContent {first second : ByteStream} (same : SamePlace first second) :
    SameContent first second := by
  constructor
  · rw [first.rest_eq, second.rest_eq, same.bytes_eq, same.position_eq]
  · unfold faultAhead
    rw [same.fault_eq, same.position_eq]
  · unfold Inside
    rw [same.position_eq, same.bytes_eq]

namespace SameContent

theorem refl (stream : ByteStream) : SameContent stream stream := ⟨rfl, rfl, Iff.rfl⟩

theorem symm {first second : ByteStream} (same : SameContent first second) :
    SameContent second first := ⟨same.rest_eq.symm, same.fault_eq.symm, same.inside_iff.symm⟩

theorem trans {first second third : ByteStream} (hfirst : SameContent first second)
    (hsecond : SameContent second third) : SameContent first third :=
  ⟨hfirst.rest_eq.trans hsecond.rest_eq, hfirst.fault_eq.trans hsecond.fault_eq,
    hfirst.inside_iff.trans hsecond.inside_iff⟩

theorem available_eq {first second : ByteStream} (same : SameContent first second) :
    first.available = second.available := by
  unfold available
  rw [same.rest_eq, same.fault_eq]

theorem shortage_eq {first second : ByteStream} (same : SameContent first second) :
    first.shortage = second.shortage := by
  unfold shortage
  rw [same.rest_eq, same.fault_eq]

theorem skip {first second : ByteStream} (same : SameContent first second) (count : Nat) :
    SameContent (first.skip count) (second.skip count) := by
  constructor
  · exact congrArg (List.drop count) same.rest_eq
  · rw [faultAhead_skip, faultAhead_skip, same.fault_eq]
  · rw [inside_skip_iff, inside_skip_iff, same.inside_iff, same.rest_eq]

end SameContent

theorem sameContent_skip_zero (stream : ByteStream) : SameContent stream (stream.skip 0) :=
  (samePlace_skip_zero stream).sameContent

theorem sameContent_skip_skip (stream : ByteStream) (first second : Nat) :
    SameContent ((stream.skip first).skip second) (stream.skip (first + second)) :=
  (samePlace_skip_skip stream first second).sameContent

/-! ## What one read does -/

private theorem portion_pos (delivery : Delivery) {wanted : Nat} (hwanted : wanted ≠ 0) :
    0 < delivery.portion wanted := by
  unfold Delivery.portion
  split <;> omega

private theorem portion_le (delivery : Delivery) (wanted : Nat) :
    delivery.portion wanted ≤ wanted := by
  unfold Delivery.portion
  split <;> omega

theorem available_le_length (stream : ByteStream) :
    stream.available ≤ stream.rest.length := by
  unfold available
  split <;> omega

/-- After an interruption the stream stands where it stood. -/
private theorem read_interrupted {stream after : ByteStream} {wanted : Nat}
    (hread : stream.read wanted = (.interrupted, after)) : SamePlace after stream := by
  unfold read at hread
  split at hread
  · rw [← (Prod.mk.inj hread).2]
    exact ⟨rfl, rfl, rfl⟩
  · split at hread <;> cases hread

/-- A read fails only at the fault. -/
private theorem read_failed {stream after : ByteStream} {wanted : Nat} {reason : String}
    (hread : stream.read wanted = (.failed reason, after)) :
    stream.available = 0 ∧ stream.shortage = .fault reason ∧ SamePlace after stream := by
  unfold read at hread
  split at hread
  · cases hread
  · split at hread
    · rename_i hfault
      cases hread
      refine ⟨?_, ?_, rfl, rfl, rfl⟩
      · simp [available, hfault]
      · simp [shortage, hfault]
    · cases hread

/-- Away from the fault, a read that wants some bytes may get some before it. -/
private theorem beforeFault_bounds {stream : ByteStream} {portion wanted : Nat}
    (hfault : ∀ reason, stream.faultAhead ≠ some ⟨0, reason⟩) (hpos : 0 < portion)
    (hle : portion ≤ wanted) :
    0 < stream.beforeFault portion ∧ stream.beforeFault portion ≤ wanted ∧
      min (stream.beforeFault portion) stream.rest.length ≤ stream.available := by
  cases hcase : stream.faultAhead with
  | none =>
      simp only [beforeFault, available, hcase]
      omega
  | some fault =>
      obtain ⟨place, reason⟩ := fault
      have hplace : place ≠ 0 := fun hzero => hfault reason (by rw [hcase, hzero])
      simp only [beforeFault, available, hcase]
      omega

/-- Away from the fault, nothing is left only at the end. -/
private theorem shortage_of_length_eq_zero {stream : ByteStream}
    (hfault : ∀ reason, stream.faultAhead ≠ some ⟨0, reason⟩) (hend : stream.rest.length = 0) :
    stream.shortage = .endOfStream := by
  cases hcase : stream.faultAhead with
  | none => simp only [shortage, hcase]
  | some fault =>
      obtain ⟨place, reason⟩ := fault
      have hplace : place ≠ 0 := fun hzero => hfault reason (by rw [hcase, hzero])
      simp only [shortage, hcase]
      rw [if_neg (by omega)]

/-- A read that gives bytes gives some of the available ones, and at least one
before the end. -/
private theorem read_bytes {stream after : ByteStream} {wanted : Nat} {given : Bytes}
    (hread : stream.read wanted = (.bytes given, after)) (hwanted : wanted ≠ 0) :
    given.length ≤ wanted ∧ given.length ≤ stream.available ∧
      given = stream.rest.take given.length ∧
      (given = [] → stream.available = 0 ∧ stream.shortage = .endOfStream) ∧
      SamePlace after (stream.skip given.length) := by
  unfold read at hread
  split at hread
  · cases hread
  · split at hread
    · cases hread
    · rename_i hfault
      cases hread
      have hbefore := beforeFault_bounds hfault
        (portion_pos (stream.deliveries stream.answered) hwanted)
        (portion_le (stream.deliveries stream.answered) wanted)
      have hlength : (stream.nextPortion wanted).length =
          min (stream.beforeFault ((stream.deliveries stream.answered).portion wanted))
            stream.rest.length := List.length_take
      refine ⟨by omega, by omega, ?_, ?_, rfl, rfl, rfl⟩
      · rw [hlength, ← List.take_eq_take_min]
        rfl
      · intro hempty
        rw [hempty, List.length_nil] at hlength
        have hend : stream.rest.length = 0 := by omega
        exact ⟨Nat.le_zero.mp (hend ▸ stream.available_le_length),
          shortage_of_length_eq_zero hfault hend⟩

/-! ## What filling does -/

theorem available_skip (stream : ByteStream) (count : Nat) :
    (stream.skip count).available = stream.available - count := by
  unfold available
  rw [faultAhead_skip]
  cases stream.faultAhead with
  | none => exact List.length_drop
  | some fault =>
      simp only [Option.map_some, skip, List.length_drop]
      omega

theorem shortage_skip {stream : ByteStream} {count : Nat}
    (hcount : count ≤ stream.available) : (stream.skip count).shortage = stream.shortage := by
  unfold available at hcount
  unfold shortage
  rw [faultAhead_skip]
  cases hcase : stream.faultAhead with
  | none => rfl
  | some fault =>
      simp only [hcase, Option.map_some, skip, List.length_drop] at hcount ⊢
      by_cases hwithin : fault.place ≤ stream.rest.length
      · rw [if_pos hwithin, if_pos (by omega)]
      · rw [if_neg hwithin, if_neg (by omega)]

/-- Persisting fails only at the fault. -/
private theorem persist_error {stream after : ByteStream} {wanted : Nat} {reason : String}
    (hread : stream.persist wanted = (.error reason, after)) :
    stream.available = 0 ∧ stream.shortage = .fault reason ∧ SamePlace after stream := by
  fun_induction persist stream wanted with
  | case1 stream between hfirst ih =>
      have samePlace := read_interrupted hfirst
      have same := samePlace.sameContent
      obtain ⟨hnone, hshortage, hafter⟩ := ih hread
      exact ⟨same.available_eq ▸ hnone, same.shortage_eq ▸ hshortage, hafter.trans samePlace⟩
  | case2 stream reason' between hfirst =>
      cases hread
      exact read_failed hfirst
  | case3 => cases hread

/-- Persisting gives some of the available bytes, and at least one before the end. -/
private theorem persist_ok {stream after : ByteStream} {wanted : Nat} {given : Bytes}
    (hread : stream.persist wanted = (.ok given, after)) (hwanted : wanted ≠ 0) :
    given.length ≤ wanted ∧ given.length ≤ stream.available ∧
      given = stream.rest.take given.length ∧
      (given = [] → stream.available = 0 ∧ stream.shortage = .endOfStream) ∧
      SamePlace after (stream.skip given.length) := by
  fun_induction persist stream wanted with
  | case1 stream between hfirst ih =>
      have samePlace := read_interrupted hfirst
      have same := samePlace.sameContent
      have hlater := ih hread
      rw [same.available_eq, same.shortage_eq, same.rest_eq] at hlater
      obtain ⟨hwithin, havailable, hgiven, hempty, hafter⟩ := hlater
      exact ⟨hwithin, havailable, hgiven, hempty, hafter.trans (samePlace.skip _)⟩
  | case2 => cases hread
  | case3 stream given' between hfirst =>
      cases hread
      exact read_bytes hfirst hwanted

private theorem fillAfter_eq (earlier : Bytes) (stream : ByteStream) (wanted : Nat) :
    (fillAfter earlier stream wanted).1 =
        ⟨earlier.reverse ++ stream.rest.take (min wanted stream.available),
          if wanted ≤ stream.available then none else some stream.shortage⟩ ∧
      SamePlace (fillAfter earlier stream wanted).2
        (stream.skip (min wanted stream.available)) := by
  fun_induction fillAfter earlier stream wanted with
  | case1 earlier stream => simp [samePlace_skip_zero]
  | case2 earlier stream wanted hwanted reason after hread =>
      obtain ⟨hnone, hshortage, same⟩ := persist_error hread
      rw [hnone, hshortage, if_neg (by omega), Nat.min_zero]
      exact ⟨by simp, same.trans (samePlace_skip_zero stream)⟩
  | case3 earlier stream wanted hwanted after hread =>
      obtain ⟨_, _, _, hempty, same⟩ := persist_ok hread hwanted
      obtain ⟨hnone, hshortage⟩ := hempty rfl
      rw [hnone, hshortage, if_neg (by omega), Nat.min_zero]
      exact ⟨by simp, same⟩
  | case4 earlier stream wanted hwanted first others after hread ih =>
      obtain ⟨hwithin, havailable, hgiven, _, samePlace⟩ := persist_ok hread hwanted
      rw [List.length_cons] at hwithin havailable hgiven samePlace
      have same := samePlace.sameContent
      have hsum : others.length + 1 +
          min (wanted - (others.length + 1)) (stream.available - (others.length + 1)) =
            min wanted stream.available := by omega
      rw [same.available_eq, same.shortage_eq, shortage_skip havailable, available_skip,
        same.rest_eq] at ih
      constructor
      · rw [ih.1]
        congr 1
        · rw [← hsum, List.take_add, ← hgiven]
          simp [skip]
        · congr 1
          exact propext (by omega)
      · rw [← hsum]
        exact (ih.2.trans (samePlace.skip _)).trans (samePlace_skip_skip stream _ _)

/-- Filling gives as many of the wanted bytes as are available, and says what is in
the way of the others. -/
theorem fill_filled (stream : ByteStream) (wanted : Nat) :
    (stream.fill wanted).1 =
      ⟨stream.rest.take (min wanted stream.available),
        if wanted ≤ stream.available then none else some stream.shortage⟩ :=
  (fillAfter_eq [] stream wanted).1

/-- Filling leaves the stream behind the bytes that it gave. -/
theorem samePlace_fill (stream : ByteStream) (wanted : Nat) :
    SamePlace (stream.fill wanted).2 (stream.skip (min wanted stream.available)) :=
  (fillAfter_eq [] stream wanted).2

theorem sameContent_fill (stream : ByteStream) (wanted : Nat) :
    SameContent (stream.fill wanted).2 (stream.skip (min wanted stream.available)) :=
  (samePlace_fill stream wanted).sameContent

/-- No read changes the bytes. -/
theorem bytes_fill (stream : ByteStream) (wanted : Nat) :
    (stream.fill wanted).2.bytes = stream.bytes :=
  (samePlace_fill stream wanted).bytes_eq

end ByteStream
end VectorIcons
