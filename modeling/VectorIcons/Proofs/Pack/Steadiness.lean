import VectorIcons.Proofs.Pack.SectionParsing
import VectorIcons.Proofs.Pack.Laws

/-!
# A load sees nothing but the content of its stream

How a stream cuts its bytes into pieces, how often it interrupts a read and how many reads
it has answered before make no difference to what a load gives: streams with the same
content give the same pack or the same failure, `result_load_congr`.

## Strategy

A part of a load is `Steady` if it takes streams with the same content to the same value and
again to streams with the same content, or fails on both for the same reason.  Parts that
leave the stream alone are steady, `fill` is steady because of `exists_fill_eq`, and `passOver`
because the content decides where bytes end, `position_add_le_ending_iff`.  Two steady parts in a
row are steady.  That is a law of all parts, `law_steady`.  What is told on the way is left out.
-/

namespace VectorIcons

open ByteStream

namespace Loader

/-! ## What a run gives -/

/-- What a run gives: its value, or why it failed. -/
def given {α : Type} : EStateM.Result LoadError LoadState α → Except LoadError α
  | .ok value _ => .ok value
  | .error cause _ => .error cause

theorem given_bind_of_ok {α β : Type} {part : Loader α} {next : α → Loader β}
    {state between : LoadState} {value : α} (hpart : part state = .ok value between) :
    given ((part >>= next) state) = given (next value between) := by
  rw [bind_of_ok hpart]

theorem given_bind_of_error {α β : Type} {part : Loader α} {next : α → Loader β}
    {state : LoadState} {cause : LoadError} (hpart : given (part state) = .error cause) :
    given ((part >>= next) state) = .error cause := by
  cases hrun : part state with
  | ok value between => rw [hrun] at hpart; cases hpart
  | error other between =>
      rw [bind_of_error hrun]
      rw [hrun] at hpart
      exact congrArg Except.error (Except.error.inj hpart)

theorem given_map {α β : Type} (function : α → β) (part : Loader α) (state : LoadState) :
    given ((function <$> part) state) = (given (part state)).map function := by
  show given (EStateM.map function part state) = _
  unfold EStateM.map
  cases part state <;> rfl

/-! ## The law -/

/-- Two runs that give the same.  After a success their streams have the same content. -/
inductive SameOutcome {α : Type} :
    EStateM.Result LoadError LoadState α → EStateM.Result LoadError LoadState α → Prop
  | ok (value : α) {first second : LoadState} (same : SameContent first.stream second.stream) :
      SameOutcome (.ok value first) (.ok value second)
  | error (cause : LoadError) (first second : LoadState) :
      SameOutcome (.error cause first) (.error cause second)

theorem SameOutcome.given_eq {α : Type} {first second : EStateM.Result LoadError LoadState α}
    (hsame : SameOutcome first second) : given first = given second := by
  cases hsame with
  | ok => rfl
  | error => rfl

/-- What follows two runs that give the same, gives the same if it does so behind the value
of these runs. -/
theorem SameOutcome.bind {α β : Type} {part : Loader α} {next : α → Loader β}
    {first second : LoadState} (hpart : SameOutcome (part first) (part second))
    (hnext : ∀ value between betweenSecond, part first = .ok value between →
      SameContent between.stream betweenSecond.stream →
        SameOutcome (next value between) (next value betweenSecond)) :
    SameOutcome ((part >>= next) first) ((part >>= next) second) := by
  show SameOutcome (EStateM.bind part next first) (EStateM.bind part next second)
  unfold EStateM.bind
  revert hpart hnext
  generalize part first = one
  generalize part second = other
  intro hpart hnext
  cases hpart with
  | ok value same => exact hnext value _ _ rfl same
  | error cause one other => exact .error cause one other

/-- Whether a part of a load depends only on the content of its stream. -/
def Steady {α : Type} (part : Loader α) : Prop :=
  ∀ first second : LoadState, SameContent first.stream second.stream →
    SameOutcome (part first) (part second)

theorem steady_pure {α : Type} (value : α) : Steady (pure value : Loader α) := by
  intro first second same
  exact .ok value same

theorem steady_throw {α : Type} (cause : LoadError) : Steady (throw cause : Loader α) := by
  intro first second _
  exact .error cause first second

theorem Steady.bind {α β : Type} {part : Loader α} {next : α → Loader β} (hpart : Steady part)
    (hnext : ∀ value, Steady (next value)) : Steady (part >>= next) := by
  intro first second same
  exact (hpart first second same).bind fun value _ _ _ sameBetween =>
    hnext value _ _ sameBetween

theorem steady_tell (event : LoadEvent) : Steady (tell event) := by
  intro first second same
  exact .ok () same

/-! ## Parts that read -/

theorem steady_fill (count : Nat) : Steady (fill count) := by
  intro first second same
  obtain ⟨afterFirst, hfirst, sameFirst⟩ := exists_fill_eq count first
  obtain ⟨afterSecond, hsecond, sameSecond⟩ := exists_fill_eq count second
  rw [hfirst, hsecond, same.rest_eq, same.shortage_eq, same.available_eq]
  rw [same.available_eq] at sameFirst
  exact .ok _ ((sameFirst.trans (same.skip _)).trans sameSecond.symm)

theorem steady_passOver (count : Nat) : Steady (passOver count) := by
  intro first second same
  -- Both streams have the bytes, or neither has.
  have hiff : first.stream.position + count ≤ first.ending ↔
      second.stream.position + count ≤ second.ending := by
    rw [position_add_le_ending_iff, position_add_le_ending_iff, same.inside_iff, same.rest_eq]
  by_cases hend : first.stream.position + count ≤ first.ending
  · rw [passOver_of_le hend, passOver_of_le (hiff.mp hend), same.rest_eq]
    exact .ok _ (same.skip count)
  · rw [passOver_of_lt (Nat.not_le.mp hend), passOver_of_lt (Nat.not_le.mp (mt hiff.mpr hend))]
    exact .ok none same

/-- So every part of a section is steady. -/
theorem law_steady : Law @Steady where
  «pure» := steady_pure
  bind := Steady.bind
  tell _ := steady_tell _
  refuse _ _ := (steady_tell _).bind fun _ => steady_throw _
  throw _ := steady_throw _
  fill := steady_fill
  passOver := steady_passOver

/-! ## Sections -/

/-- Reading all sections is steady, one section at a time. -/
theorem steady_sections : Steady sections := by
  intro first second same
  induction first using sections_induction generalizing second with
  | step first ih =>
      rw [sections_eq]
      apply (law_steady.section? first second same).bind
      intro found between betweenSecond hfound sameBetween
      cases found with
      | none => exact .ok [] sameBetween
      | some found =>
          show SameOutcome (((found :: ·) <$> sections) between)
            (((found :: ·) <$> sections) betweenSecond)
          rw [← bind_pure_comp]
          apply (ih found between hfound betweenSecond sameBetween).bind
          intro others _ _ _ sameAfter
          exact .ok (found :: others) sameAfter

/-! ## Packs -/

theorem steady_pack : Steady pack :=
  law_steady.header.bind fun _ => steady_sections.bind fun _ =>
    (steady_tell _).bind fun _ => steady_pure _

end Loader

namespace Pack

open Loader

theorem result_load (stream : ByteStream) :
    (load stream).result = given (Loader.pack (.start stream)) := by
  unfold load
  cases Loader.pack (.start stream) <;> rfl

/-- **Streams with the same content are loaded alike.** -/
theorem result_load_congr {first second : ByteStream} (same : SameContent first second) :
    (load first).result = (load second).result := by
  rw [result_load, result_load]
  apply (steady_pack _ _ _).given_eq
  rwa [LoadState.stream_start, LoadState.stream_start]

end Pack
end VectorIcons
