import VectorIcons.Pack.Load

/-!
# Laws that hold of every part of a load

The parts of a load are put together from a few: reading some bytes, passing over some, telling
how far the load is, and two ways to fail.  Most failures are told first.  Those of a stream that
cannot be read are not, apart from the header and the sizes of sections: `LoadError.isTold`.

What holds of these and of any two parts in a row, holds of each part of a section and of the
section: `Law.section?`.  From one section to all of them leads `sections_induction`.  Palettes and
icons need less, only that a property holds of their fields: `FieldLaw`.
-/

namespace VectorIcons

/-- Whether a load that fails for this reason tells so before it does. -/
def LoadError.isTold : LoadError → Bool
  | .io _ => false
  | .record _ => false
  | _ => true

namespace Loader

/-! ## Checks -/

/-- A property that parts without a read have and that two parts in a row keep. -/
structure CheckLaw (Holds : ⦃α : Type⦄ → Loader α → Prop) : Prop where
  «pure» : ∀ {α : Type} (value : α), Holds (pure value)
  bind : ∀ {α β : Type} {part : Loader α} {next : α → Loader β},
    Holds part → (∀ value, Holds (next value)) → Holds (part >>= next)
  tell : ∀ {event : LoadEvent}, event.level = .debug → Holds (tell event)
  refuse : ∀ {α : Type} {event : LoadEvent} {cause : LoadError},
    event.level = .error → cause.isTold = true → Holds (refuse event cause : Loader α)

namespace CheckLaw

variable {Holds : ⦃α : Type⦄ → Loader α → Prop} (law : CheckLaw Holds)
include law

theorem require (holds : Bool) {event : LoadEvent} {cause : LoadError}
    (hevent : event.level = .error) (hcause : cause.isTold = true) :
    Holds (require holds event cause) := by
  unfold Loader.require
  split
  · exact law.pure ()
  · exact law.refuse hevent hcause

theorem nameOf (bytes : Bytes) : Holds (nameOf bytes) := by
  unfold Loader.nameOf
  split
  · exact law.pure _
  · exact law.refuse rfl rfl

end CheckLaw

/-! ## Fields -/

/-- A property that checks and reads of fields have. -/
structure FieldLaw (Holds : ⦃α : Type⦄ → Loader α → Prop) : Prop extends CheckLaw Holds where
  plain : ∀ count, Holds (plain count)
  record : ∀ count, Holds (record count)

namespace FieldLaw

variable {Holds : ⦃α : Type⦄ → Loader α → Prop} (law : FieldLaw Holds)
include law

theorem palette (size : UInt32) : Holds (palette size) :=
  law.bind (law.record 1) fun _ => law.bind (law.record 1) fun _ =>
    law.bind (law.require _ rfl rfl) fun _ => law.bind (law.record _) fun _ =>
      law.bind (law.tell rfl) fun _ => law.pure _

theorem icon (size : UInt32) : Holds (icon size) :=
  law.bind (law.require _ rfl rfl) fun _ => law.bind (law.record 1) fun _ =>
    law.bind (law.require _ rfl rfl) fun _ => law.bind (law.plain _) fun _ =>
      law.bind (law.nameOf _) fun _ => law.bind (law.record 1) fun _ =>
        law.bind (law.require _ rfl rfl) fun _ => law.bind (law.require _ rfl rfl) fun _ =>
          law.bind (law.record _) fun _ => law.bind (law.plain _) fun _ =>
            law.bind (law.tell rfl) fun _ => law.pure _

end FieldLaw

/-! ## All parts -/

/-- A property of parts that the smallest ones have and that two parts in a row keep. -/
structure Law (Holds : ⦃α : Type⦄ → Loader α → Prop) : Prop extends CheckLaw Holds where
  throw : ∀ {α : Type} {cause : LoadError}, cause.isTold = false → Holds (throw cause : Loader α)
  fill : ∀ count, Holds (fill count)
  passOver : ∀ count, Holds (passOver count)

namespace Law

variable {Holds : ⦃α : Type⦄ → Loader α → Prop} (law : Law Holds)
include law

theorem take (count : Nat) {otherwise : ReadFailure → Loader Bytes}
    (hotherwise : ∀ failure, Holds (otherwise failure)) : Holds (take count otherwise) := by
  apply law.bind (law.fill count)
  intro filled
  split
  · exact law.pure _
  · exact hotherwise _

theorem fields : FieldLaw Holds where
  toCheckLaw := law.toCheckLaw
  plain count := law.take count fun _ => law.throw rfl
  record count := law.take count fun _ => law.throw rfl

theorem tagOf? (filled : ByteStream.Filled) : Holds (tagOf? filled) := by
  unfold Loader.tagOf?
  split
  · exact law.throw rfl
  · exact law.pure _
  · exact law.pure _
  · exact law.refuse rfl rfl

theorem size : Holds size :=
  law.bind (law.take 4 fun _ => law.refuse rfl rfl) fun _ => law.pure _

theorem other (tag : Tag) (size : UInt32) : Holds (other tag size) := by
  apply law.bind (law.passOver _)
  intro passed
  cases passed with
  | none => exact law.refuse rfl rfl
  | some payload => exact law.bind (law.tell rfl) fun _ => law.pure _

theorem payload (tag : Tag) (size : UInt32) : Holds (payload tag size) := by
  unfold Loader.payload
  split
  · exact law.fields.palette size
  · split
    · exact law.fields.icon size
    · exact law.other tag size

theorem section? : Holds section? := by
  apply law.bind (law.bind (law.fill 4) law.tagOf?)
  intro tag
  cases tag with
  | none => exact law.pure none
  | some tag =>
      exact law.bind law.size fun size => law.bind (law.tell rfl) fun _ =>
        law.bind (law.payload tag size) fun _ => law.pure _

/-- The header comes before all sections. -/
theorem header : Holds header :=
  law.bind (law.take 8 fun _ => law.refuse rfl rfl) fun _ =>
    law.bind (law.require _ rfl rfl) fun _ => law.tell rfl

end Law

/-! ## All sections -/

/-- Each section that is read leaves a shorter stream.  So what holds of a state if it holds behind
the section that is read there, holds of every state. -/
theorem sections_induction {motive : LoadState → Prop}
    (step : ∀ state, (∀ found between, section? state = .ok (some found) between →
      motive between) → motive state) (state : LoadState) : motive state := by
  induction hlength : state.stream.rest.length using Nat.strongRecOn generalizing state with
  | ind length ih =>
      apply step
      intro found between hfound
      exact ih _ (hlength ▸ length_rest_of_section? hfound) between rfl

end Loader
end VectorIcons
