import VectorIcons.Pack.Basic
import VectorIcons.Pack.Loader

/-!
# Loading packs

A pack is loaded section by section until its stream ends between two sections.  The
sections then make the pack.

The sections are read into an accumulator, so that a long pack needs no deep
recursion; `sections_eq` is the plain recursion that this amounts to.
-/

namespace VectorIcons
namespace Loader

/-! ## All sections -/

/-- Reads the sections up to the end of the stream after those in `earlier`, whose
last one comes first. -/
private def sectionsAfter (earlier : List Section) (state : LoadState) :
    EStateM.Result LoadError LoadState (List Section) :=
  match _hfound : section? state with
  | .ok none after => .ok earlier.reverse after
  | .ok (some found) after => sectionsAfter (found :: earlier) after
  | .error cause after => .error cause after
termination_by state.stream.rest.length
decreasing_by exact length_rest_of_section? _hfound

/-- The sections up to the end of the stream. -/
def sections : Loader (List Section) := sectionsAfter []

private theorem sectionsAfter_eq (earlier : List Section) (state : LoadState) :
    sectionsAfter earlier state =
      match sectionsAfter [] state with
      | .ok found after => .ok (earlier.reverse ++ found) after
      | .error cause after => .error cause after := by
  induction hlength : state.stream.rest.length using Nat.strongRecOn
    generalizing earlier state with
  | ind size ih =>
      conv => lhs; rw [sectionsAfter]
      conv => rhs; rw [sectionsAfter]
      split
      · simp
      · rename_i found after hfound
        have hlt := length_rest_of_section? hfound
        rw [hlength] at hlt
        rw [ih _ hlt (found :: earlier) after rfl, ih _ hlt [found] after rfl]
        split <;> simp
      · rfl

/-- The sections of a stream are the first one and those behind it. -/
theorem sections_eq :
    sections = section? >>= fun
      | none => pure []
      | some found => (found :: ·) <$> sections := by
  funext state
  show sectionsAfter [] state = EStateM.bind section? _ state
  rw [sectionsAfter]
  unfold EStateM.bind
  split
  · rename_i after hfound
    rw [hfound]
    rfl
  · rename_i found after hfound
    rw [hfound, sectionsAfter_eq]
    show _ = EStateM.map (found :: ·) sections after
    unfold EStateM.map sections
    cases sectionsAfter [] after <;> rfl
  · rename_i cause after hfound
    rw [hfound]

/-! ## Whole packs -/

/-- Reads a whole pack. -/
def pack : Loader Pack := do
  header
  let pack := Pack.ofSections (← sections)
  tell (.loaded pack.size)
  return pack

end Loader

/-- A finished load: the pack or why there is none, and what was told on the way. -/
structure Loading where
  result : Except LoadError Pack
  events : List LoadEvent

/-- Loads the pack that a stream holds from its position on. -/
def Pack.load (stream : ByteStream) : Loading :=
  match Loader.pack (.start stream) with
  | .ok pack after => ⟨.ok pack, after.events.toList⟩
  | .error cause after => ⟨.error cause, after.events.toList⟩

/-- Loads the pack that bytes hold. -/
def Pack.ofBytes (bytes : Bytes) : Loading := Pack.load (.ofBytes bytes)

end VectorIcons
