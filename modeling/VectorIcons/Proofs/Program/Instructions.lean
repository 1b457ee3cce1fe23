import VectorIcons.Program.Instruction

/-!
# The instructions of a program

Whatever the bytes of a program are, each instruction that is read from it has the
number of points that its operation asks for, and counts segments only as far as its
opcode can: `wellFormed_of_mem_instructions`.

The list of instructions is made by a recursion on the bytes that are left.
`forall_mem_instructions` is the induction that goes with it, so a property of all
instructions needs to be shown for a single read.
-/

namespace VectorIcons

/-- Points that make some whole segments, and not more than one opcode can hold: 1 to 32
lines, or 1 to 16 curves of either kind. -/
def SegmentKind.Admits (kind : SegmentKind) (points : List Point) : Prop :=
  ∃ count, 1 ≤ count ∧ count ≤ kind.maxCount ∧ points.length = count * kind.arity

/-- An instruction with as many points as its operation asks for, and not more segments
than one opcode can hold. -/
structure Instruction.WellFormed (instruction : Instruction) : Prop where
  length_points : instruction.points.length = instruction.operation.value.pointCount
  count_segments : ∀ kind count, instruction.operation.value = .segments kind count →
    1 ≤ count ∧ count ≤ kind.maxCount

namespace Cursor

/-! ## One instruction -/

theorem length_repeated {α : Type} (read : Cursor → α × Cursor) (count : Nat) (cursor : Cursor) :
    (repeated read count cursor).1.length = count := by
  induction count generalizing cursor with
  | zero => rfl
  | succ count ih => rw [repeated_succ, List.length_cons, ih]

theorem count_ofSegmentOpcode {opcode count : Nat} {kind : SegmentKind} (hopcode : opcode < 0xc0)
    (hoperation : Operation.ofSegmentOpcode opcode = .segments kind count) :
    1 ≤ count ∧ count ≤ kind.maxCount := by
  unfold Operation.ofSegmentOpcode at hoperation
  split at hoperation
  · rename_i hline
    simp only [Operation.segments.injEq] at hoperation
    obtain ⟨rfl, rfl⟩ := hoperation
    simp only [SegmentKind.firstOpcode, SegmentKind.maxCount] at *
    omega
  · split at hoperation
    · rename_i hcubic
      simp only [Operation.segments.injEq] at hoperation
      obtain ⟨rfl, rfl⟩ := hoperation
      simp only [SegmentKind.firstOpcode, SegmentKind.maxCount] at *
      omega
    · simp only [Operation.segments.injEq] at hoperation
      obtain ⟨rfl, rfl⟩ := hoperation
      simp only [SegmentKind.firstOpcode, SegmentKind.maxCount] at *
      omega

theorem count_operation {cursor : Cursor} {kind : SegmentKind} {count : Nat}
    (hoperation : cursor.operation.1 = .segments kind count) :
    1 ≤ count ∧ count ≤ kind.maxCount := by
  unfold operation at hoperation
  dsimp only at hoperation
  split at hoperation
  · cases hoperation
  · split at hoperation
    · cases hoperation
    · split at hoperation
      · cases hoperation
      · split at hoperation
        · cases hoperation
        · split at hoperation
          · cases hoperation
          · split at hoperation
            · rename_i hsegments
              exact count_ofSegmentOpcode hsegments.2 hoperation
            · cases hoperation

theorem wellFormed_instruction (cursor : Cursor) : cursor.instruction.1.WellFormed where
  length_points := length_repeated _ _ _
  count_segments := fun _ _ hoperation => count_operation hoperation

/-! ## All instructions -/

/-- What holds for every instruction that can be read before the end holds for all
instructions of a program. -/
theorem forall_mem_instructions {property : Instruction → Prop}
    (hproperty : ∀ place : Cursor, place.rest ≠ [] → property place.instruction.1)
    (cursor : Cursor) : ∀ instruction ∈ cursor.instructions.1, property instruction := by
  -- The recursion of `instructions` ends because every read leaves fewer bytes.
  induction hlength : cursor.rest.length using Nat.strongRecOn generalizing cursor with
  | ind length ih =>
      intro instruction hmem
      rw [instructions_eq] at hmem
      split at hmem
      · cases hmem
      · rename_i hnonempty
        have hfirst := hproperty cursor hnonempty
        split at hmem
        · rw [List.mem_singleton.mp hmem]
          exact hfirst
        · rcases List.mem_cons.mp hmem with rfl | hrest
          · exact hfirst
          · exact ih _ (hlength ▸ length_instruction_lt hnonempty) _ rfl instruction hrest

theorem wellFormed_of_mem_instructions (cursor : Cursor) :
    ∀ instruction ∈ cursor.instructions.1, instruction.WellFormed :=
  forall_mem_instructions (fun place _ => wellFormed_instruction place) cursor

end Cursor
end VectorIcons
