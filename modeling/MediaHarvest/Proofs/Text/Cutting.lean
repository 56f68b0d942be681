/-!
# Cutting at separators

A list that was joined with a separator can be cut in one way only, if the separator does not occur
in the part before it, or in the part behind it.
-/

namespace MediaHarvest

variable {α : Type} {separator : α} {front front' rest rest' : List α}

/-- A list is cut in one way only at its last separator. -/
theorem cut_at_last (free : separator ∉ rest) (free' : separator ∉ rest')
    (same : front ++ separator :: rest = front' ++ separator :: rest') :
    front = front' ∧ rest = rest' := by
  rcases List.append_eq_append_iff.1 same with ⟨between, longer, tail⟩ | ⟨between, longer, tail⟩
  · cases between with
    | nil =>
        rw [List.append_nil] at longer
        exact ⟨longer.symm, (List.cons.inj tail).2⟩
    | cons first between =>
        rw [(List.cons.inj tail).2] at free
        exact absurd (List.mem_append_right _ List.mem_cons_self) free
  · cases between with
    | nil =>
        rw [List.append_nil] at longer
        exact ⟨longer, (List.cons.inj tail).2.symm⟩
    | cons first between =>
        rw [(List.cons.inj tail).2] at free'
        exact absurd (List.mem_append_right _ List.mem_cons_self) free'

/-- A list is cut in one way only at its first separator. -/
theorem cut_at_first (free : separator ∉ front) (free' : separator ∉ front')
    (same : front ++ separator :: rest = front' ++ separator :: rest') :
    front = front' ∧ rest = rest' := by
  have reversed := congrArg List.reverse same
  simp only [List.reverse_append, List.reverse_cons, List.append_assoc, List.singleton_append]
    at reversed
  obtain ⟨rests, fronts⟩ := cut_at_last (by simpa using free) (by simpa using free') reversed
  exact ⟨List.reverse_inj.1 fronts, List.reverse_inj.1 rests⟩

end MediaHarvest
