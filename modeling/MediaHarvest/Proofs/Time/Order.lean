import MediaHarvest.Time.Instant

/-!
# The order of instants

Instants are linearly ordered: of two of them one is no later than the other, and they are equal if
neither is later.
-/

namespace MediaHarvest.Instant

variable {first second third : Instant}

theorem le_iff : first ≤ second ↔
    first.seconds < second.seconds ∨
      first.seconds = second.seconds ∧ first.nanos ≤ second.nanos := by
  change first.notAfter second = true ↔ _
  simp [notAfter]

theorem le_refl (instant : Instant) : instant ≤ instant := le_iff.2 (.inr ⟨rfl, Nat.le_refl _⟩)

theorem le_trans (one : first ≤ second) (two : second ≤ third) : first ≤ third := by
  rw [le_iff] at one two ⊢
  omega

theorem le_total (first second : Instant) : first ≤ second ∨ second ≤ first := by
  rw [le_iff, le_iff]
  omega

theorem le_of_lt (earlier : first < second) : first ≤ second :=
  (le_total first second).resolve_right earlier

theorem le_antisymm (one : first ≤ second) (two : second ≤ first) : first = second := by
  rw [le_iff] at one two
  have seconds : first.seconds = second.seconds := by omega
  have nanos : first.nanos = second.nanos := by omega
  cases first
  cases second
  cases seconds
  cases nanos
  rfl

end MediaHarvest.Instant
