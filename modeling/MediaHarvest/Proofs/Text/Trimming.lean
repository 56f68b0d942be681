import MediaHarvest.Text.Blank
import MediaHarvest.Proofs.Number.Digits

/-!
# Trimming

What is left of a text when the blanks around it are gone is told without the scan that finds it:
it neither starts nor ends with a blank, and nothing but blanks stand around it.
-/

namespace MediaHarvest.Text

open MediaHarvest.Number

/-- The core of a text is what stands between the blanks around it. -/
structure Trims (chars core : List Char) : Prop where
  around : ∃ front back, chars = front ++ core ++ back ∧
    (∀ c ∈ front, isBlank c = true) ∧ ∀ c ∈ back, isBlank c = true
  first : ∀ c ∈ core.head?, isBlank c = false
  last : ∀ c ∈ core.getLast?, isBlank c = false

/-- Trimming finds the core. -/
theorem trims_trimmed (chars : List Char) : Trims chars (trimEnd (trimStart chars)) := by
  let middle := trimStart chars
  let back := (middle.reverse.takeWhile isBlank).reverse
  have whole : middle = trimEnd middle ++ back := by
    rw [trimEnd, ← List.reverse_append, List.takeWhile_append_dropWhile, List.reverse_reverse]
  refine ⟨⟨chars.takeWhile isBlank, back, ?_, fun _ => List.mem_takeWhile_imp, ?_⟩, ?_, ?_⟩
  · rw [List.append_assoc, ← whole]
    exact List.takeWhile_append_dropWhile.symm
  · intro c mem
    exact List.mem_takeWhile_imp (List.mem_reverse.1 mem)
  · intro c first
    refine stops_dropWhile isBlank chars c ?_
    show middle.head? = some c
    rw [whole, List.head?_append, Option.mem_def.1 first]
    rfl
  · intro c last
    rw [trimEnd, List.getLast?_reverse] at last
    exact stops_dropWhile isBlank middle.reverse c last

/-- A text has no other core than the one that trimming finds. -/
theorem Trims.eq {chars core : List Char} (trims : Trims chars core) :
    trimEnd (trimStart chars) = core := by
  obtain ⟨front, back, rfl, blankFront, blankBack⟩ := trims.around
  cases core with
  | nil =>
      have blank : ∀ c ∈ front ++ [] ++ back, isBlank c = true := by
        simpa [or_imp, forall_and] using ⟨blankFront, blankBack⟩
      rw [trimStart, List.dropWhile_eq_nil_iff.2 blank]
      rfl
  | cons first core =>
      have start : Stops isBlank (first :: core ++ back) :=
        (stops_cons isBlank first (core ++ back)).2 (trims.first first rfl)
      have stop : Stops isBlank (first :: core).reverse := by
        intro c last
        rw [List.head?_reverse] at last
        exact trims.last c last
      have blank : ∀ c ∈ back.reverse, isBlank c = true :=
        fun c mem => blankBack c (List.mem_reverse.1 mem)
      rw [trimStart, List.append_assoc, (scan_append blankFront start).2, trimEnd,
        List.reverse_append, (scan_append blank stop).2, List.reverse_reverse]

/-- What does not end with a blank has blanks before its core only. -/
theorem Trims.blanks_append {chars core : List Char} (trims : Trims chars core)
    (last : ∀ c ∈ chars.getLast?, isBlank c = false) :
    ∃ blanks, chars = blanks ++ core ∧ ∀ c ∈ blanks, isBlank c = true := by
  obtain ⟨front, back, rfl, blankFront, blankBack⟩ := trims.around
  rcases List.eq_nil_or_concat back with rfl | ⟨others, c, rfl⟩
  · exact ⟨front, List.append_nil _, blankFront⟩
  · have solid : isBlank c = false := last c (by simp)
    rw [blankBack c (by simp)] at solid
    cases solid

end MediaHarvest.Text
