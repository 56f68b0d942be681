/-!
# Sequences of steps that may fail

A sequence gives a result exactly if its first step gives one and the second does from there.
-/

namespace MediaHarvest

universe u v

variable {ε : Type u} {α β : Type v}

@[simp]
theorem ok_bind (a : α) (next : α → Except ε β) : (Except.ok a >>= next) = next a := rfl

@[simp]
theorem error_bind (e : ε) (next : α → Except ε β) :
    ((Except.error e : Except ε α) >>= next) = .error e := rfl

@[simp]
theorem pure_eq_ok (a : α) : (pure a : Except ε α) = .ok a := rfl

theorem bind_eq_ok_iff {first : Except ε α} {next : α → Except ε β} {b : β} :
    (first >>= next) = .ok b ↔ ∃ a, first = .ok a ∧ next a = .ok b := by
  cases first with
  | ok a => simp
  | error e => simp

theorem mapError_eq_ok_iff {ε' : Type u} {first : Except ε α} {change : ε → ε'} {a : α} :
    first.mapError change = .ok a ↔ first = .ok a := by
  cases first with
  | ok other =>
      constructor
      · rintro ⟨⟩
        rfl
      · rintro ⟨⟩
        rfl
  | error e =>
      constructor
      · rintro ⟨⟩
      · rintro ⟨⟩

/-- Steps that undo a map give its list back. -/
theorem mapM_map_eq_ok {give : α → β} {take : β → Except ε α} (undone : ∀ a, take (give a) = .ok a)
    (list : List α) : (list.map give).mapM take = .ok list := by
  induction list with
  | nil => rfl
  | cons a list ih =>
      rw [List.map_cons, List.mapM_cons, undone, ok_bind, ih, ok_bind]
      rfl

/-! ## The first fault -/

/-- The fault of a condition, unless that holds. -/
def faultUnless (condition : Prop) [Decidable condition] (fault : ε) : List ε :=
  if condition then [] else [fault]

section Unless

variable {condition : Prop} [Decidable condition] {fault other : ε}

@[simp]
theorem faultUnless_eq_nil_iff : faultUnless condition fault = [] ↔ condition := by
  rw [faultUnless]
  split <;> simp [*]

@[simp]
theorem mem_faultUnless_iff :
    other ∈ faultUnless condition fault ↔ ¬ condition ∧ other = fault := by
  rw [faultUnless]
  split <;> simp [*]

end Unless

/-- A sequence of steps stops with the first of the given faults, and gives a result of which
something holds if there are none. -/
def StopsAt (faults : List ε) (holds : α → Prop) (steps : Except ε α) : Prop :=
  match faults with
  | [] => ∃ a, steps = .ok a ∧ holds a
  | fault :: _ => steps = .error fault

namespace StopsAt

variable {faults later : List ε} {holds : α → Prop} {holds' : β → Prop} {steps : Except ε α}

theorem ok {a : α} (same : holds a) : StopsAt ([] : List ε) holds (.ok a) := ⟨a, rfl, same⟩

theorem imp {other : α → Prop} (stopsAt : StopsAt faults holds steps)
    (weaker : ∀ a, holds a → other a) : StopsAt faults other steps := by
  cases faults with
  | nil =>
      obtain ⟨a, given, same⟩ := stopsAt
      exact ⟨a, given, weaker a same⟩
  | cons fault faults => exact stopsAt

/-- A step that tells whether a condition holds. -/
theorem of_condition {condition : Prop} [Decidable condition] {fault : ε}
    (met : condition → ∃ a, steps = .ok a ∧ holds a) (unmet : ¬ condition → steps = .error fault) :
    StopsAt (faultUnless condition fault) holds steps := by
  rw [faultUnless]
  split
  · next given => exact met given
  · next missing => exact unmet missing

/-- What comes second is reached only without a fault in what comes first. -/
theorem bind {next : α → Except ε β} (first : StopsAt faults holds steps)
    (second : ∀ a, holds a → StopsAt later holds' (next a)) :
    StopsAt (faults ++ later) holds' (steps >>= next) := by
  cases faults with
  | nil =>
      obtain ⟨a, rfl, same⟩ := first
      exact second a same
  | cons fault faults =>
      change steps = .error fault at first
      subst first
      rfl

/-- What comes last has no faults. -/
theorem last {give : α → β} (first : StopsAt faults holds steps)
    (same : ∀ a, holds a → holds' (give a)) :
    StopsAt faults holds' (steps >>= fun a => pure (give a)) := by
  rw [← List.append_nil faults]
  exact first.bind fun a given => ok (same a given)

/-- The first fault of a list is that of its first faulty element. -/
theorem mapM {faults : β → List ε} {give : α → β} {take : β → Except ε α}
    (each : ∀ b, StopsAt (faults b) (fun a => give a = b) (take b)) (list : List β) :
    StopsAt (list.flatMap faults) (fun taken => taken.map give = list) (list.mapM take) := by
  induction list with
  | nil => exact ok rfl
  | cons b list ih =>
      rw [List.flatMap_cons, List.mapM_cons]
      refine (each b).bind fun a same => ih.last fun taken rest => ?_
      rw [List.map_cons, same, rest]

theorem ok_iff (stopsAt : StopsAt faults holds steps) : (∃ a, steps = .ok a) ↔ faults = [] := by
  cases faults with
  | nil =>
      obtain ⟨a, given, _⟩ := stopsAt
      exact iff_of_true ⟨a, given⟩ rfl
  | cons fault faults =>
      change steps = .error fault at stopsAt
      simp [stopsAt]

theorem error_iff (stopsAt : StopsAt faults holds steps) (fault : ε) :
    steps = .error fault ↔ faults.head? = some fault := by
  cases faults with
  | nil =>
      obtain ⟨a, given, _⟩ := stopsAt
      simp [given]
  | cons first faults =>
      change steps = .error first at stopsAt
      simp [stopsAt]

theorem holds_of_ok (stopsAt : StopsAt faults holds steps) {a : α} (given : steps = .ok a) :
    holds a := by
  cases faults with
  | nil =>
      obtain ⟨_, again, same⟩ := stopsAt
      cases given.symm.trans again
      exact same
  | cons fault faults => cases given.symm.trans stopsAt

end StopsAt

end MediaHarvest
