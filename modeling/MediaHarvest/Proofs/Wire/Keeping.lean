import MediaHarvest.Proofs.Except
import MediaHarvest.Wire.Message

/-!
# What reading keeps

What the empty message satisfies and every field keeps holds of whatever is read.  A field keeps
what the values that it sets do not disturb.
-/

namespace MediaHarvest.Wire

/-- Whenever a step gives a value, it satisfies what the one before did. -/
def Keeps {α : Type} (step : α → Reader α) (holds : α → Prop) : Prop :=
  ∀ ⦃before bytes after rest⦄, holds before → step before bytes = .ok (after, rest) → holds after

section Steps

variable {α : Type} {step : α → Reader α} {holds : α → Prop}

theorem Keeps.readWhile (keeps : Keeps step holds) (limit fuel : Nat) :
    Keeps (readWhile limit step fuel) holds := by
  induction fuel with
  | zero =>
      intro before bytes after rest _ read
      cases read
  | succ fuel ih =>
      intro before bytes after rest held read
      rw [Wire.readWhile] at read
      split at read
      · cases read
        exact held
      · obtain ⟨⟨middle, left⟩, first, others⟩ := bind_eq_ok_iff.1 read
        exact ih (keeps held first) others

theorem Keeps.readParts (keeps : Keeps step holds) : Keeps (readParts step) holds := by
  intro before bytes after rest held read
  obtain ⟨⟨length, content⟩, _, read⟩ := bind_eq_ok_iff.1 read
  dsimp only at read
  split at read
  · cases read
  · obtain ⟨⟨value, left⟩, parts, read⟩ := bind_eq_ok_iff.1 read
    dsimp only at read
    split at read
    · cases read
      exact keeps.readWhile _ _ held parts
    · cases read

end Steps

/-- Reading a field keeps what holds of a message. -/
def Field.Keeps {μ : Type} (field : Field μ) (holds : μ → Prop) : Prop :=
  ∀ depth form, Wire.Keeps (field.read depth form) holds

namespace Message

variable {μ : Type} {message : Message μ} {holds : μ → Prop}

theorem readField_keeps (keeps : ∀ field ∈ message.fields, field.Keeps holds) (depth : Nat) :
    Keeps (message.readField depth) holds := by
  intro before bytes after rest held read
  obtain ⟨⟨⟨number, form⟩, left⟩, _, read⟩ := bind_eq_ok_iff.1 read
  dsimp only at read
  split at read
  · next field found =>
    exact keeps field (List.mem_of_find?_eq_some found) depth form held
      (mapError_eq_ok_iff.1 read)
  · obtain ⟨left, _, read⟩ := bind_eq_ok_iff.1 read
    cases read
    exact held

/-- What the empty message satisfies and every field keeps holds of the messages that are read. -/
theorem read_holds (keeps : ∀ field ∈ message.fields, field.Keeps holds)
    (empty : holds message.empty) {bytes : Bytes} {value : μ}
    (read : message.read bytes = .ok value) : holds value := by
  obtain ⟨⟨value, left⟩, fields, read⟩ := bind_eq_ok_iff.1 read
  cases read
  exact (readField_keeps keeps _).readWhile _ _ empty fields

end Message

namespace Field

variable {μ ν : Type} {number : Nat} {name : String} {holds : μ → Prop}

theorem text_keeps {get : μ → String} {set : μ → String → μ}
    (kept : ∀ message text, holds message → holds (set message text)) :
    (text number name get set).Keeps holds := by
  intro depth form before bytes after rest held read
  obtain ⟨⟨value, left⟩, _, read⟩ := bind_eq_ok_iff.1 read
  cases read
  exact kept _ _ held

theorem optionalText_keeps {get : μ → Option String} {set : μ → String → μ}
    (kept : ∀ message text, holds message → holds (set message text)) :
    (optionalText number name get set).Keeps holds := by
  intro depth form before bytes after rest held read
  obtain ⟨⟨value, left⟩, _, read⟩ := bind_eq_ok_iff.1 read
  cases read
  exact kept _ _ held

theorem numeral_keeps {α : Type} [DecidableEq α] {zero : α} {toWord : α → UInt64}
    {ofWord : UInt64 → α} {get : μ → α} {set : μ → α → μ}
    (kept : ∀ message word, holds message → holds (set message (ofWord word))) :
    (numeral zero toWord ofWord number name get set).Keeps holds := by
  intro depth form before bytes after rest held read
  obtain ⟨_, _, read⟩ := bind_eq_ok_iff.1 read
  obtain ⟨⟨word, left⟩, _, read⟩ := bind_eq_ok_iff.1 read
  cases read
  exact kept _ _ held

theorem codes_keeps {get : μ → List Int32} {set : μ → List Int32 → μ}
    (kept : ∀ message codes, holds message → holds (set message codes)) :
    (codes number name get set).Keeps holds := by
  intro depth form before bytes after rest held read
  dsimp only [codes] at read
  split at read
  · obtain ⟨⟨values, left⟩, _, read⟩ := bind_eq_ok_iff.1 read
    cases read
    exact kept _ _ held
  · obtain ⟨_, _, read⟩ := bind_eq_ok_iff.1 read
    obtain ⟨⟨values, left⟩, _, read⟩ := bind_eq_ok_iff.1 read
    cases read
    exact kept _ _ held

theorem map_keeps {get : μ → SortedMap String String} {set : μ → SortedMap String String → μ}
    (kept : ∀ message map, holds message → holds (set message map)) :
    (map number name get set).Keeps holds := by
  intro depth form before bytes after rest held read
  obtain ⟨_, _, read⟩ := bind_eq_ok_iff.1 read
  obtain ⟨⟨item, left⟩, _, read⟩ := bind_eq_ok_iff.1 read
  cases read
  exact kept _ _ held

/-- A nested message is read onto what is there, so both have to satisfy what is kept. -/
theorem message_keeps {inner : Message ν} {get : μ → Option ν} {set : μ → ν → μ} (within : ν → Prop)
    (keeps : ∀ field ∈ inner.fields, field.Keeps within) (empty : within inner.empty)
    (part : ∀ message value, holds message → get message = some value → within value)
    (kept : ∀ message value, holds message → within value → holds (set message value)) :
    (message number name inner get set).Keeps holds := by
  intro depth form before bytes after rest held read
  obtain ⟨_, _, read⟩ := bind_eq_ok_iff.1 read
  obtain ⟨_, _, read⟩ := bind_eq_ok_iff.1 read
  obtain ⟨⟨value, left⟩, parts, read⟩ := bind_eq_ok_iff.1 read
  have start : within ((get before).getD inner.empty) := by
    cases found : get before with
    | none => exact empty
    | some value => exact part before value held found
  cases read
  exact kept _ _ held ((Message.readField_keeps keeps _).readParts start parts)

end Field

end MediaHarvest.Wire
