import MediaHarvest.Json.Codec
import MediaHarvest.Proofs.Except

/-!
# What decoding can give

A property of everything that a codec gives.  Of a structure it is shown field by field: each field
contributes what its own codec, or its default, always satisfies.
-/

namespace MediaHarvest.Json

variable {α β σ : Type}

/-- Everything that a codec reads satisfies a property. -/
def Codec.Yields (codec : Codec α) (holds : α → Prop) : Prop :=
  ∀ ⦃source tree value⦄, codec.decode source tree = .ok value → holds value

theorem Codec.Yields.of_readText {codec : Codec α} {holds : α → Prop} (law : codec.Yields holds)
    {text : Bytes} {value : α} (given : codec.readText text = .ok value) : holds value := by
  rw [Codec.readText, Document.decode] at given
  obtain ⟨inner, decoded, given⟩ := bind_eq_ok_iff.1 given
  split at given
  · cases given
    exact law decoded
  · cases given

theorem yields_items {item : Tree → Except Refusal α} {holds : α → Prop}
    (law : ∀ tree value, item tree = .ok value → holds value) (trees : List Tree)
    {values : List α} (given : Decoder.items item trees = .ok values) :
    ∀ value ∈ values, holds value := by
  induction trees generalizing values with
  | nil =>
      cases given
      exact fun value mem => absurd mem List.not_mem_nil
  | cons tree rest ih =>
      rcases bind_eq_ok_iff.1 given with ⟨first, read, given⟩
      rcases bind_eq_ok_iff.1 given with ⟨others, more, given⟩
      cases given
      exact List.forall_mem_cons.2 ⟨law tree first read, ih more⟩

/-- The items of a list that was read satisfy what their codec yields. -/
theorem Codec.Yields.list {codec : Codec α} {holds : α → Prop} (law : codec.Yields holds) :
    codec.list.Yields fun values => ∀ value ∈ values, holds value := by
  intro source tree values given
  change Decoder.list codec.decode source tree = _ at given
  rw [Decoder.list.eq_def] at given
  split at given
  · rcases bind_eq_ok_iff.1 given with ⟨_, _, given⟩
    rcases bind_eq_ok_iff.1 given with ⟨inner, read, given⟩
    rcases bind_eq_ok_iff.1 given with ⟨_, _, given⟩
    cases given
    exact yields_items (fun tree value read => law read) _ read
  · rw [mismatch] at given
    rcases bind_eq_ok_iff.1 given with ⟨_, _, given⟩
    cases given

/-- Everything that a shape makes satisfies a property. -/
structure Shape.Yields (shape : Shape σ α) (holds : α → Prop) : Prop where
  /-- Made of the members of an object. -/
  named : ∀ {source find value}, shape.named source find = .ok value → holds value
  /-- Made of the items of a list. -/
  listed : ∀ {source missing position items value rest},
    shape.listed source missing position items = .ok (value, rest) → holds value

namespace Shape

/-- A field gives what its codec reads or its defaults. -/
theorem field_yields {name : String} {codec : Codec α} {get : σ → α} {absent short : Option α}
    {holds : α → Prop} (read : codec.Yields holds) (absentHolds : ∀ value ∈ absent, holds value)
    (shortHolds : ∀ value ∈ short, holds value) :
    (field name codec get absent short).Yields holds := by
  constructor
  · intro source find value made
    dsimp only [field] at made
    split at made
    · exact read made
    · next given =>
      cases made
      exact absentHolds _ rfl
    · cases made
  · intro source missing position items value rest made
    dsimp only [field] at made
    split at made
    · obtain ⟨given, decoded, made⟩ := bind_eq_ok_iff.1 made
      cases made
      exact read decoded
    · cases made
      exact shortHolds _ rfl
    · cases made

/-- A field without a default gives what its codec reads. -/
theorem required_yields {name : String} {codec : Codec α} {get : σ → α} {holds : α → Prop}
    (read : codec.Yields holds) : (required name codec get).Yields holds :=
  field_yields read (by rintro _ ⟨⟩) (by rintro _ ⟨⟩)

/-- A field about which nothing is said. -/
theorem field_yields_true {name : String} {codec : Codec α} {get : σ → α}
    {absent short : Option α} : (field name codec get absent short).Yields fun _ => True :=
  ⟨fun _ => trivial, fun _ => trivial⟩

/-- What is made of the first field satisfies what the values that the field gives bring about. -/
theorem Yields.map {shape : Shape σ α} {p : α → Prop} {q : β → Prop} (law : shape.Yields p)
    (f : α → β) (brings : ∀ value, p value → q (f value)) : (f <$> shape).Yields q := by
  constructor
  · intro source find value given
    change f <$> shape.named source find = _ at given
    cases found : shape.named source find with
    | error refusal =>
        rw [found] at given
        cases given
    | ok inner =>
        rw [found] at given
        cases given
        exact brings _ (law.named found)
  · intro source missing position items value rest given
    obtain ⟨⟨inner, left⟩, found, given⟩ := bind_eq_ok_iff.1 given
    cases given
    exact brings _ (law.listed found)

/-- What the fields so far bring about for every value of the next one holds of what is made with
it. -/
theorem Yields.seq {first : Shape σ (α → β)} {second : Shape σ α} {p : α → Prop} {q : β → Prop}
    (firstLaw : first.Yields fun f => ∀ value, p value → q (f value))
    (secondLaw : second.Yields p) : (first <*> second).Yields q := by
  constructor
  · intro source find value given
    obtain ⟨f, front, given⟩ := bind_eq_ok_iff.1 given
    obtain ⟨inner, back, given⟩ := bind_eq_ok_iff.1 given
    cases given
    exact firstLaw.named front _ (secondLaw.named back)
  · intro source missing position items value rest given
    obtain ⟨⟨f, left⟩, front, given⟩ := bind_eq_ok_iff.1 given
    obtain ⟨⟨inner, right⟩, back, given⟩ := bind_eq_ok_iff.1 given
    cases given
    exact firstLaw.listed front _ (secondLaw.listed back)

/-- A structure is what its shape makes. -/
theorem codec_yields {shape : Shape α α} {holds : α → Prop} (law : shape.Yields holds)
    {name : String} : (shape.codec name).Yields holds := by
  intro source tree value given
  change shape.decode name source tree = _ at given
  rw [decode.eq_def] at given
  split at given
  · obtain ⟨_, _, given⟩ := bind_eq_ok_iff.1 given
    obtain ⟨_, _, given⟩ := bind_eq_ok_iff.1 given
    obtain ⟨_, _, given⟩ := bind_eq_ok_iff.1 given
    exact law.named given
  · obtain ⟨_, _, given⟩ := bind_eq_ok_iff.1 given
    obtain ⟨⟨inner, rest⟩, found, given⟩ := bind_eq_ok_iff.1 given
    have same : inner = value := by
      dsimp only at given
      split at given
      · obtain ⟨_, _, given⟩ := bind_eq_ok_iff.1 given
        cases given
        rfl
      · split at given
        · obtain ⟨_, _, given⟩ := bind_eq_ok_iff.1 given
          cases given
          rfl
        · cases given
    exact same ▸ law.listed found
  · rw [mismatch] at given
    obtain ⟨_, _, given⟩ := bind_eq_ok_iff.1 given
    cases given

end Shape

end MediaHarvest.Json
