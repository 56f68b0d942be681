import MediaHarvest.Settings.Sources
import Mathlib.Data.List.Find

/-!
# Settings at their places

What is given for a setting stands in the group of its section.  Laying something over one setting
leaves every other one as it is, whatever stood in the way.  So of many variables the last one counts
that gives a setting, and if there is none, what was given before.
-/

namespace MediaHarvest.Given

/-! ## One change -/

/-- What is given for a setting of a section. -/
def at? (given : Given) (part name : String) : Option Given :=
  (given.entries.lookup part).bind fun inner => inner.entries.lookup name

variable {given : Given} {edit : Given → Given} {part name : String}

theorem entries_change (edit : Given → Given) (name : String) (rest : List Step) (given : Given) :
    (change edit (.name name :: rest) given).entries =
      changeEntry (change edit rest) name given.entries := by
  cases given <;> rfl

theorem lookup_change (edit : Given → Given) (name other : String) (rest : List Step)
    (given : Given) :
    (change edit (.name name :: rest) given).entries.lookup other =
      if other = name then some (change edit rest ((given.entries.lookup name).getD nothing))
      else given.entries.lookup other := by
  rw [entries_change]
  split
  · next same => rw [same, lookup_changeEntry_self]
  · next differ => exact lookup_changeEntry_ne _ differ _

/-- Where no section is, nothing is given for its settings. -/
theorem at?_eq_lookup (given : Given) (part name : String) :
    given.at? part name = ((given.entries.lookup part).getD nothing).entries.lookup name := by
  rw [at?]
  cases given.entries.lookup part <;> rfl

/-- Changing a setting changes no other one. -/
theorem at?_change (edit : Given → Given) (part name part' name' : String) (given : Given) :
    (change edit [.name part, .name name] given).at? part' name' =
      if part' = part ∧ name' = name then some (edit ((given.at? part name).getD nothing))
      else given.at? part' name' := by
  rw [at?, lookup_change]
  by_cases same : part' = part
  · subst same
    rw [if_pos rfl, Option.bind_some, lookup_change, ← at?_eq_lookup, ← at?_eq_lookup]
    simp only [true_and]
    rfl
  · rw [if_neg same, if_neg fun both => same both.1]
    rfl

/-! ## Groups of groups -/

/-- A group of settings. -/
def IsGroup (given : Given) : Prop := ∃ source entries, given = group source entries

/-- A group all of whose entries are groups. -/
structure Sectioned (given : Given) : Prop where
  whole : given.IsGroup
  parts : ∀ part inner, given.entries.lookup part = some inner → inner.IsGroup

theorem sectioned_empty : empty.Sectioned := ⟨⟨none, [], rfl⟩, nofun⟩

theorem isGroup_change (edit : Given → Given) (name : String) (rest : List Step) (given : Given) :
    (change edit (.name name :: rest) given).IsGroup := by
  cases given <;> exact ⟨_, _, rfl⟩

/-- What changes a section into a group, or a setting of it, leaves groups only. -/
theorem Sectioned.change (sectioned : given.Sectioned) {rest : List Step}
    (inner : ∀ given : Given, (change edit rest given).IsGroup) :
    (change edit (.name name :: rest) given).Sectioned where
  whole := isGroup_change ..
  parts := by
    intro part found
    rw [lookup_change]
    split
    · rintro ⟨⟩
      exact inner _
    · exact sectioned.parts part found

/-! ## Variables -/

/-- The place of the setting that a variable gives, if it gives one. -/
def target? (variableName : String) : Option (List Step) := (settingName? variableName).map place

/-- If the variable gives a setting, it gives one of a section. -/
def InSection (variableName : String) : Prop :=
  ∀ steps, target? variableName = some steps → ∃ part name, steps = [.name part, .name name]

/-- All variables that give settings give settings of sections. -/
def InSections (vars : Variables) : Prop := ∀ entry ∈ vars, InSection entry.1

/-- What the last variable says that gives a setting of a section. -/
def ofVariables (vars : Variables) (part name : String) : Option Given :=
  (vars.reverse.find? fun entry => target? entry.1 = some [.name part, .name name]).map
    fun entry => scalar (some environment) (scalarOf entry.2)

theorem ofVariables_append (first second : Variables) (part name : String) :
    ofVariables (first ++ second) part name =
      (ofVariables second part name).or (ofVariables first part name) := by
  rw [ofVariables, List.reverse_append, List.find?_append, Option.map_or]
  rfl

theorem ofVariables_singleton (entry : String × String) (part name : String) :
    ofVariables [entry] part name =
      if target? entry.1 = some [.name part, .name name] then
        some (scalar (some environment) (scalarOf entry.2))
      else none := by
  rw [ofVariables, List.reverse_singleton, List.find?_singleton]
  simp only [decide_eq_true_eq]
  split <;> rfl

/-- Only the variables matter that give the setting. -/
theorem ofVariables_eq_none_iff {vars : Variables} :
    ofVariables vars part name = none ↔
      ∀ entry ∈ vars, target? entry.1 ≠ some [.name part, .name name] := by
  simp [ofVariables]

theorem exists_of_ofVariables {vars : Variables} (found : ofVariables vars part name = some given) :
    ∃ entry ∈ vars, target? entry.1 = some [.name part, .name name] ∧
      given = scalar (some environment) (scalarOf entry.2) := by
  obtain ⟨entry, first, rfl⟩ := Option.map_eq_some_iff.1 found
  have target := List.find?_some first
  exact ⟨entry, List.mem_reverse.1 (List.mem_of_find?_eq_some first), by simpa using target, rfl⟩

/-- Variables that give other settings may be left out. -/
theorem ofVariables_filter {vars : Variables} {keep : String × String → Bool}
    (kept : ∀ entry ∈ vars, target? entry.1 = some [.name part, .name name] → keep entry = true) :
    ofVariables (vars.filter keep) part name = ofVariables vars part name := by
  rw [ofVariables, ofVariables, ← List.filter_reverse, List.find?_filter]
  congr 1
  refine List.find?_congr fun entry mem => ?_
  rw [decide_eq_decide]
  constructor
  · intro both
    exact of_decide_eq_true both.2
  · intro target
    exact ⟨kept entry (List.mem_reverse.1 mem) target, decide_eq_true target⟩

/-- A variable changes nothing but the setting that it gives. -/
theorem at?_withVariable {entry : String × String} (inside : InSection entry.1) (given : Given)
    (part name : String) :
    (given.withVariable entry).at? part name =
      (ofVariables [entry] part name).or (given.at? part name) := by
  rw [ofVariables_singleton, withVariable]
  cases text : settingName? entry.1 with
  | none =>
      rw [target?, text, if_neg nofun]
      rfl
  | some setting =>
      have own : target? entry.1 = some (place setting) := by rw [target?, text]; rfl
      obtain ⟨part', name', steps⟩ := inside _ own
      rw [own, steps]
      dsimp only
      rw [put, steps, at?_change]
      by_cases same : part = part' ∧ name = name'
      · rw [if_pos same, if_pos (by rw [same.1, same.2])]
        rfl
      · rw [if_neg same, if_neg]
        · rfl
        · rintro ⟨⟩
          exact same ⟨rfl, rfl⟩

theorem sectioned_withVariable {entry : String × String} (inside : InSection entry.1)
    (sectioned : given.Sectioned) : (given.withVariable entry).Sectioned := by
  rw [withVariable]
  cases text : settingName? entry.1 with
  | none => exact sectioned
  | some setting =>
      obtain ⟨part, name, steps⟩ := inside (place setting) (by rw [target?, text]; rfl)
      dsimp only
      rw [put, steps]
      exact sectioned.change (isGroup_change _ _ _)

/-- Of all variables the last one counts that gives the setting. -/
theorem at?_withVariables {vars : Variables} (inside : InSections vars) (given : Given)
    (part name : String) :
    (given.withVariables vars).at? part name =
      (ofVariables vars part name).or (given.at? part name) := by
  induction vars generalizing given with
  | nil => simp [withVariables, ofVariables]
  | cons entry rest ih =>
      obtain ⟨own, others⟩ := List.forall_mem_cons.1 inside
      calc (given.withVariables (entry :: rest)).at? part name
          = (ofVariables rest part name).or ((given.withVariable entry).at? part name) :=
            ih others (given.withVariable entry)
        _ = ((ofVariables rest part name).or (ofVariables [entry] part name)).or
              (given.at? part name) := by
            rw [at?_withVariable own, Option.or_assoc]
        _ = (ofVariables (entry :: rest) part name).or (given.at? part name) := by
            rw [← ofVariables_append, List.singleton_append]

theorem sectioned_withVariables {vars : Variables} (inside : InSections vars)
    (sectioned : given.Sectioned) : (given.withVariables vars).Sectioned := by
  induction vars generalizing given with
  | nil => exact sectioned
  | cons entry rest ih =>
      obtain ⟨own, others⟩ := List.forall_mem_cons.1 inside
      exact ih others (sectioned_withVariable own sectioned)

/-! ## Documents -/

/-- The entries of a document are sections: tables under plain names. -/
def Sections (table : Toml.Table) : Prop :=
  ∀ entry ∈ table.entries, place entry.1 = [.name entry.1] ∧
    ∃ form inner, entry.2 = .table form inner

instance (value : Toml.Value) : Decidable (∃ form inner, value = .table form inner) :=
  match value with
  | .table form inner => .isTrue ⟨form, inner, rfl⟩
  | .text _ | .integer _ | .real _ | .bool _ | .moment _ | .array .. => .isFalse nofun

instance : DecidablePred Sections := fun table =>
  inferInstanceAs (Decidable (∀ entry ∈ table.entries, place entry.1 = [.name entry.1] ∧
    ∃ form inner, entry.2 = .table form inner))

theorem mem_ofTomlEntries {source : Option String} {entries : List (String × Toml.Value)}
    {entry : String × Given} (mem : entry ∈ ofTomlEntries source entries) :
    ∃ value, (entry.1, value) ∈ entries ∧ entry.2 = ofToml source value := by
  induction entries with
  | nil =>
      rw [ofTomlEntries] at mem
      cases mem
  | cons first rest ih =>
      rw [ofTomlEntries] at mem
      rcases List.mem_cons.1 mem with rfl | later
      · exact ⟨first.2, List.mem_cons_self, rfl⟩
      · obtain ⟨value, inside, same⟩ := ih later
        exact ⟨value, List.mem_cons_of_mem _ inside, same⟩

/-- A group laid over anything is a group. -/
theorem isGroup_entriesLaidOver (entries : List (String × Given)) (whole : given.IsGroup) :
    (entriesLaidOver entries given).IsGroup := by
  induction entries generalizing given with
  | nil =>
      rw [entriesLaidOver]
      exact whole
  | cons entry rest ih =>
      rw [entriesLaidOver]
      exact ih (isGroup_change ..)

theorem isGroup_laidOver (source : Option String) (entries : List (String × Given))
    (earlier : Given) : (laidOver (group source entries) earlier).IsGroup := by
  cases earlier with
  | group source earlier =>
      rw [laidOver]
      exact isGroup_entriesLaidOver _ ⟨source, earlier, rfl⟩
  | _ =>
      rw [laidOver]
      · exact isGroup_entriesLaidOver _ ⟨none, [], rfl⟩
      · exact fun _ _ => nofun

/-- A document of sections gives groups of settings. -/
theorem sectioned_withDocument {table : Toml.Table} (sections : Sections table) (source : String)
    (sectioned : given.Sectioned) : (given.withDocument source table).Sectioned := by
  have groups : ∀ entry ∈ ofTomlEntries (some source) table.entries,
      place entry.1 = [.name entry.1] ∧ entry.2.IsGroup := by
    intro entry mem
    obtain ⟨value, inside, same⟩ := mem_ofTomlEntries mem
    obtain ⟨plain, form, inner, rfl⟩ := sections _ inside
    rw [same, ofToml]
    exact ⟨plain, _, _, rfl⟩
  rw [withDocument]
  generalize ofTomlEntries (some source) table.entries = entries at groups
  induction entries generalizing given with
  | nil => exact sectioned
  | cons entry rest ih =>
      obtain ⟨⟨plain, source, inner, group⟩, others⟩ := List.forall_mem_cons.1 groups
      refine ih ?_ others
      dsimp only
      rw [put, plain, group]
      exact sectioned.change (isGroup_laidOver source inner)

/-- The values of a document for a key of a section. -/
def valuesAt (table : Toml.Table) (part name : String) : List Toml.Value :=
  table.entries.flatMap fun entry =>
    match entry.2 with
    | .table _ inner =>
        if entry.1 = part then (inner.filter fun value => value.1 = name).map Prod.snd else []
    | _ => []

/-- What is given when values are laid over it, one after another. -/
def pile (given : Option Given) (values : List Given) : Option Given :=
  values.foldl (fun given value => some (laidOver value (given.getD nothing))) given

theorem pile_append (given : Option Given) (first second : List Given) :
    pile given (first ++ second) = pile (pile given first) second :=
  List.foldl_append

theorem lookup_entriesLaidOver (entries : List (String × Toml.Value)) (source : Option String)
    (given : Given) (name : String) :
    (entriesLaidOver (ofTomlEntries source entries) given).entries.lookup name =
      pile (given.entries.lookup name)
        (((entries.filter fun value => value.1 = name).map Prod.snd).map (ofToml source)) := by
  induction entries generalizing given with
  | nil => rw [ofTomlEntries, entriesLaidOver]; rfl
  | cons entry rest ih =>
      rw [ofTomlEntries, entriesLaidOver, ih, lookup_change, List.filter_cons]
      by_cases same : entry.1 = name
      · rw [if_pos same.symm, if_pos (decide_eq_true same), same]
        rfl
      · rw [if_neg (Ne.symm same), if_neg (by simpa using same)]

/-- A section adds its values. -/
theorem at?_put_section (inner : List (String × Toml.Value)) (source : Option String)
    (part part' name : String) (given : Given) :
    (put [.name part] (group source (ofTomlEntries source inner)) given).at? part' name =
      if part' = part then
        pile (given.at? part' name)
          (((inner.filter fun value => value.1 = name).map Prod.snd).map (ofToml source))
      else given.at? part' name := by
  rw [put, at?_eq_lookup, lookup_change]
  split
  · next same =>
    subst same
    rw [Option.getD_some, change, laidOver.eq_def]
    dsimp only
    rw [lookup_entriesLaidOver, at?_eq_lookup]
    cases (given.entries.lookup part').getD nothing <;> rfl
  · rw [at?_eq_lookup]

/-- For every key a document gives its own values, whatever it holds at other places. -/
theorem at?_withDocument {table : Toml.Table} (sections : Sections table) (source : String)
    (given : Given) (part name : String) :
    (given.withDocument source table).at? part name =
      pile (given.at? part name) ((valuesAt table part name).map (ofToml (some source))) := by
  rw [withDocument, valuesAt]
  rw [Sections] at sections
  generalize table.entries = entries at sections
  induction entries generalizing given with
  | nil => rw [ofTomlEntries]; rfl
  | cons entry rest ih =>
      obtain ⟨key, value⟩ := entry
      obtain ⟨⟨plain, form, inner, rfl⟩, others⟩ := List.forall_mem_cons.1 sections
      rw [ofTomlEntries, List.foldl_cons, ih _ others, List.flatMap_cons, List.map_append,
        pile_append]
      congr 1
      dsimp only
      rw [plain, ofToml, at?_put_section]
      by_cases same : part = key
      · rw [if_pos same, if_pos same.symm]
      · rw [if_neg same, if_neg (Ne.symm same)]
        rfl

end MediaHarvest.Given
