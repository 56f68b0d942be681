import MediaHarvest.Settings.Loading
import MediaHarvest.Proofs.Settings.Sections
import MediaHarvest.Proofs.Settings.VariablesFile

/-!
# Layers of settings

Settings come from a document, from a file of variables and from the environment.  Every key has what
one of these gives for it, or its default, and nothing that is given for another key matters.  The
environment comes before the file and the file before the document, as long as the file does not
spell a variable differently from the environment: the names of variables do not depend on case when
they are read as settings, but do when the file is added to the environment.
-/

namespace MediaHarvest

open Given

/-! ## Sources -/

/-- Where settings come from. -/
structure SettingSources where
  document : Option SettingsDocument
  /-- The text of the file of variables. -/
  file : Option String
  environment : Variables

namespace SettingSources

/-- The variables that are set when the file was added. -/
def vars (sources : SettingSources) : Variables :=
  match sources.file with
  | none => sources.environment
  | some text => VariablesFile.extend text sources.environment

/-- The settings that the sources give, before they are checked. -/
def settings (sources : SettingSources) : Except LoadError Settings := do
  let given ← Settings.gather sources.document sources.vars
  (Settings.read given).mapError .setting

theorem load_eq (sources : SettingSources) :
    Settings.load sources.document sources.vars =
      sources.settings >>= fun settings => settings.check.mapError .unfit := by
  rw [Settings.load, settings]
  cases Settings.gather sources.document sources.vars <;> rfl

/-! ## Layers -/

/-- The variables that the file adds. -/
def added (sources : SettingSources) : Variables :=
  match sources.file with
  | none => []
  | some text => VariablesFile.added text sources.environment

theorem vars_eq (sources : SettingSources) :
    sources.vars = sources.environment ++ sources.added := by
  rw [vars, added]
  split
  · rw [List.append_nil]
  · exact VariablesFile.extend_eq ..

/-- What the document gives by itself. -/
def documented (sources : SettingSources) : Given :=
  match sources.document with
  | none => .empty
  | some document =>
      match Toml.parse? document.text with
      | none => .empty
      | some table => Given.empty.withDocument document.name table

/-- What the document gives for a key. -/
def fromDocument (sources : SettingSources) (part name : String) : Option Given :=
  sources.documented.at? part name

/-- What the file gives for a key. -/
def fromFile (sources : SettingSources) (part name : String) : Option Given :=
  ofVariables sources.added part name

/-- What the environment gives for a key. -/
def fromEnvironment (sources : SettingSources) (part name : String) : Option Given :=
  ofVariables sources.environment part name

/-- What is taken for a key. -/
def taken (sources : SettingSources) (part name : String) : Option Given :=
  (sources.fromFile part name).or
    ((sources.fromEnvironment part name).or (sources.fromDocument part name))

/-- The document can be read and has sections, variables give settings of sections, and what is given
for a key is of its kind. -/
structure WellFormed (sources : SettingSources) : Prop where
  document : ∀ document, sources.document = some document →
    ∃ table, Toml.parse? document.text = some table ∧ Sections table
  vars : InSections sources.vars
  kinds : ∀ part ∈ Settings.parts, ∀ key ∈ part.keys, ∀ given,
    sources.fromDocument part.name key.name = some given ∨
      sources.fromFile part.name key.name = some given ∨
      sources.fromEnvironment part.name key.name = some given →
    ∃ value, key.read given = .ok value

variable {sources other : SettingSources} {settings theirs : Settings}

/-- All that is given is the document under the variables. -/
theorem WellFormed.gather (wellFormed : sources.WellFormed) :
    Settings.gather sources.document sources.vars =
        .ok (sources.documented.withVariables sources.vars) ∧
      sources.documented.Sectioned := by
  rw [Settings.gather.eq_def, documented]
  cases found : sources.document with
  | none => exact ⟨rfl, sectioned_empty⟩
  | some document =>
      obtain ⟨table, parsed, sections⟩ := wellFormed.document document found
      dsimp only
      rw [parsed]
      exact ⟨rfl, sectioned_withDocument sections _ sectioned_empty⟩

/-- For every key it is what is taken for that. -/
theorem WellFormed.at?_vars (wellFormed : sources.WellFormed) (part name : String) :
    (sources.documented.withVariables sources.vars).at? part name =
      sources.taken part name := by
  rw [at?_withVariables wellFormed.vars, vars_eq, ofVariables_append, Option.or_assoc]
  rfl

/-- What is taken is of the kind of its key. -/
theorem WellFormed.takes (wellFormed : sources.WellFormed) {part : SettingPart}
    (mem : part ∈ Settings.parts) {key : SettingKey part.Section} (mem' : key ∈ part.keys) :
    ∃ value, part.Takes key (sources.taken part.name key.name) value := by
  have kinds := wellFormed.kinds part mem key mem'
  rw [taken]
  cases file : sources.fromFile part.name key.name with
  | some given => exact kinds given (.inr (.inl file))
  | none =>
      rw [Option.none_or]
      cases environment : sources.fromEnvironment part.name key.name with
      | some given => exact kinds given (.inr (.inr environment))
      | none =>
          rw [Option.none_or]
          cases document : sources.fromDocument part.name key.name with
          | some given => exact kinds given (.inl document)
          | none => exact ⟨_, rfl⟩

/-- Every key has what is taken for it, or its default. -/
theorem WellFormed.exists_settings (wellFormed : sources.WellFormed) :
    ∃ settings, sources.settings = .ok settings ∧
      ∀ part ∈ Settings.parts, ∀ key ∈ part.keys,
        part.Takes key (sources.taken part.name key.name) (key.value (part.value settings)) := by
  obtain ⟨gathered, sectioned⟩ := wellFormed.gather
  have groups := sectioned_withVariables wellFormed.vars sectioned
  have read := Settings.read_of_sectioned groups
  simp only [wellFormed.at?_vars] at read
  obtain ⟨settings, done, each⟩ := read fun part mem key mem' => wellFormed.takes mem mem'
  refine ⟨settings, ?_, each⟩
  rw [SettingSources.settings, gathered, ok_bind, done]
  rfl

/-! ## The order of the layers -/

/-- The file does not give a key by another name than the environment. -/
def SpelledAlike (sources : SettingSources) (part name : String) : Prop :=
  ∀ entry ∈ sources.environment, ∀ other ∈ sources.added,
    target? entry.1 = some [.name part, .name name] →
      target? other.1 = some [.name part, .name name] → entry.1 = other.1

/-- Then it does not give the key at all if the environment does. -/
theorem SpelledAlike.fromFile_eq_none {part name : String}
    (alike : sources.SpelledAlike part name) {given : Given}
    (found : sources.fromEnvironment part name = some given) :
    sources.fromFile part name = none := by
  refine ofVariables_eq_none_iff.2 fun other mem target => ?_
  have some : ¬ ∀ entry ∈ sources.environment, target? entry.1 ≠ some [.name part, .name name] := by
    rw [← ofVariables_eq_none_iff, ← fromEnvironment, found]
    nofun
  simp only [not_forall, not_not] at some
  obtain ⟨entry, inside, target'⟩ := some
  have same := alike entry inside other mem target' target
  rw [added] at mem
  split at mem
  · cases mem
  · have missing := VariablesFile.lookup_of_mem_added mem
    rw [List.lookup_eq_none_iff] at missing
    have differ := missing entry inside
    rw [same] at differ
    simp at differ

/-- So the environment comes before the file. -/
theorem SpelledAlike.taken_eq {part name : String} (alike : sources.SpelledAlike part name) :
    sources.taken part name = (sources.fromEnvironment part name).or
      ((sources.fromFile part name).or (sources.fromDocument part name)) := by
  rw [taken]
  cases found : sources.fromEnvironment part name with
  | none => rw [Option.none_or, Option.none_or]
  | some given => rw [alike.fromFile_eq_none found, Option.none_or]; rfl

/-- What the file gives for a key if nothing else is set. -/
def fromFileAlone (sources : SettingSources) (part name : String) : Option Given :=
  { sources with environment := [] : SettingSources }.fromFile part name

/-- No value of the file stands for another variable. -/
def SignFree (sources : SettingSources) : Prop :=
  ∀ text, sources.file = some text → VariablesFile.SignFree text.toList

/-- Then the file gives for a key what it gives alone, unless the environment gives the key. -/
theorem SignFree.fromFile_eq (free : sources.SignFree) {part name : String}
    (absent : sources.fromEnvironment part name = none) :
    sources.fromFile part name = sources.fromFileAlone part name := by
  rw [fromFileAlone, fromFile, fromFile, added, added]
  cases found : sources.file with
  | none => rfl
  | some text =>
      dsimp only
      rw [VariablesFile.added_signFree (free text found)]
      -- a variable that is left out is set in the environment, so it gives the key there
      refine ofVariables_filter fun entry _ target => Option.isNone_iff_eq_none.2 ?_
      rw [List.lookup_eq_none_iff]
      intro known mem
      refine bne_iff_ne.2 fun same => ?_
      exact ofVariables_eq_none_iff.1 absent known mem (same ▸ target)

/-! ## What the sources say of a key -/

/-- The values of the document for a key. -/
def documentValues (sources : SettingSources) (part name : String) : List Given :=
  match sources.document with
  | none => []
  | some document =>
      match Toml.parse? document.text with
      | none => []
      | some table => (valuesAt table part name).map (ofToml (some document.name))

/-- What the lines of the file say by themselves. -/
def said (sources : SettingSources) : Variables :=
  match sources.file with
  | none => []
  | some text => VariablesFile.said (VariablesFile.fileLines text)

/-- The variables that give a key. -/
def own (part name : String) (vars : Variables) : Variables :=
  VariablesFile.kept (fun variableName => target? variableName = some [.name part, .name name]) vars

theorem ofVariables_own (vars : Variables) (part name : String) :
    ofVariables (own part name vars) part name = ofVariables vars part name :=
  ofVariables_filter fun _ _ => decide_eq_true

/-- The document gives its values for the key. -/
theorem WellFormed.fromDocument_eq (wellFormed : sources.WellFormed) (part name : String) :
    sources.fromDocument part name = pile none (sources.documentValues part name) := by
  rw [fromDocument, documented, documentValues]
  cases found : sources.document with
  | none => rfl
  | some document =>
      obtain ⟨table, parsed, sections⟩ := wellFormed.document document found
      dsimp only
      rw [parsed]
      exact at?_withDocument sections _ _ _ _

/-- The file gives what its lines say of the key, unless the environment has that variable. -/
theorem SignFree.fromFile_own (free : sources.SignFree) (part name : String) :
    sources.fromFile part name = ofVariables (VariablesFile.unset (own part name sources.environment)
      (VariablesFile.firsts (own part name sources.said))) part name := by
  have whole : sources.added =
      VariablesFile.unset sources.environment (VariablesFile.firsts sources.said) := by
    rw [added, said]
    cases found : sources.file with
    | none => rfl
    | some text => exact VariablesFile.added_eq_unset (free text found) _
  rw [fromFile, ← ofVariables_own, whole, own, VariablesFile.kept_unset, VariablesFile.kept_firsts]
  rfl

/-- Two sources say the same of a key. -/
structure SaysAlike (sources other : SettingSources) (part name : String) : Prop where
  document : other.documentValues part name = sources.documentValues part name
  file : own part name other.said = own part name sources.said
  environment : own part name other.environment = own part name sources.environment

/-- Then the same is taken of them for the key. -/
theorem SaysAlike.taken_eq {part name : String} (alike : sources.SaysAlike other part name)
    (wellFormed : sources.WellFormed) (wellFormed' : other.WellFormed) (free : sources.SignFree)
    (free' : other.SignFree) : other.taken part name = sources.taken part name := by
  have environment : other.fromEnvironment part name = sources.fromEnvironment part name := by
    rw [fromEnvironment, fromEnvironment, ← ofVariables_own, alike.environment, ofVariables_own]
  rw [taken, taken, free.fromFile_own, free'.fromFile_own, alike.file, alike.environment,
    environment, wellFormed.fromDocument_eq, wellFormed'.fromDocument_eq, alike.document]

/-- Settings are those that the sources give, layer by layer. -/
structure Gives (sources : SettingSources) (settings : Settings) : Prop where
  given : sources.settings = .ok settings
  /-- They are loaded if they fit together. -/
  loaded : Settings.load sources.document sources.vars = settings.check.mapError .unfit
  /-- A key has what is given for it, or its default. -/
  taken : ∀ part ∈ Settings.parts, ∀ key ∈ part.keys,
    part.Takes key (sources.taken part.name key.name) (key.value (part.value settings))
  /-- The environment comes first, then the file and then the document, for a key that the file does
  not spell differently. -/
  layered : ∀ part ∈ Settings.parts, ∀ key ∈ part.keys,
    sources.SpelledAlike part.name key.name →
      part.Takes key ((sources.fromEnvironment part.name key.name).or
        ((sources.fromFile part.name key.name).or (sources.fromDocument part.name key.name)))
        (key.value (part.value settings))
  /-- What the file gives does not depend on the environment if no value in it stands for another
  variable. -/
  alone : sources.SignFree → ∀ part ∈ Settings.parts, ∀ key ∈ part.keys,
    sources.SpelledAlike part.name key.name →
      part.Takes key ((sources.fromEnvironment part.name key.name).or
        ((sources.fromFileAlone part.name key.name).or
          (sources.fromDocument part.name key.name)))
        (key.value (part.value settings))
  /-- What the document gives for a key are its values for that key. -/
  documented : ∀ part name, sources.fromDocument part name =
    pile none (sources.documentValues part name)
  /-- Other sources of which the same is taken for a key give it the same value. -/
  independent : ∀ other : SettingSources, other.WellFormed →
    ∃ theirs, other.settings = .ok theirs ∧
      ∀ part ∈ Settings.parts, ∀ key ∈ part.keys,
        other.taken part.name key.name = sources.taken part.name key.name →
          key.value (part.value theirs) = key.value (part.value settings)
  /-- Other sources that say the same of a key give it the same value, whatever they say of other
  keys, if no values in files stand for other variables. -/
  apart : sources.SignFree → ∀ other : SettingSources, other.WellFormed → other.SignFree →
    ∃ theirs, other.settings = .ok theirs ∧
      ∀ part ∈ Settings.parts, ∀ key ∈ part.keys,
        sources.SaysAlike other part.name key.name →
          key.value (part.value theirs) = key.value (part.value settings)

/-- Sources that are well formed give settings, and every key has what is given for it by the first
layer that gives it. -/
theorem WellFormed.gives (wellFormed : sources.WellFormed) :
    ∃ settings, sources.Gives settings := by
  obtain ⟨settings, given, takes⟩ := wellFormed.exists_settings
  have layered (part : SettingPart) (mem : part ∈ Settings.parts) (key : SettingKey part.Section)
      (mem' : key ∈ part.keys) (alike : sources.SpelledAlike part.name key.name) :
      part.Takes key ((sources.fromEnvironment part.name key.name).or
        ((sources.fromFile part.name key.name).or (sources.fromDocument part.name key.name)))
        (key.value (part.value settings)) := by
    rw [← alike.taken_eq]
    exact takes part mem key mem'
  have independent (other : SettingSources) (wellFormed' : other.WellFormed) :
      ∃ theirs, other.settings = .ok theirs ∧
        ∀ part ∈ Settings.parts, ∀ key ∈ part.keys,
          other.taken part.name key.name = sources.taken part.name key.name →
            key.value (part.value theirs) = key.value (part.value settings) := by
    obtain ⟨theirs, given', takes'⟩ := wellFormed'.exists_settings
    refine ⟨theirs, given', fun part mem key mem' same => ?_⟩
    have value := takes' part mem key mem'
    rw [same] at value
    exact value.unique (takes part mem key mem')
  refine ⟨settings, given, ?_, takes, layered, ?_, wellFormed.fromDocument_eq, independent, ?_⟩
  · rw [load_eq, given, ok_bind]
  · intro free part mem key mem' alike
    have value := layered part mem key mem' alike
    cases found : sources.fromEnvironment part.name key.name with
    | some given =>
        rw [found] at value
        exact value
    | none =>
        rw [found, free.fromFile_eq found] at value
        exact value
  · intro free other wellFormed' free'
    obtain ⟨theirs, given', same⟩ := independent other wellFormed'
    refine ⟨theirs, given', fun part mem key mem' alike => same part mem key mem' ?_⟩
    exact alike.taken_eq wellFormed wellFormed' free free'

/-! ## Two runs -/

/-- Sources are well formed if the document is, and if every variable gives what can be read. -/
theorem wellFormed_of_vars
    (document : ∀ document, sources.document = some document →
      ∃ table, Toml.parse? document.text = some table ∧ Sections table)
    (inside : InSections sources.vars)
    (documented : ∀ part ∈ Settings.parts, ∀ key ∈ part.keys,
      (sources.fromDocument part.name key.name).all (fun given => (key.read given).isOk) = true)
    (set : ∀ entry ∈ sources.vars, ∀ part ∈ Settings.parts, ∀ key ∈ part.keys,
      target? entry.1 = some [.name part.name, .name key.name] →
        (key.read (scalar (some Given.environment) (scalarOf entry.2))).isOk = true) :
    sources.WellFormed := by
  have value {α : Type} {read : Except SettingError α} (ok : read.isOk = true) :
      ∃ value, read = .ok value := by
    cases read with
    | error error => cases ok
    | ok value => exact ⟨value, rfl⟩
  have among (entry : String × String) : entry ∈ sources.vars ↔
      entry ∈ sources.environment ∨ entry ∈ sources.added := by
    rw [vars_eq, List.mem_append]
  refine ⟨document, inside, fun part mem key mem' given layer => value ?_⟩
  rcases layer with found | found | found
  · have reads := documented part mem key mem'
    rw [found] at reads
    exact reads
  · obtain ⟨entry, added, target, rfl⟩ := exists_of_ofVariables found
    exact set entry ((among entry).2 (.inr added)) part mem key mem' target
  · obtain ⟨entry, own, target, rfl⟩ := exists_of_ofVariables found
    exact set entry ((among entry).2 (.inl own)) part mem key mem' target

/-- A variable that reads as an integer gives one. -/
theorem scalarOf_integer {text : String} {value : Int}
    (plain : text.toList.map Char.toLower ∉ ["true".toList, "false".toList])
    (reads : Number.integer64? text.toList = some value) : scalarOf text = .integer value := by
  have differ (word : String) (own : word.toList ∈ ["true".toList, "false".toList]) :
      Text.lower text ≠ word := by
    rintro rfl
    rw [Text.lower, String.toList_map] at own
    exact plain own
  rw [scalarOf]
  split
  · next same => exact absurd same (differ _ (by decide))
  · next same => exact absurd same (differ _ (by decide))
  · rw [reads]

/-- The nodes are read from what is taken for them. -/
theorem word_nodes {given : Given}
    (takes : ∀ part ∈ Settings.parts, ∀ key ∈ part.keys,
      part.Takes key (sources.taken part.name key.name) (key.value (part.value settings)))
    (taken : sources.taken "worker" "nodes" = some given) :
    SettingReader.word given = .ok settings.worker.nodes := by
  have nodes := takes _ (List.mem_cons_of_mem _ List.mem_cons_self) _ List.mem_cons_self
  dsimp only at nodes
  rw [taken] at nodes
  exact nodes

/-- The number of nodes is given by all layers, and two other settings by one each. -/
def layered : SettingSources where
  document := some ⟨"harvester.toml", "[worker]\nnodes = 2\npool_size = 16\n"⟩
  file := some "HARVESTER__WORKER__NODES=3\nHARVESTER__LIMITS__MAX_REDIRECTS=5\n"
  environment := [("HARVESTER__WORKER__NODES", "4")]

theorem gives_layered : layered.WellFormed ∧
    ∃ settings, layered.Gives settings ∧ settings.worker.nodes = 4 := by
  have vars : layered.vars =
      [("HARVESTER__WORKER__NODES", "4"), ("HARVESTER__LIMITS__MAX_REDIRECTS", "5")] := by
    decide +kernel
  have nodes : target? "HARVESTER__WORKER__NODES" = some [.name "worker", .name "nodes"] := by
    decide +kernel
  have redirects : target? "HARVESTER__LIMITS__MAX_REDIRECTS" =
      some [.name "limits", .name "max_redirects"] := by
    decide +kernel
  have four : scalarOf "4" = .integer 4 := scalarOf_integer (by decide) rfl
  have five : scalarOf "5" = .integer 5 := scalarOf_integer (by decide) rfl
  have wellFormed : layered.WellFormed := by
    apply wellFormed_of_vars
    · rintro document ⟨⟩
      have sections : ((Toml.parse? "[worker]\nnodes = 2\npool_size = 16\n").any
          fun table => decide (Sections table)) = true := by decide +kernel
      simpa only [Option.any_eq_true, decide_eq_true_eq] using sections
    · rw [vars]
      simp only [InSections, List.forall_mem_cons, InSection, nodes, redirects]
      refine ⟨?_, ?_, List.forall_mem_nil _⟩ <;> rintro steps ⟨⟩ <;> exact ⟨_, _, rfl⟩
    · decide +kernel
    · rw [vars]
      simp only [List.forall_mem_cons, nodes, redirects, four, five]
      refine ⟨?_, ?_, List.forall_mem_nil _⟩ <;> decide +kernel
  obtain ⟨settings, gives⟩ := wellFormed.gives
  refine ⟨wellFormed, settings, gives, ?_⟩
  obtain ⟨-, -, takes, -⟩ := gives
  have added : layered.added = [("HARVESTER__LIMITS__MAX_REDIRECTS", "5")] := by decide +kernel
  have taken : layered.taken "worker" "nodes" =
      some (scalar (some Given.environment) (.integer 4)) := by
    rw [SettingSources.taken, fromFile, added, ofVariables_singleton, redirects,
      if_neg (by decide), fromEnvironment, layered, ofVariables_singleton, if_pos nodes, four]
    rfl
  have value := word_nodes takes taken
  exact (Except.ok.inj value).symm

/-- The file spells a variable of the environment in lower case. -/
def clashing : SettingSources where
  document := none
  file := some "harvester__worker__nodes=3\n"
  environment := [("HARVESTER__WORKER__NODES", "4")]

/-- The file takes the place of the environment. -/
theorem overridden_by_file : clashing.WellFormed ∧
    (∃ settings, clashing.settings = .ok settings ∧ settings.worker.nodes = 3) ∧
    ∃ settings, { clashing with file := none : SettingSources }.settings = .ok settings ∧
      settings.worker.nodes = 4 := by
  have three : scalarOf "3" = .integer 3 := scalarOf_integer (by decide) rfl
  have four : scalarOf "4" = .integer 4 := scalarOf_integer (by decide) rfl
  have upper : target? "HARVESTER__WORKER__NODES" = some [.name "worker", .name "nodes"] := by
    decide +kernel
  have lower : target? "harvester__worker__nodes" = some [.name "worker", .name "nodes"] := by
    decide +kernel
  -- with either variable or both the sources are well formed
  have fit (sources : SettingSources) (document : sources.document = none)
      (vars : ∀ entry ∈ sources.vars, entry = ("HARVESTER__WORKER__NODES", "4") ∨
        entry = ("harvester__worker__nodes", "3")) : sources.WellFormed := by
    apply wellFormed_of_vars
    · rw [document]
      nofun
    · intro entry mem steps
      rcases vars entry mem with rfl | rfl
      · rw [upper]
        rintro ⟨⟩
        exact ⟨_, _, rfl⟩
      · rw [lower]
        rintro ⟨⟩
        exact ⟨_, _, rfl⟩
    · intro part _ key _
      rw [fromDocument, documented, document]
      rfl
    · intro entry mem
      rcases vars entry mem with rfl | rfl
      · simp only [upper, four]
        decide +kernel
      · simp only [lower, three]
        decide +kernel
  have both : clashing.WellFormed := fit clashing rfl (by decide +kernel)
  have one : { clashing with file := none : SettingSources }.WellFormed :=
    fit _ rfl (by decide +kernel)
  obtain ⟨settings, loaded, takes⟩ := both.exists_settings
  obtain ⟨settings', loaded', takes'⟩ := one.exists_settings
  refine ⟨both, ⟨settings, loaded, ?_⟩, settings', loaded', ?_⟩
  · have added : clashing.added = [("harvester__worker__nodes", "3")] := by decide +kernel
    have taken : clashing.taken "worker" "nodes" =
        some (scalar (some Given.environment) (.integer 3)) := by
      rw [SettingSources.taken, fromFile, added, ofVariables_singleton, if_pos lower, three]
      rfl
    have value := word_nodes takes taken
    exact (Except.ok.inj value).symm
  · have taken : { clashing with file := none : SettingSources }.taken "worker" "nodes" =
        some (scalar (some Given.environment) (.integer 4)) := by
      rw [SettingSources.taken, fromEnvironment, clashing, ofVariables_singleton, if_pos upper,
        four]
      rfl
    have value := word_nodes takes' taken
    exact (Except.ok.inj value).symm

end SettingSources

end MediaHarvest
