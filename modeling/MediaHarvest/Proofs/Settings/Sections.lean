import MediaHarvest.Settings.Reading
import MediaHarvest.Proofs.Except
import MediaHarvest.Proofs.Settings.Places

/-!
# Sections and their keys

A section is described by its keys: each with its name, the value that it stands for and the way in
which that is read.  A section that is a group is read key by key, and so are the settings as a
whole.  A key that is not given has its default, whether the section is there or not.
-/

namespace MediaHarvest

open SettingReader

/-! ## Keys -/

/-- A key of a section. -/
structure SettingKey (σ : Type) where
  name : String
  Value : Type
  value : σ → Value
  read : SettingReader Value

namespace SettingKey

variable {σ : Type} {key : SettingKey σ} {standard : σ} {given : Option Given}
  {value other : key.Value}

/-- A value is what is given for a key, or the default if nothing is. -/
def Takes (key : SettingKey σ) (standard : σ) (given : Option Given) (value : key.Value) : Prop :=
  match given with
  | none => value = key.value standard
  | some given => key.read given = .ok value

/-- There is one such value at most. -/
theorem Takes.unique (takes : key.Takes standard given value)
    (takes' : key.Takes standard given other) : value = other := by
  cases given with
  | none => exact takes.trans takes'.symm
  | some given => exact Except.ok.inj (takes.symm.trans takes')

/-- In a group it is what the key is read as. -/
theorem Takes.field {source : Option String} {entries : List (String × Given)}
    (takes : key.Takes standard (entries.lookup key.name) value) (position : Nat) :
    field (.group source entries) position key.name key.read (key.value standard) = .ok value := by
  have whole : SettingReader.field (.group source entries) position key.name key.read
      (key.value standard) =
        match entries.lookup key.name with
        | none => .ok (key.value standard)
        | some given => (key.read given).mapError (.below key.name) := by
    rw [SettingReader.field]
    · dsimp only [Given.entries]
      cases entries.lookup key.name <;> rfl
    · exact fun _ _ => nofun
  rw [whole]
  cases found : entries.lookup key.name with
  | none =>
      rw [found] at takes
      exact congrArg Except.ok takes.symm
  | some given =>
      rw [found] at takes
      exact mapError_eq_ok_iff.2 takes

end SettingKey

/-- If each of the keys has a value in a group, the group is read as settings with these values. -/
def ReadsKeys {σ : Type} (keys : List (SettingKey σ)) (standard : σ) (read : SettingReader σ) :
    Prop :=
  ∀ source entries,
    (∀ key ∈ keys, ∃ value, key.Takes standard (entries.lookup key.name) value) →
    ∃ settings, read (.group source entries) = .ok settings ∧
      ∀ key ∈ keys, key.Takes standard (entries.lookup key.name) (key.value settings)

/-! ## Sections -/

/-- The keys of how reports are taken in. -/
def MasterSettings.keys : List (SettingKey MasterSettings) :=
  [⟨"query_timeout_ms", _, queryTimeoutMillis, word⟩,
    ⟨"max_concurrent_events", _, maxConcurrentEvents, word⟩,
    ⟨"event_channel_size", _, eventChannelSize, word⟩,
    ⟨"statistics_inbox_size", _, statisticsInboxSize, word⟩]

theorem MasterSettings.readsKeys : ReadsKeys keys standard read := by
  intro source entries takes
  simp only [keys, List.forall_mem_cons] at takes ⊢
  obtain ⟨⟨_, timeout⟩, ⟨_, events⟩, ⟨_, channel⟩, ⟨_, inbox⟩, _⟩ := takes
  refine ⟨⟨_, _, _, _⟩, ?_, timeout, events, channel, inbox, List.forall_mem_nil _⟩
  rw [read, asSection, ok_bind, timeout.field, ok_bind, events.field, ok_bind, channel.field,
    ok_bind, inbox.field]
  rfl

/-- The keys of how tasks are carried out. -/
def WorkerSettings.keys : List (SettingKey WorkerSettings) :=
  [⟨"nodes", _, nodes, word⟩,
    ⟨"pool_size", _, poolSize, word⟩,
    ⟨"channel_size", _, channelSize, word⟩,
    ⟨"response_type", _, sinkKind, choice "ResponseType" [.disk, .memory] SinkKind.name⟩,
    ⟨"path_to_save", _, folder, text⟩,
    ⟨"user_agent", _, agent, text⟩,
    ⟨"throughput_grace_ms", _, graceMillis, word⟩,
    ⟨"limit_check_interval_ms", _, intervalMillis, word⟩,
    ⟨"redirect_ceiling", _, redirectCeiling, word32⟩]

theorem WorkerSettings.readsKeys : ReadsKeys keys standard read := by
  intro source entries takes
  simp only [keys, List.forall_mem_cons] at takes ⊢
  obtain ⟨⟨_, nodes⟩, ⟨_, pool⟩, ⟨_, channel⟩, ⟨_, kind⟩, ⟨_, folder⟩, ⟨_, agent⟩, ⟨_, grace⟩,
    ⟨_, interval⟩, ⟨_, ceiling⟩, _⟩ := takes
  refine ⟨⟨_, _, _, _, _, _, _, _, _⟩, ?_, nodes, pool, channel, kind, folder, agent, grace,
    interval, ceiling, List.forall_mem_nil _⟩
  rw [read, asSection, ok_bind, nodes.field, ok_bind, pool.field, ok_bind, channel.field, ok_bind,
    kind.field, ok_bind, folder.field, ok_bind, agent.field, ok_bind, grace.field, ok_bind,
    interval.field, ok_bind, ceiling.field]
  rfl

/-- The keys of the limits of jobs that have none of their own. -/
def LimitSettings.keys : List (SettingKey LimitSettings) :=
  [⟨"connection_timeout_ms", _, connectionMillis, word⟩,
    ⟨"min_throughput", _, throughputFloor, size⟩,
    ⟨"max_retrieval_time_ms", _, retrievalMillis, word⟩,
    ⟨"max_redirects", _, redirects, word32⟩,
    ⟨"max_processing_time_ms", _, processingMillis, word⟩,
    ⟨"max_content_size", _, contentSize, size⟩]

theorem LimitSettings.readsKeys : ReadsKeys keys standard read := by
  intro source entries takes
  simp only [keys, List.forall_mem_cons] at takes ⊢
  obtain ⟨⟨_, connection⟩, ⟨_, floor⟩, ⟨_, retrieval⟩, ⟨_, redirects⟩, ⟨_, processing⟩, ⟨_, size⟩,
    _⟩ := takes
  refine ⟨⟨_, _, _, _, _, _⟩, ?_, connection, floor, retrieval, redirects, processing, size,
    List.forall_mem_nil _⟩
  rw [read, asSection, ok_bind, connection.field, ok_bind, floor.field, ok_bind, retrieval.field,
    ok_bind, redirects.field, ok_bind, processing.field, ok_bind, size.field]
  rfl

/-- The keys of where the stores lie. -/
def StoreSettings.keys : List (SettingKey StoreSettings) :=
  [⟨"path", _, ledger, text⟩, ⟨"queue_path", _, backlog, text⟩]

theorem StoreSettings.readsKeys : ReadsKeys keys standard read := by
  intro source entries takes
  simp only [keys, List.forall_mem_cons] at takes ⊢
  obtain ⟨⟨_, ledger⟩, ⟨_, backlog⟩, _⟩ := takes
  refine ⟨⟨_, _⟩, ?_, ledger, backlog, List.forall_mem_nil _⟩
  rw [read, asSection, ok_bind, ledger.field, ok_bind, backlog.field]
  rfl

/-- The key of how long executions are kept. -/
def RetentionSettings.keys : List (SettingKey RetentionSettings) :=
  [⟨"statistics_ttl_days", _, days, word32⟩]

theorem RetentionSettings.readsKeys : ReadsKeys keys standard read := by
  intro source entries takes
  simp only [keys, List.forall_mem_cons] at takes ⊢
  obtain ⟨⟨_, days⟩, _⟩ := takes
  refine ⟨⟨_⟩, ?_, days, List.forall_mem_nil _⟩
  rw [read, asSection, ok_bind, days.field]
  rfl

/-- The key of what is logged. -/
def TelemetrySettings.keys : List (SettingKey TelemetrySettings) :=
  [⟨"log_filter", _, logFilter, text⟩]

theorem TelemetrySettings.readsKeys : ReadsKeys keys standard read := by
  intro source entries takes
  simp only [keys, List.forall_mem_cons] at takes ⊢
  obtain ⟨⟨_, filter⟩, _⟩ := takes
  refine ⟨⟨_⟩, ?_, filter, List.forall_mem_nil _⟩
  rw [read, asSection, ok_bind, filter.field]
  rfl

/-! ## All settings -/

/-- A section of the settings, with its keys, by which it is read. -/
structure SettingPart where
  name : String
  Section : Type
  value : Settings → Section
  read : SettingReader Section
  keys : List (SettingKey Section)
  readsKeys : ReadsKeys keys (value .standard) read

/-- The sections. -/
def Settings.parts : List SettingPart :=
  [⟨"master", _, master, MasterSettings.read, _, MasterSettings.readsKeys⟩,
    ⟨"worker", _, worker, WorkerSettings.read, _, WorkerSettings.readsKeys⟩,
    ⟨"limits", _, limits, LimitSettings.read, _, LimitSettings.readsKeys⟩,
    ⟨"ledger", _, stores, StoreSettings.read, _, StoreSettings.readsKeys⟩,
    ⟨"retention", _, retention, RetentionSettings.read, _, RetentionSettings.readsKeys⟩,
    ⟨"telemetry", _, telemetry, TelemetrySettings.read, _, TelemetrySettings.readsKeys⟩]

namespace SettingPart

/-- A value is what is given for a key of the section, or the default. -/
def Takes (part : SettingPart) (key : SettingKey part.Section) (given : Option Given)
    (value : key.Value) : Prop :=
  key.Takes (part.value .standard) given value

variable {part : SettingPart} {given : Given}

/-- A section of given settings has the values of its keys, whether it is there or not. -/
theorem exists_field (sectioned : given.Sectioned)
    (takes : ∀ key ∈ part.keys, ∃ value, part.Takes key (given.at? part.name key.name) value) :
    ∃ settings, (∀ position, field given position part.name part.read (part.value .standard) =
        .ok settings) ∧
      ∀ key ∈ part.keys, part.Takes key (given.at? part.name key.name) (key.value settings) := by
  obtain ⟨source, entries, rfl⟩ := sectioned.whole
  let whole : SettingKey Settings := ⟨part.name, _, part.value, part.read⟩
  have reads {settings : part.Section}
      (takes : whole.Takes .standard (entries.lookup whole.name) settings) (position : Nat) :
      field (.group source entries) position part.name part.read (part.value .standard) =
        .ok settings := takes.field position
  cases found : entries.lookup part.name with
  | none =>
      refine ⟨part.value .standard, reads (by rw [found]; rfl), fun key mem => ?_⟩
      rw [Given.at?, Given.entries, found]
      rfl
  | some inner =>
      obtain ⟨source', entries', rfl⟩ := sectioned.parts part.name inner found
      have own (name : String) : Given.at? (.group source entries) part.name name =
          entries'.lookup name := by
        rw [Given.at?, Given.entries, found]
        rfl
      simp only [own] at takes ⊢
      obtain ⟨settings, read, each⟩ := part.readsKeys source' entries' takes
      exact ⟨settings, reads (by rw [found]; exact read), each⟩

end SettingPart

/-- What is given in groups is read if all keys can be, and then every key has what is given for it,
or its default. -/
theorem Settings.read_of_sectioned {given : Given} (sectioned : given.Sectioned)
    (takes : ∀ part ∈ parts, ∀ key ∈ part.keys, ∃ value,
      part.Takes key (given.at? part.name key.name) value) :
    ∃ settings, Settings.read given = .ok settings ∧ ∀ part ∈ parts, ∀ key ∈ part.keys,
      part.Takes key (given.at? part.name key.name) (key.value (part.value settings)) := by
  have sections := fun part mem => SettingPart.exists_field sectioned (takes part mem)
  simp only [parts, List.forall_mem_cons] at sections ⊢
  obtain ⟨⟨_, master, each₁⟩, ⟨_, worker, each₂⟩, ⟨_, limits, each₃⟩, ⟨_, stores, each₄⟩,
    ⟨_, retention, each₅⟩, ⟨_, telemetry, each₆⟩, _⟩ := sections
  refine ⟨⟨_, _, _, _, _, _⟩, ?_, each₁, each₂, each₃, each₄, each₅, each₆,
    List.forall_mem_nil _⟩
  obtain ⟨source, entries, rfl⟩ := sectioned.whole
  have own : asSection "Config" (.group source entries) = .ok (.group source entries) := rfl
  rw [Settings.read, own, ok_bind]
  simp only [Settings.standard] at master worker limits stores retention telemetry
  rw [master, ok_bind, worker, ok_bind, limits, ok_bind, stores, ok_bind, retention, ok_bind,
    telemetry]
  rfl

end MediaHarvest
