import MediaHarvest.Settings.Basic
import MediaHarvest.Settings.Given
import MediaHarvest.Text.Quoted

/-!
# Reading settings

Given values are read as settings.  Most scalars can be read as a number or as a text; a section
is a group, or a list of its settings in order.  Settings that are not given have their defaults.
-/

namespace MediaHarvest

open MediaHarvest.Number

/-- Why something given is no setting. -/
inductive SettingFault where
  /-- It cannot be read as what is expected. -/
  | unreadable (found : Given) (expected : String)
  /-- It has another form than what is expected. -/
  | misplaced (found : Given) (expected : String)
  | tooLarge (value : UInt64)
  /-- It is none of the names of a kind. -/
  | unknownName (kind name : String)
  | noName (kind : String)
  /-- It is a size below zero. -/
  | negativeSize
  | size (error : SizeError)
deriving Repr

/-- A faulty setting with its place. -/
structure SettingError where
  /-- The place; empty for the whole. -/
  place : String
  fault : SettingFault
deriving Repr

namespace SettingFault

/-- What was found where a value cannot be read. -/
def readText : Given → String
  | .nothing => "unit value"
  | .scalar _ (.bool value) => s!"boolean `{value}`"
  | .scalar _ (.integer value) => s!"64-bit integer `{value}`"
  | .scalar _ (.real value) => s!"floating point `{value.plainText}`"
  | .scalar _ (.text value) => "string " ++ Text.cite value
  | .list .. => "sequence"
  | .group .. => "map"

/-- What was found where something of another form is expected. -/
def formText : Given → String
  | .nothing => "unit value"
  | .scalar _ (.bool value) => s!"boolean `{value}`"
  | .scalar _ (.integer value) => s!"integer `{value}`"
  | .scalar _ (.real value) => s!"floating point `{value.pointedText}`"
  | .scalar _ (.text value) => "string " ++ Text.cite value
  | .list .. => "sequence"
  | .group .. => "map"

/-- The wording of a fault. -/
def message : SettingFault → String
  | unreadable found expected => s!"invalid type: {readText found}, expected {expected}"
  | misplaced found expected => s!"invalid type: {formText found}, expected {expected}"
  | tooLarge value =>
      s!"invalid type: 64-bit unsigned integer `{value}`, expected an unsigned 32 bit integer"
  | unknownName kind name => s!"enum {kind} does not have variant constructor {name}"
  | noName kind =>
      s!"value of enum {kind} should be represented by either string or table with exactly one key"
  | negativeSize => "byte size must not be negative"
  | size error => error.message

/-- The source that is to be named with a fault. -/
def source? : SettingFault → Option String
  | unreadable found _ => found.source?
  | _ => none

end SettingFault

namespace SettingError

/-- The wording of a faulty setting. -/
def message (error : SettingError) : String :=
  let place := if error.place = "" then "" else s!" for key `{error.place}`"
  let source := match error.fault.source? with
    | some source => s!" in {source}"
    | none => ""
  error.fault.message ++ place ++ source

/-- The same fault seen from a group that holds it under a name. -/
def below (name : String) (error : SettingError) : SettingError :=
  let point := if error.place = "" ∨ error.place.startsWith "[" then "" else "."
  { error with place := name ++ point ++ error.place }

end SettingError

/-- A way to read what is given. -/
abbrev SettingReader (α : Type) := Given → Except SettingError α

namespace SettingReader

/-- Refuses what is given. -/
def refuse {α : Type} (fault : SettingFault) : Except SettingError α := .error ⟨"", fault⟩

/-- The words that stand for truth values. -/
def truth? (text : String) : Option Bool :=
  match Text.lower text with
  | "true" | "on" | "yes" => some true
  | "false" | "off" | "no" => some false
  | _ => none

/-- Reads a number of 64 bits. -/
def word : SettingReader UInt64
  | .scalar _ (.bool value) => .ok value.toUInt64
  | .scalar source (.integer value) =>
      if 0 ≤ value then .ok (UInt64.ofNat value.toNat)
      else
        refuse (.unreadable (.scalar source (.integer value)) "an unsigned 64 bit or less integer")
  | .scalar _ (.real value) => .ok value.toWord
  | .scalar source (.text value) =>
      match truth? value, word? value.toList with
      | some truth, _ => .ok truth.toUInt64
      | none, some number => .ok number
      | none, none => refuse (.unreadable (.scalar source (.text value)) "an integer")
  | given => refuse (.unreadable given "an integer")

/-- Reads a number of 32 bits. -/
def word32 : SettingReader UInt32 := fun given => do
  let value ← word given
  if value.toNat < 0x100000000 then return value.toUInt32 else refuse (.tooLarge value)

/-- Reads a text. -/
def text : SettingReader String
  | .scalar _ (.bool value) => .ok (toString value)
  | .scalar _ (.integer value) => .ok (toString value)
  | .scalar _ (.real value) => .ok value.plainText
  | .scalar _ (.text value) => .ok value
  | given => refuse (.unreadable given "a string")

/-- Reads a size: a count of bytes, or a text with a unit. -/
def size : SettingReader ByteSize
  | .scalar _ (.integer value) =>
      if 0 ≤ value then .ok ⟨UInt64.ofNat value.toNat⟩ else refuse .negativeSize
  | .scalar _ (.text value) => (ByteSize.parse value).mapError fun error => ⟨"", .size error⟩
  | given => refuse (.misplaced given "a byte size as integer or string (e.g. \"64KB\")")

/-- Reads one of several names, or a group whose only setting has the name. -/
def choice {α : Type} (kind : String) (all : List α) (name : α → String) : SettingReader α :=
  let find (given : String) : Except SettingError α :=
    match all.find? fun value => name value = given with
    | some value => .ok value
    | none => refuse (.unknownName kind given)
  fun
    | .scalar _ (.text value) => find value
    | .group _ [entry] => find entry.1
    | _ => refuse (.noName kind)

/-- Takes a section: a group, or a list of settings. -/
def asSection (kind : String) : SettingReader Given
  | .group source entries => .ok (.group source entries)
  | .list source items => .ok (.list source items)
  | given => refuse (.misplaced given s!"struct {kind}")

/-- Reads a setting of a section by its name, or by its position if the section is a list. -/
def field {α : Type} (given : Given) (position : Nat) (name : String) (read : SettingReader α)
    (default : α) : Except SettingError α :=
  let found := match given with
    | .list _ items => items[position]?.map fun item => (s!"[{position}]", item)
    | _ => (given.entries.lookup name).map fun entry => (name, entry)
  match found with
  | some (place, given) => (read given).mapError (.below place)
  | none => .ok default

end SettingReader

open SettingReader

/-- Reads how reports are taken in. -/
def MasterSettings.read : SettingReader MasterSettings := fun given => do
  let given ← asSection "MasterConfig" given
  return {
    queryTimeoutMillis := ← field given 0 "query_timeout_ms" word standard.queryTimeoutMillis
    maxConcurrentEvents :=
      ← field given 1 "max_concurrent_events" word standard.maxConcurrentEvents
    eventChannelSize := ← field given 2 "event_channel_size" word standard.eventChannelSize
    statisticsInboxSize :=
      ← field given 3 "statistics_inbox_size" word standard.statisticsInboxSize }

/-- Reads how tasks are carried out. -/
def WorkerSettings.read : SettingReader WorkerSettings := fun given => do
  let given ← asSection "WorkerConfig" given
  let sinkKind := choice "ResponseType" [SinkKind.disk, SinkKind.memory] SinkKind.name
  return {
    nodes := ← field given 0 "nodes" word standard.nodes
    poolSize := ← field given 1 "pool_size" word standard.poolSize
    channelSize := ← field given 2 "channel_size" word standard.channelSize
    sinkKind := ← field given 3 "response_type" sinkKind standard.sinkKind
    folder := ← field given 4 "path_to_save" text standard.folder
    agent := ← field given 5 "user_agent" text standard.agent
    graceMillis := ← field given 6 "throughput_grace_ms" word standard.graceMillis
    intervalMillis := ← field given 7 "limit_check_interval_ms" word standard.intervalMillis
    redirectCeiling := ← field given 8 "redirect_ceiling" word32 standard.redirectCeiling }

/-- Reads the limits of jobs that have none of their own. -/
def LimitSettings.read : SettingReader LimitSettings := fun given => do
  let given ← asSection "LimitsConfig" given
  return {
    connectionMillis := ← field given 0 "connection_timeout_ms" word standard.connectionMillis
    throughputFloor := ← field given 1 "min_throughput" size standard.throughputFloor
    retrievalMillis := ← field given 2 "max_retrieval_time_ms" word standard.retrievalMillis
    redirects := ← field given 3 "max_redirects" word32 standard.redirects
    processingMillis := ← field given 4 "max_processing_time_ms" word standard.processingMillis
    contentSize := ← field given 5 "max_content_size" size standard.contentSize }

/-- Reads where the stores lie. -/
def StoreSettings.read : SettingReader StoreSettings := fun given => do
  let given ← asSection "LedgerConfig" given
  return {
    ledger := ← field given 0 "path" text standard.ledger
    backlog := ← field given 1 "queue_path" text standard.backlog }

/-- Reads how long executions are kept. -/
def RetentionSettings.read : SettingReader RetentionSettings := fun given => do
  let given ← asSection "RetentionConfig" given
  return { days := ← field given 0 "statistics_ttl_days" word32 standard.days }

/-- Reads what is logged. -/
def TelemetrySettings.read : SettingReader TelemetrySettings := fun given => do
  let given ← asSection "TelemetryConfig" given
  return { logFilter := ← field given 0 "log_filter" text standard.logFilter }

/-- Reads all settings. -/
def Settings.read : SettingReader Settings := fun given => do
  let given ← asSection "Config" given
  return {
    master := ← field given 0 "master" MasterSettings.read .standard
    worker := ← field given 1 "worker" WorkerSettings.read .standard
    limits := ← field given 2 "limits" LimitSettings.read .standard
    stores := ← field given 3 "ledger" StoreSettings.read .standard
    retention := ← field given 4 "retention" RetentionSettings.read .standard
    telemetry := ← field given 5 "telemetry" TelemetrySettings.read .standard }

end MediaHarvest
