import MediaHarvest.ByteSize
import MediaHarvest.Retrieval.Limits
import MediaHarvest.Retrieval.Session
import MediaHarvest.Sink.Basic

/-!
# Settings

The settings of a harvester in their sections.  Every setting has a default.  `Settings.check` says
which settings do not fit together.
-/

namespace MediaHarvest

open MediaHarvest.Json

/-- Paths as texts. -/
def Json.Codec.path : Codec String := ⟨.text, Decoder.text "path string"⟩

/-- Counts of 64 bits. -/
def Json.Codec.count : Codec UInt64 :=
  ⟨fun n => .natural n.toNat,
    fun source tree => UInt64.ofNat <$> Decoder.below 0x10000000000000000 "usize" source tree⟩

/-- How reports are taken in. -/
structure MasterSettings where
  /-- How long a report waits for an account, in milliseconds. -/
  queryTimeoutMillis : UInt64
  /-- How many reports are taken into account at the same time. -/
  maxConcurrentEvents : UInt64
  eventChannelSize : UInt64
  /-- How many reports may wait for being recorded. -/
  statisticsInboxSize : UInt64
deriving DecidableEq, Repr

namespace MasterSettings

/-- The settings if none are given. -/
def standard : MasterSettings := ⟨10000, 64, 1024, 1024⟩

/-- How long a report waits for an account. -/
def patience (settings : MasterSettings) : Span := .ofMillis settings.queryTimeoutMillis

def shape : Shape MasterSettings MasterSettings :=
  mk <$> .defaulted "query_timeout_ms" .word64 queryTimeoutMillis standard.queryTimeoutMillis
    <*> .defaulted "max_concurrent_events" .count maxConcurrentEvents standard.maxConcurrentEvents
    <*> .defaulted "event_channel_size" .count eventChannelSize standard.eventChannelSize
    <*> .defaulted "statistics_inbox_size" .count statisticsInboxSize standard.statisticsInboxSize

def codec : Codec MasterSettings := shape.codec "MasterConfig"

end MasterSettings

/-- How tasks are carried out. -/
structure WorkerSettings where
  nodes : UInt64
  /-- How many tasks a node carries out at the same time. -/
  poolSize : UInt64
  /-- How many tasks may wait for a node. -/
  channelSize : UInt64
  sinkKind : SinkKind
  folder : String
  agent : String
  /-- How long a transfer may be slow at its start, in milliseconds. -/
  graceMillis : UInt64
  /-- How often the limits are looked at, in milliseconds. -/
  intervalMillis : UInt64
  /-- How many redirects are followed if the task does not say. -/
  redirectCeiling : UInt32
deriving DecidableEq, Repr

namespace WorkerSettings

/-- The settings if none are given. -/
def standard : WorkerSettings where
  nodes := 2
  poolSize := 8
  channelSize := 100
  sinkKind := .disk
  folder := "data/downloads"
  agent := "harvester/0.1.0"
  graceMillis := 5000
  intervalMillis := 250
  redirectCeiling := 30

/-- How a node carries out retrievals. -/
def policy (settings : WorkerSettings) : Policy where
  agent := settings.agent
  grace := .ofMillis settings.graceMillis
  interval := .ofMillis settings.intervalMillis
  redirectCeiling := settings.redirectCeiling

def shape : Shape WorkerSettings WorkerSettings :=
  mk <$> .defaulted "nodes" .count nodes standard.nodes
    <*> .defaulted "pool_size" .count poolSize standard.poolSize
    <*> .defaulted "channel_size" .count channelSize standard.channelSize
    <*> .defaulted "response_type" SinkKind.codec sinkKind standard.sinkKind
    <*> .defaulted "path_to_save" .path folder standard.folder
    <*> .defaulted "user_agent" .text agent standard.agent
    <*> .defaulted "throughput_grace_ms" .word64 graceMillis standard.graceMillis
    <*> .defaulted "limit_check_interval_ms" .word64 intervalMillis standard.intervalMillis
    <*> .defaulted "redirect_ceiling" .word32 redirectCeiling standard.redirectCeiling

def codec : Codec WorkerSettings := shape.codec "WorkerConfig"

end WorkerSettings

/-- The limits of jobs that have none of their own. -/
structure LimitSettings where
  /-- The time for a connection, in milliseconds. -/
  connectionMillis : UInt64
  /-- The least rate, in bytes per second. -/
  throughputFloor : ByteSize
  /-- The time for a retrieval, in milliseconds. -/
  retrievalMillis : UInt64
  redirects : UInt32
  /-- The time for a retrieval and the work after it, in milliseconds. -/
  processingMillis : UInt64
  contentSize : ByteSize
deriving DecidableEq, Repr

namespace LimitSettings

/-- The settings if none are given. -/
def standard : LimitSettings := ⟨10000, ⟨0⟩, 600000, 10, 0, ⟨0⟩⟩

/-- The limits that the section gives. -/
def limits (settings : LimitSettings) : Limits where
  connectionTimeout := .ofMillis settings.connectionMillis
  throughputFloor := settings.throughputFloor.bytes
  retrievalTime := .ofMillis settings.retrievalMillis
  redirects := settings.redirects
  processingTime := .ofMillis settings.processingMillis
  contentSize := settings.contentSize.bytes

def shape : Shape LimitSettings LimitSettings :=
  mk <$> .defaulted "connection_timeout_ms" .word64 connectionMillis standard.connectionMillis
    <*> .defaulted "min_throughput" ByteSize.codec throughputFloor standard.throughputFloor
    <*> .defaulted "max_retrieval_time_ms" .word64 retrievalMillis standard.retrievalMillis
    <*> .defaulted "max_redirects" .word32 redirects standard.redirects
    <*> .defaulted "max_processing_time_ms" .word64 processingMillis standard.processingMillis
    <*> .defaulted "max_content_size" ByteSize.codec contentSize standard.contentSize

def codec : Codec LimitSettings := shape.codec "LimitsConfig"

end LimitSettings

/-- Where the stores lie. -/
structure StoreSettings where
  ledger : String
  backlog : String
deriving DecidableEq, Repr

namespace StoreSettings

/-- The settings if none are given. -/
def standard : StoreSettings := ⟨"data/ledger", "data/queue"⟩

def shape : Shape StoreSettings StoreSettings :=
  mk <$> .defaulted "path" .path ledger standard.ledger
    <*> .defaulted "queue_path" .path backlog standard.backlog

def codec : Codec StoreSettings := shape.codec "LedgerConfig"

end StoreSettings

/-- How long executions are kept. -/
structure RetentionSettings where
  /-- The days after which an execution is dropped. -/
  days : UInt32
deriving DecidableEq, Repr

namespace RetentionSettings

/-- The settings if none are given. -/
def standard : RetentionSettings := ⟨90⟩

def shape : Shape RetentionSettings RetentionSettings :=
  mk <$> .defaulted "statistics_ttl_days" .word32 days standard.days

def codec : Codec RetentionSettings := shape.codec "RetentionConfig"

end RetentionSettings

/-- What is logged. -/
structure TelemetrySettings where
  logFilter : String
deriving DecidableEq, Repr

namespace TelemetrySettings

/-- The settings if none are given. -/
def standard : TelemetrySettings := ⟨"info"⟩

def shape : Shape TelemetrySettings TelemetrySettings :=
  mk <$> .defaulted "log_filter" .text logFilter standard.logFilter

def codec : Codec TelemetrySettings := shape.codec "TelemetryConfig"

end TelemetrySettings

/-- All settings. -/
structure Settings where
  master : MasterSettings
  worker : WorkerSettings
  /-- The limits of jobs that have none of their own. -/
  limits : LimitSettings
  stores : StoreSettings
  retention : RetentionSettings
  telemetry : TelemetrySettings
deriving DecidableEq, Repr

namespace Settings

/-- The settings if none are given. -/
def standard : Settings :=
  ⟨.standard, .standard, .standard, .standard, .standard, .standard⟩

def shape : Shape Settings Settings :=
  mk <$> .defaulted "master" MasterSettings.codec master .standard
    <*> .defaulted "worker" WorkerSettings.codec worker .standard
    <*> .defaulted "limits" LimitSettings.codec limits .standard
    <*> .defaulted "ledger" StoreSettings.codec stores .standard
    <*> .defaulted "retention" RetentionSettings.codec retention .standard
    <*> .defaulted "telemetry" TelemetrySettings.codec telemetry .standard

def codec : Codec Settings := shape.codec "Config"

end Settings

/-! ## Checking -/

/-- Why settings do not fit together. -/
inductive SettingsFault where
  /-- A setting that has to be positive is zero. -/
  | zeroValue (field : String)
  /-- Executions would not be kept at all. -/
  | invalidRetention (field : String) (value : UInt32)
  /-- Files are asked for and no folder is given. -/
  | missingFolder
  /-- The limits are looked at less often than the grace is long. -/
  | intervalExceedsGrace (interval grace : UInt64)
deriving DecidableEq, Repr

/-- The wording of settings that do not fit together. -/
def SettingsFault.message : SettingsFault → String
  | .zeroValue field => s!"{field} must be positive"
  | .invalidRetention field value => s!"Retention TTL must be positive: {field} = {value}"
  | .missingFolder => "worker.path_to_save is required when response_type is disk"
  | .intervalExceedsGrace interval grace =>
      s!"worker.limit_check_interval_ms ({interval}) exceeds throughput_grace_ms ({grace})"

namespace Settings

/-- The settings that have to be positive, in the order in which they are checked. -/
def positiveFields (settings : Settings) : List (String × UInt64) :=
  [("master.query_timeout_ms", settings.master.queryTimeoutMillis),
    ("master.max_concurrent_events", settings.master.maxConcurrentEvents),
    ("master.event_channel_size", settings.master.eventChannelSize),
    ("master.statistics_inbox_size", settings.master.statisticsInboxSize),
    ("worker.nodes", settings.worker.nodes),
    ("worker.pool_size", settings.worker.poolSize),
    ("worker.channel_size", settings.worker.channelSize),
    ("worker.throughput_grace_ms", settings.worker.graceMillis),
    ("worker.limit_check_interval_ms", settings.worker.intervalMillis)]

/-- The first fault of settings, if they have one. -/
def fault? (settings : Settings) : Option SettingsFault :=
  let worker := settings.worker
  match settings.positiveFields.find? fun field => field.2 = 0 with
  | some (field, _) => some (.zeroValue field)
  | none =>
      if worker.graceMillis < worker.intervalMillis then
        some (.intervalExceedsGrace worker.intervalMillis worker.graceMillis)
      else if worker.sinkKind = .disk ∧ worker.folder = "" then some .missingFolder
      else if settings.retention.days = 0 then
        some (.invalidRetention "statistics_ttl_days" settings.retention.days)
      else none

/-- Accepts settings that fit together. -/
def check (settings : Settings) : Except SettingsFault Settings :=
  match settings.fault? with
  | some fault => .error fault
  | none => .ok settings

end Settings

end MediaHarvest
