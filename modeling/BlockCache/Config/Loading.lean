import BlockCache.Config.Settings
import BlockCache.Number.Decimal
import BlockCache.Text.Lowercase
import BlockCache.Text.Utf8
import BlockCache.Toml.Reading

/-!
# Loading settings

Settings come from a TOML text or from the environment. What is not given keeps its default, and
names that are not known are passed over. A given value of the wrong kind makes the whole text
unusable; in the environment, a number that cannot be read counts as not given.
-/

namespace BlockCache

namespace Toml.Value

def text? : Value → Option String
  | string s => some s
  | _ => none

def count? : Value → Option Nat
  | integer n => if 0 ≤ n then some n.toNat else none
  | _ => none

def flag? : Value → Option Bool
  | boolean b => some b
  | _ => none

/-- Whether nothing is in the table or array. -/
def isVacant : Value → Bool
  | array items => items.isEmpty
  | table _ entries => entries.isEmpty
  | tables items => items.isEmpty
  | _ => false

/-- One of several names: its text, or a table in which it alone has an entry, which is vacant. -/
def choice? (ofName? : String → Option α) : Value → Option α
  | string s => ofName? s
  | table _ [(name, inner)] => if inner.isVacant then ofName? name else none
  | _ => none

end Toml.Value

namespace Config

open Toml (Value Entries)

/-- The fields of a section, found by name in a table and by place in an array. A point in time is a
section without fields. -/
inductive Fields where
  | named (entries : Entries)
  | placed (values : List Value)

def Fields.ofValue? : Value → Option Fields
  | .table _ entries => some (.named entries)
  | .array items => some (.placed items)
  | .tables items => some (.placed (items.reverse.map (.table .header ·)))
  | .time => some (.named [])
  | _ => none

/-- The field of a name and a place, or `default` if it is not given. -/
def Fields.read (f : Fields) (name : String) (place : Nat) (read? : Value → Option α) (default : α) : Option α :=
  match (match f with
    | named entries => entries.lookup name
    | placed values => values[place]?) with
  | some v => read? v
  | none => some default

def serverOf (f : Fields) : Option ServerSettings := do
  let d : ServerSettings := {}
  return {
    listenAddress := ← f.read "listen_addr" 0 Value.text? d.listenAddress
    maxConnections := ← f.read "max_connections" 1 Value.count? d.maxConnections
    readBufferSize := ← f.read "read_buffer_size" 2 Value.count? d.readBufferSize
    writeBufferSize := ← f.read "write_buffer_size" 3 Value.count? d.writeBufferSize
    workerThreads := ← f.read "worker_threads" 4 Value.count? d.workerThreads
    connectionTimeout := ← f.read "connection_timeout_secs" 5 Value.count? d.connectionTimeout }

def storageOf (f : Fields) : Option StorageSettings := do
  let d : StorageSettings := {}
  return {
    backend := ← f.read "backend" 0 (Value.choice? Backend.ofName?) d.backend
    partitions := ← f.read "partitions" 1 Value.count? d.partitions
    bucketsPerPartition := ← f.read "buckets_per_partition" 2 Value.count? d.bucketsPerPartition
    blockSize := ← f.read "block_size" 3 Value.count? d.blockSize
    maxBytes := ← f.read "max_bytes" 4 Value.count? d.maxBytes
    ceilingBytes := ← f.read "ceiling_bytes" 5 Value.count? d.ceilingBytes
    maxItems := ← f.read "max_items" 6 Value.count? d.maxItems
    eviction := ← f.read "eviction" 7 (Value.choice? Policy.ofName?) d.eviction }

def metricsOf (f : Fields) : Option MetricsSettings := do
  let d : MetricsSettings := {}
  return {
    enabled := ← f.read "enabled" 0 Value.flag? d.enabled
    listenAddress := ← f.read "listen_addr" 1 Value.text? d.listenAddress }

/-- A section of the text, or its defaults. -/
def sectionOf (entries : Entries) (name : String) (read? : Fields → Option α) (default : α) : Option α :=
  match entries.lookup name with
  | some v => (Fields.ofValue? v).bind read?
  | none => some default

/-- The settings that the entries of a TOML text give. -/
def settingsOf (entries : Entries) : Option Settings := do
  return {
    server := ← sectionOf entries "server" serverOf {}
    storage := ← sectionOf entries "storage" storageOf {}
    metrics := ← sectionOf entries "metrics" metricsOf {} }

end Config

namespace Settings

/-- The settings, if their storage part is usable. -/
def validated (s : Settings) : Except ConfigError Settings := do
  s.storage.validate
  return s

/-- Settings from a TOML text. -/
def ofToml (text : String) : Except ConfigError Settings :=
  match (Toml.read? text).bind Config.settingsOf with
  | some s => s.validated
  | none => .error .unparsable

/-- Settings from the contents of a file, which may be missing. -/
def ofFile (contents : Option Bytes) : Except ConfigError Settings :=
  match contents.bind Utf8.decode? with
  | some text => ofToml text
  | none => .error .unreadable

/-- The number that a variable gives, or `default` if it gives none of at most 64 bits. -/
def numberFrom (env : String → Option String) (name : String) (default : Nat) : Nat :=
  ((env name).bind fun text => Decimal.readNat? (UInt64.size - 1) (Bytes.ofString text)).getD default

/-- The choice that a variable names in any case, or `default` if it is not set. -/
def choiceFrom (env : String → Option String) (name : String) (ofName? : String → Option α)
    (fault : String → ConfigError) (default : α) : Except ConfigError α :=
  match env name with
  | none => .ok default
  | some text =>
    let small := Text.lowercase text
    match ofName? small with
    | some choice => .ok choice
    | none => .error (fault small)

/-- The variables that settings are taken from. -/
def variableNames : List String := [
  "ARENACACHE_LISTEN_ADDR", "ARENACACHE_MAX_CONNECTIONS", "ARENACACHE_MAX_BYTES", "ARENACACHE_MAX_ITEMS",
  "ARENACACHE_PARTITIONS", "ARENACACHE_EVICTION", "ARENACACHE_BACKEND", "ARENACACHE_METRICS_ADDR",
  "ARENACACHE_METRICS_ENABLED"]

/-- Settings from environment variables. -/
def ofEnvironment (env : String → Option String) : Except ConfigError Settings := do
  let d : Settings := {}
  let eviction ← choiceFrom env "ARENACACHE_EVICTION" Policy.ofName? .unknownPolicy d.storage.eviction
  let backend ← choiceFrom env "ARENACACHE_BACKEND" Backend.ofName? .unknownBackend d.storage.backend
  let settings : Settings := {
    server := { d.server with
      listenAddress := (env "ARENACACHE_LISTEN_ADDR").getD d.server.listenAddress
      maxConnections := numberFrom env "ARENACACHE_MAX_CONNECTIONS" d.server.maxConnections }
    storage := { d.storage with
      maxBytes := numberFrom env "ARENACACHE_MAX_BYTES" d.storage.maxBytes
      maxItems := numberFrom env "ARENACACHE_MAX_ITEMS" d.storage.maxItems
      partitions := numberFrom env "ARENACACHE_PARTITIONS" d.storage.partitions
      eviction
      backend }
    metrics := {
      listenAddress := (env "ARENACACHE_METRICS_ADDR").getD d.metrics.listenAddress
      enabled := match env "ARENACACHE_METRICS_ENABLED" with
        | some text => Text.lowercase text == "true" || text == "1"
        | none => d.metrics.enabled } }
  settings.validated

end Settings
end BlockCache
