import BlockCache.Metrics.Basic
import BlockCache.Number.Binary64

/-!
# The exposition of metrics

Metrics as a text for a monitoring system: families in the order of their names, each with a line of
help, a line with its kind, and its samples. Every value passes through a 64-bit float.
-/

namespace BlockCache.Metrics

/-- Samples under one name. -/
structure Family where
  name : String
  help : String
  kind : String
  /-- What follows the name in each sample. -/
  samples : List String

def Family.render (f : Family) : String :=
  s!"# HELP {f.name} {f.help}\n# TYPE {f.name} {f.kind}\n" ++
    String.join (f.samples.map fun sample => s!"{f.name}{sample}\n")

/-- One character of a label's value. -/
def escapeLabelChar : Char → List Char
  | '\\' => ['\\', '\\']
  | '"' => ['\\', '"']
  | '\n' => ['\\', 'n']
  | c => [c]

def label (name value : String) : String :=
  name ++ "=\"" ++ String.ofList (value.toList.flatMap escapeLabelChar) ++ "\""

def counter (name help : String) (count : Nat) : Family :=
  ⟨name, help, "counter", [" " ++ Binary64.text (word count)]⟩

def gauge (name help : String) (value : Int) : Family :=
  ⟨name, help, "gauge", [" " ++ Binary64.signedText value]⟩

/-- A gauge that holds at most the largest signed 64-bit number. -/
def sizeGauge (name help : String) (value : Nat) : Family := gauge name help (min value 0x7FFFFFFFFFFFFFFF)

/-- The upper bounds of the latency buckets, in seconds. -/
def latencyBounds : List String :=
  ["0.00001", "0.00005", "0.0001", "0.0005", "0.001", "0.005", "0.01", "0.05", "0.1", "0.5", "1", "+Inf"]

/-- The latencies by bucket; no time falls into every bucket. -/
def latencies (m : Metrics) : Family :=
  let count := " " ++ Binary64.text (word m.timed)
  ⟨"arenacache_cmd_latency_seconds", "Command latency in seconds", "histogram",
    latencyBounds.map (fun bound => "_bucket\x7b" ++ label "le" bound ++ "\x7d" ++ count) ++
      ["_sum 0", "_count" ++ count]⟩

/-- The executed requests by name. -/
def commandCounts (m : Metrics) : Family :=
  ⟨"arenacache_commands_total", "Total commands by name", "counter",
    m.commands.toList.map fun entry =>
      "\x7b" ++ label "command" entry.1 ++ "\x7d " ++ Binary64.text (word entry.2)⟩

/-- All families in the order of their names. -/
def families (m : Metrics) : List Family := [
  gauge "arenacache_active_connections" "Current active connections" m.activeConnections.toInt,
  counter "arenacache_bytes_read_total" "Total bytes read" m.bytesRead,
  counter "arenacache_bytes_written_total" "Total bytes written" m.bytesWritten,
  m.latencies,
  m.commandCounts,
  counter "arenacache_connections_total" "Total connections accepted" m.totalConnections,
  sizeGauge "arenacache_curr_items" "Items currently stored" m.observed.items,
  sizeGauge "arenacache_current_bytes" "Bytes holding stored values" m.observed.bytes,
  sizeGauge "arenacache_evictions" "Items evicted to respect limits" m.observed.evictions,
  counter "arenacache_get_hits_total" "Total GET hits" m.getHits,
  counter "arenacache_get_misses_total" "Total GET misses" m.getMisses,
  sizeGauge "arenacache_limit_maxbytes" "Bytes available for values" m.observed.limit,
  counter "arenacache_protocol_errors_total" "Total protocol errors" m.protocolErrors,
  counter "arenacache_rejected_connections_total" "Total connections rejected" m.rejectedConnections,
  counter "arenacache_storage_errors_total" "Total storage errors" m.storageErrors]

/-- The text of all families that have a sample. -/
def expose (m : Metrics) : String :=
  String.join ((m.families.filter fun f => !f.samples.isEmpty).map Family.render)

end BlockCache.Metrics
