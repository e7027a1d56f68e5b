import BlockCache.Cache.Stats

/-!
# Metrics

What the server counts about itself. Counters only grow and are shown as 64-bit words; gauges are set.
-/

namespace BlockCache

/-- Counters and gauges of a server. -/
structure Metrics where
  /-- Executed requests by name. -/
  commands : Std.TreeMap String Nat := ∅
  /-- Executed requests that were timed. The clock stands still while a request is executed, so each
  took no time. -/
  timed : Nat := 0
  getHits : Nat := 0
  getMisses : Nat := 0
  activeConnections : Int64 := 0
  totalConnections : Nat := 0
  rejectedConnections : Nat := 0
  bytesRead : Nat := 0
  bytesWritten : Nat := 0
  protocolErrors : Nat := 0
  storageErrors : Nat := 0
  /-- The gauges of the cache when they were last observed. -/
  observed : Snapshot := ⟨0, 0, 0, 0⟩

namespace Metrics

/-- Counts an executed request. -/
def recordCommand (m : Metrics) (name : String) : Metrics :=
  { m with commands := m.commands.alter name fun count => some (count.getD 0 + 1) }

/-- Takes over the gauges of the cache. -/
def observe (m : Metrics) (s : Snapshot) : Metrics := { m with observed := s }

/-- What a counter shows. -/
def word (count : Nat) : Nat := count % UInt64.size

/-- Adds the figures about connections to those of the cache. -/
def extend (m : Metrics) (s : Stats) : Stats :=
  [("curr_connections", m.activeConnections.toInt.toNat), ("total_connections", word m.totalConnections),
    ("bytes_read", word m.bytesRead), ("bytes_written", word m.bytesWritten)].foldl
    (fun stats figure => stats.insert figure.1 [toString figure.2]) s

end Metrics
end BlockCache
