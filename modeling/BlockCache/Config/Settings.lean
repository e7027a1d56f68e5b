import BlockCache.Eviction.Policy

/-!
# Settings

What can be configured, with its defaults, and which storage settings make a usable store: those
that `StorageSettings.validate` accepts.
-/

namespace BlockCache

/-- Why a configuration was refused. -/
inductive ConfigError where
  | noPartitions
  | noItems
  | bucketsNotPowerOfTwo (buckets : Nat)
  | noBlockSize
  | partitionBelowBlock (partitionBytes blockSize : Nat)
  | tooManyBlocks
  | ceilingTooHigh (ceiling partitionBytes : Nat)
  | unknownPolicy (name : String)
  | unknownBackend (name : String)
  /-- A file that is no configuration text. -/
  | unparsable
  /-- A file that cannot be read as text. -/
  | unreadable
deriving DecidableEq, Repr

def ConfigError.message : ConfigError → String
  | noPartitions => "storage.partitions must be at least 1"
  | noItems => "storage.max_items must be at least 1"
  | bucketsNotPowerOfTwo buckets => s!"storage.buckets_per_partition must be a power of two, got {buckets}"
  | noBlockSize => "storage.block_size must be at least 1"
  | partitionBelowBlock partitionBytes blockSize =>
    s!"storage.max_bytes gives {partitionBytes} bytes per partition, less than one {blockSize} byte block"
  | tooManyBlocks => "storage.max_bytes gives more than 4294967295 blocks per partition"
  | ceilingTooHigh ceiling partitionBytes =>
    s!"storage.ceiling_bytes ({ceiling}) must be below the per-partition arena size ({partitionBytes})"
  | unknownPolicy name => s!"Unknown eviction policy: {name}"
  | unknownBackend name => s!"Unknown storage backend: {name}"
  | unparsable => "Failed to parse config"
  | unreadable => "Failed to read config file"

/-- Where items are kept. -/
inductive Backend where
  /-- In the arenas of a partitioned index. -/
  | block
  /-- In one map, items as they are. -/
  | memory
deriving DecidableEq, Repr

namespace Backend

def name : Backend → String
  | block => "block"
  | memory => "memory"

def ofName? (s : String) : Option Backend :=
  if s = "block" then some block else if s = "memory" then some memory else none

end Backend

/-- How items are stored. -/
structure StorageSettings where
  backend : Backend := .block
  partitions : Nat := 16
  bucketsPerPartition : Nat := 32768
  /-- Bytes in a block of an arena. -/
  blockSize : Nat := 32
  /-- Bytes of all arenas together, split evenly. -/
  maxBytes : Nat := 67108864
  /-- A write evicts from its partition while fewer bytes are free there. -/
  ceilingBytes : Nat := 65536
  /-- Items of all partitions together. -/
  maxItems : Nat := 1000000
  eviction : Policy := .lru
deriving DecidableEq, Repr

namespace StorageSettings

/-- Bytes for the arena of each partition. -/
def partitionBytes (s : StorageSettings) : Nat := s.maxBytes / max s.partitions 1

/-- Whether the settings describe a usable store; the block layout does not concern a map. -/
def validate (s : StorageSettings) : Except ConfigError Unit :=
  if s.partitions = 0 then .error .noPartitions
  else if s.maxItems = 0 then .error .noItems
  else if s.backend = .memory then .ok ()
  else if s.bucketsPerPartition.nextPowerOfTwo ≠ s.bucketsPerPartition then
    .error (.bucketsNotPowerOfTwo s.bucketsPerPartition)
  else if s.blockSize = 0 then .error .noBlockSize
  else if s.partitionBytes < s.blockSize then .error (.partitionBelowBlock s.partitionBytes s.blockSize)
  else if UInt32.size ≤ s.partitionBytes / s.blockSize then .error .tooManyBlocks
  else if s.partitionBytes ≤ s.ceilingBytes then .error (.ceilingTooHigh s.ceilingBytes s.partitionBytes)
  else .ok ()

end StorageSettings

/-- How connections are served. -/
structure ServerSettings where
  listenAddress : String := "127.0.0.1:11211"
  maxConnections : Nat := 10000
  readBufferSize : Nat := 8192
  writeBufferSize : Nat := 8192
  /-- 0 for one per processor. -/
  workerThreads : Nat := 0
  /-- Seconds after which a silent connection is closed, 0 for never. -/
  connectionTimeout : Nat := 0
deriving DecidableEq, Repr

/-- How the program can be watched. -/
structure MetricsSettings where
  enabled : Bool := true
  listenAddress : String := "127.0.0.1:9090"
deriving DecidableEq, Repr

/-- All settings of the program. -/
structure Settings where
  server : ServerSettings := {}
  storage : StorageSettings := {}
  metrics : MetricsSettings := {}
deriving DecidableEq, Repr

end BlockCache
