import BlockCache.Arena.Bitmap
import BlockCache.Arena.Tape
import BlockCache.Error

/-!
# The block arena

A byte arena cut into blocks of one size. A value occupies a contiguous run of blocks, found first
fit from a bitmap of used blocks, and a `Region` names that run. The length of each run is kept at
its first block, so a region that names no live run is refused. Accounting is in whole blocks: used
and free bytes always make up the size of the arena.
-/

namespace BlockCache

/-- Where a value lies in an arena. It owns nothing: it names bytes only while its run is live. -/
structure Region where
  /-- Length of the value in bytes. -/
  length : UInt32
  /-- Blocks in the run. -/
  blocks : UInt32
  /-- First block of the run. -/
  start : UInt32
deriving DecidableEq, Repr

/-- A byte arena of equal blocks. -/
structure Arena where
  blockSize : Nat
  totalBlocks : Nat
  freeBlocks : Nat
  used : Bitmap
  /-- The length in blocks of each live run, by its first block. -/
  heads : Std.TreeMap Nat UInt32
  /-- No block below this one is free. -/
  searchFrom : Nat
  tape : Tape
  closed : Bool
  blockSize_pos : 0 < blockSize

namespace Arena

/-- The most blocks an arena has: regions name blocks by 32-bit numbers. -/
def maxBlocks : Nat := UInt32.size - 1

/-- An arena of `capacity` bytes, rounded down to whole blocks. -/
def new (capacity blockSize : Nat) : Arena :=
  let blockSize' := max blockSize 1
  let total := min (capacity / blockSize') maxBlocks
  { blockSize := blockSize'
    totalBlocks := total
    freeBlocks := total
    used := .empty
    heads := ∅
    searchFrom := 0
    tape := .blank
    closed := false
    blockSize_pos := by omega }

/-- Bytes in the arena. -/
def size (a : Arena) : Nat := a.totalBlocks * a.blockSize

def freeBytes (a : Arena) : Nat := a.freeBlocks * a.blockSize

def usedBytes (a : Arena) : Nat := (a.totalBlocks - a.freeBlocks) * a.blockSize

/-- Blocks needed for `size` bytes; even an empty value takes one. -/
def blocksFor (a : Arena) (size : Nat) : Nat := max ((size + a.blockSize - 1) / a.blockSize) 1

/-- Reserves the first run of free blocks that is large enough for `size` bytes. -/
def alloc (a : Arena) (size : Nat) : Except StoreError (Region × Arena) :=
  let needed := a.blocksFor size
  if a.closed then .error .closed
  else if a.freeBlocks < needed then .error (.outOfSpace size a.freeBytes)
  else match a.used.findRun a.totalBlocks needed a.searchFrom a.searchFrom 0 with
    | none => .error (.outOfSpace size a.freeBytes)
    | some start =>
      .ok (⟨size.toUInt32, needed.toUInt32, start.toUInt32⟩,
        { a with
          used := a.used.markRun start needed
          heads := a.heads.insert start needed.toUInt32
          freeBlocks := a.freeBlocks - needed
          searchFrom := if start = a.searchFrom then start + needed else a.searchFrom })

/-- Why a region may not be used, if it may not. -/
def fault? (a : Arena) (r : Region) : Option StoreError :=
  if a.closed then some .closed
  else if a.totalBlocks ≤ r.start.toNat then
    some (.invalidRegion s!"start block {r.start} outside store of {a.totalBlocks} blocks")
  else if r.blocks = 0 || a.heads[r.start.toNat]? != some r.blocks then
    some (.invalidRegion s!"no live run of {r.blocks} blocks at block {r.start}")
  else if r.blocks.toNat * a.blockSize < r.length.toNat then
    some (.invalidRegion s!"length {r.length} exceeds {r.blocks} blocks")
  else none

/-- Address of the first byte of a region. -/
def address (a : Arena) (r : Region) : Nat := r.start.toNat * a.blockSize

/-- Copies a value into a live region of exactly its length. -/
def write (a : Arena) (r : Region) (data : Bytes) : Except StoreError Arena :=
  match a.fault? r with
  | some fault => .error fault
  | none =>
    if data.length = r.length.toNat then .ok { a with tape := a.tape.write (a.address r) data }
    else .error (.invalidRegion s!"write of {data.length} bytes into region of {r.length} bytes")

/-- The value in a live region. -/
def get (a : Arena) (r : Region) : Except StoreError Bytes :=
  match a.fault? r with
  | some fault => .error fault
  | none => .ok (a.tape.read (a.address r) r.length.toNat)

/-- Gives the blocks of a live region back. Their bytes stay as they are. -/
def free (a : Arena) (r : Region) : Except StoreError Arena :=
  match a.fault? r with
  | some fault => .error fault
  | none =>
    let start := r.start.toNat
    let count := r.blocks.toNat
    .ok { a with
      used := a.used.unmarkRun start count
      heads := a.heads.erase start
      freeBlocks := a.freeBlocks + count
      searchFrom := min a.searchFrom start }

/-- Makes every block free. The bytes stay as they are. -/
def clear (a : Arena) : Arena :=
  { a with
    used := .empty
    heads := ∅
    freeBlocks := a.totalBlocks
    searchFrom := 0 }

/-- Releases the arena for good. -/
def close (a : Arena) : Arena :=
  { a with
    used := .empty
    heads := ∅
    tape := .blank
    totalBlocks := 0
    freeBlocks := 0
    searchFrom := 0
    closed := true }

/-- The arena's figures for diagnostics. -/
def description (a : Arena) : String :=
  s!"BlockStore \x7b block_size: {a.blockSize}, total_blocks: {a.totalBlocks}, " ++
    s!"free_blocks: {a.freeBlocks}, closed: {a.closed}, .. \x7d"

end Arena
end BlockCache
