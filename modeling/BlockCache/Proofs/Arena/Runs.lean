import BlockCache.Arena.Basic
import BlockCache.Entries
import BlockCache.Proofs.Arena.FirstFit
import Mathlib.Algebra.BigOperators.Group.List.Basic
import Mathlib.Algebra.GroupWithZero.Nat

/-!
# Live runs

The table of run heads describes an arena: the live runs lie inside it and apart from each other,
they are what the bitmap marks as used, and their blocks and the free blocks make up the arena. Such
an arena is `Sound`; every operation keeps it so. A region may be used exactly if it names a live
run and is no longer than it.
-/

namespace BlockCache.Arena

/-- Some live run has the block. -/
def Covers (a : Arena) (block : Nat) : Prop :=
  ∃ (start : Nat) (n : UInt32), a.heads[start]? = some n ∧ start ≤ block ∧ block < start + n.toNat

/-- Blocks in live runs. -/
def liveBlocks (a : Arena) : Nat := (a.heads.toList.map (·.2.toNat)).sum

/-- The run heads describe the arena. -/
structure Sound (a : Arena) : Prop where
  bounded : a.totalBlocks ≤ maxBlocks
  inside : ∀ {start : Nat} {n : UInt32}, a.heads[start]? = some n → 0 < n.toNat ∧ start + n.toNat ≤ a.totalBlocks
  apart : ∀ {s t : Nat} {n m : UInt32}, a.heads[s]? = some n → a.heads[t]? = some m → s < t → s + n.toNat ≤ t
  used_iff : ∀ block, a.used.isUsed block = true ↔ a.Covers block
  balance : a.freeBlocks + a.liveBlocks = a.totalBlocks
  /-- No block below the search start is free. -/
  hint : ∀ block, block < a.searchFrom → a.used.isUsed block = true
  released : a.closed = true → a.totalBlocks = 0

/-- The region names a live run and is no longer than it. -/
structure Owns (a : Arena) (r : Region) : Prop where
  live : a.heads[r.start.toNat]? = some r.blocks
  fits : r.length.toNat ≤ r.blocks.toNat * a.blockSize

/-- `a'` is `a` with the run of `r` reserved, for a value of `size` bytes. -/
structure Reserves (a : Arena) (size : Nat) (r : Region) (a' : Arena) : Prop where
  run : a.used.FreeRun a.totalBlocks (a.blocksFor size) r.start.toNat
  absent : a.heads[r.start.toNat]? = none
  length : r.length = size.toUInt32
  blocks : r.blocks.toNat = a.blocksFor size
  heads : a'.heads = a.heads.insert r.start.toNat r.blocks
  tape : a'.tape = a.tape
  blockSize : a'.blockSize = a.blockSize
  totalBlocks : a'.totalBlocks = a.totalBlocks
  closed : a'.closed = a.closed

theorem blocksFor_congr {a b : Arena} (same : b.blockSize = a.blockSize) (size : Nat) :
    b.blocksFor size = a.blocksFor size := by
  rw [blocksFor, blocksFor, same]

theorem blocksFor_pos (a : Arena) (size : Nat) : 0 < a.blocksFor size := by
  rw [blocksFor]; omega

theorem le_blocksFor_mul (a : Arena) (size : Nat) : size ≤ a.blocksFor size * a.blockSize := by
  have positive := a.blockSize_pos
  have ceil : size ≤ (size + a.blockSize - 1) / a.blockSize * a.blockSize := by
    have := Nat.div_add_mod (size + a.blockSize - 1) a.blockSize
    have := Nat.mod_lt (size + a.blockSize - 1) positive
    rw [Nat.mul_comm]
    omega
  exact Nat.le_trans ceil (Nat.mul_le_mul_right _ (Nat.le_max_left ..))

/-- A value no larger than the arena needs no more blocks than the arena has. -/
theorem blocksFor_le_totalBlocks {a : Arena} {size : Nat} (positive : 0 < size) (fits : size ≤ a.size) :
    a.blocksFor size ≤ a.totalBlocks := by
  have blocks : 0 < a.totalBlocks := by
    rcases Nat.eq_zero_or_pos a.totalBlocks with none | some
    · rw [Arena.size, none] at fits; omega
    · exact some
  have ceil : (size + a.blockSize - 1) / a.blockSize ≤ a.totalBlocks := by
    rw [← Nat.lt_succ_iff, Nat.div_lt_iff_lt_mul a.blockSize_pos, Nat.succ_mul]
    have := a.blockSize_pos
    unfold Arena.size at fits
    omega
  exact Nat.max_le.2 ⟨ceil, blocks⟩

namespace Reserves

variable {a a' : Arena} {size : Nat} {r : Region}

/-- The length of a region is a 32-bit word. -/
theorem length_eq (reserves : a.Reserves size r a') : r.length.toNat = size % UInt32.size := by
  rw [reserves.length]
  exact UInt32.toNat_ofNat'

theorem size_le (reserves : a.Reserves size r a') : size ≤ r.blocks.toNat * a'.blockSize := by
  rw [reserves.blocks, reserves.blockSize]
  exact a.le_blocksFor_mul size

/-- A region that was reserved may be used. -/
theorem owns (reserves : a.Reserves size r a') : a'.Owns r := by
  constructor
  · rw [reserves.heads, Std.TreeMap.getElem?_insert_self]
  · rw [reserves.length_eq]
    exact Nat.le_trans (Nat.mod_le ..) reserves.size_le

end Reserves

/-- Reserving is refused for want of room only, unless the arena was released. -/
theorem alloc_error {a : Arena} {size : Nat} {e : StoreError} (opened : a.closed = false)
    (refused : a.alloc size = .error e) : e = .outOfSpace size a.freeBytes := by
  unfold Arena.alloc at refused
  rw [opened] at refused
  dsimp only at refused
  repeat' split at refused
  all_goals simp_all

/-- The arena with the blocks of a run reserved. -/
def withRun (a : Arena) (start needed : Nat) : Arena :=
  { a with
    used := a.used.markRun start needed
    heads := a.heads.insert start needed.toUInt32
    freeBlocks := a.freeBlocks - needed
    searchFrom := if start = a.searchFrom then start + needed else a.searchFrom }

/-- The arena with the blocks of a region free again. -/
def withoutRun (a : Arena) (r : Region) : Arena :=
  { a with
    used := a.used.unmarkRun r.start.toNat r.blocks.toNat
    heads := a.heads.erase r.start.toNat
    freeBlocks := a.freeBlocks + r.blocks.toNat
    searchFrom := min a.searchFrom r.start.toNat }

/-- What reserving answers: a free run that is as long as the value needs. -/
theorem alloc_ok {a a' : Arena} {size : Nat} {r : Region} (reserved : a.alloc size = .ok (r, a')) :
    a.closed = false ∧ a.blocksFor size ≤ a.freeBlocks ∧
      ∃ start, a.used.FreeRun a.totalBlocks (a.blocksFor size) start ∧
        r = ⟨size.toUInt32, (a.blocksFor size).toUInt32, start.toUInt32⟩ ∧ a' = a.withRun start (a.blocksFor size) := by
  have first := a.used.findRun_isFirst a.totalBlocks a.searchFrom (a.blocksFor_pos size)
  unfold Arena.alloc at reserved
  dsimp only at reserved
  split at reserved
  · cases reserved
  rename_i opened
  split at reserved
  · cases reserved
  rename_i room
  split at reserved
  · cases reserved
  rename_i start found
  rw [found] at first
  obtain ⟨rfl, rfl⟩ := Prod.mk.inj (Except.ok.inj reserved)
  exact ⟨by simpa using opened, Nat.not_lt.1 room, start, first.1, rfl, rfl⟩

namespace Sound

variable {a a' : Arena} {r : Region}

theorem not_closed_of_live (sound : a.Sound) {start : Nat} {n : UInt32} (live : a.heads[start]? = some n) :
    a.closed = false := by
  have := sound.inside live
  cases closed : a.closed
  · rfl
  · have := sound.released closed
    omega

theorem fault?_eq_none_iff (sound : a.Sound) : a.fault? r = none ↔ a.Owns r := by
  constructor
  · intro none
    unfold fault? at none
    repeat' split at none
    all_goals simp at none
    rename_i _ _ dead long
    simp only [Bool.or_eq_true, not_or, bne_iff_ne, ne_eq, Classical.not_not] at dead
    exact ⟨dead.2, by omega⟩
  · rintro ⟨live, fits⟩
    have inside := sound.inside live
    have positive : ¬r.blocks = 0 := by
      intro zero
      rw [zero] at inside
      exact absurd inside.1 (by decide)
    rw [fault?, sound.not_closed_of_live live, if_neg (by decide), if_neg (by omega),
      if_neg (by simp [live, positive]), if_neg (by omega)]

theorem get_eq (sound : a.Sound) (owns : a.Owns r) :
    a.get r = .ok (a.tape.read (a.address r) r.length.toNat) := by
  rw [get, sound.fault?_eq_none_iff.2 owns]

theorem apart_of_ne (sound : a.Sound) {s t : Nat} {n m : UInt32} (first : a.heads[s]? = some n)
    (second : a.heads[t]? = some m) (ne : s ≠ t) : s + n.toNat ≤ t ∨ t + m.toNat ≤ s := by
  rcases Nat.lt_or_gt_of_ne ne with lt | gt
  · exact .inl (sound.apart first second lt)
  · exact .inr (sound.apart second first gt)

/-- A free run lies apart from every live run. -/
theorem apart_of_freeRun (sound : a.Sound) {needed start s : Nat} {n : UInt32}
    (run : a.used.FreeRun a.totalBlocks needed start) (needs : 0 < needed) (live : a.heads[s]? = some n) :
    s + n.toNat ≤ start ∨ start + needed ≤ s := by
  have positive := (sound.inside live).1
  by_contra meets
  -- the larger of the two starts is a block of both
  have used := (sound.used_iff (max s start)).2 ⟨s, n, live, by omega, by omega⟩
  rw [run.free _ (by omega) (by omega)] at used
  exact Bool.false_ne_true used

/-- Block numbers fit the fields that hold them. -/
theorem toNat_toUInt32 (sound : a.Sound) {n : Nat} (le : n ≤ a.totalBlocks) : n.toUInt32.toNat = n := by
  have small : a.totalBlocks < UInt32.size := Nat.lt_of_le_of_lt sound.bounded (by decide)
  exact UInt32.toNat_ofNat_of_lt' (Nat.lt_of_le_of_lt le small)

section Reserving

variable (sound : a.Sound) {needed start : Nat} (run : a.used.FreeRun a.totalBlocks needed start) (needs : 0 < needed)

include sound run needs

theorem absent_of_freeRun : a.heads[start]? = none := by
  cases live : a.heads[start]? with
  | none => rfl
  | some n =>
    have := sound.apart_of_freeRun run needs live
    have := sound.inside live
    omega

/-- The live runs of the arena with the run are the old ones and the run. -/
theorem heads_withRun {s : Nat} {n : UInt32} : (a.withRun start needed).heads[s]? = some n ↔
    s = start ∧ n = needed.toUInt32 ∨ a.heads[s]? = some n := by
  have absent := sound.absent_of_freeRun run needs
  change (a.heads.insert start needed.toUInt32)[s]? = some n ↔ _
  rw [Std.TreeMap.getElem?_insert]
  split
  · rename_i same
    obtain rfl := Nat.compare_eq_eq.1 same
    simp [absent, eq_comm]
  · rename_i other
    have ne : s ≠ start := fun same => other (Nat.compare_eq_eq.2 same.symm)
    simp [ne]

theorem liveBlocks_withRun : (a.withRun start needed).liveBlocks = needed + a.liveBlocks := by
  have sum := ((Entries.toList_insert a.heads start needed.toUInt32).map (·.2.toNat)).sum_eq
  rw [Entries.toList_erase_of_absent (sound.absent_of_freeRun run needs), List.map_cons, List.sum_cons,
    sound.toNat_toUInt32 (Nat.le_trans (Nat.le_add_left ..) run.inside)] at sum
  exact sum

/-- The live runs of the arena with the run lie inside it. -/
theorem inside_withRun {s : Nat} {n : UInt32} (live : (a.withRun start needed).heads[s]? = some n) :
    0 < n.toNat ∧ s + n.toNat ≤ a.totalBlocks := by
  rcases (sound.heads_withRun run needs).1 live with ⟨rfl, rfl⟩ | old
  · rw [sound.toNat_toUInt32 (Nat.le_trans (Nat.le_add_left ..) run.inside)]
    exact ⟨needs, run.inside⟩
  · exact sound.inside old

/-- The live runs of the arena with the run lie apart from each other. -/
theorem apart_withRun {s t : Nat} {n m : UInt32} (first : (a.withRun start needed).heads[s]? = some n)
    (second : (a.withRun start needed).heads[t]? = some m) (lt : s < t) : s + n.toNat ≤ t := by
  have length := sound.toNat_toUInt32 (Nat.le_trans (Nat.le_add_left ..) run.inside)
  rcases (sound.heads_withRun run needs).1 first with ⟨rfl, rfl⟩ | oldFirst <;>
    rcases (sound.heads_withRun run needs).1 second with ⟨rfl, rfl⟩ | oldSecond
  · omega
  · have := sound.apart_of_freeRun run needs oldSecond
    have := sound.inside oldSecond
    omega
  · have := sound.apart_of_freeRun run needs oldFirst
    omega
  · exact sound.apart oldFirst oldSecond lt

/-- Reserving a free run keeps the arena sound. -/
theorem withRun (room : needed ≤ a.freeBlocks) (opened : a.closed = false) : (a.withRun start needed).Sound := by
  have length := sound.toNat_toUInt32 (Nat.le_trans (Nat.le_add_left ..) run.inside)
  constructor
  · exact sound.bounded
  · exact fun live => sound.inside_withRun run needs live
  · exact fun first second lt => sound.apart_withRun run needs first second lt
  · intro block
    change (a.used.markRun start needed).isUsed block = true ↔ _
    simp only [Bitmap.isUsed_markRun, Bool.or_eq_true, decide_eq_true_eq, sound.used_iff]
    constructor
    · rintro (⟨s, n, live, low, high⟩ | here)
      · exact ⟨s, n, (sound.heads_withRun run needs).2 (.inr live), low, high⟩
      · exact ⟨start, _, (sound.heads_withRun run needs).2 (.inl ⟨rfl, rfl⟩), by omega, by omega⟩
    · rintro ⟨s, n, live, low, high⟩
      rcases (sound.heads_withRun run needs).1 live with ⟨rfl, rfl⟩ | old
      · exact .inr (by omega)
      · exact .inl ⟨s, n, old, low, high⟩
  · have balance := sound.balance
    rw [sound.liveBlocks_withRun run needs]
    change a.freeBlocks - needed + (needed + a.liveBlocks) = a.totalBlocks
    omega
  · intro block low
    change block < (if start = a.searchFrom then start + needed else a.searchFrom) at low
    change (a.used.markRun start needed).isUsed block = true
    rw [Bitmap.isUsed_markRun]
    have hint := sound.hint block
    split at low
    · by_cases before : block < a.searchFrom
      · simp [hint before]
      · simp; omega
    · simp [hint low]
  · intro closed
    rw [show a.closed = true from closed] at opened
    cases opened

end Reserving

/-- Reserving keeps the arena sound. -/
theorem alloc (sound : a.Sound) {size : Nat} (reserved : a.alloc size = .ok (r, a')) :
    a'.Sound ∧ a.Reserves size r a' := by
  have needs := a.blocksFor_pos size
  obtain ⟨opened, room, start, run, rfl, rfl⟩ := alloc_ok reserved
  have startBack : start.toUInt32.toNat = start := sound.toNat_toUInt32 (Nat.le_trans (Nat.le_add_right ..) run.inside)
  refine ⟨sound.withRun run needs room opened, ?_⟩
  constructor
  · rw [startBack]
    exact run
  · rw [startBack]
    exact sound.absent_of_freeRun run needs
  · rfl
  · exact sound.toNat_toUInt32 (Nat.le_trans (Nat.le_add_left ..) run.inside)
  · rw [startBack]
    rfl
  · rfl
  · rfl
  · rfl
  · rfl

/-- An arena without a live run has room for every value that is no larger than it. -/
theorem alloc_of_empty (sound : a.Sound) {size : Nat} (none_live : ∀ start : Nat, a.heads[start]? = none)
    (positive : 0 < size) (fits : size ≤ a.size) : ∃ r a', a.alloc size = .ok (r, a') := by
  have needed := blocksFor_le_totalBlocks positive fits
  have needs := a.blocksFor_pos size
  have opened : a.closed = false := by
    cases closed : a.closed
    · rfl
    · have := sound.released closed; omega
  have unused (block : Nat) : a.used.isUsed block = false := by
    by_contra used
    obtain ⟨start, n, live, -⟩ := (sound.used_iff block).1 (by simpa using used)
    simp [none_live] at live
  have start : a.searchFrom = 0 := by
    by_contra later
    have := sound.hint 0 (by omega)
    rw [unused] at this
    exact Bool.false_ne_true this
  have free : a.freeBlocks = a.totalBlocks := by
    have balance := sound.balance
    have none : a.heads.toList = [] := by
      rw [List.eq_nil_iff_forall_not_mem]
      intro entry mem
      have live := Std.TreeMap.mem_toList_iff_getElem?_eq_some.1 (show (entry.1, entry.2) ∈ _ from mem)
      simp [none_live] at live
    simpa [liveBlocks, none] using balance
  have found := a.used.findRun_isFirst a.totalBlocks a.searchFrom needs
  unfold Arena.alloc
  dsimp only
  rw [opened, if_neg (by decide), if_neg (by omega)]
  split
  · rename_i missing
    rw [missing] at found
    exact absurd ⟨by omega, fun block _ _ => unused block⟩ (found 0 (by omega))
  · exact ⟨_, _, rfl⟩

/-- The live runs of the arena without a region are the other ones. -/
theorem heads_withoutRun {s : Nat} {n : UInt32} :
    (a.withoutRun r).heads[s]? = some n ↔ r.start.toNat ≠ s ∧ a.heads[s]? = some n := by
  change (a.heads.erase r.start.toNat)[s]? = some n ↔ _
  rw [Std.TreeMap.getElem?_erase]
  split
  · rename_i same
    simp [Nat.compare_eq_eq.1 same]
  · rename_i other
    have ne : r.start.toNat ≠ s := fun same => other (Nat.compare_eq_eq.2 same)
    simp [ne]

/-- Giving a region back keeps the arena sound. -/
theorem withoutRun (sound : a.Sound) (owns : a.Owns r) : (a.withoutRun r).Sound := by
  have run := sound.inside owns.live
  constructor
  · exact sound.bounded
  · intro s n live
    exact sound.inside (heads_withoutRun.1 live).2
  · intro s t n m first second lt
    exact sound.apart (heads_withoutRun.1 first).2 (heads_withoutRun.1 second).2 lt
  · intro block
    change (a.used.unmarkRun r.start.toNat r.blocks.toNat).isUsed block = true ↔ _
    simp only [Bitmap.isUsed_unmarkRun, Bool.and_eq_true, Bool.not_eq_true', decide_eq_false_iff_not, sound.used_iff]
    constructor
    · rintro ⟨⟨s, n, live, low, high⟩, outside⟩
      refine ⟨s, n, heads_withoutRun.2 ⟨?_, live⟩, low, high⟩
      rintro rfl
      obtain rfl := Option.some.inj (owns.live.symm.trans live)
      exact outside ⟨low, high⟩
    · rintro ⟨s, n, live, low, high⟩
      obtain ⟨other, old⟩ := heads_withoutRun.1 live
      have apart := sound.apart_of_ne old owns.live (Ne.symm other)
      exact ⟨⟨s, n, old, low, high⟩, by omega⟩
  · have sum := ((Entries.toList_of_getElem? owns.live).map (·.2.toNat)).sum_eq
    rw [List.map_cons, List.sum_cons] at sum
    change a.liveBlocks = r.blocks.toNat + (a.withoutRun r).liveBlocks at sum
    have balance := sound.balance
    change a.freeBlocks + r.blocks.toNat + (a.withoutRun r).liveBlocks = a.totalBlocks
    omega
  · intro block low
    change block < min a.searchFrom r.start.toNat at low
    change (a.used.unmarkRun r.start.toNat r.blocks.toNat).isUsed block = true
    rw [Bitmap.isUsed_unmarkRun, sound.hint block (by omega)]
    simp
    omega
  · exact sound.released

/-- A region in use can be given back. -/
theorem free_eq (sound : a.Sound) (owns : a.Owns r) : a.free r = .ok (a.withoutRun r) := by
  rw [free, sound.fault?_eq_none_iff.2 owns]
  rfl

/-- An arena without live runs, every block of which is free, is sound. -/
theorem of_empty {b : Arena} (bounded : b.totalBlocks ≤ maxBlocks) (used : b.used = .empty) (heads : b.heads = ∅)
    (free : b.freeBlocks = b.totalBlocks) (hint : b.searchFrom = 0)
    (released : b.closed = true → b.totalBlocks = 0) : b.Sound := by
  refine ⟨bounded, ?_, ?_, ?_, ?_, ?_, released⟩
  · intro s n live
    simp [heads] at live
  · intro s t n m live
    simp [heads] at live
  · intro block
    have unused : b.used.isUsed block = false := by
      rw [used, Bitmap.isUsed_eq_testBit, Bitmap.word, Bitmap.empty]
      simp
    rw [unused]
    simp [Covers, heads]
  · rw [liveBlocks, heads, free]
    rfl
  · intro block low
    omega

theorem clear (sound : a.Sound) : a.clear.Sound := of_empty sound.bounded rfl rfl rfl rfl sound.released

theorem close : a.close.Sound := of_empty (Nat.zero_le _) rfl rfl rfl rfl fun _ => rfl

theorem new (capacity blockSize : Nat) : (Arena.new capacity blockSize).Sound :=
  of_empty (Nat.min_le_right ..) rfl rfl rfl rfl (by simp [Arena.new])

/-- The bytes in an arena do not matter to its runs. -/
theorem withTape (sound : a.Sound) (tape : Tape) : { a with tape }.Sound :=
  ⟨sound.bounded, sound.inside, sound.apart, sound.used_iff, sound.balance, sound.hint, sound.released⟩

end Sound

end BlockCache.Arena
