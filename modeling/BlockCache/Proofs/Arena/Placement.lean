import BlockCache.Proofs.Arena.Ledger
import BlockCache.Proofs.Arena.Room

/-!
# Where a value is placed

A value is placed at the first block from which enough blocks are free. The search does not try every
block: it starts at a hint, and passes over whole words. It finds what a search finds that tries every
block in turn, because no block below the hint is free and none in a word that is passed over.
-/

namespace BlockCache

namespace Arena

/-- The block is one of the lease's run. -/
def Lease.Has (lease : Lease) (block : Nat) : Prop :=
  lease.start.toNat ≤ block ∧ block < lease.start.toNat + lease.blocks.toNat

/-- The `needed` blocks from `start` on lie in an arena of `total` blocks, and none of them is in a run that was given
out and not given back. -/
structure Ledger.Leaves (l : Ledger) (total needed start : Nat) : Prop where
  inside : start + needed ≤ total
  free : ∀ block, start ≤ block → block < start + needed → ∀ lease ∈ l.leases, ¬lease.Has block

/-- How an arena places a value of `size` bytes. -/
structure Places (a : Arena) (l : Ledger) (size : Nat) : Prop where
  needed : a.blocksFor size = max 1 (size ⌈/⌉ a.blockSize)
  /-- The value gets the blocks from `start` on exactly if they are left, and those from no earlier block on are. -/
  placed : ∀ start, (l.Leaves a.totalBlocks (a.blocksFor size) start ∧
      ∀ earlier < start, ¬l.Leaves a.totalBlocks (a.blocksFor size) earlier) ↔
    ∃ r after, a.perform (.alloc size) = (.ok (.region r), after) ∧ r.start.toNat = start ∧
      r.blocks.toNat = a.blocksFor size
  /-- The value is refused exactly if nowhere enough blocks are left, and then nothing changes. -/
  refused : (∀ start, ¬l.Leaves a.totalBlocks (a.blocksFor size) start) ↔
    a.perform (.alloc size) = (.error (if l.closed then .closed else .outOfSpace size a.freeBytes), a)
  /-- The search from the hint on agrees with the one that tries every block. -/
  search : a.used.findRun a.totalBlocks (a.blocksFor size) a.searchFrom a.searchFrom 0 =
    a.used.scan a.totalBlocks (a.blocksFor size)
  /-- No block below the hint is free. -/
  hint : ∀ block < a.searchFrom, a.used.isUsed block = true
  /-- The bitmap marks the blocks of the runs that were given out. -/
  marked : ∀ block, a.used.isUsed block = true ↔ ∃ lease ∈ l.leases, lease.Has block

section Sound

variable {a : Arena} (sound : a.Sound) {needed : Nat}

include sound

/-- Reserving in an arena, as the search that tries every block has it. -/
theorem Sound.perform_alloc (size : Nat) : a.perform (.alloc size) =
    match a.used.scan a.totalBlocks (a.blocksFor size) with
    | none => (.error (if a.closed then .closed else .outOfSpace size a.freeBytes), a)
    | some start => (.ok (.region ⟨size.toUInt32, (a.blocksFor size).toUInt32, start.toUInt32⟩),
        a.withRun start (a.blocksFor size)) := by
  rw [perform, sound.alloc_eq]
  rcases a.used.scan a.totalBlocks (a.blocksFor size) with - | start <;> rfl

/-- A value gets exactly the first free run that is long enough. -/
theorem Sound.placed_iff (size start : Nat) : (a.used.FreeRun a.totalBlocks (a.blocksFor size) start ∧
      ∀ earlier < start, ¬a.used.FreeRun a.totalBlocks (a.blocksFor size) earlier) ↔
    ∃ r after, a.perform (.alloc size) = (.ok (.region r), after) ∧ r.start.toNat = start ∧
      r.blocks.toNat = a.blocksFor size := by
  have first := a.used.scan_isFirst a.totalBlocks (a.blocksFor_pos size)
  have answer := sound.perform_alloc size
  rcases found : a.used.scan a.totalBlocks (a.blocksFor size) with - | place
  all_goals
    rw [found] at first answer
    rw [answer]
    constructor
  · rintro ⟨run, -⟩
    exact absurd run (first start (Nat.zero_le _))
  · rintro ⟨r, after, ⟨⟩, -⟩
  · rintro ⟨run, none_before⟩
    have here : a.used.IsFirstFrom a.totalBlocks (a.blocksFor size) 0 (some start) :=
      ⟨run, Nat.zero_le _, fun earlier _ below => none_before earlier below⟩
    obtain rfl := Option.some.inj (here.eq first)
    exact ⟨_, _, rfl, sound.toNat_toUInt32 (Nat.le_trans (Nat.le_add_right ..) run.inside),
      sound.toNat_toUInt32 (Nat.le_trans (Nat.le_add_left ..) run.inside)⟩
  · rintro ⟨r, after, ⟨⟩, rfl, -⟩
    obtain ⟨run, -, none_before⟩ := first
    have back : place.toUInt32.toNat = place := sound.toNat_toUInt32 (Nat.le_trans (Nat.le_add_right ..) run.inside)
    dsimp only
    rw [back]
    exact ⟨run, fun earlier below => none_before earlier (Nat.zero_le _) below⟩

/-- A value is refused exactly if no free run is long enough. -/
theorem Sound.refused_iff (size : Nat) : (∀ start, ¬a.used.FreeRun a.totalBlocks (a.blocksFor size) start) ↔
    a.perform (.alloc size) = (.error (if a.closed then .closed else .outOfSpace size a.freeBytes), a) := by
  have first := a.used.scan_isFirst a.totalBlocks (a.blocksFor_pos size)
  have answer := sound.perform_alloc size
  rcases found : a.used.scan a.totalBlocks (a.blocksFor size) with - | place
  all_goals
    rw [found] at first answer
    rw [answer]
    constructor
  · exact fun _ => rfl
  · exact fun _ start => first start (Nat.zero_le _)
  · exact fun none => absurd first.1 (none place)
  · rintro ⟨⟩

end Sound

namespace Backs

variable {a : Arena} {l : Ledger} (backs : a.Backs l)

include backs

/-- The blocks marked as used are those of the runs in the ledger. -/
theorem isUsed_iff (block : Nat) : a.used.isUsed block = true ↔ ∃ lease ∈ l.leases, lease.Has block := by
  rw [backs.sound.used_iff]
  constructor
  · rintro ⟨start, n, live, bounds⟩
    obtain ⟨lease, mem, rfl, rfl⟩ := backs.live_iff.1 live
    exact ⟨lease, mem, bounds⟩
  · rintro ⟨lease, mem, bounds⟩
    exact ⟨_, _, backs.live mem, bounds⟩

theorem leaves_iff {needed start : Nat} :
    l.Leaves a.totalBlocks needed start ↔ a.used.FreeRun a.totalBlocks needed start := by
  have free_iff (block : Nat) : a.used.isUsed block = false ↔ ∀ lease ∈ l.leases, ¬lease.Has block := by
    rw [← Bool.not_eq_true, backs.isUsed_iff]
    simp
  constructor
  · rintro ⟨inside, free⟩
    exact ⟨inside, fun block low high => (free_iff block).2 (free block low high)⟩
  · rintro ⟨inside, free⟩
    exact ⟨inside, fun block low high => (free_iff block).1 (free block low high)⟩

theorem places (size : Nat) : a.Places l size where
  needed := by rw [blocksFor, Nat.ceilDiv_eq_add_pred_div, Nat.max_comm]
  placed start := by
    simp only [backs.leaves_iff]
    exact backs.sound.placed_iff size start
  refused := by
    simp only [backs.leaves_iff, backs.closed]
    exact backs.sound.refused_iff size
  search := backs.sound.findRun_eq_scan (a.blocksFor_pos size)
  hint := backs.sound.hint
  marked := backs.isUsed_iff

end Backs

/-- After every run of operations on a new arena, whatever regions they were given, a value of any size is placed at
the first block from which enough blocks are left, or is refused because there is none. -/
theorem places_run (capacity blockSize : Nat) (ops : List Operation) (size : Nat) :
    let (a, l) := (Arena.new capacity blockSize).runWith .empty ops
    a.Places l size :=
  ((Backs.new capacity blockSize).run ops).places size

end Arena
end BlockCache
