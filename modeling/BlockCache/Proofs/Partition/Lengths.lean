import BlockCache.Proofs.Arena.Ledger
import BlockCache.Proofs.Partition.Displacement

/-!
# How long a value may be

An arena counts the blocks of a value, so that a value of any length gets a run that is long enough. But a region
has its length as a 32-bit word. Of a length of 4 GiB or more it has what is left modulo 2^32, and a write of all
the bytes into it is refused. A write into a partition then stops halfway: the key's old entry is gone, and the run
stays reserved although no entry has it. What is shorter than that is stored wherever it fits, and read back.
-/

namespace BlockCache

namespace Arena

/-- What a region does for a value of `size` bytes that it was reserved for. -/
structure Serves (a : Arena) (size : Nat) (r : Region) : Prop where
  length : r.length.toNat = size % UInt32.size
  room : size ≤ r.blocks.toNat * a.blockSize
  /-- A value of less than 4 GiB is accepted and read back. -/
  whole : size < UInt32.size → ∀ data : Bytes, data.length = size →
    ∃ written, a.write r data = .ok written ∧ written.get r = .ok data
  /-- A longer value is refused, although there is room for it. -/
  refused : UInt32.size ≤ size → ∀ data : Bytes, data.length = size →
    ∃ detail, a.write r data = .error (.invalidRegion detail)

/-- A value is refused that is not as long as its region says. -/
theorem Sound.write_of_ne {a : Arena} (sound : a.Sound) {r : Region} (owns : a.Owns r) {data : Bytes}
    (other : data.length ≠ r.length.toNat) : ∃ detail, a.write r data = .error (.invalidRegion detail) := by
  rw [write, sound.fault?_eq_none_iff.2 owns]
  dsimp only
  rw [if_neg other]
  exact ⟨_, rfl⟩

theorem Sound.serves {a b : Arena} (sound : a.Sound) {size : Nat} {r : Region} (reserved : a.alloc size = .ok (r, b)) :
    b.Serves size r := by
  obtain ⟨after, reserves⟩ := sound.alloc reserved
  refine ⟨reserves.length_eq, reserves.size_le, fun short data length => ?_, fun long data length => ?_⟩
  · have same : data.length = r.length.toNat := by rw [length, reserves.length_eq, Nat.mod_eq_of_lt short]
    exact ⟨_, after.write_eq reserves.owns same, after.get_write reserves.owns same⟩
  · refine after.write_of_ne reserves.owns ?_
    have cut := r.length.toNat_lt
    rw [length]
    exact fun same => absurd long (Nat.not_le.2 (same ▸ cut))

end Arena

namespace Partition

/-- The `count` blocks from `start` on are in use, and no entry has one of them. -/
def Stranded (p : Partition) (start count : Nat) : Prop :=
  ∀ block, start ≤ block → block < start + count →
    p.arena.used.isUsed block = true ∧ ∀ link ∈ p.chains.links, ¬link.Covers block

/-- What becomes of an item that is put into a partition that could hold it if it were empty. -/
structure Stores (p : Partition) (clocks : Clocks) (item : Item) : Prop where
  /-- So far, the blocks in use are those of the entries. -/
  consistent : p.Consistent
  /-- An item of less than 4 GiB is stored and read back, and no block is in use without an entry. -/
  whole : p.checkFits item.encodedLength = .ok () → item.encodedLength < UInt32.size →
    ∃ q, p.put clocks item = (.ok (p.view item.key), q, (clocks.commit item).2.2) ∧
      q.lookup item.key = .ok (some (clocks.commit item).1) ∧ q.Consistent
  /-- A longer item is refused, after its key's old entry was taken out and a run was reserved. -/
  halved : p.checkFits item.encodedLength = .ok () → UInt32.size ≤ item.encodedLength →
    ∃ detail q start, p.put clocks item = (.error (.invalidRegion detail), q, (clocks.commit item).2.2) ∧
      q.lookup item.key = .ok none ∧ q.Stranded start (p.arena.blocksFor item.encodedLength)

theorem checkFits_eq_ok_iff {p : Partition} {length : Nat} : p.checkFits length = .ok () ↔ length ≤ p.size := by
  refine ⟨fun fits => ?_, checkFits_of_fits⟩
  by_contra large
  rw [checkFits, if_pos (show p.arena.size < length from Nat.not_le.1 large)] at fits
  cases fits

/-- A write whose bytes are refused answers why, and leaves what it had done by then. -/
theorem put_of_unstored {p q r : Partition} {clocks : Clocks} {item : Item} {old : Option Item} {e : StoreError}
    (fits : item.encodedLength ≤ p.size) (removed : p.remove item.key = (.ok old, q))
    (failed : q.storeNew item.key (clocks.commit item).1.encode (clocks.commit item).2.1 = (.error e, r)) :
    p.put clocks item = (.error e, r, (clocks.commit item).2.2) := by
  unfold put
  rw [checkFits_of_fits fits]
  dsimp only
  rw [clocks.commit_key, removed]
  dsimp only
  rw [failed]

namespace Sound

variable {p : Partition} {drawn : Nat}

/-- The run that was just reserved is in use, and no entry has it yet. -/
theorem stranded (sound : p.Sound drawn) {size : Nat} {r : Region} {a : Arena}
    (reserved : p.arena.alloc size = .ok (r, a)) :
    Stranded { p with arena := a } r.start.toNat (p.arena.blocksFor size) := by
  obtain ⟨after, reserves⟩ := sound.arena.alloc reserved
  intro block low high
  constructor
  · refine (after.used_iff block).2 ⟨_, _, reserves.owns.live, low, ?_⟩
    rwa [reserves.blocks]
  · intro link mem covers
    have used := (sound.arena.used_iff block).2 ((sound.covers_iff block).2 ⟨link, mem, covers⟩)
    rw [reserves.run.free block low high] at used
    cases used

/-- A long item finds room in the arena, but its bytes are refused. -/
theorem storeNew_of_long (sound : p.Sound drawn) {item : Item} (absent : p.view item.key = none)
    (fits : item.encodedLength ≤ p.arena.size) (long : UInt32.size ≤ item.encodedLength) (stamp : UInt64) :
    ∃ detail q start, p.storeNew item.key item.encode stamp = (.error (.invalidRegion detail), q) ∧
      q.lookup item.key = .ok none ∧ q.Stranded start (p.arena.blocksFor item.encodedLength) := by
  obtain ⟨gone, room, r, a, run, reserved, found⟩ := sound.allocEvicting item.encodedLength_pos fits
  obtain ⟨after, without, -⟩ := sound.evicting run
  obtain ⟨detail, refused⟩ := (after.arena.serves reserved).refused long item.encode item.length_encode
  have still : room.view item.key = none := by rw [without.view, absent, ite_self]
  have stranded := after.stranded reserved
  rw [Arena.blocksFor_congr without.blockSize] at stranded
  refine ⟨detail, { room with arena := a }, r.start.toNat, ?_, ?_, stranded⟩
  · rw [Partition.storeNew, Partition.insert, item.length_encode, found]
    dsimp only
    rw [refused]
  · rw [Partition.lookup, after.view_eq_none_iff.1 still]

theorem put_of_long (sound : p.Sound drawn) (clocks : Clocks) {item : Item} (fits : item.encodedLength ≤ p.size)
    (long : UInt32.size ≤ item.encodedLength) :
    ∃ detail q start, p.put clocks item = (.error (.invalidRegion detail), q, (clocks.commit item).2.2) ∧
      q.lookup item.key = .ok none ∧ q.Stranded start (p.arena.blocksFor item.encodedLength) := by
  obtain ⟨r, removed, after, removes⟩ := sound.remove item.key
  have absent : r.view (clocks.commit item).1.key = none := by rw [clocks.commit_key, removes.view, if_pos rfl]
  obtain ⟨detail, q, start, failed, lost, stranded⟩ :=
    after.storeNew_of_long absent (removes.size.symm ▸ fits) long (clocks.commit item).2.1
  refine ⟨detail, q, start, put_of_unstored fits removed failed, lost, ?_⟩
  rwa [Arena.blocksFor_congr removes.blockSize] at stranded

theorem stores {clocks : Clocks} (sound : p.Sound clocks.stamps.issued) {item : Item}
    (few : (p.put clocks item).2.2.stamps.issued < UInt64.size) : p.Stores clocks item where
  consistent := sound.consistent
  whole fits short := by
    obtain ⟨gone, q, stored, after, writes⟩ := sound.put (checkFits_eq_ok_iff.1 fits) short few
    refine ⟨q, stored, ?_, after.consistent⟩
    rw [after.lookup_eq, writes.view, if_pos (clocks.commit_key item).symm]
  halved fits long := sound.put_of_long clocks (checkFits_eq_ok_iff.1 fits) long

end Sound
end Partition

/-- A region reserved in an arena that any operations led to serves a value of less than 4 GiB in full, and no longer
one. So does a partition: an item that could fit it is stored in full, or is refused for its length halfway. The
partition is one that any operations led to, as long as none of them was given such a long item. -/
theorem serves_below_four_gibibytes (arenaBytes blockSize : Nat) :
    (∀ (ops : List Arena.Operation) (size : Nat) (r : Region) (after : Arena),
      ((Arena.new arenaBytes blockSize).runWith .empty ops).1.alloc size = .ok (r, after) → after.Serves size r) ∧
    ∀ (buckets ceiling : Nat) (ops : List Partition.Operation) (item : Item),
      let empty := Partition.new buckets arenaBytes blockSize ceiling
      Partition.Describable empty.size ops →
      (empty.run {} (ops ++ [.put item])).2.stamps.issued < UInt64.size →
      (empty.run {} ops).1.Stores (empty.run {} ops).2 item := by
  constructor
  · intro ops size r after reserved
    exact ((Arena.Backs.new arenaBytes blockSize).run ops).sound.serves reserved
  · intro buckets ceiling ops item empty short few
    rw [Partition.run_concat] at few
    have before := Partition.issued_le_perform (empty.run {} ops).1 (empty.run {} ops).2 (.put item)
    obtain ⟨sound, -⟩ := (Partition.Sound.new buckets arenaBytes blockSize ceiling).run_of_describable (Nat.le_refl _)
      short (Nat.lt_of_le_of_lt before few)
    exact sound.stores few

theorem serves_below_four_gibibytes_twenty :
    (∃ r after, ((Arena.new 64 16).runWith .empty []).1.alloc 20 = .ok (r, after) ∧ after.Serves 20 r) ∧
    ((Partition.new 4 1024 16 0).run {} [.put ⟨⟨[97]⟩, 0, 0, 0, [1, 2, 3], 0, false, 0⟩]).1.Stores
      ((Partition.new 4 1024 16 0).run {} [.put ⟨⟨[97]⟩, 0, 0, 0, [1, 2, 3], 0, false, 0⟩]).2
      ⟨⟨[97]⟩, 0, 0, 0, [4], 0, false, 0⟩ := by
  constructor
  · obtain ⟨r, after, reserved⟩ :=
      (Arena.Sound.new 64 16).alloc_of_empty (fun _ => Std.TreeMap.getElem?_emptyc) (by decide) (show 20 ≤ _ by decide)
    exact ⟨r, after, reserved, (serves_below_four_gibibytes 64 16).1 [] 20 r after reserved⟩
  · exact (serves_below_four_gibibytes 1024 16).2 4 0 [.put ⟨⟨[97]⟩, 0, 0, 0, [1, 2, 3], 0, false, 0⟩]
      ⟨⟨[97]⟩, 0, 0, 0, [4], 0, false, 0⟩ (Partition.describable_of_small (by decide))
      (Nat.lt_of_le_of_lt (Partition.run_issued_le _ _ _) (by decide))

/-- The region for 4 GiB says that it has no byte, and an item that an arena of 4 GiB could just hold is refused; its run
stays in use without an entry. -/
theorem four_gibibytes_not_served :
    (∃ r after, (Arena.new UInt32.size 1048576).alloc UInt32.size = .ok (r, after) ∧ r.length.toNat = 0) ∧
    let empty := Partition.new 1 UInt32.size 1048576 0
    let item : Item := ⟨⟨[97]⟩, 0, 0, 0, List.replicate (UInt32.size - 37) 0, 0, false, 0⟩
    empty.checkFits item.encodedLength = .ok () ∧
      ∃ detail q start, empty.put {} item = (.error (.invalidRegion detail), q, (Clocks.commit {} item).2.2) ∧
        q.lookup item.key = .ok none ∧ q.Stranded start 4096 := by
  constructor
  · obtain ⟨r, after, reserved⟩ := (Arena.Sound.new UInt32.size 1048576).alloc_of_empty
      (fun _ => Std.TreeMap.getElem?_emptyc) (by decide) (show UInt32.size ≤ _ by decide)
    exact ⟨r, after, reserved, ((Arena.Sound.new UInt32.size 1048576).serves reserved).length⟩
  · intro empty item
    have length : item.encodedLength = UInt32.size := by
      rw [Item.encodedLength, List.length_replicate]
      decide
    have fits : item.encodedLength ≤ empty.size := by
      rw [length]
      decide
    refine ⟨Partition.checkFits_of_fits fits, ?_⟩
    have blocks : empty.arena.blocksFor item.encodedLength = 4096 := by
      rw [length]
      decide
    have halved := (Partition.Sound.new 1 UInt32.size 1048576 0).put_of_long {} fits (Nat.le_of_eq length.symm)
    rwa [blocks] at halved

end BlockCache
