import BlockCache.Proofs.Arena.Runs

/-!
# Room in an arena

Reserving is refused only where no run of free blocks is long enough. A free run and the live runs lie apart
in the arena, so as many blocks are free as the run has, and the count of free blocks never refuses a value
for which there is a run. No block below the search start is free, so the search finds the run.
-/

namespace BlockCache.Arena

/-- Runs in order of their starts that lie apart, between `low` and `total`, have no more blocks than lie there. -/
theorem sum_blocks_le {runs : List (Nat × UInt32)} {low total : Nat} (le : low ≤ total)
    (inside : ∀ run ∈ runs, low ≤ run.1 ∧ run.1 + run.2.toNat ≤ total)
    (apart : runs.Pairwise fun a b => a.1 + a.2.toNat ≤ b.1) : low + (runs.map (·.2.toNat)).sum ≤ total := by
  induction runs generalizing low with
  | nil => exact le
  | cons run runs ih =>
    obtain ⟨first, later⟩ := List.pairwise_cons.1 apart
    obtain ⟨above, below⟩ := inside run (List.mem_cons_self ..)
    have rest := ih below (fun other mem => ⟨first other mem, (inside other (List.mem_cons_of_mem _ mem)).2⟩) later
    rw [List.map_cons, List.sum_cons]
    omega

/-- Live runs that lie apart inside an arena have no more blocks than it. -/
theorem liveBlocks_le {a : Arena}
    (inside : ∀ {start : Nat} {n : UInt32}, a.heads[start]? = some n → start + n.toNat ≤ a.totalBlocks)
    (apart : ∀ {s t : Nat} {n m : UInt32}, a.heads[s]? = some n → a.heads[t]? = some m → s < t → s + n.toNat ≤ t) :
    a.liveBlocks ≤ a.totalBlocks := by
  have live {run : Nat × UInt32} (mem : run ∈ a.heads.toList) : a.heads[run.1]? = some run.2 :=
    Std.TreeMap.mem_toList_iff_getElem?_eq_some.1 mem
  have ordered : a.heads.toList.Pairwise fun a b => compare a.1 b.1 = .lt := Std.TreeMap.ordered_keys_toList
  have bound := sum_blocks_le (Nat.zero_le a.totalBlocks) (fun run mem => ⟨Nat.zero_le _, inside (live mem)⟩)
    (ordered.imp_of_mem fun mem memOther before => apart (live mem) (live memOther) (Nat.compare_eq_lt.1 before))
  rwa [Nat.zero_add] at bound

namespace Sound

variable {a : Arena} {needed start : Nat}

/-- A free run has no more blocks than are free. -/
theorem le_freeBlocks_of_freeRun (sound : a.Sound) (run : a.used.FreeRun a.totalBlocks needed start)
    (needs : 0 < needed) : needed ≤ a.freeBlocks := by
  have bound : (a.withRun start needed).liveBlocks ≤ a.totalBlocks :=
    liveBlocks_le (fun live => (sound.inside_withRun run needs live).2) (sound.apart_withRun run needs)
  rw [sound.liveBlocks_withRun run needs] at bound
  have balance := sound.balance
  omega

/-- The search starts at the hint, and might as well start at the first block. -/
theorem findRun_eq_scan (sound : a.Sound) (needs : 0 < needed) :
    a.used.findRun a.totalBlocks needed a.searchFrom a.searchFrom 0 = a.used.scan a.totalBlocks needed := by
  refine Bitmap.IsFirstFrom.eq ?_ (a.used.scan_isFirst a.totalBlocks needs)
  refine (a.used.findRun_isFirst a.totalBlocks a.searchFrom needs).of_later (Nat.zero_le _) fun earlier _ below => ?_
  exact Bitmap.FreeRun.not_of_used (sound.hint earlier below) (Nat.le_refl _) (by omega)

/-- What reserving comes to: the count of free blocks never refuses a value that the search finds a place for. -/
theorem alloc_eq (sound : a.Sound) (size : Nat) : a.alloc size =
    match a.used.scan a.totalBlocks (a.blocksFor size) with
    | none => .error (if a.closed then .closed else .outOfSpace size a.freeBytes)
    | some start => .ok (⟨size.toUInt32, (a.blocksFor size).toUInt32, start.toUInt32⟩,
        a.withRun start (a.blocksFor size)) := by
  have needs := a.blocksFor_pos size
  have first := a.used.scan_isFirst a.totalBlocks needs
  unfold Arena.alloc
  dsimp only
  rw [sound.findRun_eq_scan needs]
  rcases found : a.used.scan a.totalBlocks (a.blocksFor size) with - | start
  · by_cases closed : a.closed
    · rw [if_pos closed, if_pos closed]
    · rw [if_neg closed, if_neg closed, ite_self]
  · rw [found] at first
    obtain ⟨run, -⟩ := first
    have opened : ¬a.closed = true := by
      intro closed
      have := run.inside
      have := sound.released closed
      omega
    rw [if_neg opened, if_neg (Nat.not_lt.2 (sound.le_freeBlocks_of_freeRun run needs))]
    rfl

/-- A value can be reserved exactly if there is a free run of as many blocks as it needs. -/
theorem alloc_iff (sound : a.Sound) (size : Nat) :
    (∃ r a', a.alloc size = .ok (r, a')) ↔ ∃ start, a.used.FreeRun a.totalBlocks (a.blocksFor size) start := by
  have first := a.used.scan_isFirst a.totalBlocks (a.blocksFor_pos size)
  rw [sound.alloc_eq]
  rcases found : a.used.scan a.totalBlocks (a.blocksFor size) with - | place
  · rw [found] at first
    constructor
    · rintro ⟨r, a', ⟨⟩⟩
    · rintro ⟨start, run⟩
      exact absurd run (first start (Nat.zero_le _))
  · rw [found] at first
    exact ⟨fun _ => ⟨place, first.1⟩, fun _ => ⟨_, _, rfl⟩⟩

end Sound
end BlockCache.Arena
