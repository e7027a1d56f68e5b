import BlockCache.Arena.Bitmap

/-!
# First fit

`findRun` gives the first run of free blocks that is long enough, from the block on at which it is
asked to start. A word that it passes over whole has no free block, so no run reaches into it. Where no
block before is free, the answer is that of a search that tries every block in turn.
-/

namespace BlockCache.Bitmap

/-- The `needed` blocks from `start` on lie below `total` and are free. -/
structure FreeRun (b : Bitmap) (total needed start : Nat) : Prop where
  inside : start + needed ≤ total
  free : ∀ block, start ≤ block → block < start + needed → b.isUsed block = false

theorem FreeRun.not_of_used {b : Bitmap} {total needed start block : Nat} (used : b.isUsed block = true)
    (low : start ≤ block) (high : block < start + needed) : ¬b.FreeRun total needed start := by
  intro run
  rw [run.free block low high] at used
  exact Bool.false_ne_true used

/-- Every block of a full word is used. -/
theorem isUsed_of_isFullWord {b : Bitmap} {block other : Nat} (full : b.isFullWord block = true)
    (same : other / 64 = block / 64) : b.isUsed other = true := by
  have word : b.word other = 0xFFFFFFFFFFFFFFFF := by
    rw [word, same]
    exact beq_iff_eq.1 full
  have ones : (0xFFFFFFFFFFFFFFFF : UInt64).toNat = 2 ^ 64 - 1 := rfl
  rw [isUsed_eq_testBit, word, ones, Nat.testBit_two_pow_sub_one, decide_eq_true_eq]
  exact Nat.mod_lt _ (by decide)

/-- What a search answers: the first free run, or that there is none. -/
def IsFirstFrom (b : Bitmap) (total needed start : Nat) : Option Nat → Prop
  | some found => b.FreeRun total needed found ∧ start ≤ found ∧
      ∀ earlier, start ≤ earlier → earlier < found → ¬b.FreeRun total needed earlier
  | none => ∀ later, start ≤ later → ¬b.FreeRun total needed later

/-- A search that no run before `middle` can answer may start at `middle`. -/
theorem IsFirstFrom.of_later {b : Bitmap} {total needed start middle : Nat} {found : Option Nat}
    (first : b.IsFirstFrom total needed middle found) (le : start ≤ middle)
    (none_before : ∀ earlier, start ≤ earlier → earlier < middle → ¬b.FreeRun total needed earlier) :
    b.IsFirstFrom total needed start found := by
  cases found with
  | none =>
    intro later low
    by_cases before : later < middle
    · exact none_before later low before
    · exact first later (by omega)
  | some found =>
    obtain ⟨run, here, none_between⟩ := first
    refine ⟨run, by omega, fun earlier low high => ?_⟩
    by_cases before : earlier < middle
    · exact none_before earlier low before
    · exact none_between earlier (by omega) high

/-- The search answers the first free run from `start` on, if the blocks from `start` to `block` are
free and still too few. -/
theorem findRun_isFirstFrom (b : Bitmap) {total needed block start len : Nat} (read : start + len = block)
    (free : ∀ i, start ≤ i → i < block → b.isUsed i = false) (short : len < needed) :
    b.IsFirstFrom total needed start (b.findRun total needed block start len) := by
  fun_induction findRun b total needed block start len with
  | case1 block start len inside full ih =>
    -- every block of the word is used: a run from before it would reach into it
    obtain ⟨aligned, full⟩ := by simpa using full
    have used (i : Nat) (low : block ≤ i) (high : i < block + 64) : b.isUsed i = true :=
      isUsed_of_isFullWord full (by omega)
    refine (ih rfl (by omega) (by omega)).of_later (by omega) fun earlier low high => ?_
    by_cases before : earlier ≤ block
    · exact FreeRun.not_of_used (used block (by omega) (by omega)) before (by omega)
    · exact FreeRun.not_of_used (used earlier (by omega) (by omega)) (by omega) (by omega)
  | case2 block start len inside partly used ih =>
    refine (ih rfl (by omega) (by omega)).of_later (by omega) fun earlier low high => ?_
    exact FreeRun.not_of_used used (by omega) (by omega)
  | case3 block start len inside partly unused enough =>
    refine ⟨⟨by omega, fun i low high => ?_⟩, by omega, by omega⟩
    by_cases here : i = block
    · simpa [here] using unused
    · exact free i low (by omega)
  | case4 block start len inside partly unused more ih =>
    refine ih (by omega) (fun i low high => ?_) (by omega)
    by_cases here : i = block
    · simpa [here] using unused
    · exact free i low (by omega)
  | case5 block start len outside =>
    intro later low run
    have := run.inside
    omega

/-- A search from a block on answers the first free run from there on. -/
theorem findRun_isFirst (b : Bitmap) (total start : Nat) {needed : Nat} (positive : 0 < needed) :
    b.IsFirstFrom total needed start (b.findRun total needed start start 0) :=
  b.findRun_isFirstFrom (Nat.add_zero start) (by omega) positive

section Scan

variable {b : Bitmap} {total needed start : Nat}

/-- The first run of `needed` free blocks below `total`, with every block tried in turn. -/
def scan (b : Bitmap) (total needed : Nat) : Option Nat :=
  (List.range total).find? fun start =>
    start + needed ≤ total && (List.range' start needed).all fun block => !b.isUsed block

theorem freeRun_iff : b.FreeRun total needed start ↔
    (start + needed ≤ total && (List.range' start needed).all fun block => !b.isUsed block) = true := by
  rw [Bool.and_eq_true, decide_eq_true_eq, List.all_eq_true]
  simp only [List.mem_range'_1, Bool.not_eq_true', and_imp]
  constructor
  · rintro ⟨inside, free⟩
    exact ⟨inside, free⟩
  · rintro ⟨inside, free⟩
    exact ⟨inside, free⟩

theorem scan_isFirst (b : Bitmap) (total : Nat) (positive : 0 < needed) :
    b.IsFirstFrom total needed 0 (b.scan total needed) := by
  rcases found : b.scan total needed with - | start
  · intro later _ run
    have inside := run.inside
    have tried := List.find?_range_eq_none.1 found later (by omega)
    rw [freeRun_iff.1 run] at tried
    cases tried
  · obtain ⟨free, -, before⟩ := List.find?_range_eq_some.1 found
    refine ⟨freeRun_iff.2 free, Nat.zero_le _, fun earlier _ below run => ?_⟩
    have tried := before earlier below
    rw [freeRun_iff.1 run] at tried
    cases tried

/-- A search has one answer only. -/
theorem IsFirstFrom.eq {found other : Option Nat} (first : b.IsFirstFrom total needed start found)
    (second : b.IsFirstFrom total needed start other) : found = other := by
  rcases found with - | found <;> rcases other with - | other
  · rfl
  · exact absurd second.1 (first other second.2.1)
  · exact absurd first.1 (second found first.2.1)
  · obtain ⟨run, low, none_before⟩ := first
    obtain ⟨runOther, lowOther, none_beforeOther⟩ := second
    rcases Nat.lt_trichotomy found other with less | same | more
    · exact absurd run (none_beforeOther found low less)
    · exact congrArg some same
    · exact absurd runOther (none_before other lowOther more)

end Scan

end BlockCache.Bitmap
