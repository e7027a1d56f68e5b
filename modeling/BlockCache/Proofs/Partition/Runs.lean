import BlockCache.Proofs.Partition.Operations

/-!
# Runs of a partition

A run is a list of operations on a new partition. Stamps and CAS values come from clocks that other
partitions draw from too, so a draw from elsewhere is an operation as well. Every operation either
writes an item, in which case it comes down to a put, or cannot fail; and every operation keeps the
partition sound. A run therefore ends in a sound partition as long as its stamps fit a word.
-/

namespace BlockCache

/-- What an operation of a partition or an index answers. -/
inductive Answer where
  | item (found : Option Item)
  | acted (did : Bool)
  | victim (key : Option Key)
  | done
deriving DecidableEq

namespace Partition

/-- What can be done to a partition and its clocks. -/
inductive Operation where
  | put (item : Item)
  | putIfAbsent (item : Item)
  | replaceIf (expected item : Item)
  | remove (key : Key)
  | removeIf (expected : Item)
  | get (key : Key) (touch : Bool)
  | evictOldest
  | clear
  | close
  /-- A stamp drawn for another partition. -/
  | drawStamp
  /-- A CAS value drawn for another partition. -/
  | drawCas
deriving DecidableEq

/-- Performs an operation. -/
def perform (p : Partition) (clocks : Clocks) : Operation → Except StoreError Answer × Partition × Clocks
  | .put item => ((p.put clocks item).1.map .item, (p.put clocks item).2)
  | .putIfAbsent item => ((p.putIfAbsent clocks item).1.map .item, (p.putIfAbsent clocks item).2)
  | .replaceIf expected item => ((p.replaceIf clocks expected item).1.map .acted, (p.replaceIf clocks expected item).2)
  | .remove key => ((p.remove key).1.map .item, (p.remove key).2, clocks)
  | .removeIf expected => ((p.removeIf expected).1.map .acted, (p.removeIf expected).2, clocks)
  | .get key touch => ((p.get clocks key touch).1.map .item, (p.get clocks key touch).2)
  | .evictOldest => (p.evictOldest.1.map .victim, p.evictOldest.2, clocks)
  | .clear => (.ok .done, p.clear, clocks)
  | .close => (.ok .done, p.close, clocks)
  | .drawStamp => (.ok .done, p, clocks.drawStamp.2)
  | .drawCas => (.ok .done, p, clocks.drawCas.2)

/-- Performs operations one after the other. -/
def run (p : Partition) (clocks : Clocks) : List Operation → Partition × Clocks
  | [] => (p, clocks)
  | op :: ops => (p.perform clocks op).2.1.run (p.perform clocks op).2.2 ops

/-- The item that an operation is about to write, if it will write one. -/
def Operation.writing? (p : Partition) : Operation → Option Item
  | put item => some item
  | putIfAbsent item => if p.view item.key = none then some item else none
  | replaceIf expected item => if p.view item.key = some expected then some item else none
  | _ => none

/-- The item that an operation is given to write. -/
def Operation.item? : Operation → Option Item
  | put item | putIfAbsent item | replaceIf _ item => some item
  | remove _ | removeIf _ | get _ _ | evictOldest | clear | close | drawStamp | drawCas => none

theorem Operation.item?_of_writing {p : Partition} {op : Operation} {item : Item} (writing : op.writing? p = some item) :
    op.item? = some item := by
  cases op with
  | put other => exact writing
  | putIfAbsent other => exact congrArg some (by simpa [writing?] using writing : _ ∧ other = item).2
  | replaceIf expected other => exact congrArg some (by simpa [writing?] using writing : _ ∧ other = item).2
  | remove _ | removeIf _ | get _ _ | evictOldest | clear | close | drawStamp | drawCas => cases writing

/-- The items given to write that would fit `room` bytes are no longer than a region can say. -/
def Describable (room : Nat) (ops : List Operation) : Prop :=
  ∀ op ∈ ops, ∀ item, op.item? = some item → item.encodedLength ≤ room → item.encodedLength < UInt32.size

theorem describable_of_small {room : Nat} (small : room < UInt32.size) {ops : List Operation} : Describable room ops :=
  fun _ _ _ _ fits => Nat.lt_of_le_of_lt fits small

/-- Why a partition refuses to write an item, if it does. -/
def refusal? (p : Partition) (item : Item) : Option StoreError :=
  if p.size < item.encodedLength then some (.outOfSpace item.encodedLength p.freeBytes) else none

/-- Whether an item is refused depends on the arena only. -/
theorem refusal?_congr {p q : Partition} (same : q.arena = p.arena) (item : Item) :
    q.refusal? item = p.refusal? item := by
  unfold refusal? size freeBytes
  rw [same]

/-- Why an operation is refused, if it is. -/
def Operation.refusal? (p : Partition) (op : Operation) : Option StoreError := (op.writing? p).bind p.refusal?

section Clocks

variable (p : Partition) (clocks : Clocks)

theorem put_issued (item : Item) : (p.put clocks item).2.2.stamps.issued = clocks.stamps.issued ∨
    (p.put clocks item).2.2.stamps.issued = clocks.stamps.issued + 1 := by
  rcases Nat.lt_or_ge p.size item.encodedLength with large | fits
  · exact .inl (by rw [put_of_large large])
  · exact .inr (by rw [put_clocks fits]; rfl)

/-- An operation draws one stamp or none. -/
theorem perform_issued (op : Operation) : (p.perform clocks op).2.2.stamps.issued = clocks.stamps.issued ∨
    (p.perform clocks op).2.2.stamps.issued = clocks.stamps.issued + 1 := by
  cases op with
  | put item => exact p.put_issued clocks item
  | putIfAbsent item =>
    have put := p.put_issued clocks item
    simp only [perform, putIfAbsent]
    split
    · exact .inl rfl
    · exact .inl rfl
    · rcases stored : p.put clocks item with ⟨e | old, q, after⟩ <;> simpa [stored] using put
  | replaceIf expected item =>
    have put := p.put_issued clocks item
    simp only [perform, replaceIf]
    split
    · exact .inl rfl
    · split
      · rcases stored : p.put clocks item with ⟨e | old, q, after⟩ <;> simpa [stored] using put
      · exact .inl rfl
  | get key touch =>
    simp only [perform, get]
    split
    · split
      · exact .inr rfl
      · exact .inl rfl
    · exact .inl rfl
  | drawStamp => exact .inr rfl
  | remove _ | removeIf _ | evictOldest | clear | close | drawCas => exact .inl rfl

theorem issued_le_perform (op : Operation) : clocks.stamps.issued ≤ (p.perform clocks op).2.2.stamps.issued := by
  have := p.perform_issued clocks op
  omega

theorem issued_le_run (ops : List Operation) : clocks.stamps.issued ≤ (p.run clocks ops).2.stamps.issued := by
  induction ops generalizing p clocks with
  | nil => exact Nat.le_refl _
  | cons op ops ih => exact Nat.le_trans (p.issued_le_perform clocks op) (ih _ _)

theorem run_concat (ops : List Operation) (op : Operation) :
    p.run clocks (ops ++ [op]) = ((p.run clocks ops).1.perform (p.run clocks ops).2 op).2 := by
  induction ops generalizing p clocks with
  | nil => rfl
  | cons first ops ih => exact ih _ _

theorem run_issued_le (ops : List Operation) :
    (p.run clocks ops).2.stamps.issued ≤ clocks.stamps.issued + ops.length := by
  induction ops generalizing p clocks with
  | nil => exact Nat.le_refl _
  | cons op ops ih =>
    have := p.perform_issued clocks op
    have := ih (p.perform clocks op).2.1 (p.perform clocks op).2.2
    rw [run, List.length_cons]
    omega

end Clocks

/-- How an operation comes out. It fails exactly if it has an item to write that is larger than the arena,
and then changes nothing; an item it writes is there afterwards. -/
structure Performs (p : Partition) (clocks : Clocks) (op : Operation) : Prop where
  accepted : op.refusal? p = none → ∃ answer, (p.perform clocks op).1 = .ok answer
  refused : ∀ e, op.refusal? p = some e → p.perform clocks op = (.error e, p, clocks)
  stored : op.refusal? p = none → ∀ item, op.writing? p = some item →
    (p.perform clocks op).2.1.lookup item.key = .ok (some { item with cas := clocks.cas.next.1 })
  size : (p.perform clocks op).2.1.size = if op = .close then 0 else p.size

/-- `q` has the block size and the ceiling of `p`, and an arena of the same size unless it was released. -/
structure KeepsShape (p : Partition) (released : Prop) [Decidable released] (q : Partition) : Prop where
  size : q.size = if released then 0 else p.size
  blockSize : q.arena.blockSize = p.arena.blockSize
  ceiling : q.ceiling = p.ceiling

namespace Sound

variable {p : Partition} {clocks : Clocks} {op : Operation}

/-- An operation that writes an item is a put of that item, up to what it answers. -/
theorem perform_of_writing {drawn : Nat} (sound : p.Sound drawn) (clocks : Clocks) {item : Item}
    (writing : op.writing? p = some item) :
    op ≠ .close ∧ ∃ answer, p.perform clocks op = ((p.put clocks item).1.map answer, (p.put clocks item).2) := by
  cases op with
  | put other =>
    obtain rfl := Option.some.inj writing
    exact ⟨nofun, _, rfl⟩
  | putIfAbsent other =>
    obtain ⟨absent, rfl⟩ : p.view other.key = none ∧ other = item := by simpa [Operation.writing?] using writing
    refine ⟨nofun, fun _ => .item none, ?_⟩
    rw [Partition.perform, sound.putIfAbsent_of_absent absent]
    rcases p.put clocks other with ⟨e | old, q, after⟩ <;> rfl
  | replaceIf expected other =>
    obtain ⟨same, rfl⟩ : p.view other.key = some expected ∧ other = item := by simpa [Operation.writing?] using writing
    refine ⟨nofun, fun _ => .acted true, ?_⟩
    rw [Partition.perform, sound.replaceIf_of_same same]
    rcases p.put clocks other with ⟨e | old, q, after⟩ <;> rfl
  | remove _ | removeIf _ | get _ _ | evictOldest | clear | close | drawStamp | drawCas => cases writing

/-- An operation that writes nothing does not fail. -/
theorem perform_of_not_writing (sound : p.Sound clocks.stamps.issued) (idle : op.writing? p = none)
    (few : (p.perform clocks op).2.2.stamps.issued < UInt64.size) :
    ∃ answer q clocks', p.perform clocks op = (.ok answer, q, clocks') ∧ q.Sound clocks'.stamps.issued ∧
      p.KeepsShape (op = .close) q := by
  cases op with
  | put item => cases idle
  | putIfAbsent item =>
    cases shown : p.view item.key with
    | none => simp [Operation.writing?, shown] at idle
    | some present =>
      exact ⟨_, p, clocks, by rw [Partition.perform, sound.putIfAbsent_of_present shown]; rfl, sound, rfl, rfl, rfl⟩
  | replaceIf expected item =>
    have other : p.view item.key ≠ some expected := by
      intro same
      simp [Operation.writing?, same] at idle
    exact ⟨_, p, clocks, by rw [Partition.perform, sound.replaceIf_of_other other]; rfl, sound, rfl, rfl, rfl⟩
  | remove key =>
    obtain ⟨q, removed, after, removes⟩ := sound.remove key
    exact ⟨_, q, clocks, by rw [Partition.perform, removed]; rfl, after, removes.size, removes.blockSize, removes.ceiling⟩
  | removeIf expected =>
    by_cases same : p.view expected.key = some expected
    · obtain ⟨q, removed, after, removes⟩ := sound.removeIf_of_same same
      exact ⟨_, q, clocks, by rw [Partition.perform, removed]; rfl, after, removes.size, removes.blockSize,
        removes.ceiling⟩
    · exact ⟨_, p, clocks, by rw [Partition.perform, sound.removeIf_of_other same]; rfl, sound, rfl, rfl, rfl⟩
  | get key touch =>
    obtain ⟨q, clocks', read, after, -, -, reads⟩ := sound.get key touch few
    exact ⟨_, q, clocks', by rw [Partition.perform, read]; rfl, after, congrArg Arena.size reads.arena,
      congrArg Arena.blockSize reads.arena, reads.ceiling⟩
  | evictOldest =>
    rcases sound.evictOne none with ⟨-, same⟩ | ⟨_, _, q, -, evicted, after, without, -⟩
    · exact ⟨_, p, clocks, by rw [Partition.perform, Partition.evictOldest, same]; rfl, sound, rfl, rfl, rfl⟩
    · exact ⟨_, q, clocks, by rw [Partition.perform, Partition.evictOldest, evicted]; rfl, after, without.size,
        without.blockSize, without.ceiling⟩
  | clear => exact ⟨_, _, clocks, rfl, sound.clear.mono (Nat.zero_le _), rfl, rfl, rfl⟩
  | close => exact ⟨_, _, clocks, rfl, (Sound.close p).mono (Nat.zero_le _), Nat.zero_mul _, rfl, rfl⟩
  | drawStamp => exact ⟨_, p, _, rfl, sound.mono (Nat.le_succ _), rfl, rfl, rfl⟩
  | drawCas => exact ⟨_, p, _, rfl, sound, rfl, rfl, rfl⟩

/-- An operation keeps a partition sound, and fails only for lack of room. An item that it writes is no longer than a
region can say. -/
theorem perform_of_short (sound : p.Sound clocks.stamps.issued)
    (short : ∀ item, op.writing? p = some item → item.encodedLength ≤ p.size → item.encodedLength < UInt32.size)
    (few : (p.perform clocks op).2.2.stamps.issued < UInt64.size) :
    (p.perform clocks op).2.1.Sound (p.perform clocks op).2.2.stamps.issued ∧ p.Performs clocks op ∧
      p.KeepsShape (op = .close) (p.perform clocks op).2.1 := by
  cases writing : op.writing? p with
  | none =>
    obtain ⟨answer, q, clocks', performed, after, shape⟩ := sound.perform_of_not_writing writing few
    have accepted : op.refusal? p = none := by rw [Operation.refusal?, writing]; rfl
    refine ⟨by rwa [performed], ⟨fun _ => ⟨answer, by rw [performed]⟩, fun e => ?_, fun _ item => ?_, ?_⟩, by rwa [performed]⟩
    · rw [accepted]
      nofun
    · rw [writing]
      nofun
    · rw [performed]
      exact shape.size
  | some item =>
    obtain ⟨notClose, answer, performed⟩ := sound.perform_of_writing clocks writing
    have refusal : op.refusal? p = p.refusal? item := by rw [Operation.refusal?, writing]; rfl
    rw [performed] at few ⊢
    rcases Nat.lt_or_ge p.size item.encodedLength with large | fits
    · rw [Partition.refusal?, if_pos large] at refusal
      rw [put_of_large large] at performed ⊢
      refine ⟨sound, ⟨?_, fun e same => ?_, ?_, ?_⟩, (if_neg notClose).symm, rfl, rfl⟩
      · rw [refusal]
        nofun
      · rw [performed, ← Option.some.inj (refusal.symm.trans same)]
        rfl
      · rw [refusal]
        nofun
      · rw [performed, if_neg notClose]
    · rw [Partition.refusal?, if_neg (Nat.not_lt.2 fits)] at refusal
      obtain ⟨gone, q, stored, after, writes⟩ := sound.put fits (short item writing fits) few
      rw [stored] at performed ⊢
      have size : q.size = if op = .close then 0 else p.size := by
        rw [if_neg notClose]
        exact writes.size
      refine ⟨after, ⟨fun _ => ⟨_, by rw [performed]; rfl⟩, fun e same => ?_, fun _ other same => ?_, by rwa [performed]⟩,
        size, writes.blockSize, writes.ceiling⟩
      · cases refusal.symm.trans same
      · obtain rfl := Option.some.inj (writing.symm.trans same)
        rw [performed, after.lookup_eq, writes.view]
        exact congrArg Except.ok (if_pos rfl)

/-- In a small arena, every item that fits is short enough. -/
theorem perform (sound : p.Sound clocks.stamps.issued) (small : p.size < UInt32.size) (op : Operation)
    (few : (p.perform clocks op).2.2.stamps.issued < UInt64.size) :
    (p.perform clocks op).2.1.Sound (p.perform clocks op).2.2.stamps.issued ∧ p.Performs clocks op := by
  obtain ⟨after, performs, -⟩ := sound.perform_of_short (fun _ _ fits => Nat.lt_of_le_of_lt fits small) few
  exact ⟨after, performs⟩

theorem run_of_describable {p : Partition} {clocks : Clocks} {room : Nat} (sound : p.Sound clocks.stamps.issued)
    (inside : p.size ≤ room) {ops : List Operation} (short : Describable room ops)
    (few : (p.run clocks ops).2.stamps.issued < UInt64.size) :
    (p.run clocks ops).1.Sound (p.run clocks ops).2.stamps.issued ∧ p.KeepsShape (.close ∈ ops) (p.run clocks ops).1 := by
  induction ops generalizing p clocks with
  | nil => exact ⟨sound, rfl, rfl, rfl⟩
  | cons op ops ih =>
    have before := issued_le_run (p.perform clocks op).2.1 (p.perform clocks op).2.2 ops
    have first (item : Item) (writing : op.writing? p = some item) (fits : item.encodedLength ≤ p.size) :=
      short op (List.mem_cons_self ..) item (Operation.item?_of_writing writing) (Nat.le_trans fits inside)
    obtain ⟨middle, -, one⟩ := sound.perform_of_short first (Nat.lt_of_le_of_lt before few)
    have within : (p.perform clocks op).2.1.size ≤ room := by
      rw [one.size]
      split
      · exact Nat.zero_le _
      · exact inside
    obtain ⟨after, rest⟩ := ih middle within (fun other mem => short other (List.mem_cons_of_mem _ mem)) few
    refine ⟨after, ?_, rest.blockSize.trans one.blockSize, rest.ceiling.trans one.ceiling⟩
    rw [Partition.run, rest.size, one.size]
    by_cases closing : op = .close
    · simp [closing]
    · simp [closing, Ne.symm closing]

theorem run {p : Partition} {clocks : Clocks} (sound : p.Sound clocks.stamps.issued) (small : p.size < UInt32.size)
    {ops : List Operation} (few : (p.run clocks ops).2.stamps.issued < UInt64.size) :
    (p.run clocks ops).1.Sound (p.run clocks ops).2.stamps.issued ∧ (p.run clocks ops).1.size < UInt32.size := by
  obtain ⟨after, shape⟩ := sound.run_of_describable (Nat.le_refl _) (describable_of_small small) few
  refine ⟨after, ?_⟩
  rw [shape.size]
  split
  · decide
  · exact small

/-- The arena keeps its size until it is released. -/
theorem size_run {p : Partition} {clocks : Clocks} (sound : p.Sound clocks.stamps.issued) (small : p.size < UInt32.size)
    {ops : List Operation} (few : (p.run clocks ops).2.stamps.issued < UInt64.size) :
    (p.run clocks ops).1.size = if .close ∈ ops then 0 else p.size :=
  (sound.run_of_describable (Nat.le_refl _) (describable_of_small small) few).2.size

end Sound
end Partition
end BlockCache
