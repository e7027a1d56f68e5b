import BlockCache.Proofs.Index.Operations
import BlockCache.Proofs.Partition.Runs

/-!
# Runs of an index

A run is a list of operations on an index. As for partitions, every operation either writes an item or
cannot fail, and keeps the index sound.
-/

namespace BlockCache.Index

/-- What can be done to an index. -/
inductive Operation where
  | put (item : Item)
  | putIfAbsent (item : Item)
  | replace (expected item : Item)
  | get (key : Key)
  | remove (key : Key)
  | removeIf (expected : Item)
  | clear
  | close
deriving DecidableEq

/-- Performs an operation. -/
def perform (x : Index) : Operation → Except StoreError Answer × Index
  | .put item => ((x.put item).1.map .item, (x.put item).2)
  | .putIfAbsent item => ((x.putIfAbsent item).1.map .item, (x.putIfAbsent item).2)
  | .replace expected item => ((x.replace expected item).1.map .acted, (x.replace expected item).2)
  | .get key => ((x.get key).1.map .item, (x.get key).2)
  | .remove key => ((x.remove key).1.map .item, (x.remove key).2)
  | .removeIf expected => ((x.removeIf expected).1.map .acted, (x.removeIf expected).2)
  | .clear => (.ok .done, x.clear)
  | .close => (.ok .done, x.close)

/-- Performs operations one after the other. -/
def run (x : Index) : List Operation → Index
  | [] => x
  | op :: ops => (x.perform op).2.run ops

namespace Operation

variable (held : Key → Option Item)

/-- The item that an operation is about to write, if it will write one. -/
def writing? : Operation → Option Item
  | put item => some item
  | putIfAbsent item => if held item.key = none then some item else none
  | replace expected item => if expected.key = item.key ∧ held item.key = some expected then some item else none
  | _ => none

section Writing

variable {held} {op : Operation} {expected item : Item}

/-- Only three operations write. -/
theorem of_writing (writing : op.writing? held = some item) : op = put item ∨
    op = putIfAbsent item ∧ held item.key = none ∨
    ∃ expected, op = replace expected item ∧ expected.key = item.key ∧ held item.key = some expected := by
  cases op with
  | put other =>
    obtain rfl := Option.some.inj writing
    exact .inl rfl
  | putIfAbsent other =>
    obtain ⟨absent, rfl⟩ : held other.key = none ∧ other = item := by simpa [writing?] using writing
    exact .inr (.inl ⟨rfl, absent⟩)
  | replace expected other =>
    obtain ⟨⟨keys, same⟩, rfl⟩ : (expected.key = other.key ∧ held other.key = some expected) ∧ other = item := by
      simpa [writing?] using writing
    exact .inr (.inr ⟨expected, rfl, keys, same⟩)
  | get _ | remove _ | removeIf _ | clear | close => cases writing

theorem present_of_idle (idle : (putIfAbsent item).writing? held = none) : ∃ present, held item.key = some present := by
  simpa [writing?, Option.ne_none_iff_exists'] using idle

theorem other_of_idle (idle : (replace expected item).writing? held = none) :
    ¬(expected.key = item.key ∧ held item.key = some expected) := by
  simpa [writing?] using idle

end Writing

/-- What an operation answers if it is not refused. -/
def answer : Operation → Answer
  | put item => .item (held item.key)
  | putIfAbsent item => .item (held item.key)
  | replace expected item => .acted (expected.key = item.key ∧ held item.key = some expected)
  | get key => .item (held key)
  | remove key => .item (held key)
  | removeIf expected => .acted (held expected.key = some expected)
  | clear | close => .done

/-- Whether a conditional operation finds that its condition does not hold. -/
def Declines : Operation → Prop
  | putIfAbsent item => held item.key ≠ none
  | replace expected item => ¬(expected.key = item.key ∧ held item.key = some expected)
  | removeIf expected => held expected.key ≠ some expected
  | _ => False

/-- What is held after an operation that writes nothing. -/
def kept : Operation → Key → Option Item
  | remove key => fun other => if other = key then none else held other
  | removeIf expected => fun other => if held expected.key = some expected ∧ other = expected.key then none else held other
  | clear | close => fun _ => none
  | _ => held

/-- An operation that writes nothing adds no key. -/
theorem of_kept {held : Key → Option Item} {op : Operation} {key : Key} (shown : op.kept held key ≠ none) :
    held key ≠ none := by
  cases op with
  | remove other =>
    simp only [kept] at shown
    split at shown
    · exact absurd rfl shown
    · exact shown
  | removeIf expected =>
    simp only [kept] at shown
    split at shown
    · exact absurd rfl shown
    · exact shown
  | clear | close => exact absurd rfl shown
  | put _ | putIfAbsent _ | replace _ _ | get _ => exact shown

end Operation

/-- Why an operation is refused, if it is. -/
def Operation.refusal? (x : Index) (op : Operation) : Option StoreError :=
  (op.writing? x.view).bind fun item => (x.home item.key).refusal? item

section Clocks

variable (x : Index)

theorem putIfAbsent_clocks (item : Item) :
    (x.putIfAbsent item).2.clocks = ((x.home item.key).putIfAbsent x.clocks item).2.2 := by
  rw [putIfAbsent_eq]
  rcases (x.home item.key).putIfAbsent x.clocks item with ⟨e | _ | present, p, clocks⟩
  · rfl
  · have same : (x.place (x.route item.key) p clocks).enforceItemLimit.2.clocks = clocks := enforceItemLimit_clocks _
    dsimp only
    split
    · rename_i limited
      simpa [limited] using same
    · rename_i limited
      simpa [limited] using same
  · rfl

/-- An operation draws one stamp or none. -/
theorem perform_issued (op : Operation) : (x.perform op).2.clocks.stamps.issued = x.clocks.stamps.issued ∨
    (x.perform op).2.clocks.stamps.issued = x.clocks.stamps.issued + 1 := by
  cases op with
  | put item =>
    rw [perform, put_clocks]
    exact (x.home item.key).perform_issued x.clocks (.put item)
  | putIfAbsent item =>
    rw [perform, putIfAbsent_clocks]
    exact (x.home item.key).perform_issued x.clocks (.putIfAbsent item)
  | replace expected item =>
    rw [perform, replace]
    split
    · exact (x.home item.key).perform_issued x.clocks (.replaceIf expected item)
    · exact .inl rfl
  | get key => exact (x.home key).perform_issued x.clocks (.get key x.policy.refreshesOnRead)
  | remove _ | removeIf _ | clear | close => exact .inl rfl

theorem issued_le_perform (op : Operation) : x.clocks.stamps.issued ≤ (x.perform op).2.clocks.stamps.issued := by
  have := x.perform_issued op
  omega

theorem issued_le_run (ops : List Operation) : x.clocks.stamps.issued ≤ (x.run ops).clocks.stamps.issued := by
  induction ops generalizing x with
  | nil => exact Nat.le_refl _
  | cons op ops ih => exact Nat.le_trans (x.issued_le_perform op) (ih _)

theorem run_concat (ops : List Operation) (op : Operation) : x.run (ops ++ [op]) = ((x.run ops).perform op).2 := by
  induction ops generalizing x with
  | nil => rfl
  | cons first ops ih => exact ih _

theorem run_issued_le (ops : List Operation) :
    (x.run ops).clocks.stamps.issued ≤ x.clocks.stamps.issued + ops.length := by
  induction ops generalizing x with
  | nil => exact Nat.le_refl _
  | cons op ops ih =>
    have := x.perform_issued op
    have := ih (x.perform op).2
    rw [run, List.length_cons]
    omega

end Clocks

namespace Sound

variable {x : Index} {op : Operation}

/-- An index shows a key exactly if it says that it contains it. -/
theorem contains_eq (sound : x.Sound) (key : Key) : x.contains key = (x.view key).isSome := by
  have none_iff : (x.home key).view key = none ↔ (x.home key).chains.find? key = none :=
    (sound.home key).view_eq_none_iff
  rw [contains, Partition.contains, view]
  cases found : (x.home key).chains.find? key with
  | none => rw [none_iff.2 found]; rfl
  | some link =>
    cases shown : (x.home key).view key with
    | none => rw [none_iff.1 shown] at found; cases found
    | some item => rfl

/-- An operation that writes an item is refused for lack of room, or writes the item and then may evict
others for the item limit. -/
theorem perform_of_writing (sound : x.Sound) {item : Item} (writing : op.writing? x.view = some item)
    (short : item.encodedLength ≤ (x.home item.key).size → item.encodedLength < UInt32.size)
    (few : (x.perform op).2.clocks.stamps.issued < UInt64.size) :
    ((x.home item.key).size < item.encodedLength ∧
      x.perform op = (.error (.outOfSpace item.encodedLength (x.home item.key).freeBytes), x)) ∨
    (item.encodedLength ≤ (x.home item.key).size ∧
      ∃ first y second z, x.Commits item first y second z ∧ x.perform op = (.ok (op.answer x.view), z)) := by
  refine (Nat.lt_or_ge _ _).imp (fun large => ⟨large, ?_⟩) fun fits => ⟨fits, ?_⟩
  · rcases Operation.of_writing writing with rfl | ⟨rfl, absent⟩ | ⟨expected, rfl, -, same⟩
    · rw [Index.perform, put_of_large large]
      rfl
    · rw [Index.perform, sound.putIfAbsent_of_absent absent, put_of_large large]
      rfl
    · rw [Index.perform, sound.replace_of_large same large]
      rfl
  · rcases Operation.of_writing writing with rfl | ⟨rfl, absent⟩ | ⟨expected, rfl, keys, same⟩
    · obtain ⟨first, y, second, z, commits, answer⟩ := sound.put fits (short fits) few
      exact ⟨first, y, second, z, commits, by rw [Index.perform, answer]; rfl⟩
    · rw [Index.perform, sound.putIfAbsent_of_absent absent] at few ⊢
      obtain ⟨first, y, second, z, commits, answer⟩ := sound.put fits (short fits) few
      exact ⟨first, y, second, z, commits, by rw [answer, Operation.answer, absent]; rfl⟩
    · obtain ⟨gone, y, commits, answer⟩ := sound.replace_commits same fits (short fits) few
      refine ⟨gone, y, [], y, commits, ?_⟩
      rw [Index.perform, answer, Operation.answer, decide_eq_true ⟨keys, same⟩]
      rfl

/-- An item that an operation wrote has a length that is a 32-bit word, however large the arenas are. -/
theorem short_of_perform (sound : x.Sound) {item : Item} (writing : op.writing? x.view = some item) {answer : Answer}
    (accepted : (x.perform op).1 = .ok answer) : item.encodedLength < UInt32.size := by
  rcases Operation.of_writing writing with rfl | ⟨rfl, absent⟩ | ⟨expected, rfl, -, same⟩
  · rw [Index.perform] at accepted
    rcases stored : x.put item with ⟨e | old, y⟩
    · rw [stored] at accepted
      cases accepted
    · exact short_of_put (congrArg Prod.fst stored)
  · rw [Index.perform, sound.putIfAbsent_of_absent absent] at accepted
    rcases stored : x.put item with ⟨e | old, y⟩
    · rw [stored] at accepted
      cases accepted
    · exact short_of_put (congrArg Prod.fst stored)
  · rw [Index.perform] at accepted
    rcases swapped : x.replace expected item with ⟨e | did, y⟩
    · rw [swapped] at accepted
      cases accepted
    · exact sound.short_of_replace same (congrArg Prod.fst swapped)

/-- An operation that wrote its item committed it. No arena bound is assumed: that the item was taken bounds its
length. -/
theorem commits_of_accepted (sound : x.Sound) {item : Item} (writing : op.writing? x.view = some item)
    (accepted : (x.perform op).1.isOk = true) (few : (x.perform op).2.clocks.stamps.issued < UInt64.size) :
    ∃ first y second z, x.Commits item first y second z ∧ x.perform op = (.ok (op.answer x.view), z) := by
  cases answered : (x.perform op).1 with
  | error e =>
    rw [answered] at accepted
    cases accepted
  | ok answer =>
    have short := sound.short_of_perform writing answered
    rcases sound.perform_of_writing writing (fun _ => short) few with ⟨-, refused⟩ | ⟨-, commits⟩
    · rw [refused] at answered
      cases answered
    · exact commits

/-- An operation that writes nothing does not fail. -/
theorem perform_of_not_writing (sound : x.Sound) (idle : op.writing? x.view = none)
    (few : (x.perform op).2.clocks.stamps.issued < UInt64.size) :
    ∃ z, x.perform op = (.ok (op.answer x.view), z) ∧ z.Sound ∧ z.evictions = x.evictions ∧
      (∀ key, z.view key = op.kept x.view key) ∧ (op.Declines x.view → z = x) ∧ z.maxItems = x.maxItems ∧
      ∀ key, (z.home key).size = if op = .close then 0 else (x.home key).size := by
  cases op with
  | put item => cases idle
  | putIfAbsent item =>
    obtain ⟨present, shown⟩ := Operation.present_of_idle idle
    refine ⟨x, ?_, sound, rfl, fun _ => rfl, fun _ => rfl, rfl, fun _ => rfl⟩
    rw [Index.perform, sound.putIfAbsent_of_present shown, Operation.answer, shown]
    rfl
  | replace expected item =>
    have other := Operation.other_of_idle idle
    have differs : x.view item.key ≠ some expected := fun same => other ⟨sound.key_of_view same, same⟩
    refine ⟨x, ?_, sound, rfl, fun _ => rfl, fun _ => rfl, rfl, fun _ => rfl⟩
    rw [Index.perform, sound.replace_of_other differs, Operation.answer, decide_eq_false other]
    rfl
  | get key =>
    obtain ⟨y, answer, after, reads⟩ := sound.get key few
    exact ⟨y, by rw [Index.perform, answer]; rfl, after, reads.evictions, reads.view, nofun, reads.shape.maxItems,
      reads.shape.room⟩
  | remove key =>
    obtain ⟨y, answer, after, removes⟩ := sound.remove key
    exact ⟨y, by rw [Index.perform, answer]; rfl, after, removes.evictions, removes.view, nofun, removes.shape.maxItems,
      removes.shape.room⟩
  | removeIf expected =>
    by_cases same : x.view expected.key = some expected
    · obtain ⟨y, answer, after, removes⟩ := sound.removeIf_of_same same
      refine ⟨y, ?_, after, removes.evictions, fun key => ?_, fun other => absurd same other, removes.shape.maxItems,
        removes.shape.room⟩
      · rw [Index.perform, answer, Operation.answer, decide_eq_true same]
        rfl
      · rw [removes.view, Operation.kept]
        simp [same]
    · refine ⟨x, ?_, sound, rfl, fun key => ?_, fun _ => rfl, rfl, fun _ => rfl⟩
      · rw [Index.perform, sound.removeIf_of_other same, Operation.answer, decide_eq_false same]
        rfl
      · dsimp only [Operation.kept]
        rw [if_neg fun both => same both.1]
  | clear =>
    obtain ⟨after, empties, shape⟩ := sound.clear
    exact ⟨_, rfl, after, empties.evictions, empties.view, nofun, rfl, shape.room⟩
  | close =>
    obtain ⟨after, empties, released⟩ := Sound.close x
    exact ⟨_, rfl, after, empties.evictions, empties.view, nofun, rfl, released⟩

end Sound

/-- How an operation comes out. It fails exactly if it has an item to write that is larger than the arena
of the item's partition, and then changes nothing; an item it writes is there afterwards. -/
structure Performs (x : Index) (op : Operation) : Prop where
  accepted : op.refusal? x = none → (x.perform op).1 = .ok (op.answer x.view)
  refused : ∀ e, op.refusal? x = some e → x.perform op = (.error e, x)
  stored : 0 < x.maxItems → op.refusal? x = none → ∀ item, op.writing? x.view = some item →
    ((x.perform op).2.get item.key).1 = .ok (some { item with cas := x.clocks.cas.next.1 })
  maxItems : (x.perform op).2.maxItems = x.maxItems
  size : ∀ key, ((x.perform op).2.home key).size = if op = .close then 0 else (x.home key).size

theorem Performs.small {x : Index} {op : Operation} (performs : x.Performs op) (small : x.Small) :
    (x.perform op).2.Small := fun key => by
  rw [performs.size]
  split
  · decide
  · exact small key

/-- An operation keeps an index sound, and fails only for lack of room. -/
theorem Sound.perform {x : Index} (sound : x.Sound) (small : x.Small) (op : Operation)
    (few : (x.perform op).2.clocks.stamps.issued < UInt64.size) : (x.perform op).2.Sound ∧ x.Performs op := by
  cases writing : op.writing? x.view with
  | none =>
    obtain ⟨z, performed, after, -, -, -, maxItems, size⟩ := sound.perform_of_not_writing writing few
    have accepted : op.refusal? x = none := by rw [Operation.refusal?, writing]; rfl
    refine ⟨by rwa [performed], fun _ => by rw [performed], fun e => ?_, fun _ _ item => ?_, by rwa [performed],
      by rwa [performed]⟩
    · rw [accepted]
      simp
    · rw [writing]
      simp
  | some item =>
    have notClose : op ≠ .close := by
      rintro rfl
      cases writing
    have refusal : op.refusal? x = (x.home item.key).refusal? item := by rw [Operation.refusal?, writing]; rfl
    rw [Partition.refusal?] at refusal
    have short (fits : item.encodedLength ≤ (x.home item.key).size) := Nat.lt_of_le_of_lt fits (small item.key)
    rcases sound.perform_of_writing writing short few with ⟨large, performed⟩ |
      ⟨fits, first, y, second, z, commits, performed⟩
    · rw [if_pos large] at refusal
      refine ⟨by rwa [performed], ?_, fun e same => ?_, fun _ => ?_, by rw [performed],
        fun key => by rw [performed, if_neg notClose]⟩
      · rw [refusal]
        simp
      · rw [performed, ← Option.some.inj (refusal.symm.trans same)]
      · rw [refusal]
        simp
    · rw [if_neg (Nat.not_lt.2 fits)] at refusal
      obtain ⟨after, evicts⟩ := commits.sound.evicting commits.evicting
      have shape := commits.writes.shape.trans evicts.shape
      refine ⟨by rwa [performed], fun _ => by rw [performed], fun e same => ?_, fun positive _ other same => ?_, ?_,
        fun key => ?_⟩
      · cases refusal.symm.trans same
      · obtain rfl := Option.some.inj (writing.symm.trans same)
        rw [performed, after.get_answer, evicts.view, if_neg (commits.spared positive), commits.writes.view]
        exact congrArg Except.ok (if_pos rfl)
      · rw [performed]
        exact shape.maxItems
      · rw [performed, if_neg notClose]
        exact shape.room key

theorem Sound.run {x : Index} (sound : x.Sound) (small : x.Small) {ops : List Operation}
    (few : (x.run ops).clocks.stamps.issued < UInt64.size) : (x.run ops).Sound ∧ (x.run ops).Small := by
  induction ops generalizing x with
  | nil => exact ⟨sound, small⟩
  | cons op ops ih =>
    have before := issued_le_run (x.perform op).2 ops
    obtain ⟨after, performs⟩ := sound.perform small op (Nat.lt_of_le_of_lt before few)
    exact ih after (performs.small small) few

/-- The arenas keep their sizes until they are released. -/
theorem Sound.size_run {x : Index} (sound : x.Sound) (small : x.Small) {ops : List Operation}
    (few : (x.run ops).clocks.stamps.issued < UInt64.size) (key : Key) :
    ((x.run ops).home key).size = if .close ∈ ops then 0 else (x.home key).size := by
  induction ops generalizing x with
  | nil => rfl
  | cons op ops ih =>
    have before := issued_le_run (x.perform op).2 ops
    obtain ⟨after, performs⟩ := sound.perform small op (Nat.lt_of_le_of_lt before few)
    rw [Index.run, ih after (performs.small small) few, performs.size]
    by_cases closing : op = .close
    · simp [closing]
    · simp [closing, Ne.symm closing]

end BlockCache.Index
