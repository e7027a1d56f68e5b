import BlockCache.Proofs.Store
import Mathlib.Algebra.GroupWithZero.Nat
import Mathlib.Data.Multiset.ZeroCons

/-!
# Calls of a store

What can be asked of a store of either kind, and what it answers. A byte limit acts on a call if an item is
refused, or if others are evicted to make room for it. A closed store answers as an empty one that has room for
nothing, whatever it is asked after that.
-/

namespace BlockCache.Store

/-- What can be asked of a store. -/
inductive Call where
  | perform (op : Index.Operation)
  | contains (key : Key)
  | size
  | keys
  | evictions
deriving DecidableEq

/-- What a store answers. Keys come in no particular order. -/
inductive Result where
  | answer (answer : Answer)
  | contains (held : Bool)
  | count (n : Nat)
  | keys (keys : Multiset Key)
deriving DecidableEq

/-- Performs an operation on a store of either kind. -/
def perform (s : Store) : Index.Operation → Except StoreError Answer × Store
  | .put item => ((s.put item).1.map .item, (s.put item).2)
  | .putIfAbsent item => ((s.putIfAbsent item).1.map .item, (s.putIfAbsent item).2)
  | .replace expected item => ((s.replace expected item).1.map .acted, (s.replace expected item).2)
  | .get key => ((s.get key).1.map .item, (s.get key).2)
  | .remove key => ((s.remove key).1.map .item, (s.remove key).2)
  | .removeIf expected => ((s.removeIf expected).1.map .acted, (s.removeIf expected).2)
  | .clear => (.ok .done, s.clear)
  | .close => (.ok .done, s.close)

def call (s : Store) : Call → Except StoreError Result × Store
  | .perform op => ((s.perform op).1.map .answer, (s.perform op).2)
  | .contains key => (.ok (.contains (s.contains key)), s)
  | .size => (.ok (.count s.size), s)
  | .keys => (.ok (.keys s.keys), s)
  | .evictions => (.ok (.count s.evictions), s)

/-- The results of calls made one after the other. -/
def results (s : Store) : List Call → List (Except StoreError Result)
  | [] => []
  | c :: later => (s.call c).1 :: results (s.call c).2 later

/-- The store after calls made one after the other. -/
def after (s : Store) : List Call → Store
  | [] => s
  | c :: later => after (s.call c).2 later

/-- An item has room: its partition evicts nothing for it, or the map's bytes stay within their limit with it. -/
def RoomFor (s : Store) (item : Item) : Prop :=
  match s with
  | blocks x => ((x.home item.key).put x.clocks item).2.1.evictions = (x.home item.key).evictions
  | memory m => (m.withItem item).bytes ≤ m.maxBytes

/-- No byte limit acts on a call: an item that it writes is not refused, and has room. -/
def Roomy (s : Store) : Call → Prop
  | .perform op => ∀ item ∈ op.writing? s.view, (s.perform op).1.isOk = true ∧ s.RoomFor item
  | _ => True

/-- No byte limit acts on any of the calls. -/
def RoomyRun (s : Store) : List Call → Prop
  | [] => True
  | c :: later => s.Roomy c ∧ RoomyRun (s.call c).2 later

instance (s : Store) (item : Item) : Decidable (s.RoomFor item) :=
  match s with
  | blocks _ => inferInstanceAs (Decidable (_ = _))
  | memory _ => inferInstanceAs (Decidable (_ ≤ _))

instance (s : Store) (c : Call) : Decidable (s.Roomy c) :=
  match c with
  | .perform op => inferInstanceAs (Decidable (∀ item ∈ op.writing? s.view, _))
  | .contains _ | .size | .keys | .evictions => inferInstanceAs (Decidable True)

instance decidableRoomyRun (s : Store) : (calls : List Call) → Decidable (s.RoomyRun calls)
  | [] => inferInstanceAs (Decidable True)
  | c :: later =>
    have := decidableRoomyRun (s.call c).2 later
    inferInstanceAs (Decidable (_ ∧ _))

theorem perform_blocks (x : Index) (op : Index.Operation) :
    (blocks x).perform op = ((x.perform op).1, blocks (x.perform op).2) := by
  cases op <;> rfl

theorem drawn_le_call (s : Store) (c : Call) : s.drawn ≤ (s.call c).2.drawn := by
  cases c with
  | perform op =>
    cases s with
    | blocks x =>
      rw [call, perform_blocks]
      exact (draws_of_perform x op).1
    | memory m => exact Nat.zero_le _
  | contains _ | size | keys | evictions => exact Nat.le_refl _

theorem drawn_le_after (s : Store) (calls : List Call) : s.drawn ≤ (s.after calls).drawn := by
  induction calls generalizing s with
  | nil => exact Nat.le_refl _
  | cons c later ih => exact Nat.le_trans (s.drawn_le_call c) (ih _)

/-- The map after an operation that writes nothing. -/
def unwritten (m : MemoryStore) : Index.Operation → MemoryStore
  | .get key => (m.get key).2
  | .remove key => (m.remove key).2
  | .removeIf expected => if m.lookup expected.key = some expected then (m.remove expected.key).2 else m
  | .clear => m.clear
  | .close => m.close
  | .put _ | .putIfAbsent _ | .replace _ _ => m

section Memory

variable {m : MemoryStore} {op : Index.Operation} {item : Item}

theorem perform_of_idle (idle : op.writing? m.lookup = none) :
    (memory m).perform op = (.ok (op.answer m.lookup), memory (unwritten m op)) := by
  cases op with
  | put item => cases idle
  | putIfAbsent item =>
    obtain ⟨present, shown⟩ := Index.Operation.present_of_idle idle
    rw [Index.Operation.answer, shown]
    simp only [perform, putIfAbsent, MemoryStore.putIfAbsent, shown]
    rfl
  | replace expected item =>
    have other := Index.Operation.other_of_idle idle
    rw [Index.Operation.answer, decide_eq_false other]
    simp only [perform, replace, MemoryStore.replace, if_neg other]
    rfl
  | get key =>
    rw [Index.Operation.answer, ← m.get_answer key]
    rfl
  | remove key =>
    rw [Index.Operation.answer, ← m.remove_answer key]
    rfl
  | removeIf expected =>
    simp only [perform, removeIf, MemoryStore.removeIf, Index.Operation.answer, unwritten]
    by_cases same : m.lookup expected.key = some expected
    · rw [if_pos same, if_pos same, decide_eq_true same]
      rfl
    · rw [if_neg same, if_neg same, decide_eq_false same]
      rfl
  | clear | close => rfl

/-- An operation that writes an item into a map is a put of that item, up to what it answers. -/
theorem perform_of_writing (writing : op.writing? m.lookup = some item) :
    ∃ f : Option Item → Answer, f (m.lookup item.key) = op.answer m.lookup ∧
      (memory m).perform op = ((m.put item).1.map f, memory (m.put item).2) := by
  rcases Index.Operation.of_writing writing with rfl | ⟨rfl, absent⟩ | ⟨expected, rfl, keys, same⟩
  · exact ⟨_, rfl, rfl⟩
  · refine ⟨_, rfl, ?_⟩
    simp only [perform, putIfAbsent, MemoryStore.putIfAbsent, absent]
  · refine ⟨fun _ => .acted true, ?_, ?_⟩
    · rw [Index.Operation.answer, decide_eq_true ⟨keys, same⟩]
    · simp only [perform, replace, MemoryStore.replace_of_same ⟨keys, same⟩]
      rcases m.put item with ⟨e | old, n⟩ <;> rfl

theorem perform_of_accepted (writing : op.writing? m.lookup = some item)
    (accepted : ((memory m).perform op).1.isOk = true) : (memory m).perform op =
      (.ok (op.answer m.lookup), memory ((m.withItem item).enforceLimits item.key)) := by
  obtain ⟨f, answer, performed⟩ := perform_of_writing writing
  rw [performed] at accepted ⊢
  cases refused : m.refusal? item with
  | some e =>
    rw [MemoryStore.put_of_refusal refused] at accepted
    cases accepted
  | none =>
    rw [MemoryStore.put_of_accepted refused, ← answer]
    rfl

end Memory

section Light

/-- What a call may add to the bytes of a map. -/
def Call.weight : Call → Nat
  | .perform (.put item) | .perform (.putIfAbsent item) | .perform (.replace _ item) => item.weight
  | _ => 0

theorem Call.weight_of_writing {held : Key → Option Item} {op : Index.Operation} {item : Item}
    (writing : op.writing? held = some item) : (Call.perform op).weight = item.weight := by
  rcases Index.Operation.of_writing writing with rfl | ⟨rfl, -⟩ | ⟨expected, rfl, -⟩ <;> rfl

/-- `n` is as open as `m` under the same byte limit, and has at most `more` bytes more. -/
structure Gains (m : MemoryStore) (more : Nat) (n : MemoryStore) : Prop where
  bytes : n.bytes ≤ m.bytes + more
  closed : n.closed = m.closed
  maxBytes : n.maxBytes = m.maxBytes

variable {m : MemoryStore}

theorem gains_unwritten (m : MemoryStore) {op : Index.Operation} (stays : op ≠ .close) :
    Gains m 0 (unwritten m op) := by
  cases op with
  | get key =>
    rw [unwritten, MemoryStore.get]
    split
    · exact ⟨Nat.le_refl _, rfl, rfl⟩
    · split <;> exact ⟨Nat.le_refl _, rfl, rfl⟩
  | remove key =>
    have keeps := m.keeps_remove key
    exact ⟨m.bytes_remove_le key, keeps.closed, keeps.maxBytes⟩
  | removeIf expected =>
    have keeps := m.keeps_remove expected.key
    rw [unwritten]
    split
    · exact ⟨m.bytes_remove_le expected.key, keeps.closed, keeps.maxBytes⟩
    · exact ⟨Nat.le_refl _, rfl, rfl⟩
  | clear => exact ⟨Nat.zero_le _, rfl, rfl⟩
  | close => exact absurd rfl stays
  | put _ | putIfAbsent _ | replace _ _ => exact ⟨Nat.le_refl _, rfl, rfl⟩

/-- A call whose item fits beside all that an open map holds meets no byte limit. -/
theorem roomy_of_light (opened : m.closed = false) {c : Call} (stays : c ≠ .perform .close)
    (light : m.bytes + c.weight ≤ m.maxBytes) :
    (memory m).Roomy c ∧ ∃ n, ((memory m).call c).2 = memory n ∧ Gains m c.weight n := by
  cases c with
  | perform op =>
    cases writing : op.writing? m.lookup with
    | none =>
      have open_op : op ≠ .close := fun same => stays (same ▸ rfl)
      have gains := gains_unwritten m open_op
      refine ⟨fun item same => ?_, _, congrArg Prod.snd (perform_of_idle writing), ?_⟩
      · cases writing.symm.trans same
      · exact ⟨Nat.le_trans gains.bytes (Nat.add_le_add_left (Nat.zero_le _) _), gains.closed, gains.maxBytes⟩
    | some item =>
      rw [Call.weight_of_writing writing] at light ⊢
      obtain ⟨f, -, performed⟩ := perform_of_writing writing
      have accepted : m.refusal? item = none := MemoryStore.refusal?_eq_none_iff.2 ⟨opened, by omega⟩
      rw [MemoryStore.put_of_accepted accepted] at performed
      have bytes := m.bytes_withItem_le item
      have keeps := m.keeps_withItem item
      have evicts := ((m.withItem item).evicts_enforceLimits item.key).1
      refine ⟨fun other same => ?_, _, congrArg Prod.snd performed, ?_⟩
      · obtain rfl := Option.some.inj (writing.symm.trans same)
        exact ⟨by rw [performed]; rfl, Nat.le_trans bytes light⟩
      · exact ⟨Nat.le_trans ((m.withItem item).bytes_enforceLimits_le item.key) bytes, evicts.closed.trans keeps.closed,
          evicts.maxBytes.trans keeps.maxBytes⟩
  | contains _ | size | keys | evictions => exact ⟨trivial, m, rfl, Nat.le_add_right _ _, rfl, rfl⟩

/-- A map that could hold at once all that is ever written to it meets no byte limit. -/
theorem roomyRun_of_light (opened : m.closed = false) {calls : List Call} (stays : .perform .close ∉ calls)
    (light : m.bytes + (calls.map Call.weight).sum ≤ m.maxBytes) : (memory m).RoomyRun calls := by
  induction calls generalizing m with
  | nil => trivial
  | cons c later ih =>
    rw [List.map_cons, List.sum_cons] at light
    obtain ⟨first, rest⟩ := not_or.1 (mt List.mem_cons.2 stays)
    obtain ⟨roomy, n, after, gains⟩ := roomy_of_light opened (Ne.symm first) (by omega)
    refine ⟨roomy, ?_⟩
    rw [after]
    refine ih (gains.closed.trans opened) rest ?_
    have := gains.bytes
    have := gains.maxBytes
    omega

end Light

/-- A closed store that has counted some evictions: nothing is in it and nothing fits. -/
def Closed (evictions : Nat) : Store → Prop
  | blocks x => x.Sound ∧ (∀ key, x.view key = none) ∧ (∀ key, (x.home key).size = 0) ∧ x.evictions = evictions
  | memory m => m.closed = true ∧ m.entries = ∅ ∧ m.evictions = evictions

/-- A call is answered as by an empty store, but what would be stored is refused. -/
def Call.Shut (evictions : Nat) (result : Except StoreError Result) : Call → Prop
  | .perform op =>
    match op.writing? fun _ => none with
    | some _ => ∃ requested available, result = .error (.outOfSpace requested available)
    | none => result = .ok (.answer (op.answer fun _ => none))
  | .contains _ => result = .ok (.contains false)
  | .size => result = .ok (.count 0)
  | .keys => result = .ok (.keys 0)
  | .evictions => result = .ok (.count evictions)

theorem closed_close (s : Store) : s.close.Closed s.evictions := by
  cases s with
  | blocks x =>
    obtain ⟨after, empties, released⟩ := Index.Sound.close x
    exact ⟨after, empties.view, released, empties.evictions⟩
  | memory m => exact ⟨rfl, rfl, rfl⟩

section Closed

variable {n : Nat}

/-- Nothing that is done to a closed index changes what it holds. -/
theorem Closed.perform_blocks {x : Index} (closed : (blocks x).Closed n) (op : Index.Operation) :
    (Call.perform op).Shut n ((x.perform op).1.map .answer) ∧ (blocks (x.perform op).2).Closed n := by
  have same := closed
  obtain ⟨sound, empty, released, counted⟩ := closed
  have large (item : Item) : (x.home item.key).size < item.encodedLength := by
    rw [released, Item.encodedLength, Item.headerLength]
    omega
  cases op with
  | put item =>
    rw [Index.perform, Index.put_of_large (large item)]
    exact ⟨⟨_, _, rfl⟩, same⟩
  | putIfAbsent item =>
    rw [Index.perform, sound.putIfAbsent_of_absent (empty item.key), Index.put_of_large (large item)]
    exact ⟨⟨_, _, rfl⟩, same⟩
  | replace expected item =>
    have other : x.view item.key ≠ some expected := by
      rw [empty]
      simp
    rw [Index.perform, sound.replace_of_other other]
    exact ⟨by simp [Call.Shut, Index.Operation.writing?, Index.Operation.answer, Except.map], same⟩
  | get key =>
    rw [Index.perform, sound.get_idle (.inr (empty key)), empty]
    exact ⟨rfl, same⟩
  | remove key =>
    obtain ⟨y, answer, after, removes⟩ := sound.remove key
    rw [Index.perform, answer, empty]
    refine ⟨rfl, after, fun other => ?_, fun other => ?_, removes.evictions.trans counted⟩
    · rw [removes.view, empty, ite_self]
    · rw [removes.shape.room, released]
  | removeIf expected =>
    have other : x.view expected.key ≠ some expected := by
      rw [empty]
      simp
    rw [Index.perform, sound.removeIf_of_other other]
    exact ⟨by simp [Call.Shut, Index.Operation.writing?, Index.Operation.answer, Except.map], same⟩
  | clear =>
    obtain ⟨after, empties, shape⟩ := sound.clear
    refine ⟨rfl, after, empties.view, fun key => ?_, empties.evictions.trans counted⟩
    rw [Index.perform, shape.room, released]
  | close => exact ⟨rfl, counted ▸ closed_close (blocks x)⟩

/-- Nothing that is done to a closed map changes what it holds. -/
theorem Closed.perform_memory {m : MemoryStore} (closed : (memory m).Closed n) (op : Index.Operation) :
    (Call.perform op).Shut n (((memory m).perform op).1.map .answer) ∧ ((memory m).perform op).2.Closed n := by
  have same := closed
  obtain ⟨shut, entries, counted⟩ := closed
  have found (key : Key) : m.entries[key]? = none := by simp [entries]
  have empty : m.lookup = fun _ => none := funext fun key => by rw [MemoryStore.lookup, found]; rfl
  cases writing : op.writing? m.lookup with
  | some item =>
    obtain ⟨f, -, performed⟩ := perform_of_writing writing
    have refused : m.refusal? item = some (.outOfSpace item.weight 0) := by
      rw [MemoryStore.refusal?, if_pos shut]
    rw [performed, MemoryStore.put_of_refusal refused]
    refine ⟨?_, same⟩
    rw [Call.Shut, ← empty, writing]
    exact ⟨_, _, rfl⟩
  | none =>
    rw [perform_of_idle writing, Call.Shut, ← empty, writing]
    refine ⟨rfl, ?_⟩
    cases op with
    | get key =>
      rw [unwritten, MemoryStore.get_idle (.inr (congrFun empty key))]
      exact same
    | remove key =>
      rw [unwritten, MemoryStore.remove, found]
      exact same
    | removeIf expected =>
      rw [unwritten, if_neg (by simp [empty])]
      exact same
    | clear => exact ⟨shut, rfl, counted⟩
    | close => exact ⟨rfl, rfl, counted⟩
    | put _ | putIfAbsent _ | replace _ _ => exact same

theorem Closed.reads {s : Store} (closed : s.Closed n) :
    (∀ key, s.contains key = false) ∧ s.size = 0 ∧ s.keys = [] ∧ s.evictions = n := by
  cases s with
  | blocks x =>
    obtain ⟨sound, empty, -, counted⟩ := closed
    have links : x.links = [] := List.eq_nil_iff_forall_not_mem.2 fun link mem =>
      sound.view_ne_none_iff.2 ⟨link, mem, rfl⟩ (empty link.key)
    refine ⟨fun key => ?_, ?_, ?_, counted⟩
    · rw [contains, sound.contains_eq, empty]
      rfl
    · rw [size, sound.size_eq, links]
      rfl
    · rw [keys, Index.keys_eq, links]
      rfl
  | memory m =>
    obtain ⟨-, entries, counted⟩ := closed
    refine ⟨fun key => ?_, ?_, ?_, counted⟩
    · simp [contains, MemoryStore.contains, entries]
    · simp [size, MemoryStore.size, entries]
    · simp [keys, MemoryStore.keys, entries]

/-- Every call on a closed store finds nothing, and leaves it so. -/
theorem Closed.call {s : Store} (closed : s.Closed n) (c : Call) : c.Shut n (s.call c).1 ∧ (s.call c).2.Closed n := by
  obtain ⟨contains, size, keys, evictions⟩ := closed.reads
  cases c with
  | perform op =>
    cases s with
    | blocks x => simpa only [Store.call, Store.perform_blocks] using Closed.perform_blocks closed op
    | memory m => exact Closed.perform_memory closed op
  | contains key => exact ⟨by rw [Store.call, Call.Shut, contains], closed⟩
  | size => exact ⟨by rw [Store.call, Call.Shut, size], closed⟩
  | keys => exact ⟨by rw [Store.call, Call.Shut, keys]; rfl, closed⟩
  | evictions => exact ⟨by rw [Store.call, Call.Shut, evictions], closed⟩

theorem Closed.after {s : Store} (closed : s.Closed n) (calls : List Call) : (s.after calls).Closed n := by
  induction calls generalizing s with
  | nil => exact closed
  | cons c later ih => exact ih (closed.call c).2

end Closed

end BlockCache.Store
