import BlockCache.Proofs.Index.Alike

/-!
# A cleared index is as good as new

An index that was cleared and the index that was built from the same settings are alike, and both are
empty. Whatever is done to both, they stay alike, and show the same items but for the CAS values, which the
cleared one draws from where its counter stood. Every answer of the cleared index is therefore the answer of
the new one with the CAS values raised, and nothing of what was stored before the clear is ever seen again,
though the bytes of the arenas stay.
-/

namespace BlockCache

namespace Item

variable {c : UInt64}

/-- The item with its CAS value `c` higher. -/
def raise (c : UInt64) (i : Item) : Item := { i with cas := i.cas + c }

/-- The item with its CAS value `c` lower. -/
def lower (c : UInt64) (i : Item) : Item := { i with cas := i.cas - c }

theorem raise_eq_iff {i j : Item} : i.raise c = j ↔ i = j.lower c := by
  constructor
  · rintro rfl
    simp [raise, lower]
  · rintro rfl
    simp [raise, lower]

theorem map_raise_eq_some_iff {found : Option Item} {expected : Item} :
    found.map (raise c) = some expected ↔ found = some (expected.lower c) := by
  cases found with
  | none => simp
  | some i => simp [raise_eq_iff]

end Item

/-- The answer with the CAS value of its item `c` higher. -/
def Answer.raise (c : UInt64) : Answer → Answer
  | .item found => .item (found.map (Item.raise c))
  | .acted did => .acted did
  | .victim key => .victim key
  | .done => .done

namespace Index

/-- The operation with the CAS value of the item it expects `c` lower. -/
def Operation.lower (c : UInt64) : Operation → Operation
  | replace expected item => replace (expected.lower c) item
  | removeIf expected => removeIf (expected.lower c)
  | op => op

/-- The item that an operation has to write, whether it comes to write it or not. -/
def Operation.item? : Operation → Option Item
  | put item => some item
  | putIfAbsent item => some item
  | replace _ item => some item
  | _ => none

/-- What operations answer one after the other. -/
def answers (x : Index) : List Operation → List (Except StoreError Answer)
  | [] => []
  | op :: ops => (x.perform op).1 :: (x.perform op).2.answers ops

namespace Operation

variable {c : UInt64} {held fresh : Key → Option Item} (raised : ∀ key, held key = (fresh key).map (Item.raise c))

theorem item?_of_writing {op : Operation} {item : Item} (writing : op.writing? held = some item) :
    op.item? = some item := by
  rcases of_writing writing with rfl | ⟨rfl, -⟩ | ⟨expected, rfl, -⟩ <;> rfl

/-- What is held after an operation that writes nothing was held before. -/
theorem eq_of_kept {op : Operation} {key : Key} {item : Item} (shown : op.kept held key = some item) :
    held key = some item := by
  cases op with
  | remove other =>
    simp only [kept] at shown
    split at shown
    · cases shown
    · exact shown
  | removeIf expected =>
    simp only [kept] at shown
    split at shown
    · cases shown
    · exact shown
  | clear | close => cases shown
  | put _ | putIfAbsent _ | replace _ _ | get _ => exact shown

include raised

theorem eq_none_iff_of_raised (key : Key) : held key = none ↔ fresh key = none := by
  rw [raised, Option.map_eq_none_iff]

theorem eq_some_iff_of_raised {key : Key} {expected : Item} :
    held key = some expected ↔ fresh key = some (expected.lower c) := by
  rw [raised, Item.map_raise_eq_some_iff]

theorem writing?_lower (op : Operation) : (op.lower c).writing? fresh = op.writing? held := by
  cases op with
  | putIfAbsent item => simp only [lower, writing?, eq_none_iff_of_raised raised]
  | replace expected item =>
    simp only [lower, writing?, eq_some_iff_of_raised raised]
    rfl
  | put _ | get _ | remove _ | removeIf _ | clear | close => rfl

theorem answer_lower (op : Operation) : op.answer held = ((op.lower c).answer fresh).raise c := by
  cases op with
  | replace expected item =>
    simp only [lower, answer, eq_some_iff_of_raised raised]
    rfl
  | removeIf expected =>
    simp only [lower, answer, eq_some_iff_of_raised raised]
    rfl
  | put item => exact congrArg Answer.item (raised item.key)
  | putIfAbsent item => exact congrArg Answer.item (raised item.key)
  | get key => exact congrArg Answer.item (raised key)
  | remove key => exact congrArg Answer.item (raised key)
  | clear | close => rfl

theorem kept_lower (op : Operation) (key : Key) :
    op.kept held key = ((op.lower c).kept fresh key).map (Item.raise c) := by
  cases op with
  | remove other =>
    simp only [lower, kept]
    split
    · rfl
    · exact raised key
  | removeIf expected =>
    have same : held expected.key = some expected ↔ fresh (expected.lower c).key = some (expected.lower c) :=
      eq_some_iff_of_raised raised
    simp only [lower, kept]
    by_cases gone : fresh (expected.lower c).key = some (expected.lower c) ∧ key = (expected.lower c).key
    · rw [if_pos gone, if_pos ⟨same.2 gone.1, gone.2⟩]
      rfl
    · rw [if_neg gone, if_neg fun both => gone ⟨same.1 both.1, both.2⟩]
      exact raised key
  | put _ | putIfAbsent _ | replace _ _ | get _ => exact raised key
  | clear | close => rfl

end Operation

/-- What an operation leaves under a key whose entry it does not evict. -/
def Operation.leaves (x : Index) (op : Operation) (key : Key) : Option Item :=
  match op.writing? x.view, op.refusal? x with
  | some item, none => if key = item.key then some { item with cas := x.clocks.cas.next.1 } else x.view key
  | _, _ => op.kept x.view key

theorem Operation.refusal?_of_writing {x : Index} {op : Operation} {item : Item}
    (writing : op.writing? x.view = some item) :
    op.refusal? x = if (x.home item.key).size < item.encodedLength
      then some (.outOfSpace item.encodedLength (x.home item.key).freeBytes) else none := by
  rw [Operation.refusal?, writing]
  rfl

namespace Sound

variable {x : Index} {op : Operation}

/-- After an operation a key holds what the operation leaves, or its entry was evicted. -/
theorem view_perform (sound : x.Sound) (small : x.Small) (few : (x.perform op).2.clocks.stamps.issued < UInt64.size)
    {key : Key} (shown : (x.perform op).2.view key ≠ none) : (x.perform op).2.view key = op.leaves x key := by
  unfold Operation.leaves
  cases writing : op.writing? x.view with
  | none =>
    obtain ⟨z, performed, -, -, kept, -⟩ := sound.perform_of_not_writing writing few
    rw [performed]
    exact kept key
  | some item =>
    have refusal := Operation.refusal?_of_writing writing
    have short (fits : item.encodedLength ≤ (x.home item.key).size) := Nat.lt_of_le_of_lt fits (small item.key)
    rcases sound.perform_of_writing writing short few with ⟨large, performed⟩ |
      ⟨fits, first, y, second, z, commits, performed⟩
    · rw [refusal, if_pos large, performed]
      rcases Operation.of_writing writing with rfl | ⟨rfl, -⟩ | ⟨expected, rfl, -⟩ <;> rfl
    · obtain ⟨-, evicts⟩ := commits.sound.evicting commits.evicting
      rw [performed] at shown ⊢
      rw [refusal, if_neg (Nat.not_lt.2 fits)]
      -- A key that still holds something was evicted neither for room nor for the item limit.
      rw [evicts.view, commits.writes.view] at shown ⊢
      dsimp only at shown ⊢
      split at shown
      · exact absurd rfl shown
      · rename_i kept
        rw [if_neg kept]
        by_cases here : key = item.key
        · rw [if_pos here, if_pos (show key = (x.clocks.commit item).1.key from here)]
          rfl
        · rw [if_neg (show ¬key = (x.clocks.commit item).1.key from here)] at shown ⊢
          rw [if_neg here]
          split at shown
          · exact absurd rfl shown
          · rename_i spared
            rw [if_neg spared]

/-- An item that is stored draws a CAS value. -/
theorem cas_of_writing (sound : x.Sound) (small : x.Small) (few : (x.perform op).2.clocks.stamps.issued < UInt64.size)
    {item : Item} (writing : op.writing? x.view = some item) (accepted : op.refusal? x = none) :
    (x.perform op).2.clocks.cas = x.clocks.cas.next.2 := by
  have refusal := Operation.refusal?_of_writing writing
  have short (fits : item.encodedLength ≤ (x.home item.key).size) := Nat.lt_of_le_of_lt fits (small item.key)
  rcases sound.perform_of_writing writing short few with ⟨large, performed⟩ | ⟨-, _, _, _, z, commits, performed⟩
  · rw [refusal, if_pos large] at accepted
    cases accepted
  · rw [performed, commits.clocks]
    rfl

/-- What a key holds after an operation it held before, or the operation wrote it. -/
theorem of_view_perform (sound : x.Sound) (small : x.Small) (few : (x.perform op).2.clocks.stamps.issued < UInt64.size)
    {key : Key} {item : Item} (shown : (x.perform op).2.view key = some item) : x.view key = some item ∨
      ∃ written, op.item? = some written ∧ item = { written with cas := x.clocks.cas.next.1 } ∧
        (x.perform op).2.clocks.cas = x.clocks.cas.next.2 := by
  have left := sound.view_perform small few (shown ▸ Option.some_ne_none item)
  rw [shown] at left
  unfold Operation.leaves at left
  split at left
  · rename_i written writing accepted
    split at left
    · exact .inr ⟨written, Operation.item?_of_writing writing, Option.some.inj left,
        sound.cas_of_writing small few writing accepted⟩
    · exact .inl left.symm
  · exact .inl (Operation.eq_of_kept left.symm)

/-- An operation draws nothing, or a stamp, or a stamp and a CAS value. -/
theorem clocks_perform (sound : x.Sound) (few : (x.perform op).2.clocks.stamps.issued < UInt64.size) :
    (x.perform op).2.clocks = x.clocks ∨ (x.perform op).2.clocks = x.clocks.drawStamp.2 ∨
      (x.perform op).2.clocks = ⟨x.clocks.stamps.next.2, x.clocks.cas.next.2⟩ := by
  have written (item : Item) : ((x.home item.key).put x.clocks item).2.2 = x.clocks ∨
      ((x.home item.key).put x.clocks item).2.2 = ⟨x.clocks.stamps.next.2, x.clocks.cas.next.2⟩ := by
    rcases Nat.lt_or_ge (x.home item.key).size item.encodedLength with large | fits
    · exact .inl (by rw [Partition.put_of_large large])
    · exact .inr (by rw [Partition.put_clocks fits]; rfl)
  cases op with
  | put item =>
    rw [Index.perform, put_clocks]
    exact (written item).imp_right .inr
  | putIfAbsent item =>
    by_cases absent : x.view item.key = none
    · rw [Index.perform, sound.putIfAbsent_of_absent absent, put_clocks]
      exact (written item).imp_right .inr
    · obtain ⟨present, shown⟩ := Option.ne_none_iff_exists'.1 absent
      rw [Index.perform, sound.putIfAbsent_of_present shown]
      exact .inl rfl
  | replace expected item =>
    by_cases same : x.view item.key = some expected
    · rw [Index.perform, sound.replace_of_same same]
      exact (written item).imp_right .inr
    · rw [Index.perform, sound.replace_of_other same]
      exact .inl rfl
  | get key =>
    by_cases idle : x.policy.refreshesOnRead = false ∨ x.view key = none
    · rw [Index.perform, sound.get_idle idle]
      exact .inl rfl
    · obtain ⟨touched, shown⟩ := not_or.1 idle
      exact .inr (.inl (sound.get_restamps (by simpa using touched) shown few).1)
  | remove _ | removeIf _ | clear | close => exact .inl rfl

end Sound

/-- What can be seen of `x` is what can be seen of `y`, with CAS values `c` higher and `v` more evictions. -/
structure Resembles (c : UInt64) (v : Nat) (x y : Index) : Prop where
  view : ∀ key, x.view key = (y.view key).map (Item.raise c)
  contains : ∀ key, x.contains key = y.contains key
  keys : x.keys = y.keys
  size : x.size = y.size
  maxItems : x.maxItems = y.maxItems
  memoryUsed : x.memoryUsed = y.memoryUsed
  memoryCapacity : x.memoryCapacity = y.memoryCapacity
  evictions : x.evictions = y.evictions + v

/-- Two sound indexes that are alike and show the same items but for the CAS values. -/
structure Renewed (t c : UInt64) (v : Nat) (x y : Index) : Prop where
  alike : Alike t c v x y
  view : ∀ key, x.view key = (y.view key).map (Item.raise c)
  left : x.Sound
  right : y.Sound
  small : x.Small

namespace Renewed

variable {t c : UInt64} {v : Nat} {x y : Index} (renewed : Renewed t c v x y)

include renewed

theorem resembles : Resembles c v x y where
  view := renewed.view
  contains key := by
    rw [renewed.left.contains_eq, renewed.right.contains_eq, renewed.view, Option.isSome_map]
  keys := renewed.alike.keys
  size := renewed.alike.size
  maxItems := renewed.alike.maxItems
  memoryUsed := renewed.alike.memoryUsed
  memoryCapacity := renewed.alike.memoryCapacity
  evictions := renewed.alike.evictions

theorem refusal?_lower (op : Operation) : (op.lower c).refusal? y = op.refusal? x := by
  rw [Operation.refusal?, Operation.refusal?, Operation.writing?_lower renewed.view]
  cases op.writing? x.view with
  | none => rfl
  | some item =>
    obtain ⟨w, home⟩ := renewed.alike.home item.key
    change (y.home item.key).refusal? item = (x.home item.key).refusal? item
    rw [Partition.refusal?, Partition.refusal?, home.size, home.freeBytes]

theorem leaves_lower (op : Operation) (key : Key) :
    op.leaves x key = ((op.lower c).leaves y key).map (Item.raise c) := by
  unfold Operation.leaves
  rw [Operation.writing?_lower renewed.view, renewed.refusal?_lower]
  have kept := Operation.kept_lower renewed.view op key
  rcases op.writing? x.view with - | item
  · exact kept
  · cases op.refusal? x with
    | some e => exact kept
    | none =>
      dsimp only
      rw [renewed.alike.clocks.cas.next_fst, renewed.view]
      split <;> rfl

variable {op : Operation} (few : (x.perform op).2.clocks.stamps.issued < UInt64.size)

include few

theorem alike_perform : Alike t c v (x.perform op).2 (y.perform (op.lower c)).2 := by
  have same {key : Key} {expected : Item} : x.view key = some expected ↔ y.view key = some (expected.lower c) :=
    Operation.eq_some_iff_of_raised renewed.view
  cases op with
  | put item => exact renewed.alike.put renewed.left renewed.right renewed.small item few
  | putIfAbsent item => exact renewed.alike.putIfAbsent renewed.left renewed.right renewed.small item few
  | replace expected item => exact renewed.alike.replace renewed.left renewed.right same few
  | get key => exact renewed.alike.get renewed.left renewed.right key few
  | remove key => exact renewed.alike.remove renewed.left renewed.right key
  | removeIf expected => exact renewed.alike.removeIf renewed.left renewed.right rfl same
  | clear => exact renewed.alike.clear
  | close => exact renewed.alike.close

theorem few_lower : (y.perform (op.lower c)).2.clocks.stamps.issued < UInt64.size := by
  have later : _ = _ + t.toNat := (renewed.alike_perform few).clocks.stamps
  omega

/-- One operation on both: the answers differ in CAS values only, and so do the items shown. -/
theorem perform : (x.perform op).1 = (y.perform (op.lower c)).1.map (Answer.raise c) ∧
    Renewed t c v (x.perform op).2 (y.perform (op.lower c)).2 := by
  have fewer := renewed.few_lower few
  have after := renewed.alike_perform few
  have small := renewed.alike.small renewed.small
  obtain ⟨left, performs⟩ := renewed.left.perform renewed.small op few
  obtain ⟨right, also⟩ := renewed.right.perform small (op.lower c) fewer
  refine ⟨?_, after, fun key => ?_, left, right, performs.small renewed.small⟩
  · cases refused : op.refusal? x with
    | none =>
      rw [performs.accepted refused, also.accepted ((renewed.refusal?_lower op).trans refused),
        Operation.answer_lower renewed.view]
      rfl
    | some e =>
      rw [performs.refused e refused, also.refused e ((renewed.refusal?_lower op).trans refused)]
      rfl
  · -- Alike indexes hold the same keys: what was evicted from one was evicted from both.
    by_cases gone : (x.perform op).2.view key = none
    · rw [gone, (after.view_eq_none_iff left right key).1 gone]
      rfl
    · have shown := fun absent => gone ((after.view_eq_none_iff left right key).2 absent)
      rw [renewed.left.view_perform renewed.small few gone, renewed.right.view_perform small fewer shown,
        renewed.leaves_lower]

end Renewed

theorem Renewed.run {t c : UInt64} {v : Nat} {x y : Index} (renewed : Renewed t c v x y) {ops : List Operation}
    (few : (x.run ops).clocks.stamps.issued < UInt64.size) :
    x.answers ops = (y.answers (ops.map (·.lower c))).map (Except.map (Answer.raise c)) ∧
      Renewed t c v (x.run ops) (y.run (ops.map (·.lower c))) := by
  induction ops generalizing x y with
  | nil => exact ⟨rfl, renewed⟩
  | cons op ops ih =>
    have before := Nat.lt_of_le_of_lt (issued_le_run (x.perform op).2 ops) few
    obtain ⟨answer, after⟩ := renewed.perform before
    obtain ⟨answers, last⟩ := ih after few
    exact ⟨by rw [Index.answers, answer, answers]; rfl, last⟩

/-- The items of an index were written by `ops`, under CAS values from 1 on. -/
structure Stems (x : Index) (ops : List Operation) : Prop where
  written : ∀ key item, x.view key = some item →
    ∃ op ∈ ops, ∃ written, op.item? = some written ∧ item = { written with cas := item.cas }
  drawn : ∀ key item, x.view key = some item → 0 < item.cas.toNat ∧ item.cas.toNat ≤ x.clocks.cas.issued
  cas : x.clocks.cas.issued ≤ x.clocks.stamps.issued

namespace Stems

variable {x : Index} {ops : List Operation}

theorem cas_perform (stems : x.Stems ops) (sound : x.Sound) {op : Operation}
    (few : (x.perform op).2.clocks.stamps.issued < UInt64.size) :
    x.clocks.cas.issued ≤ (x.perform op).2.clocks.cas.issued ∧
      (x.perform op).2.clocks.cas.issued ≤ (x.perform op).2.clocks.stamps.issued := by
  have before := stems.cas
  rcases sound.clocks_perform few with same | same | same
  · rw [same]
    exact ⟨Nat.le_refl _, before⟩
  · rw [same]
    exact ⟨Nat.le_refl _, Nat.le_succ_of_le before⟩
  · rw [same]
    exact ⟨Nat.le_succ _, Nat.succ_le_succ before⟩

theorem perform (stems : x.Stems ops) (sound : x.Sound) (small : x.Small) {op : Operation}
    (few : (x.perform op).2.clocks.stamps.issued < UInt64.size) : (x.perform op).2.Stems (ops ++ [op]) where
  written key item shown := by
    rcases sound.of_view_perform small few shown with old | ⟨written, mine, rfl, -⟩
    · obtain ⟨other, mem, rest⟩ := stems.written key item old
      exact ⟨other, List.mem_append_left _ mem, rest⟩
    · exact ⟨op, List.mem_append_right _ (List.mem_singleton_self op), written, mine, rfl⟩
  drawn key item shown := by
    obtain ⟨later, bounded⟩ := stems.cas_perform sound few
    rcases sound.of_view_perform small few shown with old | ⟨written, -, rfl, drawn⟩
    · obtain ⟨positive, issued⟩ := stems.drawn key item old
      exact ⟨positive, Nat.le_trans issued later⟩
    · have issued : (x.perform op).2.clocks.cas.issued = x.clocks.cas.issued + 1 := congrArg Counter.issued drawn
      have value : x.clocks.cas.next.1.toNat = x.clocks.cas.issued + 1 := UInt64.toNat_ofNat_of_lt' (by omega)
      dsimp only
      omega
  cas := (stems.cas_perform sound few).2

theorem run (stems : x.Stems ops) (sound : x.Sound) (small : x.Small) {later : List Operation}
    (few : (x.run later).clocks.stamps.issued < UInt64.size) : (x.run later).Stems (ops ++ later) := by
  induction later generalizing x ops with
  | nil => rwa [List.append_nil]
  | cons op later ih =>
    have before := Nat.lt_of_le_of_lt (issued_le_run (x.perform op).2 later) few
    obtain ⟨after, performs⟩ := sound.perform small op before
    have last := ih (stems.perform sound small before) after (performs.small small) few
    rwa [List.append_assoc] at last

end Stems

theorem stems_of_empty {x : Index} (empty : ∀ key, x.view key = none)
    (cas : x.clocks.cas.issued ≤ x.clocks.stamps.issued) : x.Stems [] where
  written key item shown := by
    rw [empty] at shown
    cases shown
  drawn key item shown := by
    rw [empty] at shown
    cases shown
  cas := cas

theorem stems_new (s : StorageSettings) : (new s).Stems [] := stems_of_empty (view_new s) (Nat.le_refl 0)

/-- An item of a cleared index has a greater CAS value than all that were drawn before the clear. -/
theorem Renewed.lt_cas {t c : UInt64} {v : Nat} {x y : Index} (renewed : Renewed t c v x y) {ops past : List Operation}
    (stems : x.Stems ops) (fresh : y.Stems past) (few : x.clocks.stamps.issued < UInt64.size) {key : Key} {item : Item}
    (shown : x.view key = some item) : c.toNat < item.cas.toNat := by
  rw [renewed.view, Option.map_eq_some_iff] at shown
  obtain ⟨old, held, rfl⟩ := shown
  obtain ⟨positive, issued⟩ := fresh.drawn key old held
  have later : x.clocks.cas.issued = y.clocks.cas.issued + c.toNat := renewed.alike.clocks.cas
  have fits := stems.cas
  have value : (old.cas + c).toNat = old.cas.toNat + c.toNat := by
    rw [UInt64.toNat_add]
    exact Nat.mod_eq_of_lt (show _ < UInt64.size by omega)
  change c.toNat < (old.cas + c).toNat
  omega

/-- An index that was built with the settings `s` starts anew when it is cleared. -/
theorem renewed_clear {s : StorageSettings} {x : Index} (sound : x.Sound) (small : x.Small)
    (built : x.asNew = new s) (cas : x.clocks.cas.issued ≤ x.clocks.stamps.issued)
    (few : x.clocks.stamps.issued < UInt64.size) :
    Renewed x.clocks.stamps.issued.toUInt64 x.clocks.cas.issued.toUInt64 x.evictions x.clear (new s) where
  alike := by
    rw [← built]
    exact x.alike_clear (UInt64.toNat_ofNat_of_lt' few).symm
      (UInt64.toNat_ofNat_of_lt' (Nat.lt_of_le_of_lt cas few)).symm
  view key := by
    rw [sound.clear.2.1.view, view_new]
    rfl
  left := sound.clear.1
  right := .new s
  small := sound.clear.2.2.small small

/-- What a clear makes of an index that was built with the settings `s`: whatever is done to it `later`, it answers
what the new index answers, and what is seen of it then is what is seen of that one. CAS values count on from where
they stood, so that an expected item is compared as if its CAS value were that much lower; evictions count on too. -/
structure AsGoodAsNew (s : StorageSettings) (x : Index) (later : List Operation) : Prop where
  answers : x.clear.answers later =
    ((new s).answers (later.map (·.lower x.clocks.cas.issued.toUInt64))).map
      (Except.map (Answer.raise x.clocks.cas.issued.toUInt64))
  resembles : (x.clear.run later).Resembles x.clocks.cas.issued.toUInt64 x.evictions
    ((new s).run (later.map (·.lower x.clocks.cas.issued.toUInt64)))
  /-- An item from before the clear is never found, whatever it is expected for. -/
  stale : ∀ expected : Item, expected.cas.toNat ≤ x.clocks.cas.issued → ∀ item,
    ((x.clear.run later).replace expected item).1 = .ok false ∧ ((x.clear.run later).removeIf expected).1 = .ok false
  /-- An item that is read was written after the clear. -/
  read : ∀ key item, ((x.clear.run later).get key).1 = .ok (some item) →
    ∃ op ∈ later, ∃ written, op.item? = some written ∧ item = { written with cas := item.cas }

/-- A clear is as good as a new index, after any operations on an index that was not closed and before any others.
As `later` is any list, this is so after each of its operations. Arenas are smaller than 4 GiB, and fewer than
2^64 stamps are drawn. -/
theorem clear_asGoodAsNew {s : StorageSettings} (small : s.partitionBytes < 2 ^ 32) {before later : List Operation}
    (opened : .close ∉ before) (few : (((new s).run before).clear.run later).clocks.stamps.issued < 2 ^ 64) :
    AsGoodAsNew s ((new s).run before) later := by
  have fewBefore : ((new s).run before).clocks.stamps.issued < UInt64.size :=
    Nat.lt_of_le_of_lt (issued_le_run ((new s).run before).clear later) few
  obtain ⟨sound, fits⟩ := (Sound.new s).run (small_new small) fewBefore
  have stems := (stems_new s).run (Sound.new s) (small_new small) fewBefore
  have built : ((new s).run before).asNew = new s := ((new s).asNew_run opened).trans (asNew_new s)
  generalize (new s).run before = x at *
  obtain ⟨left, empties, shape⟩ := sound.clear
  have renewed := renewed_clear sound fits built stems.cas fewBefore
  obtain ⟨answers, last⟩ := renewed.run few
  have written := (stems_of_empty empties.view stems.cas).run left (shape.small fits) few
  -- The new index has drawn fewer stamps, by those drawn before the clear.
  have fewNew :
      ((new s).run (later.map (·.lower x.clocks.cas.issued.toUInt64))).clocks.stamps.issued < UInt64.size := by
    have apart : _ = _ + _ := last.alike.clocks.stamps
    exact Nat.lt_of_le_of_lt (apart ▸ Nat.le_add_right _ _) few
  have fresh := (stems_new s).run (Sound.new s) (small_new small) fewNew
  refine ⟨answers, last.resembles, fun expected old item => ?_, fun key item read => ?_⟩
  · have cas : x.clocks.cas.issued.toUInt64.toNat = x.clocks.cas.issued :=
      UInt64.toNat_ofNat_of_lt' (Nat.lt_of_le_of_lt stems.cas fewBefore)
    -- Whatever is held was written since, under a CAS value past all that were drawn before the clear.
    have never (key : Key) : (x.clear.run later).view key ≠ some expected := fun shown => by
      have above := last.lt_cas written fresh few shown
      omega
    rw [last.left.replace_of_other (never item.key), last.left.removeIf_of_other (never expected.key)]
    exact ⟨rfl, rfl⟩
  · rw [last.left.get_answer] at read
    exact written.written key item (Except.ok.inj read)

theorem clear_asGoodAsNew_same_value : AsGoodAsNew {} ((new {}).run [.put { key := ⟨[97]⟩, data := [1] }])
    [.put { key := ⟨[97]⟩, data := [1] }, .removeIf { key := ⟨[97]⟩, data := [1], cas := 1 }] :=
  clear_asGoodAsNew (by decide) (by decide) (Nat.lt_of_le_of_lt (run_issued_le _ _)
    (Nat.lt_of_le_of_lt (Nat.add_le_add_right (run_issued_le _ _) _) (by decide)))

example : ((new {}).run [.put { key := ⟨[97]⟩, data := [1] }]).clear.answers
    [.put { key := ⟨[97]⟩, data := [1] }, .removeIf { key := ⟨[97]⟩, data := [1], cas := 1 }] =
      [.ok (.item none), .ok (.acted false)] := by decide +kernel

end Index
end BlockCache
