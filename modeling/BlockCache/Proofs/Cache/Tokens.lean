import BlockCache.Proofs.Cache.Commits

/-!
# Swaps by CAS value

A swap that names an item by its CAS value stores its own item exactly while the named one is the live
item of the key. That is so until something is stored there, the key is deleted or held back, everything
is flushed, or the item is evicted or removed past its time; afterwards the value matches nothing any more.
-/

namespace BlockCache.Cache

/-- What takes an item out of the cache, or puts another one in its place. -/
inductive Disturbs (c : Cache) (now : Int64) (op : Operation) (i : Item) : Prop where
  | stored : op.stored? (c.perform now op).1 = some i.key → Disturbs c now op i
  | deleted {hold : Int64} : op = .delete i.key hold → (c.perform now op).1 = .ok (.delete .deleted) → Disturbs c now op i
  | flushed : op = .flushAll ∨ op = .close → Disturbs c now op i
  /-- Its time was over. -/
  | expired : i.isPurgeableAt now = true → (c.perform now op).2.store.view i.key = none → Disturbs c now op i
  | evicted : c.store.evictions < (c.perform now op).2.store.evictions →
      (c.perform now op).2.store.view i.key = none → Disturbs c now op i

/-- No operation of a run disturbs an item. -/
def Undisturbed (c : Cache) (i : Item) : List (Int64 × Operation) → Prop
  | [] => True
  | (now, op) :: later => ¬c.Disturbs now op i ∧ Undisturbed (c.perform now op).2 i later

/-- What becomes of an item at a step that carries out a plan. -/
inductive Fate (s : Store) (now : Int64) (plan : Plan α) (r : Except StoreError α × Store) (i : Item) : Prop where
  | kept : r.2.view i.key = some i → Fate s now plan r i
  | replaced : (plan.commit? r.1).map (·.key) = some i.key → Fate s now plan r i
  | dropped {answer : α} : plan = .drop i.key answer → r.1 = .ok answer → Fate s now plan r i
  | emptied {answer : α} : plan = .empty answer → Fate s now plan r i
  | expired : i.isPurgeableAt now = true → r.2.view i.key = none → Fate s now plan r i
  | evicted : s.evictions < r.2.evictions → r.2.view i.key = none → Fate s now plan r i

section Plans

variable {s : Store} {now : Int64} {plan : Plan α} {r : Except StoreError α × Store} {i : Item}

theorem Follows.fate (follows : Follows s now plan r) (held : s.view i.key = some i) : Fate s now plan r i := by
  have purged {t : Store} (purges : s.Purges now t) :
      t.view i.key = some i ∨ t.view i.key = none ∧ i.isPurgeableAt now = true := by
    rcases purges.view i.key with same | ⟨gone, item, shown, past⟩
    · exact .inl (same.trans held)
    · obtain rfl := Option.some.inj (held.symm.trans shown)
      exact .inr ⟨gone, past⟩
  cases follows with
  | told purges | refused _ purges =>
    rcases purged purges with same | ⟨gone, past⟩
    · exact .kept same
    · exact .expired past gone
  | @wrote entry answer t u _ purges _ stores =>
    by_cases here : i.key = entry.key
    · exact .replaced (congrArg some here.symm)
    · rcases stores.elsewhere i.key here with same | ⟨gone, more⟩
      · rcases purged purges with kept | ⟨gone, past⟩
        · exact .kept (same.trans kept)
        · exact .expired past (same.trans gone)
      · rw [purges.stays.evictions] at more
        exact .evicted more gone
  | @dropped key answer t u purges _ _ view =>
    by_cases here : i.key = key
    · subst here
      exact .dropped rfl rfl
    · have same : u.view i.key = t.view i.key := (view i.key).trans (if_neg here)
      rcases purged purges with kept | ⟨gone, past⟩
      · exact .kept (same.trans kept)
      · exact .expired past (same.trans gone)
  | emptied _ _ _ => exact .emptied rfl

theorem Follows.view_of_empty {answer : α} (follows : Follows s now (.empty answer) r) (key : Key) :
    r.2.view key = none := by
  cases follows with
  | emptied _ _ view => exact view key

variable {history : List Item}

/-- Where another item is committed, an earlier one is held no more. -/
theorem Follows.ne_of_replaced (follows : Follows s now plan r) (numbers : Numbers history s)
    (recorded : Recorded history i) (few : (history ++ (plan.commit? r.1).toList).length < UInt64.size)
    (replaced : (plan.commit? r.1).map (·.key) = some i.key) : r.2.view i.key ≠ some i := by
  obtain ⟨written, commits, here⟩ := Option.map_eq_some_iff.1 replaced
  rw [commits, List.length_append] at few
  rw [← here]
  intro shown
  rcases follows.committed commits with there | ⟨-, gone⟩
  · have same : s.committed written = i := Option.some.inj (there.symm.trans shown)
    rw [Store.committed, numbers.issued] at same
    exact recorded.ne_next few same.symm
  · cases gone.symm.trans shown

/-- An item that a key does not hold comes back never. -/
theorem Follows.ne_of_ne (follows : Follows s now plan r) (numbers : Numbers history s)
    (recorded : Recorded history i) (few : (history ++ (plan.commit? r.1).toList).length < UInt64.size)
    (absent : s.view i.key ≠ some i) : r.2.view i.key ≠ some i := by
  intro shown
  rcases follows.view shown with before | ⟨written, commits, same⟩
  · exact absent before
  · rw [commits, List.length_append] at few
    rw [Store.committed, numbers.issued] at same
    exact recorded.ne_next few same

end Plans

section Run

variable {c : Cache} {history : List Item} {i : Item}

/-- An item that is held is disturbed exactly if it is held no longer. -/
theorem disturbs_iff (sound : c.store.Sound) (numbers : Numbers history c.store) {now : Int64} {op : Operation}
    (short : (op.plan now (c.live? now)).Describable c.store) (few : (c.perform now op).2.store.drawn < UInt64.size)
    (fewCommits : (history ++ (c.commit? now op).toList).length < UInt64.size) (held : c.store.view i.key = some i) :
    c.Disturbs now op i ↔ (c.perform now op).2.store.view i.key ≠ some i := by
  have follows := follows sound op short few
  have planned : op.Planned (op.plan now (c.live? now)) := planned sound op
  have written := planned.key_of_commit? c.store.refusal?
  rw [← follows.reply] at written
  constructor
  · rintro (stored | ⟨deletes, deleted⟩ | empties | ⟨-, gone⟩ | ⟨-, gone⟩)
    · apply follows.ne_of_replaced numbers (numbers.held i.key i held) fewCommits
      exact written.trans (by rw [Operation.written?, stored]; rfl)
    · subst deletes
      have performs := performs sound _ short few
      intro shown
      have hidden := performs.deletes i.key _ rfl i shown
      rw [performs.reply, Operation.reply, live?_of_some held, Item.not_live_of_held hidden] at deleted
      cases deleted
    · have empty : op.plan now (c.live? now) = .empty .done := by rcases empties with rfl | rfl <;> rfl
      rw [empty] at follows
      rw [follows.view_of_empty]
      simp
    · rw [gone]
      simp
    · rw [gone]
      simp
  · intro lost
    rcases follows.fate held with kept | replaced | ⟨drops, answered⟩ | empties | ⟨past, gone⟩ | ⟨more, gone⟩
    · exact absurd kept lost
    · rw [written] at replaced
      rcases Option.or_eq_some_iff.1 replaced with stored | ⟨-, hidden⟩
      · exact .stored stored
      · obtain ⟨hold, deletes, deleted⟩ := Operation.of_held? hidden
        exact .deleted deletes deleted
    · rw [drops] at planned
      cases planned with
      | dropped deletes _ => exact .deleted deletes answered
    · rw [empties] at planned
      cases planned with
      | emptied flushes => exact .flushed flushes
    · exact .expired past gone
    · exact .evicted more gone

/-- An item that was lost is not held at the end of any run. -/
theorem ne_run (sound : c.store.Sound) (numbers : Numbers history c.store) (recorded : Recorded history i)
    {ops : List (Int64 × Operation)} (short : c.Describable ops) (few : (c.run ops).store.drawn < UInt64.size)
    (fewCommits : (history ++ c.commits ops).length < UInt64.size) (absent : c.store.view i.key ≠ some i) :
    (c.run ops).store.view i.key ≠ some i := by
  induction ops generalizing c history with
  | nil => exact absent
  | cons first later ih =>
    obtain ⟨now, op⟩ := first
    have fewer := Nat.lt_of_le_of_lt (draws_run (c.perform now op).2 later).1 few
    rw [commits, ← List.append_assoc] at fewCommits
    have fewerCommits : (history ++ (c.commit? now op).toList).length < UInt64.size := by
      rw [List.length_append] at fewCommits
      omega
    have step := follows sound op short.1 fewer
    exact ih step.sound (numbers.follows step) (recorded.append _) short.2 few fewCommits
      (step.ne_of_ne numbers recorded fewerCommits absent)

/-- An item that is held outlives a run exactly if nothing in it disturbs it. -/
theorem undisturbed_iff (sound : c.store.Sound) (numbers : Numbers history c.store) {ops : List (Int64 × Operation)}
    (short : c.Describable ops) (few : (c.run ops).store.drawn < UInt64.size)
    (fewCommits : (history ++ c.commits ops).length < UInt64.size)
    (held : c.store.view i.key = some i) : c.Undisturbed i ops ↔ (c.run ops).store.view i.key = some i := by
  induction ops generalizing c history with
  | nil => exact ⟨fun _ => held, fun _ => trivial⟩
  | cons first later ih =>
    obtain ⟨now, op⟩ := first
    have fewer := Nat.lt_of_le_of_lt (draws_run (c.perform now op).2 later).1 few
    rw [commits, ← List.append_assoc] at fewCommits
    have fewerCommits : (history ++ (c.commit? now op).toList).length < UInt64.size := by
      rw [List.length_append] at fewCommits
      omega
    have step := follows sound op short.1 fewer
    have disturbs := disturbs_iff sound numbers short.1 fewer fewerCommits held
    have after := numbers.follows step
    rw [Undisturbed, disturbs, not_not]
    by_cases kept : (c.perform now op).2.store.view i.key = some i
    · rw [ih step.sound after short.2 few fewCommits kept]
      exact and_iff_right kept
    · refine iff_of_false (fun both => kept both.1) ?_
      exact ne_run step.sound after ((numbers.held i.key i held).append _) short.2 few fewCommits kept

end Run

section Swap

/-- A swap that names an item by its CAS value: the item is the live one of its key, or another one is, or none is. -/
def Swaps (c : Cache) (time : Int64) (i entry : Item) : Prop :=
  (c.perform time (.cas entry i.cas)).1 =
    match c.live? time i.key with
    | none => .ok (.store .notFound)
    | some present =>
      if present = i then Store.attempt (c.store.refusal? entry) (.store .stored) else .ok (.store .changed)

/-- A swap by a CAS value that matches nothing. -/
def Mismatches (c : Cache) (time : Int64) (entry : Item) (token : UInt64) : Prop :=
  (c.perform time (.cas entry token)).1 = .ok (.store (if (c.live? time entry.key).isSome then .changed else .notFound))

variable {c : Cache} {time : Int64} {entry : Item} {token : UInt64} (sound : c.store.Sound)
  (short : (Operation.plan time (c.live? time) (.cas entry token)).Describable c.store)
  (few : (c.perform time (.cas entry token)).2.store.drawn < UInt64.size)

include sound short few

theorem mismatches (other : ∀ present, c.live? time entry.key = some present → present.cas ≠ token) :
    c.Mismatches time entry token := by
  rw [Mismatches, (performs sound _ short few).reply, Operation.reply]
  cases alive : c.live? time entry.key with
  | none => rfl
  | some present => exact if_neg (other present alive)

variable {history : List Item} (numbers : Numbers history c.store) (fewCommits : history.length < UInt64.size)

include numbers fewCommits

theorem swaps {i : Item} (recorded : Recorded history i) (named : token = i.cas) (keyed : entry.key = i.key) :
    c.Swaps time i entry := by
  subst named
  rw [Swaps, (performs sound _ short few).reply, Operation.reply, keyed]
  cases alive : c.live? time i.key with
  | none => rfl
  | some present =>
    have same : present.cas = i.cas ↔ present = i :=
      ⟨(numbers.held i.key present (view_of_live alive)).eq_of_cas recorded fewCommits, congrArg Item.cas⟩
    simp only [same]

/-- The CAS values of other keys' items match nothing. -/
theorem mismatches_of_other {i : Item} (recorded : Recorded history i) (named : token = i.cas)
    (other : entry.key ≠ i.key) : c.Mismatches time entry token := by
  refine mismatches sound short few fun present alive same => other ?_
  have shown := view_of_live alive
  rw [← sound.key_of_view shown]
  exact congrArg Item.key ((numbers.held _ present shown).eq_of_cas recorded fewCommits (same.trans named))

/-- No item carries the CAS value 0. -/
theorem mismatches_of_zero (zero : token = 0) : c.Mismatches time entry token := by
  refine mismatches sound short few fun present alive same => ?_
  exact (numbers.held _ present (view_of_live alive)).cas_ne_zero fewCommits (same.trans zero)

end Swap

/-- An operation reads an item, by its answer. -/
def Operation.Reads (op : Operation) (reply : Except StoreError Reply) (i : Item) : Prop :=
  ∃ keys found, op = .get keys ∧ reply = .ok (.items found) ∧ i ∈ found

/-- What was read is live then, and still is after the read. -/
theorem live?_of_reads {c : Cache} (sound : c.store.Sound) {now : Int64} {op : Operation}
    (few : (c.perform now op).2.store.drawn < UInt64.size) {i : Item} (reads : op.Reads (c.perform now op).1 i) :
    c.live? now i.key = some i ∧ (c.perform now op).2.live? now i.key = some i := by
  obtain ⟨keys, found, rfl, answered, among⟩ := reads
  have performs := performs sound (.get keys) (fun _ => nofun) few
  rw [performs.reply] at answered
  obtain rfl := Reply.items.inj (Except.ok.inj answered)
  obtain ⟨key, -, alive⟩ := List.mem_filterMap.1 among
  obtain rfl := sound.key_of_view (view_of_live alive)
  exact ⟨alive, (performs.reads keys rfl i.key).trans alive⟩

/-- What CAS values say in a run that has committed the items of `history` so far. -/
structure Identifies (history : List Item) (c : Cache) (now : Int64) (op : Operation) (later : List (Int64 × Operation))
    (time : Int64) (entry : Item) (token : UInt64) : Prop where
  /-- What a key holds is the item of one of the commits, with the number of that commit as its CAS value. -/
  recorded : ∀ key i, c.store.view key = some i → Recorded history i
  /-- Clients are told of each commit, and under which key it was. -/
  told : (c.commit? now op).map (·.key) = op.written? (c.perform now op).1
  /-- Whatever is no commit draws no value. -/
  issued : (c.perform now op).2.store.issued = history.length + (c.commit? now op).toList.length
  /-- A committed item lies under its key with the next number, unless no item at all may be kept. -/
  numbered : ∀ written, c.commit? now op = some written →
    (c.perform now op).2.store.view written.key = some (written.numbered (history.length + 1)) ∨
      c.store.capacity = 0 ∧ (c.perform now op).2.store.view written.key = none
  /-- The value of an item that was read stores exactly while that item is live … -/
  swaps : ∀ i, op.Reads (c.perform now op).1 i → token = i.cas → entry.key = i.key →
    ((c.perform now op).2.run later).Swaps time i entry
  /-- … which it is until its time is over or something disturbs it. -/
  alive : ∀ i, op.Reads (c.perform now op).1 i →
    (((c.perform now op).2.run later).live? time i.key = some i ↔
      i.isLiveAt time = true ∧ (c.perform now op).2.Undisturbed i later)
  other : ∀ i, op.Reads (c.perform now op).1 i → token = i.cas → entry.key ≠ i.key →
    ((c.perform now op).2.run later).Mismatches time entry token
  zero : token = 0 → ((c.perform now op).2.run later).Mismatches time entry token

/-- In every run on a new cache, a CAS value names one commit for good. Arenas are smaller than 4 GiB, and fewer than
2^64 items are committed and 2^64 stamps drawn. -/
theorem cas_identifies_commits {s : StorageSettings} (small : s.backend = .block → s.partitionBytes < 2 ^ 32)
    (started : Int64) (earlier : List (Int64 × Operation)) (now : Int64) (op : Operation)
    (later : List (Int64 × Operation)) (time : Int64) (entry : Item) (token : UInt64)
    (fewCommits : ((new s started).commits (earlier ++ (now, op) :: later)).length < 2 ^ 64)
    (few : (((((new s started).run earlier).perform now op).2.run later).perform time (.cas entry token)).2.store.drawn <
      2 ^ 64) :
    Identifies ((new s started).commits earlier) ((new s started).run earlier) now op later time entry token := by
  have fewer := Nat.lt_of_le_of_lt (draws_perform _ time (.cas entry token)).1 few
  have before := Nat.lt_of_le_of_lt (draws_run _ later).1 fewer
  have started_few := Nat.lt_of_le_of_lt (draws_perform _ now op).1 before
  have whole : (new s started).run (earlier ++ (now, op) :: (later ++ [(time, .cas entry token)])) =
      (((((new s started).run earlier).perform now op).2.run later).perform time (.cas entry token)).2 := by
    rw [run_append]
    exact run_concat _ later time _
  obtain ⟨described, short, rest⟩ := (describable_append _ earlier _).1
    (describable_of_small (.new s) (Store.small_new small) (whole ▸ few))
  obtain ⟨shortLater, shortSwap, -⟩ := (describable_append _ later _).1 rest
  rw [commits_append, commits, ← List.append_assoc] at fewCommits
  have sound : ((new s started).run earlier).store.Sound := sound_run (.new s) described started_few
  have numbers : Numbers _ ((new s started).run earlier).store :=
    numbers_run (.new s) (numbers_new s started) described started_few
  rw [List.nil_append] at numbers
  generalize (new s started).commits earlier = history at numbers fewCommits ⊢
  generalize (new s started).run earlier = c at few fewer before fewCommits sound numbers short shortLater shortSwap ⊢
  have step := follows sound op short before
  have final := sound_run step.sound shortLater fewer
  have numbersStep := numbers.follows step
  have numbersFinal := numbers_run step.sound numbersStep shortLater fewer
  have past {i : Item} (reads : op.Reads (c.perform now op).1 i) :
      Recorded ((history ++ (c.commit? now op).toList) ++ (c.perform now op).2.commits later) i :=
    ((numbers.held _ i (view_of_live (live?_of_reads sound before reads).1)).append _).append _
  constructor
  · exact numbers.held
  · have planned : op.Planned (op.plan now (c.live? now)) := planned sound op
    have told := planned.key_of_commit? c.store.refusal?
    rw [← step.reply] at told
    exact told
  · exact step.issued.trans (congrArg (· + _) numbers.issued)
  · intro written commits
    have there := step.committed commits
    rw [Store.committed, numbers.issued] at there
    exact there
  · exact fun i reads named keyed => swaps final shortSwap few numbersFinal fewCommits (past reads) named keyed
  · intro i reads
    have held := view_of_live (live?_of_reads sound before reads).2
    rw [undisturbed_iff step.sound numbersStep shortLater fewer fewCommits held, live?, Option.filter_eq_some_iff, and_comm]
  · exact fun i reads named other => mismatches_of_other final shortSwap few numbersFinal fewCommits (past reads) named other
  · exact mismatches_of_zero final shortSwap few numbersFinal fewCommits

theorem cas_identifies_commits_rewritten :
    Identifies ((new {} 0).commits [(10, .set { key := ⟨[97]⟩, data := [1] })])
      ((new {} 0).run [(10, .set { key := ⟨[97]⟩, data := [1] })]) 11 (.get [⟨[97]⟩])
      [(12, .set { key := ⟨[98]⟩, data := [2] }), (13, .set { key := ⟨[97]⟩, data := [1] })] 14
      { key := ⟨[97]⟩, data := [3] } 1 := by
  apply cas_identifies_commits (by decide) 0
  · exact Nat.lt_of_le_of_lt (length_commits_le _ _) (by decide)
  · apply Nat.lt_of_le_of_lt
      ((((draws_run _ _).trans (draws_perform _ _ _)).trans (draws_run _ _)).trans (draws_perform _ _ _)).2
    decide

end BlockCache.Cache
