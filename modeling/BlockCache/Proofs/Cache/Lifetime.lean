import BlockCache.Proofs.Cache.Edits
import BlockCache.Proofs.Item.Lifetime

/-!
# Edits keep the lifetime

An item that was set is readable until its time is over, whatever is appended or prepended to it or added to its number
in the meantime. Each of these edits changes the data and draws a greater CAS value; flags, expiry and time of storing
stay. Once the time is over, edits find nothing and bring nothing back. All of this holds as long as the item is not
evicted.
-/

namespace BlockCache.Cache

/-- A run has written nothing of 4 GiB or more into an arena, and has drawn fewer than 2^64 stamps. -/
def Bounded (start : Cache) (ops : List (Int64 × Operation)) : Prop :=
  start.Describable ops ∧ (start.run ops).store.drawn < 2 ^ 64

/-- The live item of a key was evicted on the way to `d`. -/
structure Evicted (c : Cache) (now : Int64) (key : Key) (d : Cache) : Prop where
  live : c.live? now key ≠ none
  counted : c.store.evictions < d.store.evictions
  gone : d.store.view key = none

/-- What takes the live item of a key away, other than writing, deleting and flushing. `bounded` says that the run has
stayed within the bounds, this operation included. -/
inductive Loses (bounded : Prop) (c : Cache) (now : Int64) (op : Operation) (key : Key) : Prop where
  | evicted : c.Evicted now key (c.perform now op).2 → Loses bounded c now op key
  /-- Out of bounds, an edit that fails may have removed the item that it was to replace. -/
  | failed {e : StoreError} : ¬bounded → op.Edits key → (c.perform now op).1 = .error e →
      (c.perform now op).2.store.view key ≠ c.store.view key → Loses bounded c now op key

/-- No operation takes the live item of a key away, after those of `ops`. -/
def Keeps (start : Cache) (ops : List (Int64 × Operation)) (key : Key) : List (Int64 × Operation) → Prop
  | [] => True
  | (now, op) :: later =>
    ¬(start.run ops).Loses (start.Bounded (ops ++ [(now, op)])) now op key ∧ Keeps start (ops ++ [(now, op)]) key later

/-- The data of a key's item after a run, by the answers to the edits. -/
def edited (c : Cache) (key : Key) (data : Bytes) : List (Int64 × Operation) → Bytes
  | [] => data
  | (now, op) :: later => edited (c.perform now op).2 key (op.edited key data (c.perform now op).1) later

section Data

variable {op : Operation} {key : Key} {data : Bytes}

theorem Operation.edited_error (op : Operation) (e : StoreError) : op.edited key data (.error e) = data := by
  cases op <;> rfl

theorem Operation.edited_nothing (op : Operation) : op.edited key data (.ok op.nothing) = data := by
  cases op <;> rfl

/-- What is no edit of the key leaves its data as they are. -/
theorem Operation.edited_of_not_edits (other : ¬op.Edits key) (reply : Except StoreError Reply) :
    op.edited key data reply = data := by
  unfold edited
  split
  · exact if_neg fun same => other (.append same)
  · exact if_neg fun same => other (.prepend same)
  · rename_i asked delta sum
    refine if_neg fun same => other ?_
    exact same ▸ .addNumber delta
  · rfl

end Data

section Reading

variable {c : Cache} (coherent : c.Coherent fun _ => True)

include coherent

/-- A read of one key answers its live item. -/
theorem get_of_coherent (now : Int64) (key : Key) : (c.get now [key]).1 = .ok (c.live? now key).toList := by
  obtain ⟨d, looked, -⟩ := (Follow.refl coherent now key).live key
  rw [get, getFrom, looked]
  cases c.live? now key <;> rfl

theorem get_of_carries {entry i : Item} {data : Bytes} {now : Int64} (shown : c.store.view entry.key = some i)
    (carries : entry.Carries data i) (alive : InLifetime entry.expire entry.storedAt now) :
    (c.get now [entry.key]).1 = .ok [i] := by
  rw [get_of_coherent coherent, live?_of_some shown, if_pos (carries.isLiveAt_iff.2 alive)]
  rfl

end Reading

section Bounded

variable {start : Cache} {ops : List (Int64 × Operation)} {now : Int64} {op : Operation}

theorem bounded_of_small (sound : start.store.Sound) (small : start.store.Small)
    (few : (start.run ops).store.drawn < 2 ^ 64) : start.Bounded ops :=
  ⟨describable_of_small sound small few, few⟩

/-- What fails within the bounds leaves live items where they are. -/
theorem view_of_failed (sound : start.store.Sound) (bounded : start.Bounded (ops ++ [(now, op)])) {e : StoreError}
    (failed : ((start.run ops).perform now op).1 = .error e) {key : Key} {item : Item}
    (live : (start.run ops).live? now key = some item) :
    ((start.run ops).perform now op).2.store.view key = some item := by
  obtain ⟨described, few⟩ := bounded
  obtain ⟨described, short, -⟩ := (describable_append start ops _).1 described
  rw [run_concat] at few
  have fewer := Nat.lt_of_le_of_lt ((start.run ops).draws_perform now op).1 few
  have follows := follows (sound_run sound described fewer) op short few
  rw [failed] at follows
  have held := view_of_live live
  have purged {t : Store} (purges : (start.run ops).store.Purges now t) : t.view key = some item := by
    rcases purges.view key with same | ⟨-, gone, shown, past⟩
    · exact same.trans held
    · obtain rfl := Option.some.inj (held.symm.trans shown)
      rw [live?_of_some held, Item.isLiveAt, past] at live
      cases live
  generalize op.plan now ((start.run ops).live? now) = plan at follows
  cases follows with
  | told purges | refused _ purges => exact purged purges

end Bounded

/-- A key holds the item that was set under it, with other data, or the time of that item is over. -/
structure Holds (entry : Item) (data : Bytes) (c : Cache) (now : Int64) : Prop where
  coherent : c.Coherent fun _ => True
  view : (∃ i n, c.store.view entry.key = some i ∧ entry.Carries data i ∧ i.cas = n.toUInt64 ∧ n ≤ c.store.issued) ∨
    c.store.view entry.key = none ∧ ¬InLifetime entry.expire entry.storedAt now

namespace Holds

variable {entry : Item} {data : Bytes} {c : Cache} {now : Int64}

theorem later (holds : Holds entry data c now) {time : Int64} (le : now ≤ time) : Holds entry data c time :=
  ⟨holds.coherent, holds.view.imp_right fun ⟨gone, past⟩ => ⟨gone, fun alive => past (alive.of_le le)⟩⟩

theorem live (holds : Holds entry data c now) (alive : InLifetime entry.expire entry.storedAt now) :
    ∃ i n, c.live? now entry.key = some i ∧ entry.Carries data i ∧ i.cas = n.toUInt64 ∧ n ≤ c.store.issued := by
  rcases holds.view with ⟨i, n, shown, carries, drawn⟩ | ⟨-, past⟩
  · exact ⟨i, n, (live?_of_some shown now).trans (if_pos (carries.isLiveAt_iff.2 alive)), carries, drawn⟩
  · exact absurd alive past

theorem dead (holds : Holds entry data c now) (past : ¬InLifetime entry.expire entry.storedAt now) :
    c.live? now entry.key = none := by
  rcases holds.view with ⟨i, n, shown, carries, -⟩ | ⟨gone, -⟩
  · exact (live?_of_some shown now).trans (if_neg (mt carries.isLiveAt_iff.1 past))
  · exact live?_of_none gone now

/-- What leaves the key alone. -/
theorem follow (holds : Holds entry data c now) {d : Cache} (follow : Follow c.store now entry.key d)
    (kept : ¬c.Evicted now entry.key d) : Holds entry data d now := by
  refine ⟨follow.coherent, ?_⟩
  rcases follow.spares.view with same | ⟨gone, why⟩
  · rw [same]
    refine holds.view.imp_left fun ⟨i, n, shown, carries, number, drawn⟩ => ?_
    exact ⟨i, n, shown, carries, number, Nat.le_trans drawn follow.spares.issued⟩
  · refine .inr ⟨gone, fun alive => ?_⟩
    -- A live item is gone only by eviction, for it is not past its time.
    obtain ⟨i, n, live, carries, -⟩ := holds.live alive
    rcases why with more | ⟨item, shown, past⟩
    · exact kept ⟨by simp [live], more, gone⟩
    · obtain rfl := Option.some.inj (shown.symm.trans (view_of_live live))
      exact carries.isPurgeableAt_iff.1 past alive

/-- What is live under the key. -/
theorem of_live (holds : Holds entry data c now) {i : Item} (live : c.live? now entry.key = some i) :
    entry.Carries data i ∧ ∃ n, i.cas = n.toUInt64 ∧ n ≤ c.store.issued := by
  have shown := view_of_live live
  rcases holds.view with ⟨j, n, there, carries, drawn⟩ | ⟨gone, -⟩
  · obtain rfl := Option.some.inj (there.symm.trans shown)
    exact ⟨carries, n, drawn⟩
  · rw [gone] at shown
    cases shown

/-- An edit of the key. -/
theorem edit (holds : Holds entry data c now) {op : Operation} {r : Step Reply}
    (edited : Edited c now entry.key op r) (unevicted : ¬c.Evicted now entry.key r.2)
    (unfailed : ∀ e, r.1 = .error e → e ≠ .notANumber → ∀ i, c.live? now entry.key = some i →
      r.2.store.view entry.key = some i) :
    Holds entry (op.edited entry.key data r.1) r.2 now := by
  cases edited with
  | absent dead follow =>
    rw [Operation.edited_nothing]
    exact holds.follow follow unevicted
  | @failed item e d live coherent issued unnumbered =>
    obtain ⟨carries, n, number, drawn⟩ := holds.of_live live
    have kept : d.store.view entry.key = some item := by
      by_cases same : e = .notANumber
      · exact unnumbered same
      · exact unfailed e rfl same item live
    rw [Operation.edited_error]
    exact ⟨coherent, .inl ⟨item, n, kept, carries, number, Nat.le_trans drawn issued⟩⟩
  | made live coherent stores fresh drawn shown =>
    obtain ⟨carries, -⟩ := holds.of_live live
    rw [carries.data] at shown
    exact ⟨coherent, .inl ⟨_, _, shown, carries.withData _ _, rfl, drawn⟩⟩

/-- One operation, after which a failed edit has left the item. -/
theorem perform (holds : Holds entry data c now) {op : Operation} (leaves : op.Leaves entry.key)
    (unevicted : ¬c.Evicted now entry.key (c.perform now op).2)
    (unfailed : op.Edits entry.key → ∀ e, (c.perform now op).1 = .error e → ∀ i, c.live? now entry.key = some i →
      (c.perform now op).2.store.view entry.key = some i) :
    Holds entry (op.edited entry.key data (c.perform now op).1) (c.perform now op).2 now := by
  by_cases edits : op.Edits entry.key
  · exact holds.edit (edited_perform holds.coherent edits) unevicted fun e failed _ => unfailed edits e failed
  · rw [Operation.edited_of_not_edits edits]
    exact holds.follow ((Follow.refl holds.coherent now entry.key).perform leaves edits) unevicted

section Run

variable {start : Cache} {ops : List (Int64 × Operation)} (sound : start.store.Sound)

include sound

/-- The next operation of a run. -/
theorem step (holds : Holds entry data (start.run ops) now) {op : Operation} (leaves : op.Leaves entry.key)
    (kept : ¬(start.run ops).Loses (start.Bounded (ops ++ [(now, op)])) now op entry.key) :
    Holds entry (op.edited entry.key data ((start.run ops).perform now op).1) (start.run (ops ++ [(now, op)])) now := by
  rw [run_concat]
  refine holds.perform leaves (fun evicted => kept (.evicted evicted)) fun edits e failed i live => ?_
  by_cases bounded : start.Bounded (ops ++ [(now, op)])
  · exact view_of_failed sound bounded failed live
  · -- Out of bounds nothing says what a failed edit leaves behind, so that the run must not have lost the item.
    by_contra changed
    refine kept (.failed bounded edits failed fun same => changed ?_)
    exact same.trans (view_of_live live)

/-- A whole run. -/
theorem run {later : List (Int64 × Operation)} {time : Int64} (holds : Holds entry data (start.run ops) time)
    (leaves : ∀ o ∈ later, o.2.Leaves entry.key) (kept : start.Keeps ops entry.key later)
    (ordered : (time :: later.map Prod.fst ++ [now]).Pairwise (· ≤ ·)) :
    Holds entry ((start.run ops).edited entry.key data later) (start.run (ops ++ later)) now := by
  induction later generalizing ops data time with
  | nil =>
    rw [List.append_nil]
    exact holds.later (by simpa using ordered)
  | cons first later ih =>
    obtain ⟨next, op⟩ := first
    rw [List.forall_mem_cons] at leaves
    rw [List.map_cons, List.cons_append, List.pairwise_cons] at ordered
    have le : time ≤ next := ordered.1 next (by simp)
    have rest := ih (step sound (holds.later le) leaves.1 kept.1) leaves.2 kept.2 ordered.2
    rw [List.append_assoc, run_concat] at rest
    exact rest

end Run

/-- A read of the key. -/
theorem get (holds : Holds entry data c now) :
    (InLifetime entry.expire entry.storedAt now → ∃ i, (c.get now [entry.key]).1 = .ok [i] ∧ entry.Carries data i) ∧
      (¬InLifetime entry.expire entry.storedAt now → (c.get now [entry.key]).1 = .ok []) := by
  rw [get_of_coherent holds.coherent]
  constructor
  · intro alive
    obtain ⟨i, n, live, carries, -⟩ := holds.live alive
    exact ⟨i, by rw [live]; rfl, carries⟩
  · intro past
    rw [holds.dead past]
    rfl

end Holds

/-- The item that was just set. -/
theorem holds_of_set {c d : Cache} (coherent : c.Coherent fun _ => True) {time : Int64} {entry : Item}
    (unheld : entry.held = false) (set : c.perform time (.set entry) = (.ok (.store .stored), d))
    (there : d.store.view entry.key ≠ none) : Holds entry entry.data d time := by
  have kept := (coherent.perform time (Operation.set entry).allowed_any).kept
  rw [set] at kept
  refine ⟨kept, .inl ?_⟩
  rw [Cache.perform, Cache.set, countSet_store] at set
  rcases stored : c.store.put entry with ⟨e | old, t⟩ <;> rw [stored] at set
  · cases (Prod.mk.inj set).1
  · obtain rfl := (Prod.mk.inj set).2
    obtain ⟨here, drawn⟩ := Store.Coherent.view_of_put coherent trivial (congrArg Prod.fst stored)
    rw [stored] at here drawn
    have shown := here.resolve_right there
    exact ⟨_, _, shown, ⟨rfl, rfl, rfl, rfl, rfl, unheld⟩, rfl, drawn⟩

/-- Numbers below 2^64 keep their order as words. -/
theorem toUInt64_lt {m n : Nat} (less : m < n) (fits : n < UInt64.size) : m.toUInt64 < n.toUInt64 := by
  rw [UInt64.lt_iff_toNat_lt]
  change (UInt64.ofNat m).toNat < (UInt64.ofNat n).toNat
  rw [UInt64.toNat_ofNat_of_lt' (Nat.lt_trans less fits), UInt64.toNat_ofNat_of_lt' fits]
  exact less

/-- How an edit comes out while the item of its key is readable. `bounded` says that the run has stayed within the
bounds, the edit included. -/
inductive Changes (bounded : Prop) (entry : Item) (data : Bytes) (c : Cache) (now : Int64) (op : Operation)
    (r : Step Reply) : Prop where
  /-- The data are edited, and of all else only the CAS value changes. It grows until all words are used up. -/
  | made {i j : Item} : op.stored? r.1 = some entry.key → (c.get now [entry.key]).1 = .ok [i] →
      (r.2.get now [entry.key]).1 = .ok [j] → entry.Carries (op.edited entry.key data r.1) j →
      (r.2.store.issued < 2 ^ 64 → i.cas < j.cas) → Changes bounded entry data c now op r
  /-- An edit that finds no number changes nothing, and within the bounds no edit that fails does. -/
  | failed {e : StoreError} : r.1 = .error e →
      (e = .notANumber ∨ bounded → (r.2.get now [entry.key]).1 = (c.get now [entry.key]).1) →
      Changes bounded entry data c now op r

/-- What clients see, at a time after a run, of an item that was set and of the edits made to it. -/
structure Lasts (start : Cache) (ops : List (Int64 × Operation)) (entry : Item) (data : Bytes) (now : Int64) : Prop where
  /-- Until its time is over the item is read as it was set, with the data that the edits have left. -/
  lives : InLifetime entry.expire entry.storedAt now →
    ∃ i, ((start.run ops).get now [entry.key]).1 = .ok [i] ∧ entry.Carries data i
  changes : InLifetime entry.expire entry.storedAt now → ∀ op : Operation, op.Edits entry.key →
    Changes (start.Bounded (ops ++ [(now, op)])) entry data (start.run ops) now op ((start.run ops).perform now op)
  /-- From then on nothing is read … -/
  ends : ¬InLifetime entry.expire entry.storedAt now → ((start.run ops).get now [entry.key]).1 = .ok []
  /-- … and an edit finds nothing and brings nothing back. -/
  afterwards : ¬InLifetime entry.expire entry.storedAt now → ∀ op : Operation, op.Edits entry.key →
    ((start.run ops).perform now op).1 = .ok op.nothing ∧
      ∀ time, now ≤ time → (((start.run ops).perform now op).2.get time [entry.key]).1 = .ok []

namespace Holds

variable {entry : Item} {data : Bytes} {c : Cache} {now : Int64}

theorem changes {start : Cache} {ops : List (Int64 × Operation)} (sound : start.store.Sound)
    (holds : Holds entry data (start.run ops) now) (alive : InLifetime entry.expire entry.storedAt now) {op : Operation}
    (edits : op.Edits entry.key) :
    Changes (start.Bounded (ops ++ [(now, op)])) entry data (start.run ops) now op ((start.run ops).perform now op) := by
  obtain ⟨i, n, live, carries, number, drawn⟩ := holds.live alive
  have before := get_of_carries holds.coherent (view_of_live live) carries alive
  have unchanged {e : StoreError} (bounded : start.Bounded (ops ++ [(now, op)]))
      (failed : ((start.run ops).perform now op).1 = .error e) := view_of_failed sound bounded failed live
  have result : Edited (start.run ops) now entry.key op ((start.run ops).perform now op) :=
    edited_perform holds.coherent edits
  generalize (start.run ops).perform now op = r at result unchanged ⊢
  cases result with
  | absent dead =>
    rw [live] at dead
    cases dead
  | @failed item e d there coherent _ unnumbered =>
    obtain rfl := Option.some.inj (live.symm.trans there)
    refine .failed rfl fun why => ?_
    have shown : d.store.view entry.key = some i := why.elim unnumbered fun bounded => unchanged bounded rfl
    exact (get_of_carries coherent shown carries alive).trans before.symm
  | @made item m reply d there coherent stores fresh most shown =>
    obtain rfl := Option.some.inj (live.symm.trans there)
    rw [carries.data] at shown
    have edited := carries.withData (op.edited entry.key data (.ok reply)) m.toUInt64
    refine .made stores before (get_of_carries coherent shown edited alive) edited fun few => ?_
    rw [number]
    exact toUInt64_lt (Nat.lt_of_le_of_lt drawn fresh) (Nat.lt_of_le_of_lt most few)

theorem afterwards (holds : Holds entry data c now) (past : ¬InLifetime entry.expire entry.storedAt now)
    {op : Operation} (edits : op.Edits entry.key) :
    (c.perform now op).1 = .ok op.nothing ∧
      ∀ time, now ≤ time → ((c.perform now op).2.get time [entry.key]).1 = .ok [] := by
  have dead := holds.dead past
  have nothing := (edited_perform holds.coherent edits).nothing_of_dead dead
  refine ⟨nothing, fun time le => ?_⟩
  have after := holds.perform edits.leaves (fun evicted => evicted.live dead) fun _ e failed => by
    rw [nothing] at failed
    cases failed
  exact (after.later le).get.2 fun alive => past (alive.of_le le)

end Holds

/-- In every run on a new cache, an item that was set keeps its lifetime through all edits, as long as nothing else is
done to its key and it is not evicted, neither at once nor later. An edit that fails counts as none. Only where an item
of 4 GiB or more has been written into an arena, or 2^64 stamps have been drawn, may a failed edit lose the item that it
was to replace; then nothing is said of what follows. -/
theorem edits_keep_lifetime (settings : StorageSettings) (started : Int64) (earlier : List (Int64 × Operation))
    {time : Int64} {entry : Item} (unheld : entry.held = false) {c : Cache}
    (set : ((new settings started).run earlier).perform time (.set entry) = (.ok (.store .stored), c))
    (there : c.store.view entry.key ≠ none) {later : List (Int64 × Operation)}
    (leaves : ∀ o ∈ later, o.2.Leaves entry.key)
    (kept : (new settings started).Keeps (earlier ++ [(time, .set entry)]) entry.key later) {now : Int64}
    (ordered : (time :: later.map Prod.fst ++ [now]).Pairwise (· ≤ ·)) :
    Lasts (new settings started) (earlier ++ (time, .set entry) :: later) entry (c.edited entry.key entry.data later)
      now := by
  have sound : (new settings started).store.Sound := .new settings
  have reached : (new settings started).run (earlier ++ [(time, .set entry)]) = c := by rw [run_concat, set]
  have start : Holds entry entry.data ((new settings started).run (earlier ++ [(time, .set entry)])) time := by
    rw [reached]
    exact holds_of_set (coherent_run settings started earlier) unheld set there
  have holds := start.run sound leaves kept ordered
  rw [reached, List.append_assoc, List.singleton_append] at holds
  exact ⟨holds.get.1, fun alive _ => holds.changes sound alive, holds.get.2, fun past _ => holds.afterwards past⟩

/-- A number that lives for a minute, in its last second. -/
theorem edits_keep_lifetime_minute :
    let settings : StorageSettings :=
      { partitions := 1, bucketsPerPartition := 1, blockSize := 1, maxBytes := 200, ceilingBytes := 0 }
    let start := new settings 0
    let key : Key := ⟨[107]⟩
    let entry : Item := { key, flags := 7, expire := 60, storedAt := 10, data := Bytes.ofString "1" }
    let edits := [(20, .append { key, data := Bytes.ofString "2" }), (60, .addNumber key 5)]
    InLifetime 60 10 69 ∧ Lasts start ((10, .set entry) :: edits) entry (Bytes.ofString "17") 69 := by
  intro settings start key entry edits
  have sound : start.store.Sound := Store.Sound.new settings
  have small : start.store.Small := Store.small_new (fun _ => by decide : settings.backend = .block → _)
  let c := (start.perform 10 (.set entry)).2
  have stored : (start.perform 10 (.set entry)).1 = .ok (.store .stored) := by
    have few : c.store.drawn < UInt64.size := by decide +kernel
    have fits : start.store.refusal? entry = none := by decide +kernel
    rw [(performs sound (.set entry) (fun item _ => small item) few).reply, Operation.reply, fits]
    rfl
  have there : c.store.view key ≠ none := by decide +kernel
  have leaves : ∀ o ∈ edits, o.2.Leaves key := by simp [edits, Operation.Leaves]
  have kept : start.Keeps [(10, .set entry)] key edits := by
    refine ⟨?_, ?_, trivial⟩
    all_goals
      rintro (evicted | ⟨unbounded, -⟩)
      · exact absurd evicted.counted (by decide +kernel)
      · exact unbounded (bounded_of_small sound small (by decide +kernel))
  have ordered : (10 :: edits.map Prod.fst ++ [69]).Pairwise (· ≤ ·) := by decide
  have data : c.edited key (Bytes.ofString "1") edits = Bytes.ofString "17" := by decide +kernel
  refine ⟨inLifetime_iff.2 (by decide +kernel), ?_⟩
  rw [← data]
  have set : (start.run []).perform 10 (.set entry) = (.ok (.store .stored), c) := Prod.ext stored rfl
  have unheld : entry.held = false := rfl
  exact edits_keep_lifetime settings 0 [] unheld set there leaves kept ordered

end BlockCache.Cache
