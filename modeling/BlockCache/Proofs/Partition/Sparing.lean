import BlockCache.Proofs.Partition.Coherence
import BlockCache.Proofs.Partition.Lengths

/-!
# What operations leave alone

An operation on one key may evict the entries of others, and each eviction is counted. It does nothing else to them:
what another key held it holds still, or it was evicted. This is so in every coherent partition, whether or not the
operation comes to its end.
-/

open scoped List

namespace BlockCache

theorem Chains.find?_push {c : Chains} (sound : c.Sound) {link : Link} (absent : c.find? link.key = none) {key : Key}
    (other : key ≠ link.key) : (c.push link).find? key = c.find? key := by
  have after := sound.push absent
  have perm : (c.push link).links ~ link :: c.links := c.links_push_perm link
  cases found : c.find? key with
  | none =>
    rw [after.find?_eq_none_iff]
    intro held mem
    rcases List.mem_cons.1 (perm.subset mem) with rfl | old
    · exact other.symm
    · exact sound.find?_eq_none_iff.1 found held old
  | some held =>
    obtain ⟨mem, rfl⟩ := sound.find?_eq_some_iff.1 found
    exact after.find?_eq_some_iff.2 ⟨perm.symm.subset (List.mem_cons_of_mem link mem), rfl⟩

namespace Partition

/-- What `p` holds under a key `q` holds, too, or the key was evicted. -/
structure Spares (p : Partition) (key : Key) (q : Partition) : Prop where
  view : q.view key = p.view key ∨ q.view key = none ∧ p.evictions < q.evictions
  evictions : p.evictions ≤ q.evictions

section Spares

variable {p q r : Partition} {key : Key}

theorem view_congr (same : q.lookup key = p.lookup key) : q.view key = p.view key := by
  rw [view, view, same]

theorem Spares.of_lookup (same : q.lookup key = p.lookup key) (evictions : q.evictions = p.evictions) :
    p.Spares key q :=
  ⟨.inl (view_congr same), Nat.le_of_eq evictions.symm⟩

theorem Spares.refl (p : Partition) (key : Key) : p.Spares key p := .of_lookup rfl rfl

/-- What is kept or evicted by each of two steps is so by both together. -/
theorem kept_or_evicted_trans {first second third : Option Item} {l m n : Nat} (le : l ≤ m) (le' : m ≤ n)
    (left : second = first ∨ second = none ∧ l < m) (right : third = second ∨ third = none ∧ m < n) :
    third = first ∨ third = none ∧ l < n := by
  rcases right with same | ⟨gone, more⟩
  · rcases left with before | ⟨gone, more⟩
    · exact .inl (same.trans before)
    · exact .inr ⟨same.trans gone, by omega⟩
  · exact .inr ⟨gone, by omega⟩

theorem Spares.trans (left : p.Spares key q) (right : q.Spares key r) : p.Spares key r where
  view := kept_or_evicted_trans left.evictions right.evictions left.view right.view
  evictions := Nat.le_trans left.evictions right.evictions

end Spares

theorem evictions_unlink (p : Partition) (key : Key) : (p.unlink key).2.evictions = p.evictions := by
  rw [unlink]
  split
  · rfl
  · dsimp only
    split <;> rfl

theorem evictions_get (p : Partition) (clocks : Clocks) (key : Key) (touch : Bool) :
    (p.get clocks key touch).2.1.evictions = p.evictions := by
  rw [Partition.get]
  split
  · split <;> rfl
  · rfl

theorem lookup_of_absent {p : Partition} {key : Key} (absent : p.chains.find? key = none) : p.lookup key = .ok none := by
  rw [lookup, absent]

namespace Coherent

variable {allowed : Key → Prop} {p : Partition}

theorem spares_unlink (coherent : p.Coherent allowed) {key other : Key} (ne : other ≠ key) :
    p.Spares other (p.unlink key).2 := by
  have counted := p.evictions_unlink key
  obtain ⟨q, unlinked, -, -, -, others⟩ := coherent.unlink key
  rw [unlinked] at counted ⊢
  exact .of_lookup (others other ne) counted

/-- An eviction is counted, and takes the entry of one key. -/
theorem spares_evictOne (coherent : p.Coherent allowed) (spared : Option Key) (key : Key) :
    p.Spares key (p.evictOne spared).2 := by
  cases chosen : p.victim? spared with
  | none =>
    rw [Partition.evictOne, chosen]
    exact .refl p key
  | some entry =>
    obtain ⟨stamp, victim⟩ := entry
    have counted := p.evictions_unlink victim
    obtain ⟨q, unlinked, -, gone, -, others⟩ := coherent.unlink victim
    rw [Partition.evictOne, chosen]
    dsimp only
    rw [unlinked] at counted ⊢
    cases found : p.chains.find? victim with
    | none =>
      refine .of_lookup ?_ counted
      by_cases here : key = victim
      · rw [here, lookup_of_absent found]
        exact lookup_of_absent gone
      · exact others key here
    | some link =>
      by_cases here : key = victim
      · have lost : q.view key = none := by
          rw [view, lookup_of_absent (here ▸ gone)]
        exact ⟨.inr ⟨lost, Nat.lt_succ_of_le (Nat.le_of_eq counted.symm)⟩,
          Nat.le_succ_of_le (Nat.le_of_eq counted.symm)⟩
      · exact ⟨.inl (view_congr (others key here)), Nat.le_succ_of_le (Nat.le_of_eq counted.symm)⟩

/-- A run reserved for no link yet moves no bytes. -/
theorem get_withRun (coherent : p.Coherent allowed) {size : Nat} {r : Region} {a : Arena}
    (reserved : p.arena.alloc size = .ok (r, a)) {link : Link} (mem : link ∈ p.chains.links) :
    a.get link.region = p.arena.get link.region := by
  obtain ⟨-, reserves⟩ := coherent.arena.alloc reserved
  have after := (coherent.withRun reserved).1
  exact coherent.arena.get_congr after.arena (coherent.owns link mem) (after.owns link mem).live reserves.blockSize
    fun _ _ => by rw [reserves.tape]

theorem spares_allocEvicting {p : Partition} (coherent : p.Coherent allowed) (size : Nat) (key : Key) :
    p.Spares key (p.allocEvicting size).2 := by
  rcases reserved : p.arena.alloc size with e | ⟨r, a⟩
  · rw [Partition.allocEvicting, reserved]
    cases e with
    | outOfSpace requested available =>
      have evicted := coherent.evictOne none
      have spares := coherent.spares_evictOne none key
      dsimp only
      split
      · rename_i same
        rwa [same] at spares
      · rename_i same
        rwa [same] at spares
      · rename_i same
        rw [same] at evicted spares
        exact spares.trans (evicted.1.coherent.spares_allocEvicting size key)
    | _ => exact .refl p key
  · rw [Partition.allocEvicting, reserved]
    refine .of_lookup (lookup_congr rfl fun link found => ?_) rfl
    exact coherent.get_withRun reserved (coherent.chains.find?_eq_some_iff.1 found).1
termination_by p.chains.links.length
decreasing_by exact links_evictOne_lt (by assumption)

theorem spares_enforceCeiling {p : Partition} (coherent : p.Coherent allowed) (written key : Key) :
    p.Spares key (p.enforceCeiling written).2 := by
  rw [Partition.enforceCeiling]
  split
  · have evicted := coherent.evictOne (some written)
    have spares := coherent.spares_evictOne (some written) key
    split
    · rename_i same
      rwa [same] at spares
    · rename_i same
      rwa [same] at spares
    · rename_i same
      rw [same] at evicted spares
      exact spares.trans (evicted.1.coherent.spares_enforceCeiling written key)
  · exact .refl p key
termination_by p.chains.links.length
decreasing_by exact links_evictOne_lt (by assumption)

section Writing

variable {key other : Key} (ne : other ≠ key)

include ne

/-- The bytes of one key are written beside those of all others. -/
theorem spares_withLink (coherent : p.Coherent allowed) (absent : p.chains.find? key = none) {encoded : Bytes}
    (stamp : UInt64) {r : Region} {a : Arena} (reserved : p.arena.alloc encoded.length = .ok (r, a))
    (length : encoded.length = r.length.toNat) :
    Spares { p with arena := a } other (withLink p key encoded stamp r a) := by
  obtain ⟨after, apart⟩ := coherent.withRun reserved
  refine .of_lookup (lookup_congr ?_ fun link found => ?_) rfl
  · have same : (p.chains.push ⟨key, r, stamp⟩).find? other = p.chains.find? other :=
      Chains.find?_push coherent.chains absent ne
    exact congrArg (Option.map _) same
  · have mem := (coherent.chains.find?_eq_some_iff.1 found).1
    exact after.arena.get_write_other (coherent.owns_of_alloc reserved) (after.owns link mem) (apart link mem) length

theorem spares_insert (coherent : p.Coherent allowed) (absent : p.chains.find? key = none) (encoded : Bytes)
    (stamp : UInt64) : p.Spares other (p.insert key encoded stamp).2 := by
  have spares := coherent.spares_allocEvicting encoded.length other
  obtain ⟨steps, found⟩ := coherent.allocEvicting encoded.length
  rw [Partition.insert]
  rcases room : p.allocEvicting encoded.length with ⟨e | r, q⟩
  · rwa [room] at spares
  · rw [room] at spares steps
    obtain ⟨before, a, sheds, reserved, result⟩ := found r (by rw [room])
    obtain rfl := (Prod.mk.inj (room.symm.trans result)).2
    have still : before.chains.find? key = none := by
      rw [sheds.coherent.chains.find?_eq_none_iff]
      exact fun link mem => coherent.chains.find?_eq_none_iff.1 absent link (sheds.links link mem)
    have owns := sheds.coherent.owns_of_alloc reserved
    dsimp only
    by_cases length : encoded.length = r.length.toNat
    · rw [Arena.Sound.write_eq steps.kept.arena owns length]
      exact spares.trans (sheds.coherent.spares_withLink ne still stamp reserved length)
    · obtain ⟨detail, refused⟩ := Arena.Sound.write_of_ne steps.kept.arena owns length
      rw [refused]
      exact spares

theorem spares_storeNew (coherent : p.Coherent allowed) (may : allowed key) (absent : p.chains.find? key = none)
    {encoded : Bytes} (long : Item.headerLength ≤ encoded.length) (stamp : UInt64) :
    p.Spares other (p.storeNew key encoded stamp).2 := by
  have spares := coherent.spares_insert ne absent encoded stamp
  obtain ⟨steps, -⟩ := coherent.insert may absent long stamp
  rw [Partition.storeNew]
  rcases inserted : p.insert key encoded stamp with ⟨e | _, q⟩
  · rwa [inserted] at spares
  · rw [inserted] at spares steps
    exact spares.trans (steps.kept.spares_enforceCeiling key other)

theorem spares_remove (coherent : p.Coherent allowed) : p.Spares other (p.remove key).2 := by
  have spares := coherent.spares_unlink ne
  obtain ⟨q, unlinked, -⟩ := coherent.unlink key
  rw [Partition.remove, coherent.lookup_eq]
  cases p.view key with
  | none => exact .refl p other
  | some old =>
    rw [unlinked] at spares
    dsimp only
    rw [unlinked]
    exact spares

end Writing

section Operations

variable (coherent : p.Coherent allowed) (clocks : Clocks) {item : Item} (may : allowed item.key) {other : Key}
  (ne : other ≠ item.key)

include coherent may ne

theorem spares_put : p.Spares other (p.put clocks item).2.1 := by
  rcases Nat.lt_or_ge p.size item.encodedLength with large | fits
  · rw [put_of_large large]
    exact .refl p other
  · have removes := coherent.spares_remove ne
    obtain ⟨q, removed, after, absent⟩ := coherent.remove item.key
    have long : Item.headerLength ≤ (clocks.commit item).1.encode.length := by
      rw [Item.length_encode, Item.encodedLength]
      omega
    have stores := after.spares_storeNew ne may absent long (clocks.commit item).2.1
    rw [removed] at removes
    rw [Partition.put, checkFits_of_fits fits]
    dsimp only
    rw [clocks.commit_key, removed]
    dsimp only
    rcases stored : q.storeNew item.key (clocks.commit item).1.encode (clocks.commit item).2.1 with ⟨e | _, r⟩
    all_goals
      rw [stored] at stores
      exact removes.trans stores

theorem spares_putIfAbsent : p.Spares other (p.putIfAbsent clocks item).2.1 := by
  have puts := coherent.spares_put clocks may ne
  rw [Partition.putIfAbsent, coherent.lookup_eq]
  cases p.view item.key with
  | some present => exact .refl p other
  | none =>
    dsimp only
    split
    all_goals
      rename_i stored
      rwa [stored] at puts

theorem spares_replaceIf (expected : Item) : p.Spares other (p.replaceIf clocks expected item).2.1 := by
  have puts := coherent.spares_put clocks may ne
  rw [Partition.replaceIf, coherent.lookup_eq]
  dsimp only
  split
  · split
    all_goals
      rename_i stored
      rwa [stored] at puts
  · exact .refl p other

end Operations

/-- What the key holds is removed if it is what was expected. -/
theorem removeIf_of_view (coherent : p.Coherent allowed) {expected : Item} (shown : p.view expected.key = some expected) :
    ∃ q, p.removeIf expected = (.ok true, q) ∧ q.Coherent allowed ∧ q.evictions = p.evictions ∧
      ∀ key, q.view key = if key = expected.key then none else p.view key := by
  have counted := p.evictions_unlink expected.key
  obtain ⟨q, unlinked, after, gone, -, others⟩ := coherent.unlink expected.key
  have linked : (p.chains.find? expected.key).isSome = true := by
    rw [Option.isSome_iff_ne_none]
    intro absent
    rw [view, lookup_of_absent absent] at shown
    cases shown
  rw [unlinked] at counted
  rw [linked] at unlinked
  refine ⟨q, ?_, after, counted, fun key => ?_⟩
  · rw [Partition.removeIf, coherent.lookup_eq, shown]
    exact (if_pos rfl).trans unlinked
  · split
    · rename_i here
      rw [here, view, lookup_of_absent gone]
    · rename_i elsewhere
      exact view_congr (others key elsewhere)

end Coherent
end Partition
end BlockCache
