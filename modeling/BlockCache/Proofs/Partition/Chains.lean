import BlockCache.Partition.Chains
import Mathlib.Data.List.Perm.Basic
import Mathlib.Data.List.Nodup

/-!
# Chains hold each key once

Chains are sound if every link lies in the bucket of its key and no key has two links. Then the link
of a key is the one link among all that has the key, and each operation is known by what it does to
the links as a whole.
-/

open scoped List

namespace BlockCache.Chains

/-- Every link lies in the bucket of its key, and no key has two. -/
structure Sound (c : Chains) : Prop where
  placed : ∀ {bucket : Nat} {chain : List Link}, c.buckets[bucket]? = some chain →
    ∀ link ∈ chain, c.bucketOf link.key = bucket
  unique : (c.links.map (·.key)).Nodup

theorem mem_links_iff {c : Chains} {link : Link} :
    link ∈ c.links ↔ ∃ (bucket : Nat) (chain : List Link), c.buckets[bucket]? = some chain ∧ link ∈ chain := by
  constructor
  · intro mem
    obtain ⟨entry, held, inside⟩ := List.mem_flatMap.1 mem
    exact ⟨entry.1, entry.2, Std.TreeMap.mem_toList_iff_getElem?_eq_some.1 held, inside⟩
  · rintro ⟨bucket, chain, held, inside⟩
    exact List.mem_flatMap.2 ⟨(bucket, chain), Std.TreeMap.mem_toList_iff_getElem?_eq_some.2 held, inside⟩

theorem mem_links_of_mem_chain {c : Chains} {key : Key} {link : Link} (mem : link ∈ c.chain key) :
    link ∈ c.links :=
  (c.links_perm key).symm.subset (List.mem_append_left _ mem)

/-- A push adds its link to the links. -/
theorem links_push_perm (c : Chains) (link : Link) : (c.push link).links.Perm (link :: c.links) :=
  calc (c.push link).links
    _ ~ c.chain link.key ++ [link] ++ c.others link.key := c.links_setChain_perm ..
    _ ~ link :: (c.chain link.key ++ c.others link.key) := by
      rw [List.append_assoc]
      exact List.perm_middle
    _ ~ link :: c.links := (c.links_perm link.key).symm.cons link

/-- The chain of a key around the link that is found, and what an erasure leaves of it. -/
theorem chain_eq_of_find? {c : Chains} {key : Key} {link : Link} (found : c.find? key = some link) :
    ∃ before after, c.chain key = before ++ link :: after ∧ (∀ other ∈ before, other.key ≠ key) ∧
      (c.chain key).eraseP (·.key = key) = before ++ after := by
  obtain ⟨is, before, after, chain, others⟩ := List.find?_eq_some_iff_append.1 found
  refine ⟨before, after, chain, by simpa using others, ?_⟩
  rw [chain, List.eraseP_append_right _ (by simpa using others), List.eraseP_cons, is]
  rfl

/-- An erasure takes the link that is found out of the links. -/
theorem links_perm_of_find? {c : Chains} {key : Key} {link : Link} (found : c.find? key = some link) :
    c.links ~ link :: (c.erase key).links := by
  obtain ⟨before, after, chain, -, erased⟩ := chain_eq_of_find? found
  calc c.links
    _ ~ before ++ link :: after ++ c.others key := chain ▸ c.links_perm key
    _ ~ link :: (before ++ after ++ c.others key) := by
      rw [List.append_assoc, List.append_assoc]
      exact List.perm_middle
    _ ~ link :: (c.erase key).links := by
      rw [← erased]
      exact (c.links_setChain_perm key _).symm.cons link

namespace Sound

variable {c : Chains}

theorem mem_chain (sound : c.Sound) {link : Link} (mem : link ∈ c.links) : link ∈ c.chain link.key := by
  obtain ⟨bucket, chain, held, inside⟩ := mem_links_iff.1 mem
  rw [Chains.chain, sound.placed held link inside, Std.TreeMap.getD_eq_getD_getElem?, held]
  exact inside

/-- The link of a key is the one link that has the key. -/
theorem find?_eq_some_iff (sound : c.Sound) {key : Key} {link : Link} :
    c.find? key = some link ↔ link ∈ c.links ∧ link.key = key := by
  constructor
  · intro found
    exact ⟨mem_links_of_mem_chain (List.mem_of_find?_eq_some found), find?_key found⟩
  · rintro ⟨mem, rfl⟩
    cases found : c.find? link.key with
    | none =>
      have := List.find?_eq_none.1 found link (sound.mem_chain mem)
      simp at this
    | some other =>
      have there := mem_links_of_mem_chain (List.mem_of_find?_eq_some found)
      rw [List.inj_on_of_nodup_map sound.unique there mem (find?_key found)]

theorem find?_eq_none_iff (sound : c.Sound) {key : Key} :
    c.find? key = none ↔ ∀ link ∈ c.links, link.key ≠ key := by
  constructor
  · intro absent link mem same
    rw [sound.find?_eq_some_iff.2 ⟨mem, same⟩] at absent
    exact Option.some_ne_none _ absent
  · intro absent
    cases found : c.find? key with
    | none => rfl
    | some link => exact absurd (find?_key found) (absent link (sound.find?_eq_some_iff.1 found).1)

/-- Another chain for a key keeps the chains sound if its links belong to the bucket and all keys differ. -/
theorem setChain (sound : c.Sound) {key : Key} {chain : List Link}
    (placed : ∀ link ∈ chain, c.bucketOf link.key = c.bucketOf key)
    (unique : ((c.setChain key chain).links.map (·.key)).Nodup) : (c.setChain key chain).Sound := by
  refine ⟨?_, unique⟩
  intro bucket other held link mem
  simp only [Chains.setChain, Std.TreeMap.getElem?_insert, Nat.compare_eq_eq] at held
  split at held
  · rename_i here
    obtain rfl := Option.some.inj held
    exact (placed link mem).trans here
  · exact sound.placed held link mem

theorem bucketOf_of_mem_chain (sound : c.Sound) {key : Key} {link : Link} (mem : link ∈ c.chain key) :
    c.bucketOf link.key = c.bucketOf key := by
  rw [Chains.chain, Std.TreeMap.getD_eq_getD_getElem?] at mem
  cases held : c.buckets[c.bucketOf key]? with
  | none => simp [held] at mem
  | some chain =>
    rw [held] at mem
    exact sound.placed held link mem

theorem push (sound : c.Sound) {link : Link} (absent : c.find? link.key = none) : (c.push link).Sound := by
  apply sound.setChain
  · intro other mem
    rcases List.mem_append.1 mem with old | new
    · exact sound.bucketOf_of_mem_chain old
    · rw [List.mem_singleton.1 new]
  · have keys := (c.links_push_perm link).map (·.key)
    refine keys.nodup_iff.2 (List.nodup_cons.2 ⟨?_, sound.unique⟩)
    intro mem
    obtain ⟨other, held, same⟩ := List.mem_map.1 mem
    exact sound.find?_eq_none_iff.1 absent other held same

theorem erase (sound : c.Sound) (key : Key) : (c.erase key).Sound := by
  apply sound.setChain
  · exact fun link mem => sound.bucketOf_of_mem_chain (List.mem_of_mem_eraseP mem)
  · have sub : ((c.chain key).eraseP (·.key = key) ++ c.others key).Sublist (c.chain key ++ c.others key) :=
      (List.eraseP_sublist).append_right _
    have unique := ((c.links_perm key).map (·.key)).nodup_iff.1 sound.unique
    exact ((c.links_setChain_perm key _).map (·.key)).nodup_iff.2 (unique.sublist (sub.map _))

/-- The links after an erasure are those of the other keys. -/
theorem mem_links_erase (sound : c.Sound) {key : Key} {link : Link} :
    link ∈ (c.erase key).links ↔ link ∈ c.links ∧ link.key ≠ key := by
  cases found : c.find? key with
  | none =>
    have absent := sound.find?_eq_none_iff.1 found
    have same : (c.erase key).links ~ c.links := by
      refine (c.links_setChain_perm key _).trans ?_
      rw [List.eraseP_of_forall_not fun link mem => by simpa using absent link (mem_links_of_mem_chain mem)]
      exact (c.links_perm key).symm
    rw [same.mem_iff]
    exact ⟨fun mem => ⟨mem, absent link mem⟩, And.left⟩
  | some taken =>
    have split := links_perm_of_find? found
    have unique := (split.map (·.key)).nodup_iff.1 sound.unique
    rw [List.map_cons, List.nodup_cons, find?_key found] at unique
    rw [split.mem_iff, List.mem_cons]
    constructor
    · intro mem
      refine ⟨.inr mem, fun same => unique.1 (List.mem_map.2 ⟨link, mem, same⟩)⟩
    · rintro ⟨rfl | mem, other⟩
      · exact absurd (find?_key found) other
      · exact mem

/-- A new stamp changes the link of the key and leaves the others. -/
theorem links_restamp_perm (sound : c.Sound) {key : Key} {link : Link} (found : c.find? key = some link)
    (stamp : UInt64) : (c.restamp key stamp).links ~ { link with stamp } :: (c.erase key).links := by
  obtain ⟨before, after, chain, others, erased⟩ := chain_eq_of_find? found
  have unique := ((c.links_perm key).map (·.key)).nodup_iff.1 sound.unique
  rw [chain, List.map_append, List.map_append] at unique
  have otherKeys (other : Link) (mem : other ∈ after) : other.key ≠ key := by
    intro same
    have tail := (List.nodup_append.1 (List.nodup_append.1 unique).1).2.1
    rw [List.map_cons, List.nodup_cons, find?_key found, ← same] at tail
    exact tail.1 (List.mem_map_of_mem mem)
  let change (link : Link) : Link := if link.key = key then { link with stamp } else link
  have keep {links : List Link} (differ : ∀ other ∈ links, other.key ≠ key) : links.map change = links := by
    conv_rhs => rw [← List.map_id links]
    exact List.map_congr_left fun other mem => if_neg (differ other mem)
  have changed : (c.chain key).map change = before ++ { link with stamp } :: after := by
    rw [chain, List.map_append, List.map_cons, keep others, keep otherKeys]
    simp only [change, find?_key found, if_true]
  calc (c.restamp key stamp).links
    _ ~ before ++ { link with stamp } :: after ++ c.others key := changed ▸ c.links_setChain_perm key _
    _ ~ { link with stamp } :: (before ++ after ++ c.others key) := by
      rw [List.append_assoc, List.append_assoc]
      exact List.perm_middle
    _ ~ { link with stamp } :: (c.erase key).links := by
      rw [← erased]
      exact (c.links_setChain_perm key _).symm.cons _

theorem restamp (sound : c.Sound) (key : Key) (stamp : UInt64) : (c.restamp key stamp).Sound := by
  have keys : ((c.chain key).map fun link => if link.key = key then { link with stamp } else link).map (·.key) =
      (c.chain key).map (·.key) := by
    rw [List.map_map]
    exact List.map_congr_left fun link _ => by dsimp only [Function.comp]; split <;> rfl
  apply sound.setChain
  · intro link mem
    obtain ⟨old, held, rfl⟩ := List.mem_map.1 mem
    have := sound.bucketOf_of_mem_chain held
    split <;> exact this
  · have perm := (c.links_setChain_perm key
      ((c.chain key).map fun link => if link.key = key then { link with stamp } else link)).map (·.key)
    rw [List.map_append, keys, ← List.map_append] at perm
    exact perm.nodup_iff.2 (((c.links_perm key).map (·.key)).nodup_iff.1 sound.unique)

end Sound

theorem Sound.of_empty {c : Chains} (empty : c.buckets = ∅) : c.Sound := by
  refine ⟨fun held => by simp [empty] at held, ?_⟩
  rw [links, empty]
  exact List.nodup_nil

end BlockCache.Chains
