import BlockCache.Arena.Basic
import BlockCache.Entries
import BlockCache.Key

/-!
# Bucket chains

A fixed number of buckets, each a chain of links. A link says where the value of one key lies and which
stamp it carries. The hash of a key names its bucket, and the key itself tells links of one
bucket apart. The view of the chains is `links`, all links of all buckets: what an operation does to
the chain of a key, it does to the links, and those of the other buckets (`others`) stay.
-/

namespace BlockCache

/-- Where the value of a key lies, and the stamp of its last use. -/
structure Link where
  key : Key
  region : Region
  stamp : UInt64
deriving DecidableEq

/-- Links by bucket. A bucket without a chain is empty. -/
structure Chains where
  /-- Number of buckets. -/
  count : Nat
  buckets : Std.TreeMap Nat (List Link)
  count_pos : 0 < count

namespace Chains

/-- Empty chains; the number of buckets is the next power of two. -/
def new (count : Nat) : Chains where
  count := count.nextPowerOfTwo
  buckets := ∅
  count_pos := Nat.pos_of_isPowerOfTwo (Nat.isPowerOfTwo_nextPowerOfTwo count)

/-- The halves of a word, swapped: the low half of a hash has picked the partition already. -/
def swapHalves (h : UInt64) : UInt64 := (h >>> 32) ||| (h <<< 32)

/-- The bucket of a key. -/
def bucketOf (c : Chains) (key : Key) : Nat := (swapHalves key.hash).toNat % c.count

/-- The links of the key's bucket. -/
def chain (c : Chains) (key : Key) : List Link := c.buckets.getD (c.bucketOf key) []

/-- The chains with another chain in the key's bucket. -/
def setChain (c : Chains) (key : Key) (links : List Link) : Chains :=
  { c with buckets := c.buckets.insert (c.bucketOf key) links }

/-- The link of a key. -/
def find? (c : Chains) (key : Key) : Option Link := (c.chain key).find? (·.key = key)

/-- Adds a link at the end of its chain. -/
def push (c : Chains) (link : Link) : Chains := c.setChain link.key (c.chain link.key ++ [link])

/-- Removes the link of a key. -/
def erase (c : Chains) (key : Key) : Chains := c.setChain key ((c.chain key).eraseP (·.key = key))

/-- Gives the link of a key another stamp. -/
def restamp (c : Chains) (key : Key) (stamp : UInt64) : Chains :=
  c.setChain key ((c.chain key).map fun link => if link.key = key then { link with stamp } else link)

/-- All links, bucket by bucket. -/
def links (c : Chains) : List Link := c.buckets.toList.flatMap (·.2)

/-- The chains with every bucket empty. -/
def clear (c : Chains) : Chains := { c with buckets := ∅ }

theorem find?_key {c : Chains} {key : Key} {link : Link} (found : c.find? key = some link) :
    link.key = key := by simpa using List.find?_some found

/-- The links in buckets other than that of the key. -/
def others (c : Chains) (key : Key) : List Link := (c.buckets.erase (c.bucketOf key)).toList.flatMap (·.2)

theorem links_perm (c : Chains) (key : Key) : c.links.Perm (c.chain key ++ c.others key) := by
  unfold links chain others
  rw [Std.TreeMap.getD_eq_getD_getElem?]
  cases held : c.buckets[c.bucketOf key]? with
  | none =>
    rw [Entries.toList_erase_of_absent held]
    exact .refl _
  | some chain => exact (Entries.toList_of_getElem? held).flatMap_right _

theorem links_setChain_perm (c : Chains) (key : Key) (chain : List Link) :
    (c.setChain key chain).links.Perm (chain ++ c.others key) :=
  (Entries.toList_insert c.buckets (c.bucketOf key) chain).flatMap_right _

theorem length_links_erase_lt {c : Chains} {key : Key} {link : Link} (found : c.find? key = some link) :
    (c.erase key).links.length < c.links.length := by
  have before := (c.links_perm key).length_eq
  have after := (c.links_setChain_perm key ((c.chain key).eraseP (·.key = key))).length_eq
  have present : link ∈ c.chain key := List.mem_of_find?_eq_some found
  have shorter := List.length_eraseP_of_mem (p := (·.key = key)) present (by simpa using find?_key found)
  have positive := List.length_pos_of_mem present
  rw [List.length_append] at before after
  rw [erase, after, before, shorter]
  omega

end Chains
end BlockCache
