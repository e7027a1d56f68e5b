import BlockCache.Partition.Chains
import Mathlib.Data.List.Nodup
import Mathlib.Data.List.Pairwise

/-!
# Links by age

The order of eviction: links sorted by their stamps, the oldest first. Where no two links have one stamp the
order is the only one in which stamps grow, so taking out the oldest link takes the head off, and a link with
a new stamp goes to the end. `Shortest` is the front of such a list that has to go before the rest meets a goal.
-/

open scoped List

namespace BlockCache

/-- Sorting by distinct stamps makes the stamps grow. -/
theorem pairwise_mergeSort_of_nodup {α : Type} (stamp : α → UInt64) {l : List α} (distinct : (l.map stamp).Nodup) :
    (l.mergeSort fun a b => decide (stamp a ≤ stamp b)).Pairwise fun a b => stamp a < stamp b := by
  have perm := List.mergeSort_perm l fun a b => decide (stamp a ≤ stamp b)
  have sorted : (l.mergeSort fun a b => decide (stamp a ≤ stamp b)).Pairwise
      fun a b => decide (stamp a ≤ stamp b) = true :=
    List.pairwise_mergeSort (fun _ _ _ => by simpa using UInt64.le_trans) (fun _ _ => by simpa using UInt64.le_total _ _) l
  have differ := List.pairwise_map.1 ((perm.map stamp).nodup_iff.2 distinct)
  exact sorted.imp₂ (fun _ _ le ne => UInt64.lt_of_le_of_ne (of_decide_eq_true le) ne) differ

/-- The links in the order of their stamps. -/
def oldestFirst (links : List Link) : List Link := links.mergeSort fun a b => decide (a.stamp ≤ b.stamp)

/-- No two links have one stamp. -/
def Distinct (links : List Link) : Prop := (links.map (·.stamp)).Nodup

section Order

variable {links rest : List Link} {link : Link}

theorem oldestFirst_perm (links : List Link) : oldestFirst links ~ links := List.mergeSort_perm ..

@[simp] theorem mem_oldestFirst : link ∈ oldestFirst links ↔ link ∈ links := (oldestFirst_perm links).mem_iff

@[simp] theorem length_oldestFirst (links : List Link) : (oldestFirst links).length = links.length :=
  (oldestFirst_perm links).length_eq

theorem Distinct.perm {other : List Link} (distinct : Distinct links) (perm : other ~ links) : Distinct other :=
  (perm.map _).nodup_iff.2 distinct

theorem Distinct.filter (distinct : Distinct links) (keep : Link → Bool) : Distinct (links.filter keep) :=
  List.Nodup.sublist (List.filter_sublist.map _) distinct

theorem Distinct.nodup (distinct : Distinct links) : links.Nodup := List.Nodup.of_map _ distinct

theorem pairwise_oldestFirst (distinct : Distinct links) : (oldestFirst links).Pairwise (·.stamp < ·.stamp) :=
  pairwise_mergeSort_of_nodup Link.stamp distinct

/-- There is only one order in which the stamps grow. -/
theorem oldestFirst_eq {sorted : List Link} (perm : sorted ~ links) (grows : sorted.Pairwise (·.stamp < ·.stamp)) :
    oldestFirst links = sorted := by
  have distinct : Distinct links :=
    (perm.map _).nodup_iff.1 (List.pairwise_map.2 (grows.imp fun lt => UInt64.ne_of_lt lt))
  refine List.Perm.eq_of_pairwise (fun a b _ _ before after => ?_) (pairwise_oldestFirst distinct) grows
    ((oldestFirst_perm links).trans perm.symm)
  exact absurd after (UInt64.lt_asymm before)

theorem oldestFirst_congr (distinct : Distinct rest) (perm : links ~ rest) : oldestFirst links = oldestFirst rest :=
  oldestFirst_eq ((oldestFirst_perm rest).trans perm.symm) (pairwise_oldestFirst distinct)

/-- The oldest link comes first. -/
theorem oldestFirst_cons (split : links ~ link :: rest) (distinct : Distinct rest)
    (oldest : ∀ other ∈ rest, link.stamp < other.stamp) : oldestFirst links = link :: oldestFirst rest := by
  refine oldestFirst_eq (((oldestFirst_perm rest).cons link).trans split.symm) ?_
  exact List.pairwise_cons.2 ⟨fun other mem => oldest other (mem_oldestFirst.1 mem), pairwise_oldestFirst distinct⟩

/-- Where the oldest link is taken out, the others stay in their order. -/
theorem oldestFirst_of_taken (distinct : Distinct links) (mem : link ∈ links)
    (oldest : ∀ other ∈ links, link.stamp ≤ other.stamp) (nodup : rest.Nodup)
    (remains : ∀ other, other ∈ rest ↔ other ∈ links ∧ other ≠ link) : oldestFirst links = link :: oldestFirst rest := by
  have split : links ~ link :: rest := by
    refine (List.perm_ext_iff_of_nodup distinct.nodup (List.nodup_cons.2 ⟨?_, nodup⟩)).2 fun other => ?_
    · exact fun there => ((remains link).1 there).2 rfl
    · rw [List.mem_cons, remains]
      by_cases same : other = link
      · simp [same, mem]
      · simp [same]
  have strict (other : Link) (there : other ∈ rest) : link.stamp < other.stamp := by
    obtain ⟨held, ne⟩ := (remains other).1 there
    refine UInt64.lt_of_le_of_ne (oldest other held) fun same => ?_
    exact ne (List.inj_on_of_nodup_map distinct held mem same.symm)
  exact oldestFirst_cons split (List.nodup_cons.1 (distinct.perm split.symm)).2 strict

/-- The youngest link comes last. -/
theorem oldestFirst_concat (split : links ~ link :: rest) (distinct : Distinct rest)
    (youngest : ∀ other ∈ rest, other.stamp < link.stamp) : oldestFirst links = oldestFirst rest ++ [link] := by
  refine oldestFirst_eq ((((oldestFirst_perm rest).append_right _).trans (List.perm_append_singleton ..)).trans
    split.symm) (List.pairwise_append.2 ⟨pairwise_oldestFirst distinct, List.pairwise_singleton .., ?_⟩)
  intro other mem last same
  rw [List.mem_singleton.1 same]
  exact youngest other (mem_oldestFirst.1 mem)

theorem oldestFirst_filter (distinct : Distinct links) (keep : Link → Bool) :
    oldestFirst (links.filter keep) = (oldestFirst links).filter keep :=
  oldestFirst_eq ((oldestFirst_perm links).filter keep) ((pairwise_oldestFirst distinct).filter _)

end Order

/-- `taken` is the shortest front of `links` after which the rest meets a goal. -/
structure Shortest (goal : List Link → Prop) (links taken : List Link) : Prop where
  front : taken <+: links
  reached : goal (links.drop taken.length)
  short : ∀ n < taken.length, ¬goal (links.drop n)

namespace Shortest

variable {goal : List Link → Prop} {links taken : List Link}

theorem nil (reached : goal links) : Shortest goal links [] :=
  ⟨List.nil_prefix, reached, fun _ lt => absurd lt (Nat.not_lt_zero _)⟩

theorem cons {link : Link} (unmet : ¬goal (link :: links)) (rest : Shortest goal links taken) :
    Shortest goal (link :: links) (link :: taken) := by
  refine ⟨List.cons_prefix_cons.2 ⟨rfl, rest.front⟩, rest.reached, fun n lt => ?_⟩
  cases n with
  | zero => exact unmet
  | succ n => exact rest.short n (Nat.lt_of_succ_lt_succ lt)

/-- The rest has the links that were not taken. -/
theorem mem_drop_iff (shortest : Shortest goal links taken) (nodup : links.Nodup) {link : Link} :
    link ∈ links.drop taken.length ↔ link ∈ links ∧ link ∉ taken := by
  obtain ⟨rest, rfl⟩ := shortest.front
  have apart := (List.nodup_append.1 nodup).2.2
  rw [List.drop_left, List.mem_append]
  constructor
  · exact fun mem => ⟨.inr mem, fun early => apart link early link mem rfl⟩
  · rintro ⟨early | late, other⟩
    · exact absurd early other
    · exact late

theorem subset (shortest : Shortest goal links taken) : taken ⊆ links := shortest.front.subset

theorem split (shortest : Shortest goal links taken) : links = taken ++ links.drop taken.length := by
  obtain ⟨rest, rfl⟩ := shortest.front
  rw [List.drop_left]

/-- Nothing is taken where the goal is met. -/
theorem eq_nil (shortest : Shortest goal links taken) (reached : goal links) : taken = [] := by
  cases taken with
  | nil => rfl
  | cons link taken => exact absurd reached (shortest.short 0 (Nat.succ_pos _))

/-- As many are taken as there are too many. -/
theorem length_eq {most : Nat} (shortest : Shortest (fun links => links.length ≤ most) links taken) :
    taken.length = links.length - most := by
  have reached : (links.drop taken.length).length ≤ most := shortest.reached
  have short (lt : links.length - most < taken.length) : ¬(links.drop (links.length - most)).length ≤ most :=
    shortest.short _ lt
  rw [List.length_drop] at reached short
  omega

end Shortest
end BlockCache
