import Std.Data.TreeMap.Lemmas

/-!
# Entries of tree maps

What an erasure and an insertion do to the list of a map's entries: an erasure takes the entry of the
key out, and an insertion puts an entry in its place.
-/

namespace BlockCache.Entries

open Std

variable {α β : Type} {cmp : α → α → Ordering} [TransCmp cmp] [LawfulEqCmp cmp] [DecidableEq α]

theorem toList_erase (t : TreeMap α β cmp) (k : α) : (t.erase k).toList = t.toList.filter (·.1 ≠ k) := by
  have same : (t.erase k).Equiv (t.filter fun a _ => a ≠ k) := by
    apply TreeMap.Equiv.of_forall_constGet?_eq
    intro a
    rw [TreeMap.getElem?_erase, TreeMap.getElem?_filter']
    by_cases here : a = k
    · cases t[a]? <;> simp [here, Option.filter]
    · cases t[a]? <;> simp [here, Ne.symm here, LawfulEqCmp.compare_eq_iff_eq, Option.filter]
  rw [same.toList_eq, TreeMap.toList_filter]

theorem toList_insert (t : TreeMap α β cmp) (k : α) (v : β) :
    (t.insert k v).toList.Perm ((k, v) :: (t.erase k).toList) := by
  rw [toList_erase]
  refine TreeMap.toList_insert_perm.trans (List.Perm.cons _ (List.Perm.of_eq (List.filter_congr fun entry _ => ?_)))
  by_cases here : entry.1 = k
  · simp [here]
  · simp [here, Ne.symm here]

theorem toList_of_getElem? {t : TreeMap α β cmp} {k : α} {v : β} (found : t[k]? = some v) :
    t.toList.Perm ((k, v) :: (t.erase k).toList) := by
  have same : (t.insert k v).Equiv t := by
    apply TreeMap.Equiv.of_forall_constGet?_eq
    intro a
    rw [TreeMap.getElem?_insert]
    split
    · rename_i here
      rw [← LawfulEqCmp.eq_of_compare here, found]
    · rfl
  exact same.toList_eq ▸ toList_insert t k v

omit [DecidableEq α] in
theorem toList_erase_of_absent {t : TreeMap α β cmp} {k : α} (absent : t[k]? = none) :
    (t.erase k).toList = t.toList := by
  have same : (t.erase k).Equiv t := by
    apply TreeMap.Equiv.of_forall_constGet?_eq
    intro a
    rw [TreeMap.getElem?_erase]
    split
    · rename_i here
      rw [← LawfulEqCmp.eq_of_compare here, absent]
    · rfl
  exact same.toList_eq

end BlockCache.Entries
