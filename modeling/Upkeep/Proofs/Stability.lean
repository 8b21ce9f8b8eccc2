import Mathlib.Data.List.Pairwise

/-!
# Stability of sorting

Elements that no one of them comes before another are as they were after sorting.

## Main Statements

* `filter_mergeSort` — sorting leaves equal elements in their order.
-/

namespace Upkeep

variable {α : Type} {le : α → α → Bool} {p : α → Bool}

/-- Sorting leaves those elements in their order that are equal as far as the order goes. -/
theorem filter_mergeSort (transitive : ∀ a b c, le a b = true → le b c = true → le a c = true)
    (total : ∀ a b, (le a b || le b a) = true)
    (equal : ∀ a b, p a = true → p b = true → le a b = true) (elements : List α) :
    (elements.mergeSort le).filter p = elements.filter p := by
  have inOrder : (elements.filter p).Pairwise fun a b => le a b = true :=
    List.pairwise_of_forall_mem_list fun a ha b hb =>
      equal a b (List.mem_filter.1 ha).2 (List.mem_filter.1 hb).2
  have kept : (elements.filter p).Sublist ((elements.mergeSort le).filter p) := by
    have sublist := (List.sublist_mergeSort transitive total inOrder List.filter_sublist).filter p
    rwa [List.filter_filter, funext fun a => Bool.and_self (p a)] at sublist
  have length := ((List.mergeSort_perm elements le).filter p).length_eq
  exact (kept.eq_of_length length.symm).symm

end Upkeep
