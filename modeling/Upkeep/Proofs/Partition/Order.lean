import Upkeep.Proofs.Partition.Sequence
import Upkeep.Proofs.Stability

/-!
# Order and equality of partitions

Partitions are compared by table, value and name, and they are equal if their schemas are equal
besides.  The comparison is a total order up to partitions that differ in nothing but the schema:
of those none comes first, and sorting leaves them as they were read.

## Main Definitions

* `Homonyms` — two partitions that differ in the schema alone.

## Main Statements

* `compare_eq_eq_iff` — the partitions that compare as equal.
* `sort_eq_sort_iff` — the lists whose order does not matter to sorting.
* `order_lawful_up_to_homonyms` — both together with the laws of a total order.
-/

namespace Upkeep.Partition

variable {a b c : Partition} {ps qs : List Partition}

/-- Two partitions of one table with the same value and name, in different schemas. -/
structure Homonyms (a b : Partition) : Prop where
  table : a.table = b.table
  value : a.value = b.value
  name : a.name = b.name
  schemas : a.schema ≠ b.schema

theorem homonyms_iff :
    Homonyms a b ↔
      a.table = b.table ∧ a.value = b.value ∧ a.name = b.name ∧ a.schema ≠ b.schema :=
  ⟨fun h => ⟨h.table, h.value, h.name, h.schemas⟩, fun ⟨ht, hv, hn, hs⟩ => ⟨ht, hv, hn, hs⟩⟩

instance (a b : Partition) : Decidable (Homonyms a b) := decidable_of_iff _ homonyms_iff.symm

theorem Homonyms.symm (h : Homonyms a b) : Homonyms b a :=
  ⟨h.table.symm, h.value.symm, h.name.symm, h.schemas.symm⟩

theorem Homonyms.ne (h : Homonyms a b) : a ≠ b := fun heq => h.schemas (congrArg schema heq)

/-! ### The comparison -/

/-- The schema takes no part in the comparison. -/
theorem compare_eq_eq_iff :
    compare a b = .eq ↔ a.table = b.table ∧ a.value = b.value ∧ a.name = b.name := by
  simp only [compare_def, Ordering.then_eq_eq, Std.LawfulEqOrd.compare_eq_iff_eq]

theorem compare_eq_eq_iff_eq_or_homonyms : compare a b = .eq ↔ a = b ∨ Homonyms a b := by
  rw [compare_eq_eq_iff]
  constructor
  · rintro ⟨ht, hv, hn⟩
    by_cases hs : a.schema = b.schema
    · exact .inl (Partition.ext ht hv hn hs)
    · exact .inr ⟨ht, hv, hn, hs⟩
  · rintro (rfl | h)
    · exact ⟨rfl, rfl, rfl⟩
    · exact ⟨h.table, h.value, h.name⟩

/-- Two partitions neither of which comes after the other compare as equal. -/
theorem compare_eq_eq_of_isLE (hab : (compare a b).isLE = true) (hba : (compare b a).isLE = true) :
    compare a b = .eq :=
  Std.OrientedCmp.isLE_antisymm hab hba

/-! ### Sorting -/

/-- Sorting leaves those in their order that compare as equal to one partition. -/
theorem filter_sort (a : Partition) (ps : List Partition) :
    (sort ps).filter (compare a · = .eq) = ps.filter (compare a · = .eq) := by
  refine filter_mergeSort (fun _ _ _ => Std.TransCmp.isLE_trans) isLE_compare_total ?_ ps
  intro b c hb hc
  have hba : compare b a = .eq := Std.OrientedCmp.eq_symm (of_decide_eq_true hb)
  rw [Std.TransCmp.eq_trans hba (of_decide_eq_true hc)]
  rfl

/-- Of two homonyms the first one stays the first. -/
theorem Homonyms.sort_ne (h : Homonyms a b) (ps : List Partition) :
    sort (a :: b :: ps) ≠ sort (b :: a :: ps) := by
  intro same
  have hab : compare a b = .eq := compare_eq_eq_iff_eq_or_homonyms.2 (.inr h)
  have filtered := congrArg (List.filter (compare a · = .eq)) same
  rw [filter_sort, filter_sort] at filtered
  simp only [List.filter_cons, Std.ReflOrd.compare_self, hab, decide_true, if_true] at filtered
  exact h.ne (List.cons.inj filtered).1

/-- Without homonyms sorting comes to the same whatever the order was. -/
theorem sort_eq_of_perm (none : ∀ a ∈ ps, ∀ b ∈ ps, ¬ Homonyms a b) (perm : qs.Perm ps) :
    sort qs = sort ps := by
  refine List.Perm.eq_of_pairwise ?_ (pairwise_sort qs) (pairwise_sort ps)
    ((List.mergeSort_perm qs _).trans (perm.trans (List.mergeSort_perm ps _).symm))
  intro a b ha hb hab hba
  have ha : a ∈ ps := perm.mem_iff.1 (mem_sort.1 ha)
  have heq := compare_eq_eq_iff_eq_or_homonyms.1 (compare_eq_eq_of_isLE hab hba)
  exact heq.resolve_right (none a ha b (mem_sort.1 hb))

/-- **The order of a list makes no difference to sorting if and only if there are no homonyms in
it.** -/
theorem sort_eq_sort_iff :
    (∀ qs : List Partition, qs.Perm ps → sort qs = sort ps) ↔
      ∀ a ∈ ps, ∀ b ∈ ps, ¬ Homonyms a b := by
  refine ⟨fun same a ha b hb h => ?_, fun none qs => sort_eq_of_perm none⟩
  -- Both homonyms may be moved to the front, in either order.
  have hb : b ∈ ps.erase a := (List.mem_erase_of_ne h.ne.symm).2 hb
  have perm : (a :: b :: (ps.erase a).erase b).Perm ps :=
    (((List.perm_cons_erase hb).symm).cons a).trans (List.perm_cons_erase ha).symm
  have swapped : (b :: a :: (ps.erase a).erase b).Perm ps := (List.Perm.swap a b _).trans perm
  exact h.sort_ne _ ((same _ perm).trans (same _ swapped).symm)

/-- **The order of partitions is lawful up to homonyms.**  It is total, antisymmetric and
transitive, and partitions compare as equal if and only if they are equal or homonyms.  So sorting
makes one list of all the permutations of a list if and only if there are no homonyms in it. -/
theorem order_lawful_up_to_homonyms (a b c : Partition) (ps : List Partition) :
    (compare b a = (compare a b).swap ∧
      ((compare a b).isLE = true ∨ (compare b a).isLE = true)) ∧
    ((compare a b).isLE = true → (compare b c).isLE = true → (compare a c).isLE = true) ∧
    ((compare a b = .eq ↔ a = b) ↔ ¬ Homonyms a b) ∧
    ((∀ qs : List Partition, qs.Perm ps → sort qs = sort ps) ↔
      ∀ a ∈ ps, ∀ b ∈ ps, ¬ Homonyms a b) := by
  refine ⟨⟨Std.OrientedCmp.eq_swap, ?_⟩, Std.TransCmp.isLE_trans, ?_, sort_eq_sort_iff⟩
  · rw [← Bool.or_eq_true]
    exact isLE_compare_total a b
  · rw [compare_eq_eq_iff_eq_or_homonyms]
    refine ⟨fun lawful h => h.ne (lawful.1 (.inr h)), fun none => ?_⟩
    exact ⟨fun equal => equal.resolve_right none, .inl⟩

example :
    let a : Partition := named "events" 1 "a"
    let b : Partition := named "events" 1 "b"
    compare a b = .eq ∧ a ≠ b := by decide

end Upkeep.Partition
