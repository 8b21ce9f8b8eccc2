import Mathlib.Data.List.Chain
import Mathlib.Data.List.Nodup
import Upkeep.Partition.Basic

/-!
# Sequences of partitions

Partitions of one table in the order of their values.  Such a list is what sorting makes
of the same partitions in any other order, and it stays one when the first partitions go
or the next one comes.  A sequence has no gaps on top of that.

## Main Definitions

* `Ascending` — the values of the partitions of a list grow.
* `Follows` — the value of one partition is that after the value of another.
* `IsSequence` — each partition of a list follows the one before it.
* `Consecutive` — distinct values with no gap between them.

## Main Statements

* `Ascending.sort_eq`, `ascending_sort` — what sorting comes to.
* `IsSequence.consecutive`, `isSequence_of_consecutive` — sequences by their values.

## Design Notes

The highest value has no next one, so a step is told by `nextValue?` and not by a sum;
`nextValue?_eq_some_iff` leads to sums of integers.
-/

namespace Upkeep.Partition

variable {a b : Partition} {ps : List Partition} {values : List Int64}

/-! ### Next values -/

theorem nextValue?_eq_some_iff {value next : Int64} :
    nextValue? value = some next ↔ next.toInt = value.toInt + 1 := by
  have hmax : Int64.maxValue.toInt = 9223372036854775807 := by decide
  have hlow := value.le_toInt
  have hhigh := next.toInt_lt
  simp only [nextValue?]
  split
  · next h =>
      subst h
      simp only [reduceCtorEq, false_iff]
      omega
  · next h =>
      have hne : value.toInt ≠ Int64.maxValue.toInt := fun heq => h (Int64.toInt_inj.1 heq)
      have hvalue := value.toInt_lt
      have hsum : (value + 1).toInt = value.toInt + 1 := by
        rw [Int64.toInt_add]
        refine Int.bmod_eq_of_le ?_ ?_
        · have : (1 : Int64).toInt = 1 := by decide
          omega
        · have : (1 : Int64).toInt = 1 := by decide
          omega
      rw [Option.some.injEq, ← Int64.toInt_inj, hsum, eq_comm]

theorem nextValue?_eq_none_iff {value : Int64} :
    nextValue? value = none ↔ value = Int64.maxValue := by
  simp [nextValue?]

/-- The value of `b` is that after the value of `a`. -/
def Follows (a b : Partition) : Prop := nextValue? a.value = some b.value

theorem follows_iff : Follows a b ↔ b.value.toInt = a.value.toInt + 1 := nextValue?_eq_some_iff

theorem Follows.lt (h : Follows a b) : a.value < b.value := by
  have := follows_iff.1 h
  rw [Int64.lt_iff_toInt_lt]
  omega

/-- Each partition follows the one before it. -/
def IsSequence (ps : List Partition) : Prop := ps.IsChain Follows

theorem isSequence_nil : IsSequence [] := .nil

theorem isSequence_singleton (partition : Partition) : IsSequence [partition] := .singleton _

theorem IsSequence.tail (h : IsSequence (a :: ps)) : IsSequence ps := List.IsChain.tail h

/-- The partition after the last one may come. -/
theorem IsSequence.concat (h : IsSequence ps) (hb : ∀ a, ps.getLast? = some a → Follows a b) :
    IsSequence (ps ++ [b]) := by
  refine List.isChain_append.2 ⟨h, .singleton _, fun a ha b' hb' => ?_⟩
  rw [List.head?_singleton, Option.mem_some_iff] at hb'
  exact hb' ▸ hb a ha

/-! ### Growing values -/

/-- The values of the partitions grow. -/
def Ascending (ps : List Partition) : Prop := ps.Pairwise fun a b => a.value < b.value

instance (ps : List Partition) : Decidable (Ascending ps) :=
  inferInstanceAs (Decidable (ps.Pairwise fun a b => a.value < b.value))

/-- Values grow along a sequence. -/
theorem IsSequence.ascending (h : IsSequence ps) : Ascending ps := by
  have : Trans (fun a b : Partition => a.value < b.value)
      (fun a b : Partition => a.value < b.value) (fun a b : Partition => a.value < b.value) :=
    ⟨fun hab hbc => Int64.lt_trans hab hbc⟩
  exact (List.IsChain.imp (fun _ _ hf => Follows.lt hf) h).pairwise

namespace Ascending

theorem tail (h : Ascending (a :: ps)) : Ascending ps := (List.pairwise_cons.1 h).2

theorem nodup_values (h : Ascending ps) : (ps.map Partition.value).Nodup := by
  rw [List.nodup_iff_pairwise_ne, List.pairwise_map]
  exact h.imp fun hlt => Int64.ne_of_lt hlt

theorem eq_of_value_eq (h : Ascending ps) (ha : a ∈ ps) (hb : b ∈ ps)
    (hv : a.value = b.value) : a = b :=
  List.inj_on_of_nodup_map h.nodup_values ha hb hv

/-- The last partition has the highest value. -/
theorem le_getLast (h : Ascending ps) (hl : ps.getLast? = some b) (ha : a ∈ ps) :
    a.value ≤ b.value := by
  obtain ⟨qs, rfl⟩ := List.getLast?_eq_some_iff.1 hl
  rcases List.mem_append.1 ha with hq | hq
  · exact Int64.le_of_lt ((List.pairwise_append.1 h).2.2 a hq b (by simp))
  · rw [List.mem_singleton.1 hq]
    exact Int64.le_refl _

/-- A partition after the last one may come. -/
theorem concat (h : Ascending ps) (hb : ∀ a, ps.getLast? = some a → a.value < b.value) :
    Ascending (ps ++ [b]) := by
  refine List.pairwise_append.2 ⟨h, List.pairwise_singleton _ _, fun a ha b' hb' => ?_⟩
  obtain rfl := List.mem_singleton.1 hb'
  have hl := List.getLast?_eq_some_getLast (List.ne_nil_of_mem ha)
  exact Int64.lt_of_le_of_lt (h.le_getLast hl ha) (hb _ hl)

end Ascending

/-! ### Sorting -/

instance : Std.TransOrd Partition :=
  inferInstanceAs (Std.TransCmp (compareLex (compareOn Partition.table)
    (compareLex (compareOn Partition.value) (compareOn Partition.name))))

/-- Partitions of one table are in the order of their values. -/
theorem isLE_compare_of_lt (ht : a.table = b.table) (hv : a.value < b.value) :
    (compare a b).isLE = true := by
  have hlt : compare a.value b.value = .lt := Std.compare_eq_lt.2 hv
  rw [compare_def, ht, Std.ReflOrd.compare_self, hlt]
  rfl

theorem value_le_of_isLE_compare (ht : a.table = b.table) (h : (compare a b).isLE = true) :
    a.value ≤ b.value := by
  by_contra hle
  have hgt : compare a.value b.value = .gt :=
    Std.compare_eq_gt.2 (Int64.not_le.1 hle)
  rw [compare_def, ht, Std.ReflOrd.compare_self, hgt] at h
  cases h

/-- One of two partitions comes first, or they are equal as far as the order goes. -/
theorem isLE_compare_total (a b : Partition) :
    ((compare a b).isLE || (compare b a).isLE) = true := by
  rw [Bool.or_eq_true]
  by_cases hab : (compare a b).isLE = true
  · exact .inl hab
  · have hba := Std.OrientedCmp.lt_of_not_isLE hab
    exact .inr (by rw [hba]; rfl)

theorem pairwise_sort (ps : List Partition) :
    (sort ps).Pairwise fun a b => (compare a b).isLE = true :=
  List.pairwise_mergeSort (fun _ _ _ => Std.TransCmp.isLE_trans) isLE_compare_total ps

/-- **Partitions in ascending order are what sorting makes of them**, whatever their order
was. -/
theorem Ascending.sort_eq (h : Ascending ps) {table : String}
    (ht : ∀ partition ∈ ps, partition.table = table) {read : List Partition}
    (hperm : read.Perm ps) : sort read = ps := by
  refine List.Perm.eq_of_pairwise ?_ (pairwise_sort read) ?_
    ((List.mergeSort_perm read _).trans hperm)
  · intro a b ha hb hab hba
    have ha := hperm.mem_iff.1 (mem_sort.1 ha)
    have heq : a.table = b.table := (ht a ha).trans (ht b hb).symm
    refine h.eq_of_value_eq ha hb (Int64.le_antisymm ?_ ?_)
    · exact value_le_of_isLE_compare heq hab
    · exact value_le_of_isLE_compare heq.symm hba
  · refine List.Pairwise.imp_of_mem (fun ha hb hlt => ?_) h
    exact isLE_compare_of_lt ((ht _ ha).trans (ht _ hb).symm) hlt

/-- Sorting puts partitions of one table with distinct values in ascending order. -/
theorem ascending_sort {table : String} (ht : ∀ partition ∈ ps, partition.table = table)
    (hnodup : (ps.map Partition.value).Nodup) : Ascending (sort ps) := by
  have hne : (sort ps).Pairwise fun a b => a.value ≠ b.value := by
    have hsorted : ((sort ps).map Partition.value).Nodup :=
      ((List.mergeSort_perm ps _).map _).nodup_iff.2 hnodup
    exact List.pairwise_map.1 (List.nodup_iff_pairwise_ne.1 hsorted)
  refine List.Pairwise.imp_of_mem (fun ha hb hab => ?_) ((pairwise_sort ps).and hne)
  refine Int64.lt_of_le_of_ne (value_le_of_isLE_compare ?_ hab.1) hab.2
  exact (ht _ (mem_sort.1 ha)).trans (ht _ (mem_sort.1 hb)).symm

/-! ### Values -/

/-- Distinct values with no gap between them, in any order. -/
structure Consecutive (values : List Int64) : Prop where
  nodup : values.Nodup
  between : ∀ low ∈ values, ∀ high ∈ values, ∀ value, low ≤ value → value ≤ high →
    value ∈ values

theorem Consecutive.perm (h : Consecutive values) {values' : List Int64}
    (hperm : values.Perm values') : Consecutive values' where
  nodup := hperm.nodup_iff.1 h.nodup
  between low hl high hh value hlow hhigh :=
    hperm.mem_iff.1 (h.between low (hperm.mem_iff.2 hl) high (hperm.mem_iff.2 hh) value hlow hhigh)

/-- There are no gaps in a sequence. -/
theorem IsSequence.consecutive (h : IsSequence ps) : Consecutive (ps.map Partition.value) := by
  refine ⟨h.ascending.nodup_values, ?_⟩
  induction ps with
  | nil => simp
  | cons a ps ih =>
      intro low hl high hh value hlow hhigh
      have hrest := ih h.tail
      by_cases hv : value = a.value
      · exact hv ▸ List.mem_cons_self
      refine List.mem_cons_of_mem _ ?_
      have hall := (List.pairwise_cons.1 h.ascending).1
      have hlow' : a.value < value := by
        refine Int64.lt_of_le_of_ne ?_ (Ne.symm hv)
        rcases List.mem_cons.1 hl with rfl | hl
        · exact hlow
        · obtain ⟨b, hb, rfl⟩ := List.mem_map.1 hl
          exact Int64.le_trans (Int64.le_of_lt (hall b hb)) hlow
      match ps with
      | [] =>
          rw [List.map_cons, List.map_nil, List.mem_singleton] at hh
          exact absurd (Int64.lt_of_lt_of_le hlow' (hh ▸ hhigh)) Int64.lt_irrefl
      | b :: ps =>
          have hb : Follows a b := (List.isChain_cons_cons.1 h).1
          have hnext : b.value ≤ value := by
            have := follows_iff.1 hb
            rw [Int64.lt_iff_toInt_lt] at hlow'
            rw [Int64.le_iff_toInt_le]
            omega
          rcases List.mem_cons.1 hh with rfl | hh
          · exact absurd (Int64.lt_of_lt_of_le hlow' hhigh) Int64.lt_irrefl
          · exact hrest b.value List.mem_cons_self high hh value hnext hhigh

/-- The least value may go. -/
theorem Consecutive.tail {least : Int64} (h : Consecutive (least :: values))
    (hleast : ∀ value ∈ values, least < value) : Consecutive values := by
  refine ⟨(List.nodup_cons.1 h.nodup).2, fun low hl high hh value hlow hhigh => ?_⟩
  have hm := h.between low (List.mem_cons_of_mem _ hl) high (List.mem_cons_of_mem _ hh) value hlow
    hhigh
  refine (List.mem_cons.1 hm).resolve_left fun heq => ?_
  exact Int64.lt_irrefl (Int64.lt_of_lt_of_le (hleast low hl) (heq ▸ hlow))

/-- There is a next value below any that is higher. -/
theorem exists_nextValue_of_lt {value high : Int64} (h : value < high) :
    ∃ next, nextValue? value = some next ∧ value ≤ next ∧ next ≤ high := by
  have hlt := Int64.lt_iff_toInt_lt.1 h
  have hhigh := high.toInt_lt
  obtain ⟨next, hnext⟩ : ∃ next, nextValue? value = some next := by
    refine Option.ne_none_iff_exists'.1 fun hnone => ?_
    have hmax : Int64.maxValue.toInt = 9223372036854775807 := by decide
    rw [nextValue?_eq_none_iff.1 hnone] at hlt
    omega
  have hval := nextValue?_eq_some_iff.1 hnext
  refine ⟨next, hnext, ?_, ?_⟩
  · rw [Int64.le_iff_toInt_le]
    omega
  · rw [Int64.le_iff_toInt_le]
    omega

/-- The second of consecutive values follows the first one, if they grow. -/
private theorem follows_of_consecutive
    (hlt : Ascending (a :: b :: ps))
    (h : Consecutive ((a :: b :: ps).map Partition.value)) : Follows a b := by
  obtain ⟨hall, hrest⟩ := List.pairwise_cons.1 hlt
  obtain ⟨next, hnext, hlow, hhigh⟩ := exists_nextValue_of_lt (hall b List.mem_cons_self)
  have hm := h.between a.value (by simp) b.value (by simp) next hlow hhigh
  -- The next value is there, and `b` has the least of those that are left.
  have hle : b.value ≤ next := by
    rcases List.mem_cons.1 hm with heq | hm
    · have hval := nextValue?_eq_some_iff.1 hnext
      have := Int64.toInt_inj.2 heq
      omega
    rcases List.mem_cons.1 hm with heq | hm
    · exact heq ▸ Int64.le_refl _
    · obtain ⟨c, hc, rfl⟩ := List.mem_map.1 hm
      exact Int64.le_of_lt ((List.pairwise_cons.1 hrest).1 c hc)
  rw [Follows, hnext, Int64.le_antisymm hhigh hle]

/-- Partitions with consecutive values are a sequence if their values grow. -/
theorem isSequence_of_consecutive (hlt : Ascending ps)
    (h : Consecutive (ps.map Partition.value)) : IsSequence ps := by
  induction ps with
  | nil => exact isSequence_nil
  | cons a ps ih =>
      obtain ⟨hall, hrest⟩ := List.pairwise_cons.1 hlt
      have hleast : ∀ value ∈ ps.map Partition.value, a.value < value := by
        simpa using hall
      have hsequence := ih hrest (h.tail hleast)
      cases ps with
      | nil => exact isSequence_singleton a
      | cons b ps => exact List.isChain_cons_cons.2 ⟨follows_of_consecutive hlt h, hsequence⟩

end Upkeep.Partition
