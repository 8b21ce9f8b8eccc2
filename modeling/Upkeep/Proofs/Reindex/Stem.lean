import Upkeep.Proofs.Reindex.Identity
import Upkeep.Proofs.Reindex.Leftover
import Upkeep.Proofs.Reindex.Removal

/-!
# The names of leftovers

The name of a leftover is the name of the index that was being rebuilt, with the suffix of building
and a number if that name was taken.  What was being rebuilt may have been a leftover itself, so
there may be several suffixes in a name.  But nothing except digits follows at most one of them,
the last one, so a name tells which index it is derived from.

## Main Definitions

* `IsBuiltFrom` — a name is derived from another one, with a number or without.

## Main Statements

* `isLeftover_iff_isBuiltFrom` — leftovers have the derived names.
* `IsBuiltFrom.isPrefix`, `IsBuiltFrom.unique` — the suffix is the last one, and there is one
  derivation.
* `leftover_names_divide` — what this says about indexes.
-/

namespace Upkeep.Index

variable {name stem number : String} {leftover index : Index}

/-! ### Names -/

/-- The name is derived from the stem by the suffix of building, and a number or nothing. -/
structure IsBuiltFrom (name stem number : String) : Prop where
  name_eq : name = stem ++ "_ccnew" ++ number
  numeric : ∀ c ∈ number.toList, c.isDigit = true

theorem eq_append_suffix_iff {front back : String} :
    name = front ++ "_ccnew" ++ back ↔
      name.toList = front.toList ++ (buildSuffix ++ back.toList) := by
  rw [← String.toList_inj, String.toList_append, String.toList_append, List.append_assoc]
  rfl

namespace IsBuiltFrom

theorem toList_eq (h : IsBuiltFrom name stem number) :
    name.toList = stem.toList ++ (buildSuffix ++ number.toList) :=
  eq_append_suffix_iff.1 h.name_eq

/-- No suffix begins in the number, nor within the suffix before it. -/
theorem not_mem (h : IsBuiltFrom name stem number) : '_' ∉ "ccnew".toList ++ number.toList :=
  underscore_not_mem (List.all_eq_true.2 h.numeric)

/-- The number is what follows the last suffix. -/
theorem afterLast?_eq (h : IsBuiltFrom name stem number) :
    Text.afterLast? buildSuffix name.toList = some number.toList := by
  rw [h.toList_eq]
  exact Text.afterLast?_of_not_mem h.not_mem stem.toList

/-- No suffix is later than the one behind the stem. -/
theorem isPrefix (h : IsBuiltFrom name stem number) {front back : String}
    (occurs : name = front ++ "_ccnew" ++ back) : front.toList <+: stem.toList :=
  Text.isPrefix_of_last h.not_mem (h.toList_eq.symm.trans (eq_append_suffix_iff.1 occurs))

/-- **A name is derived in one way** at most. -/
theorem unique {stem' number' : String} (h : IsBuiltFrom name stem number)
    (h' : IsBuiltFrom name stem' number') : stem = stem' ∧ number = number' := by
  obtain ⟨stems, numbers⟩ :=
    Text.eq_of_last h.not_mem h'.not_mem (h.toList_eq.symm.trans h'.toList_eq)
  exact ⟨String.toList_inj.1 stems, String.toList_inj.1 numbers⟩

end IsBuiltFrom

/-! ### Indexes -/

/-- **Leftovers have the derived names.** -/
theorem isLeftover_iff_isBuiltFrom :
    index.isLeftover = true ↔ ∃ stem number, IsBuiltFrom index.name stem number := by
  rw [isLeftover_iff]
  constructor
  · rintro ⟨stem, digits, name, numeric⟩
    refine ⟨.ofList stem, .ofList digits, eq_append_suffix_iff.2 ?_, ?_⟩
    · rw [String.toList_ofList, String.toList_ofList]
      exact name
    · rw [String.toList_ofList]
      exact List.all_eq_true.1 numeric
  · rintro ⟨stem, number, built⟩
    exact ⟨stem.toList, number.toList, built.toList_eq, List.all_eq_true.2 built.numeric⟩

/-- What a rebuild leaves behind has a name that is derived from that of the index. -/
theorem isLeftoverOf_iff :
    leftover.IsLeftoverOf index ↔ leftover.database = index.database ∧
      leftover.schema = index.schema ∧ ∃ number, IsBuiltFrom leftover.name index.name number := by
  refine and_congr_right fun _ => and_congr_right fun _ => ⟨?_, ?_⟩
  · rintro ⟨digits, numeric, name⟩
    refine ⟨.ofList digits, eq_append_suffix_iff.2 ?_, ?_⟩
    · rw [String.toList_ofList, ← List.append_assoc]
      exact name
    · rw [String.toList_ofList]
      exact List.all_eq_true.1 numeric
  · rintro ⟨number, built⟩
    refine ⟨number.toList, List.all_eq_true.2 built.numeric, ?_⟩
    rw [List.append_assoc]
    exact built.toList_eq

/-- **The name of a leftover divides in one way.**  An index is a leftover if and only if its name
is a stem with the suffix of building and nothing but digits behind it.  Then that is the last
suffix in the name, what follows it is the number, and there are no other stem and number.  So the
leftovers are what rebuilds leave behind, and each of them tells which index it belongs to. -/
theorem leftover_names_divide (leftover : Index) :
    (leftover.isLeftover = true ↔ ∃ stem number, IsBuiltFrom leftover.name stem number) ∧
    (∀ stem number, IsBuiltFrom leftover.name stem number →
      Text.afterLast? buildSuffix leftover.name.toList = some number.toList ∧
      (∀ front back : String, leftover.name = front ++ "_ccnew" ++ back →
        front.toList <+: stem.toList) ∧
      ∀ stem' number', IsBuiltFrom leftover.name stem' number' →
        stem' = stem ∧ number' = number) ∧
    (leftover.isLeftover = true ↔ ∃ index, leftover.IsLeftoverOf index) ∧
    ∀ one other : Index, leftover.IsLeftoverOf one → leftover.IsLeftoverOf other →
      one.Same other := by
  refine ⟨isLeftover_iff_isBuiltFrom, fun stem number built => ?_, ?_, fun one other h h' => ?_⟩
  · exact ⟨built.afterLast?_eq, fun front back => built.isPrefix,
      fun stem' number' built' => built'.unique built⟩
  · rw [isLeftover_iff_isBuiltFrom]
    constructor
    · rintro ⟨stem, number, built⟩
      exact ⟨{ leftover with name := stem }, isLeftoverOf_iff.2 ⟨rfl, rfl, number, built⟩⟩
    · rintro ⟨index, h⟩
      obtain ⟨-, -, number, built⟩ := isLeftoverOf_iff.1 h
      exact ⟨index.name, number, built⟩
  · obtain ⟨database, schema, number, built⟩ := isLeftoverOf_iff.1 h
    obtain ⟨database', schema', number', built'⟩ := isLeftoverOf_iff.1 h'
    exact ⟨database.symm.trans database', schema.symm.trans schema', (built.unique built').1⟩

/-- A leftover of a leftover belongs to the first leftover, and not to the index of that one. -/
theorem leftover_names_divide_nested :
    let leftover : Index := ⟨"main", "public", "a_ccnew_ccnew12", 0, none, false, true⟩
    IsBuiltFrom leftover.name "a_ccnew" "12" ∧ leftover.isLeftover = true ∧
      Text.afterLast? buildSuffix leftover.name.toList = some "12".toList ∧
      leftover.name = "a" ++ "_ccnew" ++ "_ccnew12" ∧ "a".toList <+: "a_ccnew".toList ∧
      ¬IsBuiltFrom leftover.name "a" "_ccnew12" := by
  intro leftover
  have built : IsBuiltFrom leftover.name "a_ccnew" "12" :=
    ⟨by decide, List.all_eq_true.1 (by decide)⟩
  obtain ⟨leftover_iff, divided, -⟩ := leftover_names_divide leftover
  obtain ⟨last, earlier, only⟩ := divided "a_ccnew" "12" built
  have occurs : leftover.name = "a" ++ "_ccnew" ++ "_ccnew12" := by decide
  refine ⟨built, leftover_iff.2 ⟨_, _, built⟩, last, occurs, earlier _ _ occurs, fun other => ?_⟩
  exact absurd (only _ _ other).1 (by decide)

end Upkeep.Index
