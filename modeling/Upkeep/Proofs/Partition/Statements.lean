import Upkeep.Proofs.Partition.InOrder

/-!
# The statements of partition upkeep

Upkeep makes four kinds of statements that concern a list's table, and each of them in
certain catalogs only.  `Fits` says which; everything that holds after every statement is
derived from it.

## Main Definitions

* `Fits` — the statements that upkeep makes in a catalog.
* `Advance` — from one catalog to a later one, the values only ever grow.
* `attachedValue?` — the value of the partition that a statement creates.

## Main Statements

* `Fits.inOrder` — a fitting statement keeps the table in order.
* `Fits.advance`, `Fits.kept` — what it does to the values, and to the highest one.
* `Fits.created` — what it creates is higher than all values before.

## Design Notes

`Advance` relates catalogs that are any number of statements apart, because it is
transitive.  That a value which is gone does not come back follows from it: what is new
is higher than all that was there, and something at least as high as the value still is.
-/

namespace Upkeep.Partition

variable {list : SlidingList} {catalog catalog' catalog'' : Catalog} {sql : String}

/-- The statements of upkeep, each in the catalogs in which it is made. -/
inductive Fits (list : SlidingList) (catalog : Catalog) : String → Prop where
  /-- A statement that is no partition statement. -/
  | idle {sql : String} (change : Sql.Change.ofSql? sql = none) : Fits list catalog sql
  /-- The next partition is created. -/
  | create {ps : List Partition} {partition : Partition} (roster : Roster list catalog ps)
      (next : IsNext list ps partition) : Fits list catalog partition.createStatement.text
  /-- The default moves to the last partition. -/
  | moveDefault {ps : List Partition} {last : Partition} (roster : Roster list catalog ps)
      (getLast : ps.getLast? = some last) :
      Fits list catalog (list.setDefaultStatement last.value).text
  /-- The first partition is detached when the default is at the last one, which is
  another. -/
  | detach {partition : Partition} {ps : List Partition} {last : Partition}
      (roster : Roster list catalog (partition :: ps)) (getLast : ps.getLast? = some last)
      (default : DefaultsTo list catalog last.value) :
      Fits list catalog partition.detachStatement.text

theorem Fits.setLockTimeout (list : SlidingList) (catalog : Catalog) (millis : Nat) :
    Fits list catalog (Sql.Statement.setLockTimeout millis).text :=
  .idle (Sql.ofSql?_setLockTimeout millis)

theorem Fits.resetLockTimeout (list : SlidingList) (catalog : Catalog) :
    Fits list catalog Sql.Statement.resetLockTimeout.text :=
  .idle Sql.ofSql?_resetLockTimeout

/-- A fitting statement keeps the table in order. -/
theorem Fits.inOrder (h : Fits list catalog sql) (hplain : list.IsPlain)
    (horder : InOrder list catalog) : InOrder list (catalog.execute sql) := by
  cases h with
  | idle hchange => rwa [Catalog.execute_of_none hchange]
  | @create ps partition roster next =>
      obtain ⟨hroster, hdefault⟩ := roster.create hplain next
      refine inOrder_iff.2 ⟨_, hroster, (roster.isSequence horder).concat next.follows, ?_⟩
      -- The default is where it was, which is at one of the partitions before.
      cases hd : catalog.default? list.table list.column with
      | none => exact .inl (by rw [hdefault, hd])
      | some expression =>
          obtain ⟨value, hm, hread⟩ := horder.default expression hd
          obtain ⟨other, ho, rfl⟩ := roster.mem_values.1 hm
          exact .inr ⟨other, List.mem_append_left _ ho, expression, by rw [hdefault, hd], hread⟩
  | @moveDefault ps last roster getLast =>
      obtain ⟨hroster, hdefault⟩ := roster.moveDefault hplain last.value
      exact inOrder_iff.2 ⟨_, hroster, roster.isSequence horder,
        .inr ⟨last, List.mem_of_getLast? getLast, _, hdefault, Condition.default?_ofInt64 _⟩⟩
  | @detach partition ps last roster getLast default =>
      obtain ⟨hroster, hdefault⟩ := roster.detach hplain
      obtain ⟨expression, hd, hread⟩ := default
      exact inOrder_iff.2 ⟨_, hroster, (roster.isSequence horder).tail,
        .inr ⟨last, List.mem_of_getLast? getLast, expression, by rw [hdefault, hd], hread⟩⟩

/-! ### What becomes of the values -/

/-- From one catalog to a later one: there is still something as high as each value, and
what is new is higher than all values that were there. -/
structure Advance (table : String) (catalog catalog' : Catalog) : Prop where
  risen : ∀ value ∈ catalog.values table, ∃ value' ∈ catalog'.values table, value ≤ value'
  fresh : ∀ value' ∈ catalog'.values table, value' ∉ catalog.values table →
    ∀ value ∈ catalog.values table, value < value'

namespace Advance

variable {table : String}

theorem refl (table : String) (catalog : Catalog) : Advance table catalog catalog :=
  ⟨fun value hm => ⟨value, hm, Int64.le_refl _⟩, fun _ hm hn => absurd hm hn⟩

theorem trans (h : Advance table catalog catalog') (h' : Advance table catalog' catalog'') :
    Advance table catalog catalog'' := by
  refine ⟨fun value hm => ?_, fun value'' hm'' hn value hm => ?_⟩
  · obtain ⟨value', hm', hle⟩ := h.risen value hm
    obtain ⟨value'', hm'', hle'⟩ := h'.risen value' hm'
    exact ⟨value'', hm'', Int64.le_trans hle hle'⟩
  · by_cases hm' : value'' ∈ catalog'.values table
    · exact h.fresh value'' hm' hn value hm
    · obtain ⟨value', hm₁, hle⟩ := h.risen value hm
      exact Int64.lt_of_le_of_lt hle (h'.fresh value'' hm'' hm' value' hm₁)

/-- A value that is gone does not come back. -/
theorem gone (h : Advance table catalog catalog') (h' : Advance table catalog' catalog'')
    {value : Int64} (hm : value ∈ catalog.values table) (hgone : value ∉ catalog'.values table) :
    value ∉ catalog''.values table := by
  intro hback
  obtain ⟨value', hm', hle⟩ := h.risen value hm
  exact Int64.lt_irrefl (Int64.lt_of_le_of_lt hle (h'.fresh value hback hgone value' hm'))

end Advance

/-- The values after a statement by those of the rosters before and after it. -/
private theorem advance_of_rosters {ps ps' : List Partition} (h : Roster list catalog ps)
    (h' : Roster list catalog' ps')
    (risen : ∀ a ∈ ps, ∃ b ∈ ps', a.value ≤ b.value)
    (fresh : ∀ b ∈ ps', b ∈ ps ∨ ∀ a ∈ ps, a.value < b.value) :
    Advance list.table catalog catalog' := by
  refine ⟨fun value hm => ?_, fun value' hm' hn value hm => ?_⟩
  · obtain ⟨a, ha, rfl⟩ := h.mem_values.1 hm
    obtain ⟨b, hb, hle⟩ := risen a ha
    exact ⟨b.value, h'.mem_values.2 ⟨b, hb, rfl⟩, hle⟩
  · obtain ⟨b, hb, rfl⟩ := h'.mem_values.1 hm'
    obtain ⟨a, ha, rfl⟩ := h.mem_values.1 hm
    refine (fresh b hb).resolve_left (fun hold => hn ?_) a ha
    exact h.mem_values.2 ⟨b, hold, rfl⟩

/-- A fitting statement lets the values only grow. -/
theorem Fits.advance (h : Fits list catalog sql) (hplain : list.IsPlain) :
    Advance list.table catalog (catalog.execute sql) := by
  cases h with
  | idle hchange =>
      rw [Catalog.execute_of_none hchange]
      exact .refl _ _
  | @create ps partition roster next =>
      obtain ⟨hroster, -⟩ := roster.create hplain next
      refine advance_of_rosters roster hroster
        (fun a ha => ⟨a, List.mem_append_left _ ha, Int64.le_refl _⟩) fun b hb => ?_
      rcases List.mem_append.1 hb with hb | hb
      · exact .inl hb
      · exact .inr fun a ha =>
          (List.pairwise_append.1 hroster.ascending).2.2 a ha b hb
  | @moveDefault ps last roster getLast =>
      exact advance_of_rosters roster (roster.moveDefault hplain last.value).1
        (fun a ha => ⟨a, ha, Int64.le_refl _⟩) fun b hb => .inl hb
  | @detach partition ps last roster getLast default =>
      refine advance_of_rosters roster (roster.detach hplain).1 (fun a ha => ?_)
        fun b hb => .inl (List.mem_cons_of_mem _ hb)
      refine ⟨last, List.mem_of_getLast? getLast, roster.ascending.le_getLast ?_ ha⟩
      rw [List.getLast?_cons, getLast]
      rfl

/-- The listing of the highest value. -/
def IsHighest (table : String) (catalog : Catalog) (listing : Listing) : Prop :=
  listing ∈ catalog.partitions table ∧
    ∃ value, Condition.parse listing.condition = .ok value ∧
      ∀ other ∈ catalog.values table, other ≤ value

/-- No fitting statement detaches the partition of the highest value. -/
theorem Fits.kept (h : Fits list catalog sql) (hplain : list.IsPlain) {listing : Listing}
    (hhigh : IsHighest list.table catalog listing) :
    listing ∈ (catalog.execute sql).partitions list.table := by
  obtain ⟨hl, value, hparse, hmax⟩ := hhigh
  cases h with
  | idle hchange => rwa [Catalog.execute_of_none hchange]
  | @create ps partition roster next =>
      rw [Roster.execute_create catalog hplain next]
      exact Catalog.mem_partitions_attach hl _
  | @moveDefault ps last roster getLast =>
      rw [Roster.execute_moveDefault catalog hplain last.value]
      exact hl
  | @detach partition ps last roster getLast default =>
      rw [roster.execute_detach hplain List.mem_cons_self, Catalog.partitions_detach,
        List.mem_filter]
      refine ⟨hl, ?_⟩
      rw [Bool.not_eq_true', ← Bool.not_eq_true, Bool.and_eq_true, beq_iff_eq, beq_iff_eq]
      rintro ⟨-, hn⟩
      obtain ⟨other, ho, -, hn', hread⟩ := roster.exists_partition hl
      obtain rfl := roster.eq_of_name_eq ho List.mem_cons_self (hn'.trans hn)
      -- Then the first partition had the highest value, but the last one's is higher.
      obtain rfl : value = other.value :=
        Except.ok.inj (hparse.symm.trans (ofListing_eq_ok_iff.1 hread).1)
      have hlast := List.mem_of_getLast? getLast
      have hlt := (List.pairwise_cons.1 roster.ascending).1 last hlast
      have hle := hmax last.value
        (roster.mem_values.2 ⟨last, List.mem_cons_of_mem _ hlast, rfl⟩)
      exact Int64.lt_irrefl (Int64.lt_of_lt_of_le hlt hle)

/-- The value of the partition of the list's table that a statement creates. -/
def attachedValue? (list : SlidingList) (sql : String) : Option Int64 :=
  match Sql.Change.ofSql? sql with
  | some (.attach table _ _ condition) =>
      if table = list.table then (Condition.parse condition).toOption else none
  | _ => none

/-- What a fitting statement creates has a value that is higher than all before, and then
it is attached. -/
theorem Fits.created (h : Fits list catalog sql) (hplain : list.IsPlain) {value : Int64}
    (hv : attachedValue? list sql = some value) :
    (∀ other ∈ catalog.values list.table, other < value) ∧
      value ∈ (catalog.execute sql).values list.table := by
  cases h with
  | idle hchange => simp [attachedValue?, hchange] at hv
  | @create ps partition roster next =>
      obtain ⟨hroster, -⟩ := roster.create hplain next
      rw [attachedValue?, Roster.ofSql?_createStatement hplain next] at hv
      simp only [if_true, Condition.parse_writtenBound] at hv
      obtain rfl : partition.value = value := Option.some.inj hv
      refine ⟨fun other hm => ?_, hroster.mem_values.2 ⟨partition, by simp, rfl⟩⟩
      obtain ⟨a, ha, rfl⟩ := roster.mem_values.1 hm
      exact (List.pairwise_append.1 hroster.ascending).2.2 a ha partition (by simp)
  | @moveDefault ps last roster getLast =>
      simp [attachedValue?, SlidingList.setDefaultStatement,
        Sql.ofSql?_setDefault hplain.table hplain.column last.value] at hv
  | @detach partition ps last roster getLast default =>
      simp [attachedValue?, roster.ofSql?_detachStatement hplain List.mem_cons_self] at hv

end Upkeep.Partition
