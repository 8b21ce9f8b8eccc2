import Upkeep.Proofs.Reindex.Choice
import Upkeep.Proofs.Reindex.Conduct

/-!
# What indexes are known by

The history knows an index by its database and its identifier, and leases know it by a key.  Both
are texts that are joined with separators, and the parts may hold the separators themselves.  So
there are indexes that are known by the same text although their parts differ: a separator within
a part of one is taken for the separator between the parts of the other.

## Main Definitions

* `Overlap` — two different pairs of texts that are the same when they are joined.
* `Index.Same` — the indexes of one name in one schema of one database.
* `Memory.record` — a store in memory after attempts on an index.

## Main Statements

* `identifier_eq_iff`, `leaseKey_eq_iff` — the indexes that are taken for one another.
* `Selection.chosen_record_iff` — which difference the attempts on one index make to another.
-/

namespace Upkeep

open Simulation

/-! ### Joined texts -/

/-- Two pairs of texts whose parts differ and that are the same when they are joined: the
separator within one part is that between the parts of the other pair. -/
def Overlap (separator a b c d : String) : Prop :=
  (∃ middle, a = c ++ separator ++ middle ∧ d = middle ++ separator ++ b) ∨
    ∃ middle, c = a ++ separator ++ middle ∧ b = middle ++ separator ++ d

private theorem append_cons_eq_append_cons_iff {α : Type} {s : α} {a b c d : List α} :
    a ++ s :: b = c ++ s :: d ↔ (a = c ∧ b = d) ∨
      (∃ middle, a = c ++ s :: middle ∧ d = middle ++ s :: b) ∨
        ∃ middle, c = a ++ s :: middle ∧ b = middle ++ s :: d := by
  constructor
  · intro same
    rcases List.append_eq_append_iff.1 same with ⟨rest, rfl, hrest⟩ | ⟨rest, rfl, hrest⟩
    · cases rest with
      | nil => exact .inl ⟨(List.append_nil a).symm, (List.cons.inj hrest).2⟩
      | cons first middle =>
          obtain ⟨rfl, rfl⟩ := List.cons.inj hrest
          exact .inr (.inr ⟨middle, rfl, rfl⟩)
    · cases rest with
      | nil => exact .inl ⟨List.append_nil c, (List.cons.inj hrest).2.symm⟩
      | cons first middle =>
          obtain ⟨rfl, rfl⟩ := List.cons.inj hrest
          exact .inr (.inl ⟨middle, rfl, rfl⟩)
  · rintro (⟨rfl, rfl⟩ | ⟨middle, rfl, rfl⟩ | ⟨middle, rfl, rfl⟩) <;> simp

/-- Two pairs are the same when they are joined, if they are the same or overlap. -/
theorem join_eq_join_iff {separator : String} {s : Char} (single : separator.toList = [s])
    {a b c d : String} :
    a ++ separator ++ b = c ++ separator ++ d ↔ (a = c ∧ b = d) ∨ Overlap separator a b c d := by
  have toList (x y : String) : (x ++ separator ++ y).toList = x.toList ++ s :: y.toList := by
    simp [single]
  have split (x y z : String) : x = y ++ separator ++ z ↔ x.toList = y.toList ++ s :: z.toList := by
    rw [← toList, String.toList_inj]
  have exists_iff {p : List Char → Prop} : (∃ m, p m) ↔ ∃ m : String, p m.toList :=
    ⟨fun ⟨m, h⟩ => ⟨.ofList m, by rwa [String.toList_ofList]⟩, fun ⟨m, h⟩ => ⟨_, h⟩⟩
  rw [← String.toList_inj, toList, toList, append_cons_eq_append_cons_iff, exists_iff, exists_iff]
  simp only [Overlap, split, String.toList_inj]

/-! ### Indexes -/

/-- The indexes have the same name in the same schema of the same database. -/
structure Index.Same (one other : Index) : Prop where
  database : one.database = other.database
  schema : one.schema = other.schema
  name : one.name = other.name

variable {one other : Index}

theorem Index.identifier_eq_iff :
    one.identifier = other.identifier ↔
      (one.schema = other.schema ∧ one.name = other.name) ∨
        Overlap "." one.schema one.name other.schema other.name :=
  join_eq_join_iff (s := '.') rfl

/-- Two indexes are found at one address if they are the same, or in one database and their
identifiers overlap. -/
theorem Index.address_eq_iff :
    one.address = other.address ↔
      one.Same other ∨ (one.database = other.database ∧
        Overlap "." one.schema one.name other.schema other.name) := by
  rw [address, address, Prod.mk.injEq, identifier_eq_iff, and_or_left]
  refine or_congr_left ⟨?_, fun same => ⟨same.database, same.schema, same.name⟩⟩
  rintro ⟨database, schema, name⟩
  exact ⟨database, schema, name⟩

/-- The leases for two indexes have one key if the indexes have one address, or if their addresses
overlap. -/
theorem Coordinator.leaseKey_eq_iff {coordinator coordinator' : Coordinator}
    (same : coordinator.settings = coordinator'.settings)
    (scope : coordinator'.settings.scope = .perIndex) :
    coordinator.leaseKey one = coordinator'.leaseKey other ↔
      one.address = other.address ∨
        Overlap "/" one.database one.identifier other.database other.identifier := by
  have key (index : Index) : (coordinator'.settings.keyspace ++ "/" ++ index.database ++ "/" ++
      index.identifier) = coordinator'.settings.keyspace ++ "/" ++
        (index.database ++ "/" ++ index.identifier) := by
    simp only [String.append_assoc]
  simp only [leaseKey, same, scope, key, String.append_right_inj]
  rw [join_eq_join_iff (s := '/') rfl, Index.address, Index.address, Prod.mk.injEq]

/-! ### Histories -/

namespace Memory

variable {memory : Memory} {attempts : List (Uuid × UInt64)}

/-- A store in memory after attempts on an index, each with its id and its time. -/
def record (memory : Memory) (index : Index) (attempts : List (Uuid × UInt64)) : Memory :=
  attempts.foldl (fun memory attempt => memory.put (.start attempt.1 index attempt.2)) memory

/-- Each attempt has an id of its own. -/
structure Admits (memory : Memory) (attempts : List (Uuid × UInt64)) : Prop where
  nodup : (attempts.map Prod.fst).Nodup
  unused : ∀ attempt ∈ attempts, memory.load attempt.1 = none

theorem actions_record (admits : memory.Admits attempts) (index : Index) :
    (memory.record index attempts).actions =
      memory.actions ++ attempts.map fun attempt => .start attempt.1 index attempt.2 := by
  induction attempts generalizing memory with
  | nil => simp [record]
  | cons attempt rest ih =>
      obtain ⟨other, nodup⟩ := List.nodup_cons.1 admits.nodup
      obtain ⟨unused, rest_unused⟩ := List.forall_mem_cons.1 admits.unused
      have put : memory.put (.start attempt.1 index attempt.2) =
          ⟨memory.actions ++ [.start attempt.1 index attempt.2]⟩ := by
        rw [Memory.put, if_neg (by simp [Action.start, unused])]
      have admits' : (memory.put (.start attempt.1 index attempt.2)).Admits rest := by
        refine ⟨nodup, fun later mem => ?_⟩
        have ne : later.1 ≠ attempt.1 := fun same => other (same ▸ List.mem_map_of_mem mem)
        rw [load_put]
        exact (if_neg ne).trans (rest_unused later mem)
      rw [record, List.foldl_cons, ← record, ih admits', put, List.map_cons, List.append_assoc,
        List.singleton_append]

end Memory

namespace Selection

variable {thresholds : Thresholds} {now : UInt64} {world : World} {past : List Action}
  {memory : Memory} {attempts : List (Uuid × UInt64)} {candidates : List Index} {maximum : Nat}

/-- The index is among those that are chosen. -/
def Chosen (thresholds : Thresholds) (candidates : List Index) (now : UInt64) (maximum : Nat)
    (world : World) (index : Index) : Prop :=
  ∃ chosen, ((select thresholds candidates now maximum).toJob.run
    World.answer World.elapse world).1 = .ok (.ok chosen) ∧ index ∈ chosen

/-- Without a limit a candidate is chosen if it is worth a rebuild and has no recent action. -/
theorem chosen_iff (recalls : world.Recalls past) (unlimited : candidates.length ≤ maximum)
    (index : Index) :
    Chosen thresholds candidates now maximum world index ↔
      (index ∈ candidates ∧ thresholds.accept index = true) ∧
        ¬ ∃ action ∈ past, action.address = index.address ∧
          thresholds.cutoff now ≤ action.started := by
  have short : ((candidates.filter thresholds.accept).filter fun index =>
      !Listing.recent world.listActions thresholds now index).length ≤ maximum :=
    (List.length_filter_le ..).trans ((List.length_filter_le ..).trans unlimited)
  have chosen : Chosen thresholds candidates now maximum world index ↔
      index ∈ rank maximum ((candidates.filter thresholds.accept).filter fun index =>
        !Listing.recent world.listActions thresholds now index) := by
    rw [Chosen, run_select_eq, fresh_of_recalls recalls]
    simp [Except.map]
  rw [chosen, (ranking_rank short).perm.mem_iff, List.mem_filter, List.mem_filter,
    Bool.not_eq_true', ← Bool.not_eq_true, recent_eq_true_iff recalls]
  simp only [Action.address, Index.address, Prod.mk.injEq]

/-- **What the attempts on one index change for another one**: it is not chosen any more if it has
the same address and one of the attempts is recent. -/
theorem chosen_record_iff (stored : world.actions = .memory memory)
    (reachable : world.storeFaults.list = false) (admits : memory.Admits attempts)
    (unlimited : candidates.length ≤ maximum) (one other : Index) :
    Chosen thresholds candidates now maximum
        { world with actions := .memory (memory.record one attempts) } other ↔
      Chosen thresholds candidates now maximum world other ∧
        ¬ (one.address = other.address ∧
          ∃ attempt ∈ attempts, thresholds.cutoff now ≤ attempt.2) := by
  have recalls : World.Recalls { world with actions := .memory (memory.record one attempts) }
      (memory.record one attempts).actions := World.recalls_memory rfl reachable
  rw [chosen_iff recalls unlimited, chosen_iff (World.recalls_memory stored reachable) unlimited,
    Memory.actions_record admits]
  simp only [List.mem_append, List.mem_map, or_and_right, exists_or, not_or, and_assoc]
  refine and_congr_right fun _ => and_congr_right fun _ => and_congr_right fun _ => not_congr ?_
  constructor
  · rintro ⟨_, ⟨attempt, mem, rfl⟩, same, le⟩
    exact ⟨same, attempt, mem, le⟩
  · rintro ⟨same, attempt, mem, le⟩
    exact ⟨_, ⟨attempt, mem, rfl⟩, same, le⟩

/-- Attempts on one index never change whether another one is chosen, if there is no limit. -/
def Undisturbed (one other : Index) : Prop :=
  ∀ (thresholds : Thresholds) (world : World) (memory : Memory)
    (attempts : List (Uuid × UInt64)) (candidates : List Index) (now : UInt64) (maximum : Nat),
    world.actions = .memory memory → world.storeFaults.list = false → memory.Admits attempts →
    candidates.length ≤ maximum →
      (Chosen thresholds candidates now maximum
          { world with actions := .memory (memory.record one attempts) } other ↔
        Chosen thresholds candidates now maximum world other)

/-- **An index is not disturbed by those at other addresses**, and by those at its own it is, if it
is worth a rebuild at all. -/
theorem undisturbed_iff :
    Undisturbed one other ↔
      ((∃ thresholds : Thresholds, thresholds.accept other = true) →
        one.address ≠ other.address) := by
  constructor
  · rintro undisturbed ⟨thresholds, accepted⟩ same
    -- An attempt when time began hides an index that nothing was done to before.
    let attempts : List (Uuid × UInt64) := [(.ofNat 0, 0)]
    have admits : Memory.Admits {} attempts := ⟨List.nodup_singleton _, fun _ _ => rfl⟩
    have unlimited : [other].length ≤ 1 := Nat.le_refl 1
    have chosen : Chosen thresholds [other] 0 1 { actions := .memory {} } other := by
      rw [chosen_iff (World.recalls_memory rfl rfl) unlimited]
      exact ⟨⟨List.mem_singleton_self _, accepted⟩, by simp⟩
    have stays := (undisturbed thresholds { actions := .memory {} } {} attempts [other] 0 1 rfl rfl
      admits unlimited).2 chosen
    rw [chosen_record_iff rfl rfl admits unlimited] at stays
    refine stays.2 ⟨same, (.ofNat 0, 0), List.mem_singleton_self _, ?_⟩
    rw [UInt64.le_iff_toNat_le, Thresholds.toNat_cutoff_eq]
    exact Nat.sub_le ..
  · intro apart thresholds world memory attempts candidates now maximum stored reachable admits
      unlimited
    rw [chosen_record_iff stored reachable admits unlimited]
    refine and_iff_left_of_imp fun chosen same => ?_
    have accepted := ((chosen_iff (World.recalls_memory stored reachable) unlimited other).1
      chosen).1.2
    exact apart ⟨thresholds, accepted⟩ same.1

end Selection

end Upkeep
