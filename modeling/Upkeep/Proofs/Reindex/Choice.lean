import Upkeep.Proofs.Reindex.Crash
import Upkeep.Proofs.Reindex.Rebuilds
import Upkeep.Proofs.Reindex.Recent
import Upkeep.Proofs.Stability

/-!
# The choice of indexes

Of the candidates those are admitted that are worth a rebuild and were left alone for as long as
the window is.  The admitted ones are ranked by what a rebuild may win back, equal ones in the
order of the candidates, and the first ones are chosen.

## Main Definitions

* `Rested`, `Admissible` — what an index must be like to be chosen.
* `Ranking` — some indexes, the most bloated first, and equal ones as they were.
* `World.Recalls` — a store that lists the actions of the past.

## Main Statements

* `Ranking.unique` — there is one ranking only.
* `Selection.not_recent_eq_rested` — the candidates that are left when the recent ones are skipped.
* `Selection.chooses_first_ranked` — the choice is the beginning of the ranking.
-/

namespace Upkeep

open Simulation

/-! ### What may be chosen -/

namespace Thresholds

variable {thresholds : Thresholds} {now : UInt64}

theorem accept_iff_eligible {index : Index} :
    thresholds.accept index = true ↔ Eligible thresholds index := by
  refine ⟨eligible_of_accept, fun eligible => ?_⟩
  obtain ⟨ratio, known, enough⟩ := eligible.bloated
  simp only [accept, eligible.valid, eligible.notLeftover, eligible.large, eligible.small, known,
    enough, decide_true, Bool.not_false, Bool.and_self]

/-- The window ends when time began if it is longer than that. -/
theorem toNat_cutoff (window : thresholds.recent.millis < UInt64.size) (now : UInt64) :
    (thresholds.cutoff now).toNat = now.toNat - thresholds.recent.millis := by
  rw [toNat_cutoff_eq, Duration.millis64, UInt64.toNat_ofNat_of_lt' window]

end Thresholds

variable {thresholds : Thresholds} {now : UInt64} {past : List Action} {index : Index}

/-- No attempt on the index has started since the window began. -/
def Rested (thresholds : Thresholds) (now : UInt64) (past : List Action) (index : Index) : Prop :=
  ∀ action ∈ past, action.database = index.database → action.index = index.identifier →
    action.started.toNat < now.toNat - thresholds.recent.millis

instance : Decidable (Rested thresholds now past index) :=
  inferInstanceAs (Decidable (∀ action ∈ past, _))

/-- An index may be chosen: it is worth a rebuild, and it has rested. -/
structure Admissible (thresholds : Thresholds) (now : UInt64) (past : List Action)
    (index : Index) : Prop where
  eligible : Eligible thresholds index
  rested : Rested thresholds now past index

theorem admissible_iff :
    Admissible thresholds now past index ↔
      thresholds.accept index = true ∧ Rested thresholds now past index := by
  rw [Thresholds.accept_iff_eligible]
  exact ⟨fun h => ⟨h.eligible, h.rested⟩, fun h => ⟨h.1, h.2⟩⟩

instance : Decidable (Admissible thresholds now past index) :=
  decidable_of_iff _ admissible_iff.symm

/-- Only what was done to the index itself matters. -/
theorem Admissible.congr {past' : List Action}
    (same : ∀ action : Action, action.database = index.database →
      action.index = index.identifier → (action ∈ past' ↔ action ∈ past)) :
    Admissible thresholds now past' index ↔ Admissible thresholds now past index := by
  rw [admissible_iff, admissible_iff]
  refine and_congr_right fun _ => ⟨fun rested action mem hdatabase hindex => ?_,
    fun rested action mem hdatabase hindex => ?_⟩
  · exact rested action ((same action hdatabase hindex).2 mem) hdatabase hindex
  · exact rested action ((same action hdatabase hindex).1 mem) hdatabase hindex

/-! ### Rankings -/

/-- The indexes in another order: the most bloated first, and those that are equally bloated as
they were. -/
structure Ranking (indexes ranked : List Index) : Prop where
  perm : ranked.Perm indexes
  descending : ranked.Pairwise fun a b => b.bloatEstimate ≤ a.bloatEstimate
  keepsOrder : ∀ bytes, ranked.filter (fun index => index.bloatEstimate = bytes) =
    indexes.filter fun index => index.bloatEstimate = bytes

section Descending

variable {a b : List Index}

private theorem mem_iff_of_filter_eq
    (same : ∀ bytes, a.filter (fun index => index.bloatEstimate = bytes) =
      b.filter fun index => index.bloatEstimate = bytes) (index : Index) :
    index ∈ a ↔ index ∈ b := by
  have filtered := congrArg (index ∈ ·) (same index.bloatEstimate)
  simpa [List.mem_filter] using filtered

/-- Two lists are equal if both descend and have the same indexes of every bloat. -/
private theorem eq_of_filter_eq
    (ha : a.Pairwise fun x y => y.bloatEstimate ≤ x.bloatEstimate)
    (hb : b.Pairwise fun x y => y.bloatEstimate ≤ x.bloatEstimate)
    (same : ∀ bytes, a.filter (fun index => index.bloatEstimate = bytes) =
      b.filter fun index => index.bloatEstimate = bytes) : a = b := by
  induction a generalizing b with
  | nil =>
      refine (List.eq_nil_iff_forall_not_mem.2 fun index mem => ?_).symm
      exact List.not_mem_nil ((mem_iff_of_filter_eq same index).2 mem)
  | cons x a ih =>
      cases b with
      | nil =>
          exact absurd ((mem_iff_of_filter_eq same x).1 List.mem_cons_self) List.not_mem_nil
      | cons y b =>
          obtain ⟨hx, ha'⟩ := List.pairwise_cons.1 ha
          obtain ⟨hy, hb'⟩ := List.pairwise_cons.1 hb
          -- Both begin with one of the most bloated, and so with the same one.
          have le : y.bloatEstimate ≤ x.bloatEstimate := by
            rcases List.mem_cons.1 ((mem_iff_of_filter_eq same y).2 List.mem_cons_self) with
              rfl | mem
            · exact UInt64.le_refl _
            · exact hx y mem
          have ge : x.bloatEstimate ≤ y.bloatEstimate := by
            rcases List.mem_cons.1 ((mem_iff_of_filter_eq same x).1 List.mem_cons_self) with
              rfl | mem
            · exact UInt64.le_refl _
            · exact hy x mem
          have first := same x.bloatEstimate
          rw [List.filter_cons_of_pos (by simp),
            List.filter_cons_of_pos (by simp [UInt64.le_antisymm le ge])] at first
          obtain rfl := (List.cons.inj first).1
          refine congrArg (x :: ·) (ih ha' hb' fun bytes => ?_)
          have both := same bytes
          by_cases h : x.bloatEstimate = bytes
          · rw [List.filter_cons_of_pos (by simpa using h),
              List.filter_cons_of_pos (by simpa using h)] at both
            exact (List.cons.inj both).2
          · rwa [List.filter_cons_of_neg (by simpa using h),
              List.filter_cons_of_neg (by simpa using h)] at both

end Descending

namespace Ranking

variable {indexes ranked ranked' : List Index}

/-- **There is one ranking only.** -/
theorem unique (h : Ranking indexes ranked) (h' : Ranking indexes ranked') : ranked = ranked' :=
  eq_of_filter_eq h.descending h'.descending fun bytes =>
    (h.keepsOrder bytes).trans (h'.keepsOrder bytes).symm

/-- What is left out is no more bloated than what is taken. -/
theorem le_of_mem_drop (h : Ranking indexes ranked) {n : Nat} {taken left : Index}
    (htaken : taken ∈ ranked.take n) (hleft : left ∈ ranked.drop n) :
    left.bloatEstimate ≤ taken.bloatEstimate := by
  have pairwise := h.descending
  rw [← List.take_append_drop n ranked, List.pairwise_append] at pairwise
  exact pairwise.2.2 taken htaken left hleft

/-- Some of the indexes are ranked among themselves as they are among all of them. -/
theorem filter (h : Ranking indexes ranked) (p : Index → Bool) :
    Ranking (indexes.filter p) (ranked.filter p) where
  perm := h.perm.filter p
  descending := h.descending.filter p
  keepsOrder bytes := by
    rw [List.filter_filter, List.filter_filter]
    simp only [Bool.and_comm _ (p _)]
    rw [← List.filter_filter, ← List.filter_filter, h.keepsOrder bytes]

end Ranking

/-- Sorting is stable, and so it ranks. -/
theorem ranking_mergeSort (indexes : List Index) :
    Ranking indexes (indexes.mergeSort fun a b => b.bloatEstimate ≤ a.bloatEstimate) := by
  have perm := List.mergeSort_perm indexes fun a b => b.bloatEstimate ≤ a.bloatEstimate
  have transitive (a b c : Index) (hab : decide (b.bloatEstimate ≤ a.bloatEstimate) = true)
      (hbc : decide (c.bloatEstimate ≤ b.bloatEstimate) = true) :
      decide (c.bloatEstimate ≤ a.bloatEstimate) = true := by
    rw [decide_eq_true_iff] at hab hbc ⊢
    exact UInt64.le_trans hbc hab
  have total (a b : Index) :
      (decide (b.bloatEstimate ≤ a.bloatEstimate) || decide (a.bloatEstimate ≤ b.bloatEstimate)) =
        true := by
    simpa using UInt64.le_total b.bloatEstimate a.bloatEstimate
  refine ⟨perm, ?_, fun bytes => ?_⟩
  · simpa using List.pairwise_mergeSort transitive total indexes
  · refine filter_mergeSort transitive total (fun a b ha hb => ?_) indexes
    rw [decide_eq_true_iff, of_decide_eq_true ha, of_decide_eq_true hb]
    exact UInt64.le_refl _

namespace Selection

variable {maximum : Nat} {indexes : List Index}

/-- A limit that is not reached leaves the ranking as it is. -/
theorem ranking_rank (unlimited : indexes.length ≤ maximum) :
    Ranking indexes (rank maximum indexes) := by
  rw [rank, List.take_of_length_le (by rwa [List.length_mergeSort])]
  exact ranking_mergeSort indexes

/-- So the indexes may be left out before they are ranked, or afterwards. -/
theorem rank_filter (unlimited : indexes.length ≤ maximum) (p : Index → Bool) :
    rank maximum (indexes.filter p) = (rank maximum indexes).filter p :=
  (ranking_rank ((List.length_filter_le ..).trans unlimited)).unique
    ((ranking_rank unlimited).filter p)

end Selection

/-! ### The store -/

/-- The store can be asked, and the actions that it lists are those of the past. -/
def Simulation.World.Recalls (world : World) (past : List Action) : Prop :=
  ∀ database index, ∃ history, world.listActions database index = .ok history ∧
    ∀ action, action ∈ history ↔
      action ∈ past ∧ action.database = database ∧ action.index = index

namespace Simulation.World

variable {world : World}

/-- A store in memory recalls what is in it. -/
theorem recalls_memory {memory : Memory} (stored : world.actions = .memory memory)
    (reachable : world.storeFaults.list = false) : world.Recalls memory.actions := by
  intro database index
  refine ⟨memory.history database index, ?_, fun action => ?_⟩
  · simp [listActions, reachable, history, stored, ActionStore.history, Except.mapError]
  · simp [Action.concerns]

/-- A store of files recalls what survives in them. -/
theorem recalls_files {files : Files} {memory : Memory} (survives : files.Survives memory)
    (stored : world.actions = .files files) (reachable : world.storeFaults.list = false) :
    world.Recalls memory.actions := by
  intro database index
  refine ⟨memory.history database index, ?_, fun action => ?_⟩
  · simp [listActions, reachable, history, stored, ActionStore.history, survives.history,
      Except.mapError]
  · simp [Action.concerns]

/-- What is written to the log is no action. -/
theorem Recalls.write (recalls : world.Recalls past) (event : Event) :
    (world.write event).Recalls past := recalls

end Simulation.World

/-! ### The choice -/

namespace Selection

variable {world : World}

/-- Among the actions of the past there is one on the index that is recent. -/
theorem recent_eq_true_iff (recalls : world.Recalls past) (thresholds : Thresholds) (now : UInt64)
    (index : Index) :
    Listing.recent world.listActions thresholds now index = true ↔
      ∃ action ∈ past, (action.database = index.database ∧ action.index = index.identifier) ∧
        thresholds.cutoff now ≤ action.started := by
  obtain ⟨history, lists, mem_iff⟩ := recalls index.database index.identifier
  simp only [Listing.recent_eq lists, Thresholds.isRecent, List.any_eq_true, decide_eq_true_eq,
    mem_iff, and_assoc]

/-- The store can be asked about every index. -/
theorem fresh_of_recalls (recalls : world.Recalls past) (thresholds : Thresholds) (now : UInt64)
    (indexes : List Index) :
    fresh thresholds now world.listActions indexes =
      .ok (indexes.filter fun index => !Listing.recent world.listActions thresholds now index) := by
  refine fresh_eq_ok_iff.2 ⟨fun index _ => ?_, rfl⟩
  obtain ⟨history, lists, -⟩ := recalls index.database index.identifier
  exact ⟨history, lists⟩

/-- By what the store lists, those are not recent that have rested. -/
theorem not_recent_eq_rested (window : thresholds.recent.millis < UInt64.size)
    (recalls : world.Recalls past) (now : UInt64) (index : Index) :
    (!Listing.recent world.listActions thresholds now index) =
      decide (Rested thresholds now past index) := by
  rw [Bool.eq_iff_iff, Bool.not_eq_true', ← Bool.not_eq_true, recent_eq_true_iff recalls,
    decide_eq_true_iff]
  simp only [Rested, UInt64.le_iff_toNat_le, Thresholds.toNat_cutoff window, not_exists, not_and,
    Nat.not_le, and_imp]

theorem run_select (window : thresholds.recent.millis < UInt64.size)
    (recalls : world.Recalls past) (candidates : List Index) (now : UInt64) (maximum : Nat) :
    ((select thresholds candidates now maximum).toJob.run World.answer World.elapse world).1 =
      .ok (.ok (rank maximum
        (candidates.filter fun index => Admissible thresholds now past index))) := by
  rw [run_select_eq, fresh_of_recalls recalls, List.filter_filter]
  simp only [not_recent_eq_rested window recalls, admissible_iff, Bool.decide_and,
    Bool.decide_eq_true, Bool.and_comm]
  rfl

/-- **The first ones of the ranking are chosen.**  The candidates that may be chosen are ranked, in
the one way that there is, and the choice is as much of the ranking as is asked for.  So nothing is
left out that is more bloated than something that is chosen, nothing is chosen more often than it
is a candidate, and what was done to other indexes makes no difference. -/
theorem chooses_first_ranked (window : thresholds.recent.millis < UInt64.size)
    (recalls : world.Recalls past) (candidates : List Index) (now : UInt64) (maximum : Nat) :
    ∃ ranked, Ranking (candidates.filter fun index => Admissible thresholds now past index) ranked ∧
      (∀ other,
        Ranking (candidates.filter fun index => Admissible thresholds now past index) other →
          other = ranked) ∧
      ((select thresholds candidates now maximum).toJob.run World.answer World.elapse world).1 =
        .ok (.ok (ranked.take maximum)) ∧
      (∀ chosen ∈ ranked.take maximum, ∀ left ∈ ranked.drop maximum,
        left.bloatEstimate ≤ chosen.bloatEstimate) ∧
      (∀ index, (ranked.take maximum).count index ≤ candidates.count index) ∧
      ∀ (world' : World) (past' : List Action), world'.Recalls past' →
        (∀ index ∈ candidates, ∀ action : Action, action.database = index.database →
          action.index = index.identifier → (action ∈ past' ↔ action ∈ past)) →
        ((select thresholds candidates now maximum).toJob.run
            World.answer World.elapse world').1 = .ok (.ok (ranked.take maximum)) := by
  have ranking := ranking_mergeSort
    (candidates.filter fun index => Admissible thresholds now past index)
  refine ⟨_, ranking, fun other h => h.unique ranking, run_select window recalls .., ?_, ?_, ?_⟩
  · intro chosen hchosen left hleft
    exact ranking.le_of_mem_drop hchosen hleft
  · intro index
    calc ((List.mergeSort _ _).take maximum).count index
        ≤ (List.mergeSort _ _).count index := (List.take_sublist ..).count_le index
      _ = (candidates.filter _).count index := ranking.perm.count_eq index
      _ ≤ candidates.count index := List.filter_sublist.count_le index
  · intro world' past' recalls' same
    rw [run_select window recalls', List.filter_congr fun index mem =>
      decide_eq_decide.2 (Admissible.congr (same index mem))]
    rfl

/-- Of five candidates the most bloated one was rebuilt just when the window began, and two are
equally bloated. -/
theorem chooses_first_ranked_tie :
    let candidate (name : String) (bloat : UInt64) : Index :=
      { database := "main", schema := "public", name, size := 10737418240, bloat := some bloat }
    let candidates :=
      [candidate "index_a" 4294967296, candidate "index_b" 8589934592,
        candidate "index_c" 5368709120, candidate "index_d" 4294967296,
        candidate "index_e" 3221225472]
    let memory : Memory :=
      ⟨[.start (.ofNat 0) (candidate "index_b" 8589934592) 7776000000,
        .start (.ofNat 1) (candidate "index_c" 5368709120) 7775999999]⟩
    let world : World := { actions := .memory memory }
    (({} : Thresholds).recent.millis < UInt64.size) ∧ world.Recalls memory.actions ∧
      ((select {} candidates 8640000000 3).toJob.run World.answer World.elapse world).1 =
        .ok (.ok [candidate "index_c" 5368709120, candidate "index_a" 4294967296,
          candidate "index_d" 4294967296]) := by
  intro candidate candidates memory world
  have window : ({} : Thresholds).recent.millis < UInt64.size := by decide
  have recalls : world.Recalls memory.actions := World.recalls_memory rfl rfl
  obtain ⟨ranked, -, unique, run, -⟩ := chooses_first_ranked window recalls candidates 8640000000 3
  have admitted : candidates.filter
      (fun index => Admissible {} 8640000000 memory.actions index) =
        [candidate "index_a" 4294967296, candidate "index_c" 5368709120,
          candidate "index_d" 4294967296, candidate "index_e" 3221225472] := by decide +kernel
  refine ⟨window, recalls, ?_⟩
  rw [run, ← unique _ (ranking_mergeSort _), admitted]
  simp [List.mergeSort, candidate, Index.bloatEstimate]

end Selection

end Upkeep
