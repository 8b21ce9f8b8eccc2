import Upkeep.Proofs.Reindex.Removal
import Upkeep.Proofs.Reindex.Team

/-!
# Cleaning up after rebuilds

A clean-up removes the leftovers one after the other.  It goes on as long as each of them was
dropped, abandoned or skipped, and ends with the first error.  So its report names each leftover
once, and an error is that of the last index that was looked at.

## Main Definitions

* `CleanupReport.of` — the identifiers of a report by what became of them.
* `Coordinator.Cleans` — the removals of a clean-up, with what it comes to.

## Main Statements

* `Coordinator.cleans_dropAll` — a clean-up in any world is a sequence of removals.
* `Coordinator.cleanup_accounts_for_leftovers` — what the report and the error say.
-/

namespace Upkeep

/-- The identifiers of the indexes of which the same became. -/
def CleanupReport.of (report : CleanupReport) : Dropped → List String
  | .dropped => report.dropped
  | .abandoned => report.abandoned
  | .skipped => report.skipped

theorem CleanupReport.of_prepend (identifier : String) (what what' : Dropped)
    (report : CleanupReport) :
    (report.prepend identifier what).of what' =
      if what = what' then identifier :: report.of what' else report.of what' := by
  cases what <;> cases what' <;> rfl

namespace Coordinator

variable {coordinator : Coordinator} {indexes : List Index} {removals : List Removal}

/-- **The removals of a clean-up**, with what it comes to: after an error there is no other one. -/
inductive Cleans (coordinator : Coordinator) :
    List Index → List Removal → Except Error CleanupReport → Prop
  | done : Cleans coordinator [] [] (.ok {})
  | failed {removal : Removal} {rest : List Index} {error : Error}
      (removes : coordinator.Removes removal) (ended : removal.result = .error error) :
      Cleans coordinator (removal.index :: rest) [removal] (.error error)
  | next {removal : Removal} {rest : List Index} {others : List Removal} {what : Dropped}
      {result : Except Error CleanupReport} (removes : coordinator.Removes removal)
      (ended : removal.result = .ok what) (cleans : Cleans coordinator rest others result) :
      Cleans coordinator (removal.index :: rest) (removal :: others)
        (result.map (·.prepend removal.index.identifier what))

/-- A clean-up adds the diaries of its removals to one. -/
theorem keeps_dropAll_writing {d : Diary Service} :
    (coordinator.dropAll indexes).Keeps (.writing Service) (fun _ _ => True)
      (fun report after => ∃ removals, coordinator.Cleans indexes removals (.ok report) ∧
        after = d ++ removals.flatMap Removal.diary)
      (fun error after => ∃ removals, coordinator.Cleans indexes removals (.error error) ∧
        after = d ++ removals.flatMap Removal.diary) (fun _ _ => False) d := by
  induction indexes generalizing d with
  | nil => exact ⟨[], .done, (List.append_nil d).symm⟩
  | cons index rest ih =>
      refine Task.keeps_bind.2 (keeps_drop_writing.mono (fun _ _ hr => hr) ?_ ?_ fun _ _ hs => hs)
      · rintro what after ⟨more, rfl, removes⟩
        refine Task.keeps_bind.2 (ih.mono (fun _ _ hr => hr) ?_ ?_ fun _ _ hs => hs)
        · rintro report after ⟨removals, cleans, rfl⟩
          exact ⟨_ :: removals, .next removes rfl cleans, List.append_assoc ..⟩
        · rintro error after ⟨removals, cleans, rfl⟩
          exact ⟨_ :: removals, .next removes rfl cleans, List.append_assoc ..⟩
      · rintro error after ⟨more, rfl, removes⟩
        exact ⟨[_], .failed removes rfl, congrArg (d ++ ·) (List.append_nil more).symm⟩

/-- **A clean-up in any world** is a sequence of removals. -/
theorem cleans_dropAll {σ : Type} (coordinator : Coordinator) (indexes : List Index)
    (answer : (r : Service.Request) → σ → Service.Answer r × σ) (elapse : Duration → σ → σ)
    (s : σ) :
    ∃ removals result, coordinator.Cleans indexes removals result ∧
      ((coordinator.dropAll indexes).toJob.run answer elapse s).1 = .ok result ∧
      (coordinator.dropAll indexes).toJob.diary answer elapse s =
        removals.flatMap Removal.diary := by
  have keeps : (coordinator.dropAll indexes).Keeps _ _ _ _ _ [] := keeps_dropAll_writing
  obtain ⟨result, run, ended⟩ := Job.ends_of_keeps_writing answer elapse keeps s
  match result with
  | .ok report =>
      obtain ⟨removals, cleans, diary⟩ := ended
      exact ⟨removals, .ok report, cleans, run, diary⟩
  | .error error =>
      obtain ⟨removals, cleans, diary⟩ := ended
      exact ⟨removals, .error error, cleans, run, diary⟩

/-! ### What a clean-up comes to -/

namespace Cleans

variable {result : Except Error CleanupReport}

theorem accounts (h : coordinator.Cleans indexes removals result) :
    ∀ removal ∈ removals, removal.Accounts coordinator := by
  induction h with
  | done => exact nofun
  | failed removes ended => exact List.forall_mem_singleton.2 removes.accounts
  | next removes ended cleans ih => exact List.forall_mem_cons.2 ⟨removes.accounts, ih⟩

/-- The indexes are looked at in their order. -/
theorem isPrefix (h : coordinator.Cleans indexes removals result) :
    removals.map Removal.index <+: indexes := by
  induction h with
  | done => exact List.prefix_rfl
  | failed removes ended => exact ⟨_, rfl⟩
  | next removes ended cleans ih => exact (List.prefix_cons_inj _).2 ih

/-- **A report names every index once**, under what became of it, in the order of the indexes. -/
theorem reported (h : coordinator.Cleans indexes removals result) {report : CleanupReport}
    (ended : result = .ok report) :
    removals.map Removal.index = indexes ∧
      (∀ removal ∈ removals, ∃ what, removal.result = .ok what) ∧
      ∀ what, report.of what =
        (removals.filter (·.result = .ok what)).map (·.index.identifier) := by
  induction h generalizing report with
  | done =>
      obtain rfl := Except.ok.inj ended
      refine ⟨rfl, nofun, fun what => ?_⟩
      cases what <;> rfl
  | failed removes failed => cases ended
  | @next removal rest others what result removes became cleans ih =>
      match result with
      | .error error => cases ended
      | .ok report' =>
          obtain rfl := Except.ok.inj ended
          obtain ⟨indexes, each, named⟩ := ih rfl
          refine ⟨congrArg (List.cons _) indexes,
            List.forall_mem_cons.2 ⟨⟨what, became⟩, each⟩, fun what' => ?_⟩
          rw [CleanupReport.of_prepend, named, List.filter_cons, became]
          by_cases same : what = what'
          · simp [same]
          · simp [same]

/-- **An error is that of the last index that was looked at.** -/
theorem failed_at_last (h : coordinator.Cleans indexes removals result) {error : Error}
    (ended : result = .error error) :
    ∃ earlier last later, removals = earlier ++ [last] ∧
      indexes = earlier.map Removal.index ++ last.index :: later ∧
      (∀ removal ∈ earlier, ∃ what, removal.result = .ok what) ∧ last.result = .error error := by
  induction h with
  | done => cases ended
  | @failed removal rest error' removes failed =>
      obtain rfl := Except.error.inj ended
      exact ⟨[], removal, rest, rfl, rfl, nofun, failed⟩
  | @next removal rest others what result removes became cleans ih =>
      match result with
      | .ok report => cases ended
      | .error error' =>
          obtain ⟨earlier, last, later, rfl, rfl, each, failed⟩ := ih ended
          exact ⟨removal :: earlier, last, later, rfl, rfl,
            List.forall_mem_cons.2 ⟨⟨what, became⟩, each⟩, failed⟩

/-- What became of the indexes is counted, whatever else is. -/
theorem counted (h : coordinator.Cleans indexes removals result) (what : Dropped) :
    Diary.counted coordinator.account what.meter (removals.flatMap Removal.diary) =
      .ofNat (removals.filter (·.result = .ok what)).length := by
  have accounts := h.accounts
  clear h
  induction removals with
  | nil => rfl
  | cons removal removals ih =>
      obtain ⟨first, rest⟩ := List.forall_mem_cons.1 accounts
      rw [List.flatMap_cons, Diary.counted_append, first.counts, ih rest, List.filter_cons]
      by_cases became : removal.result = .ok what
      · simp [became, UInt64.add_comm]
      · simp [became]

/-- **Nothing but leftovers is dropped.** -/
theorem spares (h : coordinator.Cleans (indexes.filter Index.isLeftover) removals result)
    {index : Index} (kept : index.isLeftover = false) :
    ∀ execution ∈ Diary.executions (removals.flatMap Removal.diary),
      execution.1 ≠ index.dropStatement.text := by
  intro execution mem same
  obtain ⟨doing, mem, executed⟩ := List.mem_filterMap.1 mem
  obtain ⟨removal, made, mem⟩ := List.mem_flatMap.1 mem
  have own : removal.index.isLeftover = true :=
    (List.mem_filter.1 (h.isPrefix.subset (List.mem_map_of_mem made))).2
  rcases (h.accounts removal made).statements execution
      (List.mem_filterMap.2 ⟨doing, mem, executed⟩) with text | text | ⟨entry, -, text⟩
  · obtain ⟨-, name⟩ :=
      Sql.Statement.dropIndex.inj (Sql.Statement.text_injective (text.symm.trans same))
    rw [Index.isLeftover, name] at own
    rw [Index.isLeftover, own] at kept
    cases kept
  · exact nomatch Sql.Statement.text_injective (text.symm.trans same)
  · exact nomatch Sql.Statement.text_injective (text.symm.trans same)

end Cleans

/-! ### Leases -/

/-- A clean-up ends with empty hands. -/
theorem handOf_dropAll {σ : Type} (coordinator : Coordinator) (indexes : List Index)
    (answer : (r : Service.Request) → σ → Service.Answer r × σ) (elapse : Duration → σ → σ)
    (s : σ) :
    Lease.handOf (Diary.exchanges ((coordinator.dropAll indexes).toJob.diary answer elapse s)) =
      [] := by
  have keeps := Lease.keeps_recording_of_hand (t := [])
    (Reindex.emptyHanded_dropAll coordinator indexes)
  rw [Job.exchanges_diary]
  rcases Job.ends_of_keeps answer elapse keeps s with ⟨result, -, ended⟩ | ⟨why, stopped, -⟩
  · match result with
    | .ok report => exact ended
    | .error error => exact ended
  · obtain ⟨removals, result, -, run, -⟩ := cleans_dropAll coordinator indexes answer elapse s
    rw [run] at stopped
    cases stopped

/-- **A clean-up accounts for every leftover**, whatever it is answered.  Of each leftover that it
looks at, the requests for its lease and the results of its statement tell what became of it, where
a lock timeout is a failure in the state `55P03`.  If there is a report then it names all leftovers
in their order, each of them under what became of it, and as many are counted.  If there is an error
then it is that of one leftover, those before it were accounted for, and nothing was done about
those after it.  No other index is dropped, and no lease is kept: in a world in which leases can be
given back, nobody has any of those that were obtained. -/
theorem cleanup_accounts_for_leftovers (coordinator : Coordinator) (indexes : List Index) :
    (∀ index : Index, index.isLeftover = true ↔ ∃ stem digits : List Char,
      index.name.toList = stem ++ ("_ccnew".toList ++ digits) ∧ digits.all Char.isDigit = true) ∧
    (∀ failure : Sql.Failure, failure.isLockTimeout = true ↔ failure.sqlstate = some "55P03") ∧
    (∀ {σ : Type} (answer : (r : Service.Request) → σ → Service.Answer r × σ)
        (elapse : Duration → σ → σ) (s : σ),
      ∃ removals result,
        ((coordinator.cleanup indexes).toJob.run answer elapse s).1 = .ok result ∧
        (coordinator.cleanup indexes).toJob.diary answer elapse s =
          removals.flatMap Removal.diary ∧
        (∀ removal ∈ removals, removal.Accounts coordinator) ∧
        (∀ report, result = .ok report →
          removals.map Removal.index = indexes.filter Index.isLeftover ∧
          (∀ removal ∈ removals, ∃ what, removal.result = .ok what) ∧
          ∀ what, report.of what =
              (removals.filter (·.result = .ok what)).map (·.index.identifier) ∧
            Diary.counted coordinator.account what.meter (removals.flatMap Removal.diary) =
              .ofNat (report.of what).length) ∧
        (∀ error, result = .error error → ∃ earlier last later, removals = earlier ++ [last] ∧
          indexes.filter Index.isLeftover = earlier.map Removal.index ++ last.index :: later ∧
          (∀ removal ∈ earlier, ∃ what, removal.result = .ok what) ∧
          last.result = .error error) ∧
        (∀ index : Index, index.isLeftover = false →
          ∀ execution ∈ Diary.executions (removals.flatMap Removal.diary),
            execution.1 ≠ index.dropStatement.text) ∧
        Lease.handOf (Diary.exchanges (removals.flatMap Removal.diary)) = []) ∧
    ∀ world : Simulation.World,
      let job := (coordinator.cleanup indexes).toJob
      let diary := job.diary Simulation.World.answer Simulation.World.elapse world
      let after := (job.run Simulation.World.answer Simulation.World.elapse world).2
      (∀ account meter, after.tally account meter =
        world.tally account meter + diary.counted account meter) ∧
      (world.leaseFaults.obtain = false → ∀ key ttl, (world.obtainLease key ttl).1 = .ok none ↔
        (world.leases.holder world.now key).1.isSome = true) ∧
      (world.leaseFaults.release = false →
        (∀ entry ∈ after.leases.entries, entry ∈ world.leases.entries) ∧
        ∀ key ttl token, .obtained key ttl (.ok (some token)) ∈ diary →
          ∀ later, (after.leases.holder later key).1 = none) := by
  refine ⟨Index.isLeftover_iff, fun _ => Sql.Failure.isLockTimeout_iff, fun answer elapse s => ?_,
    fun world => ⟨?_, ?_, fun works => ?_⟩⟩
  · obtain ⟨removals, result, cleans, run, diary⟩ :=
      cleans_dropAll coordinator (indexes.filter Index.isLeftover) answer elapse s
    refine ⟨removals, result, run, diary, cleans.accounts, fun report ended => ?_,
      fun error ended => cleans.failed_at_last ended, fun index kept => cleans.spares kept, ?_⟩
    · obtain ⟨all, each, named⟩ := cleans.reported ended
      refine ⟨all, each, fun what => ⟨named what, ?_⟩⟩
      rw [cleans.counted what, named what, List.length_map]
    · rw [← diary]
      exact handOf_dropAll coordinator _ answer elapse s
  · intro account meter
    rw [Diary.counted, Job.exchanges_diary]
    exact Simulation.World.tally_run _ world account meter
  · exact fun reachable key ttl => Lease.obtainLease_eq_none_iff reachable key ttl
  · obtain ⟨removals, result, -, run, -⟩ := cleans_dropAll coordinator
      (indexes.filter Index.isLeftover) Simulation.World.answer Simulation.World.elapse world
    have cleared := returnsAll_dropAll coordinator (indexes.filter Index.isLeftover) world works
      result run
    refine ⟨cleared.old, fun key ttl token granted later => ?_⟩
    rw [Lease.Store.holder, Option.map_eq_none_iff, Lease.Store.find?_eq_none_iff]
    exact fun entry mem =>
      cleared.gone key ttl token granted entry (Lease.Store.mem_evictKey.1 mem).1

end Coordinator

end Upkeep
