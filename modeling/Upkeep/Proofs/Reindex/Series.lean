import Upkeep.Proofs.Reindex.Rebuilds
import Upkeep.Proofs.Reindex.Spacing

/-!
# Automatic runs one after the other

Automatic runs that do not overlap, in any world: leases may be had by others, rebuilds may fail,
and anything may happen between two runs, as long as the histories of actions are those of a store
in memory, the clock does not go back, and no id is drawn twice.  Then each run keeps to its choice,
and whatever is rebuilt was not rebuilt within the window, neither by these runs nor according to
what the store had from before.

## Main Definitions

* `recorded`, `readings` — the actions that were created, and the times that were read.
* `Memory.after`, `Memory.Remembers` — histories that are those of a store in memory.
* `Dependable` — what the store, the clock and the ids have to be like.
* `Run` — an automatic run, and what happens before it.
* `transcripts` — what runs, one after the other, ask and are answered.
* `Spaced` — two actions on one index start further apart than a window.

## Main Statements

* `keeps_afterAll` — the store keeps whatever has been created.
* `World.remembers_transcript` — the simulated world remembers, if its store is one in memory.
* `spaced_transcripts` — whatever these runs create starts after the window.
* `series_orderly_and_spaced` — what each of these runs rebuilds, and when.

## Design Notes

What is assumed concerns the answers of the store and of the clock alone.  All other answers, and
what happens between two runs, may be anything.
-/

namespace Upkeep

open Simulation

/-! ### What a transcript says of actions and of the clock -/

/-- The action that was created. -/
def Exchange.recorded? : Exchange Service → Option Action
  | ⟨.createAction action, .ok ()⟩ => some action
  | _ => none

/-- The actions that were created, in this order. -/
def recorded (t : Transcript Service) : List Action := t.filterMap Exchange.recorded?

/-- The time that was read. -/
def Exchange.reading? : Exchange Service → Option UInt64
  | ⟨.readClock, now⟩ => some now
  | _ => none

/-- The times that were read, in this order. -/
def readings (t : Transcript Service) : List UInt64 := t.filterMap Exchange.reading?

@[simp] theorem recorded_append (t t' : Transcript Service) :
    recorded (t ++ t') = recorded t ++ recorded t' :=
  List.filterMap_append

@[simp] theorem readings_append (t t' : Transcript Service) :
    readings (t ++ t') = readings t ++ readings t' :=
  List.filterMap_append

theorem recorded_concat (t : Transcript Service) (exchange : Exchange Service) :
    recorded (t ++ [exchange]) = recorded t ++ exchange.recorded?.toList := by
  rw [recorded_append, recorded, recorded, List.filterMap_cons, List.filterMap_nil]
  cases exchange.recorded? <;> rfl

theorem exists_of_mem_recorded {t : Transcript Service} {action : Action}
    (h : action ∈ recorded t) : ∃ t₁ t₂, t = t₁ ++ ⟨.createAction action, .ok ()⟩ :: t₂ := by
  obtain ⟨exchange, hm, hrecorded⟩ := List.mem_filterMap.1 h
  obtain ⟨t₁, t₂, rfl⟩ := List.append_of_mem hm
  refine ⟨t₁, t₂, ?_⟩
  unfold Exchange.recorded? at hrecorded
  split at hrecorded
  · obtain rfl := Option.some.inj hrecorded
    rfl
  · cases hrecorded

/-- What was read later is not less, if the clock never goes back. -/
theorem le_of_readings {t t₁ t₂ : Transcript Service} {now later : UInt64}
    (h : (readings t).Pairwise (· ≤ ·)) (ht : t = t₁ ++ ⟨.readClock, now⟩ :: t₂)
    (hlater : ⟨.readClock, later⟩ ∈ t₂) : now ≤ later := by
  rw [ht, readings_append] at h
  have hrest : (now :: readings t₂).Pairwise (· ≤ ·) := (List.pairwise_append.1 h).2.1
  exact (List.pairwise_cons.1 hrest).1 later (List.mem_filterMap.2 ⟨_, hlater, rfl⟩)

theorem mem_createdIn_of_mem_recorded {t : Transcript Service} {action : Action}
    (h : action ∈ recorded t) : action ∈ createdIn t := by
  obtain ⟨t₁, t₂, rfl⟩ := exists_of_mem_recorded h
  rw [createdIn_append]
  exact List.mem_append_right _ (List.mem_cons_self ..)

/-! ### A store in memory -/

namespace Memory

/-- The store after an exchange: what was asked to be kept is in it unless that has failed. -/
def after (memory : Memory) : Exchange Service → Memory
  | ⟨.createAction action, .ok ()⟩ => memory.put action
  | ⟨.updateAction action, .ok ()⟩ => memory.put action
  | _ => memory

/-- The store after a transcript. -/
def afterAll (memory : Memory) (t : Transcript Service) : Memory := t.foldl after memory

/-- The histories in a transcript are those of the store as it was left by what came before. -/
def Remembers (memory : Memory) (t : Transcript Service) : Prop :=
  ∀ t₁ database index history t₂,
    t = t₁ ++ ⟨.listActions database index, .ok history⟩ :: t₂ →
      history = (memory.afterAll t₁).history database index

end Memory

namespace Memory

/-- The store after one more exchange. -/
theorem afterAll_concat (memory : Memory) (t : Transcript Service) (exchange : Exchange Service) :
    memory.afterAll (t ++ [exchange]) = (memory.afterAll t).after exchange :=
  List.foldl_concat ..

/-- **An exchange keeps** what is in the store, if a new action has an id that no other one has,
and an updated one continues the only one with its id. -/
theorem Keeps.after {memory : Memory} {actions : List Action} {exchange : Exchange Service}
    (h : memory.Keeps actions)
    (hcreated : ∀ action, exchange.recorded? = some action →
      ∀ other ∈ actions, other.id ≠ action.id)
    (hupdated : ∀ action, exchange.request = .updateAction action → ∃ opened,
      action.Continues opened ∧ ∀ other ∈ actions, other.id = opened.id → other = opened) :
    (memory.after exchange).Keeps (actions ++ exchange.recorded?.toList) := by
  have hsame : exchange.recorded? = none → (memory.after exchange).Keeps actions →
      (memory.after exchange).Keeps (actions ++ exchange.recorded?.toList) := by
    intro hnone hkept
    rwa [hnone, Option.toList_none, List.append_nil]
  obtain ⟨r, answer⟩ := exchange
  cases r with
  | createAction action =>
      match answer with
      | .ok () => exact h.put_new (hcreated action rfl)
      | .error error => exact hsame rfl h
  | updateAction action =>
      match answer with
      | .ok () =>
          obtain ⟨opened, hcontinues, hopened⟩ := hupdated action rfl
          exact hsame rfl (h.put_updated hcontinues hopened)
      | .error error => exact hsame rfl h
  | _ => exact hsame rfl h

end Memory

/-- What the store, the clock and the ids have to be like: histories are those of a store in
memory, the clock never goes back, and no two actions have the same id. -/
structure Dependable (prior : Memory) (t : Transcript Service) : Prop where
  remembers : prior.Remembers t
  clock : (readings t).Pairwise (· ≤ ·)
  distinct : ((recorded t).map Action.id).Nodup
  fresh : ∀ action ∈ recorded t, ∀ old ∈ prior.actions, old.id ≠ action.id

/-- Only actions that were created are updated. -/
def Grounded (t : Transcript Service) : Prop :=
  ∀ t₁ action answer t₂, t = t₁ ++ ⟨.updateAction action, answer⟩ :: t₂ →
    ∃ opened ∈ recorded t₁, action.Continues opened

/-- **The store keeps** what it had from before and whatever has been created. -/
theorem keeps_afterAll {prior : Memory} {t : Transcript Service} (h : Dependable prior t)
    (hgrounded : Grounded t) {t₁ t₂ : Transcript Service} (ht : t = t₁ ++ t₂) :
    (prior.afterAll t₁).Keeps (prior.actions ++ recorded t₁) := by
  -- What comes last finds what was kept before.
  induction t₁ using List.reverseRecOn generalizing t₂ with
  | nil =>
      rw [show recorded [] = [] from rfl, List.append_nil]
      exact fun action hm => ⟨action, hm, .refl action⟩
  | append_singleton t₁ exchange ih =>
      have hids := h.distinct
      have hfresh := h.fresh
      rw [ht, recorded_append, recorded_concat, List.append_assoc] at hids hfresh
      rw [List.map_append] at hids
      rw [Memory.afterAll_concat, recorded_concat, ← List.append_assoc]
      rw [List.append_assoc, List.singleton_append] at ht
      refine (ih ht).after (fun action haction other hm heq => ?_) fun action haction => ?_
      · rw [haction, Option.toList_some] at hids hfresh
        have hin : action ∈ [action] ++ recorded t₂ := List.mem_cons_self ..
        rcases List.mem_append.1 hm with hm | hm
        · exact hfresh action (List.mem_append_right _ hin) other hm heq
        · refine List.disjoint_of_nodup_append hids (List.mem_map_of_mem hm) ?_
          exact heq ▸ List.mem_map_of_mem hin
      · obtain ⟨r, answer⟩ := exchange
        obtain rfl : r = .updateAction action := haction
        obtain ⟨opened, hopened, hcontinues⟩ := hgrounded _ _ _ _ ht
        refine ⟨opened, hcontinues, fun other hm hid => ?_⟩
        rcases List.mem_append.1 hm with hm | hm
        · exact absurd hid (hfresh opened (List.mem_append_left _ hopened) other hm)
        · exact List.inj_on_of_nodup_map hids.of_append_left hm hopened hid

/-! ### The simulated world -/

section Worlds

variable {α : Type} {world : World} {memory : Memory}

/-- A request changes a store in memory as its answer says. -/
theorem Simulation.World.actions_answer_memory (h : world.actions = .memory memory)
    (r : Service.Request) :
    (world.answer r).2.actions = .memory (memory.after ⟨r, (world.answer r).1⟩) := by
  cases r with
  | createAction action =>
      show (world.createAction action).2.actions =
        .memory (memory.after ⟨.createAction action, (world.createAction action).1⟩)
      rcases actions_createAction h action with ⟨hok, hput⟩ | ⟨hfailed, hsame⟩
      · rw [hok, hput]
        rfl
      · match hanswer : (world.createAction action).1 with
        | .ok () => exact absurd hanswer hfailed
        | .error error => exact hsame
  | updateAction action =>
      show (world.updateAction action).2.actions =
        .memory (memory.after ⟨.updateAction action, (world.updateAction action).1⟩)
      rcases actions_updateAction h action with ⟨hok, hput⟩ | ⟨hfailed, hsame⟩
      · rw [hok, hput]
        rfl
      · match hanswer : (world.updateAction action).1 with
        | .ok () => exact absurd hanswer hfailed
        | .error error => exact hsame
  | _ => exact (actions_answer rfl world).trans h

theorem Memory.remembers_nil (memory : Memory) : memory.Remembers [] :=
  fun _ _ _ _ _ ht => absurd (List.append_eq_nil_iff.1 ht.symm).2 (List.cons_ne_nil _ _)

theorem Memory.Remembers.append {t t' : Transcript Service} (h : memory.Remembers t)
    (h' : (memory.afterAll t).Remembers t') : memory.Remembers (t ++ t') := by
  intro t₁ database index history t₂ ht
  rcases append_eq_append_cons_cases ht with ⟨c, hfirst, -⟩ | ⟨c, rfl, hrest⟩
  · exact h _ _ _ _ _ hfirst
  · rw [Memory.afterAll, List.foldl_append]
    exact h' _ _ _ _ _ hrest

/-- **A store in memory** remembers whatever a job does that runs alone. -/
theorem Simulation.World.remembers_transcript (job : Job Service α)
    (h : world.actions = .memory memory) :
    memory.Remembers (job.transcript World.answer World.elapse world) ∧
      (job.run World.answer World.elapse world).2.actions =
        .memory (memory.afterAll (job.transcript World.answer World.elapse world)) := by
  induction job generalizing world memory with
  | done value => exact ⟨memory.remembers_nil, h⟩
  | stop why => exact ⟨memory.remembers_nil, h⟩
  | sleep length next ih => exact ih _ h
  | ask r next ih =>
      obtain ⟨hrest, hend⟩ := ih (.ok (world.answer r).1) (World.actions_answer_memory h r)
      refine ⟨Memory.Remembers.append (t := [⟨r, (world.answer r).1⟩]) ?_ hrest, hend⟩
      intro t₁ database index history t₂ ht
      rcases List.append_eq_cons_iff.1 ht.symm with ⟨rfl, hhead⟩ | ⟨more, -, hmore⟩
      · obtain ⟨hexchange, -⟩ := List.cons.inj hhead
        obtain rfl : .listActions database index = r := congrArg Exchange.request hexchange
        have hlisted := eq_of_heq (Exchange.mk.inj hexchange).2
        exact World.history_of_listActions h hlisted.symm
      · cases (List.append_eq_nil_iff.1 hmore.symm).2

end Worlds

namespace Reindex

variable {σ : Type} {answer : (r : Service.Request) → σ → Service.Answer r × σ}
  {elapse : Duration → σ → σ}

/-! ### Series of runs -/

/-- An automatic run, and what happens before it. -/
structure Run (σ : Type) where
  interlude : σ → σ
  coordinator : Coordinator
  candidates : List Index
  maximum : Nat

section Runs

variable (answer : (r : Service.Request) → σ → Service.Answer r × σ) (elapse : Duration → σ → σ)

/-- What is done in the run. -/
def Run.job (run : Run σ) : Job Service (Except Error (List Performed)) :=
  (run.coordinator.automatic run.candidates run.maximum).toJob

/-- What the run asks and is answered. -/
def Run.transcript (run : Run σ) (s : σ) : Transcript Service :=
  run.job.transcript answer elapse (run.interlude s)

/-- The world after the run. -/
def Run.after (run : Run σ) (s : σ) : σ := (run.job.run answer elapse (run.interlude s)).2

/-- The world after runs, one after the other. -/
def after (runs : List (Run σ)) (s : σ) : σ :=
  runs.foldl (fun s run => run.after answer elapse s) s

/-- What runs, one after the other, ask and are answered. -/
def transcripts : List (Run σ) → σ → Transcript Service
  | [], _ => []
  | run :: runs, s =>
      run.transcript answer elapse s ++ transcripts runs (run.after answer elapse s)

end Runs

/-- What a transcript of several runs says was said in one of them. -/
theorem exists_run_of_transcripts {runs : List (Run σ)} {s : σ} {t₁ t₂ : Transcript Service}
    {exchange : Exchange Service} (h : transcripts answer elapse runs s = t₁ ++ exchange :: t₂) :
    ∃ earlier run later u₁ u₂, runs = earlier ++ run :: later ∧
      run.transcript answer elapse (after answer elapse earlier s) = u₁ ++ exchange :: u₂ ∧
        t₁ = transcripts answer elapse earlier s ++ u₁ := by
  induction runs generalizing s t₁ with
  | nil => cases (List.append_eq_nil_iff.1 h.symm).2
  | cons run runs ih =>
      rcases append_eq_append_cons_cases h with ⟨u₂, hrun, -⟩ | ⟨u₁, rfl, hrest⟩
      · exact ⟨[], run, runs, t₁, u₂, rfl, hrun, rfl⟩
      · obtain ⟨earlier, other, later, v₁, v₂, rfl, hother, rfl⟩ := ih hrest
        exact ⟨run :: earlier, other, later, v₁, v₂, rfl, hother, (List.append_assoc ..).symm⟩

/-- No candidates of the run have the same address. -/
def Run.Distinct (run : Run σ) : Prop := (run.candidates.map Index.address).Nodup

/-- A run keeps the rule of automatic runs. -/
theorem Run.conduct {run : Run σ} (h : run.Distinct) {s : σ} {t₁ t₂ : Transcript Service}
    {exchange : Exchange Service} (ht : run.transcript answer elapse s = t₁ ++ exchange :: t₂) :
    run.coordinator.Conduct t₁ exchange.request := by
  have hrun : run.job.transcript answer elapse (run.interlude s) = t₁ ++ exchange :: t₂ := ht
  exact Job.rule_of_transcript answer elapse (run.coordinator.keeps_automatic run.maximum h) hrun

theorem grounded_transcripts {runs : List (Run σ)} (h : ∀ run ∈ runs, run.Distinct) (s : σ) :
    Grounded (transcripts answer elapse runs s) := by
  intro t₁ action reply t₂ ht
  obtain ⟨earlier, run, later, u₁, u₂, rfl, hrun, rfl⟩ := exists_run_of_transcripts ht
  obtain ⟨opened, t', more, rfl, hcontinues, -⟩ :=
    (Run.conduct (h run (by simp)) hrun).updates action rfl
  refine ⟨opened, ?_, hcontinues⟩
  rw [recorded_append, recorded_append]
  exact List.mem_append_right _ (List.mem_append_right _ (List.mem_cons_self ..))

/-- Two actions on one index start further apart than a window: one that is created starts after
those that there were, and before those that are created after it. -/
def Spaced (window : Duration) (prior : List Action) (t : Transcript Service) : Prop :=
  ∀ t₁ action t₂, t = t₁ ++ ⟨.createAction action, .ok ()⟩ :: t₂ →
    (∀ old ∈ prior ++ recorded t₁, old.database = action.database → old.index = action.index →
      old.started.toNat + window.millis < action.started.toNat) ∧
    ∀ new ∈ recorded t₂, new.database = action.database → new.index = action.index →
      action.started.toNat + window.millis < new.started.toNat

section Spaced

variable {runs : List (Run σ)} {prior : Memory} {window : Duration} {s : σ}
  {t₁ t₂ : Transcript Service} {old new : Action}

/-- Whatever there was on its index when an action is created has started before the window. -/
theorem started_lt_of_created (hdistinct : ∀ run ∈ runs, run.Distinct)
    (hwindows : ∀ run ∈ runs, run.coordinator.settings.thresholds.recent = window)
    (hfits : window.millis < UInt64.size)
    (h : Dependable prior (transcripts answer elapse runs s))
    (ht : transcripts answer elapse runs s = t₁ ++ ⟨.createAction new, .ok ()⟩ :: t₂)
    (hold : old ∈ prior.actions ++ recorded t₁) (haddress : old.address = new.address) :
    old.started.toNat + window.millis < new.started.toNat := by
  have hground : Grounded (transcripts answer elapse runs s) := grounded_transcripts hdistinct s
  obtain ⟨earlier, run, later, u₁, u₂, rfl, hrun, rfl⟩ := exists_run_of_transcripts ht
  have hmem : run ∈ earlier ++ run :: later := by simp
  obtain ⟨index, t', started, id, rfl, rfl, ⟨v₁, v₂, v₃, now, history, rfl, hrecent⟩, hothers⟩ :=
    (Run.conduct (hdistinct run hmem) hrun).creates new rfl
  set before := transcripts answer elapse earlier s
  have hlisted : transcripts answer elapse (earlier ++ run :: later) s =
      (before ++ v₁ ++ ⟨.readClock, now⟩ :: v₂) ++
        ⟨.listActions index.database index.identifier, .ok history⟩ ::
          (v₃ ++ [⟨.readClock, started⟩, ⟨.drawId, id⟩] ++
            ⟨.createAction (.start id index started), .ok ()⟩ :: t₂) := by
    rw [ht]
    simp only [List.append_assoc, List.cons_append]
  -- The run itself has created nothing on the index, so the action was there before it.
  have hbefore : old ∈ prior.actions ++ recorded (before ++ v₁ ++ ⟨.readClock, now⟩ :: v₂) := by
    rw [List.append_assoc, recorded_append]
    rw [recorded_append, ← List.append_assoc] at hold
    rcases List.mem_append.1 hold with hold | hold
    · rw [← List.append_assoc]
      exact List.mem_append_left _ hold
    · exact absurd haddress (hothers old (mem_createdIn_of_mem_recorded hold))
  obtain ⟨stored, hstored, hcontinues⟩ := keeps_afterAll h hground hlisted old hbefore
  have hhistory := h.remembers _ _ _ _ _ hlisted
  have hrecently := Thresholds.started_lt_of_not_isRecent (by rwa [hwindows run hmem]) hrecent
    (hhistory ▸ Memory.mem_history_of_address hstored (hcontinues.address.trans haddress))
  rw [hwindows run hmem, hcontinues.started] at hrecently
  -- The clock was read before the listing for its sake, and after it for that of the action.
  have hclock : now ≤ started := by
    rw [List.append_assoc, List.cons_append] at hlisted
    exact le_of_readings h.clock hlisted (by simp)
  exact lt_of_lt_of_le hrecently (UInt64.le_iff_toNat_le.1 hclock)

/-- **Whatever is created starts after the window**, and before the window of what follows. -/
theorem spaced_transcripts (hdistinct : ∀ run ∈ runs, run.Distinct)
    (hwindows : ∀ run ∈ runs, run.coordinator.settings.thresholds.recent = window)
    (hfits : window.millis < UInt64.size)
    (h : Dependable prior (transcripts answer elapse runs s)) :
    Spaced window prior.actions (transcripts answer elapse runs s) := by
  intro t₁ action t₂ ht
  refine ⟨fun old hold hdatabase hindex => ?_, fun new hnew hdatabase hindex => ?_⟩
  · exact started_lt_of_created hdistinct hwindows hfits h ht hold (Prod.ext hdatabase hindex)
  · obtain ⟨v₁, v₂, rfl⟩ := exists_of_mem_recorded hnew
    have hlater : transcripts answer elapse runs s =
        (t₁ ++ ⟨.createAction action, .ok ()⟩ :: v₁) ++ ⟨.createAction new, .ok ()⟩ :: v₂ := by
      rw [ht, List.append_assoc, List.cons_append]
    refine started_lt_of_created hdistinct hwindows hfits h hlater ?_
      (Prod.ext hdatabase.symm hindex.symm)
    rw [recorded_append]
    exact List.mem_append_right _ (List.mem_append_right _ (List.mem_cons_self ..))

end Spaced

/-- **Runs that do not overlap**: each run comes to an end and keeps to its choice, and whatever
they create starts after the window. -/
theorem series_orderly_and_spaced {runs : List (Run σ)} {prior : Memory} {window : Duration}
    {s : σ} (hdistinct : ∀ run ∈ runs, run.Distinct)
    (hwindows : ∀ run ∈ runs, run.coordinator.settings.thresholds.recent = window)
    (hfits : window.millis < UInt64.size)
    (h : Dependable prior (transcripts answer elapse runs s)) :
    (∀ earlier run later, runs = earlier ++ run :: later → ∃ selected result,
      ((run.coordinator.selection run.candidates run.maximum).toJob.run answer elapse
          (run.interlude (after answer elapse earlier s))).1 = .ok selected ∧
        (run.job.run answer elapse (run.interlude (after answer elapse earlier s))).1 =
          .ok result ∧
        Orderly run.coordinator.settings.thresholds run.maximum selected
          (run.transcript answer elapse (after answer elapse earlier s)) result) ∧
    Spaced window prior.actions (transcripts answer elapse runs s) := by
  refine ⟨fun earlier run later _ => ?_, spaced_transcripts hdistinct hwindows hfits h⟩
  exact run.coordinator.orderly_automatic run.candidates run.maximum answer elapse _

/-- Runs in the simulated world are remembered, if nobody else touches the store. -/
theorem remembers_transcripts {runs : List (Run World)}
    (hinterludes : ∀ run ∈ runs, ∀ world, (run.interlude world).actions = world.actions)
    {world : World} {memory : Memory} (h : world.actions = .memory memory) :
    memory.Remembers (transcripts World.answer World.elapse runs world) := by
  induction runs generalizing world memory with
  | nil => exact memory.remembers_nil
  | cons run runs ih =>
      obtain ⟨hfirst, hend⟩ := World.remembers_transcript run.job
        ((hinterludes run (List.mem_cons_self ..) world).trans h)
      exact hfirst.append (ih (fun other hm => hinterludes other (List.mem_cons_of_mem _ hm)) hend)

/-! ### A rotation -/

/-- A worker with a lease for each index. -/
def rotator : Coordinator := racers.coordinator false

/-- Another index that is worth a rebuild. -/
def swollenIndex : Index := { bloatedIndex with name := "index_b" }

/-- Two runs for both indexes, of which rebuilds of the second one fail at first; the other run is
eleven days later. -/
def rotation : List (Run World) :=
  [{ interlude := fun world => world.setWorker ⟨0⟩
       { clockStep := 60000, failures := [("public.index_b", "canceling statement")] }
     coordinator := rotator, candidates := [bloatedIndex, swollenIndex], maximum := 2 },
   { interlude := fun world => (world.setWorker ⟨0⟩ {}).advanceClock (.ofSecs 950400)
     coordinator := rotator, candidates := [bloatedIndex, swollenIndex], maximum := 2 }]

/-- A store with an action on the first index. -/
def rotated : Memory := ⟨[.start (.ofNat 7) bloatedIndex 1500000000]⟩

/-- The world before the runs. -/
def rotating : World := { actions := .memory rotated, clock := 1000000000 }

theorem dependable_rotation :
    Dependable rotated (transcripts World.answer World.elapse rotation rotating) where
  remembers := by
    refine remembers_transcripts (fun run hm world => ?_) rfl
    simp only [rotation, List.mem_cons, List.not_mem_nil, or_false] at hm
    rcases hm with rfl | rfl
    · rfl
    · simp only [World.advanceClock, World.setWorker]
  clock := by decide +kernel
  distinct := by
    show List.Nodup _
    decide +kernel
  fresh := by decide +kernel

/-- The second index is rebuilt again, and the first one is left alone. -/
theorem series_orderly_and_spaced_rotation :
    Dependable rotated (transcripts World.answer World.elapse rotation rotating) ∧
      begun (transcripts World.answer World.elapse rotation rotating) =
        [swollenIndex, swollenIndex] ∧
      (∀ earlier run later, rotation = earlier ++ run :: later → ∃ selected result,
        ((run.coordinator.selection run.candidates run.maximum).toJob.run World.answer
            World.elapse (run.interlude (after World.answer World.elapse earlier rotating))).1 =
            .ok selected ∧
          (run.job.run World.answer World.elapse
            (run.interlude (after World.answer World.elapse earlier rotating))).1 = .ok result ∧
          Orderly run.coordinator.settings.thresholds run.maximum selected
            (run.transcript World.answer World.elapse
              (after World.answer World.elapse earlier rotating)) result) ∧
      Spaced rotator.settings.thresholds.recent rotated.actions
        (transcripts World.answer World.elapse rotation rotating) := by
  have hall : ∀ run ∈ rotation, run.Distinct ∧
      run.coordinator.settings.thresholds.recent = rotator.settings.thresholds.recent := by
    intro run hm
    simp only [rotation, List.mem_cons, List.not_mem_nil, or_false] at hm
    rcases hm with rfl | rfl <;> exact ⟨by unfold Run.Distinct; decide +kernel, rfl⟩
  exact ⟨dependable_rotation, by decide +kernel,
    series_orderly_and_spaced (fun run hm => (hall run hm).1) (fun run hm => (hall run hm).2)
      (by decide +kernel) dependable_rotation⟩

end Reindex

end Upkeep
