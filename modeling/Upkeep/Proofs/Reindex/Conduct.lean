import Upkeep.Proofs.Lease.Span
import Upkeep.Proofs.Reindex.Attempt

/-!
# The conduct of automatic runs

When an automatic run creates an action, it has read the history of the index after the clock
that the history was judged by, and has found nothing recent in it; and it has created no other
action for that index.  When it updates an action, it still has the lease under which it created
the action.  Both follow from what the run itself has asked and was answered.

## Main Definitions

* `createdIn` — the actions that were asked to be created in a transcript.
* `Action.Continues` — an action that is about the same attempt as another one.
* `Cleared` — an index was found to have no recent action.
* `Conduct` — the rule of automatic runs on actions.

## Main Statements

* `keeps_perform_attempting` — what an attempt has done before it creates or updates.
* `keeps_automatic` — automatic runs keep their rule.
-/

namespace Upkeep

open Lease

/-- Whether the request is for the record of an action to be kept. -/
def Service.Request.isRecord : Service.Request → Bool
  | .createAction _ | .updateAction _ => true
  | _ => false

/-- The action is about the same attempt as another one. -/
structure Action.Continues (action opened : Action) : Prop where
  id : action.id = opened.id
  database : action.database = opened.database
  index : action.index = opened.index
  started : action.started = opened.started

theorem Action.Continues.refl (action : Action) : action.Continues action := ⟨rfl, rfl, rfl, rfl⟩

/-- Where an index is found: its database, and its identifier there. -/
def Index.address (index : Index) : String × String := (index.database, index.identifier)

/-- Where the index of an action is found. -/
def Action.address (action : Action) : String × String := (action.database, action.index)

theorem Action.Continues.address {action opened : Action} (h : action.Continues opened) :
    action.address = opened.address :=
  Prod.ext h.database h.index

/-- The lease for work on an index is found by its address. -/
theorem Coordinator.leaseKey_congr {coordinator other : Coordinator} {index index' : Index}
    (hsettings : coordinator.settings = other.settings) (h : index.address = index'.address) :
    coordinator.leaseKey index = other.leaseKey index' := by
  obtain ⟨hdatabase, hidentifier⟩ := Prod.ext_iff.1 h
  simp only [Index.address] at hdatabase hidentifier
  simp only [leaseKey, hsettings, hdatabase, hidentifier]

/-- The action that an exchange was to create. -/
def Exchange.creation? (exchange : Exchange Service) : Option Action :=
  match exchange.request with
  | .createAction action => some action
  | _ => none

/-- The actions that were asked to be created. -/
def createdIn (t : Transcript Service) : List Action := t.filterMap Exchange.creation?

@[simp] theorem createdIn_append (t t' : Transcript Service) :
    createdIn (t ++ t') = createdIn t ++ createdIn t' :=
  List.filterMap_append

theorem createdIn_concat {r : Service.Request} (h : r.isRecord = false) (t : Transcript Service)
    (answer : Service.Answer r) : createdIn (t ++ [⟨r, answer⟩]) = createdIn t := by
  have hnone : Exchange.creation? ⟨r, answer⟩ = none := by
    cases r with
    | createAction action => cases h
    | _ => rfl
  rw [createdIn_append, createdIn, createdIn, List.filterMap_cons, hnone, List.filterMap_nil,
    List.append_nil]

theorem handOf_concat_of_not_lease {r : Service.Request} (h : r.isLease = false)
    (t : Transcript Service) (answer : Service.Answer r) :
    handOf (t ++ [⟨r, answer⟩]) = handOf t := by
  rw [handOf_concat]
  cases r with
  | obtainLease key ttl => cases h
  | releaseLease key token => cases h
  | _ => rfl

namespace Coordinator

variable {coordinator : Coordinator} {index : Index} {t : Transcript Service}

/-! ### Attempts -/

/-- The lease of an attempt is obtained. -/
def entered (coordinator : Coordinator) (index : Index) (token : Lease.Token) :
    Transcript Service :=
  [⟨.obtainLease (coordinator.leaseKey index) coordinator.settings.lease, .ok (some token)⟩,
    logged (Lease.obtainedEvent ⟨coordinator.leaseKey index, token⟩)]

/-- What an attempt has done before it creates or updates an action. -/
structure Attempting (coordinator : Coordinator) (index : Index) (start t : Transcript Service)
    (r : Service.Request) : Prop where
  creates : ∀ action, r = .createAction action → ∃ token started id,
    t = start ++ coordinator.entered index token ++ [⟨.readClock, started⟩, ⟨.drawId, id⟩] ∧
      action = .start id index started
  updates : ∀ action, r = .updateAction action → ∃ token started id more,
    t = start ++ coordinator.entered index token ++ [⟨.readClock, started⟩, ⟨.drawId, id⟩] ++
        ⟨.createAction (.start id index started), .ok ()⟩ :: more ∧
      action.Continues (.start id index started)

private theorem attempting_of_not_record {start : Transcript Service} {r : Service.Request}
    (h : r.isRecord = false) : Attempting coordinator index start t r := by
  refine ⟨?_, ?_⟩
  · rintro action rfl
    cases h
  · rintro action rfl
    cases h

/-- What is done under a lease keeps a rule that concerns work alone. -/
private theorem keeps_holding_recording {α : Type} {key : String} {ttl : Duration}
    {work : Job Service α} {rule : Transcript Service → Service.Request → Prop}
    (hrule : ∀ t r, r.isWork = false → rule t r)
    (hwork : ∀ token, work.Keeps (.recording Service True) rule (fun _ _ => True)
      (fun _ _ => True) (t ++ [⟨.obtainLease key ttl, .ok (some token)⟩,
        logged (Lease.obtainedEvent ⟨key, token⟩)])) :
    (holding key ttl work).Keeps (.recording Service True) rule (fun _ _ => True)
      (fun _ _ => True) (fun _ _ => True) t := by
  have hidle : ∀ {β : Type} {job : Job Service β} {t : Transcript Service},
      job.Obeys (fun r : Service.Request => r.isWork = false) True →
        job.Keeps (.recording Service True) rule (fun _ _ => True) (fun _ _ => True) t :=
    fun h => h.keeps (fun t r _ hr => hrule t r hr) (fun _ _ _ _ _ => trivial)
      (fun _ _ _ _ => trivial) trivial
  refine Lease.keeps_holding_iff.2 ⟨hrule _ _ rfl, fun answer _ => ?_, fun _ _ => trivial⟩
  match answer with
  | .error error => exact trivial
  | .ok none => exact ⟨hrule _ _ rfl, fun _ _ => trivial, fun _ _ => trivial⟩
  | .ok (some token) =>
      have hrelease : (Lease.Guard.release ⟨key, token⟩).Obeys
          (fun r : Service.Request => r.isWork = false) True :=
        Lease.Guard.obeys_release _ rfl fun _ => rfl
      have habandon : (Lease.Guard.abandon ⟨key, token⟩).Obeys
          (fun r : Service.Request => r.isWork = false) True :=
        Lease.Guard.obeys_abandon _ rfl rfl fun _ => rfl
      refine Lease.Guard.keeps_protect_iff.2 (Service.keeps_log.2
        ⟨hrule _ _ rfl, fun _ _ => ?_, fun _ _ => hidle habandon⟩)
      have hstart := hwork token
      rw [List.append_cons] at hstart
      refine Job.Keeps.mono hstart (fun _ _ hr => hr) ?_ ?_
      · exact fun _ _ _ => hidle hrelease
      · exact fun _ _ _ => hidle habandon

private theorem tolerates_attempting (start : Transcript Service) :
    Tolerates coordinator index True (Attempting coordinator index start) fun _ _ => True where
  stops _ _ _ := trivial
  log _ _ := attempting_of_not_record rfl
  count _ _ := attempting_of_not_record rfl
  readClock _ := attempting_of_not_record rfl
  drawId _ := attempting_of_not_record rfl
  notifyStart _ _ _ := attempting_of_not_record rfl
  notifyEnd _ _ _ := attempting_of_not_record rfl
  beginRebuild _ := attempting_of_not_record rfl
  endRebuild _ := attempting_of_not_record rfl
  readSize _ := attempting_of_not_record rfl

/-- **What an attempt has done** before it creates or updates an action. -/
theorem keeps_perform_attempting (coordinator : Coordinator) (index : Index)
    (t : Transcript Service) :
    (coordinator.perform index).Keeps (.recording Service True) (Attempting coordinator index t)
      (fun _ _ => True) (fun _ _ => True) (fun _ _ => True) t := by
  have hrule : ∀ (t' : Transcript Service) (r : Service.Request), r.isWork = false →
      Attempting coordinator index t t' r := by
    intro t' r hwork
    refine attempting_of_not_record ?_
    cases r with
    | createAction action => cases hwork
    | updateAction action => cases hwork
    | _ => rfl
  have hlocked : ∀ token, (coordinator.performLocked index).toJob.Keeps (.recording Service True)
      (Attempting coordinator index t) (fun _ _ => True) (fun _ _ => True)
        (t ++ coordinator.entered index token) := by
    intro token
    refine Job.Keeps.mono ((tolerates_attempting t).keeps_performLocked (fun _ _ => True) ?_
      (fun _ _ _ => trivial) ?_ fun _ => trivial) (fun _ _ hr => hr) (fun _ _ _ => trivial)
      fun _ _ hs => hs
    · refine fun started id => ⟨?_, (fun _ h => nomatch h)⟩
      rintro action ⟨⟩
      exact ⟨token, started, id, rfl, rfl⟩
    · refine fun replies => ⟨(fun _ h => nomatch h), ?_⟩
      rintro action ⟨⟩
      obtain ⟨more, hmore⟩ : ∃ more, replies.untilUpdate coordinator index =
          ⟨.createAction (.start replies.id index replies.started), .ok ()⟩ :: more := ⟨_, rfl⟩
      exact ⟨token, replies.started, replies.id, more, by rw [hmore], ⟨rfl, rfl, rfl, rfl⟩⟩
  refine Task.keeps_bind.2 ((keeps_holding_recording hrule hlocked).weaken fun result t' _ => ?_)
  match result with
  | some (.ok action) => exact trivial
  | some (.error error) => exact trivial
  | none =>
      refine Task.keeps_bind.2 (Task.keeps_liftM.2 ⟨hrule _ _ rfl, fun _ _ => ?_,
        fun _ _ => trivial⟩)
      exact Task.keeps_bind.2 (Task.keeps_liftM.2 ⟨hrule _ _ rfl, fun _ _ => trivial,
        fun _ _ => trivial⟩)

/-! ### Runs -/

/-- The index was found to have no recent action: its history was read after the clock that the
history was judged by. -/
def Cleared (thresholds : Thresholds) (index : Index) (t : Transcript Service) : Prop :=
  ∃ t₁ t₂ t₃ now history, t = t₁ ++ ⟨.readClock, now⟩ :: t₂ ++
      ⟨.listActions index.database index.identifier, .ok history⟩ :: t₃ ∧
    thresholds.isRecent now history = false

theorem Cleared.append {thresholds : Thresholds} (h : Cleared thresholds index t)
    (more : Transcript Service) : Cleared thresholds index (t ++ more) := by
  obtain ⟨t₁, t₂, t₃, now, history, rfl, hrecent⟩ := h
  exact ⟨t₁, t₂, t₃ ++ more, now, history, by rw [List.append_assoc, List.cons_append], hrecent⟩

/-- What an automatic run has done before it creates or updates an action. -/
structure Conduct (coordinator : Coordinator) (t : Transcript Service) (r : Service.Request) :
    Prop where
  /-- The index of a new action was found to have no recent one, and has none in this run. -/
  creates : ∀ action, r = .createAction action → ∃ index t' started id,
    t = t' ++ [⟨.readClock, started⟩, ⟨.drawId, id⟩] ∧ action = .start id index started ∧
      Cleared coordinator.settings.thresholds index t' ∧
        ∀ other ∈ createdIn t, other.address ≠ index.address
  /-- An updated action was created under the lease that was obtained last. -/
  updates : ∀ action, r = .updateAction action → ∃ opened t' more,
    t = t' ++ ⟨.createAction opened, .ok ()⟩ :: more ∧ action.Continues opened ∧ obtains more = 0
  works : ∀ action, r = .createAction action ∨ r = .updateAction action →
    ∃ index, index.address = action.address ∧
      ∃ guard ∈ handOf t, guard.key = coordinator.leaseKey index

theorem conduct_of_not_record {r : Service.Request} (h : r.isRecord = false) :
    Conduct coordinator t r := by
  refine ⟨?_, ?_, ?_⟩
  · rintro action rfl
    cases h
  · rintro action rfl
    cases h
  · rintro action (rfl | rfl) <;> cases h

/-- The run is between two parts, and has created actions for no other indexes than these. -/
structure Between (done : List Index) (t : Transcript Service) : Prop where
  hand : handOf t = []
  created : ∀ action ∈ createdIn t, action.address ∈ done.map Index.address

theorem Between.concat {done : List Index} (h : Between done t) {r : Service.Request}
    (hlease : r.isLease = false) (hrecord : r.isRecord = false) (answer : Service.Answer r) :
    Between done (t ++ [⟨r, answer⟩]) := by
  refine ⟨?_, ?_⟩
  · rw [handOf_concat_of_not_lease hlease, h.hand]
  · rw [createdIn_concat hrecord]
    exact h.created

/-- The transcript goes on, and actions are created for one index only. -/
def GoesOn (index : Index) (t t' : Transcript Service) : Prop :=
  ∃ more, t' = t ++ more ∧ ∀ action ∈ createdIn more, action.address = index.address

private theorem keeps_perform_goesOn (coordinator : Coordinator) (index : Index)
    (t : Transcript Service) :
    (coordinator.perform index).toJob.Keeps (.recording Service True) (fun _ _ => True)
      (fun _ t' => GoesOn index t t') (fun _ t' => GoesOn index t t') t := by
  have hallows : coordinator.Allows index fun r =>
      ∀ action, r = .createAction action → action.address = index.address := by
    refine ⟨(fun _ _ h => nomatch h), (fun _ _ _ _ h => nomatch h), (fun _ h => nomatch h),
      (fun _ h => nomatch h), ?_, (fun _ _ h => nomatch h), (fun _ _ _ h => nomatch h),
      (fun _ _ _ h => nomatch h), (fun _ h => nomatch h), (fun _ h => nomatch h),
      (fun _ h => nomatch h)⟩
    rintro id now action ⟨⟩
    rfl
  have hobeys := hallows.obeys_perform (fun _ _ _ h => nomatch h) (fun _ _ _ h => nomatch h)
    (fun _ h => nomatch h)
  refine Job.Obeys.keeps hobeys (fun _ _ _ _ => trivial) ?_ (fun _ _ _ hs => hs)
    ⟨[], (List.append_nil t).symm, nofun⟩
  rintro t' r answer ⟨more, rfl, hmore⟩ hr
  refine ⟨more ++ [⟨r, answer⟩], List.append_assoc _ _ _, fun action hm => ?_⟩
  rw [createdIn_append] at hm
  rcases List.mem_append.1 hm with hm | hm
  · exact hmore action hm
  · cases r with
    | createAction other =>
        obtain rfl := List.mem_singleton.1 hm
        exact hr _ rfl
    | _ => cases hm

/-- An attempt of a run for an index that was found to have no recent action. -/
theorem keeps_perform_conduct {done : List Index} (ht : Between done t)
    (hcleared : Cleared coordinator.settings.thresholds index t)
    (hnew : index.address ∉ done.map Index.address) :
    (coordinator.perform index).Keeps (.recording Service True) (Conduct coordinator)
      (fun _ t' => Between (done ++ [index]) t' ∧ t <+: t') (fun _ _ => True) (fun _ _ => True)
      t := by
  refine Job.Keeps.mono (((isRound_perform coordinator index t ht.hand).and
    (keeps_perform_attempting coordinator index t)).and (keeps_perform_goesOn coordinator index t))
    ?_ ?_ fun _ _ _ => trivial
  · rintro t' r ⟨⟨hround, hattempt⟩, -⟩
    refine ⟨?_, ?_, ?_⟩
    · rintro action rfl
      obtain ⟨token, started, id, rfl, rfl⟩ := hattempt.creates action rfl
      refine ⟨index, _, started, id, rfl, rfl, hcleared.append _, fun other hm heq => hnew ?_⟩
      have hother : other ∈ createdIn t := by
        rw [List.append_assoc, createdIn_append] at hm
        exact (List.mem_append.1 hm).resolve_right nofun
      exact heq ▸ ht.created other hother
    · rintro action rfl
      obtain ⟨token, started, id, more, rfl, hcontinues⟩ := hattempt.updates action rfl
      have hasked := hround.asked rfl
      have hentered : obtains (coordinator.entered index token) = 1 := rfl
      have hdrawn : obtains [⟨.readClock, started⟩, ⟨.drawId, id⟩] = 0 := rfl
      have hcreated : obtains (⟨.createAction (.start id index started), .ok ()⟩ :: more) =
        obtains more := rfl
      rw [obtains_append, obtains_append, obtains_append, hentered, hdrawn, hcreated] at hasked
      exact ⟨_, _, more, rfl, hcontinues, by omega⟩
    · rintro action hr
      have hwork : r.isWork = true := by rcases hr with rfl | rfl <;> rfl
      refine ⟨index, ?_, hround.lawful.covered _ (if_pos hwork)⟩
      rcases hr with rfl | rfl
      · obtain ⟨token, started, id, -, rfl⟩ := hattempt.creates action rfl
        rfl
      · obtain ⟨token, started, id, more, -, hcontinues⟩ := hattempt.updates action rfl
        exact hcontinues.address.symm
  · rintro result t' ⟨⟨hend, -⟩, hown⟩
    match result with
    | .error error => exact trivial
    | .ok performed =>
        obtain ⟨more, rfl, hmore⟩ := hown
        refine ⟨⟨hend.1, fun action hm => ?_⟩, List.prefix_append _ _⟩
        rw [createdIn_append] at hm
        rw [List.map_append]
        rcases List.mem_append.1 hm with hm | hm
        · exact List.mem_append_left _ (ht.created action hm)
        · exact List.mem_append_right _ (List.mem_singleton.2 (hmore action hm))

theorem Cleared.mono {thresholds : Thresholds} {t' : Transcript Service}
    (h : Cleared thresholds index t) (hgrows : t <+: t') : Cleared thresholds index t' := by
  obtain ⟨more, rfl⟩ := hgrows
  exact h.append more

/-- Attempts of a run, one after the other. -/
theorem keeps_performAll (rest done : List Index) {t : Transcript Service} (ht : Between done t)
    (hcleared : ∀ index ∈ rest, Cleared coordinator.settings.thresholds index t)
    (hnodup : ((done ++ rest).map Index.address).Nodup) :
    (coordinator.performAll rest).Keeps (.recording Service True) (Conduct coordinator)
      (fun _ _ => True) (fun _ _ => True) (fun _ _ => True) t := by
  induction rest generalizing done t with
  | nil => exact trivial
  | cons index rest ih =>
      have hnew : index.address ∉ done.map Index.address := by
        rw [List.map_append] at hnodup
        exact fun hm => List.disjoint_of_nodup_append hnodup hm (List.mem_cons_self ..)
      refine Task.keeps_bind.2 ((keeps_perform_conduct ht
        (hcleared index (List.mem_cons_self ..)) hnew).weaken ?_)
      rintro performed t' ⟨ht', hgrows⟩
      rw [List.append_cons] at hnodup
      refine Task.keeps_bind.2 ((ih (done ++ [index]) ht' (fun other hm => ?_) hnodup).weaken
        fun _ _ _ => trivial)
      exact (hcleared other (List.mem_cons_of_mem _ hm)).mono hgrows

/-- The indexes without a recent action are found so after the clock was read. -/
theorem keeps_withoutRecent (thresholds : Thresholds) (now : UInt64) (indexes : List Index)
    {t : Transcript Service} (ht : Between [] t) (hnow : ⟨.readClock, now⟩ ∈ t) :
    (Selection.withoutRecent thresholds now indexes).Keeps (.recording Service True)
      (Conduct coordinator) (fun fresh t' => Between [] t' ∧ t <+: t' ∧ fresh.Sublist indexes ∧
        ∀ index ∈ fresh, Cleared thresholds index t') (fun _ _ => True) (fun _ _ => True) t := by
  induction indexes generalizing t with
  | nil => exact ⟨ht, List.prefix_refl t, .slnil, nofun⟩
  | cons index rest ih =>
      refine Task.keeps_bind.2 (Task.keeps_attempt.2
        ⟨conduct_of_not_record rfl, fun answer _ => ?_, fun _ _ => trivial⟩)
      match answer with
      | .error error => exact trivial
      | .ok history =>
          have ht' := ht.concat rfl rfl
            (r := .listActions index.database index.identifier) (.ok history)
          have hnow' := List.mem_append_left
            [⟨.listActions index.database index.identifier, .ok history⟩] hnow
          have hgrows : t <+: t ++ [⟨.listActions index.database index.identifier, .ok history⟩] :=
            List.prefix_append _ _
          show Task.Keeps _ _ _ _ _ (if _ then _ else _) _
          split
          · refine Task.keeps_bind.2 (Task.keeps_liftM.2 (Service.keeps_log.2
              ⟨conduct_of_not_record rfl, fun _ _ => ?_, fun _ _ => trivial⟩))
            have hlogged := ht'.concat (r := .log (Selection.recentEvent index)) rfl rfl ()
            refine (ih hlogged (List.mem_append_left _ hnow')).weaken ?_
            rintro fresh t' ⟨hbetween, hmore, hsublist, hcleared⟩
            exact ⟨hbetween, (hgrows.trans (List.prefix_append _ _)).trans hmore, hsublist.cons _,
              hcleared⟩
          · next hrecent =>
              refine Task.keeps_bind.2 ((ih ht' hnow').weaken ?_)
              rintro fresh t' ⟨hbetween, hmore, hsublist, hcleared⟩
              refine ⟨hbetween, hgrows.trans hmore, hsublist.cons_cons _, ?_⟩
              rintro other hm
              rcases List.mem_cons.1 hm with rfl | hm
              · obtain ⟨t₁, t₂, rfl⟩ := List.append_of_mem hnow
                refine Cleared.mono ⟨t₁, t₂, [], now, history, rfl, ?_⟩ hmore
                exact Bool.not_eq_true _ ▸ hrecent
              · exact hcleared other hm

/-- A choice of indexes is a part of them, in another order. -/
theorem rank_subperm (maximum : Nat) (indexes : List Index) :
    (Selection.rank maximum indexes).Subperm indexes :=
  (List.take_sublist _ _).subperm.trans (List.mergeSort_perm _ _).subperm

/-- Dropping creates no actions. -/
private theorem keeps_drop_between (coordinator : Coordinator) (index : Index)
    (ht : Between [] t) :
    (coordinator.drop index).Keeps (.recording Service True) (Conduct coordinator)
      (fun _ t' => Between [] t') (fun _ _ => True) (fun _ _ => True) t := by
  have hobeys : (coordinator.drop index).Obeys (fun r => r.isRecord = false) True :=
    coordinator.obeys_drop index ⟨fun _ => rfl, fun _ _ _ => rfl, fun _ => rfl⟩ (fun _ _ => rfl)
      (fun _ _ => rfl) rfl
  have hcreated : (coordinator.drop index).toJob.Keeps (.recording Service True)
      (Conduct coordinator) (fun _ t' => ∀ action ∈ createdIn t', action.address ∈ [])
        (fun _ t' => ∀ action ∈ createdIn t', action.address ∈ []) t :=
    Job.Obeys.keeps hobeys (fun _ _ _ hr => conduct_of_not_record hr)
      (fun t' r answer ht' hr => createdIn_concat hr t' answer ▸ ht') (fun _ _ _ hs => hs)
      ht.created
  refine Job.Keeps.mono ((isRound_drop coordinator index t ht.hand).and hcreated)
    (fun _ _ hr => hr.2) ?_ fun _ _ _ => trivial
  rintro result t' ⟨hend, hcreated⟩
  match result with
  | .ok outcome => exact ⟨hend.1, hcreated⟩
  | .error error => exact trivial

private theorem keeps_dropAll_between (indexes : List Index) (ht : Between [] t) :
    (coordinator.dropAll indexes).Keeps (.recording Service True) (Conduct coordinator)
      (fun _ t' => Between [] t') (fun _ _ => True) (fun _ _ => True) t := by
  induction indexes generalizing t with
  | nil => exact ht
  | cons index rest ih =>
      refine Task.keeps_bind.2 ((keeps_drop_between coordinator index ht).weaken fun _ _ ht' => ?_)
      exact Task.keeps_bind.2 ((ih ht').weaken fun _ _ ht'' => ht'')

/-- **Automatic runs keep their rule** on actions, if no two candidates have the same address. -/
theorem keeps_automatic (coordinator : Coordinator) {candidates : List Index} (maximum : Nat)
    (hnodup : (candidates.map Index.address).Nodup) :
    (coordinator.automatic candidates maximum).Keeps (.recording Service True)
      (Conduct coordinator) (fun _ _ => True) (fun _ _ => True) (fun _ _ => True) [] := by
  have hstart : Between [] [] := ⟨rfl, fun _ hm => absurd hm List.not_mem_nil⟩
  refine Task.keeps_bind.2 ((keeps_dropAll_between _ hstart).weaken fun _ t ht => ?_)
  refine Task.keeps_bind.2 (Task.keeps_liftM.2 (Service.keeps_ask.2
    ⟨conduct_of_not_record rfl, fun now _ => ?_, fun _ _ => trivial⟩))
  have ht' := ht.concat (r := .readClock) rfl rfl now
  have hnow : ⟨.readClock, now⟩ ∈ t ++ [⟨.readClock, now⟩] :=
    List.mem_append_right _ (List.mem_singleton_self _)
  refine Task.keeps_bind.2 (Task.keeps_bind.2
    ((keeps_withoutRecent _ now _ ht' hnow).weaken ?_))
  rintro fresh t'' ⟨ht'', -, hsublist, hcleared⟩
  refine Task.keeps_pure.2 (Task.keeps_bind.2 (Task.keeps_liftM.2 (Service.keeps_log.2
    ⟨conduct_of_not_record rfl, fun _ _ => ?_, fun _ _ => trivial⟩)))
  have hrank := rank_subperm maximum fresh
  refine keeps_performAll _ [] (ht''.concat (r := .log _) rfl rfl ()) (fun index hm => ?_) ?_
  · exact (hcleared index (hrank.subset hm)).append _
  · obtain ⟨chosen, hperm, hchosen⟩ := hrank.trans (hsublist.trans List.filter_sublist).subperm
    exact (hperm.map Index.address).nodup_iff.1 (hnodup.sublist (hchosen.map Index.address))

end Coordinator

end Upkeep
