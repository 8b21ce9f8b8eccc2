import Upkeep.Proofs.Reindex.Attempt
import Upkeep.Proofs.Simulation.Counts

/-!
# Whether the counts of attempts balance

Every attempt that is counted as started is counted as finished or as failed, unless its rebuild
has succeeded and the record of that could not be kept: then it is counted as neither.  So the
counts balance exactly if the number of such attempts is a multiple of what a counter can hold.

## Main Definitions

* `Exchange.isUnkept` — the record of an attempt that has finished could not be kept.
* `Transcript.Silent` — nothing is counted, and every record was kept.
* `Transcript.Balances` — what was started has ended, or its record could not be kept.
* `Coordinator.performEach` — attempts one after another, whatever becomes of them.

## Main Statements

* `Coordinator.Course.balances` — one attempt.
* `Coordinator.balanced_iff` — any number of attempts, whatever they are answered.
-/

namespace Upkeep

/-! ### Transcripts -/

/-- The record of an attempt that has finished could not be kept. -/
def Exchange.isUnkept : Exchange Service → Bool
  | ⟨.updateAction action, .error _⟩ => action.state == .finished
  | _ => false

/-- Nothing is counted, and no record is updated. -/
def Exchange.IsSilent (exchange : Exchange Service) : Prop :=
  (∀ account meter n, exchange.request ≠ .count account meter n) ∧
    ∀ action, exchange.request ≠ .updateAction action

namespace Transcript

variable {account : Account} {t t' : Transcript Service}

/-- How many records of finished attempts could not be kept. -/
def unkept (t : Transcript Service) : Nat := t.countP Exchange.isUnkept

theorem unkept_append (t t' : Transcript Service) :
    unkept (t ++ t') = unkept t + unkept t' :=
  List.countP_append

/-- Nothing is counted in the transcript, and every record was kept. -/
structure Silent (t : Transcript Service) : Prop where
  counted_eq : ∀ account meter, t.counted account meter = 0
  unkept_eq : t.unkept = 0

theorem silent_of_forall (h : ∀ exchange ∈ t, exchange.IsSilent) : Silent t := by
  induction t with
  | nil => exact ⟨fun _ _ => rfl, rfl⟩
  | cons exchange t ih =>
      obtain ⟨⟨hcount, hupdate⟩, hrest⟩ := List.forall_mem_cons.1 h
      obtain ⟨hcounted, hunkept⟩ := ih hrest
      obtain ⟨request, answer⟩ := exchange
      cases request with
      | count account meter n => exact absurd rfl (hcount account meter n)
      | updateAction action => exact absurd rfl (hupdate action)
      | _ =>
        refine ⟨fun account meter => ?_, ?_⟩
        · rw [counted, hcounted]
          rfl
        · rw [unkept, List.countP_cons_of_neg Bool.false_ne_true]
          exact hunkept

theorem Silent.append (h : Silent t) (h' : Silent t') : Silent (t ++ t') where
  counted_eq account meter := by
    rw [counted_append, h.counted_eq, h'.counted_eq]
    rfl
  unkept_eq := by rw [unkept_append, h.unkept_eq, h'.unkept_eq]

/-- The started attempts are those that have finished, those that have failed, and those whose
record could not be kept. -/
def Balances (account : Account) (t : Transcript Service) : Prop :=
  t.counted account .reindexStarted =
    t.counted account .reindexFinished + t.counted account .reindexFailed +
      UInt64.ofNat t.unkept

theorem Silent.balances (h : Silent t) (account : Account) : Balances account t := by
  simp only [Balances, h.counted_eq, h.unkept_eq]
  rfl

theorem Balances.append (h : Balances account t) (h' : Balances account t') :
    Balances account (t ++ t') := by
  unfold Balances at *
  simp only [counted_append, unkept_append, UInt64.ofNat_add, h, h']
  ac_rfl

end Transcript

/-! ### One attempt -/

namespace Coordinator

open Transcript

variable {coordinator : Coordinator} {index : Index}

theorem silent_loggedIfFailed {α : Type} (event : Error → Event) (result : Except Error α) :
    Silent (loggedIfFailed event result) := by
  cases result with
  | ok value => exact silent_of_forall fun _ hm => absurd hm List.not_mem_nil
  | error error => exact silent_of_forall (by simp [loggedIfFailed, logged, Exchange.IsSilent])

theorem silent_notified {exchange : Worker → Exchange Service} {failure : Transcript Service}
    (entry : Event) (hexchange : ∀ worker, (exchange worker).IsSilent) (hfailure : Silent failure) :
    Silent (coordinator.notified exchange failure entry) := by
  unfold notified
  split
  · exact (silent_of_forall (List.forall_mem_singleton.2 (hexchange _))).append hfailure
  · exact silent_of_forall (by simp [logged, Exchange.IsSilent])
  · exact silent_of_forall fun _ hm => absurd hm List.not_mem_nil

theorem silent_announced (coordinator : Coordinator) (action : Action)
    (told : Except Error Unit) : Silent (coordinator.announced action told) :=
  silent_notified _ (fun _ => ⟨nofun, nofun⟩) (silent_loggedIfFailed _ told)

theorem silent_reported (coordinator : Coordinator) (action : Action)
    (told : Except Error Unit) : Silent (coordinator.reported action told) :=
  silent_notified _ (fun _ => ⟨nofun, nofun⟩) (silent_loggedIfFailed _ told)

theorem silent_returned (key : String) (token : Lease.Token) (released : Except Error Bool) :
    Silent (returned key token released) := by
  unfold returned
  split <;> exact silent_of_forall (by simp [logged, Exchange.IsSilent])

/-- Until the update of the action only the start is counted. -/
theorem counted_untilUpdate (coordinator : Coordinator) (index : Index) (replies : Replies) :
    (∀ meter, (replies.untilUpdate coordinator index).counted coordinator.account meter =
        if Meter.reindexStarted = meter then 1 else 0) ∧
      unkept (replies.untilUpdate coordinator index) = 0 := by
  have hannounced := silent_announced coordinator (replies.opened index) replies.told
  have hrebuilt := silent_loggedIfFailed (rebuildFailedEvent (replies.opened index) index)
    replies.rebuilt
  have hsize := silent_loggedIfFailed (sizeUnknownEvent index) replies.size
  constructor
  · intro meter
    simp only [Replies.untilUpdate, counted_append, hannounced.counted_eq, hrebuilt.counted_eq,
      hsize.counted_eq]
    simp [Transcript.counted, Exchange.counted, Coordinator.counted, logged]
  · simp only [Replies.untilUpdate, unkept_append, hannounced.unkept_eq, hrebuilt.unkept_eq,
      hsize.unkept_eq]
    rfl

/-- From the update of the action on one end is counted, or a record is not kept. -/
theorem counted_concluded (coordinator : Coordinator) (index : Index) (replies : Replies) :
    (replies.concluded coordinator index).counted coordinator.account .reindexStarted = 0 ∧
      (replies.concluded coordinator index).counted coordinator.account .reindexFinished +
        (replies.concluded coordinator index).counted coordinator.account .reindexFailed +
          UInt64.ofNat (unkept [⟨.updateAction (replies.closed index), replies.updated⟩] +
            unkept (replies.concluded coordinator index)) = 1 := by
  obtain ⟨_, _, _, _, rebuilt, _, _, updated, _⟩ := replies
  cases rebuilt <;> cases updated <;>
    simp [Replies.concluded, Replies.closed, closedAction, loggedIfFailed, logged,
      Coordinator.counted, Transcript.counted, Exchange.counted, unkept, Exchange.isUnkept]

/-- An attempt that is seen through is counted as started, and then by how it ends, unless its
record is not kept. -/
theorem balances_seenThrough (replies : Replies) :
    Balances coordinator.account (replies.seenThrough coordinator index) := by
  obtain ⟨hstarted, huntil⟩ := counted_untilUpdate coordinator index replies
  obtain ⟨hnone, hended⟩ := counted_concluded coordinator index replies
  have hreported := silent_reported coordinator (replies.closed index) replies.toldEnd
  have hupdate (meter : Meter) : Transcript.counted coordinator.account meter
      [⟨.updateAction (replies.closed index), replies.updated⟩] = 0 := rfl
  simp only [Balances, Replies.seenThrough, counted_append, unkept_append, hstarted, huntil,
    hupdate, hreported.counted_eq, hreported.unkept_eq, hnone]
  simpa using hended.symm

/-- **One attempt** keeps the balance, whatever course it takes. -/
theorem Course.balances {t : Transcript Service} {result : Except Error Performed}
    (h : Course coordinator index t result) : Balances coordinator.account t := by
  cases h with
  | unavailable error =>
      exact (silent_of_forall (by simp [Exchange.IsSilent])).balances _
  | held =>
      simp [Balances, Coordinator.counted, logged, Transcript.counted, Exchange.counted, unkept,
        Exchange.isUnkept]
  | unrecorded token started id error released =>
      refine Silent.balances (.append ?_ (silent_returned _ _ released)) _
      exact silent_of_forall (by simp [logged, Exchange.IsSilent])
  | seenThrough token replies released =>
      refine .append (.append (Silent.balances ?_ _) (balances_seenThrough replies))
        ((silent_returned _ _ released).balances _)
      exact silent_of_forall (by simp [logged, Exchange.IsSilent])

/-! ### Attempts one after another -/

/-- Attempts one after another, each of them whatever has become of those before. -/
def performEach (coordinator : Coordinator) :
    List Index → Job Service (List (Except Error Performed))
  | [] => return []
  | index :: rest => do
      let result ← (coordinator.perform index).toJob
      return result :: (← coordinator.performEach rest)

section Run

variable {σ : Type} (coordinator : Coordinator)
  (answer : (r : Service.Request) → σ → Service.Answer r × σ) (elapse : Duration → σ → σ) (s : σ)

/-- An attempt comes to an end, and keeps the balance. -/
theorem balances_perform (index : Index) :
    ∃ result, ((coordinator.perform index).toJob.run answer elapse s).1 = .ok result ∧
      Balances coordinator.account
        ((coordinator.perform index).toJob.transcript answer elapse s) := by
  rcases Task.ends_of_keeps (keeps_perform_recording coordinator index) answer elapse s with
    ⟨performed, hrun, hcourse⟩ | ⟨error, hrun, hcourse⟩
  · exact ⟨.ok performed, hrun, hcourse.balances⟩
  · exact ⟨.error error, hrun, hcourse.balances⟩

/-- Attempts one after another come to an end, and keep the balance. -/
theorem balances_performEach (indexes : List Index) :
    (∃ results, ((coordinator.performEach indexes).run answer elapse s).1 = .ok results ∧
        results.length = indexes.length) ∧
      Balances coordinator.account
        ((coordinator.performEach indexes).transcript answer elapse s) := by
  induction indexes generalizing s with
  | nil => exact ⟨⟨[], rfl, rfl⟩, rfl⟩
  | cons index rest ih =>
      obtain ⟨result, hresult, hfirst⟩ := balances_perform coordinator answer elapse s index
      obtain ⟨s₁, hrun⟩ : ∃ s₁, (coordinator.perform index).toJob.run answer elapse s =
          (.ok result, s₁) := ⟨_, Prod.ext hresult rfl⟩
      obtain ⟨⟨results, hresults, hlength⟩, hothers⟩ := ih s₁
      obtain ⟨s₂, hruns⟩ : ∃ s₂, (coordinator.performEach rest).run answer elapse s₁ =
          (.ok results, s₂) := ⟨_, Prod.ext hresults rfl⟩
      rw [performEach]
      simp only [Job.bind_eq, Job.pure_eq, Job.run_bind, Job.transcript_bind, hrun, hruns,
        Job.run_done, Job.transcript, List.append_nil]
      exact ⟨⟨_, rfl, congrArg Nat.succ hlength⟩, hfirst.append hothers⟩

/-- **When the counts of attempts balance.**  Attempts one after another come to an end whatever
they are answered, and each that was counted as started is counted as finished, or as failed, or
its rebuild has succeeded and the store did not keep the record.  So the counts balance exactly if
the number of the latter is a multiple of what a counter can hold, as it is if there are none. -/
theorem balanced_iff (indexes : List Index) :
    let t := (coordinator.performEach indexes).transcript answer elapse s
    (∃ results, ((coordinator.performEach indexes).run answer elapse s).1 = .ok results ∧
        results.length = indexes.length) ∧
      t.counted coordinator.account .reindexStarted =
        t.counted coordinator.account .reindexFinished +
          t.counted coordinator.account .reindexFailed + UInt64.ofNat t.unkept ∧
      (t.counted coordinator.account .reindexStarted =
          t.counted coordinator.account .reindexFinished +
            t.counted coordinator.account .reindexFailed ↔
        UInt64.size ∣ t.unkept) := by
  intro t
  obtain ⟨hends, hbalances⟩ := balances_performEach coordinator answer elapse s indexes
  refine ⟨hends, hbalances, ?_⟩
  have hzero : UInt64.ofNat t.unkept = 0 ↔ UInt64.size ∣ t.unkept := by
    rw [← UInt64.toNat_inj, UInt64.toNat_ofNat', Nat.dvd_iff_mod_eq_zero]
    rfl
  rw [hbalances, ← hzero]
  exact UInt64.add_eq_left

end Run

end Coordinator

end Upkeep
