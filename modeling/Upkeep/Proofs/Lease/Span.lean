import Upkeep.Proofs.Crowd.Punctual
import Upkeep.Proofs.Job.Transcript
import Upkeep.Proofs.Lease.Exclusion

/-!
# Spans of work

A member that works under one lease after the other, in rounds: it asks for a lease, works
under it, and gives it back before it asks for the next.  What it does in one round spans the
time from its first deed to its last one.  If all work is done in time, then nobody else works
under the same key within that span.

## Main Definitions

* `handOf`, `obtains` — the guards somebody has after a transcript, and how often a lease was
  asked for in it.
* `Task.IsRound` — a task that is one round under a key.
* `InTime` — all work of a crowd is done before the lease in hand runs out.

## Main Statements

* `isRound_of_keeps` — work under a lease is a round.
* `who_eq_of_span` — a span belongs to one member.

## Design Notes

A lease that was given back too late, or could not be given back, stays outstanding.  So the
span of a round is found by what is in hand and not by what is outstanding.
-/

namespace Upkeep

/-- Whether the request asks for a lease. -/
def Service.Request.isObtain : Service.Request → Bool
  | .obtainLease _ _ => true
  | _ => false

/-- Whether somebody does a part of the work that a lease is for. -/
def Deed.isWork {ι : Type} (deed : Deed ι) : Bool :=
  match deed.act with
  | .asked request => request.isWork
  | _ => false

namespace Lease

open Simulation

variable {ι α β : Type}

/-! ### Transcripts and hands -/

/-- The guards that somebody has after a transcript. -/
def handOf (t : Transcript Service) : List Guard :=
  t.foldl (fun guards exchange => hand.after guards exchange.request exchange.answer) []

@[simp] theorem handOf_nil : handOf [] = [] := rfl

@[simp] theorem handOf_concat (t : Transcript Service) (r : Service.Request)
    (answer : Service.Answer r) :
    handOf (t ++ [⟨r, answer⟩]) = hand.after (handOf t) r answer := by
  rw [handOf, List.foldl_append]
  rfl

/-- What a member has in hand is known from its transcript. -/
theorem watch_hand [DecidableEq ι] (who : ι) (deeds : List (Deed ι)) :
    hand.watch who deeds [] = handOf (transcriptOf who deeds) :=
  Surroundings.watch_eq_foldl (fun _ _ => rfl) who deeds []

/-- What is kept by what is in hand is kept by the transcript. -/
theorem keeps_recording_of_hand {job : Job Service α} {rule : List Guard → Service.Request → Prop}
    {ok : α → List Guard → Prop} {stopped : Interruption → List Guard → Prop}
    {t : Transcript Service} (h : job.Keeps hand rule ok stopped (handOf t)) :
    job.Keeps (.recording Service True) (fun t r => rule (handOf t) r)
      (fun value t => ok value (handOf t)) (fun why t => stopped why (handOf t)) t := by
  have hproject : job.Keeps (.recording Service True) (fun t r => True ∧ rule (handOf t) r)
      (fun value t => True ∧ ok value (handOf t)) (fun why t => True ∧ stopped why (handOf t)) t :=
    h.project trivial (fun s r answer _ _ _ => ⟨trivial, trivial, handOf_concat s r answer⟩)
      (fun _ _ _ => ⟨trivial, rfl⟩) fun _ => trivial
  exact hproject.mono (fun _ _ hr => hr.2) (fun _ _ hv => hv.2) fun _ _ hs => hs.2

/-- How often a lease was asked for. -/
def obtains (t : Transcript Service) : Nat := t.countP fun exchange => exchange.request.isObtain

@[simp] theorem obtains_nil : obtains [] = 0 := rfl

@[simp] theorem obtains_append (t t' : Transcript Service) :
    obtains (t ++ t') = obtains t + obtains t' :=
  List.countP_append

@[simp] theorem obtains_concat (t : Transcript Service) (exchange : Exchange Service) :
    obtains (t ++ [exchange]) = obtains t + exchange.request.isObtain.toNat := by
  rw [obtains, List.countP_append, List.countP_singleton]
  cases exchange.request.isObtain <;> rfl

/-! ### Jobs that ask for one lease -/

/-- The job first asks for the lease of a key, and never for another one; if it is
interrupted at that then it makes no requests at all. -/
def ObtainsOnce (key : String) (ttl : Duration) (job : Job Service α) : Prop :=
  ∃ next, job = .ask (.obtainLease key ttl) next ∧ (∀ why, next (.error why) = .stop why) ∧
    ∀ answer, (next answer).Obeys (fun r : Service.Request => r.isObtain = false) True

variable {key : String} {ttl : Duration}

theorem ObtainsOnce.bind {job : Job Service α} {f : α → Job Service β}
    (h : ObtainsOnce key ttl job)
    (hf : ∀ value, (f value).Obeys (fun r : Service.Request => r.isObtain = false) True) :
    ObtainsOnce key ttl (job.bind f) := by
  obtain ⟨next, rfl, hstop, hnext⟩ := h
  refine ⟨fun answer => (next answer).bind f, rfl, fun why => ?_, fun answer => ?_⟩
  · exact congrArg (Job.bind · f) (hstop why)
  · exact (hnext answer).bind hf

theorem isObtain_of_isLease {r : Service.Request} (h : r.isLease = false) : r.isObtain = false := by
  cases r with
  | obtainLease key ttl => cases h
  | _ => rfl

/-- Work under a lease asks for that lease alone. -/
theorem obtainsOnce_holding (key : String) (ttl : Duration) {work : Job Service α}
    (hwork : work.LeaseFree) : ObtainsOnce key ttl (holding key ttl work).toJob := by
  have hacquire : ObtainsOnce key ttl (acquire key ttl).toJob := by
    refine ⟨_, rfl, fun _ => rfl, fun answer => ?_⟩
    match answer with
    | .ok (.ok token?) => exact trivial
    | .ok (.error error) => exact trivial
    | .error why => exact trivial
  rw [toJob_holding]
  refine hacquire.bind fun result => ?_
  match result with
  | .error error => exact trivial
  | .ok none => exact Job.Obeys.bind (Service.obeys_ask rfl) fun _ => trivial
  | .ok (some guard) =>
      refine Job.Obeys.bind (Job.Obeys.bind (Job.Obeys.onStop ?_ ?_) fun value => ?_)
        fun _ => trivial
      · exact Job.Obeys.bind (Service.obeys_ask rfl) fun _ =>
          hwork.mono (fun _ => isObtain_of_isLease) id
      · exact guard.obeys_abandon rfl rfl fun _ => rfl
      · exact Job.Obeys.bind (guard.obeys_release rfl fun _ => rfl) fun _ => trivial

theorem obtainsOnce_perform (coordinator : Coordinator) (index : Index) :
    ObtainsOnce (coordinator.leaseKey index) coordinator.settings.lease
      (coordinator.perform index).toJob := by
  refine (obtainsOnce_holding _ _ (coordinator.leaseFree_performLocked index)).bind
    fun result => ?_
  match result with
  | .error error => exact trivial
  | .ok (some (.ok action)) => exact trivial
  | .ok (some (.error error)) => exact trivial
  | .ok none =>
      refine Task.Obeys.bind (Task.obeys_liftM (Service.obeys_ask rfl)) fun _ => ?_
      exact Task.Obeys.bind (Task.obeys_liftM (Service.obeys_ask rfl)) fun _ => Task.obeys_pure _

theorem obtainsOnce_drop (coordinator : Coordinator) (index : Index) :
    ObtainsOnce (coordinator.leaseKey index) coordinator.settings.lease
      (coordinator.drop index).toJob := by
  have hreport : ∀ (meter : Meter) (event : Event) (result : Dropped), Task.Obeys
      (fun r => r.isObtain = false) True (do
        Service.count coordinator.account meter
        Service.log event
        return result) := fun meter event result =>
    Task.Obeys.bind (Task.obeys_liftM (Service.obeys_ask rfl)) fun _ =>
      Task.Obeys.bind (Task.obeys_liftM (Service.obeys_ask rfl)) fun _ => Task.obeys_pure _
  refine (obtainsOnce_holding _ _
    (Ddl.Retrier.obeys_run (bookkeeping_leaseFree _) _ _ _)).bind fun result => ?_
  match result with
  | .error error => exact trivial
  | .ok none => exact hreport _ _ _
  | .ok (some (.error error)) => exact trivial
  | .ok (some (.ok (.completed attempts))) => exact hreport _ _ _
  | .ok (some (.ok (.exhausted attempts))) => exact hreport _ _ _

/-! ### Rounds -/

/-- What may be asked in a round under a key that starts when leases were asked for `n` times:
first the lease, and then all else that the lease is for. -/
structure InRound (key : String) (n : Nat) (t : Transcript Service) (r : Service.Request) :
    Prop where
  asks : r.isObtain = true → obtains t = n
  asked : r.isWork = true → obtains t = n + 1
  lawful : Lawful (under key) (handOf t) r

/-- The task is one round under a key: it begins and ends with empty hands. -/
def IsRound (key : String) (task : Task α) : Prop :=
  ∀ t, handOf t = [] → task.Keeps (.recording Service True) (InRound key (obtains t))
    (fun _ t' => handOf t' = [] ∧ obtains t' = obtains t + 1)
    (fun _ t' => handOf t' = [] ∧ obtains t' = obtains t + 1) (fun _ _ => True) t

/-- A job that asks for one lease does so before all else. -/
theorem ObtainsOnce.keeps {job : Job Service α} (h : ObtainsOnce key ttl job)
    (t : Transcript Service) :
    job.Keeps (.recording Service True)
      (fun t' r => obtains t' = obtains t + (!r.isObtain).toNat)
      (fun _ t' => obtains t' = obtains t + 1) (fun _ _ => True) t := by
  obtain ⟨next, rfl, hstop, hnext⟩ := h
  refine ⟨rfl, fun answer _ => ?_, fun _ why => ?_⟩
  · have hstart : obtains (t ++ [⟨.obtainLease key ttl, answer⟩]) = obtains t + 1 :=
      obtains_concat t _
    have hrest : (next (.ok answer)).Keeps (.recording Service True)
        (fun t' r => obtains t' = obtains t + (!r.isObtain).toNat)
        (fun _ t' => obtains t' = obtains t + 1) (fun _ t' => obtains t' = obtains t + 1)
        (t ++ [⟨.obtainLease key ttl, answer⟩]) := by
      refine (hnext _).keeps ?_ ?_ (fun _ _ _ hs => hs) hstart
      · intro t' r ht' hr
        rw [ht', hr]
        rfl
      · intro t' r answer ht' hr
        show obtains (t' ++ [⟨r, answer⟩]) = _
        rw [obtains_concat, ht', hr]
        rfl
    exact hrest.mono (fun _ _ hr => hr) (fun _ _ hs => hs) fun _ _ _ => trivial
  · rw [hstop]
    trivial

theorem isWork_eq_false_of_isObtain {r : Service.Request} (h : r.isObtain = true) :
    r.isWork = false := by
  cases r with
  | obtainLease key ttl => rfl
  | _ => cases h

/-- **Work under one lease is a round**, if it begins and ends with empty hands. -/
theorem isRound_of_keeps {task : Task α} (honce : ObtainsOnce key ttl task.toJob)
    (h : task.Keeps hand (Lawful (under key)) (fun _ after => after = [])
      (fun _ after => after = []) (fun _ _ => True) []) : IsRound key task := by
  intro t ht
  have hlawful := keeps_recording_of_hand (t := t) (ht.symm ▸ h)
  refine (hlawful.and (honce.keeps t)).mono ?_ ?_ fun _ _ _ => trivial
  · rintro t' r ⟨hr, hasked⟩
    refine ⟨fun hobtain => ?_, fun hwork => ?_, hr⟩
    · rw [hasked, hobtain]
      rfl
    · have hobtain : r.isObtain = false := by
        by_contra hobtain
        rw [isWork_eq_false_of_isObtain (Bool.not_eq_false _ ▸ hobtain)] at hwork
        cases hwork
      rw [hasked, hobtain]
      rfl
  · rintro result t' ⟨hend, hobtains⟩
    match result with
    | .ok value => exact ⟨hend.trans ht, hobtains⟩
    | .error error => exact ⟨hend.trans ht, hobtains⟩

/-- An attempt is a round under the lease for work on its index. -/
theorem isRound_perform (coordinator : Coordinator) (index : Index) :
    IsRound (coordinator.leaseKey index) (coordinator.perform index) :=
  isRound_of_keeps (obtainsOnce_perform coordinator index) (coordinator.keeps_perform index)

/-- A drop is a round under the lease for work on its index. -/
theorem isRound_drop (coordinator : Coordinator) (index : Index) :
    IsRound (coordinator.leaseKey index) (coordinator.drop index) :=
  isRound_of_keeps (obtainsOnce_drop coordinator index) (coordinator.keeps_drop index)

/-! ### Empty hands -/

/-- The task uses leases through guards alone, and begins and ends with empty hands. -/
def EmptyHanded (task : Task α) : Prop :=
  task.Keeps hand (Lawful fun _ => none) (fun _ after => after = []) (fun _ after => after = [])
    (fun _ _ => True) []

theorem emptyHanded_pure (value : α) : EmptyHanded (pure value) := rfl

theorem EmptyHanded.bind {task : Task α} {f : α → Task β} (h : EmptyHanded task)
    (hf : ∀ value, EmptyHanded (f value)) : EmptyHanded (task >>= f) := by
  refine Task.keeps_bind.2 (h.weaken ?_)
  rintro value s rfl
  exact hf value

/-- What is done under a lease may also be done if nothing is demanded of it. -/
theorem emptyHanded_of_keeps {task : Task α}
    (h : task.Keeps hand (Lawful (under key)) (fun _ after => after = [])
      (fun _ after => after = []) (fun _ _ => True) []) : EmptyHanded task :=
  h.mono (fun _ _ hr => ⟨hr.own, nofun⟩) (fun _ _ hs => hs) (fun _ _ hs => hs) fun _ _ hs => hs

/-- What leaves leases alone may be done with empty hands. -/
theorem emptyHanded_of_leaseFree {task : Task α} (h : task.LeaseFree) : EmptyHanded task := by
  have hkeeps : task.toJob.Keeps hand (Lawful fun _ => none) (fun _ after => after = [])
      (fun _ after => after = []) [] := by
    refine Job.Obeys.keeps h ?_ ?_ (fun _ _ _ hs => hs) rfl
    · rintro _ r - hfree
      refine ⟨?_, nofun⟩
      rintro key token rfl
      cases hfree
    · rintro _ r answer rfl hfree
      cases r with
      | obtainLease key ttl => cases hfree
      | releaseLease key token => cases hfree
      | _ => rfl
  refine Job.Keeps.mono hkeeps (fun _ _ hr => hr) (fun result _ hs => ?_) fun _ _ _ => trivial
  match result with
  | .ok value => exact hs
  | .error error => exact hs

theorem EmptyHanded.guarded {task : Task α} (h : EmptyHanded task) :
    Guarded (fun _ => none) task.toJob :=
  guarded_of_keeps h

/-! ### Spans -/

/-- All work is done before the lease in hand runs out. -/
def InTime [DecidableEq ι] (deeds : List (Deed ι)) : Prop :=
  ∀ before deed after, deeds = before ++ deed :: after → deed.isWork = true →
    ∀ held ∈ outstanding before, held.guard ∈ hand.watch deed.who before [] →
      deed.now < held.until

/-- What holds at every place of a list, by the places. -/
private theorem forall_split_iff {l : List α} {p : List α → α → Prop} :
    (∀ before a after, l = before ++ a :: after → p before a) ↔
      ∀ k (h : k < l.length), p (l.take k) (l.get ⟨k, h⟩) := by
  constructor
  · intro hsplit k hk
    refine hsplit _ _ (l.drop (k + 1)) ?_
    rw [List.get_eq_getElem, ← List.drop_eq_getElem_cons hk, List.take_append_drop]
  · rintro hplace before a after rfl
    have h := hplace before.length (by simp)
    simpa using h

instance [DecidableEq ι] (deeds : List (Deed ι)) : Decidable (InTime deeds) :=
  decidable_of_iff _ (forall_split_iff (p := fun before deed => deed.isWork = true →
    ∀ held ∈ outstanding before, held.guard ∈ hand.watch deed.who before [] →
      deed.now < held.until)).symm

theorem isWork_of_asked {deed : Deed ι} {r : Service.Request} (hact : deed.act = .asked r)
    (hwork : r.isWork = true) : deed.isWork = true := by
  rw [Deed.isWork, hact]
  exact hwork

variable [DecidableEq ι] {needs : ι → Service.Request → Option String} {crowd : Crowd ι α}
  {turns : List (Turn ι)}

omit [DecidableEq ι] in
/-- Who asks for no lease has no other leases outstanding than before. -/
private theorem mem_outstanding_of_none {before more : List (Deed ι)} {held : Holding ι}
    (hheld : held ∈ outstanding (before ++ more))
    (hnone : ∀ deed ∈ more, deed.who = held.who →
      ∀ r, deed.act = .asked r → r.isObtain = false) : held ∈ outstanding before := by
  refine (mem_outstanding_append hheld).resolve_right ?_
  rintro ⟨l₁, grant, l₂, rfl, hg⟩
  obtain ⟨key, ttl, token, hact, -, rfl⟩ := eq_of_granted? hg
  have hobtain := hnone grant (by simp) rfl _ hact
  cases hobtain

/-- **A span belongs to one member**: between two deeds of somebody who has asked for no lease
since the first one and works in time under a lease, only that member works in time under a
lease of the same key. -/
theorem who_eq_of_span (h : Opening needs crowd) {l₁ l₂ l₃ l₄ : List (Deed ι)} {a b c : Deed ι}
    (hd : (crowd.run turns).2 = l₁ ++ a :: l₂ ++ b :: l₃ ++ c :: l₄) (hwho : c.who = a.who)
    (hnone : ∀ deed ∈ a :: l₂ ++ b :: l₃, deed.who = a.who →
      ∀ r, deed.act = .asked r → r.isObtain = false)
    (hintime : InTime (crowd.run turns).2) (hc : c.isWork = true) (hb : b.isWork = true)
    {guard guard' : Guard} (hguard : guard ∈ hand.watch c.who (l₁ ++ a :: l₂ ++ b :: l₃) [])
    (hguard' : guard' ∈ hand.watch b.who (l₁ ++ a :: l₂) []) (hkey : guard.key = guard'.key) :
    b.who = a.who := by
  have hd₂ : (crowd.run turns).2 = l₁ ++ a :: l₂ ++ b :: (l₃ ++ c :: l₄) := by
    rw [hd, List.append_assoc (l₁ ++ a :: l₂), List.cons_append]
  -- The lease of the last deed is that of the first one, so the second deed found it there.
  obtain ⟨own, hown, hownwho, rfl⟩ := inHand_of_run h hd hguard
  have howna : own.who = a.who := hownwho.trans hwho
  have hmiddle : own ∈ outstanding (l₁ ++ a :: l₂) := by
    refine mem_outstanding_of_none hown fun deed hm hdeed => ?_
    exact hnone deed (List.mem_append_right _ hm) (hdeed.trans howna)
  have hfirst : own ∈ outstanding l₁ := by
    refine mem_outstanding_of_none hmiddle fun deed hm hdeed => ?_
    exact hnone deed (List.mem_append_left _ hm) (hdeed.trans howna)
  obtain ⟨theirs, htheirs, htheirswho, rfl⟩ := inHand_of_run h hd₂ hguard'
  obtain rfl := eq_of_overlap h hd hfirst hmiddle htheirs hkey (hintime _ _ _ hd hc own hown hguard)
    (hintime _ _ _ hd₂ hb theirs htheirs hguard')
  exact htheirswho.symm.trans howna

end Lease

end Upkeep
