import Upkeep.Service

/-!
# Rules that jobs keep

A job is a tree with a branch for every answer, so a statement about all that it
may do is one about all of its branches.  `Job.Keeps` is that statement: in
surroundings which say what may be answered, every request of the job obeys a
rule, and however the job ends its end obeys a postcondition.

## Main Definitions

* `Surroundings` — what may be answered to a request, and what becomes of a state.
* `undisturbed` — the surroundings of a job that nobody interrupts.
* `Job.Keeps` — a job keeps a rule on its requests, and its ends are as demanded.
* `Task.Keeps` — the same of a task, whose ends are of three kinds.
* `Job.Obeys`, `Task.Obeys` — no other requests are made, whatever is answered.
* `Job.Settles`, `Task.Settles` — the same, and the job ends with a value unless it is interrupted.
* `Task.Composes` — a property that is passed on to sequences.

## Main Statements

* `Job.keeps_bind`, `Job.keeps_onStop`, `Task.keeps_bind` — sequences by their parts.
* `Job.Keeps.project` — a rule kept in plainer surroundings is kept in richer ones.

## Design Notes

The state is whatever the rule has to know: the world that answers, or only what
the job itself did so far.  In the second case nothing is known about answers, and
the job may be interrupted at any of its waits, so the rule is kept whatever else
happens at the same time.

The postcondition of a sequence's first part is that its second part keeps the rule
from there on.  So a sequence is taken apart from the left by rewriting alone, and
the parts that do nothing of interest vanish by `simp`.
-/

namespace Upkeep

/-- What may be answered to a request in a state, and the states after that. -/
structure Surroundings (I : Interface) (σ : Type) where
  /-- The answers that a request may get. -/
  replies : σ → (r : I.Request) → I.Answer r → Prop
  /-- The state after a request with its answer. -/
  after : σ → (r : I.Request) → I.Answer r → σ
  /-- The state after a sleep. -/
  slept : σ → Duration → σ
  /-- Whether a wait may end with an interruption. -/
  interrupts : Prop

/-- Any answer may be given, and nobody is interrupted. -/
def undisturbed : Surroundings Service Unit where
  replies _ _ _ := True
  after _ _ _ := ()
  slept _ _ := ()
  interrupts := False

namespace Job

variable {I : Interface} {σ τ α β : Type} {S : Surroundings I σ}
  {rule : σ → I.Request → Prop}

/-- Every request of the job obeys the rule, a value that it ends with is as `ok`
demands, and an end without one is as `stopped` demands. -/
def Keeps (S : Surroundings I σ) (rule : σ → I.Request → Prop) (ok : α → σ → Prop)
    (stopped : Interruption → σ → Prop) : Job I α → σ → Prop
  | done value, s => ok value s
  | stop why, s => stopped why s
  | sleep length next, s =>
      (next (.ok ())).Keeps S rule ok stopped (S.slept s length) ∧
        (S.interrupts → ∀ why, (next (.error why)).Keeps S rule ok stopped s)
  | ask request next, s =>
      rule s request ∧
        (∀ answer, S.replies s request answer →
          (next (.ok answer)).Keeps S rule ok stopped (S.after s request answer)) ∧
        (S.interrupts → ∀ why, (next (.error why)).Keeps S rule ok stopped s)

section Ends

variable {ok : α → σ → Prop} {stopped : Interruption → σ → Prop} {s : σ}

@[simp] theorem keeps_done {value : α} :
    (done value : Job I α).Keeps S rule ok stopped s ↔ ok value s := Iff.rfl

@[simp] theorem keeps_stop {why : Interruption} :
    (stop why : Job I α).Keeps S rule ok stopped s ↔ stopped why s := Iff.rfl

/-- One request. -/
@[simp] theorem keeps_request {r : I.Request} {ok : I.Answer r → σ → Prop} :
    (request r).Keeps S rule ok stopped s ↔
      rule s r ∧ (∀ answer, S.replies s r answer → ok answer (S.after s r answer)) ∧
        (S.interrupts → ∀ why, stopped why s) := Iff.rfl

/-- One sleep. -/
@[simp] theorem keeps_pause {length : Duration} {ok : Unit → σ → Prop} :
    (pause length : Job I Unit).Keeps S rule ok stopped s ↔
      ok () (S.slept s length) ∧ (S.interrupts → ∀ why, stopped why s) := Iff.rfl

end Ends

/-- A sequence keeps a rule exactly if its first part does and ends where the rest
does. -/
@[simp] theorem keeps_bind {job : Job I α} {f : α → Job I β} {ok : β → σ → Prop}
    {stopped : Interruption → σ → Prop} {s : σ} :
    (job.bind f).Keeps S rule ok stopped s ↔
      job.Keeps S rule (fun value s => (f value).Keeps S rule ok stopped s) stopped s := by
  induction job generalizing s with
  | done value => rfl
  | stop why => rfl
  | sleep length next ih => simp only [sleep_bind, Keeps, ih]
  | ask request next ih => simp only [ask_bind, Keeps, ih]

/-- A clean-up is what remains of a job that is stopped. -/
@[simp] theorem keeps_onStop {job : Job I α} {cleanup : Job I Unit} {ok : α → σ → Prop}
    {stopped : Interruption → σ → Prop} {s : σ} :
    (job.onStop cleanup).Keeps S rule ok stopped s ↔
      job.Keeps S rule ok
        (fun why s => cleanup.Keeps S rule (fun _ s => stopped why s) stopped s) s := by
  induction job generalizing s with
  | done value => rfl
  | stop why => simp only [onStop_stop, keeps_bind, keeps_stop]
  | sleep length next ih => simp only [onStop, Keeps, ih]
  | ask request next ih => simp only [onStop, Keeps, ih]

/-- Weaker rules and postconditions are kept as well. -/
theorem Keeps.mono {job : Job I α} {rule' : σ → I.Request → Prop} {ok ok' : α → σ → Prop}
    {stopped stopped' : Interruption → σ → Prop} {s : σ}
    (h : job.Keeps S rule ok stopped s) (hrule : ∀ s r, rule s r → rule' s r)
    (hok : ∀ value s, ok value s → ok' value s)
    (hstopped : ∀ why s, stopped why s → stopped' why s) :
    job.Keeps S rule' ok' stopped' s := by
  induction job generalizing s with
  | done value => exact hok value s h
  | stop why => exact hstopped why s h
  | sleep length next ih => exact ⟨ih _ h.1, fun hi why => ih _ (h.2 hi why)⟩
  | ask request next ih =>
      exact ⟨hrule s request h.1, fun answer ha => ih _ (h.2.1 answer ha),
        fun hi why => ih _ (h.2.2 hi why)⟩

/-- Two rules that are kept are kept together. -/
theorem Keeps.and {job : Job I α} {rule' : σ → I.Request → Prop} {ok ok' : α → σ → Prop}
    {stopped stopped' : Interruption → σ → Prop} {s : σ}
    (h : job.Keeps S rule ok stopped s) (h' : job.Keeps S rule' ok' stopped' s) :
    job.Keeps S (fun s r => rule s r ∧ rule' s r) (fun value s => ok value s ∧ ok' value s)
      (fun why s => stopped why s ∧ stopped' why s) s := by
  induction job generalizing s with
  | done value => exact ⟨h, h'⟩
  | stop why => exact ⟨h, h'⟩
  | sleep length next ih => exact ⟨ih _ h.1 h'.1, fun hi why => ih _ (h.2 hi why) (h'.2 hi why)⟩
  | ask request next ih =>
      exact ⟨⟨h.1, h'.1⟩, fun answer ha => ih _ (h.2.1 answer ha) (h'.2.1 answer ha),
        fun hi why => ih _ (h.2.2 hi why) (h'.2.2 hi why)⟩

/-- A rule that demands nothing is kept. -/
theorem keeps_trivially (job : Job I α) (s : σ) :
    job.Keeps S (fun _ _ => True) (fun _ _ => True) (fun _ _ => True) s := by
  induction job generalizing s with
  | done value => exact trivial
  | stop why => exact trivial
  | sleep length next ih => exact ⟨ih _ _, fun _ why => ih _ _⟩
  | ask request next ih => exact ⟨trivial, fun answer _ => ih _ _, fun _ why => ih _ _⟩

/-- **A rule that is kept in plainer surroundings** is kept in any whose states have
a view in them, as long as the invariant of the view is preserved. -/
theorem Keeps.project {T : Surroundings I τ} {view : σ → τ} {inv : σ → Prop}
    {job : Job I α} {rule : τ → I.Request → Prop} {ok : α → τ → Prop}
    {stopped : Interruption → τ → Prop} {s : σ}
    (h : job.Keeps T rule ok stopped (view s)) (hs : inv s)
    (hask : ∀ s r answer, inv s → rule (view s) r → S.replies s r answer →
      T.replies (view s) r answer ∧ inv (S.after s r answer) ∧
        view (S.after s r answer) = T.after (view s) r answer)
    (hsleep : ∀ s length, inv s →
      inv (S.slept s length) ∧ view (S.slept s length) = T.slept (view s) length)
    (hinterrupts : S.interrupts → T.interrupts) :
    job.Keeps S (fun s r => inv s ∧ rule (view s) r) (fun value s => inv s ∧ ok value (view s))
      (fun why s => inv s ∧ stopped why (view s)) s := by
  induction job generalizing s with
  | done value => exact ⟨hs, h⟩
  | stop why => exact ⟨hs, h⟩
  | sleep length next ih =>
      obtain ⟨hinv, hview⟩ := hsleep s length hs
      exact ⟨ih _ (hview ▸ h.1) hinv,
        fun hi why => ih _ (h.2 (hinterrupts hi) why) hs⟩
  | ask request next ih =>
      refine ⟨⟨hs, h.1⟩, fun answer ha => ?_,
        fun hi why => ih _ (h.2.2 (hinterrupts hi) why) hs⟩
      obtain ⟨hreply, hinv, hview⟩ := hask s request answer hs h.1 ha
      exact ih _ (hview ▸ h.2.1 answer hreply) hinv

/-- Whatever happens, the job makes no other requests than these, and it sleeps only if
that is allowed. -/
def Obeys (p : I.Request → Prop) (sleeps : Prop) : Job I α → Prop
  | done _ => True
  | stop _ => True
  | sleep _ next => sleeps ∧ ∀ woken, (next woken).Obeys p sleeps
  | ask request next => p request ∧ ∀ answer, (next answer).Obeys p sleeps

section Obeys

variable {p q : I.Request → Prop} {sleeps sleeps' : Prop}

theorem Obeys.bind {job : Job I α} {f : α → Job I β} (h : job.Obeys p sleeps)
    (hf : ∀ value, (f value).Obeys p sleeps) : (job.bind f).Obeys p sleeps := by
  induction job with
  | done value => exact hf value
  | stop why => exact trivial
  | sleep length next ih => exact ⟨h.1, fun woken => ih woken (h.2 woken)⟩
  | ask request next ih => exact ⟨h.1, fun answer => ih answer (h.2 answer)⟩

theorem Obeys.onStop {job : Job I α} {cleanup : Job I Unit} (h : job.Obeys p sleeps)
    (hcleanup : cleanup.Obeys p sleeps) : (job.onStop cleanup).Obeys p sleeps := by
  induction job with
  | done value => exact trivial
  | stop why => exact hcleanup.bind fun _ => trivial
  | sleep length next ih => exact ⟨h.1, fun woken => ih woken (h.2 woken)⟩
  | ask request next ih => exact ⟨h.1, fun answer => ih answer (h.2 answer)⟩

/-- More requests may be allowed, and sleeping as well. -/
theorem Obeys.mono {job : Job I α} (h : job.Obeys p sleeps) (hp : ∀ r, p r → q r)
    (hs : sleeps → sleeps') : job.Obeys q sleeps' := by
  induction job with
  | done value => exact trivial
  | stop why => exact trivial
  | sleep length next ih => exact ⟨hs h.1, fun woken => ih woken (h.2 woken)⟩
  | ask request next ih => exact ⟨hp request h.1, fun answer => ih answer (h.2 answer)⟩

/-- A job that makes only requests which an invariant allows, and which preserve it,
keeps any rule that the invariant implies. -/
theorem Obeys.keeps {job : Job I α} {inv : σ → Prop} (h : job.Obeys p sleeps)
    (hrule : ∀ s r, inv s → p r → rule s r)
    (hask : ∀ s r answer, inv s → p r → inv (S.after s r answer))
    (hsleep : sleeps → ∀ s length, inv s → inv (S.slept s length)) {s : σ} (hs : inv s) :
    job.Keeps S rule (fun _ s => inv s) (fun _ s => inv s) s := by
  induction job generalizing s with
  | done value => exact hs
  | stop why => exact hs
  | sleep length next ih =>
      exact ⟨ih _ (h.2 _) (hsleep h.1 s length hs), fun _ why => ih _ (h.2 _) hs⟩
  | ask request next ih =>
      exact ⟨hrule s request hs h.1,
        fun answer _ => ih _ (h.2 _) (hask s request answer hs h.1),
        fun _ why => ih _ (h.2 _) hs⟩

end Obeys

end Job

/-! ### Tasks -/

namespace Task

variable {σ α β : Type} {S : Surroundings Service σ} {rule : σ → Service.Request → Prop}
  {failed : Error → σ → Prop} {stopped : Interruption → σ → Prop} {s : σ}

/-- Every request of the task obeys the rule, and its ends are as demanded: with a
value, with an error, or without either. -/
def Keeps (S : Surroundings Service σ) (rule : σ → Service.Request → Prop)
    (ok : α → σ → Prop) (failed : Error → σ → Prop) (stopped : Interruption → σ → Prop)
    (task : Task α) (s : σ) : Prop :=
  task.toJob.Keeps S rule
    (fun result s => match result with
      | .ok value => ok value s
      | .error error => failed error s)
    stopped s

@[simp] theorem keeps_pure {value : α} {ok : α → σ → Prop} :
    (pure value : Task α).Keeps S rule ok failed stopped s ↔ ok value s := Iff.rfl

@[simp] theorem keeps_throw {error : Error} {ok : α → σ → Prop} :
    (throw error : Task α).Keeps S rule ok failed stopped s ↔ failed error s := Iff.rfl

/-- A sequence keeps a rule exactly if its first part does and ends where the rest
does. -/
@[simp] theorem keeps_bind {task : Task α} {f : α → Task β} {ok : β → σ → Prop} :
    (task >>= f).Keeps S rule ok failed stopped s ↔
      task.Keeps S rule (fun value s => (f value).Keeps S rule ok failed stopped s)
        failed stopped s := by
  refine Job.keeps_bind.trans (iff_of_eq ?_)
  refine congrArg (fun post => task.toJob.Keeps S rule post stopped s) ?_
  funext result s
  match result with
  | .ok value => rfl
  | .error error => rfl

@[simp] theorem keeps_map {task : Task α} {f : α → β} {ok : β → σ → Prop} :
    (f <$> task).Keeps S rule ok failed stopped s ↔
      task.Keeps S rule (fun value s => ok (f value) s) failed stopped s := by
  rw [map_eq_pure_bind]
  exact keeps_bind

/-- A job has no errors. -/
@[simp] theorem keeps_ofJob {job : Job Service α} {ok : α → σ → Prop} :
    (ofJob job).Keeps S rule ok failed stopped s ↔ job.Keeps S rule ok stopped s :=
  Job.keeps_bind

@[simp] theorem keeps_liftM {job : Job Service α} {ok : α → σ → Prop} :
    (liftM job : Task α).Keeps S rule ok failed stopped s ↔ job.Keeps S rule ok stopped s :=
  Job.keeps_bind

/-- The result of a job is that of the task. -/
@[simp] theorem keeps_attempt {job : Job Service (Except Error α)} {ok : α → σ → Prop} :
    (Service.attempt job).Keeps S rule ok failed stopped s ↔
      job.Keeps S rule
        (fun result s => match result with
          | .ok value => ok value s
          | .error error => failed error s)
        stopped s := Iff.rfl

/-- Weaker rules and postconditions are kept as well. -/
theorem Keeps.mono {task : Task α} {rule' : σ → Service.Request → Prop}
    {ok ok' : α → σ → Prop} {failed' : Error → σ → Prop}
    {stopped' : Interruption → σ → Prop} (h : task.Keeps S rule ok failed stopped s)
    (hrule : ∀ s r, rule s r → rule' s r) (hok : ∀ value s, ok value s → ok' value s)
    (hfailed : ∀ error s, failed error s → failed' error s)
    (hstopped : ∀ why s, stopped why s → stopped' why s) :
    task.Keeps S rule' ok' failed' stopped' s := by
  refine Job.Keeps.mono h hrule (fun result s hr => ?_) hstopped
  match result with
  | .ok value => exact hok value s hr
  | .error error => exact hfailed error s hr

/-- A weaker postcondition for values is kept as well. -/
theorem Keeps.weaken {task : Task α} {ok ok' : α → σ → Prop}
    (h : task.Keeps S rule ok failed stopped s) (hok : ∀ value s, ok value s → ok' value s) :
    task.Keeps S rule ok' failed stopped s :=
  h.mono (fun _ _ hr => hr) hok (fun _ _ hf => hf) fun _ _ hs => hs

/-! #### Requests that a task makes at all -/

/-- Whatever happens, the task makes no other requests than these, and it sleeps only if
that is allowed. -/
def Obeys (p : Service.Request → Prop) (sleeps : Prop) (task : Task α) : Prop :=
  task.toJob.Obeys p sleeps

variable {p q : Service.Request → Prop} {sleeps sleeps' : Prop}

theorem obeys_pure (value : α) : (pure value : Task α).Obeys p sleeps := trivial

theorem obeys_throw (error : Error) : (throw error : Task α).Obeys p sleeps := trivial

theorem Obeys.bind {task : Task α} {f : α → Task β} (h : task.Obeys p sleeps)
    (hf : ∀ value, (f value).Obeys p sleeps) : (task >>= f).Obeys p sleeps := by
  refine Job.Obeys.bind h fun result => ?_
  match result with
  | .ok value => exact hf value
  | .error error => exact trivial

theorem Obeys.mono {task : Task α} (h : task.Obeys p sleeps) (hp : ∀ r, p r → q r)
    (hs : sleeps → sleeps') : task.Obeys q sleeps' :=
  Job.Obeys.mono h hp hs

theorem obeys_ofJob {job : Job Service α} (h : job.Obeys p sleeps) :
    (ofJob job).Obeys p sleeps :=
  Job.Obeys.bind h fun _ => trivial

theorem obeys_liftM {job : Job Service α} (h : job.Obeys p sleeps) :
    (liftM job : Task α).Obeys p sleeps :=
  Job.Obeys.bind h fun _ => trivial

theorem obeys_attempt {job : Job Service (Except Error α)} (h : job.Obeys p sleeps) :
    (Service.attempt job).Obeys p sleeps := h

end Task

/-! ### Requests of upkeep -/

namespace Service

variable {σ : Type} {S : Surroundings Service σ} {rule : σ → Request → Prop}
  {stopped : Interruption → σ → Prop} {s : σ}

/-- One request. -/
@[simp] theorem keeps_ask {r : Request} {ok : Answer r → σ → Prop} :
    (ask r).Keeps S rule ok stopped s ↔
      rule s r ∧ (∀ answer : Answer r, S.replies s r answer → ok answer (S.after s r answer)) ∧
        (S.interrupts → ∀ why, stopped why s) := Iff.rfl

@[simp] theorem keeps_log {event : Event} {ok : Unit → σ → Prop} :
    (log event).Keeps S rule ok stopped s ↔
      rule s (.log event) ∧
        (∀ answer : Unit, S.replies s (.log event) answer →
          ok answer (S.after s (.log event) answer)) ∧
        (S.interrupts → ∀ why, stopped why s) := Iff.rfl

@[simp] theorem keeps_count {account : Account} {meter : Meter} {ok : Unit → σ → Prop} :
    (count account meter).Keeps S rule ok stopped s ↔
      rule s (.count account meter 1) ∧
        (∀ answer : Unit, S.replies s (.count account meter 1) answer →
          ok answer (S.after s (.count account meter 1) answer)) ∧
        (S.interrupts → ∀ why, stopped why s) := Iff.rfl

@[simp] theorem keeps_sleep {length : Duration} {ok : Unit → σ → Prop} :
    (sleep length).Keeps S rule ok stopped s ↔
      ok () (S.slept s length) ∧ (S.interrupts → ∀ why, stopped why s) := Iff.rfl

theorem obeys_ask {p : Request → Prop} {sleeps : Prop} {r : Request} (h : p r) :
    (ask r).Obeys p sleeps := by
  refine ⟨h, fun answer => ?_⟩
  match answer with
  | .ok answer => exact trivial
  | .error why => exact trivial

theorem obeys_sleep {p : Request → Prop} (length : Duration) : (sleep length).Obeys p True := by
  refine ⟨trivial, fun woken => ?_⟩
  match woken with
  | .ok () => exact trivial
  | .error why => exact trivial

end Service

/-! ### Jobs that come to an end -/

section Settles

variable {α β : Type} {p : Service.Request → Prop}

/-- Whatever the job is answered, it makes no other requests than these, and it ends with a value
unless it is interrupted. -/
def Job.Settles (p : Service.Request → Prop) (job : Job Service α) : Prop :=
  job.Keeps undisturbed (fun _ r => p r) (fun _ _ => True) (fun _ _ => False) ()

/-- Whatever the task is answered, it makes no other requests than these, and it ends with a value
or an error unless it is interrupted. -/
def Task.Settles (p : Service.Request → Prop) (task : Task α) : Prop := task.toJob.Settles p

theorem Job.Settles.bind {job : Job Service α} {f : α → Job Service β} (h : job.Settles p)
    (hf : ∀ value, (f value).Settles p) : (job.bind f).Settles p :=
  keeps_bind.2 (Keeps.mono h (fun _ _ hr => hr) (fun value _ _ => hf value) fun _ _ hs => hs)

/-- There is nothing to clean up after a job that is not stopped. -/
theorem Job.Settles.onStop {job : Job Service α} (h : job.Settles p) (cleanup : Job Service Unit) :
    (job.onStop cleanup).Settles p :=
  keeps_onStop.2 (Keeps.mono h (fun _ _ hr => hr) (fun _ _ hv => hv) fun _ _ => False.elim)

theorem Service.settles_ask {r : Service.Request} (h : p r) : (ask r).Settles p :=
  ⟨h, fun _ _ => trivial, False.elim⟩

theorem Service.settles_sleep (length : Duration) : (sleep length).Settles p :=
  ⟨trivial, False.elim⟩

namespace Task

theorem settles_iff_keeps {task : Task α} :
    task.Settles p ↔ task.Keeps undisturbed (fun _ r => p r) (fun _ _ => True) (fun _ _ => True)
      (fun _ _ => False) () := by
  have hend : ∀ result : Except Error α, (match result with
      | .ok _ => True
      | .error _ => True) ↔ True := by
    intro result
    cases result <;> exact Iff.rfl
  exact ⟨fun h => h.mono (fun _ _ hr => hr) (fun result _ _ => (hend result).2 trivial)
    fun _ _ hs => hs, fun h => Job.Keeps.mono h (fun _ _ hr => hr) (fun _ _ _ => trivial)
    fun _ _ hs => hs⟩

theorem settles_pure (value : α) : (pure value : Task α).Settles p := trivial

theorem settles_throw (error : Error) : (throw error : Task α).Settles p := trivial

theorem Settles.bind {task : Task α} {f : α → Task β} (h : task.Settles p)
    (hf : ∀ value, (f value).Settles p) : (task >>= f).Settles p := by
  refine Job.Settles.bind h fun result => ?_
  match result with
  | .ok value => exact hf value
  | .error error => exact trivial

theorem settles_ofJob {job : Job Service α} (h : job.Settles p) : (ofJob job).Settles p :=
  Job.Settles.bind h fun _ => trivial

theorem settles_liftM {job : Job Service α} (h : job.Settles p) :
    (liftM job : Task α).Settles p :=
  Job.Settles.bind h fun _ => trivial

theorem settles_attempt {job : Job Service (Except Error α)} (h : job.Settles p) :
    (Service.attempt job).Settles p := h

end Task

end Settles

/-! ### Properties of the parts of a task -/

namespace Task

/-- A property that is passed on from the parts of a task to the whole, and that reports
have. -/
structure Composes (P : (α : Type) → Task α → Prop) : Prop where
  pure : ∀ {α : Type} (value : α), P α (pure value)
  bind : ∀ {α β : Type} {task : Task α} {f : α → Task β}, P α task → (∀ value, P β (f value)) →
    P β (task >>= f)
  log : ∀ event, P Unit (liftM (Service.log event))
  count : ∀ account meter, P Unit (liftM (Service.count account meter))

section Composes

variable {p : Service.Request → Prop} (hlog : ∀ event, p (.log event))
  (hcount : ∀ account meter, p (.count account meter 1))

include hlog hcount

theorem composes_obeys {sleeps : Prop} : Composes fun _ task => task.Obeys p sleeps where
  pure := obeys_pure
  bind := Obeys.bind
  log event := obeys_liftM (Service.obeys_ask (hlog event))
  count account meter := obeys_liftM (Service.obeys_ask (hcount account meter))

theorem composes_settles : Composes fun _ task => task.Settles p where
  pure := settles_pure
  bind := Settles.bind
  log event := settles_liftM (Service.settles_ask (hlog event))
  count account meter := settles_liftM (Service.settles_ask (hcount account meter))

end Composes

theorem ofJob_bind {α β : Type} (job : Job Service α) (f : α → Job Service β) :
    ofJob (job.bind f) = ofJob job >>= fun value => ofJob (f value) := by
  show Job.bind (Job.bind job f) _ = Job.bind (Job.bind job _) _
  rw [Job.bind_assoc, Job.bind_assoc]
  rfl

end Task

end Upkeep
