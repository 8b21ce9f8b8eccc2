import Upkeep.Duration

/-!
# Jobs

A job is a piece of upkeep written down before it runs: a tree of requests to
the outside, with one branch for every answer that a request may get.  Because
it is data, the same job can be run against a simulated world, be cut short at
any request, take turns with other jobs, or be reasoned about branch by branch.

## Main Definitions

* `Interface` — what may be asked, and what each question is answered with.
* `Interruption` — the two ways in which a job ends without a value.
* `Job` — finished, stopped, asleep, or waiting for an answer.
* `Job.request`, `Job.pause` — one request, one sleep.
* `Job.onStop` — a job with a clean-up for the case that it is stopped.
* `Job.run` — a job against a world that answers every request at once.

## Design Notes

*Any request may be a job's last.*  The worker that waits for an answer can be
dropped, so every continuation is also told about an interruption, and the
monad hands it on to what remains of the job: `bind` skips, `onStop` cleans up.
Sleeping is set apart from other requests because only there time passes.
-/

namespace Upkeep

/-- What a job may ask the outside for, and the type of the answer to each
request. -/
structure Interface where
  Request : Type
  Answer : Request → Type

/-- Why a job ended without a value. -/
inductive Interruption where
  /-- The code of the job itself gave up. -/
  | panic
  /-- Whoever ran the job dropped it. -/
  | cancelled
  deriving DecidableEq, Repr

/-- A job over an interface, which ends in an `α` unless it is interrupted. -/
inductive Job (I : Interface) (α : Type) : Type where
  /-- The job has ended with a value. -/
  | done (value : α)
  /-- The job has ended without one. -/
  | stop (why : Interruption)
  /-- The job sleeps before it goes on. -/
  | sleep (length : Duration) (next : Except Interruption Unit → Job I α)
  /-- The job waits for the answer to a request. -/
  | ask (request : I.Request) (next : Except Interruption (I.Answer request) → Job I α)

namespace Job

variable {I : Interface} {α β γ : Type}

/-- One job after another; an interruption of the first is one of both. -/
protected def bind : Job I α → (α → Job I β) → Job I β
  | done value, f => f value
  | stop why, _ => stop why
  | sleep length next, f => sleep length fun woken => (next woken).bind f
  | ask request next, f => ask request fun answer => (next answer).bind f

instance : Monad (Job I) where
  pure := done
  bind := Job.bind

@[simp] theorem pure_eq (value : α) : (pure value : Job I α) = done value := rfl

@[simp] theorem bind_eq (job : Job I α) (f : α → Job I β) : (job >>= f) = job.bind f := rfl

@[simp] theorem done_bind (value : α) (f : α → Job I β) : (done value).bind f = f value := rfl

@[simp] theorem stop_bind (why : Interruption) (f : α → Job I β) :
    (stop why : Job I α).bind f = stop why := rfl

@[simp] theorem sleep_bind (length : Duration) (next : Except Interruption Unit → Job I α)
    (f : α → Job I β) :
    (sleep length next).bind f = sleep length fun woken => (next woken).bind f := rfl

@[simp] theorem ask_bind (request : I.Request)
    (next : Except Interruption (I.Answer request) → Job I α) (f : α → Job I β) :
    (ask request next).bind f = ask request fun answer => (next answer).bind f := rfl

@[simp] theorem bind_done (job : Job I α) : job.bind done = job := by
  induction job with
  | done value => rfl
  | stop why => rfl
  | sleep length next ih => simp [ih]
  | ask request next ih => simp [ih]

theorem bind_assoc (job : Job I α) (f : α → Job I β) (g : β → Job I γ) :
    (job.bind f).bind g = job.bind fun value => (f value).bind g := by
  induction job with
  | done value => rfl
  | stop why => rfl
  | sleep length next ih => simp [ih]
  | ask request next ih => simp [ih]

instance : LawfulMonad (Job I) :=
  LawfulMonad.mk' (m := Job I) (fun job => bind_done job) (fun _ _ => rfl) bind_assoc

/-- One request, and its answer as the value. -/
def request (r : I.Request) : Job I (I.Answer r) :=
  ask r fun
    | .ok answer => done answer
    | .error why => stop why

/-- One sleep. -/
def pause (length : Duration) : Job I Unit :=
  sleep length fun
    | .ok () => done ()
    | .error why => stop why

/-- The job with a clean-up that runs if the job is stopped; the job then
counts as stopped for the same reason. -/
def onStop : Job I α → Job I Unit → Job I α
  | done value, _ => done value
  | stop why, cleanup => cleanup.bind fun () => stop why
  | sleep length next, cleanup => sleep length fun woken => (next woken).onStop cleanup
  | ask request next, cleanup => ask request fun answer => (next answer).onStop cleanup

@[simp] theorem onStop_done (value : α) (cleanup : Job I Unit) :
    (done value : Job I α).onStop cleanup = done value := rfl

@[simp] theorem onStop_stop (why : Interruption) (cleanup : Job I Unit) :
    (stop why : Job I α).onStop cleanup = cleanup.bind fun () => stop why := rfl

/-- The outcome of a job in a world where time passes while it sleeps and every
request is answered at once. -/
def run {σ : Type} (answer : (r : I.Request) → σ → I.Answer r × σ)
    (elapse : Duration → σ → σ) : Job I α → σ → Except Interruption α × σ
  | done value, s => (.ok value, s)
  | stop why, s => (.error why, s)
  | sleep length next, s => (next (.ok ())).run answer elapse (elapse length s)
  | ask request next, s =>
      let (reply, s) := answer request s
      (next (.ok reply)).run answer elapse s

section Run

variable {σ : Type} (answer : (r : I.Request) → σ → I.Answer r × σ)
  (elapse : Duration → σ → σ)

@[simp] theorem run_done (value : α) (s : σ) :
    (done value : Job I α).run answer elapse s = (.ok value, s) := rfl

@[simp] theorem run_stop (why : Interruption) (s : σ) :
    (stop why : Job I α).run answer elapse s = (.error why, s) := rfl

@[simp] theorem run_sleep (length : Duration) (next : Except Interruption Unit → Job I α)
    (s : σ) :
    (sleep length next).run answer elapse s =
      (next (.ok ())).run answer elapse (elapse length s) := rfl

@[simp] theorem run_ask (request : I.Request)
    (next : Except Interruption (I.Answer request) → Job I α) (s : σ) :
    (ask request next).run answer elapse s =
      (next (.ok (answer request s).1)).run answer elapse (answer request s).2 := rfl

/-- A sequence of jobs runs in sequence. -/
theorem run_bind (job : Job I α) (f : α → Job I β) (s : σ) :
    (job.bind f).run answer elapse s =
      match job.run answer elapse s with
      | (.ok value, s) => (f value).run answer elapse s
      | (.error why, s) => (.error why, s) := by
  induction job generalizing s with
  | done value => rfl
  | stop why => rfl
  | sleep length next ih => simp [ih]
  | ask request next ih => simp [ih]

end Run

end Job

end Upkeep
