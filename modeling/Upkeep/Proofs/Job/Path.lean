import Upkeep.Proofs.Job.Diary

/-!
# Ways through a job

A job waits for answers and sleeps, and a wait may end with an interruption instead.  A way through
the job says what came of each wait, and how the job ends after that; so it tells more than a
transcript, in which a request that was made and not answered does not stand.

## Main Definitions

* `Wait` — a request or a sleep, with what comes of it.
* `Service.Request.TakesTime` — the requests that may be interrupted.
* `Job.Path` — the ways through a job.
* `Job.andThen` — a job with something after it, however it ends.

## Main Statements

* `Job.path_andThen_iff` — the ways through a job and what comes after it.
* `Job.bind_eq_andThen`, `Job.onStop_bind_eq_andThen` — sequences, and jobs with a clean-up.
* `Job.run_andThen`, `Job.diary_andThen` — the same for the run of a job.
-/

namespace Upkeep

/-- What a job waits for, and what comes of it. -/
inductive Wait (I : Interface) where
  | asked (request : I.Request) (outcome : Except Interruption (I.Answer request))
  | slept (length : Duration) (outcome : Except Interruption Unit)

/-- Whether anybody waits for the answer.  What is counted or written to the log is done at once,
and so is to find out whether anybody is left. -/
def Service.Request.TakesTime : Service.Request → Prop
  | .canDelegate => False
  | .count _ _ _ => False
  | .log _ => False
  | _ => True

namespace Job

variable {α β : Type}

/-- A way through a job: its waits, of which any may be interrupted that take time, and its end. -/
inductive Path : Job Service α → List (Wait Service) → Except Interruption α → Prop
  | done (value : α) : Path (.done value) [] (.ok value)
  | stop (why : Interruption) : Path (.stop why) [] (.error why)
  | sleep {length : Duration} {next : Except Interruption Unit → Job Service α}
      {waits : List (Wait Service)} {ending : Except Interruption α}
      (outcome : Except Interruption Unit) (path : Path (next outcome) waits ending) :
      Path (.sleep length next) (.slept length outcome :: waits) ending
  | answered {request : Service.Request}
      {next : Except Interruption (Service.Answer request) → Job Service α}
      {waits : List (Wait Service)} {ending : Except Interruption α}
      (answer : Service.Answer request) (path : Path (next (.ok answer)) waits ending) :
      Path (.ask request next) (.asked request (.ok answer) :: waits) ending
  | interrupted {request : Service.Request}
      {next : Except Interruption (Service.Answer request) → Job Service α}
      {waits : List (Wait Service)} {ending : Except Interruption α}
      (why : Interruption) (slow : request.TakesTime)
      (path : Path (next (.error why)) waits ending) :
      Path (.ask request next) (.asked request (.error why) :: waits) ending

variable {job : Job Service α} {waits : List (Wait Service)}

@[simp] theorem path_done_iff {value : α} {ending : Except Interruption α} :
    (done value : Job Service α).Path waits ending ↔ waits = [] ∧ ending = .ok value := by
  constructor
  · rintro ⟨⟩
    exact ⟨rfl, rfl⟩
  · rintro ⟨rfl, rfl⟩
    exact .done value

@[simp] theorem path_stop_iff {why : Interruption} {ending : Except Interruption α} :
    (stop why : Job Service α).Path waits ending ↔ waits = [] ∧ ending = .error why := by
  constructor
  · rintro ⟨⟩
    exact ⟨rfl, rfl⟩
  · rintro ⟨rfl, rfl⟩
    exact .stop why

/-- The job, and something else after it, however it ends. -/
def andThen (job : Job Service α) (next : Except Interruption α → Job Service β) : Job Service β :=
  match job with
  | .done value => next (.ok value)
  | .stop why => next (.error why)
  | .sleep length woken => .sleep length fun outcome => (woken outcome).andThen next
  | .ask request answered => .ask request fun outcome => (answered outcome).andThen next

theorem bind_eq_andThen (job : Job Service α) (f : α → Job Service β) :
    job.bind f = job.andThen fun
      | .ok value => f value
      | .error why => .stop why := by
  induction job with
  | done value => rfl
  | stop why => rfl
  | sleep length next ih => exact congrArg (sleep length) (funext ih)
  | ask request next ih => exact congrArg (ask request) (funext ih)

/-- A job with a clean-up goes on if it has a value, and is cleaned up after if it is stopped. -/
theorem onStop_bind_eq_andThen (job : Job Service α) (cleanup : Job Service Unit)
    (f : α → Job Service β) :
    (job.onStop cleanup).bind f = job.andThen fun
      | .ok value => f value
      | .error why => cleanup.bind fun () => .stop why := by
  induction job with
  | done value => rfl
  | stop why => exact bind_assoc ..
  | sleep length next ih => exact congrArg (sleep length) (funext ih)
  | ask request next ih => exact congrArg (ask request) (funext ih)

section Runs

variable {σ : Type} (answer : (r : Service.Request) → σ → Service.Answer r × σ)
  (elapse : Duration → σ → σ)

/-- What comes after a job runs where the job has ended. -/
theorem run_andThen (job : Job Service α) (next : Except Interruption α → Job Service β) (s : σ) :
    (job.andThen next).run answer elapse s =
      (next (job.run answer elapse s).1).run answer elapse (job.run answer elapse s).2 := by
  induction job generalizing s with
  | done value => rfl
  | stop why => rfl
  | sleep length woken ih => exact ih _ _
  | ask request answered ih => exact ih _ _

theorem diary_andThen (job : Job Service α) (next : Except Interruption α → Job Service β) (s : σ) :
    (job.andThen next).diary answer elapse s = job.diary answer elapse s ++
      (next (job.run answer elapse s).1).diary answer elapse (job.run answer elapse s).2 := by
  induction job generalizing s with
  | done value => rfl
  | stop why => rfl
  | sleep length woken ih => exact congrArg (List.cons _) (ih _ _)
  | ask request answered ih => exact congrArg (List.cons _) (ih _ _)

end Runs

/-- The ways through a job and what comes after it. -/
theorem path_andThen_iff {next : Except Interruption α → Job Service β}
    {ending : Except Interruption β} :
    (job.andThen next).Path waits ending ↔
      ∃ first rest result, waits = first ++ rest ∧ job.Path first result ∧
        (next result).Path rest ending := by
  constructor
  · intro whole
    induction job generalizing waits with
    | done value => exact ⟨[], waits, _, rfl, .done value, whole⟩
    | stop why => exact ⟨[], waits, _, rfl, .stop why, whole⟩
    | sleep length woken ih =>
        cases whole with
        | sleep outcome onward =>
            obtain ⟨first, rest, result, rfl, path, path'⟩ := ih _ onward
            exact ⟨_ :: first, rest, result, rfl, .sleep outcome path, path'⟩
    | ask request answered ih =>
        cases whole with
        | answered answer onward =>
            obtain ⟨first, rest, result, rfl, path, path'⟩ := ih _ onward
            exact ⟨_ :: first, rest, result, rfl, .answered answer path, path'⟩
        | interrupted why slow onward =>
            obtain ⟨first, rest, result, rfl, path, path'⟩ := ih _ onward
            exact ⟨_ :: first, rest, result, rfl, .interrupted why slow path, path'⟩
  · rintro ⟨first, rest, result, rfl, path, path'⟩
    induction path with
    | done value => exact path'
    | stop why => exact path'
    | sleep outcome _ ih => exact .sleep outcome (ih path')
    | answered answer _ ih => exact .answered answer (ih path')
    | interrupted why slow _ ih => exact .interrupted why slow (ih path')

/-- Computing with the value of a job is no wait. -/
theorem path_bind_done_iff {g : α → β} {ending : Except Interruption β} :
    (job.bind fun value => .done (g value)).Path waits ending ↔
      ∃ result, job.Path waits result ∧ ending = result.map g := by
  rw [bind_eq_andThen, path_andThen_iff]
  constructor
  · rintro ⟨first, rest, why | value, rfl, path, path'⟩
    · obtain ⟨rfl, rfl⟩ := path_stop_iff.1 path'
      exact ⟨_, (List.append_nil first).symm ▸ path, rfl⟩
    · obtain ⟨rfl, rfl⟩ := path_done_iff.1 path'
      exact ⟨_, (List.append_nil first).symm ▸ path, rfl⟩
  · rintro ⟨why | value, path, rfl⟩
    · exact ⟨waits, [], _, (List.append_nil waits).symm, path, .stop why⟩
    · exact ⟨waits, [], _, (List.append_nil waits).symm, path, .done (g value)⟩

end Job

namespace Service

variable {α : Type} {waits : List (Wait Service)}

/-- A request that takes time is interrupted, or what follows goes on with the answer. -/
theorem path_ask_bind_iff {request : Request} {next : Answer request → Job Service α}
    {ending : Except Interruption α} :
    ((ask request).bind next).Path waits ending ↔
      (request.TakesTime ∧ ∃ why, waits = [.asked request (.error why)] ∧ ending = .error why) ∨
        ∃ answer rest, waits = .asked request (.ok answer) :: rest ∧
          (next answer).Path rest ending := by
  constructor
  · intro path
    cases path with
    | answered answer path => exact .inr ⟨answer, _, rfl, path⟩
    | interrupted why slow path =>
        obtain ⟨rfl, rfl⟩ := Job.path_stop_iff.1 path
        exact .inl ⟨slow, why, rfl, rfl⟩
  · rintro (⟨slow, why, rfl, rfl⟩ | ⟨answer, rest, rfl, path⟩)
    · exact .interrupted why slow (.stop why)
    · exact .answered answer path

/-- An entry in the log. -/
def logged (event : Event) : Wait Service := .asked (.log event) (.ok ())

/-- Writing to the log is never interrupted. -/
theorem path_log_bind_iff {event : Event} {next : Unit → Job Service α}
    {ending : Except Interruption α} :
    ((log event).bind next).Path waits ending ↔
      ∃ rest, waits = logged event :: rest ∧ (next ()).Path rest ending := by
  rw [log, path_ask_bind_iff]
  constructor
  · rintro (⟨⟨⟩, -⟩ | ⟨⟨⟩, rest, rfl, path⟩)
    exact ⟨rest, rfl, path⟩
  · rintro ⟨rest, rfl, path⟩
    exact .inr ⟨(), rest, rfl, path⟩

end Service

end Upkeep
