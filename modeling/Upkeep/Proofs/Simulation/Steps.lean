import Upkeep.Proofs.Job.Rule
import Upkeep.Simulation.World

/-!
# The steps of a job in the simulated world

A job that runs alone in the simulated world makes one request after the other, and each
is answered at once.  A rule that the job keeps there holds of each of these steps.

## Main Definitions

* `Step`, `Job.steps` — a request with the world in which it was made, and all of a run.
* `World.answers` — the simulated world as surroundings.

## Main Statements

* `Job.steps_of_keeps`, `Job.run_of_keeps`, `Job.preserved_of_keeps` — what a kept rule
  says about a run.
* `Job.steps_bind`, `Task.bind_of_ok`, `Task.bind_of_error` — the steps of a sequence.
-/

namespace Upkeep

open Simulation

variable {α : Type}

namespace Simulation

/-- A request, and the world in which it was made. -/
structure Step where
  world : World
  request : Service.Request

/-- The world after a step. -/
def Step.after (step : Step) : World := (step.world.answer step.request).2

/-- Every request is answered as the world does, and nobody is interrupted. -/
def World.answers : Surroundings Service World where
  replies world r answer := answer = (world.answer r).1
  after world r _ := (world.answer r).2
  slept world length := world.elapse length
  interrupts := False

/-- A session is in the state that it was last set to, and no other is affected. -/
theorem World.session_setSession (world : World) (session session' : Session)
    (state : SessionState) :
    (world.setSession session state).session session' =
      if session' = session then state else world.session session' := by
  simp only [World.session, World.setSession, Assoc.lookup_put, beq_iff_eq]
  split <;> rfl

end Simulation

namespace Job

/-- The requests of a job that runs alone. -/
def steps : Job Service α → World → List Step
  | done _, _ => []
  | stop _, _ => []
  | sleep length next, world => (next (.ok ())).steps (world.elapse length)
  | ask request next, world =>
      ⟨world, request⟩ :: (next (.ok (world.answer request).1)).steps (world.answer request).2

variable {job : Job Service α} {rule : World → Service.Request → Prop} {ok : α → World → Prop}
  {stopped : Interruption → World → Prop} {world : World}

/-- Each step obeys the rule. -/
theorem steps_of_keeps (h : job.Keeps World.answers rule ok stopped world) :
    ∀ step ∈ job.steps world, rule step.world step.request := by
  induction job generalizing world with
  | done value => simp [steps]
  | stop why => simp [steps]
  | sleep length next ih => exact ih _ h.1
  | ask request next ih =>
      intro step hm
      rcases List.mem_cons.1 hm with rfl | hm
      · exact h.1
      · exact ih _ (h.2.1 _ rfl) step hm

/-- The end of a run is as demanded. -/
theorem run_of_keeps (h : job.Keeps World.answers rule ok stopped world) :
    match job.run World.answer World.elapse world with
    | (.ok value, after) => ok value after
    | (.error why, after) => stopped why after := by
  induction job generalizing world with
  | done value => exact h
  | stop why => exact h
  | sleep length next ih => exact ih _ h.1
  | ask request next ih => exact ih _ (h.2.1 _ rfl)

/-- A job ends as it ends. -/
theorem keeps_run (job : Job Service α) (world : World) :
    job.Keeps World.answers (fun _ _ => True)
      (fun value after => job.run World.answer World.elapse world = (.ok value, after))
      (fun why after => job.run World.answer World.elapse world = (.error why, after)) world := by
  induction job generalizing world with
  | done value => exact rfl
  | stop why => exact rfl
  | sleep length next ih => exact ⟨ih _ _, False.elim⟩
  | ask request next ih =>
      refine ⟨trivial, ?_, False.elim⟩
      rintro answer rfl
      exact ih _ _

/-- What every request that obeys the rule preserves, and sleeping as well, is preserved by a
run. -/
theorem preserved_of_keeps {inv : World → Prop}
    (h : job.Keeps World.answers rule ok stopped world)
    (hask : ∀ world request, rule world request → inv world → inv (world.answer request).2)
    (hsleep : ∀ world length, inv world → inv (world.elapse length)) (hinv : inv world) :
    inv (job.run World.answer World.elapse world).2 := by
  induction job generalizing world with
  | done value => exact hinv
  | stop why => exact hinv
  | sleep length next ih => exact ih _ h.1 (hsleep world length hinv)
  | ask request next ih => exact ih _ (h.2.1 _ rfl) (hask world request h.1 hinv)

/-! ### Sequences -/

variable {β : Type}

/-- The requests of a sequence are those of its parts. -/
theorem steps_bind (job : Job Service α) (f : α → Job Service β) (world : World) :
    (job.bind f).steps world = job.steps world ++
      match job.run World.answer World.elapse world with
      | (.ok value, after) => (f value).steps after
      | (.error _, _) => [] := by
  induction job generalizing world with
  | done value => rfl
  | stop why => rfl
  | sleep length next ih => exact ih _ _
  | ask request next ih => exact congrArg (List.cons _) (ih _ _)

/-- Computing with the value of a job takes no step. -/
theorem steps_bind_done (job : Job Service α) (g : α → β) (world : World) :
    (job.bind fun value => .done (g value)).steps world = job.steps world := by
  rw [steps_bind]
  split <;> exact List.append_nil _

/-- A clean-up makes no difference to a job that is not stopped. -/
theorem onStop_of_ok {cleanup : Job Service Unit} {value : α} {after : World}
    (h : job.run World.answer World.elapse world = (.ok value, after)) :
    (job.onStop cleanup).run World.answer World.elapse world = (.ok value, after) ∧
      (job.onStop cleanup).steps world = job.steps world := by
  induction job generalizing world with
  | done value => exact ⟨h, rfl⟩
  | stop why => cases h
  | sleep length next ih => exact ih _ h
  | ask request next ih =>
      obtain ⟨hrun, hsteps⟩ := ih _ h
      exact ⟨hrun, congrArg (List.cons _) hsteps⟩

end Job

namespace Task

variable {β : Type} {task : Task α} {f : α → Task β} {world after : World}

/-- Where the first part of a sequence ends with a value, the second part begins. -/
theorem bind_of_ok {value : α}
    (h : task.toJob.run World.answer World.elapse world = (.ok (.ok value), after)) :
    (task >>= f).toJob.run World.answer World.elapse world =
        (f value).toJob.run World.answer World.elapse after ∧
      (task >>= f).toJob.steps world = task.toJob.steps world ++ (f value).toJob.steps after := by
  constructor
  · refine (Job.run_bind World.answer World.elapse task.toJob _ world).trans ?_
    rw [h]
    rfl
  · refine (Job.steps_bind task.toJob _ world).trans ?_
    rw [h]
    rfl

/-- Where the first part of a sequence fails, the sequence ends. -/
theorem bind_of_error {error : Error}
    (h : task.toJob.run World.answer World.elapse world = (.ok (.error error), after)) :
    (task >>= f).toJob.run World.answer World.elapse world = (.ok (.error error), after) ∧
      (task >>= f).toJob.steps world = task.toJob.steps world := by
  constructor
  · refine (Job.run_bind World.answer World.elapse task.toJob _ world).trans ?_
    rw [h]
    rfl
  · refine (Job.steps_bind task.toJob _ world).trans ?_
    rw [h]
    exact List.append_nil _

/-- Whatever becomes of its first part, the steps of a sequence begin with those of that part. -/
theorem steps_bind_cases (task : Task α) (f : α → Task β) (world : World) :
    (task >>= f).toJob.steps world = task.toJob.steps world ∨
      ∃ value after, (task >>= f).toJob.steps world =
        task.toJob.steps world ++ (f value).toJob.steps after := by
  generalize hrun : task.toJob.run World.answer World.elapse world = outcome
  match outcome with
  | (.ok (.ok value), after) => exact .inr ⟨value, after, (bind_of_ok hrun).2⟩
  | (.ok (.error error), after) => exact .inl (bind_of_error hrun).2
  | (.error why, after) =>
      refine .inl ((Job.steps_bind task.toJob _ world).trans ?_)
      rw [hrun]
      exact List.append_nil _

/-- A job that is no failure whatever its value. -/
theorem ofJob_of_ok {job : Job Service α} {value : α}
    (h : job.run World.answer World.elapse world = (.ok value, after)) :
    (ofJob job).toJob.run World.answer World.elapse world = (.ok (.ok value), after) ∧
      (ofJob job).toJob.steps world = job.steps world := by
  have hbind : (ofJob job).toJob = job.bind fun value => .done (.ok value) := rfl
  constructor
  · rw [hbind, Job.run_bind, h]
    rfl
  · rw [hbind, Job.steps_bind, h]
    exact List.append_nil _

end Task

end Upkeep
