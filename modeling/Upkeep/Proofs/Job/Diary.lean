import Upkeep.Proofs.Job.Transcript

/-!
# Diaries

What a job did, with its sleeps: a transcript says what was asked and answered, and a diary also
says for how long the job slept in between.

## Main Definitions

* `Doing`, `Diary` — a request with its answer or a sleep, and a sequence of them.
* `Job.diary` — the diary of a job that runs alone.
* `Surroundings.writing` — the surroundings whose state is the diary so far.

## Main Statements

* `Job.Keeps.behind` — what stood in a diary before makes no difference.
* `Job.ends_of_keeps_writing` — what a job that runs alone does to its diary, by a rule.
* `Job.exchanges_diary` — a diary without its sleeps is a transcript.
-/

namespace Upkeep

/-- What a job does: it asks something and is answered, or it sleeps. -/
inductive Doing (I : Interface) where
  | asked (exchange : Exchange I)
  | slept (length : Duration)

/-- What a job did, in this order. -/
abbrev Diary (I : Interface) := List (Doing I)

/-- What was asked, if anything was. -/
def Doing.exchange? {I : Interface} : Doing I → Option (Exchange I)
  | asked exchange => some exchange
  | slept _ => none

/-- The diary without its sleeps. -/
def Diary.exchanges {I : Interface} (diary : Diary I) : Transcript I :=
  diary.filterMap Doing.exchange?

/-- The state is the diary so far, nothing is known about answers, and nobody is interrupted. -/
def Surroundings.writing (I : Interface) : Surroundings I (Diary I) where
  replies _ _ _ := True
  after diary r answer := diary ++ [.asked ⟨r, answer⟩]
  slept diary length := diary ++ [.slept length]
  interrupts := False

namespace Job

variable {I : Interface} {α σ : Type}

/-- What a job does if it runs alone. -/
def diary (answer : (r : I.Request) → σ → I.Answer r × σ) (elapse : Duration → σ → σ) :
    Job I α → σ → Diary I
  | done _, _ => []
  | stop _, _ => []
  | sleep length next, s => .slept length :: (next (.ok ())).diary answer elapse (elapse length s)
  | ask request next, s =>
      let (reply, s) := answer request s
      .asked ⟨request, reply⟩ :: (next (.ok reply)).diary answer elapse s

variable (answer : (r : I.Request) → σ → I.Answer r × σ) (elapse : Duration → σ → σ)

/-- A diary without its sleeps is a transcript. -/
theorem exchanges_diary (job : Job I α) (s : σ) :
    (job.diary answer elapse s).exchanges = job.transcript answer elapse s := by
  induction job generalizing s with
  | done value => rfl
  | stop why => rfl
  | sleep length next ih => exact ih _ _
  | ask request next ih => exact congrArg (List.cons _) (ih _ _)

/-- **A rule on diaries** is one on the runs of a job in any world. -/
theorem ends_of_keeps_writing {job : Job I α} {rule : Diary I → I.Request → Prop}
    {ok : α → Diary I → Prop} {d : Diary I}
    (h : job.Keeps (.writing I) rule ok (fun _ _ => False) d) (s : σ) :
    ∃ value, (job.run answer elapse s).1 = .ok value ∧
      ok value (d ++ job.diary answer elapse s) := by
  induction job generalizing s d with
  | done value => exact ⟨value, rfl, (List.append_nil d).symm ▸ h⟩
  | stop why => exact h.elim
  | sleep length next ih =>
      rw [run_sleep, diary, List.append_cons]
      exact ih _ h.1 _
  | ask request next ih =>
      rw [run_ask, diary, List.append_cons]
      exact ih _ (h.2.1 _ trivial) _

/-- What a job does to a diary it also does to one in which something else stands before. -/
theorem Keeps.behind {job : Job I α} {ok : α → Diary I → Prop} {before d whole : Diary I}
    (h : job.Keeps (.writing I) (fun _ _ => True) ok (fun _ _ => False) d)
    (hd : whole = before ++ d) :
    job.Keeps (.writing I) (fun _ _ => True)
      (fun value after => ∃ d', after = before ++ d' ∧ ok value d') (fun _ _ => False) whole := by
  subst hd
  induction job generalizing d with
  | done value => exact ⟨d, rfl, h⟩
  | stop why => exact h
  | sleep length next ih =>
      have moved : (Surroundings.writing I).slept (before ++ d) length =
          before ++ (Surroundings.writing I).slept d length := List.append_assoc ..
      exact ⟨moved ▸ ih _ h.1, False.elim⟩
  | ask request next ih =>
      have moved (answer : I.Answer request) :
          (Surroundings.writing I).after (before ++ d) request answer =
            before ++ (Surroundings.writing I).after d request answer := List.append_assoc ..
      exact ⟨trivial, fun answer _ => moved answer ▸ ih _ (h.2.1 answer trivial), False.elim⟩

end Job

/-- One request of a job that keeps a diary. -/
theorem keeps_ask_writing {r : Service.Request} {ok : Service.Answer r → Diary Service → Prop}
    {d : Diary Service} (h : ∀ answer : Service.Answer r, ok answer (d ++ [.asked ⟨r, answer⟩])) :
    (Service.ask r).Keeps (.writing Service) (fun _ _ => True) ok (fun _ _ => False) d :=
  ⟨trivial, fun answer _ => h answer, False.elim⟩

end Upkeep
