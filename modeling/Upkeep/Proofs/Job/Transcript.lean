import Upkeep.Proofs.Crowd.Basic

/-!
# Transcripts

What a job asked and what it was answered, in this order.  A transcript is what remains of a
job once the world that answered it is forgotten, so a statement about the transcripts of a
job is one about all worlds.

## Main Definitions

* `Exchange`, `Transcript` — a request with its answer, and a sequence of them.
* `Job.transcript` — the transcript of a job that runs alone.
* `Surroundings.recording` — the surroundings whose state is the transcript so far.
* `Deed.exchange?` — what a deed adds to the transcript of a member of a crowd.

## Main Statements

* `Job.ends_of_keeps`, `Job.rule_of_transcript` — what a job that runs alone does to its transcript,
  by a rule.
* `Job.ends_undisturbed` — a job that runs alone comes to its end.
* `Task.run_bind_of_ok`, `Task.run_bind_of_error` — a sequence that runs alone.
* `Surroundings.watch_eq_foldl`, `Surroundings.watch_recording` — the transcript of a member
  of a crowd.

## Design Notes

Sleeps leave no trace.  The same surroundings serve two purposes: with interruptions they are
open, so a member of a crowd keeps in them what it keeps at all; without, they are those of a
job that nobody interrupts.
-/

namespace Upkeep

open Simulation

/-- A request with the answer that it got. -/
structure Exchange (I : Interface) where
  request : I.Request
  answer : I.Answer request

/-- What was asked and answered, in this order. -/
abbrev Transcript (I : Interface) := List (Exchange I)

/-- The state is the transcript so far, and nothing is known about answers. -/
def Surroundings.recording (I : Interface) (interrupts : Prop) :
    Surroundings I (Transcript I) where
  replies _ _ _ := True
  after transcript r answer := transcript ++ [⟨r, answer⟩]
  slept transcript _ := transcript
  interrupts := interrupts

/-- One request of a job that nobody interrupts. -/
theorem keeps_ask_recording {r : Service.Request}
    {ok : Service.Answer r → Transcript Service → Prop}
    {stopped : Interruption → Transcript Service → Prop} {t : Transcript Service}
    (h : ∀ answer : Service.Answer r, ok answer (t ++ [⟨r, answer⟩])) :
    (Service.ask r).Keeps (.recording Service False) (fun _ _ => True) ok stopped t :=
  ⟨trivial, fun answer _ => h answer, False.elim⟩

namespace Job

variable {I : Interface} {α β σ : Type}

/-- What a job asks and is answered if it runs alone. -/
def transcript (answer : (r : I.Request) → σ → I.Answer r × σ) (elapse : Duration → σ → σ) :
    Job I α → σ → Transcript I
  | done _, _ => []
  | stop _, _ => []
  | sleep length next, s => (next (.ok ())).transcript answer elapse (elapse length s)
  | ask request next, s =>
      let (reply, s) := answer request s
      ⟨request, reply⟩ :: (next (.ok reply)).transcript answer elapse s

variable (answer : (r : I.Request) → σ → I.Answer r × σ) (elapse : Duration → σ → σ)

theorem transcript_ask (request : I.Request)
    (next : Except Interruption (I.Answer request) → Job I α) (s : σ) :
    (ask request next).transcript answer elapse s = ⟨request, (answer request s).1⟩ ::
      (next (.ok (answer request s).1)).transcript answer elapse (answer request s).2 := rfl

/-- **A rule on transcripts** is one on the runs of a job in any world. -/
theorem ends_of_keeps {interrupts : Prop} {job : Job I α}
    {rule : Transcript I → I.Request → Prop} {ok : α → Transcript I → Prop}
    {stopped : Interruption → Transcript I → Prop} {t : Transcript I}
    (h : job.Keeps (.recording I interrupts) rule ok stopped t) (s : σ) :
    (∃ value, (job.run answer elapse s).1 = .ok value ∧
        ok value (t ++ job.transcript answer elapse s)) ∨
      ∃ why, (job.run answer elapse s).1 = .error why ∧
        stopped why (t ++ job.transcript answer elapse s) := by
  induction job generalizing s t with
  | done value => exact .inl ⟨value, rfl, (List.append_nil t).symm ▸ h⟩
  | stop why => exact .inr ⟨why, rfl, (List.append_nil t).symm ▸ h⟩
  | sleep length next ih => exact ih _ h.1 _
  | ask request next ih =>
      rw [run_ask, transcript, List.append_cons]
      exact ih _ (h.2.1 _ trivial) _

/-- Each request of a job that runs alone obeys its rule, by the transcript so far. -/
theorem rule_of_transcript {interrupts : Prop} {job : Job I α}
    {rule : Transcript I → I.Request → Prop} {ok : α → Transcript I → Prop}
    {stopped : Interruption → Transcript I → Prop} {t t₁ t₂ : Transcript I}
    {exchange : Exchange I} (h : job.Keeps (.recording I interrupts) rule ok stopped t) {s : σ}
    (ht : job.transcript answer elapse s = t₁ ++ exchange :: t₂) :
    rule (t ++ t₁) exchange.request := by
  induction job generalizing s t t₁ with
  | done value => cases List.nil_eq_append_iff.1 ht with | intro _ h => cases h
  | stop why => cases List.nil_eq_append_iff.1 ht with | intro _ h => cases h
  | sleep length next ih => exact ih _ h.1 ht
  | ask request next ih =>
      cases t₁ with
      | nil =>
          obtain ⟨rfl, -⟩ := List.cons.inj ht
          rw [List.append_nil]
          exact h.1
      | cons first t₁ =>
          obtain ⟨rfl, hrest⟩ := List.cons.inj ht
          rw [List.append_cons]
          exact ih _ (h.2.1 _ trivial) hrest

/-- The transcript of a sequence. -/
theorem transcript_bind (job : Job I α) (f : α → Job I β) (s : σ) :
    (job.bind f).transcript answer elapse s = job.transcript answer elapse s ++
      match job.run answer elapse s with
      | (.ok value, s) => (f value).transcript answer elapse s
      | (.error _, _) => [] := by
  induction job generalizing s with
  | done value => rfl
  | stop why => rfl
  | sleep length next ih => exact ih _ _
  | ask request next ih => exact congrArg (List.cons _) (ih _ _)

end Job

section Alone

variable {α β σ : Type} {answer : (r : Service.Request) → σ → Service.Answer r × σ}
  {elapse : Duration → σ → σ} {s : σ}

/-- **A job that nobody interrupts** runs to its end, and asks only what it may. -/
theorem Job.ends_undisturbed {p : Service.Request → Prop} {ok : α → Prop} {job : Job Service α}
    (h : job.Keeps undisturbed (fun _ r => p r) (fun value _ => ok value) (fun _ _ => False) ())
    (answer : (r : Service.Request) → σ → Service.Answer r × σ) (elapse : Duration → σ → σ)
    (s : σ) :
    (∃ value, (job.run answer elapse s).1 = .ok value ∧ ok value) ∧
      ∀ exchange ∈ job.transcript answer elapse s, p exchange.request := by
  induction job generalizing s with
  | done value => exact ⟨⟨value, rfl, h⟩, fun _ hm => absurd hm List.not_mem_nil⟩
  | stop why => exact h.elim
  | sleep length next ih => exact ih _ h.1 _
  | ask request next ih =>
      obtain ⟨hvalue, hall⟩ := ih _ (h.2.1 (answer request s).1 trivial) (answer request s).2
      refine ⟨hvalue, fun exchange hm => ?_⟩
      rcases List.mem_cons.1 hm with rfl | hm
      · exact h.1
      · exact hall exchange hm

namespace Task

/-- What a task does to its transcript, if nobody interrupts it. -/
theorem ends_of_keeps {task : Task α} {rule : Transcript Service → Service.Request → Prop}
    {ok : α → Transcript Service → Prop} {failed : Error → Transcript Service → Prop}
    {t : Transcript Service}
    (h : task.Keeps (.recording Service False) rule ok failed (fun _ _ => False) t)
    (answer : (r : Service.Request) → σ → Service.Answer r × σ) (elapse : Duration → σ → σ)
    (s : σ) :
    (∃ value, (task.toJob.run answer elapse s).1 = .ok (.ok value) ∧
        ok value (t ++ task.toJob.transcript answer elapse s)) ∨
      ∃ error, (task.toJob.run answer elapse s).1 = .ok (.error error) ∧
        failed error (t ++ task.toJob.transcript answer elapse s) := by
  rcases Job.ends_of_keeps answer elapse h s with ⟨result, hrun, hend⟩ | ⟨why, -, hstopped⟩
  · match result with
    | .ok value => exact .inl ⟨value, hrun, hend⟩
    | .error error => exact .inr ⟨error, hrun, hend⟩
  · exact hstopped.elim

variable {task : Task α} (f : α → Task β)

/-- A sequence goes on where its first part ends with a value. -/
theorem run_bind_of_ok {value : α} (h : (task.toJob.run answer elapse s).1 = .ok (.ok value)) :
    (task >>= f).toJob.run answer elapse s =
        (f value).toJob.run answer elapse (task.toJob.run answer elapse s).2 ∧
      (task >>= f).toJob.transcript answer elapse s = task.toJob.transcript answer elapse s ++
        (f value).toJob.transcript answer elapse (task.toJob.run answer elapse s).2 := by
  have hrun : task.toJob.run answer elapse s =
      (.ok (.ok value), (task.toJob.run answer elapse s).2) := Prod.ext h rfl
  constructor
  · refine (Job.run_bind answer elapse task.toJob _ s).trans ?_
    rw [hrun]
    rfl
  · refine (Job.transcript_bind answer elapse task.toJob _ s).trans ?_
    rw [hrun]
    rfl

/-- A sequence ends where its first part fails. -/
theorem run_bind_of_error {error : Error}
    (h : (task.toJob.run answer elapse s).1 = .ok (.error error)) :
    ((task >>= f).toJob.run answer elapse s).1 = .ok (.error error) ∧
      (task >>= f).toJob.transcript answer elapse s = task.toJob.transcript answer elapse s := by
  have hrun : task.toJob.run answer elapse s =
      (.ok (.error error), (task.toJob.run answer elapse s).2) := Prod.ext h rfl
  constructor
  · refine (congrArg Prod.fst (Job.run_bind answer elapse task.toJob _ s)).trans ?_
    rw [hrun]
    rfl
  · refine (Job.transcript_bind answer elapse task.toJob _ s).trans ?_
    rw [hrun]
    exact List.append_nil _

/-- The value of a task is changed without any request. -/
theorem run_bind_pure {g : α → β} {result : Except Error α}
    (h : (task.toJob.run answer elapse s).1 = .ok result) :
    ((task >>= fun value => pure (g value)).toJob.run answer elapse s).1 = .ok (result.map g) ∧
      (task >>= fun value => pure (g value)).toJob.transcript answer elapse s =
        task.toJob.transcript answer elapse s := by
  match result with
  | .ok value =>
      obtain ⟨hrun, htranscript⟩ := run_bind_of_ok (fun value => (pure (g value) : Task β)) h
      exact ⟨congrArg Prod.fst hrun, htranscript.trans (List.append_nil _)⟩
  | .error error => exact run_bind_of_error (fun value => (pure (g value) : Task β)) h

end Task

end Alone

/-! ### Places in a transcript -/

/-- A place in two lists one after the other is one in the first or one in the second. -/
theorem append_eq_append_cons_cases {β : Type} {l₁ l₂ m₁ m₂ : List β} {b : β}
    (h : l₁ ++ l₂ = m₁ ++ b :: m₂) :
    (∃ c, l₁ = m₁ ++ b :: c ∧ m₂ = c ++ l₂) ∨ ∃ c, m₁ = l₁ ++ c ∧ l₂ = c ++ b :: m₂ := by
  rcases List.append_eq_append_iff.1 h with ⟨c, rfl, rfl⟩ | ⟨c, rfl, hc⟩
  · exact .inr ⟨c, rfl, rfl⟩
  · cases c with
    | nil => exact .inr ⟨[], by rw [List.append_nil, List.append_nil], hc.symm⟩
    | cons first c =>
        obtain ⟨rfl, rfl⟩ := List.cons.inj hc
        exact .inl ⟨c, rfl, rfl⟩

/-! ### Members of crowds -/

section Crowd

variable {ι : Type} [DecidableEq ι]

theorem isOpen_recording : (Surroundings.recording Service True).IsOpen :=
  ⟨fun _ _ _ => trivial, trivial⟩

/-- What a deed adds to the transcript of a member. -/
def Deed.exchange? (who : ι) (deed : Deed ι) : Option (Exchange Service) :=
  if deed.who = who then
    match deed.act with
    | .asked request => some ⟨request, (deed.world.answer request).1⟩
    | _ => none
  else none

theorem Deed.eq_of_exchange? {who : ι} {deed : Deed ι} {exchange : Exchange Service}
    (h : deed.exchange? who = some exchange) :
    deed.who = who ∧ deed.act = .asked exchange.request ∧
      (deed.world.answer exchange.request).1 = exchange.answer := by
  unfold exchange? at h
  split at h
  · next hwho =>
      split at h
      · next request hact =>
          obtain rfl := Option.some.inj h
          exact ⟨hwho, hact, rfl⟩
      · cases h
  · cases h

theorem Deed.exchange?_of_asked {deed : Deed ι} {request : Service.Request}
    (h : deed.act = .asked request) :
    deed.exchange? deed.who = some ⟨request, (deed.world.answer request).1⟩ := by
  rw [exchange?, if_pos rfl, h]

/-- The transcript of a member. -/
def transcriptOf (who : ι) (deeds : List (Deed ι)) : Transcript Service :=
  deeds.filterMap (Deed.exchange? who)

@[simp] theorem transcriptOf_append (who : ι) (deeds deeds' : List (Deed ι)) :
    transcriptOf who (deeds ++ deeds') = transcriptOf who deeds ++ transcriptOf who deeds' :=
  List.filterMap_append

/-- What is known of a member but for its sleeps is known from its transcript. -/
theorem Surroundings.watch_eq_foldl {σ : Type} {S : Surroundings Service σ}
    (hslept : ∀ s length, S.slept s length = s) (who : ι) (deeds : List (Deed ι)) (s : σ) :
    S.watch who deeds s = (transcriptOf who deeds).foldl
      (fun s exchange => S.after s exchange.request exchange.answer) s := by
  induction deeds generalizing s with
  | nil => rfl
  | cons deed deeds ih =>
      show S.watch who deeds (S.observe who s deed) = _
      rw [ih, transcriptOf, transcriptOf, List.filterMap_cons, observe, Deed.exchange?]
      split
      · cases deed.act with
        | asked request => rfl
        | slept length => exact congrArg (List.foldl _ · _) (hslept s length)
        | interrupted why => rfl
      · rfl

/-- **Watching a member with a recorder** gives the member's transcript. -/
theorem Surroundings.watch_recording (who : ι) (deeds : List (Deed ι)) (t : Transcript Service) :
    (recording Service True).watch who deeds t = t ++ transcriptOf who deeds := by
  have concat : ∀ more : Transcript Service, more.foldl (fun s exchange =>
      (recording Service True).after s exchange.request exchange.answer) t = t ++ more := by
    intro more
    induction more generalizing t with
    | nil => exact (List.append_nil t).symm
    | cons exchange more ih => exact (ih _).trans (List.append_cons t exchange more).symm
  rw [watch_eq_foldl fun _ _ => rfl]
  exact concat _

/-- Each request of a member obeys its rule, by the member's transcript so far. -/
theorem Crowd.rule_of_transcript {α : Type} {crowd : Crowd ι α} {turns : List (Turn ι)}
    {rule : Transcript Service → Service.Request → Prop} {ok : α → Transcript Service → Prop}
    {stopped : Interruption → Transcript Service → Prop} {before after : List (Deed ι)}
    {deed : Deed ι} {r : Service.Request}
    (h : (crowd.stand deed.who).Keeps (.recording Service True) rule ok stopped [])
    (hd : (crowd.run turns).2 = before ++ deed :: after) (hr : deed.act = .asked r) :
    rule (transcriptOf deed.who before) r := by
  have hrule := rule_of_run isOpen_recording h hd hr
  rwa [Surroundings.watch_recording, List.nil_append] at hrule

/-- An exchange in a member's transcript was a deed of that member. -/
theorem exists_deed_of_transcript {who : ι} {deeds : List (Deed ι)} {t₁ t₂ : Transcript Service}
    {exchange : Exchange Service} (h : transcriptOf who deeds = t₁ ++ exchange :: t₂) :
    ∃ before deed after, deeds = before ++ deed :: after ∧ deed.who = who ∧
      deed.act = .asked exchange.request ∧
        (deed.world.answer exchange.request).1 = exchange.answer ∧
          transcriptOf who before = t₁ ∧ transcriptOf who after = t₂ := by
  obtain ⟨before, rest, rfl, hbefore, hrest⟩ := List.filterMap_eq_append_iff.1 h
  obtain ⟨silent, deed, after, rfl, hsilent, hdeed, hafter⟩ := List.filterMap_eq_cons_iff.1 hrest
  obtain ⟨hwho, hact, hanswer⟩ := deed.eq_of_exchange? hdeed
  refine ⟨before ++ silent, deed, after, by simp, hwho, hact, hanswer, ?_, hafter⟩
  rw [transcriptOf_append, transcriptOf, hbefore, transcriptOf,
    List.filterMap_eq_nil_iff.2 hsilent, List.append_nil]

end Crowd

end Upkeep
