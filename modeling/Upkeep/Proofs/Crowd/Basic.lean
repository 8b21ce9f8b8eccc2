import Mathlib.Logic.Function.Basic
import Upkeep.Proofs.Job.Rule
import Upkeep.Simulation.World

/-!
# Crowds

Workers who share a world, in any order of their steps.  A crowd has one job per
member.  A turn lets one member go on by one request or one sleep, interrupts one
member, lets time pass, or changes the world in a way that no member asked for.  A
schedule is a list of turns, so a statement about all schedules is one about every
interleaving with every passing of time.

## Main Definitions

* `Crowd` — a world, and how far each member is.
* `Turn`, `Crowd.move`, `Crowd.run` — what may happen next, and what then does.
* `Deed` — what a member did, with the world in which it did that.
* `Surroundings.watch` — a member's state by what the member itself did.

## Main Statements

* `Crowd.keeps_run` — a member keeps its rule whatever the others do.
* `Crowd.exists_turn_of_run` — a deed of a run is that of one of its turns.

## Design Notes

A schedule may let a member wait for as long as it likes, so a member that is never
called again is one that was forgotten or has died.  A member that is dropped is
told so at the wait at which it is dropped, and what it does after that is done in
later turns: whoever cleans up for it takes turns like anybody else.

Time only ever grows, and meddling leaves alone the leases, which have no clients
but the members.
-/

namespace Upkeep

open Simulation

/-! ### Members -/

/-- How far a member is. -/
inductive Stand (α : Type) where
  /-- It goes on in its next turn. -/
  | acting (job : Job Service α)
  /-- It sleeps. -/
  | resting (since length : Duration) (next : Except Interruption Unit → Job Service α)

/-- What a member does in a turn. -/
inductive Act where
  | asked (request : Service.Request)
  | slept (length : Duration)
  | interrupted (why : Interruption)
  deriving DecidableEq

namespace Stand

variable {α σ : Type}

/-- A member goes on: what it does, how far it is then, and the world after that.
One who has ended, or who still sleeps, does nothing. -/
def go (world : World) : Stand α → Option Act × Stand α × World
  | acting (.ask request next) =>
      let (answer, after) := world.answer request
      (some (.asked request), acting (next (.ok answer)), after)
  | acting (.sleep length next) => (none, resting world.now length next, world)
  | resting since length next =>
      if since + length ≤ world.now then (some (.slept length), acting (next (.ok ())), world)
      else (none, resting since length next, world)
  | stand => (none, stand, world)

/-- The world changes only as what the member asks for changes it. -/
theorem world_go (stand : Stand α) (world : World) :
    (stand.go world).2.2 = match (stand.go world).1 with
      | some (.asked request) => (world.answer request).2
      | _ => world := by
  match stand with
  | acting (.done value) => rfl
  | acting (.stop why) => rfl
  | acting (.sleep length next) => rfl
  | acting (.ask request next) => rfl
  | resting since length next =>
      simp only [go]
      split <;> rfl

/-- How a member has ended. -/
def outcome? : Stand α → Option (Except Interruption α)
  | acting (.done value) => some (.ok value)
  | acting (.stop why) => some (.error why)
  | _ => none

/-- A member's wait ends with an interruption. -/
def interrupt (why : Interruption) : Stand α → Option Act × Stand α
  | acting (.ask _ next) => (some (.interrupted why), acting (next (.error why)))
  | acting (.sleep _ next) => (some (.interrupted why), acting (next (.error why)))
  | resting _ _ next => (some (.interrupted why), acting (next (.error why)))
  | stand => (none, stand)

/-- What is left of a member's job keeps a rule. -/
def Keeps (S : Surroundings Service σ) (rule : σ → Service.Request → Prop)
    (ok : α → σ → Prop) (stopped : Interruption → σ → Prop) : Stand α → σ → Prop
  | acting job, s => job.Keeps S rule ok stopped s
  | resting _ length next, s =>
      (Job.sleep length next : Job Service α).Keeps S rule ok stopped s

end Stand

/-! ### Crowds -/

/-- A world, and how far each of those who share it is. -/
structure Crowd (ι α : Type) where
  world : World
  stand : ι → Stand α

/-- A change of the world that leaves alone its time and its leases. -/
structure Meddling where
  change : World → World
  now_change : ∀ world, (change world).now = world.now
  leases_change : ∀ world, (change world).leases = world.leases
  drawn_change : ∀ world, (change world).tokensDrawn = world.tokensDrawn

/-- What may happen next. -/
inductive Turn (ι : Type) where
  /-- A member goes on. -/
  | act (who : ι)
  /-- A member's wait ends with an interruption. -/
  | interrupt (who : ι) (why : Interruption)
  /-- Time passes. -/
  | pass (length : Duration)
  /-- Somebody asks who has a lease. -/
  | inquire (key : String)
  /-- Something changes. -/
  | meddle (meddling : Meddling)

/-- What a member did, and the world in which it did that. -/
structure Deed (ι : Type) where
  who : ι
  world : World
  act : Act

namespace Deed

variable {ι : Type}

/-- The instant of a deed. -/
def now (deed : Deed ι) : Duration := deed.world.now

/-- The world after a deed. -/
def after (deed : Deed ι) : World :=
  match deed.act with
  | .asked request => (deed.world.answer request).2
  | _ => deed.world

end Deed

namespace Crowd

variable {ι α σ : Type} [DecidableEq ι]

/-- The crowd after a turn, and what was done in it. -/
def move (crowd : Crowd ι α) : Turn ι → Crowd ι α × Option (Deed ι)
  | .act who =>
      let (act?, stand, world) := (crowd.stand who).go crowd.world
      (⟨world, Function.update crowd.stand who stand⟩,
        act?.map fun act => ⟨who, crowd.world, act⟩)
  | .interrupt who why =>
      let (act?, stand) := (crowd.stand who).interrupt why
      ({ crowd with stand := Function.update crowd.stand who stand },
        act?.map fun act => ⟨who, crowd.world, act⟩)
  | .pass length => ({ crowd with world := crowd.world.elapse length }, none)
  | .inquire key => ({ crowd with world := (crowd.world.leaseHolder key).2 }, none)
  | .meddle meddling => ({ crowd with world := meddling.change crowd.world }, none)

/-- Whose turn it is goes on. -/
theorem stand_act_self (crowd : Crowd ι α) (who : ι) :
    (crowd.move (.act who)).1.stand who = ((crowd.stand who).go crowd.world).2.1 :=
  Function.update_self ..

/-- Nobody else goes on. -/
theorem stand_act_of_ne (crowd : Crowd ι α) {who other : ι} (h : other ≠ who) :
    (crowd.move (.act who)).1.stand other = crowd.stand other :=
  Function.update_of_ne h ..

/-- The crowd after a schedule, and what was done in it. -/
def run : List (Turn ι) → Crowd ι α → Crowd ι α × List (Deed ι)
  | [], crowd => (crowd, [])
  | turn :: turns, crowd =>
      let (crowd, deed?) := crowd.move turn
      let (crowd, deeds) := crowd.run turns
      (crowd, deed?.toList ++ deeds)

@[simp] theorem run_nil (crowd : Crowd ι α) : crowd.run [] = (crowd, []) := rfl

theorem run_cons (crowd : Crowd ι α) (turn : Turn ι) (turns : List (Turn ι)) :
    crowd.run (turn :: turns) =
      (((crowd.move turn).1.run turns).1,
        (crowd.move turn).2.toList ++ ((crowd.move turn).1.run turns).2) := rfl

/-- A schedule goes on where its first part has ended. -/
theorem run_append (crowd : Crowd ι α) (turns turns' : List (Turn ι)) :
    crowd.run (turns ++ turns') = (((crowd.run turns).1.run turns').1,
      (crowd.run turns).2 ++ ((crowd.run turns).1.run turns').2) := by
  induction turns generalizing crowd with
  | nil => rfl
  | cons turn turns ih => rw [List.cons_append, run_cons, run_cons, ih, List.append_assoc]

/-- A deed of a run is that of one of its turns, and what came before it is what was
done in the turns before that one. -/
theorem exists_turn_of_run {crowd : Crowd ι α} {turns : List (Turn ι)}
    {before after : List (Deed ι)} {deed : Deed ι}
    (h : (crowd.run turns).2 = before ++ deed :: after) :
    ∃ earlier turn later, turns = earlier ++ turn :: later ∧
      (crowd.run earlier).2 = before ∧ ((crowd.run earlier).1.move turn).2 = some deed := by
  induction turns generalizing crowd before with
  | nil => simp at h
  | cons turn turns ih =>
      rw [run_cons] at h
      cases hd : (crowd.move turn).2 with
      | none =>
          rw [hd] at h
          obtain ⟨earlier, turn', later, rfl, hb, hm⟩ := ih h
          exact ⟨turn :: earlier, turn', later, rfl, by rw [run_cons, hd]; exact hb, hm⟩
      | some first =>
          rw [hd] at h
          cases before with
          | nil =>
              obtain ⟨rfl, -⟩ := List.cons.inj h
              exact ⟨[], turn, turns, rfl, rfl, hd⟩
          | cons first' before =>
              obtain ⟨rfl, htail⟩ := List.cons.inj h
              obtain ⟨earlier, turn', later, rfl, rfl, hm⟩ := ih htail
              exact ⟨turn :: earlier, turn', later, rfl, by rw [run_cons, hd]; rfl, hm⟩

/-- **What every turn preserves holds after every schedule**, of the crowd and of what
was done so far. -/
theorem run_induction {inv : Crowd ι α → List (Deed ι) → Prop} {crowd : Crowd ι α}
    (start : inv crowd [])
    (step : ∀ crowd deeds turn, inv crowd deeds →
      inv (crowd.move turn).1 (deeds ++ (crowd.move turn).2.toList))
    (turns : List (Turn ι)) : inv (crowd.run turns).1 (crowd.run turns).2 := by
  -- The deeds so far grow at their end, but a schedule is taken from its start.
  have general : ∀ turns crowd deeds, inv crowd deeds →
      inv (crowd.run turns).1 (deeds ++ (crowd.run turns).2) := by
    intro turns
    induction turns with
    | nil => intro crowd deeds h; simpa using h
    | cons turn turns ih =>
        intro crowd deeds h
        rw [run_cons, ← List.append_assoc]
        exact ih _ _ (step crowd deeds turn h)
  simpa using general turns crowd [] start

/-- The world after a turn in which nobody did anything: time may have passed, and
the store may have been asked about a key. -/
structure Quiet (world after : World) : Prop where
  now_le : world.now ≤ after.now
  drawn : after.tokensDrawn = world.tokensDrawn
  leases : after.leases = world.leases ∨
    ∃ key, after.leases = world.leases.evictKey world.now key

theorem Quiet.refl (world : World) : Quiet world world := ⟨Nat.le_refl _, rfl, .inl rfl⟩

private theorem quiet_leaseHolder (world : World) (key : String) :
    Quiet world (world.leaseHolder key).2 := by
  unfold World.leaseHolder
  split
  · exact .refl world
  · exact ⟨Nat.le_refl _, rfl, .inr ⟨key, rfl⟩⟩

/-- A turn is a deed of its world, or it is a quiet one. -/
theorem world_move (crowd : Crowd ι α) (turn : Turn ι) :
    (∃ deed, (crowd.move turn).2 = some deed ∧ deed.world = crowd.world ∧
        (crowd.move turn).1.world = deed.after) ∨
      ((crowd.move turn).2 = none ∧ Quiet crowd.world (crowd.move turn).1.world) := by
  cases turn with
  | act who =>
      simp only [move]
      match crowd.stand who with
      | .acting (.ask request next) => exact .inl ⟨_, rfl, rfl, rfl⟩
      | .acting (.sleep length next) => exact .inr ⟨rfl, .refl _⟩
      | .acting (.done value) => exact .inr ⟨rfl, .refl _⟩
      | .acting (.stop why) => exact .inr ⟨rfl, .refl _⟩
      | .resting since length next =>
          simp only [Stand.go]
          split
          · exact .inl ⟨_, rfl, rfl, rfl⟩
          · exact .inr ⟨rfl, .refl _⟩
  | interrupt who why =>
      simp only [move]
      match crowd.stand who with
      | .acting (.ask request next) => exact .inl ⟨_, rfl, rfl, rfl⟩
      | .acting (.sleep length next) => exact .inl ⟨_, rfl, rfl, rfl⟩
      | .acting (.done value) => exact .inr ⟨rfl, .refl _⟩
      | .acting (.stop why) => exact .inr ⟨rfl, .refl _⟩
      | .resting since length next => exact .inl ⟨_, rfl, rfl, rfl⟩
  | pass length => exact .inr ⟨rfl, ⟨Nat.le_add_right _ _, rfl, .inl rfl⟩⟩
  | inquire key => exact .inr ⟨rfl, quiet_leaseHolder _ key⟩
  | meddle meddling =>
      refine .inr ⟨rfl, ⟨Nat.le_of_eq ?_, meddling.drawn_change _, .inl (meddling.leases_change _)⟩⟩
      exact congrArg Duration.nanos (meddling.now_change _).symm

/-- What a deed was done to is the world before its turn. -/
theorem world_of_move {crowd : Crowd ι α} {turn : Turn ι} {deed : Deed ι}
    (h : (crowd.move turn).2 = some deed) :
    deed.world = crowd.world ∧ (crowd.move turn).1.world = deed.after := by
  rcases world_move crowd turn with ⟨deed', hd, hw⟩ | ⟨hd, -⟩
  · rw [h] at hd
    cases hd
    exact hw
  · rw [h] at hd
    cases hd

end Crowd

/-! ### Watching one member -/

namespace Surroundings

variable {ι σ : Type} [DecidableEq ι] (S : Surroundings Service σ)

/-- Nothing is known about answers, and every wait may be interrupted. -/
structure IsOpen : Prop where
  replies : ∀ s r answer, S.replies s r answer
  interrupts : S.interrupts

/-- The state after something was done in a world. -/
def note (world : World) (s : σ) : Act → σ
  | .asked request => S.after s request (world.answer request).1
  | .slept length => S.slept s length
  | .interrupted _ => s

/-- A member's state after somebody did something. -/
def observe (who : ι) (s : σ) (deed : Deed ι) : σ :=
  if deed.who = who then S.note deed.world s deed.act else s

/-- A member's state by what the member itself did. -/
def watch (who : ι) (deeds : List (Deed ι)) (s : σ) : σ := deeds.foldl (S.observe who) s

@[simp] theorem watch_nil (who : ι) (s : σ) : S.watch who [] s = s := rfl

@[simp] theorem watch_append (who : ι) (deeds deeds' : List (Deed ι)) (s : σ) :
    S.watch who (deeds ++ deeds') s = S.watch who deeds' (S.watch who deeds s) :=
  List.foldl_append

@[simp] theorem watch_singleton (who : ι) (deed : Deed ι) (s : σ) :
    S.watch who [deed] s = S.observe who s deed := rfl

end Surroundings

section Keeping

variable {ι α σ : Type} [DecidableEq ι] {S : Surroundings Service σ}
  {rule : σ → Service.Request → Prop} {ok : α → σ → Prop} {stopped : Interruption → σ → Prop}
  {s : σ}

/-- A member who goes on keeps its rule, if it is answered as its surroundings allow. -/
theorem Stand.keeps_go_of_replies {stand : Stand α} (world : World)
    (h : stand.Keeps S rule ok stopped s)
    (hreply : ∀ r, (stand.go world).1 = some (.asked r) → rule s r →
      S.replies s r (world.answer r).1) :
    (stand.go world).2.1.Keeps S rule ok stopped
        ((stand.go world).1.elim s (S.note world s)) ∧
      ∀ r, (stand.go world).1 = some (.asked r) → rule s r := by
  match stand with
  | acting (.done value) => exact ⟨h, by simp [go]⟩
  | acting (.stop why) => exact ⟨h, by simp [go]⟩
  | acting (.sleep length next) => exact ⟨h, by simp [go]⟩
  | acting (.ask request next) =>
      refine ⟨h.2.1 _ (hreply request rfl h.1), ?_⟩
      rintro r ⟨⟩
      exact h.1
  | resting since length next =>
      simp only [go]
      split
      · exact ⟨h.1, by simp⟩
      · exact ⟨h, by simp⟩

/-- A member who goes on keeps its rule. -/
theorem Stand.keeps_go (hS : S.IsOpen) {stand : Stand α} (world : World)
    (h : stand.Keeps S rule ok stopped s) :
    (stand.go world).2.1.Keeps S rule ok stopped
        ((stand.go world).1.elim s (S.note world s)) ∧
      ∀ r, (stand.go world).1 = some (.asked r) → rule s r :=
  Stand.keeps_go_of_replies world h fun _ _ _ => hS.replies ..

/-- A member who is interrupted keeps its rule. -/
theorem Stand.keeps_interrupt (hS : S.IsOpen) {stand : Stand α} (why : Interruption)
    (h : stand.Keeps S rule ok stopped s) :
    (stand.interrupt why).2.Keeps S rule ok stopped s ∧
      ((stand.interrupt why).1 = none ∨ (stand.interrupt why).1 = some (.interrupted why)) := by
  match stand with
  | acting (.done value) => exact ⟨h, .inl rfl⟩
  | acting (.stop why) => exact ⟨h, .inl rfl⟩
  | acting (.sleep length next) => exact ⟨h.2 hS.interrupts why, .inr rfl⟩
  | acting (.ask request next) => exact ⟨h.2.2 hS.interrupts why, .inr rfl⟩
  | resting since length next => exact ⟨h.2 hS.interrupts why, .inr rfl⟩

namespace Crowd

/-- In one turn a member keeps its rule, whoever's turn it is. -/
theorem keeps_move (hS : S.IsOpen) {crowd : Crowd ι α} {who : ι} (turn : Turn ι)
    (h : (crowd.stand who).Keeps S rule ok stopped s) :
    ((crowd.move turn).1.stand who).Keeps S rule ok stopped
        (S.watch who (crowd.move turn).2.toList s) ∧
      ∀ deed, (crowd.move turn).2 = some deed → deed.who = who →
        ∀ r, deed.act = .asked r → rule s r := by
  cases turn with
  | act other =>
      by_cases ho : other = who
      · subst ho
        obtain ⟨hk, hr⟩ := Stand.keeps_go hS crowd.world h
        simp only [move, Function.update_self]
        cases ha : ((crowd.stand other).go crowd.world).1 with
        | none => exact ⟨by simpa [ha] using hk, by simp⟩
        | some act =>
            refine ⟨by simpa [ha, Surroundings.observe] using hk, ?_⟩
            rintro deed ⟨⟩ - r rfl
            exact hr r ha
      · simp only [move, Function.update_of_ne (Ne.symm ho)]
        cases ((crowd.stand other).go crowd.world).1 with
        | none => exact ⟨h, by simp⟩
        | some act =>
            refine ⟨by simpa [Surroundings.observe, ho] using h, ?_⟩
            rintro deed ⟨⟩ hw
            exact absurd hw ho
  | interrupt other why =>
      by_cases ho : other = who
      · subst ho
        obtain ⟨hk, ha⟩ := Stand.keeps_interrupt hS why h
        simp only [move, Function.update_self]
        rcases ha with ha | ha
        · rw [ha]
          exact ⟨hk, by simp⟩
        · rw [ha]
          refine ⟨by simpa [Surroundings.observe, Surroundings.note] using hk, ?_⟩
          rintro deed ⟨⟩ - r ⟨⟩
      · simp only [move, Function.update_of_ne (Ne.symm ho)]
        cases ((crowd.stand other).interrupt why).1 with
        | none => exact ⟨h, by simp⟩
        | some act =>
            refine ⟨by simpa [Surroundings.observe, ho] using h, ?_⟩
            rintro deed ⟨⟩ hw
            exact absurd hw ho
  | pass length => simpa [move] using h
  | inquire key => simpa [move] using h
  | meddle meddling => simpa [move] using h

/-- **A member keeps its rule whatever the others do**: at the end of every schedule
what is left of its job keeps the rule in the state that its own deeds led to. -/
theorem keeps_run (hS : S.IsOpen) {crowd : Crowd ι α} {who : ι} (turns : List (Turn ι))
    (h : (crowd.stand who).Keeps S rule ok stopped s) :
    ((crowd.run turns).1.stand who).Keeps S rule ok stopped
      (S.watch who (crowd.run turns).2 s) := by
  induction turns generalizing crowd s with
  | nil => exact h
  | cons turn turns ih =>
      rw [run_cons, Surroundings.watch_append]
      exact ih (keeps_move hS turn h).1

/-- Each request of a member obeys its rule in the state that its own deeds before
that one led to. -/
theorem rule_of_run (hS : S.IsOpen) {crowd : Crowd ι α} {turns : List (Turn ι)}
    {before after : List (Deed ι)} {deed : Deed ι} {r : Service.Request}
    (h : (crowd.stand deed.who).Keeps S rule ok stopped s)
    (hd : (crowd.run turns).2 = before ++ deed :: after) (hr : deed.act = .asked r) :
    rule (S.watch deed.who before s) r := by
  obtain ⟨earlier, turn, later, rfl, rfl, hm⟩ := exists_turn_of_run hd
  exact (keeps_move hS turn (keeps_run hS earlier h)).2 deed hm rfl r hr

end Crowd

end Keeping

end Upkeep
