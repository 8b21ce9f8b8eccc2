import Upkeep.Simulation.Part

/-!
# Stages

Actors share a scene by taking turns.  An actor keeps its turn until it has to
wait; then it is the turn of the next one in the queue.  The play is over when
the lead, who was there first, has left.

## Main Definitions

* `Actor` — somebody on the stage: acting, resting or gone.
* `Stage` — the scene, the queue and what the turns depend on besides the actors.
* `Stage.move` — what an actor does next.
* `Stage.wake` — what happens when everybody rests.
* `Stage.play` — the turns until the lead has left.
* `Part.perform` — a part as that of the lead.

## Design Notes

*Who queues up.*  An actor who was sent on queues up at the end, and so does one
who waits for an exit when that takes place.  Everybody else is called when the
queue is empty: first the lead if it can go on, then those whose alarm rings in
the order of the alarms, then those who waited for a turn.

*When time passes.*  Only if nobody can be called; then it passes until the next
alarm.  A scene's time may also be set forward by a request.  Alarms that are due
by then ring when everybody rests, and not before.

*Deadlines.*  The deadline of an actor is an alarm too.  Once it has rung the
actor is dropped at its next wait: a wait that is over as soon as it begins is
none, and a wait that is over when the actor has its turn was in time.

*Why plays end.*  Answers may be infinitely many, so there is no number that
bounds the moves.  Each move however replaces one actor by later states of itself
and of those whom it sends on (`Actor.Later`), and that order has no infinite
chains, even on whole companies of actors (`Exchange`).
-/

namespace Upkeep.Simulation

variable {ν : Type}

/-! ### Exchanges -/

/-- A member of a list is exchanged for any number of lesser ones. -/
inductive Exchange {α : Type} (lesser : α → α → Prop) : List α → List α → Prop where
  | head {a : α} {new : List α} (rest : List α) :
      (∀ b ∈ new, lesser b a) → Exchange lesser (new ++ rest) (a :: rest)
  | tail (a : α) {new rest : List α} :
      Exchange lesser new rest → Exchange lesser (a :: new) (a :: rest)

namespace Exchange

variable {α : Type} {lesser : α → α → Prop}

private theorem acc_cons {a : α} (ha : Acc lesser a) :
    ∀ {list : List α}, Acc (Exchange lesser) list → Acc (Exchange lesser) (a :: list) := by
  induction ha with
  | intro a _ iha =>
      intro list hl
      induction hl with
      | intro list hl ihl =>
          refine ⟨_, fun _ h => ?_⟩
          cases h with
          | tail _ h => exact ihl _ h
          | @head _ new _ h =>
              induction new with
              | nil => exact ⟨_, hl⟩
              | cons b new ih =>
                  exact iha b (h b List.mem_cons_self)
                    (ih fun c hc => h c (List.mem_cons_of_mem b hc))

/-- Exchanges for lesser members do not go on for ever. -/
theorem wellFounded (h : WellFounded lesser) : WellFounded (Exchange lesser) := by
  refine ⟨fun list => ?_⟩
  induction list with
  | nil => exact ⟨_, fun _ h => nomatch h⟩
  | cons a list ih => exact acc_cons (h.apply a) ih

/-- An exchange may take place anywhere in the list. -/
theorem within (before : List α) {a : α} {new : List α} (after : List α)
    (h : ∀ b ∈ new, lesser b a) :
    Exchange lesser (before ++ (new ++ after)) (before ++ a :: after) := by
  induction before with
  | nil => exact .head after h
  | cons c before ih => exact .tail c ih

end Exchange

/-! ### Actors -/

/-- An alarm; of several at the same instant the one with the lowest ticket rings
first. -/
structure Alarm where
  due : Duration
  ticket : Nat
  deriving DecidableEq, Repr

/-- How far an actor is with its part. -/
inductive Progress (ν : Type) where
  | acting (part : Part ν)
  /-- It waits; the ticket tells who has waited longer. -/
  | resting (wait : Wait) (ticket : Nat) (next : Except Interruption Unit → Part ν)
  | gone (legacy : Option ν)

/-- Somebody on the stage. -/
structure Actor (ν : Type) where
  number : Nat
  deadline : Option Alarm := none
  progress : Progress ν

namespace Actor

/-- The states that an actor's move may lead to, and those of whom it sends on. -/
inductive Later : Progress ν → Progress ν → Prop where
  | gone (legacy : Option ν) : Later (.gone legacy) (.acting (.leave legacy))
  | answered (request : Scene.Request) (next : Scene.Answer request → Part ν)
      (answer : Scene.Answer request) :
      Later (.acting (next answer)) (.acting (.ask request next))
  | sent (part : Part ν) (next : Nat → Part ν) :
      Later (.acting part) (.acting (.send part next))
  | sends (part : Part ν) (next : Nat → Part ν) (number : Nat) :
      Later (.acting (next number)) (.acting (.send part next))
  | limited (due : Duration) (next : Part ν) : Later (.acting next) (.acting (.limit due next))
  | inherits (number : Nat) (next : Option ν → Part ν) (legacy : Option ν) :
      Later (.acting (next legacy)) (.acting (.inherit number next))
  | rests (wait : Wait) (ticket : Nat) (next : Except Interruption Unit → Part ν) :
      Later (.resting wait ticket next) (.acting (.wait wait next))
  | skips (wait : Wait) (next : Except Interruption Unit → Part ν)
      (woken : Except Interruption Unit) :
      Later (.acting (next woken)) (.acting (.wait wait next))
  | wakes (wait : Wait) (ticket : Nat) (next : Except Interruption Unit → Part ν)
      (woken : Except Interruption Unit) :
      Later (.acting (next woken)) (.resting wait ticket next)

private theorem acc_gone (legacy : Option ν) : Acc Later (Progress.gone legacy) :=
  ⟨_, fun _ h => nomatch h⟩

private theorem acc_acting (part : Part ν) : Acc Later (.acting part) := by
  induction part with
  | leave legacy => exact ⟨_, fun _ h => by cases h; exact acc_gone legacy⟩
  | ask request next ih => exact ⟨_, fun _ h => by cases h; exact ih _⟩
  | send part next ihp ih =>
      refine ⟨_, fun _ h => ?_⟩
      cases h with
      | sent => exact ihp
      | sends _ _ number => exact ih number
  | limit due next ih => exact ⟨_, fun _ h => by cases h; exact ih⟩
  | inherit number next ih => exact ⟨_, fun _ h => by cases h; exact ih _⟩
  | wait wait next ih =>
      refine ⟨_, fun _ h => ?_⟩
      cases h with
      | rests _ ticket => exact ⟨_, fun _ h => by cases h; exact ih _⟩
      | skips _ _ woken => exact ih woken

/-- No actor goes on for ever. -/
theorem wellFounded_later : WellFounded (Later (ν := ν)) := by
  refine ⟨fun progress => ?_⟩
  cases progress with
  | acting part => exact acc_acting part
  | resting wait ticket next => exact ⟨_, fun _ h => by cases h; exact acc_acting _⟩
  | gone legacy => exact acc_gone legacy

/-- The actor with another part before it. -/
def act (actor : Actor ν) (part : Part ν) : Actor ν := { actor with progress := .acting part }

/-- The legacy of an actor who is gone. -/
def legacy? (actor : Actor ν) : Option (Option ν) :=
  match actor.progress with
  | .gone legacy => some legacy
  | _ => none

/-- What an actor rests for. -/
def wait? (actor : Actor ν) : Option Wait :=
  match actor.progress with
  | .resting wait _ _ => some wait
  | _ => none

/-- The alarms that an actor rests for or is to be dropped by. -/
def alarms (actor : Actor ν) : List Alarm :=
  match actor.progress with
  | .resting (.alarm due) ticket _ => ⟨due, ticket⟩ :: actor.deadline.toList
  | .resting _ _ _ => actor.deadline.toList
  | _ => []

end Actor

/-- Everybody who is or was on the stage. -/
abbrev Company (ν : Type) := List (Actor ν)

namespace Company

/-- The legacy of the actor with that number if it is gone. -/
def legacy? (company : Company ν) (number : Nat) : Option (Option ν) :=
  (company.find? fun actor => actor.number == number).bind Actor.legacy?

/-- Those who rest until the actor with that number is gone. -/
def waiting (company : Company ν) (number : Nat) : List Nat :=
  (company.filter fun actor => actor.wait? == some (.exit number)).map Actor.number

/-- The actor with that number, with those before and after it. -/
def split? (number : Nat) : Company ν → Option (Company ν × Actor ν × Company ν)
  | [] => none
  | actor :: rest =>
      if actor.number = number then some ([], actor, rest)
      else (split? number rest).map fun (before, found, after) => (actor :: before, found, after)

theorem eq_of_split? {number : Nat} {company before after : Company ν} {actor : Actor ν}
    (h : company.split? number = some (before, actor, after)) :
    company = before ++ actor :: after := by
  induction company generalizing before with
  | nil => simp [split?] at h
  | cons first rest ih =>
      rw [split?] at h
      split at h
      · simp only [Option.some.injEq, Prod.mk.injEq] at h
        obtain ⟨rfl, rfl, rfl⟩ := h
        rfl
      · simp only [Option.map_eq_some_iff, Prod.exists, Prod.mk.injEq] at h
        obtain ⟨before', actor', after', h, rfl, rfl, rfl⟩ := h
        rw [ih h]
        rfl

end Company

/-! ### Calls -/

/-- How soon somebody who rests is called, from the lowest rank on. -/
structure Call where
  rank : Nat
  due : Duration
  ticket : Nat
  deriving DecidableEq, Repr

/-- Whether one call comes no later than another. -/
def Call.precedes (a b : Call) : Bool :=
  a.rank < b.rank ||
    (a.rank == b.rank && (a.due < b.due || (a.due == b.due && a.ticket ≤ b.ticket)))

/-- The alarm that rings first. -/
def Alarm.first? (alarms : List Alarm) : Option Alarm :=
  (alarms.mergeSort fun a b => (Call.mk 0 a.due a.ticket).precedes ⟨0, b.due, b.ticket⟩).head?

/-! ### Stages -/

/-- The scene, and what the turns depend on besides the actors. -/
structure Stage where
  scene : Scene
  /-- The alarms up to this instant have rung. -/
  heard : Duration
  /-- How many tickets and numbers were drawn. -/
  drawn : Nat
  /-- Those who can go on, the first of whom has its turn. -/
  queue : List Nat

namespace Stage

/-- What time it is. -/
def now (stage : Stage) : Duration := stage.scene.world.now

/-- The number of the actor who was there first. -/
def lead : Nat := 0

/-- Whether what an actor rests for has come about. -/
def hasCome (stage : Stage) (company : Company ν) : Wait → Bool
  | .alarm due => due ≤ stage.heard
  | .turn => true
  | .exit number => (company.legacy? number).isSome

/-- Whether an actor is to be dropped if it has to wait. -/
def isLate (stage : Stage) (actor : Actor ν) : Bool :=
  actor.deadline.any (·.due ≤ stage.heard)

/-- When an actor is called if everybody rests now. -/
def call? (stage : Stage) (company : Company ν) (actor : Actor ν) : Option Call :=
  let ringing := actor.alarms.filter (·.due ≤ stage.now)
  match actor.progress with
  | .resting wait ticket _ =>
      if actor.number = lead then
        if ringing ≠ [] ∨ stage.hasCome company wait then some ⟨0, 0, 0⟩ else none
      else
        match Alarm.first? ringing with
        | some alarm => some ⟨1, alarm.due, alarm.ticket⟩
        | none => if wait = .turn then some ⟨2, 0, ticket⟩ else none
  | _ => none

/-- Those who are called if everybody rests now, in order. -/
def called (stage : Stage) (company : Company ν) : List Nat :=
  let calls := company.filterMap fun actor =>
    (stage.call? company actor).map fun call => (call, actor.number)
  (calls.mergeSort fun a b => a.1.precedes b.1).map Prod.snd

/-- The stage at the instant of the next alarm, if there is any. -/
def passTime (stage : Stage) (company : Company ν) : Stage :=
  match Alarm.first? (company.flatMap Actor.alarms) with
  | some alarm => { stage with scene := stage.scene.elapse (alarm.due - stage.now) }
  | none => stage

/-- The stage after everybody rested: somebody is called, and if there was nobody
to be called then time has passed. -/
def wake (stage : Stage) (company : Company ν) : Stage :=
  let stage := if (stage.called company).isEmpty then stage.passTime company else stage
  { stage with heard := stage.now, queue := stage.called company }

/-- The stage with somebody in the queue, if there is anybody who can be called. -/
def ready (stage : Stage) (company : Company ν) : Stage :=
  if stage.queue = [] then stage.wake company else stage

/-- What the actor whose turn it is does next: the stage after that, and who takes
the place of the actor.  An actor who is gone does nothing. -/
def move (stage : Stage) (company : Company ν) (actor : Actor ν) :
    Option (Stage × Company ν) :=
  match actor.progress with
  | .gone _ => none
  | .resting wait _ next =>
      let woken := if stage.hasCome company wait then .ok () else .error .cancelled
      some (stage, [actor.act (next woken)])
  | .acting (.leave legacy) =>
      let rest := stage.queue.tail
      let waiting := (company.waiting actor.number).filter fun number =>
        number != lead && !rest.contains number
      some ({ stage with queue := rest ++ waiting }, [{ actor with progress := .gone legacy }])
  | .acting (.ask request next) =>
      let (answer, scene) := stage.scene.answer request
      some ({ stage with scene }, [actor.act (next answer)])
  | .acting (.send part next) =>
      let number := stage.drawn
      some ({ stage with drawn := number + 1, queue := stage.queue ++ [number] },
        [actor.act (next number), { number, progress := .acting part }])
  | .acting (.limit due next) =>
      some ({ stage with drawn := stage.drawn + 1 },
        [{ actor.act next with deadline := some ⟨due, stage.drawn⟩ }])
  | .acting (.inherit number next) =>
      some (stage, [actor.act (next ((company.legacy? number).join))])
  | .acting (.wait wait next) =>
      if wait ≠ .turn ∧ stage.hasCome company wait then
        some (stage, [actor.act (next (.ok ()))])
      else if stage.isLate actor then
        some (stage, [actor.act (next (.error .cancelled))])
      else
        some ({ stage with drawn := stage.drawn + 1, queue := stage.queue.tail },
          [{ actor with progress := .resting wait stage.drawn next }])

theorem later_of_move {stage after : Stage} {company : Company ν} {actor : Actor ν}
    {new : Company ν} (h : stage.move company actor = some (after, new)) :
    ∀ later ∈ new, Actor.Later later.progress actor.progress := by
  obtain ⟨number, deadline, progress⟩ := actor
  simp only [move] at h
  split at h
  · contradiction
  · obtain ⟨-, rfl⟩ := Prod.mk.inj (Option.some.inj h)
    simpa [Actor.act] using .wakes _ _ _ _
  · obtain ⟨-, rfl⟩ := Prod.mk.inj (Option.some.inj h)
    simpa using .gone _
  · obtain ⟨-, rfl⟩ := Prod.mk.inj (Option.some.inj h)
    simpa [Actor.act] using .answered _ _ _
  · obtain ⟨-, rfl⟩ := Prod.mk.inj (Option.some.inj h)
    simpa [Actor.act] using ⟨.sends _ _ _, .sent _ _⟩
  · obtain ⟨-, rfl⟩ := Prod.mk.inj (Option.some.inj h)
    simpa [Actor.act] using .limited _ _
  · obtain ⟨-, rfl⟩ := Prod.mk.inj (Option.some.inj h)
    simpa [Actor.act] using .inherits _ _ _
  · split at h
    · obtain ⟨-, rfl⟩ := Prod.mk.inj (Option.some.inj h)
      simpa [Actor.act] using .skips _ _ _
    · split at h
      · obtain ⟨-, rfl⟩ := Prod.mk.inj (Option.some.inj h)
        simpa [Actor.act] using .skips _ _ _
      · obtain ⟨-, rfl⟩ := Prod.mk.inj (Option.some.inj h)
        simpa using .rests _ _ _

/-- One company after another in which an actor has moved. -/
def Moved : Company ν → Company ν → Prop :=
  Exchange (InvImage Actor.Later Actor.progress)

theorem wellFounded_moved : WellFounded (Moved (ν := ν)) :=
  Exchange.wellFounded (InvImage.wf _ Actor.wellFounded_later)

/-- The turns until the lead has left: its legacy, and the scene then.  There is no
legacy if everybody left waits in vain. -/
def play (stage : Stage) (company : Company ν) : Option ν × Scene :=
  match company.legacy? lead with
  | some legacy => (legacy, stage.scene)
  | none =>
      match _turn : (stage.ready company).queue.head?.bind company.split? with
      | none => (none, (stage.ready company).scene)
      | some (before, actor, after) =>
          match _move : (stage.ready company).move company actor with
          | none => (none, (stage.ready company).scene)
          | some (stage, new) => play stage (before ++ (new ++ after))
termination_by wellFounded_moved.wrap company
decreasing_by
  obtain ⟨number, -, h⟩ := Option.bind_eq_some_iff.1 _turn
  have hc := Company.eq_of_split? h
  show Moved _ company
  rw [hc]
  exact Exchange.within _ _ (later_of_move _move)

end Stage

/-- What becomes of a part and of the scene if it is that of the lead. -/
def Part.perform (part : Part ν) (scene : Scene) : Option ν × Scene :=
  Stage.play ⟨scene, scene.world.now, 1, [Stage.lead]⟩
    [{ number := Stage.lead, progress := .acting part }]

end Upkeep.Simulation
