import Upkeep.Simulation.Stage

/-!
# Scripts

A script runs upkeep in a simulated world and meddles with that world in
between.  It is a job that becomes an actor's part on a stage, so it may send on
other scripts, wait for them and have a deadline.  What a script has found out up
to an interruption is kept in its notes.

## Main Definitions

* `Script` — a job of requests to the scene, of notes and of what actors do.
* `Script.task`, `Script.job` — upkeep as a part of a script.
* `Script.act`, `Script.look` — meddling with the scene.
* `Script.send`, `Script.await`, `Script.concurrently` — other scripts.
* `Script.yield`, `Script.advance` — a turn for everybody else, setting the time
  forward.
* `Script.abandon`, `Script.hold` — letting go of a guard, taking one in hand.
* `Script.holding` — a script under a lease.
* `Script.collect` — a script with its notes as a part of its value.
* `Script.underLease` — a script of its own under a lease and within a limit.
* `Script.run` — what becomes of a script and its scene.

## Design Notes

A script that is dropped takes nobody with it: those whom it has sent on go on,
and only what they leave is lost.  Nobody waits for the lease of a guard that was
let go of either, so it still counts until the turn of the one who gives it back.
-/

namespace Upkeep.Simulation

namespace Script

/-- What a script may ask for; its notes and what it leaves are of type `ν`. -/
inductive Request (ν : Type) where
  /-- A request to the scene. -/
  | scene (r : Scene.Request)
  /-- A note. -/
  | note (entry : ν)
  /-- Another actor with that part, answered with its number. -/
  | send (part : Part ν)
  /-- To be dropped at the first wait that takes place at the instant `due` or later. -/
  | limit (due : Duration)
  /-- What the actor with that number has left. -/
  | inherit (number : Nat)
  /-- A wait. -/
  | wait (wait : Wait)

/-- The type of the answer to each request. -/
@[reducible] def Answer {ν : Type} : Request ν → Type
  | .scene r => Scene.Answer r
  | .note _ => Unit
  | .send _ => Nat
  | .limit _ => Unit
  | .inherit _ => Option ν
  | .wait _ => Unit

/-- The requests of scripts and their answers. -/
def interface (ν : Type) : Interface := ⟨Request ν, Answer⟩

end Script

/-- A job that runs upkeep and meddles with the world. -/
abbrev Script (ν α : Type) := Job (Script.interface ν) α

namespace Script

variable {ν α β : Type}

/-- One request, and its answer as the value. -/
def request (r : Request ν) : Script ν (Answer r) := Job.request (I := interface ν) r

/-! ### Upkeep and the scene -/

/-- Upkeep as a part of a script. -/
def job : Job Service α → Script ν α
  | Job.done value => Job.done value
  | Job.stop why => Job.stop why
  | Job.sleep length next => Job.sleep length fun woken => job (next woken)
  | Job.ask request next =>
      Job.ask (I := interface ν) (.scene (.service request)) fun answer => job (next answer)

/-- A task of upkeep as a part of a script. -/
def task (t : Task α) : Script ν (Except Error α) := job t.toJob

/-- Meddles with the scene and learns something about it. -/
def act (f : Scene → β × Scene) : Script ν β :=
  (request (.scene (.change fun scene => (f scene).2))).bind fun scene => Job.done (f scene).1

/-- Meddles with the scene. -/
def change (f : Scene → Scene) : Script ν Unit := act fun scene => ((), f scene)

/-- Meddles with the world. -/
def changeWorld (f : World → World) : Script ν Unit :=
  change fun scene => { scene with world := f scene.world }

/-- Looks at the scene. -/
def look (f : Scene → β) : Script ν β := act fun scene => (f scene, scene)

/-- What time it is. -/
def now : Script ν Duration := look fun scene => scene.world.now

/-- A script and the time that it takes. -/
def clocked (script : Script ν α) : Script ν (α × Duration) :=
  now.bind fun start => script.bind fun value => now.bind fun stop => Job.done (value, stop - start)

/-! ### Notes -/

/-- Takes a note. -/
def note (entry : ν) : Script ν Unit := request (.note entry)

/-- Parts one after the other, with a note after each. -/
def noteAll : List (Script ν ν) → Script ν Unit
  | [] => Job.done ()
  | part :: parts => part.bind fun entry => (note entry).bind fun () => noteAll parts

/-- The script with its notes, the given ones first, and with any interruption as
a value. -/
def collectFrom (notes : List ν) : Script ν α → Script ν (List ν × Except Interruption α)
  | Job.done value => Job.done (notes, .ok value)
  | Job.stop why => Job.done (notes, .error why)
  | Job.sleep length next => Job.sleep length fun woken => collectFrom notes (next woken)
  | Job.ask (.note entry) next => collectFrom (notes ++ [entry]) (next (.ok ()))
  | Job.ask request next => Job.ask request fun answer => collectFrom notes (next answer)

/-- The script with its notes, and with any interruption as a value. -/
def collect (script : Script ν α) : Script ν (List ν × Except Interruption α) :=
  collectFrom [] script

/-! ### Actors -/

/-- A script as an actor's part. -/
def toPart : Script ν (Option ν) → Part ν
  | Job.done legacy => .leave legacy
  | Job.stop _ => .leave none
  | Job.sleep length next =>
      .ask (.change id) fun scene =>
        .wait (.alarm (scene.world.now + length)) fun woken => toPart (next woken)
  | Job.ask (.scene r) next => .ask r fun answer => toPart (next (.ok answer))
  -- What nobody collects is lost.
  | Job.ask (.note _) next => toPart (next (.ok ()))
  | Job.ask (.send part) next => .send part fun number => toPart (next (.ok number))
  | Job.ask (.limit due) next => .limit due (toPart (next (.ok ())))
  | Job.ask (.inherit number) next => .inherit number fun legacy => toPart (next (.ok legacy))
  | Job.ask (.wait wait) next => .wait wait fun woken => toPart (next woken)

/-- Has another actor do something, and learns its number. -/
def send (script : Script ν (Option ν)) : Script ν Nat := request (.send (toPart script))

/-- Waits until the actor with that number is gone, and inherits what it has left. -/
def await (number : Nat) : Script ν (Option ν) :=
  (request (.wait (.exit number))).bind fun () => request (.inherit number)

/-- Scripts side by side, all of them sent on before any of them is waited for. -/
def concurrently (scripts : List (Script ν ν)) : Script ν (List (Option ν)) := do
  let numbers ← scripts.mapM fun script => send (some <$> script)
  numbers.mapM await

/-- The script after a delay. -/
def after (delay : Duration) (script : Script ν α) : Script ν α :=
  if delay = 0 then script else (Job.pause delay).bind fun () => script

/-- From now on the script is dropped if it has to wait after the given time. -/
def within (length : Duration) (script : Script ν α) : Script ν α :=
  now.bind fun start => (request (.limit (start + length))).bind fun () => script

/-- A turn for everybody else. -/
def yield : Script ν Unit := request (.wait .turn)

/-- Sets the time forward.  After the turn in which everybody else learns of it there
is another one for those whom it has woken. -/
def advance (length : Duration) : Script ν Unit :=
  (change fun scene => scene.elapse length).bind fun () => yield.bind fun () => yield

/-! ### Guards -/

/-- Lets go of a guard, so that its lease is given back by another actor if anybody
is left to do so. -/
def abandon (guard : Lease.Guard) : Script ν Unit :=
  (job (Service.ask .canDelegate)).bind fun delegates =>
    if delegates then
      (send ((job guard.surrender).bind fun () => Job.done none)).bind fun _ => Job.done ()
    else job (Service.log (Lease.nobodyLeftEvent guard.key))

/-- Takes a guard in hand under a name, and lets go of the one that had it before. -/
def hold (name : String) (guard : Lease.Guard) : Script ν Unit :=
  (act fun scene => scene.hold name guard).bind fun
    | some former => abandon former
    | none => Job.done ()

/-- A script under a guard's lease, which is given back at the end; if the script
is stopped then the lease is abandoned. -/
def protect (guard : Lease.Guard) (work : Script ν α) : Script ν α :=
  (((job (Service.log (Lease.obtainedEvent guard))).bind fun () => work).onStop
    (abandon guard)).bind fun value =>
      (job guard.release).bind fun _ => Job.done value

/-- A script under the lease with that key; nothing, and no work, if somebody else
has it. -/
def holding (key : String) (ttl : Duration) (work : Script ν α) :
    Script ν (Except Error (Option α)) :=
  (task (Lease.acquire key ttl)).bind fun
    | .error error => Job.done (.error error)
    | .ok none =>
        (job (Service.log (Lease.heldEvent key))).bind fun () => Job.done (.ok none)
    | .ok (some guard) => (protect guard work).bind fun value => Job.done (.ok (some value))

/-- How a script under a lease ended. -/
inductive Ending (α : Type) where
  | ended (value : α)
  /-- It did not begin, because somebody else has the lease. -/
  | held
  /-- It did not begin, because the lease could not be asked for. -/
  | failed (error : Error)
  | panicked
  /-- It was dropped when its time was up. -/
  | dropped

/-- How a script under a lease ended, from what became of it. -/
def Ending.ofOutcome : Except Interruption (Except Error (Option α)) → Ending α
  | .ok (.ok (some value)) => .ended value
  | .ok (.ok none) => .held
  | .ok (.error error) => .failed error
  | .error .panic => .panicked
  | .error .cancelled => .dropped

/-- A script under a lease and within a limit, done by another actor: its parts with
a note after each, and then its last part.  What the actor leaves is a report on how
the script ended and on its notes, of which there are none if it did not begin and
of which the first is `mark` if it did. -/
def underLease (key : String) (ttl : Duration) (limit : Option Duration) (mark : ν)
    (parts : List (Script ν ν)) (last : Script ν α) (report : List ν → Ending α → ν) :
    Script ν (Option ν) :=
  let block := (note mark).bind fun () => (noteAll parts).bind fun () => last
  let whole := holding key ttl block
  let limited := match limit with
    | some length => within length whole
    | none => whole
  (send ((collect limited).bind fun (notes, outcome) =>
    Job.done (some (report notes (.ofOutcome outcome))))).bind await

/-! ### Running -/

/-- What a script ends with if it is that of the lead, and what becomes of its
scene. -/
def run (script : Script ν ν) (scene : Scene) : Option ν × Scene :=
  (toPart (some <$> script)).perform scene

end Script

end Upkeep.Simulation
