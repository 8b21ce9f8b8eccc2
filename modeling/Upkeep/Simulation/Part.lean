import Upkeep.Simulation.Scene

/-!
# Parts

A part is what one actor does on a stage that it shares with others: a tree of
requests to the scene, of actors who are sent on, and of waits, with one branch
for every answer.

## Main Definitions

* `Wait` — what an actor may wait for.
* `Part` — what an actor does.

## Design Notes

A part leaves a legacy of type `ν`, or nothing.  Whoever is interested in it waits
for the actor's exit and then inherits it.  Only waits can be interrupted: a
request is answered at once, so nobody can be dropped in the middle of one.
-/

namespace Upkeep.Simulation

/-- What an actor may wait for. -/
inductive Wait where
  /-- The instant `due`. -/
  | alarm (due : Duration)
  /-- The turns of everybody else. -/
  | turn
  /-- The exit of the actor with that number. -/
  | exit (number : Nat)
  deriving DecidableEq, Repr

/-- What an actor does. -/
inductive Part (ν : Type) : Type where
  /-- The actor leaves. -/
  | leave (legacy : Option ν)
  /-- The actor asks something of the scene. -/
  | ask (request : Scene.Request) (next : Scene.Answer request → Part ν)
  /-- The actor sends another one on, and learns its number. -/
  | send (part : Part ν) (next : Nat → Part ν)
  /-- The actor is to be dropped once it has to wait at the instant `due` or later. -/
  | limit (due : Duration) (next : Part ν)
  /-- The actor inherits the legacy of the one with that number, if there is any. -/
  | inherit (number : Nat) (next : Option ν → Part ν)
  /-- The actor waits. -/
  | wait (wait : Wait) (next : Except Interruption Unit → Part ν)

end Upkeep.Simulation
