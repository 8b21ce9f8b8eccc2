import Upkeep.Simulation.World

/-!
# Scenes

A simulated world together with what a script has in its hands: the tokens of
leases that it obtained and the guards of leases that it has to give back, each
under a name.

## Main Definitions

* `Scene` — a world, named tokens and named guards.
* `Scene.obtain`, `Scene.release`, `Scene.holder` — the lease store by the names
  of tokens.
* `Scene.hold`, `Scene.takeGuard` — the guards in hand.
* `Scene.Request`, `Scene.answer` — what may be asked of a scene.

## Design Notes

There is one guard to a name, so whoever takes another one in hand is left with
the first.
-/

namespace Upkeep.Simulation

/-- Who has a lease, as far as a script can tell. -/
inductive Holder where
  | nobody
  /-- Somebody whose token has the given name. -/
  | known (name : String)
  | stranger
  deriving DecidableEq, Repr

/-- A world, and the tokens and guards that a script has in its hands. -/
structure Scene where
  world : World := {}
  tokens : List (String × Lease.Token) := []
  guards : List (String × Lease.Guard) := []

namespace Scene

instance : Inhabited Scene := ⟨{}⟩

/-- The scene with a name for a token. -/
def nameToken (scene : Scene) (name : String) (token : Lease.Token) : Scene :=
  { scene with tokens := Assoc.put name token scene.tokens }

/-- The name of a token. -/
def nameOf? (scene : Scene) (token : Lease.Token) : Option String :=
  (scene.tokens.find? fun entry => entry.2 == token).map Prod.fst

/-- Obtains a lease, keeps its token under a name if there is one, and says
whether the lease was granted. -/
def obtain (scene : Scene) (key : String) (ttl : Duration) (name? : Option String) :
    Except Error Bool × Scene :=
  let (result, world) := scene.world.obtainLease key ttl
  let scene := { scene with world }
  match result, name? with
  | .ok (some token), some name => (.ok true, scene.nameToken name token)
  | .ok (some _), none => (.ok true, scene)
  | .ok none, _ => (.ok false, scene)
  | .error error, _ => (.error error, scene)

/-- The token of a name; an unknown name stands for a token that nobody has. -/
def token (scene : Scene) (name : String) : Lease.Token × Scene :=
  match scene.tokens.lookup name with
  | some token => (token, scene)
  | none =>
      let (token, world) := scene.world.drawToken
      (token, { scene with world })

/-- Gives the lease of a key back by the token of a name. -/
def release (scene : Scene) (key name : String) : Except Error Bool × Scene :=
  let (token, scene) := scene.token name
  let (result, world) := scene.world.releaseLease key token
  (result, { scene with world })

/-- Who has the lease of a key. -/
def holder (scene : Scene) (key : String) : Except Error Holder × Scene :=
  let (result, world) := scene.world.leaseHolder key
  let scene := { scene with world }
  match result with
  | .ok none => (.ok .nobody, scene)
  | .ok (some token) =>
      match scene.nameOf? token with
      | some name => (.ok (.known name), scene)
      | none => (.ok .stranger, scene)
  | .error error => (.error error, scene)

/-- The scene after a while. -/
def elapse (length : Duration) (scene : Scene) : Scene :=
  { scene with world := scene.world.elapse length }

/-! ### Guards -/

/-- The guard of a name, which is then no longer in hand. -/
def takeGuard (scene : Scene) (name : String) : Option Lease.Guard × Scene :=
  (scene.guards.lookup name,
    { scene with guards := scene.guards.filter fun entry => entry.1 != name })

/-- Takes a guard in hand, whose token gets the same name, and is left with the
guard that had the name before. -/
def hold (scene : Scene) (name : String) (guard : Lease.Guard) : Option Lease.Guard × Scene :=
  (scene.guards.lookup name,
    { scene.nameToken name guard.token with guards := Assoc.put name guard scene.guards })

/-! ### Requests -/

/-- What may be asked of a scene. -/
inductive Request where
  /-- A request of upkeep. -/
  | service (r : Service.Request)
  /-- A change, answered with the scene before it. -/
  | change (f : Scene → Scene)

/-- The type of the answer to each request. -/
@[reducible] def Answer : Request → Type
  | .service r => Service.Answer r
  | .change _ => Scene

/-- The answer to a request, and the scene after it. -/
def answer : (r : Request) → Scene → Answer r × Scene
  | .service r, scene =>
      let (reply, world) := scene.world.answer r
      (reply, { scene with world })
  | .change f, scene => (scene, f scene)

end Scene

end Upkeep.Simulation
