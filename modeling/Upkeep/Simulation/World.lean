import Upkeep.Lease.Guard
import Upkeep.Partition.Catalog
import Upkeep.Reindex.History
import Upkeep.Service

/-!
# A simulated world

Everything outside of upkeep, in memory: a database with its catalog, a store of
leases, a store of actions, clocks, rebuilders, and whoever is told about
rebuilds.  Each part can be made to fail, and each part remembers what happened
to it.

## Main Definitions

* `World` — the state of everything outside.
* `World.answer` — the answer to each request of upkeep, and the world after it.
* `World.elapse` — the world after a while.

## Design Notes

There are two clocks.  Leases end by the one that runs while jobs sleep; actions
are dated by a wall clock that moves only when it is set, and when a rebuild has
ended.
-/

namespace Upkeep.Simulation

/-- A failure that statements are made to run into. -/
structure ScriptedFailure where
  /-- What the statements contain. -/
  pattern : String
  /-- How many statements it is left for; without a number, all of them. -/
  remaining : Option Nat
  failure : Sql.Failure
  deriving DecidableEq, Repr

namespace ScriptedFailure

/-- Whether a statement runs into the failure. -/
def hits (scripted : ScriptedFailure) (sql : String) : Bool :=
  Text.contains scripted.pattern.toList sql.toList && scripted.remaining != some 0

/-- The failure after a statement ran into it. -/
def spend (scripted : ScriptedFailure) : ScriptedFailure :=
  { scripted with remaining := scripted.remaining.map (· - 1) }

/-- The first failure that a statement runs into, and the failures after that. -/
def strike (sql : String) : List ScriptedFailure → Option Sql.Failure × List ScriptedFailure
  | [] => (none, [])
  | scripted :: rest =>
      if scripted.hits sql then (some scripted.failure, scripted.spend :: rest)
      else
        let (failure?, rest) := strike sql rest
        (failure?, scripted :: rest)

end ScriptedFailure

/-- What a database session remembers. -/
structure SessionState where
  /-- Every statement, the failed ones included. -/
  statements : List String := []
  failures : List ScriptedFailure := []
  /-- Whether statements that succeed change the catalog. -/
  applies : Bool := false
  deriving DecidableEq, Repr, Inhabited

/-- The statements of a session that contain a pattern. -/
def SessionState.matching (state : SessionState) (pattern : String) : List String :=
  state.statements.filter fun sql => Text.contains pattern.toList sql.toList

/-- The place of a session's first statement that contains a pattern. -/
def SessionState.position? (state : SessionState) (pattern : String) : Option Nat :=
  state.statements.findIdx? fun sql => Text.contains pattern.toList sql.toList

/-- A notification that was received. -/
inductive Notification where
  | start (action : Action)
  | ended (action : Action)
  deriving DecidableEq, Repr

/-- What a worker's rebuilder and notifier are like and remember. -/
structure WorkerState where
  /-- How long a rebuild sleeps, if it sleeps at all. -/
  delay : Option Duration := none
  /-- By how many milliseconds the wall clock moves with each rebuild. -/
  clockStep : UInt64 := 0
  /-- The messages with which rebuilds fail, by identifier. -/
  failures : List (String × String) := []
  /-- The sizes of indexes that differ from the known ones, by identifier. -/
  sizes : List (String × UInt64) := []
  /-- The identifiers of every rebuild that began. -/
  rebuilt : List String := []
  inFlight : Nat := 0
  /-- How many rebuilds there ever were at the same time. -/
  maxInFlight : Nat := 0
  /-- Whether sizes cannot be read. -/
  hidesSizes : Bool := false
  /-- Whether notifications fail after they were received. -/
  rejects : Bool := false
  notifications : List Notification := []
  deriving DecidableEq, Repr, Inhabited

/-- The state in which rebuilds of an index fail. -/
def WorkerState.failRebuild (state : WorkerState) (identifier message : String) : WorkerState :=
  { state with failures := Assoc.put identifier message state.failures }

/-- The state in which an index has another size. -/
def WorkerState.resize (state : WorkerState) (identifier : String) (bytes : UInt64) :
    WorkerState :=
  { state with sizes := Assoc.put identifier bytes state.sizes }

/-- The actions whose end a worker was told. -/
def WorkerState.ended (state : WorkerState) : List Action :=
  state.notifications.filterMap fun
    | .ended action => some action
    | .start _ => none

/-- Which operations of the lease store fail. -/
structure LeaseFaults where
  obtain : Bool := false
  release : Bool := false
  holder : Bool := false
  deriving DecidableEq, Repr, Inhabited

/-- Which operations of the action store fail. -/
structure StoreFaults where
  create : Bool := false
  update : Bool := false
  list : Bool := false
  deriving DecidableEq, Repr, Inhabited

/-- What a strategy wanted to know or told. -/
inductive Inquiry where
  | partitions (table : String)
  | default (table column : String)
  | isFull (value : Int64)
  | isRetired (value : Int64)
  | missing
  | extra
  | added
  deriving DecidableEq, Repr

/-- The fixed answers of whoever plans a table's partitions. -/
structure Plan where
  missing : List Partition := []
  extra : List Partition := []
  /-- What being told about added partitions fails with. -/
  failure : Option Sql.Failure := none
  deriving DecidableEq, Repr, Inhabited

/-- The state of everything outside of upkeep. -/
structure World where
  /-- How much time has passed. -/
  now : Duration := 0
  leases : Lease.Store := {}
  leaseFaults : LeaseFaults := {}
  tokensDrawn : Nat := 0
  /-- Whether work can be left to somebody else. -/
  delegates : Bool := true
  catalog : Catalog := {}
  /-- Whether the catalog cannot be read. -/
  hidesCatalog : Bool := false
  isFull : Int64 → Bool := fun _ => false
  isRetired : Int64 → Bool := fun _ => false
  plan : Plan := {}
  inquiries : List Inquiry := []
  sessions : List (Session × SessionState) := []
  accounts : List (Account × Metrics) := []
  workers : List (Worker × WorkerState) := []
  actions : ActionStore := .memory {}
  storeFaults : StoreFaults := {}
  idsDrawn : Nat := 0
  /-- The ids of the actions that were created, in this order. -/
  created : List Uuid := []
  /-- The wall clock, in milliseconds. -/
  clock : UInt64 := 0
  log : List Event := []

namespace World

instance : Inhabited World := ⟨{}⟩

/-! ### Parts -/

/-- The state of a session. -/
def session (world : World) (session : Session) : SessionState :=
  (world.sessions.lookup session).getD {}

/-- The world with another state of a session. -/
def setSession (world : World) (session : Session) (state : SessionState) : World :=
  { world with sessions := Assoc.put session state world.sessions }

/-- The counts of an account. -/
def account (world : World) (account : Account) : Metrics :=
  (world.accounts.lookup account).getD {}

/-- The world with other counts of an account. -/
def setAccount (world : World) (account : Account) (metrics : Metrics) : World :=
  { world with accounts := Assoc.put account metrics world.accounts }

/-- The state of a worker. -/
def worker (world : World) (worker : Worker) : WorkerState :=
  (world.workers.lookup worker).getD {}

/-- The world with another state of a worker. -/
def setWorker (world : World) (worker : Worker) (state : WorkerState) : World :=
  { world with workers := Assoc.put worker state world.workers }

/-- The world after an entry in the log. -/
def write (world : World) (event : Event) : World :=
  { world with log := world.log ++ [event] }

/-- The world after an inquiry of a strategy. -/
def note (world : World) (inquiry : Inquiry) : World :=
  { world with inquiries := world.inquiries ++ [inquiry] }

/-- The world after a while. -/
def elapse (length : Duration) (world : World) : World :=
  { world with now := world.now + length }

/-! ### Leases -/

/-- What a store that cannot be reached answers. -/
def unreachable : Error := .lease (.unavailable "connection refused")

/-- A token that nobody has. -/
def drawToken (world : World) : Lease.Token × World :=
  (⟨world.tokensDrawn⟩, { world with tokensDrawn := world.tokensDrawn + 1 })

/-- Somebody asks for a lease. -/
def obtainLease (world : World) (key : String) (ttl : Duration) :
    Except Error (Option Lease.Token) × World :=
  if world.leaseFaults.obtain then (.error unreachable, world)
  else
    let (token, world) := world.drawToken
    let (granted, leases) := world.leases.obtain world.now key ttl token
    (.ok (if granted then some token else none), { world with leases })

/-- Somebody gives a lease back. -/
def releaseLease (world : World) (key : String) (token : Lease.Token) :
    Except Error Bool × World :=
  if world.leaseFaults.release then (.error unreachable, world)
  else
    let (released, leases) := world.leases.release world.now key token
    (.ok released, { world with leases })

/-- Somebody asks who has a lease. -/
def leaseHolder (world : World) (key : String) : Except Error (Option Lease.Token) × World :=
  if world.leaseFaults.holder then (.error unreachable, world)
  else
    let (holder, leases) := world.leases.holder world.now key
    (.ok holder, { world with leases })

/-! ### The database -/

/-- A session executes a statement. -/
def execute (world : World) (session : Session) (sql : String) :
    Except Sql.Failure Unit × World :=
  let state := world.session session
  let (failure?, failures) := ScriptedFailure.strike sql state.failures
  let world :=
    world.setSession session { state with statements := state.statements ++ [sql], failures }
  match failure? with
  | some failure => (.error failure, world)
  | none =>
      (.ok (), if state.applies then { world with catalog := world.catalog.execute sql } else world)

/-- What a catalog that cannot be read answers. -/
def unreadable (table : String) : Error :=
  .partitioning (.catalogUnavailable table "connection refused")

/-- Somebody lists the partitions of a table. -/
def listPartitions (world : World) (table : String) : Except Error (List Listing) :=
  if world.hidesCatalog then .error (unreadable table) else .ok (world.catalog.partitions table)

/-- Somebody reads the default of a column. -/
def readDefault (world : World) (table column : String) : Except Error (Option String) :=
  if world.hidesCatalog then .error (unreadable table)
  else .ok (world.catalog.default? table column)

/-! ### Actions -/

/-- What a store that refuses answers. -/
def refusal (operation : String) : Error :=
  .store (.serialization (operation ++ " refused"))

/-- The world after something was written to the action store. -/
def afterSaving (world : World) (saving : ActionStore.Saving) : Except Error Unit × World :=
  (saving.result.mapError .store,
    { world with actions := saving.store, log := world.log ++ saving.events })

/-- Somebody records a new action. -/
def createAction (world : World) (action : Action) : Except Error Unit × World :=
  if world.storeFaults.create then (.error (refusal "create"), world)
  else
    let (result, world) := world.afterSaving (world.actions.create action)
    match result with
    | .ok () => (.ok (), { world with created := world.created ++ [action.id] })
    | .error error => (.error error, world)

/-- Somebody records what became of an action. -/
def updateAction (world : World) (action : Action) : Except Error Unit × World :=
  if world.storeFaults.update then (.error (refusal "update"), world)
  else world.afterSaving (world.actions.update action)

/-- The actions on an index. -/
def history (world : World) (database index : String) : Except Error (List Action) :=
  (world.actions.history database index).mapError .store

/-- The action with an id. -/
def load (world : World) (id : Uuid) : Except Error (Option Action) :=
  (world.actions.load id).mapError .store

/-- Somebody lists the actions on an index. -/
def listActions (world : World) (database index : String) : Except Error (List Action) :=
  if world.storeFaults.list then .error (refusal "list") else world.history database index

/-! ### Rebuilds -/

/-- A worker receives a notification. -/
def notify (world : World) (worker : Worker) (notification : Notification) :
    Except Error Unit × World :=
  let state := world.worker worker
  let world :=
    world.setWorker worker { state with notifications := state.notifications ++ [notification] }
  (if state.rejects then .error (.notification "webhook returned 503") else .ok (), world)

/-- A worker begins a rebuild. -/
def beginRebuild (world : World) (worker : Worker) (index : Index) :
    Option Duration × World :=
  let state := world.worker worker
  (state.delay,
    world.setWorker worker
      { state with
        rebuilt := state.rebuilt ++ [index.identifier]
        inFlight := state.inFlight + 1
        maxInFlight := max state.maxInFlight (state.inFlight + 1) })

/-- A worker ends a rebuild. -/
def endRebuild (world : World) (worker : Worker) (index : Index) : Except Error Unit × World :=
  let state := world.worker worker
  let world :=
    { world.setWorker worker { state with inFlight := state.inFlight - 1 } with
      clock := world.clock + state.clockStep }
  -- The rebuild has taken its time even if it has failed.
  match state.failures.lookup index.identifier with
  | some message => (.error (.statement (.other message)), world)
  | none => (.ok (), world)

/-- The size of an index after a worker's rebuilds. -/
def readSize (world : World) (worker : Worker) (index : Index) : Except Error UInt64 :=
  let state := world.worker worker
  if state.hidesSizes then .error (.statement ⟨some "42P01", "size unavailable"⟩)
  else .ok ((state.sizes.lookup index.identifier).getD index.size)

/-! ### Meddling -/

/-- The world after statements were made to fail. -/
def failStatements (world : World) (session : Session) (scripted : ScriptedFailure) : World :=
  let state := world.session session
  world.setSession session { state with failures := state.failures ++ [scripted] }

/-- The world in which no statement of a session is made to fail any more. -/
def clearFailures (world : World) (session : Session) : World :=
  world.setSession session { world.session session with failures := [] }

/-- The world after a change of its catalog. -/
def changeCatalog (world : World) (f : Catalog → Catalog) : World :=
  { world with catalog := f world.catalog }

/-- The world after a change of a worker. -/
def changeWorker (world : World) (worker : Worker) (f : WorkerState → WorkerState) : World :=
  world.setWorker worker (f (world.worker worker))

/-- The world after its wall clock has moved on. -/
def advanceClock (world : World) (length : Duration) : World :=
  { world with clock := world.clock + length.millis64 }

/-- The number of an action in the order of creation, from one on. -/
def numberOf? (world : World) (action : Action) : Option Nat :=
  (world.created.idxOf? action.id).map (· + 1)

/-- The id of the action with a number. -/
def idOf? (world : World) (number : Nat) : Option Uuid :=
  if number = 0 then none else world.created[number - 1]?

/-! ### Requests -/

/-- The answer to a request, and the world after it. -/
def answer : (r : Service.Request) → World → Service.Answer r × World
  | .obtainLease key ttl, world => world.obtainLease key ttl
  | .releaseLease key token, world => world.releaseLease key token
  | .canDelegate, world => (world.delegates, world)
  | .execute session sql, world => world.execute session sql
  | .listPartitions table, world =>
      (world.listPartitions table, world.note (.partitions table))
  | .readDefault table column, world =>
      (world.readDefault table column, world.note (.default table column))
  | .isFull value, world => (world.isFull value, world.note (.isFull value))
  | .isRetired value, world => (world.isRetired value, world.note (.isRetired value))
  | .plannedMissing, world => (.ok world.plan.missing, world.note .missing)
  | .plannedExtra, world => (.ok world.plan.extra, world.note .extra)
  | .plannedAdded, world =>
      (match world.plan.failure with
        | some failure => .error (.statement failure)
        | none => .ok (),
        world.note .added)
  | .drawId, world =>
      (Uuid.ofNat world.idsDrawn, { world with idsDrawn := world.idsDrawn + 1 })
  | .readClock, world => (world.clock, world)
  | .createAction action, world => world.createAction action
  | .updateAction action, world => world.updateAction action
  | .listActions database index, world => (world.listActions database index, world)
  | .notifyStart worker action, world => world.notify worker (.start action)
  | .notifyEnd worker action, world => world.notify worker (.ended action)
  | .beginRebuild worker index, world => world.beginRebuild worker index
  | .endRebuild worker index, world => world.endRebuild worker index
  | .readSize worker index, world => (world.readSize worker index, world)
  | .count account meter n, world =>
      ((), world.setAccount account ((world.account account).add n meter))
  | .log event, world => ((), world.write event)

theorem now_execute (world : World) (session : Session) (sql : String) :
    (world.execute session sql).2.now = world.now := by
  simp only [execute]
  split
  · rfl
  · simp only []; split <;> rfl

/-- No request takes time. -/
theorem now_answer (r : Service.Request) (world : World) :
    (world.answer r).2.now = world.now := by
  cases r with
  | obtainLease => simp only [answer, obtainLease]; split <;> rfl
  | releaseLease => simp only [answer, releaseLease]; split <;> rfl
  | execute => exact now_execute ..
  | createAction =>
      simp only [answer, createAction]
      split
      · rfl
      · split <;> rfl
  | updateAction => simp only [answer, updateAction]; split <;> rfl
  | endRebuild => simp only [answer, endRebuild]; split <;> rfl
  | _ => rfl

end World

end Upkeep.Simulation
