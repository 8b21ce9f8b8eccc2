import Upkeep.Proofs.Partition.Locality
import Upkeep.Proofs.Partition.Outcome
import Upkeep.Proofs.Simulation.Counts

/-!
# Syncs of different tables

Syncs of different tables have nothing to do with each other, although they share the catalog,
the sessions, the lease store and the counters: whichever of two is first, both end the same, and
the world is the same after them as far as anybody can tell.

## Main Definitions

* `Client` — a manager with what its application says about partitions.
* `Client.sync` — a sync of a client that runs alone.
* `Client.Serves` — no statement of the client fails, and its statements are read as they are meant.
* `Passes` — what a sync leaves alone.

## Main Results

* `Client.Serves.sync_of_passes` — a sync after one of another table is as it would have been before
  it.
* `sync_comm` — syncs of different tables commute.
-/

namespace Upkeep.Partition

open Simulation Lease

/-- A manager of a sliding list, with what its application says about partitions. -/
structure Client where
  manager : Manager
  list : SlidingList
  strategy_eq : manager.strategy = list.strategy
  isFull : Int64 → Bool
  isRetired : Int64 → Bool

/-- The statements of a session change the catalog, and none is made to fail. -/
def IsCalm (world : World) (session : Session) : Prop :=
  (world.session session).applies = true ∧ (world.session session).failures = []

namespace Client

/-- The world in which the client's application is the one that is asked. -/
def asked (client : Client) (world : World) : World :=
  { world with isFull := client.isFull, isRetired := client.isRetired }

/-- A sync of the client's table that runs alone, and the world after it. -/
def sync (client : Client) (world : World) :
    Except Interruption (Except Error (Option SyncReport)) × World :=
  synced client.manager (client.asked world)

/-- No statement of the client fails, all are read as they are meant, and the lease store can be
reached; perhaps the catalog cannot. -/
structure Serves (client : Client) (world : World) : Prop where
  manager : IsCalm world client.manager.session
  list : IsCalm world client.list.session
  legible : Legible client.list world.catalog
  obtain : world.leaseFaults.obtain = false
  release : world.leaseFaults.release = false

/-- The client's application answers, and no statement of a session fails that is calm in a
world. -/
def conditions (client : Client) (world : World) : Conditions where
  failures := False
  outages := True
  isFull value answer := answer = client.isFull value
  isRetired value answer := answer = client.isRetired value
  applies := IsCalm world

end Client

/-- What a sync of the list's table leaves alone. -/
structure Passes (list : SlidingList) (world after : World) : Prop where
  tables : ∀ table ≠ list.table, world.catalog.AgreesOn table after.catalog
  hidesCatalog : after.hidesCatalog = world.hidesCatalog
  calm : ∀ session, IsCalm world session → IsCalm after session
  now : after.now = world.now
  /-- Those leases are left that still count. -/
  leases : after.leases = world.leases.evict world.now
  leaseFaults : after.leaseFaults = world.leaseFaults

variable {client : Client} {list : SlidingList} {origin world other after : World}

namespace Client

/-- Whether the client's sync is granted its lease. -/
def isGranted (client : Client) (world : World) : Bool :=
  (world.leases.obtain world.now client.manager.leaseKey client.manager.settings.lease
    ⟨world.tokensDrawn⟩).1

/-- The world in which the client's run begins. -/
def begun (client : Client) (world : World) : World :=
  entered client.manager (client.asked world)

/-! ### One sync -/

section Begun

variable (hobtain : world.leaseFaults.obtain = false)
include hobtain

theorem answer_obtain : (client.asked world).answer
    (.obtainLease client.manager.leaseKey client.manager.settings.lease) =
      (.ok (if client.isGranted world then some ⟨world.tokensDrawn⟩ else none),
        { client.asked world with
          tokensDrawn := world.tokensDrawn + 1
          leases := (world.leases.obtain world.now client.manager.leaseKey
            client.manager.settings.lease ⟨world.tokensDrawn⟩).2 }) := by
  simp only [World.answer, World.obtainLease, asked, hobtain, Bool.false_eq_true, if_false]
  rfl

/-- A run begins with everything but the leases as it was. -/
theorem begun_eq : ∃ log, client.begun world =
    { client.asked world with
      tokensDrawn := world.tokensDrawn + 1
      leases := (world.leases.obtain world.now client.manager.leaseKey
        client.manager.settings.lease ⟨world.tokensDrawn⟩).2
      log := log } := by
  rw [begun, entered, answer_obtain hobtain]
  exact ⟨_, rfl⟩

/-- A sync that is not granted its lease counts that, and changes nothing else but the leases. -/
theorem sync_of_refused (refused : client.isGranted world = false) :
    ∃ log, client.sync world = (.ok (.ok none),
      { ((client.asked world).answer (.count client.manager.account .leaseSkipped 1)).2 with
        tokensDrawn := world.tokensDrawn + 1
        leases := world.leases.evict world.now
        log := log }) := by
  have skips : client.sync world = (.ok (.ok none), skipped client.manager (client.asked world)) :=
    synced_of_held hobtain refused
  rw [skips, skipped, answer_obtain hobtain, Store.obtain_of_held refused]
  exact ⟨_, rfl⟩

end Begun

/-- The statements of a session that is calm in a world are executed in another one too. -/
theorem hosts_begun (hobtain : world.leaseFaults.obtain = false)
    (calm : ∀ session, IsCalm origin session → IsCalm world session) :
    Hosts (client.conditions origin) (client.begun world) := by
  obtain ⟨log, begins⟩ := client.begun_eq hobtain
  rw [begins]
  exact ⟨fun session hs => (calm session hs).1, fun _ => rfl, fun _ => rfl,
    .inr fun session hs => (calm session hs).2, .inl trivial⟩

/-- What is needed to know of a sync's run. -/
structure Ran (client : Client) (origin world : World) (result : Except Error SyncReport)
    (after : World) : Prop where
  works : WorksOn (client.conditions origin) client.list client.manager.syncLocked.toJob
    (client.begun world)
  run : client.manager.syncLocked.toJob.run World.answer World.elapse (client.begun world) =
    (.ok result, after)
  sync : client.sync world = (.ok (result.map some),
    { after with leases := world.leases.evict world.now })

namespace Ran

variable {result : Except Error SyncReport}

theorem after_eq (ran : client.Ran origin world result after) :
    (client.manager.syncLocked.toJob.run World.answer World.elapse (client.begun world)).2 =
      after :=
  congrArg Prod.snd ran.run

theorem hosts (ran : client.Ran origin world result after) :
    Hosts (client.conditions origin) after := by
  have ends := Job.run_of_keeps ran.works
  rwa [ran.run] at ends

theorem now (ran : client.Ran origin world result after) : after.now = (client.begun world).now :=
  ran.after_eq ▸ now_syncLocked id client.strategy_eq ran.works

/-- A sync counts what its run counts. -/
theorem tally (ran : client.Ran origin world result after)
    (hobtain : world.leaseFaults.obtain = false) (account : Account) (meter : Meter) :
    (client.sync world).2.tally account meter = world.tally account meter +
      (client.manager.syncLocked.toJob.transcript World.answer World.elapse
        (client.begun world)).counted account meter := by
  obtain ⟨log, begins⟩ := client.begun_eq hobtain
  have start : (client.begun world).tally = world.tally :=
    World.tally_of_accounts (begins ▸ rfl)
  have final : (client.sync world).2.tally = after.tally :=
    World.tally_of_accounts (ran.sync ▸ rfl)
  rw [final, ← ran.after_eq, World.tally_run, start]

end Ran

/-- A sync that is granted its lease does its work. -/
theorem Serves.ran_of_granted (serves : client.Serves world)
    (hm : IsCalm origin client.manager.session) (hl : IsCalm origin client.list.session)
    (calm : ∀ session, IsCalm origin session → IsCalm world session)
    (granted : client.isGranted world = true) :
    ∃ result after, client.Ran origin world result after := by
  have hosts : Hosts (client.conditions origin) (client.begun world) :=
    client.hosts_begun serves.obtain calm
  obtain ⟨log, begins⟩ := client.begun_eq serves.obtain
  have legible : Legible client.list (client.begun world).catalog := begins ▸ serves.legible
  have works : WorksOn (client.conditions origin) client.list client.manager.syncLocked.toJob
      (client.begun world) := worksOn_syncLocked hm hl client.strategy_eq hosts legible
  have ends := Job.run_of_keeps works
  have spares := spares_run works
  generalize hrun : client.manager.syncLocked.toJob.run World.answer World.elapse
    (client.begun world) = outcome at ends spares
  match outcome with
  | (.error why, after) => exact ends.elim
  | (.ok result, after) =>
      have hrelease : after.leaseFaults.release = false := by
        rw [spares.leaseFaults, begins]
        exact serves.release
      have hobtain : (client.asked world).leaseFaults.obtain = false := serves.obtain
      exact ⟨result, after, works, hrun,
        synced_of_free hobtain granted hrun hrelease spares.leases⟩

/-- **A sync** leaves the other tables alone, and everything that other syncs depend on. -/
theorem Serves.passes (serves : client.Serves world) :
    Passes client.list world (client.sync world).2 := by
  cases granted : client.isGranted world with
  | false =>
      obtain ⟨log, same⟩ := client.sync_of_refused serves.obtain granted
      rw [same]
      exact ⟨fun _ _ => .refl _ _, rfl, fun _ calm => calm, rfl, rfl, rfl⟩
  | true =>
      obtain ⟨result, after, ran⟩ := serves.ran_of_granted serves.manager serves.list
        (fun _ calm => calm) granted
      have spares : Spares client.list (client.begun world) after :=
        ran.after_eq ▸ spares_run ran.works
      have hosts : Hosts (client.conditions world) after := ran.hosts
      obtain ⟨log, begins⟩ := client.begun_eq serves.obtain
      rw [begins] at spares
      rw [ran.sync]
      exact ⟨spares.tables, spares.hidesCatalog, fun session calm =>
        ⟨hosts.applies session calm, (hosts.smooth.resolve_left id) session calm⟩,
        ran.now.trans (begins ▸ rfl), rfl, spares.leaseFaults⟩

/-! ### One sync after another -/

section Passes

variable (serves : client.Serves world) (passes : Passes list world other)
  (ne : client.list.table ≠ list.table)
include serves passes ne

/-- After a sync of another table the client can be served as before. -/
theorem Serves.of_passes : client.Serves other where
  manager := passes.calm _ serves.manager
  list := passes.calm _ serves.list
  legible := serves.legible.of_agreesOn (passes.tables _ ne)
  obtain := passes.leaseFaults ▸ serves.obtain
  release := passes.leaseFaults ▸ serves.release

omit serves ne in
/-- A sync that is over does not keep the client from its lease. -/
theorem isGranted_of_passes : client.isGranted other = client.isGranted world := by
  rw [isGranted, isGranted, Store.obtain_fst_eq, Store.obtain_fst_eq, passes.leases, passes.now,
    Store.evict_evict]

/-- The client's runs begin in worlds that answer alike. -/
theorem Serves.seesAlike_begun :
    SeesAlike (client.conditions world) client.list (client.begun world) (client.begun other) := by
  have hobtain : other.leaseFaults.obtain = false := (serves.of_passes passes ne).obtain
  obtain ⟨log, begins⟩ := client.begun_eq serves.obtain
  obtain ⟨log', begins'⟩ := client.begun_eq hobtain
  refine ⟨client.hosts_begun serves.obtain fun _ calm => calm,
    client.hosts_begun hobtain passes.calm, ?_, ?_, ?_, ?_⟩ <;> rw [begins, begins']
  exacts [passes.tables _ ne, passes.hidesCatalog, rfl, rfl]

/-- **After a sync of another table** a sync is as it would have been before it: it ends the same,
does the same to its table and counts the same. -/
theorem Serves.sync_of_passes :
    (client.sync other).1 = (client.sync world).1 ∧
      (client.sync world).2.catalog.AgreesOn client.list.table (client.sync other).2.catalog ∧
      ∃ counted : Account → Meter → UInt64, ∀ account meter,
        (client.sync world).2.tally account meter =
            world.tally account meter + counted account meter ∧
          (client.sync other).2.tally account meter =
            other.tally account meter + counted account meter := by
  have serves' : client.Serves other := serves.of_passes passes ne
  cases granted : client.isGranted world with
  | false =>
      obtain ⟨log, same⟩ := client.sync_of_refused serves.obtain granted
      obtain ⟨log', same'⟩ := client.sync_of_refused serves'.obtain
        ((client.isGranted_of_passes passes).trans granted)
      rw [same, same']
      let skip : Service.Request := .count client.manager.account .leaseSkipped 1
      exact ⟨rfl, passes.tables _ ne, _, fun account meter =>
        ⟨World.tally_answer skip (client.asked world) account meter,
          World.tally_answer skip (client.asked other) account meter⟩⟩
  | true =>
      obtain ⟨result, after, ran⟩ := serves.ran_of_granted serves.manager serves.list
        (fun _ calm => calm) granted
      obtain ⟨result', after', ran'⟩ := serves'.ran_of_granted serves.manager serves.list
        passes.calm ((client.isGranted_of_passes passes).trans granted)
      obtain ⟨results, transcripts, ends⟩ := (serves.seesAlike_begun passes ne).run id ran.works
      rw [ran.run, ran'.run] at results ends
      obtain rfl : result' = result := Except.ok.inj results
      refine ⟨by rw [ran.sync, ran'.sync], by rw [ran.sync, ran'.sync]; exact ends.table, _,
        fun account meter => ⟨ran.tally serves.obtain account meter, ?_⟩⟩
      rw [ran'.tally serves'.obtain, transcripts]

end Passes

end Client

/-- **Syncs of different tables commute**: whichever is first, both end the same, and all tables,
counts and leases are the same after them. -/
theorem sync_comm {a b : Client} (ne : a.list.table ≠ b.list.table) (ha : a.Serves world)
    (hb : b.Serves world) :
    (a.sync (b.sync world).2).1 = (a.sync world).1 ∧
      (b.sync (a.sync world).2).1 = (b.sync world).1 ∧
      (∀ table, (b.sync (a.sync world).2).2.catalog.AgreesOn table
        (a.sync (b.sync world).2).2.catalog) ∧
      (a.sync (b.sync world).2).2.tally = (b.sync (a.sync world).2).2.tally ∧
      (a.sync (b.sync world).2).2.leases = (b.sync (a.sync world).2).2.leases := by
  have passesA := ha.passes
  have passesB := hb.passes
  have passesAB := (hb.of_passes passesA ne.symm).passes
  have passesBA := (ha.of_passes passesB ne).passes
  obtain ⟨resultA, tableA, countedA, talliesA⟩ := ha.sync_of_passes passesB ne
  obtain ⟨resultB, tableB, countedB, talliesB⟩ := hb.sync_of_passes passesA ne.symm
  refine ⟨resultA, resultB, fun table => ?_, ?_, ?_⟩
  · by_cases own : table = a.list.table
    · subst own
      exact (passesAB.tables _ ne).symm.trans tableA
    · by_cases own' : table = b.list.table
      · subst own'
        exact tableB.symm.trans (passesBA.tables _ ne.symm)
      · exact ((passesA.tables _ own).trans (passesAB.tables _ own')).symm.trans
          ((passesB.tables _ own').trans (passesBA.tables _ own))
  · funext account meter
    calc (a.sync (b.sync world).2).2.tally account meter
        = world.tally account meter + countedB account meter + countedA account meter := by
          rw [(talliesA account meter).2, (talliesB account meter).1]
      _ = world.tally account meter + countedA account meter + countedB account meter := by
          rw [UInt64.add_assoc, UInt64.add_comm (countedB account meter), ← UInt64.add_assoc]
      _ = (b.sync (a.sync world).2).2.tally account meter := by
          rw [(talliesB account meter).2, (talliesA account meter).1]
  · rw [passesAB.leases, passesBA.leases, passesA.leases, passesB.leases, passesA.now, passesB.now]

/-- The small table, whose partitions are never full. -/
def itemsClient : Client := ⟨itemsManager, items, rfl, fun _ => false, fun _ => false⟩

/-- A table whose name is that of a partition of the small one. -/
def parts : SlidingList :=
  { items with model := ⟨"Part", "items_1", ["partition"]⟩, ignores_column := by decide }

/-- That table, the first partition of which is full. -/
def partsClient : Client :=
  ⟨{ itemsManager with strategy := parts.strategy }, parts, rfl, fun value => value == 1,
    fun _ => false⟩

/-- The small table has no partitions yet, and the other one has one. -/
def neighbours : World where
  catalog := (Catalog.attachValues {} "items_1" [1]).setDefault "items_1" "partition" "1"
  sessions := [(⟨0⟩, { applies := true })]

/-- Both syncs create a partition, and either may be first. -/
theorem sync_comm_neighbours :
    (itemsClient.sync neighbours).1 =
        .ok (.ok (some { created := [named "items" 1 "partitions_dynamic"] })) ∧
      (partsClient.sync (itemsClient.sync neighbours).2).1 = (partsClient.sync neighbours).1 ∧
      (itemsClient.sync (partsClient.sync neighbours).2).2.catalog.partitions "items_1" =
        (partsClient.sync (itemsClient.sync neighbours).2).2.catalog.partitions "items_1" := by
  have isPlain_parts : parts.IsPlain := ⟨by decide, by decide, isPlain_items.schema⟩
  have servesItems : itemsClient.Serves neighbours :=
    ⟨⟨rfl, rfl⟩, ⟨rfl, rfl⟩, legible_of_isPlain isPlain_items nofun, rfl, rfl⟩
  have servesParts : partsClient.Serves neighbours :=
    ⟨⟨rfl, rfl⟩, ⟨rfl, rfl⟩,
      legible_of_isPlain isPlain_parts (List.forall_mem_singleton.2 isPlain_items.schema), rfl, rfl⟩
  have differs : itemsClient.list.table ≠ partsClient.list.table := by decide
  have comm := sync_comm differs servesItems servesParts
  exact ⟨by decide +kernel, comm.2.1, (comm.2.2.1 "items_1").partitions⟩

end Upkeep.Partition
