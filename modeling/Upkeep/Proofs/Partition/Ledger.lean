import Upkeep.Proofs.Partition.Accounts
import Upkeep.Proofs.Partition.Recovery

/-!
# The counts of a table's partitions

A run of upkeep may stop after any of its statements, and then it has no report.  But whatever was
created or detached by then was counted, for a partition is counted before anything else is tried;
so the counts are right after every run, and so is the number of partitions.  They add up over all
runs of a table's lifetime.

## Main Definitions

* `Makes` — how many of the statements that succeed create and detach partitions.
* `DefaultsToLast` — a default that is there is at the last partition.
* `WellNamed` — partitions are named after their values, which are distinct.
* `Pause`, `starts`, `ended` — what may change between two runs of a lifetime, where each of its
  runs starts, and where it ends.

## Main Statements

* `keepsBooks_create`, `keepsBooks_afterAdding`, `keepsBooks_extra`, `keepsBooks_detach` — the parts
  of a run.
* `keepsBooks_syncLocked`, `keepsBooks_sync` — a run, and a run under its lease.
* `partitions_accounted` — a lifetime.

## Design Notes

The default may be anything to begin with, or nothing that can be read.  When it is decided what to
detach it is at the last partition, or else there is none and nothing is detached: so the first
partitions are detached and never one in between.
-/

namespace Upkeep.Partition

open Simulation

variable {α : Type} {list : SlidingList} {manager : Manager} {ps : List Partition}
  {before world : World} {s s' s'' : World × List Sql.Statement}

/-! ### Numbers of statements -/

/-- Of the statements that have succeeded since, so many create and so many detach partitions. -/
structure Makes (created detached : Nat) (s s' : World × List Sql.Statement) : Prop where
  created : s'.2.countP Sql.Statement.isCreate = s.2.countP Sql.Statement.isCreate + created
  detached : s'.2.countP Sql.Statement.isDetach = s.2.countP Sql.Statement.isDetach + detached

namespace Makes

variable {created detached created' detached' : Nat}

theorem refl (s : World × List Sql.Statement) : Makes 0 0 s s := ⟨rfl, rfl⟩

theorem trans (h : Makes created detached s s') (h' : Makes created' detached' s' s'') :
    Makes (created + created') (detached + detached') s s'' :=
  ⟨by rw [h'.created, h.created, Nat.add_assoc], by rw [h'.detached, h.detached, Nat.add_assoc]⟩

theorem of_trace {changed : List Sql.Statement} (h : s'.2 = s.2 ++ changed) :
    Makes (changed.countP Sql.Statement.isCreate) (changed.countP Sql.Statement.isDetach) s s' :=
  ⟨by rw [h, List.countP_append], by rw [h, List.countP_append]⟩

end Makes

theorem Still.makes (still : Still manager list s s') : Makes 0 0 s s' :=
  .of_trace still.trace_eq

/-! ### Creating and detaching -/

/-- A roster has all that is attached. -/
theorem Roster.length_eq {catalog : Catalog} (roster : Roster list catalog ps) :
    (catalog.partitions list.table).length = ps.length := by
  simpa using roster.listed.keys_perm.length_eq.symm

private theorem tally_count (world : World) (account : Account) (meter meter' : Meter) :
    (world.answer (.count account meter 1)).2.tally account meter' =
      world.tally account meter' + if meter = meter' then 1 else 0 := by
  rw [World.tally_answer]
  simp [Exchange.counted]

theorem keepsBooks_create (books : Books manager list before ps s) (hplain : list.IsPlain)
    {partition : Partition} (next : IsNext list ps partition)
    {ok : Unit → World × List Sql.Statement → Prop}
    (hok : ∀ s', Books manager list before (ps ++ [partition]) s' → Makes 1 0 s s' → ok () s') :
    KeepsBooks manager list before ok (manager.create [partition]) s := by
  obtain ⟨roster, -⟩ := books.roster.create hplain next
  have table : partition.table = list.table := by
    rw [next.eq_named]
    rfl
  refine keepsBooks_entry books rfl roster (fun s' uncounted => ?_) fun s' books' trace =>
    Task.keeps_pure.2 (hok s' books' (.of_trace trace))
  rw [table]
  refine ⟨?_, ?_, ?_⟩
  · rw [tally_count, uncounted.created, if_pos rfl]
    rfl
  · rw [tally_count, uncounted.detached, if_neg Meter.noConfusion]
    rfl
  · show (s'.1.catalog.partitions list.table).length + 0 = _ + 1
    rw [uncounted.catalog_eq, roster.length_eq, books.roster.length_eq, List.length_append]
    rfl

theorem keepsBooks_detach (hplain : list.IsPlain) {retired rest : List Partition}
    (books : Books manager list before (retired ++ rest) s)
    {ok : Unit → World × List Sql.Statement → Prop}
    (hok : ∀ s', Books manager list before rest s' → Makes 0 retired.length s s' → ok () s') :
    KeepsBooks manager list before ok (manager.detach retired) s := by
  induction retired generalizing s with
  | nil => exact Task.keeps_pure.2 (hok s books (.refl s))
  | cons partition retired ih =>
      obtain ⟨roster, -⟩ := Roster.detach books.roster hplain
      refine keepsBooks_entry books rfl roster (fun s' uncounted => ?_) fun s' books' trace => ?_
      · rw [books.roster.table_eq List.mem_cons_self]
        refine ⟨?_, ?_, ?_⟩
        · rw [tally_count, uncounted.created, if_neg Meter.noConfusion]
          rfl
        · rw [tally_count, uncounted.detached, if_pos rfl]
          rfl
        · show (s'.1.catalog.partitions list.table).length + 1 = _ + 0
          rw [uncounted.catalog_eq, roster.length_eq, books.roster.length_eq]
          rfl
      · refine ih books' fun s'' books'' makes => hok s'' books'' ?_
        rw [List.length_cons, Nat.add_comm]
        exact (Makes.of_trace trace).trans makes

/-! ### Moving the default -/

/-- The default is at the last partition, if there is a default. -/
def DefaultsToLast (list : SlidingList) (catalog : Catalog) (ps : List Partition) : Prop :=
  ∀ value last, DefaultsTo list catalog value → ps.getLast? = some last → value = last.value

theorem keepsBooks_afterAdding (books : Books manager list before ps s) (hplain : list.IsPlain)
    {ok : Unit → World × List Sql.Statement → Prop}
    (hok : ∀ s', Books manager list before ps s' → Makes 0 0 s s' →
      DefaultsToLast list s'.1.catalog ps → ok () s') :
    KeepsBooks manager list before ok list.afterAdding s := by
  refine Task.keeps_bind.2 (keepsBooks_decision books (fun last _ => ps.getLast? = some last)
    (keeps_active watches_unbooked forgives_anyFailure (fun _ => trivial)
      fun ps' last listed active => listed.unique books.roster.listed ▸ active) ?_)
  intro last s₁ still active
  have books₁ := books.still still
  obtain ⟨roster, -⟩ := books₁.roster.moveDefault hplain last.value
  have run := keeps_retried_uncounted books₁.hosts ⟨list.session, list.account⟩ (.inr rfl)
    (list.setDefaultStatement last.value) list.timing
  refine Task.keeps_bind.2 (run.mono (fun _ _ hr => hr) (fun outcome s₂ uncounted => ?_)
    (fun _ s' still' => ⟨ps, books₁.still still'⟩) fun _ _ hs => hs)
  have moved : Accounted manager.account list.table s₁.1 s₂.1
      [list.setDefaultStatement last.value] := by
    refine ⟨uncounted.created.trans (UInt64.add_zero _).symm,
      uncounted.detached.trans (UInt64.add_zero _).symm, ?_⟩
    rw [uncounted.catalog_eq, roster.length_eq, books₁.roster.length_eq]
    rfl
  have books₂ : Books manager list before ps s₂ := ⟨uncounted.hosts, uncounted.catalog_eq ▸ roster,
    uncounted.trace_eq ▸ books₁.accounted.trans moved⟩
  refine Task.keeps_liftM.2 (keeps_ask_still books₂.hosts rfl fun _ s₃ logged => ?_)
  refine hok s₃ (books₂.still logged)
    ((still.makes.trans (.of_trace uncounted.trace_eq)).trans logged.makes) ?_
  intro value last' reads active'
  obtain rfl : last = last' := Option.some.inj (active.symm.trans active')
  rw [logged.catalog_eq, uncounted.catalog_eq, Roster.execute_moveDefault _ hplain] at reads
  exact reads.eq_of_setDefault

theorem keepsBooks_extend (hstrategy : manager.strategy = list.strategy) (hplain : list.IsPlain)
    (books : Books manager list before ps s) {missing : List Partition}
    (misses : Misses (unruly manager list) list ps missing)
    {ok : Unit → World × List Sql.Statement → Prop}
    (hok : ∀ ps' s', Books manager list before ps' s' → Makes missing.length 0 s s' →
      DefaultsToLast list s'.1.catalog ps' → ok () s') :
    KeepsBooks manager list before ok (manager.extend missing) s := by
  rw [Manager.extend, hstrategy]
  cases misses with
  | next next full =>
      refine Task.keeps_bind.2 (keepsBooks_create books hplain next fun s₁ books₁ makes => ?_)
      exact keepsBooks_afterAdding books₁ hplain fun s' books' makes' moved =>
        hok _ s' books' (makes.trans makes') moved
  | @nothing last active idle =>
      refine Task.keeps_bind.2 (keepsBooks_decision books
        (fun lags catalog => lags = false → DefaultsToLast list catalog ps)
        (keeps_lags watches_unbooked forgives_anyFailure forgivesDefault_anyFailure
          (fun listed => ?_) fun ps' last' value? listed active' reads => ?_) ?_)
      · obtain rfl := listed.unique books.roster.listed
        cases active
      · intro stays value last'' reads' active''
        obtain rfl := listed.unique books.roster.listed
        obtain rfl : last' = last'' := Option.some.inj (active'.symm.trans active'')
        obtain rfl : value? = some value := reads.unique reads'
        simpa using stays
      · intro lags s₁ still stays
        have books₁ := books.still still
        cases lags with
        | false => exact Task.keeps_pure.2 (hok ps s₁ books₁ still.makes (stays rfl))
        | true =>
            refine Task.keeps_bind.2 (Task.keeps_liftM.2 (keeps_ask_still books₁.hosts rfl
              fun _ s₂ logged => ?_))
            exact keepsBooks_afterAdding (books₁.still logged) hplain fun s' books' makes moved =>
              hok ps s' books' ((still.trans logged).makes.trans makes) moved

/-! ### A run -/

/-- Where the default is at the last partition, those to detach are the first ones. -/
theorem keepsBooks_extra (books : Books manager list before ps s)
    (moved : DefaultsToLast list s.1.catalog ps)
    {ok : List Partition → World × List Sql.Statement → Prop}
    (hok : ∀ retired rest s', ps = retired ++ rest → Still manager list s s' → ok retired s') :
    KeepsBooks manager list before ok list.extra s := by
  refine keepsBooks_decision books (fun retired _ => ∃ rest, ps = retired ++ rest)
    (keeps_extra watches_unbooked forgives_anyFailure forgivesDefault_anyFailure
      (fun _ => trivial) fun ps' value retired rest listed reads cut retires => ⟨fun _ => rfl, ?_⟩)
    fun retired s' still ⟨rest, cut⟩ => hok retired rest s' cut still
  obtain rfl := listed.unique books.roster.listed
  -- No partition before the last one has its value.
  have other : ∀ partition ∈ retired, partition.value ≠ value := by
    intro partition mem
    have early : partition ∈ ps'.dropLast := cut ▸ List.mem_append_left _ mem
    obtain ⟨last, active⟩ : ∃ last, ps'.getLast? = some last :=
      Option.ne_none_iff_exists'.1 (mt List.getLast?_eq_none_iff.1
        (List.ne_nil_of_mem (List.dropLast_subset _ early)))
    obtain ⟨front, rfl⟩ := List.getLast?_eq_some_iff.1 active
    rw [moved value last reads active]
    rw [List.dropLast_concat] at early
    exact Int64.ne_of_lt ((List.pairwise_append.1 books.roster.ascending).2.2 partition early last
      (List.mem_singleton_self _))
  have all : (retired.filter fun partition => partition.value != value) = retired :=
    List.filter_eq_self.2 fun partition mem => bne_iff_ne.2 (other partition mem)
  rw [all]
  refine ⟨rest ++ ps'.drop (ps'.length - 1), ?_⟩
  rw [← List.append_assoc, ← cut, List.dropLast_eq_take, List.take_append_drop]

/-- **A run** leaves closed accounts behind wherever it stops, and the report of one that succeeds
says how many statements have succeeded. -/
theorem keepsBooks_syncLocked (hstrategy : manager.strategy = list.strategy)
    (hplain : list.IsPlain) (books : Books manager list before ps s)
    {ok : SyncReport → World × List Sql.Statement → Prop}
    (hok : ∀ report ps' s', Books manager list before ps' s' →
      Makes report.created.length report.detached.length s s' → ok report s') :
    KeepsBooks manager list before ok manager.syncLocked s := by
  rw [Manager.syncLocked, hstrategy]
  refine Task.keeps_bind.2 (keepsBooks_decision books
    (fun missing _ => Misses (unruly manager list) list ps missing)
    (keeps_missing watches_unbooked forgives_anyFailure (fun _ _ _ _ _ _ => trivial)
      fun ps' missing listed misses => listed.unique books.roster.listed ▸ misses) ?_)
  intro missing s₁ still misses
  refine Task.keeps_bind.2 (keepsBooks_extend hstrategy hplain (books.still still) misses
    fun ps₂ s₂ books₂ extended moved => ?_)
  refine Task.keeps_bind.2 (keepsBooks_extra books₂ moved fun retired rest s₃ cut decided => ?_)
  subst cut
  refine Task.keeps_bind.2 (keepsBooks_detach hplain (books₂.still decided)
    fun s₄ books₄ detached => ?_)
  refine Task.keeps_pure.2 (hok _ rest s₄ books₄ ?_)
  simpa using ((still.makes.trans extended).trans decided.makes).trans detached

/-- Leases make no difference. -/
private theorem keepsBooks_holding (books : Books manager list before ps s)
    {work : Job Service α} {key : String} {ttl : Duration}
    {ok : Option α → World × List Sql.Statement → Prop}
    (hwork : ∀ s₁, Still manager list s s₁ → work.Keeps tracingWorld (fun _ _ => True)
      (fun value s₂ => Hosts (unruly manager list) s₂.1 ∧
        ∀ s', Still manager list s₂ s' → ok (some value) s') (fun _ _ => False) s₁)
    (hnone : ∀ s', Still manager list s s' → ok none s') :
    KeepsBooks manager list before ok (Lease.holding key ttl work) s := by
  refine Lease.keeps_holding_iff.2 (keeps_ask_still books.hosts rfl fun answer s₁ asked => ?_)
  match answer with
  | .error error => exact ⟨ps, books.still asked⟩
  | .ok none =>
      exact keeps_ask_still asked.hosts rfl fun _ s₂ logged => hnone s₂ (asked.trans logged)
  | .ok (some token) =>
      refine Lease.Guard.keeps_protect_iff.2 (keeps_ask_still asked.hosts rfl
        fun _ s₂ logged => ?_)
      refine (hwork s₂ (asked.trans logged)).mono (fun _ _ hr => hr) ?_ fun _ _ hs => hs.elim
      rintro value s₃ ⟨hosts, hok⟩
      have released : (Lease.Guard.release ⟨key, token⟩).Keeps tracingWorld (fun _ _ => True)
          (fun _ => Still manager list s₃) (fun _ _ => False) s₃ :=
        Lease.Guard.keeps_release_of_kept (keeps_ask_still hosts rfl fun _ _ returned => returned)
          fun _ s₄ returned => keeps_ask_still returned.hosts rfl fun _ _ logged =>
            returned.trans logged
      exact released.mono (fun _ _ hr => hr) (fun _ s' kept => hok s' kept) fun _ _ hs => hs

/-- **A sync** does that under a lease, or it leaves the table to another worker. -/
theorem keepsBooks_sync (hstrategy : manager.strategy = list.strategy)
    (hplain : list.IsPlain) (books : Books manager list before ps s) :
    KeepsBooks manager list before (fun report? s' => (∃ ps', Books manager list before ps' s') ∧
      ∀ report, report? = some report →
        Makes report.created.length report.detached.length s s') manager.sync s := by
  refine Task.keeps_bind.2 (keepsBooks_holding books (fun s₁ asked => ?_) fun s₁ refused => ?_)
  · have run : KeepsBooks manager list before (fun report s₂ =>
        ∃ ps', Books manager list before ps' s₂ ∧
          Makes report.created.length report.detached.length s₁ s₂) manager.syncLocked s₁ :=
      keepsBooks_syncLocked hstrategy hplain (books.still asked)
        fun report ps' s₂ books' makes => ⟨ps', books', makes⟩
    refine Job.Keeps.mono run (fun _ _ hr => hr) (fun result s₂ kept => ?_) fun _ _ hs => hs
    match result with
    | .ok report =>
        obtain ⟨ps', books', makes⟩ := kept
        refine ⟨books'.hosts, fun s' returned => Task.keeps_map.2 (Task.keeps_attempt.2
          ⟨⟨ps', books'.still returned⟩, fun report' same => ?_⟩)⟩
        obtain rfl := Option.some.inj same
        simpa using (asked.makes.trans makes).trans returned.makes
    | .error error =>
        obtain ⟨ps', books'⟩ := kept
        exact ⟨books'.hosts, fun s' returned => Task.keeps_map.2 (Task.keeps_attempt.2
          ⟨ps', books'.still returned⟩)⟩
  · refine Task.keeps_bind.2 (Task.keeps_liftM.2 (keeps_ask_still refused.hosts rfl
      fun _ s₂ counted => ?_))
    refine Task.keeps_bind.2 (Task.keeps_liftM.2 (keeps_ask_still counted.hosts rfl
      fun _ s₃ logged => ?_))
    exact Task.keeps_pure.2 ⟨⟨ps, books.still ((refused.trans counted).trans logged)⟩, nofun⟩

/-- A sync ends with closed accounts, and its report says how many statements have succeeded. -/
theorem accounted_synced (hstrategy : manager.strategy = list.strategy) (hplain : list.IsPlain)
    (hosts : Hosts (unruly manager list) world) (roster : Roster list world.catalog ps) :
    let changed := changes (manager.sync.toJob.steps world)
    Hosts (unruly manager list) (synced manager world).2 ∧
      (∃ ps', Roster list (synced manager world).2.catalog ps') ∧
      Accounted manager.account list.table world (synced manager world).2 changed ∧
      ∀ report, (synced manager world).1 = .ok (.ok (some report)) →
        changed.countP Sql.Statement.isCreate = report.created.length ∧
          changed.countP Sql.Statement.isDetach = report.detached.length := by
  have books : Books manager list world ps (world, []) := ⟨hosts, roster, .refl _ _ _⟩
  obtain ⟨result, after, run, kept⟩ := run_of_tracingWorld (keepsBooks_sync hstrategy hplain books)
  simp only [synced, run, List.nil_append] at kept ⊢
  match result with
  | .ok report? =>
      obtain ⟨⟨ps', closed⟩, makes⟩ := kept
      refine ⟨closed.hosts, ⟨ps', closed.roster⟩, closed.accounted, fun report same => ?_⟩
      have made := makes report (Except.ok.inj (Except.ok.inj same))
      exact ⟨made.created.trans (Nat.zero_add _), made.detached.trans (Nat.zero_add _)⟩
  | .error error =>
      obtain ⟨ps', closed⟩ := kept
      exact ⟨closed.hosts, ⟨ps', closed.roster⟩, closed.accounted, nofun⟩

/-! ### A lifetime -/

/-- The partitions of the list's table are named after their values, and these are distinct. -/
structure WellNamed (list : SlidingList) (catalog : Catalog) : Prop where
  named : ∀ listing ∈ catalog.partitions list.table, ∃ value,
    Condition.parse listing.condition = .ok value ∧
      listing.name = (Partition.named list.table value listing.schema).name
  schema : ∀ listing ∈ catalog.partitions list.table, Sql.IsPlainSchema listing.schema
  distinct : (catalog.values list.table).Nodup

theorem wellNamed_iff {catalog : Catalog} :
    WellNamed list catalog ↔ ∃ ps, Roster list catalog ps := by
  rw [exists_roster_iff]
  exact ⟨fun h => ⟨h.named, h.schema, h.distinct⟩, fun ⟨named, schema, distinct⟩ =>
    ⟨named, schema, distinct⟩⟩

/-- What may change between two runs: anything but the catalog, whether sessions change it, and the
counts of the table's partitions. -/
structure Pause (account : Account) (table : String) extends Interlude where
  created_change : ∀ world, (change world).tally account (.partitionsCreated table) =
    world.tally account (.partitionsCreated table)
  detached_change : ∀ world, (change world).tally account (.partitionsDetached table) =
    world.tally account (.partitionsDetached table)

/-- The worlds in which the runs of a lifetime start. -/
def starts (manager : Manager) : List Interlude → World → List World
  | [], _ => []
  | interlude :: interludes, world =>
      interlude.change world ::
        starts manager interludes (synced manager (interlude.change world)).2

/-- The world in which a lifetime ends. -/
def ended (manager : Manager) : List Interlude → World → World
  | [], world => world
  | interlude :: interludes, world =>
      ended manager interludes (synced manager (interlude.change world)).2

theorem accounted_lifetime (hstrategy : manager.strategy = list.strategy) (hplain : list.IsPlain)
    (hosts : Hosts (unruly manager list) world) (roster : ∃ ps, Roster list world.catalog ps)
    (pauses : List (Pause manager.account list.table)) :
    let interludes := pauses.map Pause.toInterlude
    Accounted manager.account list.table world (ended manager interludes world)
        (changes (lifetime manager interludes world)) ∧
      ∀ start ∈ starts manager interludes world, Hosts (unruly manager list) start ∧
        ∃ ps, Roster list start.catalog ps := by
  induction pauses generalizing world with
  | nil => exact ⟨.refl _ _ _, fun _ mem => absurd mem List.not_mem_nil⟩
  | cons pause pauses ih =>
      have hosts' : Hosts (unruly manager list) (pause.change world) := by
        obtain ⟨executes, moves⟩ := hosts_unruly.1 hosts
        exact hosts_unruly.2 ⟨(pause.applies_change _ _).trans executes,
          (pause.applies_change _ _).trans moves⟩
      obtain ⟨ps, roster'⟩ : ∃ ps, Roster list (pause.change world).catalog ps :=
        (pause.catalog_change world).symm ▸ roster
      have paused : Accounted manager.account list.table world (pause.change world) [] := by
        refine ⟨(pause.created_change _).trans (UInt64.add_zero _).symm,
          (pause.detached_change _).trans (UInt64.add_zero _).symm, ?_⟩
        rw [pause.catalog_change]
        rfl
      obtain ⟨hosts₂, roster₂, run, -⟩ := accounted_synced hstrategy hplain hosts' roster'
      obtain ⟨rest, later⟩ := ih hosts₂ roster₂
      refine ⟨?_, List.forall_mem_cons.2 ⟨⟨hosts', ps, roster'⟩, later⟩⟩
      show Accounted _ _ _ _ (changes (_ ++ _))
      rw [changes_append]
      exact (paused.trans run).trans rest

/-- **The counts of a table's partitions are right**, over any number of runs, whatever fails, and
whatever the application says.  As many were counted as created and as detached as statements that
do so have succeeded, and as many are attached as there were before and were created, less those
that were detached.  So it is for each run, and if that has a report then the numbers are those of
its two lists. -/
theorem partitions_accounted (hstrategy : manager.strategy = list.strategy)
    (hplain : list.IsPlain) (hm : (world.session manager.session).applies = true)
    (hl : (world.session list.session).applies = true) (named : WellNamed list world.catalog)
    (pauses : List (Pause manager.account list.table)) :
    let interludes := pauses.map Pause.toInterlude
    Accounted manager.account list.table world (ended manager interludes world)
        (changes (lifetime manager interludes world)) ∧
      ∀ start ∈ starts manager interludes world,
        let changed := changes (manager.sync.toJob.steps start)
        Accounted manager.account list.table start (synced manager start).2 changed ∧
          ∀ report, (synced manager start).1 = .ok (.ok (some report)) →
            changed.countP Sql.Statement.isCreate = report.created.length ∧
              changed.countP Sql.Statement.isDetach = report.detached.length := by
  have hosts : Hosts (unruly manager list) world := hosts_unruly.2 ⟨hm, hl⟩
  obtain ⟨all, each⟩ :=
    accounted_lifetime hstrategy hplain hosts (wellNamed_iff.1 named) pauses
  refine ⟨all, fun start mem => ?_⟩
  obtain ⟨hosts', ps, roster'⟩ := each start mem
  exact (accounted_synced hstrategy hplain hosts' roster').2.2

/-- Nothing happens between two runs. -/
def lull (account : Account) (table : String) : Pause account table where
  change world := world
  catalog_change _ := rfl
  applies_change _ _ := rfl
  created_change _ := rfl
  detached_change _ := rfl

/-- Two runs fail that cannot set the default; the first one has created a partition, and that is
counted. -/
theorem partitions_accounted_unsettable :
    let interludes := [lull ⟨0⟩ "items", lull ⟨0⟩ "items"].map Pause.toInterlude
    let after := ended itemsManager interludes (unsettable false)
    Accounted ⟨0⟩ "items" (unsettable false) after
        (changes (lifetime itemsManager interludes (unsettable false))) ∧
      after.tally ⟨0⟩ (.partitionsCreated "items") = 1 ∧
        (after.catalog.partitions "items").length = 1 := by
  have plan : itemsManager.strategy = items.strategy := rfl
  have named : WellNamed items (unsettable false).catalog :=
    wellNamed_iff.2 ⟨[], (fresh_unsettable false).roster⟩
  refine ⟨(partitions_accounted plan isPlain_items rfl rfl named [lull _ _, lull _ _]).1, ?_⟩
  decide +kernel

end Upkeep.Partition
