import Upkeep.Proofs.Partition.Decisions
import Upkeep.Proofs.Partition.Legible

/-!
# The course of a run

What one run of upkeep asks for and what it does, in any catalog in which its statements are
read as they are meant: the partitions may have any names, schemas and values, and the default
may be anything.  All that it asks for concerns the table of its list, and if it succeeds then
its report says by which changes it has come from the catalog before it to the one after it.

## Main Definitions

* `Concerns` — the requests that concern nothing but the table of a list.
* `Catalog.attachAll`, `Catalog.detachAll` — a catalog after several changes of one kind.
* `Course` — how a run goes that succeeds.

## Main Statements

* `minds_syncLocked` — a run concerns its table, and goes as described if it succeeds.
* `minds_syncLocked_steady` — a run that has nothing to do makes no statement.
-/

namespace Upkeep

/-- Whether a partition is the one that the catalog lists. -/
def Partition.isListedAs (partition : Partition) (listing : Listing) : Bool :=
  listing.schema == partition.schema && listing.name == partition.name

/-- What the catalog lists once the partition is created. -/
def Partition.listing (partition : Partition) : Listing :=
  ⟨partition.schema, partition.name, Sql.writtenBound partition.value⟩

namespace Catalog

/-- The catalog after partitions were created one after the other. -/
def attachAll (catalog : Catalog) (table : String) (partitions : List Partition) : Catalog :=
  partitions.foldl (fun catalog partition => catalog.attach table partition.listing) catalog

/-- The catalog after partitions were detached one after the other. -/
def detachAll (catalog : Catalog) (table : String) (partitions : List Partition) : Catalog :=
  partitions.foldl (fun catalog partition =>
    catalog.detach table partition.schema partition.name) catalog

variable {table : String}

/-- What is left are the partitions that are listed as none of the detached ones. -/
theorem partitions_detachAll (catalog : Catalog) (partitions : List Partition) :
    (catalog.detachAll table partitions).partitions table =
      (catalog.partitions table).filter fun listing =>
        !partitions.any fun partition => partition.isListedAs listing := by
  induction partitions generalizing catalog with
  | nil => simp [detachAll]
  | cons partition rest ih =>
      have step : (catalog.detachAll table (partition :: rest)) =
          (catalog.detach table partition.schema partition.name).detachAll table rest := rfl
      rw [step, ih, partitions_detach, List.filter_filter]
      refine List.filter_congr fun listing _ => ?_
      simp [Partition.isListedAs, Bool.and_comm]

theorem default?_detachAll (catalog : Catalog) (partitions : List Partition)
    (table' column : String) :
    (catalog.detachAll table partitions).default? table' column =
      catalog.default? table' column := by
  induction partitions generalizing catalog with
  | nil => rfl
  | cons partition rest ih => exact (ih _).trans rfl

end Catalog

namespace Partition

variable {α : Type} {conditions : Conditions} {list : SlidingList} {manager : Manager}
  {before catalog : Catalog} {writes : Prop} {failed : Error → Catalog → Prop}

/-- The request concerns nothing but the list's table; there are statements among such requests
only if the run `writes`. -/
def Concerns (conditions : Conditions) (list : SlidingList) (writes : Prop) :
    Service.Request → Prop
  | .execute session sql => writes ∧ conditions.applies session ∧
      ∀ change, Sql.Change.ofSql? sql = some change → change.table = list.table
  | .listPartitions table => table = list.table
  | .readDefault table _ => table = list.table
  | .isFull _ | .isRetired _ | .count _ _ _ | .log _ => True
  | _ => False

/-- All that the task asks for concerns the list's table, and its ends are as demanded. -/
abbrev Minds (conditions : Conditions) (list : SlidingList) (writes : Prop)
    (ok : α → Catalog → Prop) (failed : Error → Catalog → Prop) (task : Task α)
    (catalog : Catalog) : Prop :=
  task.Keeps (database conditions) (fun _ r => Concerns conditions list writes r) ok failed
    (fun _ _ => False) catalog

theorem watches_concerns (conditions : Conditions) (list : SlidingList) (writes : Prop) :
    Watches (fun _ r => Concerns conditions list writes r) list :=
  ⟨fun _ => rfl, fun _ => rfl, fun _ _ => trivial, fun _ _ => trivial, fun _ _ => trivial,
    fun _ _ => trivial⟩

/-! ### Statements -/

/-- Any end without a value is fine. -/
def anyFailure : Error → Catalog → Prop := fun _ _ => True

theorem forgives_anyFailure : Forgives conditions list anyFailure catalog :=
  ⟨fun _ _ => trivial, fun _ _ => trivial⟩

theorem forgivesDefault_anyFailure : ForgivesDefault list anyFailure catalog :=
  fun _ _ _ => trivial

/-- A statement that is about the list's table is executed, or it fails. -/
theorem minds_statement {retrier : Ddl.Retrier} (applies : conditions.applies retrier.session)
    {statement : Sql.Statement} (timing : Ddl.Timing) {change : Sql.Change}
    (legible : Sql.Change.ofSql? statement.text = some change) (own : change.table = list.table)
    {ok : Ddl.Outcome → Catalog → Prop}
    (hok : ∀ attempts, ok (.completed attempts) (catalog.apply change)) :
    Minds conditions list True ok anyFailure (retrier.run statement.text timing true) catalog := by
  have reads {sql : String} (none : Sql.Change.ofSql? sql = none) :
      Concerns conditions list True (.execute retrier.session sql) :=
    ⟨trivial, applies, fun _ some => nomatch none.symm.trans some⟩
  refine keeps_retried (watches_concerns conditions list True).overlooks timing
    ⟨⟨trivial, applies, fun other read => ?_⟩, fun _ => reads (Sql.ofSql?_setLockTimeout _),
      reads Sql.ofSql?_resetLockTimeout, reads Sql.ofSql?_resetLockTimeout⟩
    (fun _ _ => trivial) fun attempts => ?_
  · obtain rfl : change = other := Option.some.inj (legible.symm.trans read)
    exact own
  · rw [Catalog.execute_of_some legible]
    exact hok attempts

/-- Reports do not matter. -/
theorem minds_report {account : Account} {meter : Meter} {event : Event} {task : Task α}
    {ok : α → Catalog → Prop} (h : Minds conditions list writes ok failed task catalog) :
    Minds conditions list writes ok failed
      (do
        Service.count account meter
        Service.log event
        task) catalog := by
  have quiet : (database conditions).Overlooks (fun _ r => Concerns conditions list writes r)
      fun _ _ => False := (watches_concerns conditions list writes).overlooks
  exact Task.keeps_bind.2 (Task.keeps_liftM.2 (quiet.keeps_count trivial
    (Task.keeps_bind.2 (Task.keeps_liftM.2 (quiet.keeps_log h)))))

/-- A statement of a run and its report, which comes once the catalog has changed. -/
theorem minds_entry (applies : conditions.applies manager.session) {statement : Sql.Statement}
    {change : Sql.Change} (legible : Sql.Change.ofSql? statement.text = some change)
    (own : change.table = list.table) {account : Account} {meter : Meter} {event : Event}
    {task : Task Unit} {ok : Unit → Catalog → Prop}
    (h : Minds conditions list True ok anyFailure task (catalog.apply change)) :
    Minds conditions list True ok anyFailure
      (do
        manager.execute statement
        Service.count account meter
        Service.log event
        task) catalog :=
  Task.keeps_bind.2 (Task.keeps_bind.2 (minds_statement applies _ legible own fun _ =>
    Task.keeps_pure.2 (minds_report h)))

theorem minds_create (applies : conditions.applies manager.session)
    {partitions : List Partition}
    (legible : ∀ partition ∈ partitions, Sql.Change.ofSql? partition.createStatement.text =
      some (.attach list.table partition.schema partition.name (Sql.writtenBound partition.value)))
    {ok : Unit → Catalog → Prop} (hok : ok () (catalog.attachAll list.table partitions)) :
    Minds conditions list True ok anyFailure (manager.create partitions) catalog := by
  induction partitions generalizing catalog with
  | nil => exact Task.keeps_pure.2 hok
  | cons partition rest ih =>
      obtain ⟨first, others⟩ := List.forall_mem_cons.1 legible
      exact minds_entry applies first rfl (ih others hok)

theorem minds_detach (applies : conditions.applies manager.session)
    {partitions : List Partition}
    (legible : ∀ partition ∈ partitions, Sql.Change.ofSql? partition.detachStatement.text =
      some (.detach list.table partition.schema partition.name))
    {ok : Unit → Catalog → Prop} (hok : ok () (catalog.detachAll list.table partitions)) :
    Minds conditions list True ok anyFailure (manager.detach partitions) catalog := by
  induction partitions generalizing catalog with
  | nil => exact Task.keeps_pure.2 hok
  | cons partition rest ih =>
      obtain ⟨first, others⟩ := List.forall_mem_cons.1 legible
      exact minds_entry applies first rfl (ih others hok)

/-! ### Creating and moving the default -/

/-- A run has created partitions, and the default is at the active partition if there is a
default. -/
structure Prepared (list : SlidingList) (before : Catalog) (created : List Partition)
    (mid : Catalog) : Prop where
  partitions : mid.partitions list.table =
    (before.attachAll list.table created).partitions list.table
  default : ∀ value ps last, DefaultsTo list mid value → Listed list mid ps →
    ps.getLast? = some last → value = last.value

/-- What is listed is a matter of the table's partitions. -/
theorem Listed.of_partitions {catalog' : Catalog} {ps : List Partition}
    (listed : Listed list catalog ps)
    (same : catalog'.partitions list.table = catalog.partitions list.table) :
    Listed list catalog' ps := by
  rwa [Listed, same]

/-- The default that was set last is the only one. -/
theorem DefaultsTo.eq_of_setDefault {value value' : Int64}
    (h : DefaultsTo list (catalog.setDefault list.table list.column
      (String.ofList (Text.ofInt64 value))) value') : value' = value := by
  obtain ⟨expression, given, read⟩ := h
  rw [Catalog.default?_setDefault, if_pos rfl] at given
  obtain rfl := Option.some.inj given
  exact Option.some.inj (read.symm.trans (Condition.default?_ofInt64 value))

theorem minds_afterAdding (applies : conditions.applies list.session)
    (legible : ∀ value, (list.setDefaultStatement value).IsLegible) {created : List Partition}
    (same : catalog.partitions list.table =
      (before.attachAll list.table created).partitions list.table)
    {ok : Unit → Catalog → Prop} (hok : ∀ mid, Prepared list before created mid → ok () mid) :
    Minds conditions list True ok anyFailure list.afterAdding catalog := by
  have watches := watches_concerns conditions list True
  refine Task.keeps_bind.2 (keeps_active watches forgives_anyFailure (fun _ => trivial) ?_)
  intro ps last listed active
  refine Task.keeps_bind.2 (minds_statement applies _ (legible last.value) rfl fun _ => ?_)
  refine Task.keeps_liftM.2 (watches.overlooks.keeps_log (hok _ ⟨same, ?_⟩))
  intro value ps' last' reads listed' active'
  obtain rfl : ps = ps' := (listed.of_partitions rfl).unique listed'
  obtain rfl : last = last' := Option.some.inj (active.symm.trans active')
  exact reads.eq_of_setDefault

theorem minds_extend (hm : conditions.applies manager.session)
    (hl : conditions.applies list.session) (hstrategy : manager.strategy = list.strategy)
    (legible : Legible list before) {ps missing : List Partition} (listed : Listed list before ps)
    (misses : Misses conditions list ps missing) {ok : Unit → Catalog → Prop}
    (hok : ∀ mid, Prepared list before missing mid → ok () mid) :
    Minds conditions list True ok anyFailure (manager.extend missing) before := by
  have watches := watches_concerns conditions list True
  rw [Manager.extend, hstrategy]
  cases misses with
  | @next partition next full =>
      refine Task.keeps_bind.2
        (minds_create hm ?_ (minds_afterAdding hl legible.setDefault rfl hok))
      intro other mem
      obtain rfl := List.mem_singleton.1 mem
      rw [next.eq_named]
      exact legible.create _
  | @nothing last active idle =>
      have same {ps' : List Partition} {last' : Partition} (listed' : Listed list before ps')
          (active' : ps'.getLast? = some last') : last' = last := by
        obtain rfl := listed'.unique listed
        exact Option.some.inj (active'.symm.trans active)
      refine Task.keeps_bind.2 (keeps_lags watches forgives_anyFailure forgivesDefault_anyFailure
        (fun empty => nomatch (empty.unique listed ▸ active)) ?_)
      intro ps' last' value? listed' active' reads
      obtain rfl := same listed' active'
      by_cases lags : value?.any (· != last'.value) = true
      · rw [if_pos lags]
        exact Task.keeps_bind.2 (Task.keeps_liftM.2 (watches.overlooks.keeps_log
          (minds_afterAdding hl legible.setDefault rfl hok)))
      · rw [if_neg lags]
        refine Task.keeps_pure.2 (hok before ⟨rfl, ?_⟩)
        intro value ps'' last'' there listed'' active''
        obtain rfl := same listed'' active''
        obtain rfl : value? = some value := reads.unique there
        simpa using lags

/-! ### A run -/

/-- How a run goes that succeeds: what the catalog `mid` lists when it is decided what to detach,
and what is left of that. -/
structure Course (conditions : Conditions) (list : SlidingList) (before mid after : Catalog)
    (report : SyncReport) : Prop where
  /-- What was missing is what the report says. -/
  missed : ∃ ps, Listed list before ps ∧ Misses conditions list ps report.created
  prepared : Prepared list before report.created mid
  /-- What was detached are the first partitions, as long as they are retired, without the active
  one and those that hold the default. -/
  retired : ∃ ps value retired rest, Listed list mid ps ∧ DefaultsTo list mid value ∧
    ps.dropLast = retired ++ rest ∧ Retires conditions retired rest ∧
      report.detached = retired.filter fun partition => partition.value != value
  left : after.partitions list.table =
    (mid.detachAll list.table report.detached).partitions list.table
  default : after.default? list.table list.column = mid.default? list.table list.column

/-- What is listed after a run has created partitions are former partitions and those. -/
theorem Prepared.legible {created : List Partition} {mid : Catalog}
    (prepared : Prepared list before created mid) (legible : Legible list before)
    {ps : List Partition} (misses : Misses conditions list ps created) : Legible list mid := by
  refine ⟨legible.create, legible.setDefault, fun listing mem => ?_, legible.detachNew⟩
  rw [prepared.partitions] at mem
  cases misses with
  | @next partition next full =>
      have attached : listing ∈ before.partitions list.table ∨
          listing = partition.listing := by
        simp only [Catalog.attachAll, List.foldl_cons, List.foldl_nil,
          Catalog.partitions_attach_eq] at mem
        split at mem
        · exact .inl mem
        · exact (List.mem_append.1 mem).imp id List.mem_singleton.1
      obtain former | rfl := attached
      · exact legible.detach listing former
      · have named := legible.detachNew partition.value
        rw [next.eq_named]
        exact named
  | nothing active idle => exact legible.detach listing mem

/-- A listed partition is detached by a statement that is read as it is meant. -/
theorem Legible.ofSql?_detach (legible : Legible list catalog) {ps : List Partition}
    (listed : Listed list catalog ps) {partition : Partition} (mem : partition ∈ ps) :
    Sql.Change.ofSql? partition.detachStatement.text =
      some (.detach list.table partition.schema partition.name) := by
  obtain ⟨listing, there, read⟩ := listed.mem_iff.1 mem
  rw [(ofListing_eq_ok_iff.1 read).2]
  exact legible.detach listing there

/-- **A run** asks for nothing that does not concern its table, and if it succeeds then it goes
as its report says. -/
theorem minds_syncLocked (hm : conditions.applies manager.session)
    (hl : conditions.applies list.session) (hstrategy : manager.strategy = list.strategy)
    (legible : Legible list before) :
    Minds conditions list True
      (fun report after => ∃ mid, Course conditions list before mid after report) anyFailure
      manager.syncLocked before := by
  have watches := watches_concerns conditions list True
  unfold Manager.syncLocked
  rw [hstrategy]
  refine Task.keeps_bind.2
    (keeps_missing watches forgives_anyFailure (fun _ _ _ _ _ _ => trivial) ?_)
  intro ps missing listed misses
  refine Task.keeps_bind.2
    (minds_extend hm hl hstrategy legible listed misses fun mid prepared => ?_)
  refine Task.keeps_bind.2 (keeps_extra watches forgives_anyFailure forgivesDefault_anyFailure
    (fun _ => trivial) ?_)
  intro ps' value retired rest listed' reads cut retires
  refine ⟨fun _ => trivial, ?_⟩
  have legible' := prepared.legible legible misses
  refine Task.keeps_bind.2 (minds_detach hm (fun partition mem => ?_) (Task.keeps_pure.2 ?_))
  · have former : partition ∈ ps'.dropLast := by
      rw [cut]
      exact List.mem_append_left _ (List.mem_of_mem_filter mem)
    exact legible'.ofSql?_detach listed' ((List.dropLast_sublist ps').subset former)
  · exact ⟨mid, ⟨ps, listed, misses⟩, prepared,
      ⟨ps', value, retired, rest, listed', reads, cut, retires, rfl⟩, rfl,
      Catalog.default?_detachAll ..⟩

/-- **A run that has nothing to do** makes no statement: the active partition is not full, the
default is at it, and only partitions of its value are retired. -/
theorem minds_syncLocked_steady (hstrategy : manager.strategy = list.strategy)
    (reachable : ¬conditions.outages) {ps : List Partition} (listed : Listed list catalog ps)
    {last : Partition} (active : ps.getLast? = some last)
    (idle : ¬conditions.isFull last.value true) (default : DefaultsTo list catalog last.value)
    (needed : ∀ retired rest, ps.dropLast = retired ++ rest → Retires conditions retired rest →
      ∀ partition ∈ retired, partition.value = last.value) :
    Minds conditions list False (fun report after => report = {} ∧ after = catalog)
      (fun _ _ => False) manager.syncLocked catalog := by
  have watches := watches_concerns conditions list False
  have forgives : Forgives conditions list (fun _ _ => False) catalog := by
    refine ⟨fun outage => absurd outage reachable, fun error failed => ?_⟩
    obtain ⟨read, ok, -⟩ := listed
    cases failed.symm.trans ok
  have reads : ReadsDefault list catalog (some last.value) := default
  have same {ps' : List Partition} {last' : Partition} (listed' : Listed list catalog ps')
      (active' : ps'.getLast? = some last') : last' = last := by
    obtain rfl := listed'.unique listed
    exact Option.some.inj (active'.symm.trans active)
  unfold Manager.syncLocked
  rw [hstrategy]
  refine Task.keeps_bind.2 (keeps_missing watches forgives ?_ ?_)
  · intro ps' last' listed' active' full
    exact absurd (same listed' active' ▸ full) idle
  intro ps' missing listed' misses
  obtain rfl := listed'.unique listed
  cases misses with
  | next next full => exact absurd (full last active) idle
  | nothing =>
      rw [Manager.extend, hstrategy]
      refine Task.keeps_bind.2 (Task.keeps_bind.2 (keeps_lags watches forgives reads.forgives
        (fun empty => nomatch (empty.unique listed' ▸ active)) ?_))
      intro ps'' last' value? listed'' active'' reads'
      obtain rfl := same listed'' active''
      obtain rfl := reads'.unique reads
      simp only [Option.any_some, bne_self_eq_false, Bool.false_eq_true, if_false]
      refine Task.keeps_pure.2 (Task.keeps_bind.2 (keeps_extra watches forgives reads.forgives
        (fun none => nomatch reads.unique none) ?_))
      intro ps'' value retired rest listed'' reads'' cut retires
      obtain rfl := listed''.unique listed'
      have held : ReadsDefault list catalog (some value) := reads''
      have atLast : value = last'.value := Option.some.inj (held.unique reads)
      have nothing : (retired.filter fun partition => partition.value != value) = [] := by
        refine List.filter_eq_nil_iff.2 fun partition mem => ?_
        simp [atLast, needed retired rest cut retires partition mem]
      rw [nothing]
      exact ⟨fun _ => trivial, Task.keeps_bind.2 (Task.keeps_pure.2 (Task.keeps_pure.2 ⟨rfl, rfl⟩))⟩

end Partition

end Upkeep
