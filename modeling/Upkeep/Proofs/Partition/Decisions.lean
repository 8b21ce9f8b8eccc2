import Upkeep.Partition.Sync
import Upkeep.Proofs.Ddl.Retry
import Upkeep.Proofs.Partition.InOrder

/-!
# What a sliding list decides

The decisions of a sliding list and the statements of a run, in a catalog that nobody else
changes.  The catalog is all the state there is; what the application says about partitions is
any answer that the conditions allow, and so are failures, if there may be any.  The catalog
may be any, and so may the rule that is kept, as long as it allows what a list asks.

## Main Definitions

* `Conditions`, `database` — surroundings with a catalog as their state.
* `Listed`, `ReadsDefault` — what is read from a catalog.
* `Watches`, `Forgives`, `ForgivesDefault` — the rule allows what a list asks, and what reading
  may fail with.
* `Misses`, `Retires` — what the application has said when it is known what to create, and
  what to detach.

## Main Statements

* `keeps_missing`, `keeps_lags`, `keeps_extra` — the decisions.
* `keeps_retried` — a retried statement.
-/

namespace Upkeep.Partition

variable {α : Type}

/-! ### Surroundings with a catalog -/

/-- What is known about the answers to requests. -/
structure Conditions where
  /-- Whether statements may fail. -/
  failures : Prop
  /-- Whether the catalog and the lease store may be out of reach. -/
  outages : Prop
  /-- What the application may say when it is asked whether a partition is full. -/
  isFull : Int64 → Bool → Prop
  /-- What it may say when it is asked whether a partition is retired. -/
  isRetired : Int64 → Bool → Prop
  /-- The sessions whose statements change the catalog. -/
  applies : Session → Prop

/-- Whether anything around a run may fail. -/
def Conditions.faults (conditions : Conditions) : Prop := conditions.failures ∨ conditions.outages

/-- Statements that succeed change the catalog, which nobody else does, and nobody is
interrupted. -/
def database (conditions : Conditions) : Surroundings Service Catalog where
  replies catalog r answer :=
    match r, answer with
    | .obtainLease _ _, .error _ => conditions.outages
    | .execute _ _, .error _ => conditions.failures
    | .listPartitions table, .ok listings => listings = catalog.partitions table
    | .listPartitions _, .error _ => conditions.outages
    | .readDefault table column, .ok expression? => expression? = catalog.default? table column
    | .readDefault _ _, .error _ => conditions.outages
    | .isFull value, answer => conditions.isFull value answer
    | .isRetired value, answer => conditions.isRetired value answer
    | _, _ => True
  after catalog r answer :=
    match r, answer with
    | .execute _ sql, .ok _ => catalog.execute sql
    | _, _ => catalog
  slept catalog _ := catalog
  interrupts := False

/-- The partitions that the catalog lists, in ascending order. -/
def Listed (list : SlidingList) (catalog : Catalog) (ps : List Partition) : Prop :=
  ∃ read, SlidingList.ofListings list.table (catalog.partitions list.table) = .ok read ∧
    sort read = ps

/-- What the column's default is read as. -/
def ReadsDefault (list : SlidingList) (catalog : Catalog) : Option Int64 → Prop
  | none => catalog.default? list.table list.column = none
  | some value => DefaultsTo list catalog value

/-- The rule allows what a list asks, logs and the count of retries. -/
structure Watches (rule : Catalog → Service.Request → Prop) (list : SlidingList) : Prop where
  partitions : ∀ catalog, rule catalog (.listPartitions list.table)
  default : ∀ catalog, rule catalog (.readDefault list.table list.column)
  isFull : ∀ catalog value, rule catalog (.isFull value)
  isRetired : ∀ catalog value, rule catalog (.isRetired value)
  log : ∀ catalog event, rule catalog (.log event)
  retry : ∀ catalog account, rule catalog (.count account .lockRetries 1)

/-- What listing the partitions may fail with is allowed. -/
structure Forgives (conditions : Conditions) (list : SlidingList) (failed : Error → Catalog → Prop)
    (catalog : Catalog) : Prop where
  outage : conditions.outages → ∀ error, failed error catalog
  partitions : ∀ error, SlidingList.ofListings list.table (catalog.partitions list.table) =
    .error error → failed (.partitioning error) catalog

/-- What reading the default may fail with is allowed. -/
def ForgivesDefault (list : SlidingList) (failed : Error → Catalog → Prop) (catalog : Catalog) :
    Prop :=
  ∀ expression, catalog.default? list.table list.column = some expression →
    Condition.default? expression = none →
      failed (.setup (.invalidDefault list.table list.column expression)) catalog

/-- What a list finds missing in a table with the given partitions, the active one last. -/
inductive Misses (conditions : Conditions) (list : SlidingList) (ps : List Partition) :
    List Partition → Prop where
  /-- The table has no partitions, or the active one is full. -/
  | next {partition : Partition} (next : IsNext list ps partition)
      (full : ∀ last, ps.getLast? = some last → conditions.isFull last.value true) :
      Misses conditions list ps [partition]
  /-- The active partition is not full. -/
  | nothing {last : Partition} (active : ps.getLast? = some last)
      (idle : conditions.isFull last.value false) : Misses conditions list ps []

/-- A cut between the partitions that are retired and those from the first one that is
not. -/
structure Retires (conditions : Conditions) (retired rest : List Partition) : Prop where
  retired : ∀ partition ∈ retired, conditions.isRetired partition.value true
  head : ∀ first, rest.head? = some first → conditions.isRetired first.value false

variable {conditions : Conditions} {list : SlidingList} {catalog : Catalog}
  {rule : Catalog → Service.Request → Prop} {failed : Error → Catalog → Prop}

/-! ### What is listed -/

namespace Listed

variable {ps : List Partition} {partition : Partition}

/-- Everything that the catalog lists can be read, and what is listed is what is read. -/
theorem iff_sort_readable :
    Listed list catalog ps ↔ (∀ listing ∈ catalog.partitions list.table,
      ∃ partition, ofListing list.table listing = .ok partition) ∧
        sort (catalog.readable list.table) = ps := by
  simp only [Listed, ofListings_eq_ok_iff]
  constructor
  · rintro ⟨read, ⟨reads, rfl⟩, sorted⟩
    exact ⟨reads, sorted⟩
  · rintro ⟨reads, sorted⟩
    exact ⟨_, ⟨reads, rfl⟩, sorted⟩

variable (listed : Listed list catalog ps)
include listed

theorem reads {listing : Listing} (mem : listing ∈ catalog.partitions list.table) :
    ∃ partition, ofListing list.table listing = .ok partition :=
  (iff_sort_readable.1 listed).1 listing mem

theorem sort_eq : sort (catalog.readable list.table) = ps := (iff_sort_readable.1 listed).2

theorem unique {ps' : List Partition} (listed' : Listed list catalog ps') : ps = ps' :=
  listed.sort_eq.symm.trans listed'.sort_eq

theorem perm : (catalog.readable list.table).Perm ps :=
  listed.sort_eq ▸ (List.mergeSort_perm _ _).symm

theorem mem_iff : partition ∈ ps ↔
    ∃ listing ∈ catalog.partitions list.table, ofListing list.table listing = .ok partition :=
  listed.perm.mem_iff.symm.trans mem_readable

theorem table_eq (mem : partition ∈ ps) : partition.table = list.table :=
  table_of_mem_readable (listed.perm.mem_iff.2 mem)

/-- The values never fall along the list. -/
theorem values_le : ps.Pairwise fun a b => a.value ≤ b.value := by
  have sorted := pairwise_sort (catalog.readable list.table)
  rw [listed.sort_eq] at sorted
  refine sorted.imp_of_mem fun ha hb => value_le_of_isLE_compare ?_
  exact (listed.table_eq ha).trans (listed.table_eq hb).symm

/-- The last partition has the highest value. -/
theorem le_getLast {last : Partition} (active : ps.getLast? = some last) (mem : partition ∈ ps) :
    partition.value ≤ last.value := by
  obtain ⟨front, rfl⟩ := List.getLast?_eq_some_iff.1 active
  obtain before | same := List.mem_append.1 mem
  · exact (List.pairwise_append.1 listed.values_le).2.2 partition before last (by simp)
  · rw [List.mem_singleton.1 same]
    exact Int64.le_refl _

theorem mem_values {value : Int64} :
    value ∈ catalog.values list.table ↔ ∃ partition ∈ ps, partition.value = value := by
  rw [((values_perm catalog list.table).trans (listed.perm.map _)).mem_iff, List.mem_map]

/-- Partitions have the schemas and names under which the catalog lists them. -/
theorem keys_perm : (ps.map fun partition => (partition.schema, partition.name)).Perm
    ((catalog.partitions list.table).map fun listing => (listing.schema, listing.name)) := by
  refine (listed.perm.symm.map _).trans (List.Perm.of_eq ?_)
  rw [Catalog.readable, List.map_filterMap, ← List.filterMap_eq_map]
  refine List.filterMap_congr fun listing mem => ?_
  obtain ⟨partition, read⟩ := listed.reads mem
  rw [read, Except.toOption, Option.map_some, (ofListing_eq_ok_iff.1 read).2]
  rfl

end Listed

/-- A roster lists the partitions. -/
theorem Roster.listed {ps : List Partition} (roster : Roster list catalog ps) :
    Listed list catalog ps :=
  Listed.iff_sort_readable.2 ⟨roster.reads, roster.sort_eq⟩

/-- A default that is there or is not can be read. -/
theorem ReadsDefault.forgives {value? : Option Int64} (hvalue : ReadsDefault list catalog value?) :
    ForgivesDefault list failed catalog := by
  intro expression hd hread
  match value? with
  | none => cases hd.symm.trans hvalue
  | some value =>
      obtain ⟨expression', hd', hread'⟩ := hvalue
      obtain rfl : expression' = expression := Option.some.inj (hd'.symm.trans hd)
      cases hread.symm.trans hread'

/-- A default is read in one way. -/
theorem ReadsDefault.unique {value? value?' : Option Int64} (h : ReadsDefault list catalog value?)
    (h' : ReadsDefault list catalog value?') : value? = value?' := by
  match value?, value?' with
  | none, none => rfl
  | none, some value =>
      obtain ⟨expression, hd, -⟩ := h'
      cases hd.symm.trans h
  | some value, none =>
      obtain ⟨expression, hd, -⟩ := h
      cases hd.symm.trans h'
  | some value, some value' =>
      obtain ⟨expression, hd, hread⟩ := h
      obtain ⟨expression', hd', hread'⟩ := h'
      obtain rfl : expression = expression' := Option.some.inj (hd.symm.trans hd')
      exact hread.symm.trans hread'

namespace Watches

theorem overlooks (watches : Watches rule list) :
    (database conditions).Overlooks rule fun _ _ => False :=
  ⟨watches.log, fun _ _ _ => rfl, watches.retry, fun _ _ _ _ _ => rfl, fun hi _ _ => hi⟩

end Watches

/-! ### Reading -/

section Reading

variable (watches : Watches rule list) (forgives : Forgives conditions list failed catalog)
include watches forgives

theorem keeps_current {ok : List Partition → Catalog → Prop}
    (hok : ∀ ps, Listed list catalog ps → ok ps catalog) :
    list.current.Keeps (database conditions) rule ok failed (fun _ _ => False) catalog := by
  refine Task.keeps_bind.2 (Task.keeps_attempt.2
    (Service.keeps_ask.2 ⟨watches.partitions _, fun answer ha => ?_, fun hi _ => hi⟩))
  match answer with
  | .error error => exact forgives.outage ha error
  | .ok listings =>
      obtain rfl : listings = catalog.partitions list.table := ha
      simp only []
      split
      · next partitions read => exact Task.keeps_pure.2 (hok _ ⟨partitions, read, rfl⟩)
      · next error read => exact Task.keeps_throw.2 (forgives.partitions error read)

theorem keeps_active? {ok : Option Partition → Catalog → Prop}
    (hok : ∀ ps, Listed list catalog ps → ok ps.getLast? catalog) :
    list.active?.Keeps (database conditions) rule ok failed (fun _ _ => False) catalog :=
  Task.keeps_bind.2 (keeps_current watches forgives fun ps listed =>
    Task.keeps_pure.2 (hok ps listed))

theorem keeps_active {ok : Partition → Catalog → Prop}
    (hnone : Listed list catalog [] → failed (.partitioning (.noPartitions list.table)) catalog)
    (hok : ∀ ps last, Listed list catalog ps → ps.getLast? = some last → ok last catalog) :
    list.active.Keeps (database conditions) rule ok failed (fun _ _ => False) catalog := by
  refine Task.keeps_bind.2 (keeps_active? watches forgives fun ps listed => ?_)
  cases active : ps.getLast? with
  | none =>
      obtain rfl := List.getLast?_eq_none_iff.1 active
      exact Task.keeps_throw.2 (hnone listed)
  | some last => exact Task.keeps_pure.2 (hok ps last listed active)

theorem keeps_default? (unread : ForgivesDefault list failed catalog)
    {ok : Option Int64 → Catalog → Prop}
    (hok : ∀ value?, ReadsDefault list catalog value? → ok value? catalog) :
    list.default?.Keeps (database conditions) rule ok failed (fun _ _ => False) catalog := by
  refine Task.keeps_bind.2 (Task.keeps_attempt.2
    (Service.keeps_ask.2 ⟨watches.default _, fun answer ha => ?_, fun hi _ => hi⟩))
  match answer with
  | .error error => exact forgives.outage ha error
  | .ok none => exact Task.keeps_pure.2 (hok none (Eq.symm ha))
  | .ok (some expression) =>
      have given : catalog.default? list.table list.column = some expression := Eq.symm ha
      simp only []
      split
      · next value read => exact Task.keeps_pure.2 (hok (some value) ⟨expression, given, read⟩)
      · next read => exact Task.keeps_throw.2 (unread expression given read)

theorem keeps_default (unread : ForgivesDefault list failed catalog) {ok : Int64 → Catalog → Prop}
    (hnone : ReadsDefault list catalog none →
      failed (.setup (.noDefault list.model.name list.column)) catalog)
    (hok : ∀ value, DefaultsTo list catalog value → ok value catalog) :
    list.default.Keeps (database conditions) rule ok failed (fun _ _ => False) catalog := by
  refine Task.keeps_bind.2 (keeps_default? watches forgives unread fun value? reads => ?_)
  match value? with
  | none => exact Task.keeps_throw.2 (hnone reads)
  | some value => exact Task.keeps_pure.2 (hok value reads)

end Reading

/-! ### Deciding -/

section Deciding

variable (watches : Watches rule list) (forgives : Forgives conditions list failed catalog)
include watches forgives

theorem keeps_missing {ok : List Partition → Catalog → Prop}
    (hover : ∀ ps last, Listed list catalog ps → ps.getLast? = some last →
      conditions.isFull last.value true → nextValue? last.value = none →
        failed (.partitioning (.valueOverflow list.table last.value)) catalog)
    (hok : ∀ ps missing, Listed list catalog ps → Misses conditions list ps missing →
      ok missing catalog) :
    list.missing.Keeps (database conditions) rule ok failed (fun _ _ => False) catalog := by
  refine Task.keeps_bind.2 (keeps_current watches forgives fun ps listed => ?_)
  cases active : ps.getLast? with
  | none =>
      obtain rfl := List.getLast?_eq_none_iff.1 active
      exact Task.keeps_pure.2 (hok [] _ listed
        (.next ⟨rfl, fun _ => rfl, fun last found => nomatch found⟩
          fun last found => nomatch found))
  | some last =>
      have table : last.table = list.table := listed.table_eq (List.mem_of_getLast? active)
      refine Task.keeps_bind.2 (Task.keeps_liftM.2
        (Service.keeps_ask.2 ⟨watches.isFull _ _, fun full answered => ?_, fun hi _ => hi⟩))
      match full with
      | false => exact Task.keeps_pure.2 (hok ps [] listed (.nothing active answered))
      | true =>
          simp only [if_true, SlidingList.following, following]
          cases after : nextValue? last.value with
          | none =>
              have overflow := hover ps last listed active answered after
              rw [← table] at overflow
              exact Task.keeps_bind.2 (Task.keeps_throw.2 overflow)
          | some value =>
              have same {last' : Partition} (found : ps.getLast? = some last') : last = last' :=
                Option.some.inj (active.symm.trans found)
              refine Task.keeps_bind.2 (Task.keeps_pure.2 (Task.keeps_pure.2
                (hok ps _ listed (.next ⟨by rw [table]; rfl, ?_, ?_⟩ ?_))))
              · rintro rfl
                cases active
              · rintro last' found
                exact same found ▸ after
              · rintro last' found
                exact same found ▸ answered

theorem keeps_lags (unread : ForgivesDefault list failed catalog) {ok : Bool → Catalog → Prop}
    (hempty : Listed list catalog [] → ok false catalog)
    (hok : ∀ ps last value?, Listed list catalog ps → ps.getLast? = some last →
      ReadsDefault list catalog value? → ok (value?.any (· != last.value)) catalog) :
    list.lags.Keeps (database conditions) rule ok failed (fun _ _ => False) catalog := by
  refine Task.keeps_bind.2 (keeps_active? watches forgives fun ps listed => ?_)
  cases active : ps.getLast? with
  | none =>
      obtain rfl := List.getLast?_eq_none_iff.1 active
      exact Task.keeps_pure.2 (hempty listed)
  | some last =>
      refine Task.keeps_bind.2 (keeps_default? watches forgives unread fun value? reads => ?_)
      have decided := hok ps last value? listed active reads
      match value? with
      | none => exact Task.keeps_pure.2 decided
      | some value => exact Task.keeps_pure.2 decided

omit forgives in
/-- What is retired is the first of the partitions. -/
theorem keeps_takeRetired (partitions : List Partition) {ok : List Partition → Catalog → Prop}
    (hok : ∀ retired rest, partitions = retired ++ rest → Retires conditions retired rest →
      ok retired catalog) :
    (SlidingList.takeRetired partitions).Keeps (database conditions) rule ok
      (fun _ _ => False) catalog := by
  induction partitions generalizing ok with
  | nil => exact hok [] [] rfl ⟨by simp, by simp⟩
  | cons partition partitions ih =>
      refine Job.keeps_bind.2
        (Service.keeps_ask.2 ⟨watches.isRetired _ _, fun answer ha => ?_, fun hi _ => hi⟩)
      match answer with
      | false =>
          refine hok [] (partition :: partitions) rfl ⟨by simp, fun first hfirst => ?_⟩
          obtain rfl : partition = first := Option.some.inj hfirst
          exact ha
      | true =>
          refine Job.keeps_bind.2 (ih fun retired rest heq hretires => ?_)
          refine hok (partition :: retired) rest (by rw [heq]; rfl) ⟨?_, hretires.head⟩
          exact List.forall_mem_cons.2 ⟨ha, hretires.retired⟩

/-- What is to be detached are the first partitions, but never the active one nor any that
holds the default. -/
theorem keeps_extra (unread : ForgivesDefault list failed catalog)
    {ok : List Partition → Catalog → Prop}
    (hnone : ReadsDefault list catalog none →
      failed (.setup (.noDefault list.model.name list.column)) catalog)
    (hok : ∀ ps value retired rest, Listed list catalog ps → DefaultsTo list catalog value →
      ps.dropLast = retired ++ rest → Retires conditions retired rest →
        ((∃ partition ∈ retired, partition.value = value) →
          rule catalog (.count list.account .inconsistentPartitions 1)) ∧
        ok (retired.filter fun partition => partition.value != value) catalog) :
    list.extra.Keeps (database conditions) rule ok failed (fun _ _ => False) catalog := by
  refine Task.keeps_bind.2 (keeps_current watches forgives fun ps listed => ?_)
  refine Task.keeps_bind.2 (keeps_default watches forgives unread hnone fun value reads => ?_)
  refine Task.keeps_bind.2 (Task.keeps_ofJob.2
    (keeps_takeRetired watches _ fun retired rest cut retires => ?_))
  obtain ⟨hcount, hdone⟩ := hok ps value retired rest listed reads cut retires
  split
  · next held =>
      obtain ⟨partition, mem, same⟩ := List.any_eq_true.1 held
      refine Task.keeps_bind.2 (Task.keeps_liftM.2
        (watches.overlooks.keeps_count (hcount ⟨partition, mem, eq_of_beq same⟩) ?_))
      exact Task.keeps_bind.2 (Task.keeps_liftM.2
        (watches.overlooks.keeps_log (Task.keeps_pure.2 hdone)))
  · next free =>
      have all : (retired.filter fun partition => partition.value != value) = retired := by
        refine List.filter_eq_self.2 fun partition mem => bne_iff_ne.2 fun same => free ?_
        exact List.any_eq_true.2 ⟨partition, mem, beq_iff_eq.2 same⟩
      exact Task.keeps_pure.2 (all ▸ hdone)

end Deciding

/-! ### Statements -/

section Statements

variable {retrier : Ddl.Retrier}

private theorem keeps_execute {sql : String} (allowed : rule catalog (.execute retrier.session sql))
    {ok : Except Sql.Failure Unit → Catalog → Prop} (hok : ok (.ok ()) (catalog.execute sql))
    (hfail : conditions.failures → ∀ failure, ok (.error failure) catalog) :
    (retrier.execute sql).Keeps (database conditions) rule ok (fun _ _ => False) catalog := by
  refine Service.keeps_ask.2 ⟨allowed, fun answer ha => ?_, fun hi _ => hi⟩
  match answer with
  | .ok () => exact hok
  | .error failure => exact hfail ha failure

/-- A statement, and those that set and undo the lock timeout, are allowed. -/
structure AllowsStatement (rule : Catalog → Service.Request → Prop) (session : Session)
    (catalog : Catalog) (sql : String) : Prop where
  statement : rule catalog (.execute session sql)
  set : ∀ millis, rule catalog (.execute session (Sql.Statement.setLockTimeout millis).text)
  reset : rule catalog (.execute session Sql.Statement.resetLockTimeout.text)
  resetAfter : rule (catalog.execute sql) (.execute session Sql.Statement.resetLockTimeout.text)

private theorem keeps_reset {ok : Catalog → Prop} (hok : ok catalog)
    (allowed : rule catalog (.execute retrier.session Sql.Statement.resetLockTimeout.text)) :
    (retrier.execute Sql.Statement.resetLockTimeout.text).Keeps (database conditions) rule
      (fun _ s => ok s) (fun _ _ => False) catalog := by
  refine keeps_execute allowed ?_ fun _ _ => hok
  rw [Catalog.execute_of_none Sql.ofSql?_resetLockTimeout]
  exact hok

/-- A retried statement is executed once, or the catalog stays as it was. -/
theorem keeps_retried (quiet : (database conditions).Overlooks rule fun _ _ => False)
    {sql : String} (timing : Ddl.Timing)
    (allows : AllowsStatement rule retrier.session catalog sql)
    (hf : conditions.failures → ∀ error, failed error catalog)
    {ok : Ddl.Outcome → Catalog → Prop}
    (hok : ∀ attempts, ok (.completed attempts) (catalog.execute sql)) :
    (retrier.run sql timing true).Keeps (database conditions) rule ok failed (fun _ _ => False)
      catalog := by
  refine Ddl.Retrier.keeps_run quiet (fun _ s => s = catalog)
    (fun _ s => s = catalog.execute sql) (fun _ s => conditions.failures ∧ s = catalog) rfl ?_ ?_ ?_
  · rintro number entry rest s rfl
    refine Ddl.Retrier.keeps_attempt quiet
      (keeps_execute (allows.set _) ?_ fun h failure => hf h _)
    rw [Catalog.execute_of_none (Sql.ofSql?_setLockTimeout _)]
    refine keeps_execute allows.statement (keeps_reset rfl allows.resetAfter) fun h failure =>
      keeps_reset ?_ allows.reset
    simp only [Ddl.Retrier.Verdict]
    split
    · split
      · exact ⟨h, rfl⟩
      · exact Service.keeps_sleep.2 ⟨rfl, fun hi _ => hi⟩
    · exact hf h _
  · rintro attempts s rfl
    exact hok attempts
  · rintro failure s ⟨h, rfl⟩
    exact hf h _

end Statements

end Upkeep.Partition
