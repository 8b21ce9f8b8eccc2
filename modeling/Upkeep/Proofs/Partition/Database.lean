import Upkeep.Proofs.Lease.Rule
import Upkeep.Proofs.Partition.Decisions
import Upkeep.Proofs.Partition.Statements

/-!
# Upkeep of a table in order

What one run of upkeep does to a table that has a roster, in a catalog that nobody else
changes.  What the application says about partitions is any answer that the conditions allow,
and so are failures, if there may be any.

## Main Definitions

* `Permits` — statements are made only where they fit.
* `Settled`, `Within` — the catalogs after a run, and those that a run may leave behind
  when it fails.
* `Stuck` — why a run fails although nothing around it does.

## Main Statements

* `upholds_missing`, `upholds_lags`, `upholds_extra`, `upholds_detach` — the parts of a
  run.
* `upholds_syncLocked`, `upholds_sync` — a run, and a run under its lease.

## Design Notes

*The default is what the parts have to agree on.*  What to detach is decided when the
default is at the last partition, or else the run has failed: so the partition of the
default is never among those to detach, and leaving it out makes no gap.
-/

namespace Upkeep.Partition

variable {α β : Type}

/-- Statements are made only in catalogs in which they fit, and nothing inconsistent is
found. -/
def Permits (conditions : Conditions) (list : SlidingList) (catalog : Catalog) :
    Service.Request → Prop
  | .execute session sql => conditions.applies session ∧ Fits list catalog sql
  | .count _ meter _ => meter ≠ .inconsistentPartitions
  | _ => True

/-- The task makes fitting statements only, and its ends are as demanded. -/
abbrev Upholds (conditions : Conditions) (list : SlidingList) (ok : α → Catalog → Prop)
    (failed : Error → Catalog → Prop) (task : Task α) (catalog : Catalog) : Prop :=
  task.Keeps (database conditions) (Permits conditions list) ok failed (fun _ _ => False) catalog

/-- Where something may fail, so may the task. -/
abbrev Excused (conditions : Conditions) (failed : Error → Catalog → Prop) (catalog : Catalog) :
    Prop :=
  conditions.faults → ∀ error, failed error catalog

variable {conditions : Conditions} {list : SlidingList} {catalog catalog' : Catalog}
  {ps : List Partition} {failed : Error → Catalog → Prop}

theorem watches_permits (conditions : Conditions) (list : SlidingList) :
    Watches (Permits conditions list) list :=
  ⟨fun _ => trivial, fun _ => trivial, fun _ _ => trivial, fun _ _ => trivial, fun _ _ => trivial,
    fun _ _ => Meter.noConfusion⟩

theorem overlooks (conditions : Conditions) (list : SlidingList) :
    (database conditions).Overlooks (Permits conditions list) fun _ _ => False :=
  (watches_permits conditions list).overlooks

/-! ### Reading -/

/-- A roster can be read. -/
theorem Roster.forgives (roster : Roster list catalog ps)
    (hf : Excused conditions failed catalog) : Forgives conditions list failed catalog :=
  ⟨fun h => hf (.inr h), fun _ hread => nomatch hread.symm.trans roster.ofListings_eq⟩

/-! ### What to create -/

theorem upholds_missing (roster : Roster list catalog ps)
    (hf : Excused conditions failed catalog)
    {ok : List Partition → Catalog → Prop}
    (hnext : ∀ partition, IsNext list ps partition →
      (∀ last, ps.getLast? = some last → conditions.isFull last.value true) →
        ok [partition] catalog)
    (hnone : ∀ last, ps.getLast? = some last → conditions.isFull last.value false → ok [] catalog)
    (hover : ∀ last, ps.getLast? = some last → conditions.isFull last.value true →
      nextValue? last.value = none →
        failed (.partitioning (.valueOverflow list.table last.value)) catalog) :
    Upholds conditions list ok failed list.missing catalog := by
  have same {ps' : List Partition} (listed : Listed list catalog ps') : ps' = ps :=
    listed.unique roster.listed
  refine keeps_missing (watches_permits conditions list) (roster.forgives hf) ?_ ?_
  · rintro ps' last listed hlast hfull hv
    exact hover last (same listed ▸ hlast) hfull hv
  · rintro ps' missing listed hmisses
    obtain rfl := same listed
    cases hmisses with
    | next hnext' hfull => exact hnext _ hnext' hfull
    | nothing hlast hidle => exact hnone _ hlast hidle

/-! ### Statements -/

/-- The default is at the last partition. -/
structure Settled (list : SlidingList) (catalog : Catalog) (ps : List Partition) : Prop where
  roster : Roster list catalog ps
  default : ∃ last, ps.getLast? = some last ∧ DefaultsTo list catalog last.value

/-- A retried statement is executed once, or the catalog stays as it was. -/
theorem upholds_statement {retrier : Ddl.Retrier} (hs : conditions.applies retrier.session)
    {sql : String} (timing : Ddl.Timing) (fits : Fits list catalog sql)
    (hf : Excused conditions failed catalog)
    {ok : Ddl.Outcome → Catalog → Prop}
    (hok : ∀ attempts, ok (.completed attempts) (catalog.execute sql)) :
    Upholds conditions list ok failed (retrier.run sql timing true) catalog :=
  keeps_retried (overlooks conditions list) timing
    ⟨⟨hs, fits⟩, fun _ => ⟨hs, .setLockTimeout _ _ _⟩, ⟨hs, .resetLockTimeout _ _⟩,
      ⟨hs, .resetLockTimeout _ _⟩⟩ (fun h => hf (.inl h)) hok

theorem upholds_afterAdding (hs : conditions.applies list.session) (hplain : list.IsPlain)
    (roster : Roster list catalog ps) (hne : ps ≠ [])
    (hf : Excused conditions failed catalog) {ok : Unit → Catalog → Prop}
    (hok : ∀ catalog', Settled list catalog' ps → ok () catalog') :
    Upholds conditions list ok failed list.afterAdding catalog := by
  obtain ⟨last, hl⟩ : ∃ last, ps.getLast? = some last :=
    Option.ne_none_iff_exists'.1 (mt List.getLast?_eq_none_iff.1 hne)
  refine Task.keeps_bind.2
    (keeps_active (watches_permits conditions list) (roster.forgives hf) ?_ ?_)
  · intro listed
    exact absurd (listed.unique roster.listed).symm hne
  intro ps' last' listed hl'
  obtain rfl := listed.unique roster.listed
  obtain rfl : last = last' := Option.some.inj (hl.symm.trans hl')
  refine Task.keeps_bind.2 ?_
  refine upholds_statement hs _ (.moveDefault roster hl) hf fun _ => ?_
  obtain ⟨roster', hdefault⟩ := roster.moveDefault hplain last.value
  refine Task.keeps_liftM.2 ((overlooks conditions list).keeps_log (hok _ ⟨roster', last, hl, ?_⟩))
  exact ⟨_, hdefault, Condition.default?_ofInt64 _⟩

/-- Whether the default lags is asked only if nothing is missing. -/
theorem upholds_lags (roster : Roster list catalog ps) {last : Partition}
    (hl : ps.getLast? = some last) {value? : Option Int64}
    (hvalue : ReadsDefault list catalog value?)
    (hf : Excused conditions failed catalog) {ok : Bool → Catalog → Prop}
    (hok : ok (value?.any (· != last.value)) catalog) :
    Upholds conditions list ok failed list.lags catalog := by
  refine keeps_lags (watches_permits conditions list) (roster.forgives hf) hvalue.forgives ?_ ?_
  · intro listed
    obtain rfl := listed.unique roster.listed
    cases hl
  · intro ps' last' value?' listed hl' hvalue'
    obtain rfl := listed.unique roster.listed
    obtain rfl : last = last' := Option.some.inj (hl.symm.trans hl')
    exact hvalue.unique hvalue' ▸ hok

/-! ### What to detach -/

/-- What is to be detached are the first partitions, and never the last one. -/
theorem upholds_extra (settled : Settled list catalog ps)
    (hf : Excused conditions failed catalog) {ok : List Partition → Catalog → Prop}
    (hok : ∀ retired rest, ps = retired ++ rest → rest ≠ [] →
      Retires conditions retired rest.dropLast → ok retired catalog) :
    Upholds conditions list ok failed list.extra catalog := by
  obtain ⟨last, hl, hdefault⟩ := settled.default
  obtain ⟨front, hps⟩ := List.getLast?_eq_some_iff.1 hl
  have hvalue : ReadsDefault list catalog (some last.value) := hdefault
  refine keeps_extra (watches_permits conditions list) (settled.roster.forgives hf)
    hvalue.forgives (fun hnone => nomatch hvalue.unique hnone) ?_
  intro ps' value retired rest listed hvalue' heq hretires
  obtain rfl := listed.unique settled.roster.listed
  obtain rfl : last.value = value := Option.some.inj (hvalue.unique hvalue')
  have hfront : ps'.dropLast = front := by rw [hps, List.dropLast_concat]
  rw [hfront] at heq
  -- The last partition is not among them, and no other has its value.
  have hother : ∀ partition ∈ retired, partition.value ≠ last.value := by
    intro partition hm
    have hascending := settled.roster.ascending
    rw [hps, heq, List.append_assoc] at hascending
    exact Int64.ne_of_lt ((List.pairwise_append.1 hascending).2.2 partition hm last (by simp))
  have hall : (retired.filter fun partition => partition.value != last.value) = retired :=
    List.filter_eq_self.2 fun partition hm => bne_iff_ne.2 (hother partition hm)
  refine ⟨fun ⟨partition, hm, heq⟩ => absurd heq (hother partition hm), ?_⟩
  rw [hall]
  refine hok retired (rest ++ [last]) ?_ (by simp) ?_
  · rw [hps, heq, List.append_assoc]
  · rwa [List.dropLast_concat]

/-- Without a default nothing can be detached. -/
theorem upholds_extra_of_no_default (roster : Roster list catalog ps)
    (hnone : ReadsDefault list catalog none)
    (hf : Excused conditions failed catalog) {ok : List Partition → Catalog → Prop}
    (hfail : failed (.setup (.noDefault list.model.name list.column)) catalog) :
    Upholds conditions list ok failed list.extra catalog := by
  refine keeps_extra (watches_permits conditions list) (roster.forgives hf) hnone.forgives
    (fun _ => hfail) ?_
  intro ps' value retired rest listed hvalue
  have hread : ReadsDefault list catalog (some value) := hvalue
  cases hnone.unique hread

/-! ### A run -/

variable {manager : Manager}

/-- Reports do not matter. -/
private theorem upholds_report {account : Account} {meter : Meter} {event : Event}
    (hmeter : meter ≠ .inconsistentPartitions) {task : Task α} {ok : α → Catalog → Prop}
    (h : Upholds conditions list ok failed task catalog) :
    Upholds conditions list ok failed
      (do
        Service.count account meter
        Service.log event
        task) catalog := by
  refine Task.keeps_bind.2 (Task.keeps_liftM.2 ((overlooks conditions list).keeps_count hmeter ?_))
  exact Task.keeps_bind.2 (Task.keeps_liftM.2 ((overlooks conditions list).keeps_log h))

/-- A statement of a run and its report. -/
private theorem upholds_entry (hs : conditions.applies manager.session)
    {statement : Sql.Statement} (fits : Fits list catalog statement.text)
    (hf : Excused conditions failed catalog) {account : Account} {meter : Meter} {event : Event}
    (hmeter : meter ≠ .inconsistentPartitions) {task : Task Unit} {ok : Unit → Catalog → Prop}
    (h : Upholds conditions list ok failed task (catalog.execute statement.text)) :
    Upholds conditions list ok failed
      (do
        manager.execute statement
        Service.count account meter
        Service.log event
        task) catalog :=
  Task.keeps_bind.2 (Task.keeps_bind.2 (upholds_statement hs _ fits hf fun _ =>
    Task.keeps_pure.2 (upholds_report hmeter h)))

/-- The next partition is created. -/
theorem upholds_create (hs : conditions.applies manager.session) (hplain : list.IsPlain)
    (roster : Roster list catalog ps)
    {partition : Partition} (hnext : IsNext list ps partition)
    (hf : Excused conditions failed catalog) {ok : Unit → Catalog → Prop}
    (hok : ∀ catalog', Roster list catalog' (ps ++ [partition]) →
      catalog'.default? list.table list.column = catalog.default? list.table list.column →
        ok () catalog') :
    Upholds conditions list ok failed (manager.create [partition]) catalog := by
  obtain ⟨hroster, hdefault⟩ := roster.create hplain hnext
  refine upholds_entry hs (.create roster hnext) hf Meter.noConfusion ?_
  exact Task.keeps_pure.2 (hok _ hroster (hdefault _))

/-- The first partitions are detached, and the last one is left. -/
theorem upholds_detach (hs : conditions.applies manager.session) (hplain : list.IsPlain)
    {retired rest : List Partition} (hne : rest ≠ [])
    (settled : Settled list catalog (retired ++ rest))
    (hf : ∀ catalog' left, left <:+ retired ++ rest → Settled list catalog' left →
      Excused conditions failed catalog')
    {ok : Unit → Catalog → Prop} (hok : ∀ catalog', Settled list catalog' rest → ok () catalog') :
    Upholds conditions list ok failed (manager.detach retired) catalog := by
  induction retired generalizing catalog with
  | nil => exact Task.keeps_pure.2 (hok catalog settled)
  | cons partition retired ih =>
      obtain ⟨roster, last, hl, expression, hd, hread⟩ := settled
      obtain ⟨first, others, hcons⟩ := List.exists_cons_of_ne_nil
        (List.append_ne_nil_of_right_ne_nil retired hne)
      have hl' : (retired ++ rest).getLast? = some last := by
        rw [hcons]
        rwa [List.cons_append, hcons, List.getLast?_cons_cons] at hl
      obtain ⟨hroster, hdefault⟩ := roster.detach hplain
      refine upholds_entry hs (.detach roster hl' ⟨expression, hd, hread⟩)
        (hf catalog _ (List.suffix_refl _) ⟨roster, last, hl, expression, hd, hread⟩)
        Meter.noConfusion ?_
      refine ih ⟨hroster, last, hl', expression, by rw [hdefault, hd], hread⟩ ?_
      exact fun catalog' left hleft => hf catalog' left (hleft.trans (List.suffix_cons _ _))

/-- The partitions after a run has created what was missing. -/
def Extends (list : SlidingList) (ps all : List Partition) : Prop :=
  all = ps ∨ ∃ partition, IsNext list ps partition ∧ all = ps ++ [partition]

/-- What a run may leave behind when it fails. -/
inductive Within (list : SlidingList) (before : Catalog) (ps : List Partition) (after : Catalog) :
    Prop where
  /-- It has done nothing. -/
  | same (eq : after = before)
  /-- It has created a partition, and the default is where it was. -/
  | extended {partition : Partition} (next : IsNext list ps partition)
      (roster : Roster list after (ps ++ [partition]))
      (default : after.default? list.table list.column = before.default? list.table list.column)
  /-- It has moved the default, and detached some of the first partitions or none. -/
  | settled {all left : List Partition} (extends_ : Extends list ps all) (suffix_ : left <:+ all)
      (settled : Settled list after left)

/-- Why a run fails although nothing around it does: the table has partitions, but there is
no default and no reason to create another partition; or there is one, and the highest value
of all is taken. -/
inductive Stuck (conditions : Conditions) (list : SlidingList) (catalog : Catalog)
    (ps : List Partition) : Error → Prop where
  | noDefault {last : Partition} (getLast : ps.getLast? = some last)
      (full : conditions.isFull last.value false) (default : ReadsDefault list catalog none) :
      Stuck conditions list catalog ps (.setup (.noDefault list.model.name list.column))
  | valueOverflow {last : Partition} (getLast : ps.getLast? = some last)
      (full : conditions.isFull last.value true) (next : nextValue? last.value = none) :
      Stuck conditions list catalog ps
        (.partitioning (.valueOverflow list.table last.value))

/-- How a run may fail. -/
def Fails (conditions : Conditions) (list : SlidingList) (before : Catalog) (ps : List Partition)
    (error : Error) (after : Catalog) : Prop :=
  (conditions.faults ∧ Within list before ps after) ∨
    (after = before ∧ Stuck conditions list before ps error)

/-- How a run may succeed: the default is at the last of the partitions that are left, and the
first of them is needed unless it is the last one.  If there was no default then a partition
was created, and if one had to be then there was a value for it. -/
structure Succeeds (conditions : Conditions) (list : SlidingList) (before : Catalog)
    (ps : List Partition) (after : Catalog) : Prop where
  settled : ∃ all left, Extends list ps all ∧ left <:+ all ∧ Settled list after left
  full : ReadsDefault list before none →
    ∀ last, ps.getLast? = some last → conditions.isFull last.value true
  room : ∀ last, ps.getLast? = some last →
    conditions.isFull last.value false ∨ ∃ value, nextValue? last.value = some value
  trimmed : ∀ left, Settled list after left →
    ∀ first, left.dropLast.head? = some first → conditions.isRetired first.value false

theorem Succeeds.within {before after : Catalog} (h : Succeeds conditions list before ps after) :
    Within list before ps after := by
  obtain ⟨all, left, hall, hleft, hsettled⟩ := h.settled
  exact .settled hall hleft hsettled

theorem Fails.within {before after : Catalog} {error : Error}
    (h : Fails conditions list before ps error after) : Within list before ps after := by
  rcases h with ⟨-, hwithin⟩ | ⟨heq, -⟩
  · exact hwithin
  · exact .same heq

/-- Once the default is at the last partition, the rest of a run detaches. -/
private theorem upholds_finish (hs : conditions.applies manager.session) (hplain : list.IsPlain)
    {before : Catalog} {all missing : List Partition} (hall : Extends list ps all)
    (settled : Settled list catalog all)
    (hfull : ReadsDefault list before none →
      ∀ last, ps.getLast? = some last → conditions.isFull last.value true)
    (hroom : ∀ last, ps.getLast? = some last →
      conditions.isFull last.value false ∨ ∃ value, nextValue? last.value = some value) :
    Upholds conditions list (fun _ after => Succeeds conditions list before ps after)
      (Fails conditions list before ps)
      (do
        let extra ← list.strategy.extra
        manager.detach extra
        return ({ created := missing, detached := extra } : SyncReport)) catalog := by
  refine Task.keeps_bind.2 (upholds_extra settled (fun h error => ?_) ?_)
  · exact .inl ⟨h, .settled hall (List.suffix_refl _) settled⟩
  · rintro retired rest rfl hne hretires
    refine Task.keeps_bind.2 (upholds_detach hs hplain hne settled ?_ fun catalog' hsettled => ?_)
    · exact fun catalog' left hleft hsettled h error => .inl ⟨h, .settled hall hleft hsettled⟩
    · refine Task.keeps_pure.2 ⟨⟨_, rest, hall, List.suffix_append _ _, hsettled⟩, hfull, hroom,
        fun left hsettled' => ?_⟩
      obtain rfl : left = rest := hsettled'.roster.unique hsettled.roster
      exact hretires.head

/-- What is missing is created, and the default moves to it. -/
private theorem upholds_extend_next (hm : conditions.applies manager.session)
    (hl : conditions.applies list.session) (hstrategy : manager.strategy = list.strategy)
    (hplain : list.IsPlain) (roster : Roster list catalog ps) {partition : Partition}
    (hnext : IsNext list ps partition) (hf : Excused conditions failed catalog)
    (hf' : ∀ catalog', Roster list catalog' (ps ++ [partition]) →
      catalog'.default? list.table list.column = catalog.default? list.table list.column →
        Excused conditions failed catalog')
    {ok : Unit → Catalog → Prop}
    (hok : ∀ catalog', Settled list catalog' (ps ++ [partition]) → ok () catalog') :
    Upholds conditions list ok failed (manager.extend [partition]) catalog := by
  rw [Manager.extend, hstrategy]
  refine Task.keeps_bind.2 (upholds_create hm hplain roster hnext hf fun catalog' hroster hd => ?_)
  exact upholds_afterAdding hl hplain hroster (by simp) (hf' catalog' hroster hd) hok

/-- If nothing is missing then a default that lags is moved. -/
private theorem upholds_extend_nil (hl : conditions.applies list.session)
    (hstrategy : manager.strategy = list.strategy) (hplain : list.IsPlain)
    (roster : Roster list catalog ps) {last : Partition} (hlast : ps.getLast? = some last)
    {value : Int64} (hvalue : DefaultsTo list catalog value)
    (hf : Excused conditions failed catalog) {ok : Unit → Catalog → Prop}
    (hok : ∀ catalog', Settled list catalog' ps → ok () catalog') :
    Upholds conditions list ok failed (manager.extend []) catalog := by
  have hread : ReadsDefault list catalog (some value) := hvalue
  rw [Manager.extend, hstrategy]
  refine Task.keeps_bind.2 (upholds_lags roster hlast hread hf ?_)
  by_cases heq : value = last.value
  · simp only [Option.any_some, heq, bne_self_eq_false, Bool.false_eq_true, if_false]
    exact Task.keeps_pure.2 (hok catalog ⟨roster, last, hlast, heq ▸ hvalue⟩)
  · have hne : ps ≠ [] := List.ne_nil_of_mem (List.mem_of_getLast? hlast)
    simp only [Option.any_some, bne_iff_ne.2 heq, if_true]
    refine Task.keeps_bind.2 (Task.keeps_liftM.2 ((overlooks conditions list).keeps_log ?_))
    exact upholds_afterAdding hl hplain roster hne hf hok

/-- Without a default nothing lags. -/
private theorem upholds_extend_nil_of_no_default (hstrategy : manager.strategy = list.strategy)
    (roster : Roster list catalog ps) {last : Partition} (hlast : ps.getLast? = some last)
    (hnone : ReadsDefault list catalog none) (hf : Excused conditions failed catalog)
    {ok : Unit → Catalog → Prop} (hok : ok () catalog) :
    Upholds conditions list ok failed (manager.extend []) catalog := by
  rw [Manager.extend, hstrategy]
  exact Task.keeps_bind.2 (upholds_lags roster hlast hnone hf (Task.keeps_pure.2 hok))

variable (conditions) in
/-- **A run** makes fitting statements only.  If it succeeds then the default is at the last
of the partitions that are left.  If it fails then something around it has failed, or it is
stuck and has done nothing. -/
theorem upholds_syncLocked (hm : conditions.applies manager.session)
    (hl : conditions.applies list.session) (hstrategy : manager.strategy = list.strategy)
    (hplain : list.IsPlain)
    (roster : Roster list catalog ps) {value? : Option Int64}
    (hvalue : ReadsDefault list catalog value?) :
    Upholds conditions list (fun _ after => Succeeds conditions list catalog ps after)
      (Fails conditions list catalog ps) manager.syncLocked catalog := by
  have hsame : conditions.faults → ∀ error, Fails conditions list catalog ps error catalog :=
    fun h _ => .inl ⟨h, .same rfl⟩
  unfold Manager.syncLocked
  rw [hstrategy]
  refine Task.keeps_bind.2 (upholds_missing roster hsame ?_ ?_ ?_)
  · intro partition hnext hfull
    have hall : Extends list ps (ps ++ [partition]) := .inr ⟨partition, hnext, rfl⟩
    refine Task.keeps_bind.2 (upholds_extend_next hm hl hstrategy hplain roster hnext hsame
      (fun catalog' hroster hdefault h _ => .inl ⟨h, .extended hnext hroster hdefault⟩)
      fun catalog' hsettled => ?_)
    exact upholds_finish hm hplain hall hsettled (fun _ => hfull)
      fun last hlast => .inr ⟨_, hnext.follows last hlast⟩
  · intro last hlast hidle
    have hroom : ∀ last', ps.getLast? = some last' →
        conditions.isFull last'.value false ∨ ∃ value, nextValue? last'.value = some value := by
      intro last' hlast'
      obtain rfl : last = last' := Option.some.inj (hlast.symm.trans hlast')
      exact .inl hidle
    match value? with
    | none =>
        -- Nothing lags, and then it is not known what to detach.
        refine Task.keeps_bind.2 (upholds_extend_nil_of_no_default hstrategy roster hlast hvalue
          hsame (Task.keeps_bind.2 (upholds_extra_of_no_default roster hvalue hsame ?_)))
        exact .inr ⟨rfl, .noDefault hlast hidle hvalue⟩
    | some value =>
        have hread : ¬ReadsDefault list catalog none := fun hnone => by
          obtain ⟨expression, hd, -⟩ := hvalue
          rw [ReadsDefault, hd] at hnone
          cases hnone
        refine Task.keeps_bind.2 (upholds_extend_nil hl hstrategy hplain roster hlast hvalue hsame
          fun catalog' hsettled => ?_)
        exact upholds_finish hm hplain (.inl rfl) hsettled (fun h => absurd h hread) hroom
  · intro last hlast hfull hv
    exact .inr ⟨rfl, .valueOverflow hlast hfull hv⟩

/-! ### The lease of a run -/

/-- Work under a lease does to the catalog what the work does. -/
private theorem upholds_holding {work : Job Service α} {key : String} {ttl : Duration}
    {ok : Option α → Catalog → Prop}
    (hwork : work.Keeps (database conditions) (Permits conditions list)
      (fun value after => ok (some value) after) (fun _ _ => False) catalog)
    (hnone : ok none catalog) (hf : Excused conditions failed catalog) :
    Upholds conditions list ok failed (Lease.holding key ttl work) catalog := by
  refine Lease.keeps_holding_iff.2 (Service.keeps_ask.2
    ⟨trivial, fun answer ha => ?_, fun hi _ => hi⟩)
  match answer with
  | .error error => exact hf (.inr ha) error
  | .ok none => exact (overlooks conditions list).keeps_log hnone
  | .ok (some token) =>
      refine Lease.Guard.keeps_protect_iff.2 (Service.keeps_log.2
        ⟨trivial, fun _ _ => ?_, fun hi => hi.elim⟩)
      refine hwork.mono (fun _ _ hr => hr) (fun value after hok => ?_) fun _ _ h => h.elim
      exact Lease.Guard.keeps_release_of_kept
        (Service.keeps_ask.2 ⟨trivial, fun _ _ => hok, fun hi _ => hi⟩)
        fun _ _ hok => (overlooks conditions list).keeps_log hok

variable (conditions) in
/-- **A sync** is a run, or it leaves the table to another worker. -/
theorem upholds_sync (hm : conditions.applies manager.session)
    (hl : conditions.applies list.session) (hstrategy : manager.strategy = list.strategy)
    (hplain : list.IsPlain) (roster : Roster list catalog ps) {value? : Option Int64}
    (hvalue : ReadsDefault list catalog value?) :
    Upholds conditions list
      (fun report? after => match report? with
        | some _ => Succeeds conditions list catalog ps after
        | none => after = catalog)
      (Fails conditions list catalog ps) manager.sync catalog := by
  have hrun := upholds_syncLocked conditions hm hl hstrategy hplain roster hvalue
  refine Task.keeps_bind.2 (upholds_holding (Job.Keeps.mono hrun (fun _ _ hr => hr) ?_
    fun _ _ h => h) ?_ fun h error => .inl ⟨h, .same rfl⟩)
  · intro result after h
    match result with
    | .ok report => exact Task.keeps_map.2 (Task.keeps_attempt.2 h)
    | .error error => exact Task.keeps_map.2 (Task.keeps_attempt.2 h)
  · exact upholds_report Meter.noConfusion (Task.keeps_pure.2 rfl)

end Upkeep.Partition
