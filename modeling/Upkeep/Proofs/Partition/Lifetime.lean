import Upkeep.Proofs.Partition.Database
import Upkeep.Proofs.Simulation.Frame
import Upkeep.Proofs.Simulation.Steps

/-!
# The lifetime of a table

Run after run of upkeep on one table in the simulated world, in which statements may fail
and the application may change its mind between the runs.  Whatever happens, after every
statement the table is in order, its values only ever grow, and a partition that was
detached does not come back.

## Main Definitions

* `Hosts` — a world that answers as conditions say.
* `Interlude`, `lifetime` — what may change between two runs, and the steps of all runs.
* `Slides` — what holds of the steps.

## Main Statements

* `Hosts.keeps` — what is true of a catalog that nobody else changes is true in the world.
* `partitions_slide` — a table slides for all its lifetime.
-/

namespace Upkeep.Partition

open Simulation

variable {α : Type} {list : SlidingList} {manager : Manager} {world : World}
  {conditions : Conditions}

/-! ### Upkeep in the simulated world -/

/-- The world answers as the conditions say. -/
structure Hosts (conditions : Conditions) (world : World) : Prop where
  applies : ∀ session, conditions.applies session → (world.session session).applies = true
  isFull : ∀ value, conditions.isFull value (world.isFull value)
  isRetired : ∀ value, conditions.isRetired value (world.isRetired value)
  smooth : conditions.failures ∨
    ∀ session, conditions.applies session → (world.session session).failures = []
  reachable : conditions.outages ∨ world.hidesCatalog = false ∧ world.leaseFaults.obtain = false

namespace Hosts

/-- What the conditions are about, apart from the catalog. -/
structure Alike (world after : World) : Prop where
  sessions : after.sessions = world.sessions
  isFull : after.isFull = world.isFull
  isRetired : after.isRetired = world.isRetired
  hidesCatalog : after.hidesCatalog = world.hidesCatalog
  leaseFaults : after.leaseFaults = world.leaseFaults

theorem of_alike (h : Hosts conditions world) {after : World} (ha : Alike world after) :
    Hosts conditions after := by
  have hsession : ∀ session, after.session session = world.session session := fun session => by
    simp only [World.session, ha.sessions]
  refine ⟨fun session hs => ?_, fun value => ?_, fun value => ?_, ?_, ?_⟩
  · rw [hsession]
    exact h.applies session hs
  · rw [ha.isFull]
    exact h.isFull value
  · rw [ha.isRetired]
    exact h.isRetired value
  · simp only [hsession]
    exact h.smooth
  · rw [ha.hidesCatalog, ha.leaseFaults]
    exact h.reachable

/-- A session may remember another statement, and have fewer failures ahead. -/
theorem setSession (h : Hosts conditions world) {session : Session} {state : SessionState}
    (happlies : state.applies = (world.session session).applies)
    (hfailures : (world.session session).failures = [] → state.failures = []) :
    Hosts conditions (world.setSession session state) := by
  refine ⟨fun session' hs => ?_, h.isFull, h.isRetired, h.smooth.imp id ?_, h.reachable⟩
  · rw [World.session_setSession]
    split
    · next heq => exact happlies.trans (heq ▸ h.applies session' hs)
    · exact h.applies session' hs
  · intro hnone session' hs
    rw [World.session_setSession]
    split
    · next heq => exact hfailures (heq ▸ hnone session' hs)
    · exact hnone session' hs

/-- A statement of a session that the conditions are about. -/
theorem execute (h : Hosts conditions world) {session : Session}
    (hs : conditions.applies session) (sql : String) :
    (database conditions).replies world.catalog (.execute session sql)
        (world.execute session sql).1 ∧
      Hosts conditions (world.execute session sql).2 ∧
      (world.execute session sql).2.catalog =
        (database conditions).after world.catalog (.execute session sql)
          (world.execute session sql).1 := by
  have happlies := h.applies session hs
  have hfailures : (world.session session).failures = [] →
      (ScriptedFailure.strike sql (world.session session).failures).2 = [] := fun hnil => by
    rw [hnil]
    rfl
  unfold World.execute
  simp only [happlies, if_true]
  cases hstrike : (ScriptedFailure.strike sql (world.session session).failures).1 with
  | some failure =>
      refine ⟨h.smooth.resolve_right fun hsmooth => ?_, h.setSession happlies.symm hfailures, rfl⟩
      rw [hsmooth session hs] at hstrike
      cases hstrike
  | none =>
      exact ⟨trivial,
        (h.setSession happlies.symm hfailures).of_alike ⟨rfl, rfl, rfl, rfl, rfl⟩, rfl⟩

/-- The answer to a request that is no statement. -/
theorem replies_answer (h : Hosts conditions world) {r : Service.Request}
    (hr : ∀ session sql, r ≠ .execute session sql) :
    (database conditions).replies world.catalog r (world.answer r).1 := by
  cases r with
  | execute session sql => exact absurd rfl (hr session sql)
  | obtainLease key ttl =>
      simp only [World.answer, World.obtainLease]
      split
      · next hfault =>
          refine h.reachable.resolve_right fun hreachable => ?_
          rw [hreachable.2] at hfault
          cases hfault
      · exact trivial
  | listPartitions table =>
      simp only [World.answer, World.listPartitions]
      split
      · next hhides =>
          refine h.reachable.resolve_right fun hreachable => ?_
          rw [hreachable.1] at hhides
          cases hhides
      · rfl
  | readDefault table column =>
      simp only [World.answer, World.readDefault]
      split
      · next hhides =>
          refine h.reachable.resolve_right fun hreachable => ?_
          rw [hreachable.1] at hhides
          cases hhides
      · rfl
  | isFull value => exact h.isFull value
  | isRetired value => exact h.isRetired value
  | _ => exact trivial

/-- Every request is answered as the conditions say, statements of other sessions apart. -/
theorem answer_of_applies (h : Hosts conditions world) {r : Service.Request}
    (hr : ∀ session sql, r = .execute session sql → conditions.applies session) :
    (database conditions).replies world.catalog r (world.answer r).1 ∧
      Hosts conditions (world.answer r).2 ∧
      (world.answer r).2.catalog =
        (database conditions).after world.catalog r (world.answer r).1 := by
  by_cases hexecute : ∃ session sql, r = .execute session sql
  · obtain ⟨session, sql, rfl⟩ := hexecute
    exact h.execute (hr session sql rfl) sql
  · have hother : ∀ session sql, r ≠ .execute session sql :=
      fun session sql heq => hexecute ⟨session, sql, heq⟩
    have hframe := World.frame_answer r world
    obtain ⟨hsessions, hcatalog⟩ := hframe.database hother
    refine ⟨h.replies_answer hother, h.of_alike ⟨hsessions, hframe.isFull, hframe.isRetired,
      hframe.hidesCatalog, hframe.leaseFaults⟩, hcatalog.trans ?_⟩
    cases r with
    | execute session sql => exact absurd rfl (hother session sql)
    | _ => rfl

/-- Every request that the conditions permit is answered as they say. -/
theorem answer (h : Hosts conditions world) {r : Service.Request}
    (hr : Permits conditions list world.catalog r) :
    (database conditions).replies world.catalog r (world.answer r).1 ∧
      Hosts conditions (world.answer r).2 ∧
      (world.answer r).2.catalog =
        (database conditions).after world.catalog r (world.answer r).1 := by
  refine h.answer_of_applies ?_
  rintro session sql rfl
  exact hr.1

/-- **What is true of a catalog that nobody else changes** is true in the world, if only
statements that change the catalog are made. -/
theorem keeps_of_applies (h : Hosts conditions world) {job : Job Service α}
    {rule : Catalog → Service.Request → Prop} {ok : α → Catalog → Prop}
    {stopped : Interruption → Catalog → Prop}
    (hrule : ∀ catalog session sql, rule catalog (.execute session sql) →
      conditions.applies session)
    (hjob : job.Keeps (database conditions) rule ok stopped world.catalog) :
    job.Keeps World.answers (fun world r => Hosts conditions world ∧ rule world.catalog r)
      (fun value world => Hosts conditions world ∧ ok value world.catalog)
      (fun why world => Hosts conditions world ∧ stopped why world.catalog) world := by
  refine hjob.project h ?_ (fun _ _ hs => ⟨hs.of_alike ⟨rfl, rfl, rfl, rfl, rfl⟩, rfl⟩) id
  rintro world r _ hs hr rfl
  refine hs.answer_of_applies ?_
  rintro session sql rfl
  exact hrule _ _ _ hr

/-- So it is for the statements that the conditions permit. -/
theorem keeps (h : Hosts conditions world) {job : Job Service α} {ok : α → Catalog → Prop}
    {stopped : Interruption → Catalog → Prop}
    (hjob : job.Keeps (database conditions) (Permits conditions list) ok stopped world.catalog) :
    job.Keeps World.answers
      (fun world r => Hosts conditions world ∧ Permits conditions list world.catalog r)
      (fun value world => Hosts conditions world ∧ ok value world.catalog)
      (fun why world => Hosts conditions world ∧ stopped why world.catalog) world :=
  h.keeps_of_applies (fun _ _ _ hr => hr.1) hjob

end Hosts

/-! ### Steps of upkeep -/

/-- The value of the partition that a step creates. -/
def created? (list : SlidingList) (step : Step) : Option Int64 :=
  match step.request with
  | .execute session sql =>
      match (step.world.execute session sql).1 with
      | .ok () => attachedValue? list sql
      | .error _ => none
  | _ => none

/-- What a step of upkeep does to the table of the list. -/
structure Slide (list : SlidingList) (step : Step) : Prop where
  inOrder : InOrder list step.world.catalog → InOrder list step.after.catalog
  advance : Advance list.table step.world.catalog step.after.catalog
  kept : ∀ listing, IsHighest list.table step.world.catalog listing →
    listing ∈ step.after.catalog.partitions list.table
  created : ∀ value, created? list step = some value →
    (∀ other ∈ step.world.catalog.values list.table, other < value) ∧
      value ∈ step.after.catalog.values list.table

/-- **A step of upkeep** is a statement that fits and succeeds, or the catalog stays as it
is. -/
theorem slide_of_permits (hplain : list.IsPlain) {step : Step} (h : Hosts conditions step.world)
    (hr : Permits conditions list step.world.catalog step.request) : Slide list step := by
  have hafter : step.after.catalog = (database conditions).after step.world.catalog step.request
      (step.world.answer step.request).1 := (h.answer hr).2.2
  have same (heq : step.after.catalog = step.world.catalog) (hnone : created? list step = none) :
      Slide list step := by
    refine ⟨fun horder => heq ▸ horder, heq ▸ .refl _ _, fun listing hl => heq ▸ hl.1, ?_⟩
    intro value hv
    rw [hnone] at hv
    cases hv
  obtain ⟨world, request⟩ := step
  cases request with
  | execute session sql =>
      obtain ⟨-, hfits⟩ := hr
      cases hresult : (world.execute session sql).1 with
      | error failure =>
          refine same ?_ (by simp [created?, hresult])
          rw [hafter]
          simp only [World.answer, hresult]
          rfl
      | ok done =>
          have heq : (Step.after ⟨world, .execute session sql⟩).catalog =
              world.catalog.execute sql := by
            rw [hafter]
            simp only [World.answer, hresult]
            rfl
          refine ⟨fun horder => heq ▸ hfits.inOrder hplain horder, heq ▸ hfits.advance hplain,
            fun listing hl => heq ▸ hfits.kept hplain hl, fun value hv => ?_⟩
          have hvalue : attachedValue? list sql = some value := by
            simpa [created?, hresult] using hv
          exact heq ▸ hfits.created hplain hvalue
  | _ => exact same hafter rfl

/-- Nothing but the steps changes the catalog. -/
def Linked : Catalog → List Step → Prop
  | _, [] => True
  | catalog, step :: steps => step.world.catalog = catalog ∧ Linked step.after.catalog steps

/-- The catalogs from the first one on, each after one more step. -/
def catalogs (start : Catalog) (steps : List Step) : List Catalog :=
  start :: steps.map fun step => step.after.catalog

theorem linked_append {start : Catalog} {steps steps' : List Step} (h : Linked start steps)
    (h' : ∀ last, (catalogs start steps).getLast? = some last → Linked last steps') :
    Linked start (steps ++ steps') := by
  induction steps generalizing start with
  | nil => exact h' start rfl
  | cons step steps ih =>
      refine ⟨h.1, ih h.2 fun last hl => h' last ?_⟩
      rwa [catalogs, List.map_cons, List.getLast?_cons_cons]

/-- The steps of a job that runs alone are linked, and lead to the catalog at its end. -/
theorem linked_steps (job : Job Service α) (world : World) :
    Linked world.catalog (job.steps world) ∧
      (catalogs world.catalog (job.steps world)).getLast? =
        some (job.run World.answer World.elapse world).2.catalog := by
  induction job generalizing world with
  | done value => exact ⟨trivial, rfl⟩
  | stop why => exact ⟨trivial, rfl⟩
  | sleep length next ih => exact ih _ (world.elapse length)
  | ask request next ih =>
      obtain ⟨hlinked, hlast⟩ := ih (.ok (world.answer request).1) (world.answer request).2
      refine ⟨⟨rfl, hlinked⟩, ?_⟩
      rw [catalogs, Job.steps, List.map_cons, List.getLast?_cons_cons]
      exact hlast

/-! ### A lifetime -/

/-- What holds of the steps of upkeep from one catalog on. -/
structure Slides (list : SlidingList) (start : Catalog) (steps : List Step) : Prop where
  /-- The values are distinct and without gaps, and the default is one of them. -/
  inOrder : ∀ step ∈ steps, InOrder list step.after.catalog
  /-- The highest value never falls. -/
  rising : (catalogs start steps).Pairwise fun catalog catalog' =>
    ∀ value ∈ catalog.values list.table, ∃ value' ∈ catalog'.values list.table, value ≤ value'
  /-- The partition of the highest value is never detached. -/
  kept : ∀ step ∈ steps, ∀ listing, IsHighest list.table step.world.catalog listing →
    listing ∈ step.after.catalog.partitions list.table
  /-- No value is created twice, nor one that was there from the start. -/
  once : (start.values list.table ++ steps.filterMap (created? list)).Nodup
  /-- What is gone does not come back. -/
  gone : ∀ catalog catalog' catalog'',
    [catalog, catalog', catalog''].Sublist (catalogs start steps) →
      ∀ value ∈ catalog.values list.table, value ∉ catalog'.values list.table →
        value ∉ catalog''.values list.table

section Slides

variable {start : Catalog} {steps : List Step}

private theorem inOrder_of_slide (hlinked : Linked start steps)
    (hslide : ∀ step ∈ steps, Slide list step) (horder : InOrder list start) :
    ∀ catalog ∈ catalogs start steps, InOrder list catalog := by
  induction steps generalizing start with
  | nil => simpa [catalogs] using horder
  | cons step steps ih =>
      obtain ⟨rfl, hlinked⟩ := hlinked
      have hafter := (hslide step List.mem_cons_self).inOrder horder
      refine List.forall_mem_cons.2 ⟨horder, ?_⟩
      exact ih hlinked (fun other hm => hslide other (List.mem_cons_of_mem _ hm)) hafter

private theorem pairwise_advance (hlinked : Linked start steps)
    (hslide : ∀ step ∈ steps, Slide list step) :
    (catalogs start steps).Pairwise (Advance list.table) := by
  have : Trans (Advance list.table) (Advance list.table) (Advance list.table) :=
    ⟨fun h h' => h.trans h'⟩
  refine List.IsChain.pairwise ?_
  induction steps generalizing start with
  | nil => exact .singleton _
  | cons step steps ih =>
      obtain ⟨rfl, hlinked⟩ := hlinked
      refine List.isChain_cons_cons.2 ⟨(hslide step List.mem_cons_self).advance, ?_⟩
      exact ih hlinked fun other hm => hslide other (List.mem_cons_of_mem _ hm)

/-- What is created is higher than all that was there or was created before. -/
private theorem pairwise_created (hlinked : Linked start steps)
    (hslide : ∀ step ∈ steps, Slide list step) :
    (∀ value ∈ start.values list.table, ∀ new ∈ steps.filterMap (created? list), value < new) ∧
      (steps.filterMap (created? list)).Pairwise (· < ·) := by
  induction steps generalizing start with
  | nil => simp
  | cons step steps ih =>
      obtain ⟨rfl, hlinked⟩ := hlinked
      have hstep := hslide step List.mem_cons_self
      obtain ⟨hold, hpairwise⟩ := ih hlinked
        fun other hm => hslide other (List.mem_cons_of_mem _ hm)
      have hbefore : ∀ value ∈ step.world.catalog.values list.table,
          ∀ new ∈ steps.filterMap (created? list), value < new := by
        intro value hm new hnew
        obtain ⟨value', hm', hle⟩ := hstep.advance.risen value hm
        exact Int64.lt_of_le_of_lt hle (hold value' hm' new hnew)
      cases hc : created? list step with
      | none =>
          rw [List.filterMap_cons_none hc]
          exact ⟨hbefore, hpairwise⟩
      | some created =>
          obtain ⟨hhigher, hthere⟩ := hstep.created created hc
          rw [List.filterMap_cons_some hc]
          refine ⟨fun value hm new hnew => ?_,
            List.pairwise_cons.2 ⟨hold created hthere, hpairwise⟩⟩
          rcases List.mem_cons.1 hnew with rfl | hnew
          · exact hhigher value hm
          · exact hbefore value hm new hnew

/-- What every step does adds up. -/
theorem slides_of_slide (hlinked : Linked start steps)
    (hslide : ∀ step ∈ steps, Slide list step) (horder : InOrder list start) :
    Slides list start steps := by
  have hadvance := pairwise_advance hlinked hslide
  obtain ⟨hhigher, hcreated⟩ := pairwise_created hlinked hslide
  refine ⟨fun step hm => ?_, hadvance.imp fun h => h.risen,
    fun step hm => (hslide step hm).kept, ?_, ?_⟩
  · exact inOrder_of_slide hlinked hslide horder _
      (List.mem_cons_of_mem _ (List.mem_map_of_mem hm))
  · refine List.nodup_append.2 ⟨horder.consecutive.nodup, ?_, fun value hm new hnew => ?_⟩
    · exact hcreated.imp Int64.ne_of_lt
    · exact Int64.ne_of_lt (hhigher value hm new hnew)
  · intro catalog catalog' catalog'' hsub
    have hthree := hadvance.sublist hsub
    obtain ⟨hfirst, hrest⟩ := List.pairwise_cons.1 hthree
    exact fun value => (hfirst catalog' (by simp)).gone ((List.pairwise_cons.1 hrest).1 _ (by simp))

end Slides

/-- What may change between two runs: anything but the catalog, and whether sessions
change it. -/
structure Interlude where
  change : World → World
  catalog_change : ∀ world, (change world).catalog = world.catalog
  applies_change : ∀ world session,
    ((change world).session session).applies = (world.session session).applies

/-- The steps of one run after the other, each after an interlude. -/
def lifetime (manager : Manager) : List Interlude → World → List Step
  | [], _ => []
  | interlude :: interludes, world =>
      manager.sync.toJob.steps (interlude.change world) ++
        lifetime manager interludes
          (manager.sync.toJob.run World.answer World.elapse (interlude.change world)).2

/-- Anything may fail, and the application may say anything. -/
def unruly (manager : Manager) (list : SlidingList) : Conditions where
  failures := True
  outages := True
  isFull _ _ := True
  isRetired _ _ := True
  applies session := session = manager.session ∨ session = list.session

theorem hosts_unruly :
    Hosts (unruly manager list) world ↔ (world.session manager.session).applies = true ∧
      (world.session list.session).applies = true := by
  constructor
  · exact fun h => ⟨h.applies _ (.inl rfl), h.applies _ (.inr rfl)⟩
  · rintro ⟨hm, hl⟩
    refine ⟨?_, fun _ => trivial, fun _ => trivial, .inl trivial, .inl trivial⟩
    rintro session (rfl | rfl)
    · exact hm
    · exact hl

/-- In a table in order the default can be read. -/
theorem InOrder.exists_readsDefault {catalog : Catalog} (h : InOrder list catalog) :
    ∃ value?, ReadsDefault list catalog value? := by
  cases hd : catalog.default? list.table list.column with
  | none => exact ⟨none, hd⟩
  | some expression =>
      obtain ⟨value, -, hread⟩ := h.default expression hd
      exact ⟨some value, expression, hd, hread⟩

/-- The steps of a lifetime are steps of upkeep, one after the other. -/
private theorem linked_lifetime (hstrategy : manager.strategy = list.strategy)
    (hplain : list.IsPlain) (interludes : List Interlude)
    (hhosts : Hosts (unruly manager list) world)
    (horder : InOrder list world.catalog) :
    Linked world.catalog (lifetime manager interludes world) ∧
      ∀ step ∈ lifetime manager interludes world, Slide list step := by
  induction interludes generalizing world with
  | nil => exact ⟨trivial, by simp [lifetime]⟩
  | cons interlude interludes ih =>
      have hcatalog := interlude.catalog_change world
      obtain ⟨happlies, happlies'⟩ := hosts_unruly.1 hhosts
      have hhosts : Hosts (unruly manager list) (interlude.change world) := by
        refine hosts_unruly.2 ⟨?_, ?_⟩
        · rw [interlude.applies_change, happlies]
        · rw [interlude.applies_change, happlies']
      obtain ⟨ps, roster, -⟩ := inOrder_iff.1 horder
      obtain ⟨value?, hvalue⟩ := horder.exists_readsDefault
      have hsync := upholds_sync (unruly manager list) (.inl rfl) (.inr rfl) hstrategy hplain roster
        hvalue
      rw [← hcatalog] at hsync
      have hkeeps := hhosts.keeps hsync
      have hslide : ∀ step ∈ manager.sync.toJob.steps (interlude.change world),
          Slide list step := by
        intro step hm
        obtain ⟨hthen, hpermits⟩ := Job.steps_of_keeps hkeeps step hm
        exact slide_of_permits hplain hthen hpermits
      obtain ⟨hlinked, hlast⟩ := linked_steps manager.sync.toJob (interlude.change world)
      rw [hcatalog] at hlinked hlast
      have hnext : InOrder list
          (manager.sync.toJob.run World.answer World.elapse (interlude.change world)).2.catalog :=
        inOrder_of_slide hlinked hslide horder _ (List.mem_of_getLast? hlast)
      have hhosts' : Hosts (unruly manager list)
          (manager.sync.toJob.run World.answer World.elapse (interlude.change world)).2 := by
        have hend := Job.run_of_keeps hkeeps
        split at hend
        · next heq => exact heq ▸ hend.1
        · next heq => exact heq ▸ hend.1
      obtain ⟨hlinked', hslide'⟩ := ih hhosts' hnext
      refine ⟨linked_append hlinked fun last hl => ?_, fun step hm => ?_⟩
      · obtain rfl := Option.some.inj (hlast.symm.trans hl)
        exact hlinked'
      · exact (List.mem_append.1 hm).elim (hslide step) (hslide' step)

/-- **A table slides for all its lifetime**, whatever fails and whatever the application
says. -/
theorem partitions_slide (hstrategy : manager.strategy = list.strategy) (hplain : list.IsPlain)
    (hm : (world.session manager.session).applies = true)
    (hl : (world.session list.session).applies = true) (horder : InOrder list world.catalog)
    (interludes : List Interlude) :
    Slides list world.catalog (lifetime manager interludes world) := by
  obtain ⟨hlinked, hslide⟩ :=
    linked_lifetime hstrategy hplain interludes (hosts_unruly.2 ⟨hm, hl⟩) horder
  exact slides_of_slide hlinked hslide horder

/-- What it takes to sync the small table. -/
def itemsManager : Manager := ⟨items.strategy, {}, ⟨0⟩, ⟨0⟩⟩

/-- The small table with two partitions, when the default is at the older one. -/
def lagging : World where
  catalog := (Catalog.attachValues {} "items" [3, 4]).setDefault "items" "partition" "3"
  sessions := [(⟨0⟩, { applies := true })]

private theorem inOrder_lagging : InOrder items lagging.catalog := by
  have hreadable : lagging.catalog.readable items.table =
      [named "items" 3 "partitions_dynamic", named "items" 4 "partitions_dynamic"] := by decide
  have hpartitions : lagging.catalog.partitions items.table =
      [⟨"partitions_dynamic", "items_3", "FOR VALUES IN ('3')"⟩,
        ⟨"partitions_dynamic", "items_4", "FOR VALUES IN ('4')"⟩] := by decide
  have hroster : Roster items lagging.catalog
      [named "items" 3 "partitions_dynamic", named "items" 4 "partitions_dynamic"] := by
    refine ⟨?_, .of_eq hreadable, by decide, ?_, ?_⟩
    · rw [hpartitions]
      exact List.forall_mem_cons.2 ⟨⟨named "items" 3 "partitions_dynamic", by decide⟩,
        List.forall_mem_singleton.2 ⟨named "items" 4 "partitions_dynamic", by decide⟩⟩
    · exact List.forall_mem_cons.2 ⟨rfl, List.forall_mem_singleton.2 rfl⟩
    · exact List.forall_mem_cons.2
        ⟨isPlain_items.schema, List.forall_mem_singleton.2 isPlain_items.schema⟩
  exact inOrder_iff.2 ⟨_, hroster, .cons_cons (follows_iff.2 (by decide)) (.singleton _),
    .inr ⟨_, List.mem_cons_self, "3", rfl, by decide⟩⟩

/-- The application gives up the older partition and finds the newer one full. -/
def change : Interlude where
  change world :=
    { world with isFull := fun value => value == 4, isRetired := fun value => value == 3 }
  catalog_change _ := rfl
  applies_change _ _ := rfl

/-- The table slides from there on through two runs. -/
theorem partitions_slide_lagging :
    Slides items lagging.catalog (lifetime itemsManager [change, change] lagging) :=
  partitions_slide rfl isPlain_items rfl rfl inOrder_lagging [change, change]

end Upkeep.Partition
