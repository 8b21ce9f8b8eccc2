import Upkeep.Proofs.Reindex.Identity
import Upkeep.Proofs.Reindex.Team

/-!
# Attempts side by side

An attempt is skipped only if somebody has the lease for work on its index.  So whoever works on
other indexes is not in the way, as long as the leases for those have other keys; and if the key
is the same then a schedule is easily found in which one attempt is skipped because of the other.

## Main Definitions

* `Unheld` — nobody has a lease.
* `Unhindered` — attempts on one index never make one on another index be skipped.

## Main Statements

* `not_skipped_of_cleared` — an attempt is not skipped because of work under other keys.
* `unhindered_iff` — which indexes are not in the way of one another.
* `indexes_apart_iff` — that together with the history.
-/

namespace Upkeep.Reindex

open Simulation Lease

variable {ι : Type} {key : String} {world : World}

/-! ### Leases that nobody has -/

/-- Nobody has the lease. -/
def Unheld (key : String) (world : World) : Prop :=
  ∀ entry ∈ world.leases.entries, entry.key = key → entry.isLive world.now = false

/-- Time goes by, and the lease stays free. -/
theorem Unheld.quiet (unheld : Unheld key world) {after : World}
    (quiet : Crowd.Quiet world after) : Unheld key after := by
  have part : ∀ entry ∈ after.leases.entries, entry ∈ world.leases.entries := by
    rcases quiet.leases with same | ⟨evicted, same⟩
    · exact fun entry mem => same ▸ mem
    · exact fun entry mem => (Store.mem_evictKey.1 (same ▸ mem)).1
  intro entry mem hkey
  exact Entry.isLive_eq_false_iff.2
    ((Entry.isLive_eq_false_iff.1 (unheld entry (part entry mem) hkey)).trans quiet.now_le)

/-- Only a request for the lease itself takes it. -/
theorem Unheld.answer (unheld : Unheld key world) {r : Service.Request}
    (other : ∀ ttl, r ≠ .obtainLease key ttl) : Unheld key (world.answer r).2 := by
  intro entry mem hkey
  rw [World.now_answer]
  refine unheld entry ?_ hkey
  have frame := World.frame_answer r world
  cases r with
  | obtainLease key' ttl =>
      simp only [World.answer, World.obtainLease] at mem
      split at mem
      · exact mem
      · rcases Store.mem_obtain.1 mem with ⟨mem, -⟩ | ⟨-, rfl⟩
        · exact mem
        · exact absurd (congrArg (Service.Request.obtainLease · ttl) hkey) (other ttl)
  | releaseLease key' token =>
      simp only [World.answer, World.releaseLease, Store.release] at mem
      split at mem
      · exact mem
      · dsimp only at mem
        split at mem
        · split at mem
          · exact (Store.mem_erase.1 mem).1
          · exact (Store.mem_evictKey.1 mem).1
        · exact mem
  | _ => exact (frame.leases (by rintro _ _ ⟨⟩) (by rintro _ _ ⟨⟩)).1 ▸ mem

/-- A lease that nobody has is not refused. -/
theorem Unheld.answer_ne (unheld : Unheld key world) (ttl : Duration) :
    (world.answer (.obtainLease key ttl)).1 ≠ .ok none := by
  simp only [World.answer, World.obtainLease]
  split
  · rintro ⟨⟩
  · have granted : (world.leases.obtain world.now key ttl ⟨world.tokensDrawn⟩).1 = true :=
      Store.obtain_eq_true_iff.2 unheld
    simp only [World.drawToken, granted, if_true]
    rintro ⟨⟩

/-! ### Attempts that are not skipped -/

/-- The job does not end with the attempt skipped, whatever it is answered. -/
def Proceeds (job : Job Service (Except Error Performed)) (t : Transcript Service) : Prop :=
  job.Keeps (.recording Service True) (fun _ _ => True) (fun result _ => result ≠ .ok .skipped)
    (fun _ _ => True) t

/-- What comes after the work under a lease does not skip the attempt. -/
private theorem proceeds_bind {task : Task (Option (Except Error Action))}
    {f : Option (Except Error Action) → Task Performed} {t : Transcript Service}
    (worked : task.Keeps (.recording Service True) (fun _ _ => True)
      (fun result? _ => result?.isSome = true) (fun _ _ => True) (fun _ _ => True) t)
    (done : ∀ result, f (some result) = .done <$> Service.attempt (return result)) :
    Proceeds (task >>= f).toJob t := by
  have keeps : (task >>= f).Keeps (.recording Service True) (fun _ _ => True)
      (fun performed _ => performed ≠ .skipped) (fun _ _ => True) (fun _ _ => True) t := by
    refine Task.keeps_bind.2 (worked.weaken fun result? t isSome => ?_)
    obtain ⟨result, rfl⟩ := Option.isSome_iff_exists.1 isSome
    rw [done]
    match result with
    | .ok action => exact nofun
    | .error error => exact trivial
  refine Job.Keeps.mono keeps (fun _ _ _ => trivial) (fun result _ ends => ?_) fun _ _ _ => trivial
  match result with
  | .ok performed => exact fun same => ends (Except.ok.inj same)
  | .error error => exact nofun

/-- An attempt asks for its lease.  If that is refused then it is skipped as soon as this has been
counted and logged, and if it is not refused then it is not skipped. -/
theorem exists_perform_eq_ask (coordinator : Coordinator) (index : Index) :
    ∃ next, (coordinator.perform index).toJob =
        .ask (.obtainLease (coordinator.leaseKey index) coordinator.settings.lease) next ∧
      (∀ answer, answer ≠ .ok (.ok none) → ∀ t, Proceeds (next answer) t) ∧
      ∀ {ι : Type} [DecidableEq ι] (crowd : Crowd ι (Except Error Performed)) (me : ι),
        crowd.stand me = .acting (next (.ok (.ok none))) →
          ((crowd.run (List.replicate 3 (.act me))).1.stand me).outcome? =
            some (.ok (.ok .skipped)) := by
  refine ⟨_, rfl, fun answer notRefused t => ?_, ?_⟩
  · match answer with
    | .error why => exact trivial
    | .ok (.error error) => exact nofun
    | .ok (.ok none) => exact absurd rfl notRefused
    | .ok (.ok (some token)) =>
        have worked : Task.Keeps (.recording Service True) (fun _ _ => True)
            (fun result? _ => result?.isSome = true) (fun _ _ => True) (fun _ _ => True)
            (some <$> Task.ofJob (Guard.protect ⟨coordinator.leaseKey index, token⟩
              (coordinator.performLocked index).toJob)) t :=
          Task.keeps_map.2 (Task.keeps_ofJob.2 ((Job.keeps_trivially _ t).mono
            (fun _ _ _ => trivial) (fun _ _ _ => rfl) fun _ _ _ => trivial))
        exact proceeds_bind worked fun _ => rfl
  · intro ι _ crowd me stand
    show ((((crowd.move (.act me)).1.move (.act me)).1.move (.act me)).1.stand me).outcome? = _
    rw [Crowd.stand_act_self, Crowd.stand_act_self, Crowd.stand_act_self, stand]
    rfl

/-- An attempt on another index does not ask for the lease. -/
theorem obeys_perform_of_ne (coordinator : Coordinator) (index : Index)
    (other : coordinator.leaseKey index ≠ key) :
    (coordinator.perform index).toJob.Obeys
      (fun r : Service.Request => ∀ ttl, r ≠ .obtainLease key ttl) True := by
  obtain ⟨next, asks, -, rest⟩ := obtainsOnce_perform coordinator index
  rw [asks]
  refine ⟨fun ttl same => ?_, fun answer => (rest answer).mono (fun r none ttl same => ?_) id⟩
  · exact other (Service.Request.obtainLease.inj same).1
  · rw [same] at none
    cases none

/-! ### Schedules -/

section Schedules

variable [DecidableEq ι] {me : ι} {coordinator : Coordinator} {index : Index}
  {crowd : Crowd ι (Except Error Performed)}

/-- Nobody but one member asks for the lease under which that member makes an attempt, and the
lease is free until the member has asked for it. -/
structure Cleared (me : ι) (coordinator : Coordinator) (index : Index)
    (crowd : Crowd ι (Except Error Performed)) : Prop where
  others : ∀ who, who ≠ me → ∃ t, (crowd.stand who).Keeps (.recording Service True)
    (fun _ r => ∀ ttl, r ≠ .obtainLease (coordinator.leaseKey index) ttl)
    (fun _ _ => True) (fun _ _ => True) t
  own : (crowd.stand me = .acting (coordinator.perform index).toJob ∧
      Unheld (coordinator.leaseKey index) crowd.world) ∨
    ∃ t, (crowd.stand me).Keeps (.recording Service True) (fun _ _ => True)
      (fun result _ => result ≠ .ok .skipped) (fun _ _ => True) t

/-- A turn leaves a lease free in which nobody asks for it. -/
private theorem unheld_move {turn : Turn ι} (unheld : Unheld key crowd.world)
    (other : ∀ deed, (crowd.move turn).2 = some deed → ∀ r, deed.act = .asked r →
      ∀ ttl, r ≠ .obtainLease key ttl) : Unheld key (crowd.move turn).1.world := by
  rcases crowd.world_move turn with ⟨deed, hdeed, hworld, hafter⟩ | ⟨-, quiet⟩
  · rw [hafter, Deed.after, hworld]
    split
    · next r asked => exact unheld.answer (other deed hdeed r asked)
    · exact unheld
  · exact unheld.quiet quiet

private theorem unheld_of_idle {turn : Turn ι} (unheld : Unheld key crowd.world)
    (idle : (crowd.move turn).2 = none) : Unheld key (crowd.move turn).1.world :=
  unheld_move unheld fun deed hdeed => by
    rw [idle] at hdeed
    cases hdeed

/-- A turn of somebody else leaves the lease free. -/
private theorem Cleared.unheld_of_other (cleared : Cleared me coordinator index crowd)
    (unheld : Unheld (coordinator.leaseKey index) crowd.world) {turn : Turn ι}
    (other : ∀ deed, (crowd.move turn).2 = some deed → deed.who ≠ me) :
    Unheld (coordinator.leaseKey index) (crowd.move turn).1.world := by
  refine unheld_move unheld fun deed hdeed r asked => ?_
  obtain ⟨t, keeps⟩ := cleared.others deed.who (other deed hdeed)
  exact (Crowd.keeps_move isOpen_recording turn keeps).2 deed hdeed rfl r asked

/-- Every turn preserves that. -/
theorem Cleared.move (cleared : Cleared me coordinator index crowd) (turn : Turn ι) :
    Cleared me coordinator index (crowd.move turn).1 := by
  refine ⟨fun who ne => ?_, ?_⟩
  · obtain ⟨t, keeps⟩ := cleared.others who ne
    exact ⟨_, (Crowd.keeps_move isOpen_recording turn keeps).1⟩
  rcases cleared.own with ⟨stand, unheld⟩ | ⟨t, keeps⟩
  · obtain ⟨next, asks, proceeds, -⟩ := exists_perform_eq_ask coordinator index
    cases turn with
    | act who =>
        by_cases mine : who = me
        · -- The lease is free, and so it is not refused.
          subst mine
          refine .inr ⟨[], ?_⟩
          rw [Crowd.stand_act_self, stand, asks]
          refine proceeds _ (fun refused => ?_) []
          exact unheld.answer_ne _ (Except.ok.inj refused)
        · refine .inl ⟨(crowd.stand_act_of_ne (Ne.symm mine)).trans stand, ?_⟩
          refine cleared.unheld_of_other unheld fun deed hdeed => ?_
          obtain ⟨act, -, rfl⟩ := Option.map_eq_some_iff.1 hdeed
          exact mine
    | interrupt who why =>
        by_cases mine : who = me
        · subst mine
          refine .inr ⟨[], ?_⟩
          simp only [Crowd.move, Function.update_self, stand, asks]
          exact proceeds (.error why) (by rintro ⟨⟩) []
        · refine .inl ⟨?_, ?_⟩
          · simp only [Crowd.move, Function.update_of_ne (Ne.symm mine), stand]
          · refine cleared.unheld_of_other unheld fun deed hdeed => ?_
            obtain ⟨act, -, rfl⟩ := Option.map_eq_some_iff.1 hdeed
            exact mine
    | pass length => exact .inl ⟨stand, unheld_of_idle unheld rfl⟩
    | inquire key => exact .inl ⟨stand, unheld_of_idle unheld rfl⟩
    | meddle meddling => exact .inl ⟨stand, unheld_of_idle unheld rfl⟩
  · exact .inr ⟨_, (Crowd.keeps_move isOpen_recording turn keeps).1⟩

/-- **An attempt is not skipped** if nobody has its lease and nobody else asks for it. -/
theorem not_skipped_of_cleared (cleared : Cleared me coordinator index crowd)
    (turns : List (Turn ι)) :
    ((crowd.run turns).1.stand me).outcome? ≠ some (.ok (.ok .skipped)) := by
  let inv (crowd : Crowd ι (Except Error Performed)) (_ : List (Deed ι)) : Prop :=
    Cleared me coordinator index crowd
  have end_ : Cleared me coordinator index (crowd.run turns).1 :=
    @Crowd.run_induction _ _ _ inv crowd cleared (fun _ _ turn h => Cleared.move h turn) turns
  intro skipped
  rcases end_.own with ⟨stand, -⟩ | ⟨t, keeps⟩
  · obtain ⟨next, asks, -, -⟩ := exists_perform_eq_ask coordinator index
    rw [stand, asks] at skipped
    cases skipped
  · match hstand : (crowd.run turns).1.stand me with
    | .acting (.done result) =>
        rw [hstand] at skipped keeps
        exact keeps (Except.ok.inj (Option.some.inj skipped))
    | .acting (.stop why) => rw [hstand] at skipped; cases skipped
    | .acting (.sleep length next) => rw [hstand] at skipped; cases skipped
    | .acting (.ask request next) => rw [hstand] at skipped; cases skipped
    | .resting since length next => rw [hstand] at skipped; cases skipped

end Schedules

/-! ### Two indexes -/

/-- Attempts on one index never make an attempt on another one be skipped, whoever makes them, in
whatever order: not in a team all others of which make attempts on the one index, if nobody has the
lease for the other one to begin with. -/
def Unhindered (settings : Settings) (one other : Index) : Prop :=
  ∀ (ι : Type) [DecidableEq ι] (team : Team ι) (me : ι) (turns : List (Turn ι)),
    team.settings = settings → Unheld ((team.coordinator me).leaseKey other) team.world →
      (((team.crowd fun who => ((team.coordinator who).perform
        (if who = me then other else one)).toJob).run turns).1.stand me).outcome? ≠
          some (.ok (.ok .skipped))

/-- Two workers in a world in which nothing has happened. -/
def twoWorkers (settings : Settings) : Team Bool where
  world := {}
  oneEach := Store.oneEach_empty
  below := Store.below_empty
  settings := settings
  worker late := ⟨late.toNat⟩
  session _ := ⟨0⟩
  account _ := ⟨0⟩
  notifier _ := .nobody

/-- Who has just obtained a lease that lasts at all has it. -/
private theorem refused_again {key : String} {ttl : Duration} (lasting : 0 < ttl) :
    ((({} : World).answer (.obtainLease key ttl)).2.answer (.obtainLease key ttl)).1 =
      .ok none := by
  have live : (Entry.mk key ⟨0⟩ (0 + ttl)).isLive 0 = true := by
    rw [Entry.isLive_eq_true_iff, Duration.lt_def, Duration.nanos_add]
    exact Nat.lt_add_of_pos_right lasting
  have granted : (({} : Store).obtain 0 key ttl ⟨0⟩).2 = ⟨[⟨key, ⟨0⟩, 0 + ttl⟩]⟩ := rfl
  have refused : (({} : Store).obtain 0 key ttl ⟨0⟩).2.obtain 0 key ttl ⟨1⟩ =
      (false, ⟨[⟨key, ⟨0⟩, 0 + ttl⟩]⟩) := by
    rw [granted]
    simp [Store.obtain, Store.evict, Store.find?, live]
  show (Except.ok (if ((({} : Store).obtain 0 key ttl ⟨0⟩).2.obtain 0 key ttl ⟨1⟩).1 then
    some _ else none) : Except Error (Option Token)) = _
  rw [refused]
  rfl

/-- The second worker makes an attempt when the first one has just begun with its own. -/
theorem skipped_twoWorkers {settings : Settings} (lasting : 0 < settings.lease) {one other : Index}
    (same : ((twoWorkers settings).coordinator false).leaseKey one =
      ((twoWorkers settings).coordinator true).leaseKey other) :
    ((((twoWorkers settings).crowd fun late => (((twoWorkers settings).coordinator late).perform
      (if late = true then other else one)).toJob).run
        (.act false :: .act true :: List.replicate 3 (.act true))).1.stand true).outcome? =
          some (.ok (.ok .skipped)) := by
  obtain ⟨next, asks, -, skips⟩ :=
    exists_perform_eq_ask ((twoWorkers settings).coordinator true) other
  set crowd := (twoWorkers settings).crowd fun late =>
    (((twoWorkers settings).coordinator late).perform (if late = true then other else one)).toJob
  have stand : crowd.stand true = .acting (.ask (.obtainLease _ settings.lease) next) :=
    congrArg Stand.acting asks
  have world : (crowd.move (.act false)).1.world = (({} : World).answer (.obtainLease
      (((twoWorkers settings).coordinator false).leaseKey one) settings.lease)).2 := rfl
  rw [Crowd.run_cons, Crowd.run_cons]
  refine skips _ true ?_
  rw [Crowd.stand_act_self, Crowd.stand_act_of_ne _ (by decide), stand, world, same, Stand.go]
  show Stand.acting (next (.ok _)) = _
  rw [refused_again lasting]

variable {settings : Settings} {one other : Index}

theorem unhindered_iff (scope : settings.scope = .perIndex) (lasting : 0 < settings.lease) :
    Unhindered settings one other ↔ ¬ (one.address = other.address ∨
      Overlap "/" one.database one.identifier other.database other.identifier) := by
  constructor
  · intro unhindered same
    have sameKey : ((twoWorkers settings).coordinator false).leaseKey one =
        ((twoWorkers settings).coordinator true).leaseKey other :=
      (Coordinator.leaseKey_eq_iff rfl scope).2 same
    have free : Unheld (((twoWorkers settings).coordinator true).leaseKey other)
        (twoWorkers settings).world := fun _ mem => absurd mem List.not_mem_nil
    exact unhindered Bool (twoWorkers settings) true _ rfl free (skipped_twoWorkers lasting sameKey)
  · rintro apart ι _ team me turns rfl free
    refine not_skipped_of_cleared ⟨fun who ne => ⟨[], ?_⟩, .inl ⟨?_, free⟩⟩ turns
    · have otherKey : (team.coordinator who).leaseKey one ≠ (team.coordinator me).leaseKey other :=
        fun same => apart ((Coordinator.leaseKey_eq_iff rfl scope).1 same)
      simp only [Team.crowd, if_neg ne]
      show Job.Keeps _ _ _ _ _ _
      refine Job.Obeys.keeps (obeys_perform_of_ne (team.coordinator who) one otherKey) ?_ ?_ ?_ ?_
      · exact fun _ _ _ hr => hr
      · exact fun _ _ _ _ _ => trivial
      · exact fun _ _ _ _ => trivial
      · exact trivial
    · simp only [Team.crowd, if_true]

/-- **Different indexes are kept apart if and only if neither of their names reaches into the other
one's.**  The history of one matters to the other if they are in one database and their schemas and
names overlap at a dot, and the other is worth a rebuild at all.  With a lease for each index the
keys are the same, and attempts on one make those on the other be skipped, if that is so or if their
databases and identifiers overlap at a slash. -/
theorem indexes_apart_iff (different : ¬ one.Same other) :
    (Selection.Undisturbed one other ↔
      ((∃ thresholds : Thresholds, thresholds.accept other = true) →
        ¬ (one.database = other.database ∧
          Overlap "." one.schema one.name other.schema other.name))) ∧
    (∀ coordinator : Coordinator, coordinator.settings.scope = .perIndex →
      (coordinator.leaseKey one = coordinator.leaseKey other ↔
        (one.database = other.database ∧
            Overlap "." one.schema one.name other.schema other.name) ∨
          Overlap "/" one.database one.identifier other.database other.identifier)) ∧
    ∀ settings : Settings, settings.scope = .perIndex → 0 < settings.lease →
      (Unhindered settings one other ↔
        ¬ ((one.database = other.database ∧
            Overlap "." one.schema one.name other.schema other.name) ∨
          Overlap "/" one.database one.identifier other.database other.identifier)) := by
  have address_iff : one.address = other.address ↔ one.database = other.database ∧
      Overlap "." one.schema one.name other.schema other.name :=
    Index.address_eq_iff.trans (or_iff_right different)
  refine ⟨?_, fun coordinator scope => ?_, fun settings scope lasting => ?_⟩
  · rw [Selection.undisturbed_iff, ne_eq, address_iff]
  · rw [Coordinator.leaseKey_eq_iff rfl scope, address_iff]
  · rw [unhindered_iff scope lasting, address_iff]

/-- A dot in the schema of one index and one in the name of another: the history of one hides the
other, they have one lease, and an attempt on one makes that on the other be skipped. -/
theorem not_apart_dots :
    let one : Index := { database := "main", schema := "a.b", name := "c" }
    let other : Index :=
      { database := "main", schema := "a", name := "b.c", size := 10737418240,
        bloat := some 5368709120 }
    let settings : Settings := { scope := .perIndex }
    ¬ one.Same other ∧ ¬ Selection.Undisturbed one other ∧
      ((twoWorkers settings).coordinator true).leaseKey one =
        ((twoWorkers settings).coordinator true).leaseKey other ∧
      ¬ Unhindered settings one other := by
  intro one other settings
  have different : ¬ one.Same other := fun same => absurd same.schema (by decide)
  have overlap : one.database = other.database ∧
      Overlap "." one.schema one.name other.schema other.name :=
    ⟨rfl, .inl ⟨"b", by decide, by decide⟩⟩
  have accepted : ({} : Thresholds).accept other = true := by decide +kernel
  obtain ⟨undisturbed, key, unhindered⟩ := indexes_apart_iff different
  refine ⟨different, fun h => undisturbed.1 h ⟨_, accepted⟩ overlap, ?_, fun h => ?_⟩
  · exact (key _ rfl).2 (.inl overlap)
  · exact (unhindered settings rfl (by decide)).1 h (.inl overlap)

end Upkeep.Reindex
