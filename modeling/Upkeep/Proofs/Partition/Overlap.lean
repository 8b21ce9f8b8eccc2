import Upkeep.Proofs.Crowd.Punctual
import Upkeep.Proofs.Lease.Exclusion
import Upkeep.Proofs.Partition.InOrder
import Upkeep.Proofs.Partition.Pace

/-!
# Syncs that overlap

Workers who sync one table by the default settings, each under a lease of a minute that is
not renewed.  Their statements do not interleave as long as nobody works for longer than
that.  Sixteen lock timeouts in a row make a sync sleep for longer, and fewer do not.

## Main Definitions

* `Team` — workers who sync one table.
* `Apart` — no statement of one worker is executed between two of another one.

## Main Statements

* `apart_of_within` — statements do not interleave if all of them are executed within the
  lease of their worker, in any schedule.
* `within_of_punctual` — a sync that meets at most fifteen lock timeouts in a punctual
  schedule executes all its statements within its lease.
* `syncs_apart_iff` — how many lock timeouts a sync may meet in punctual schedules.

## Design Notes

The lease is meant to keep others away until the work is done.  What `syncs_apart_iff`
says is that it does so only if it is chosen longer than the work may last.
-/

namespace Upkeep.Partition

open Simulation Lease

/-! ### Statements of a crowd -/

section Deeds

variable {ι : Type}

/-- Whether a statement was executed. -/
def isStatement (deed : Deed ι) : Bool :=
  match deed.act with
  | .asked (.execute _ _) => true
  | _ => false

/-- Whether a statement was executed and ran into a lock timeout. -/
def isLockTimeout (deed : Deed ι) : Bool :=
  match deed.act with
  | .asked (.execute session sql) =>
      match (deed.world.execute session sql).1 with
      | .ok () => false
      | .error failure => failure.isLockTimeout
  | _ => false

/-- Those who executed the statements, in the order of the statements. -/
def executors (deeds : List (Deed ι)) : List ι := (deeds.filter isStatement).map Deed.who

/-- No statement of one worker is executed between two of another one. -/
def Apart (deeds : List (Deed ι)) : Prop :=
  ∀ one other, [one, other, one].Sublist (executors deeds) → other = one

/-- How many statements of a worker ran into a lock timeout. -/
def lockTimeouts [DecidableEq ι] (who : ι) (deeds : List (Deed ι)) : Nat :=
  deeds.countP fun deed => deed.who = who && isLockTimeout deed

theorem exists_of_isStatement {deed : Deed ι} (h : isStatement deed = true) :
    ∃ session sql, deed.act = .asked (.execute session sql) := by
  unfold isStatement at h
  split at h
  · next session sql hact => exact ⟨session, sql, hact⟩
  · cases h

/-- Three statements in a row, by what was done in between. -/
theorem exists_of_sublist {deeds : List (Deed ι)} {one other : ι}
    (h : [one, other, one].Sublist (executors deeds)) :
    ∃ first second third l₁ l₂ l₃ l₄,
      deeds = l₁ ++ first :: (l₂ ++ second :: (l₃ ++ third :: l₄)) ∧
        (first.who = one ∧ second.who = other ∧ third.who = one) ∧
          isStatement first = true ∧ isStatement second = true ∧ isStatement third = true := by
  obtain ⟨three, hthree, heq⟩ := List.sublist_map_iff.1 h
  have hstatement : ∀ deed ∈ three, isStatement deed = true :=
    fun deed hm => (List.mem_filter.1 (hthree.subset hm)).2
  obtain ⟨first, three, rfl, hone, heq⟩ := List.map_eq_cons_iff.1 heq.symm
  obtain ⟨second, three, rfl, hother, heq⟩ := List.map_eq_cons_iff.1 heq
  obtain ⟨third, three, rfl, hone', heq⟩ := List.map_eq_cons_iff.1 heq
  obtain rfl := List.map_eq_nil_iff.1 heq
  obtain ⟨r₁, r₂, rfl, hfirst, hrest⟩ :=
    List.cons_sublist_iff.1 (hthree.trans List.filter_sublist)
  obtain ⟨r₃, r₄, rfl, hsecond, hthird⟩ := List.cons_sublist_iff.1 hrest
  obtain ⟨l₁, m₁, rfl⟩ := List.append_of_mem hfirst
  obtain ⟨l₂, m₂, rfl⟩ := List.append_of_mem hsecond
  obtain ⟨l₃, l₄, rfl⟩ := List.append_of_mem (List.singleton_sublist.1 hthird)
  refine ⟨first, second, third, l₁, m₁ ++ l₂, m₂ ++ l₃, l₄, by simp, ⟨hone, hother, hone'⟩, ?_⟩
  exact ⟨hstatement _ (by simp), hstatement _ (by simp), hstatement _ (by simp)⟩

end Deeds

/-! ### Teams -/

/-- Workers who sync one table by the default settings, each of them some time after the
first instant. -/
structure Team (ι : Type) where
  world : World
  oneEach : world.leases.OneEach
  below : world.leases.Below world.tokensDrawn
  table : String
  list : ι → SlidingList
  table_eq : ∀ who, (list who).table = table
  timing_eq : ∀ who, (list who).timing = .partitionDdl
  session : ι → Session
  account : ι → Account
  start : ι → Duration

namespace Team

variable {ι : Type} (team : Team ι)

/-- What a worker syncs with. -/
def manager (who : ι) : Manager :=
  ⟨(team.list who).strategy, {}, team.session who, team.account who⟩

/-- The workers before their first turns. -/
def crowd : Crowd ι (Except Error (Option SyncReport)) where
  world := team.world
  stand who := .acting
    ((Service.sleep (team.start who)).bind fun _ => (team.manager who).sync.toJob)

/-- The key of the lease that they all need. -/
def leaseKey : String := "database/partitioning" ++ "/" ++ team.table

theorem leaseKey_manager (who : ι) : (team.manager who).leaseKey = team.leaseKey :=
  congrArg (fun table => "database/partitioning" ++ "/" ++ table) (team.table_eq who)

/-- Each worker is guarded by the lease. -/
theorem opening [DecidableEq ι] : Opening (fun _ => under team.leaseKey) team.crowd where
  oneEach := team.oneEach
  below := team.below
  guarded who := by
    refine ⟨_, rfl, Job.keeps_bind.2 (Service.keeps_sleep.2 ⟨?_, fun _ _ => trivial⟩)⟩
    rw [← team.leaseKey_manager who]
    exact guarded_of_keeps ((team.manager who).keeps_sync (team.list who).leaseFree_strategy)

/-- Each worker is timely. -/
theorem keeps_timely (who : ι) :
    (team.crowd.stand who).Keeps pace Timely (fun _ _ => True) (fun _ _ => True) {} := by
  refine Job.keeps_bind.2 (Service.keeps_sleep.2 ⟨?_, fun _ _ => trivial⟩)
  have hasked : (pace.slept {} (team.start who)).asked? = none := rfl
  exact Job.Keeps.mono (Manager.keeps_sync_timely rfl rfl
    (fun _ => SlidingList.each_paced (team.timing_eq who)) hasked) (fun _ _ hr => hr)
    (fun _ _ _ => trivial) fun _ _ _ => trivial

end Team

/-! ### Leases that last -/

section Within

variable {ι : Type} [DecidableEq ι] {team : Team ι} {turns : List (Turn ι)}
  {before after : List (Deed ι)} {deed : Deed ι}

/-- A worker's statements are timely. -/
theorem timely_of_run (hd : (team.crowd.run turns).2 = before ++ deed :: after)
    {r : Service.Request} (hact : deed.act = .asked r) :
    Timely (pace.watch deed.who before {}) r :=
  Crowd.rule_of_run isOpen_pace (team.keeps_timely deed.who) hd hact

/-- A lease that a worker asked for is the only one. -/
theorem asked?_of_run {who : ι} {asked : Duration} {more rest : List (Deed ι)}
    (hd : (team.crowd.run turns).2 = before ++ more ++ rest)
    (h : (pace.watch who before {}).asked? = some asked) :
    (pace.watch who (before ++ more) {}).asked? = some asked := by
  induction more generalizing before with
  | nil => rwa [List.append_nil]
  | cons deed more ih =>
      rw [List.append_cons] at hd ⊢
      refine ih hd ?_
      have hdeed : (team.crowd.run turns).2 = before ++ deed :: (more ++ rest) := by
        rw [hd]
        simp
      rw [Surroundings.watch_append, Surroundings.watch_singleton, Surroundings.observe]
      split
      · next hwho =>
          cases hact : deed.act with
          | slept length => exact h
          | interrupted why => exact h
          | asked r => exact asked?_after_eq (hwho ▸ timely_of_run hdeed hact) h
      · exact h

/-- Once a worker has executed a statement, it is granted no more leases. -/
private theorem outstanding_of_isStatement
    (hd : (team.crowd.run turns).2 = before ++ deed :: after) (hs : isStatement deed = true)
    {middle more rest : List (Deed ι)}
    (hmore : (team.crowd.run turns).2 = before ++ middle ++ more ++ rest)
    {held : Holding ι} (hheld : held ∈ outstanding (before ++ middle ++ more))
    (hwho : held.who = deed.who) : held ∈ outstanding (before ++ middle) := by
  refine (mem_outstanding_append hheld).resolve_right ?_
  rintro ⟨l₁, grant, l₂, rfl, hg⟩
  obtain ⟨session, sql, hact⟩ := exists_of_isStatement hs
  obtain ⟨asked, hasked, -⟩ := timely_of_run hd hact
  obtain ⟨key, ttl, token, hact', -, rfl⟩ := eq_of_granted? hg
  have hgrant : (team.crowd.run turns).2 = before ++ (middle ++ l₁) ++ grant :: (l₂ ++ rest) := by
    rw [hmore]
    simp
  obtain ⟨hnone, -⟩ := timely_of_run hgrant hact'
  have hstill := asked?_of_run hgrant hasked
  rw [← hwho, hnone] at hstill
  cases hstill

/-- **Statements do not interleave** if all of them are executed within the lease of their
worker, however long they take and whoever is interrupted. -/
theorem apart_of_within (hwithin : ∀ before deed after,
      (team.crowd.run turns).2 = before ++ deed :: after → isStatement deed = true →
        ∀ held ∈ outstanding before, held.who = deed.who → deed.now < held.until) :
    Apart (team.crowd.run turns).2 := by
  intro one other hsub
  obtain ⟨first, second, third, l₁, l₂, l₃, l₄, hd, ⟨rfl, rfl, hwho⟩, hfirst, hsecond, hthird⟩ :=
    exists_of_sublist hsub
  have hd₂ : (team.crowd.run turns).2 = l₁ ++ first :: l₂ ++ second :: (l₃ ++ third :: l₄) := by
    rw [hd, List.append_assoc, List.cons_append]
  have hd₃ : (team.crowd.run turns).2 =
      l₁ ++ first :: l₂ ++ second :: l₃ ++ third :: l₄ := by
    rw [hd₂, List.append_assoc (l₁ ++ first :: l₂), List.cons_append]
  -- The lease of the third statement is that of the first one, so the second found it there.
  obtain ⟨session, sql, hact⟩ := exists_of_isStatement hthird
  obtain ⟨own, hown, hownwho, hownkey, -⟩ := covered_of_run team.opening hd₃ hact rfl
  have hownfirst : own.who = first.who := hownwho.trans hwho
  have hmiddle : own ∈ outstanding (l₁ ++ first :: l₂) :=
    outstanding_of_isStatement hd hfirst hd₃ hown hownfirst
  have hstart : own ∈ outstanding l₁ := by
    have hd₁ : (team.crowd.run turns).2 =
        l₁ ++ [] ++ first :: l₂ ++ second :: (l₃ ++ third :: l₄) := by
      rw [List.append_nil, hd₂]
    rw [← List.append_nil l₁] at hmiddle ⊢
    exact outstanding_of_isStatement hd hfirst hd₁ hmiddle hownfirst
  obtain ⟨session', sql', hact'⟩ := exists_of_isStatement hsecond
  obtain ⟨theirs, htheirs, htheirswho, htheirskey, -⟩ := covered_of_run team.opening hd₂ hact' rfl
  obtain rfl := eq_of_overlap team.opening hd₃ hstart hmiddle htheirs
    (hownkey.trans htheirskey.symm) (hwithin _ _ _ hd₃ hthird own hown hownwho)
    (hwithin _ _ _ hd₂ hsecond theirs htheirs htheirswho)
  rw [← htheirswho, hownfirst]

/-! ### Punctual teams -/

theorem clocks_pace : pace.Clocks Pace.slept := by
  refine ⟨fun s r answer => ?_, fun _ _ => rfl⟩
  cases r with
  | execute session sql => cases answer <;> rfl
  | _ => rfl

/-- In a punctual schedule a worker's own sleeps tell the time. -/
theorem now_of_run (hturns : team.crowd.Punctual turns)
    (hd : (team.crowd.run turns).2 = before ++ deed :: after) {r : Service.Request}
    (hact : deed.act = .asked r) :
    deed.now = team.world.now + (pace.watch deed.who before {}).slept := by
  obtain ⟨earlier, turn, later, rfl, rfl, hm⟩ := Crowd.exists_turn_of_run hd
  refine Crowd.now_of_isAt hm hact ?_
  exact Crowd.isAt_run clocks_pace (Crowd.punctual_append.1 hturns).1 (Stand.isAt_acting _ _)

omit [DecidableEq ι] in
private theorem timeouts_note (deed : Deed ι) (s : Pace) :
    (pace.note deed.world s deed.act).timeouts = s.timeouts + (isLockTimeout deed).toNat := by
  unfold isLockTimeout
  match deed.act with
  | .slept length => rfl
  | .interrupted why => rfl
  | .asked r =>
      cases r with
      | execute session sql =>
          simp only [Surroundings.note, World.answer]
          cases (deed.world.execute session sql).1 <;> rfl
      | _ => rfl

/-- What is counted are the lock timeouts. -/
theorem timeouts_watch (who : ι) (deeds : List (Deed ι)) (s : Pace) :
    (pace.watch who deeds s).timeouts = s.timeouts + lockTimeouts who deeds := by
  induction deeds generalizing s with
  | nil => rfl
  | cons deed deeds ih =>
      have hwatch : pace.watch who (deed :: deeds) s =
          pace.watch who deeds (pace.observe who s deed) := rfl
      rw [hwatch, ih, Surroundings.observe]
      simp only [lockTimeouts, List.countP_cons]
      by_cases hwho : deed.who = who
      · simp only [hwho, if_true, timeouts_note, decide_true, Bool.true_and]
        cases isLockTimeout deed
        · simp
        · simp only [Bool.toNat_true, if_true]
          omega
      · simp [hwho]

/-- In a punctual schedule a lease lasts a minute from the sleeps on after which it was asked
for. -/
theorem until_of_run (hturns : team.crowd.Punctual turns)
    (hd : (team.crowd.run turns).2 = before ++ after) {held : Holding ι}
    (hheld : held ∈ outstanding before) :
    ∃ asked, (pace.watch held.who before {}).asked? = some asked ∧
      held.until = team.world.now + asked + .ofSecs 60 := by
  have hnew : held ∈ outstanding ([] ++ before) := hheld
  obtain ⟨l₁, grant, l₂, rfl, hg⟩ := (mem_outstanding_append hnew).resolve_left (by simp)
  obtain ⟨key, ttl, token, hact, -, rfl⟩ := eq_of_granted? hg
  have hgrant : (team.crowd.run turns).2 = l₁ ++ grant :: (l₂ ++ after) := by
    rw [hd]
    simp
  obtain ⟨-, rfl⟩ := timely_of_run hgrant hact
  refine ⟨(pace.watch grant.who l₁ {}).slept, ?_, ?_⟩
  · rw [List.append_cons] at hd ⊢
    refine asked?_of_run hd ?_
    rw [Surroundings.watch_append, Surroundings.watch_singleton, Surroundings.observe, if_pos rfl,
      hact]
    rfl
  · rw [Holding.until, now_of_run hturns hgrant hact]

/-- **In punctual schedules statements are executed within the lease** of their worker, unless
too many run into lock timeouts. -/
theorem within_of_punctual (hturns : team.crowd.Punctual turns)
    (hfew : ∀ who, lockTimeouts who (team.crowd.run turns).2 ≤ 15)
    (hd : (team.crowd.run turns).2 = before ++ deed :: after) (hs : isStatement deed = true)
    {held : Holding ι} (hheld : held ∈ outstanding before) (hwho : held.who = deed.who) :
    deed.now < held.until := by
  obtain ⟨session, sql, hact⟩ := exists_of_isStatement hs
  obtain ⟨asked, hasked, hslept⟩ := timely_of_run hd hact
  obtain ⟨asked', hasked', huntil⟩ := until_of_run hturns hd hheld
  rw [hwho, hasked] at hasked'
  obtain rfl := Option.some.inj hasked'
  have hcount : (pace.watch deed.who before {}).timeouts ≤ 15 := by
    have hall := hfew deed.who
    rw [hd, lockTimeouts, List.countP_append] at hall
    rw [timeouts_watch]
    simp only [lockTimeouts]
    omega
  rw [huntil, now_of_run hturns hd hact, Duration.add_assoc]
  exact Nat.add_lt_add_left (hslept hcount) team.world.now.nanos

end Within

/-! ### Sixteen lock timeouts -/

/-- Two workers who sync the small table.  The first partition cannot be created, and the
second worker starts just before the first one has slept for its sixteenth time. -/
def latecomer : Team Bool where
  world :=
    { sessions := [(⟨0⟩,
        { applies := true
          failures := [⟨"CREATE TABLE", none, .lockTimeout "lock timeout"⟩] })] }
  oneEach := .nil
  below _ hm := by cases hm
  table := "items"
  list _ := items
  table_eq _ := rfl
  timing_eq _ := rfl
  session _ := ⟨0⟩
  account _ := ⟨0⟩
  start late := if late then .ofMillis 73799 else 0

/-- A worker goes on for so many turns. -/
private def goOn (late : Bool) (turns : Nat) : List (Turn Bool) := List.replicate turns (.act late)

/-- Fifteen attempts of the first worker with the sleeps after them, a sixteenth one, and the
first attempt of the second worker before the first one begins its next. -/
def latecoming : List (Turn Bool) :=
  goOn true 1 ++ goOn false 5 ++
    ((Ddl.Timing.partitionDdl.entries.take 15).flatMap fun entry =>
      goOn false 7 ++ [.pass entry.sleep] ++ goOn false 1) ++
    goOn false 7 ++ [.pass (.ofMillis 59999)] ++ goOn true 11 ++ [.pass (.ofMillis 1)] ++
    goOn false 2

/-- A statement of the second worker is executed between two of the first one. -/
theorem overlap_latecoming :
    latecomer.crowd.Punctual latecoming ∧
      (∀ who, lockTimeouts who (latecomer.crowd.run latecoming).2 ≤ 16) ∧
      [false, true, false].Sublist (executors (latecomer.crowd.run latecoming).2) := by
  decide +kernel

/-- **Syncs that overlap.**  In punctual schedules the statements of different syncs do not
interleave if no sync meets more than fifteen lock timeouts, and from sixteen on they may. -/
theorem syncs_apart_iff (n : Nat) :
    (∀ (ι : Type) [DecidableEq ι] (team : Team ι) (turns : List (Turn ι)),
      team.crowd.Punctual turns →
        (∀ who, lockTimeouts who (team.crowd.run turns).2 ≤ n) →
          Apart (team.crowd.run turns).2) ↔ n ≤ 15 := by
  constructor
  · intro hapart
    refine Nat.le_of_lt_succ (Nat.lt_of_not_le fun hmany => ?_)
    obtain ⟨hpunctual, hcount, hoverlap⟩ := overlap_latecoming
    have hfew := fun who => (hcount who).trans hmany
    exact absurd (hapart Bool latecomer latecoming hpunctual hfew false true hoverlap) (by decide)
  · intro hn ι _ team turns hpunctual hfew
    refine apart_of_within fun before deed after hd hs held hheld hwho => ?_
    exact within_of_punctual hpunctual (fun who => (hfew who).trans hn) hd hs hheld hwho

end Upkeep.Partition
