import Upkeep.Proofs.Lease.Succession
import Upkeep.Proofs.Partition.InOrder
import Upkeep.Proofs.Partition.Replay

/-!
# Syncs in series

Workers who sync one table at the same time, in any order of their steps.  If all of them work
in time, then it is as if those who were granted the lease had synced one after the other, in
the order of their grants, and nobody else had been there.

## Main Definitions

* `Crew` — workers who sync one table, each of them some time after the first instant.
* `Crew.serially` — their syncs one after the other.
* `Round`, `Chained` — a sync that was granted the lease, and how such syncs follow one another.
* `InRounds` — how a crew's members are related to the rounds so far.

## Main Statements

* `InRounds.move`, `inRounds_run` — every turn adds to the last round or begins another one.
* `Crew.serially_of_chained` — chained rounds are syncs one after the other.
* **`syncs_serializable`** — syncs at the same time are like syncs one after the other.

## Design Notes

The steps of the workers may interleave at any request, not only where somebody sleeps.  What a
worker has learned and done is known from the database that it found when it was granted the
lease (`replay`), because nobody else works until the next one is granted it.  So the invariant
remembers two databases for each round: the one that was found, and the one that was left.
-/

namespace Upkeep

open Simulation

variable {ι : Type}

/-- Whether nobody is interrupted in the turn, and nothing changes that no member asked for. -/
def Turn.isPeaceful : Turn ι → Bool
  | .act _ | .pass _ | .inquire _ => true
  | .interrupt _ _ | .meddle _ => false

namespace Partition

open Lease

/-- What a sync ends with. -/
abbrev Ending := Except Interruption (Except Error (Option SyncReport))

/-! ### Crews -/

/-- Workers who sync one table, each of them with settings of its own and some time after the
first instant.  The store may have leases of others, and statements may be made to fail in any
way. -/
structure Crew (ι : Type) where
  world : World
  oneEach : world.leases.OneEach
  below : world.leases.Below world.tokensDrawn
  reached : world.leaseFaults.obtain = false ∧ world.leaseFaults.release = false
  table : String
  keyspace : String
  list : ι → SlidingList
  table_eq : ∀ who, (list who).table = table
  settings : ι → Settings
  keyspace_eq : ∀ who, (settings who).keyspace = keyspace
  session : ι → Session
  account : ι → Account
  start : ι → Duration

namespace Crew

variable (crew : Crew ι)

/-- What a worker syncs with. -/
def manager (who : ι) : Manager :=
  ⟨(crew.list who).strategy, crew.settings who, crew.session who, crew.account who⟩

/-- The workers before their first turns. -/
def crowd : Crowd ι (Except Error (Option SyncReport)) where
  world := crew.world
  stand who := .acting
    ((Service.sleep (crew.start who)).bind fun _ => (crew.manager who).sync.toJob)

/-- The syncs of some workers one after the other: what they end with, and the world after
them. -/
def serially : List ι → World → List Ending × World
  | [], world => ([], world)
  | who :: rest, world =>
      let (ending, world) := (crew.manager who).sync.toJob.run World.answer World.elapse world
      let (endings, world) := serially rest world
      (ending :: endings, world)

/-- The key of the lease that they all need. -/
def leaseKey : String := crew.keyspace ++ "/" ++ crew.table

theorem leaseKey_manager (who : ι) : (crew.manager who).leaseKey = crew.leaseKey := by
  have htable : (crew.manager who).strategy.table = crew.table := crew.table_eq who
  have hkeyspace : (crew.manager who).settings.keyspace = crew.keyspace := crew.keyspace_eq who
  rw [Manager.leaseKey, htable, hkeyspace]
  rfl

/-- Each worker is guarded by the lease. -/
theorem opening [DecidableEq ι] : Opening (fun _ => under crew.leaseKey) crew.crowd where
  oneEach := crew.oneEach
  below := crew.below
  guarded who := by
    refine ⟨_, rfl, Job.keeps_bind.2 (Service.keeps_sleep.2 ⟨?_, fun _ _ => trivial⟩)⟩
    rw [← crew.leaseKey_manager who]
    exact guarded_of_keeps ((crew.manager who).keeps_sync (crew.list who).leaseFree_strategy)

/-- The work of each worker is done on the database. -/
theorem onDatabase (who : ι) : (crew.manager who).syncLocked.OnDatabase :=
  Manager.onDatabase_syncLocked (crew.list who) rfl

end Crew

/-! ### Rounds -/

/-- A sync that was granted the lease: the database that it found, and the one that it has left so
far. -/
structure Round (ι : Type) where
  who : ι
  found : Database
  left : Database

/-- Each round found the database that the one before it has left. -/
def Chained : Database → List (Round ι) → Database → Prop
  | first, [], last => first = last
  | first, round :: rest, last => round.found = first ∧ Chained round.left rest last

theorem chained_concat {first last : Database} {rounds : List (Round ι)} {round : Round ι} :
    Chained first (rounds ++ [round]) last ↔
      Chained first rounds round.found ∧ round.left = last := by
  induction rounds generalizing first with
  | nil => exact and_congr_left fun _ => eq_comm
  | cons other rest ih =>
      simp only [List.cons_append, Chained, ih, and_assoc]

/-- **Chained rounds are syncs one after the other**, if each of them has left what becomes of its
work. -/
theorem Crew.serially_of_chained (crew : Crew ι) {first last : Database} {rounds : List (Round ι)}
    {world : World} (hchained : Chained first rounds last) (hfirst : world.database = first)
    (havailable : Available crew.leaseKey world) (ending : ι → Option Ending)
    (hrounds : ∀ round ∈ rounds, ∃ result,
      (crew.manager round.who).outcome round.found = (.ok result, round.left) ∧
        ending round.who = some (.ok (result.map some))) :
    (crew.serially (rounds.map Round.who) world).2.database = last ∧
      (crew.serially (rounds.map Round.who) world).1.map some =
        (rounds.map Round.who).map ending := by
  induction rounds generalizing first world with
  | nil => exact ⟨hfirst.trans hchained, rfl⟩
  | cons round rest ih =>
      obtain ⟨hfound, hchained⟩ := hchained
      obtain ⟨result, houtcome, hending⟩ := hrounds round List.mem_cons_self
      rw [← crew.leaseKey_manager round.who] at havailable
      obtain ⟨result', after, hrun, houtcome', hafter⟩ := Manager.run_sync_alone
        (crew.onDatabase round.who) (crew.list round.who).leaseFree_strategy havailable
      rw [hfirst, ← hfound, houtcome] at houtcome'
      obtain ⟨rfl, hleft⟩ : result = result' ∧ round.left = after.database := by
        simpa using houtcome'
      obtain ⟨hlast, hendings⟩ := ih hchained hleft.symm (crew.leaseKey_manager round.who ▸ hafter)
        fun round hm => hrounds round (List.mem_cons_of_mem _ hm)
      simp only [List.map_cons, serially, hrun, hending, hendings]
      exact ⟨hlast, trivial⟩

/-- How the members of a crew are related to the rounds so far. -/
structure InRounds (crew : Crew ι) (crowd : Crowd ι (Except Error (Option SyncReport)))
    (deeds : List (Deed ι)) (rounds : List (Round ι)) : Prop where
  whos : rounds.map Round.who = grantees crew.leaseKey deeds
  once : (rounds.map Round.who).Nodup
  chained : Chained crew.world.database rounds crowd.world.database
  /-- Whoever was granted the lease goes on from what it has left so far. -/
  entered : ∀ round ∈ rounds, (crowd.stand round.who).Keeps replay (Permitted crew.leaseKey)
    ((crew.manager round.who).Ends round.found) (fun _ _ => False) ⟨true, round.left⟩
  /-- Everybody else has learned nothing yet. -/
  waiting : ∀ who, who ∉ rounds.map Round.who → ∀ database,
    (crowd.stand who).Keeps replay (Permitted crew.leaseKey) ((crew.manager who).Ends database)
      (fun _ _ => False) ⟨false, database⟩
  reached : crowd.world.leaseFaults.obtain = false

theorem inRounds_nil (crew : Crew ι) : InRounds crew crew.crowd [] [] where
  whos := rfl
  once := .nil
  chained := rfl
  entered := nofun
  waiting who _ database := by
    refine Job.keeps_bind.2 (Service.keeps_sleep.2 ⟨?_, False.elim⟩)
    rw [← crew.leaseKey_manager who]
    exact (crew.manager who).keeps_sync_replay (crew.onDatabase who) database
  reached := crew.reached.1

/-! ### Turns -/

section Turns

variable {crew : Crew ι} {deeds more : List (Deed ι)} {deed : Deed ι}
  {crowd after : Crowd ι (Except Error (Option SyncReport))} {rounds : List (Round ι)}

/-- What somebody asks for, but is no work, is overlooked by the replay, unless it is a lease and
is granted. -/
theorem replay_after_of_no_work {key : String} {s : Replay} {r : Service.Request}
    (hr : Permitted key s r) (hwork : r.isWork = false) (who : ι) (world : World) :
    replay.after s r (world.answer r).1 =
      if (grantee? key ⟨who, world, .asked r⟩).isSome then ⟨true, s.database⟩ else s := by
  have hnone : ∀ {t : Replay}, granted? (⟨who, world, .asked r⟩ : Deed ι) = none →
      (if (grantee? key (⟨who, world, .asked r⟩ : Deed ι)).isSome then t else s) = s := by
    intro t hnone
    rw [grantee?, hnone]
    rfl
  cases r with
  | obtainLease other ttl =>
      obtain ⟨rfl, -⟩ := hr.asks other ttl rfl
      have hanswer : (world.answer (.obtainLease other ttl)).1 =
          (world.obtainLease other ttl).1 := rfl
      rw [hanswer]
      cases hobtain : (world.obtainLease other ttl).1 with
      | ok token? =>
          cases token? with
          | some token =>
              have hgranted : grantee? other
                  (⟨who, world, .asked (.obtainLease other ttl)⟩ : Deed ι) = some who :=
                grantee?_eq_some_iff.2 ⟨⟨who, ⟨other, token⟩, world.now, ttl⟩,
                  by simp [granted?, hobtain, Deed.now], rfl, rfl⟩
              rw [hgranted]
              rfl
          | none =>
              rw [hnone (by simp [granted?, hobtain])]
              rfl
      | error error =>
          rw [hnone (by simp [granted?, hobtain])]
          rfl
  | releaseLease key token => rw [hnone rfl]; rfl
  | canDelegate => rw [hnone rfl]; rfl
  | count account meter n => rw [hnone rfl]; rfl
  | log event => rw [hnone rfl]; rfl
  | _ => cases hwork

theorem grantee?_of_work {key : String} {r : Service.Request} (hact : deed.act = .asked r)
    (hwork : r.isWork = true) : grantee? key deed = none := by
  refine Option.eq_none_iff_forall_ne_some.2 fun who hwho => ?_
  obtain ⟨held, hgranted, -, -⟩ := grantee?_eq_some_iff.1 hwho
  obtain ⟨other, ttl, token, hobtain, -, -⟩ := eq_of_granted? hgranted
  rw [hact] at hobtain
  cases hobtain
  cases hwork

theorem who_of_grantee? {key : String} {who : ι} (h : grantee? key deed = some who) :
    who = deed.who := by
  obtain ⟨held, hgranted, -, rfl⟩ := grantee?_eq_some_iff.1 h
  obtain ⟨_, _, _, -, -, rfl⟩ := eq_of_granted? hgranted
  rfl

namespace InRounds

/-- Nothing changes in the rounds if nobody works or is granted the lease. -/
private theorem quiet (h : InRounds crew crowd deeds rounds)
    (hnone : grantees crew.leaseKey more = [])
    (hdatabase : after.world.database = crowd.world.database)
    (hreached : after.world.leaseFaults = crowd.world.leaseFaults)
    (hstand : ∀ who (ok : Except Error (Option SyncReport) → Replay → Prop) s,
      (crowd.stand who).Keeps replay (Permitted crew.leaseKey) ok (fun _ _ => False) s →
        (after.stand who).Keeps replay (Permitted crew.leaseKey) ok (fun _ _ => False) s) :
    InRounds crew after (deeds ++ more) rounds where
  whos := by rw [grantees_append, hnone, List.append_nil, h.whos]
  once := h.once
  chained := hdatabase ▸ h.chained
  entered round hm := hstand _ _ _ (h.entered round hm)
  waiting who hwho database := hstand _ _ _ (h.waiting who hwho database)
  reached := hreached ▸ h.reached

/-- What a member asks for is permitted, and it goes on as the replay does. -/
private theorem keeps_asked {key : String} {stand : Stand (Except Error (Option SyncReport))}
    {world : World} {ok : Except Error (Option SyncReport) → Replay → Prop} {s : Replay}
    (h : stand.Keeps replay (Permitted key) ok (fun _ _ => False) s)
    (hreached : world.leaseFaults.obtain = false) {r : Service.Request}
    (hgo : (stand.go world).1 = some (.asked r))
    (hdatabase : r.isWork = true → world.database = s.database) :
    Permitted key s r ∧ (stand.go world).2.1.Keeps replay (Permitted key) ok (fun _ _ => False)
      (replay.after s r (world.answer r).1) := by
  obtain ⟨hkeeps, hpermitted⟩ := Stand.keeps_go_of_replies world h fun r' hr' hp =>
    replies_of_permitted hp hreached fun hwork => hdatabase <| by
      rw [hgo] at hr'
      cases hr'
      exact hwork
  rw [hgo] at hkeeps
  exact ⟨hpermitted r hgo, hkeeps⟩

variable [DecidableEq ι] {who : ι}

private theorem world_asked {r : Service.Request}
    (hgo : ((crowd.stand who).go crowd.world).1 = some (.asked r)) :
    (crowd.move (.act who)).1.world = (crowd.world.answer r).2 := by
  have hworld := Stand.world_go (crowd.stand who) crowd.world
  rw [hgo] at hworld
  exact hworld

private theorem reached_asked (h : InRounds crew crowd deeds rounds) {r : Service.Request}
    (hgo : ((crowd.stand who).go crowd.world).1 = some (.asked r)) :
    (crowd.move (.act who)).1.world.leaseFaults.obtain = false := by
  rw [world_asked hgo, (World.frame_answer r crowd.world).leaseFaults]
  exact h.reached

/-- A member who works adds to the last round. -/
private theorem work (h : InRounds crew crowd deeds rounds) {r : Service.Request}
    (hgo : ((crowd.stand who).go crowd.world).1 = some (.asked r)) (hwork : r.isWork = true)
    (hlast : (grantees crew.leaseKey deeds).getLast? = some who) :
    ∃ rounds', InRounds crew (crowd.move (.act who)).1
      (deeds ++ [⟨who, crowd.world, .asked r⟩]) rounds' := by
  rw [← h.whos] at hlast
  obtain rfl | ⟨earlier, round, rfl⟩ := rounds.eq_nil_or_concat'
  · cases hlast
  obtain rfl : round.who = who := by simpa using hlast
  obtain ⟨hchained, hleft⟩ := chained_concat.1 h.chained
  have honce := h.once
  rw [List.map_append, List.nodup_append] at honce
  have hothers : ∀ other ∈ earlier, other.who ≠ round.who := fun other hm =>
    honce.2.2 _ (List.mem_map_of_mem hm) _ (by simp)
  -- The world answers what the round's own database answers.
  obtain ⟨hpermitted, hkeeps⟩ :=
    keeps_asked (h.entered round (by simp)) h.reached hgo fun _ => hleft.symm
  set left := (round.left.answer r).2
  have hafter : replay.after ⟨true, round.left⟩ r (crowd.world.answer r).1 = ⟨true, left⟩ :=
    replay_after_of_isDatabase (hpermitted.works hwork).2 _
  have hdatabase : (crowd.move (.act round.who)).1.world.database = left := by
    rw [world_asked hgo, database_of_permitted hpermitted hleft.symm, hafter]
  refine ⟨earlier ++ [{ round with left }], ?_, ?_, ?_, ?_, ?_, reached_asked h hgo⟩
  · rw [grantees_append, ← h.whos, grantees_singleton, grantee?_of_work rfl hwork]
    simp
  · simpa using h.once
  · exact chained_concat.2 ⟨hchained, hdatabase.symm⟩
  · intro other hm
    rcases List.mem_append.1 hm with hm | hm
    · rw [crowd.stand_act_of_ne (hothers other hm)]
      exact h.entered other (List.mem_append_left _ hm)
    · rw [List.mem_singleton.1 hm]
      rw [crowd.stand_act_self, ← hafter]
      exact hkeeps
  · intro other hother database
    have hmem : other ∉ (earlier ++ [round]).map Round.who := by simpa using hother
    rw [crowd.stand_act_of_ne (fun heq => hmem (by simp [heq]))]
    exact h.waiting other hmem database

/-- A member who is granted the lease begins another round. -/
private theorem grant (h : InRounds crew crowd deeds rounds) {r : Service.Request}
    (hgo : ((crowd.stand who).go crowd.world).1 = some (.asked r)) (hwork : r.isWork = false)
    (hgrant : grantee? crew.leaseKey ⟨who, crowd.world, .asked r⟩ = some who) :
    ∃ rounds', InRounds crew (crowd.move (.act who)).1
      (deeds ++ [⟨who, crowd.world, .asked r⟩]) rounds' := by
  have hvacuous : ∀ {p : Prop}, r.isWork = true → p := fun hyes => by simp [hwork] at hyes
  -- Whoever was granted the lease before does not ask for it again.
  have hnew : who ∉ rounds.map Round.who := by
    intro hmem
    obtain ⟨round, hm, rfl⟩ := List.mem_map.1 hmem
    obtain ⟨held, hgranted, -, -⟩ := grantee?_eq_some_iff.1 hgrant
    obtain ⟨other, ttl, token, hact, -, -⟩ := eq_of_granted? hgranted
    obtain ⟨hpermitted, -⟩ := keeps_asked (h.entered round hm) h.reached hgo hvacuous
    cases (hpermitted.asks other ttl (Act.asked.inj hact)).2
  set found := crowd.world.database with hfound
  obtain ⟨hpermitted, hkeeps⟩ :=
    keeps_asked (h.waiting who hnew found) h.reached hgo hvacuous
  rw [replay_after_of_no_work hpermitted hwork who crowd.world, hgrant] at hkeeps
  have hdatabase : (crowd.move (.act who)).1.world.database = found := by
    rw [world_asked hgo, database_of_permitted hpermitted hfound.symm,
      replay_after_of_not_work hwork]
  refine ⟨rounds ++ [⟨who, found, found⟩], ?_, ?_, ?_, ?_, ?_, reached_asked h hgo⟩
  · rw [grantees_append, ← h.whos, grantees_singleton, hgrant]
    simp
  · rw [List.map_append]
    exact h.once.append (List.nodup_singleton _) (by simpa using hnew)
  · exact chained_concat.2 ⟨h.chained, hdatabase.symm⟩
  · intro other hm
    rcases List.mem_append.1 hm with hm | hm
    · rw [crowd.stand_act_of_ne fun heq : other.who = who => hnew (heq ▸ List.mem_map_of_mem hm)]
      exact h.entered other hm
    · rw [List.mem_singleton.1 hm]
      rw [crowd.stand_act_self]
      exact hkeeps
  · intro other hother database
    rw [List.map_append, List.mem_append, not_or] at hother
    rw [crowd.stand_act_of_ne (by simpa using hother.2)]
    exact h.waiting other hother.1 database

/-- A member who neither works nor is granted the lease changes nothing. -/
private theorem idle (h : InRounds crew crowd deeds rounds)
    (hnone : grantees crew.leaseKey more = [])
    (hgo : ∀ r, ((crowd.stand who).go crowd.world).1 = some (.asked r) →
      r.isWork = false ∧ grantee? crew.leaseKey ⟨who, crowd.world, .asked r⟩ = none) :
    InRounds crew (crowd.move (.act who)).1 (deeds ++ more) rounds := by
  have hworld : (crowd.move (.act who)).1.world.database = crowd.world.database ∧
      (crowd.move (.act who)).1.world.leaseFaults = crowd.world.leaseFaults := by
    have hworld : (crowd.move (.act who)).1.world = _ :=
      Stand.world_go (crowd.stand who) crowd.world
    rw [hworld]
    split
    · next r hr =>
        refine ⟨crowd.world.database_answer ?_, (World.frame_answer r crowd.world).leaseFaults⟩
        rintro session sql rfl
        cases (hgo _ hr).1
    · exact ⟨rfl, rfl⟩
  refine h.quiet hnone hworld.1 hworld.2 fun other ok s hkeeps => ?_
  by_cases hother : other = who
  · subst hother
    rw [crowd.stand_act_self]
    by_cases hasked : ∃ r, ((crowd.stand other).go crowd.world).1 = some (.asked r)
    · obtain ⟨r, hr⟩ := hasked
      obtain ⟨hwork, hgrant⟩ := hgo r hr
      obtain ⟨hpermitted, hafter⟩ :=
        keeps_asked hkeeps h.reached hr fun hyes => by simp [hwork] at hyes
      rw [replay_after_of_no_work hpermitted hwork other crowd.world, hgrant] at hafter
      exact hafter
    · have hafter := (Stand.keeps_go_of_replies crowd.world hkeeps fun r hr _ =>
        absurd ⟨r, hr⟩ hasked).1
      cases hact : ((crowd.stand other).go crowd.world).1 with
      | none => rwa [hact] at hafter
      | some act =>
          rw [hact] at hafter
          cases act with
          | asked r => exact absurd ⟨r, hact⟩ hasked
          | slept length => exact hafter
          | interrupted why => exact hafter
  · rw [crowd.stand_act_of_ne hother]
    exact hkeeps

/-- **Every turn** adds to the last round, or begins another one, or leaves the rounds as they
are. -/
theorem move (h : InRounds crew crowd deeds rounds) {turn : Turn ι}
    (hpeaceful : turn.isPeaceful = true)
    (hlast : ∀ deed, (crowd.move turn).2 = some deed → deed.isWork = true →
      (grantees crew.leaseKey deeds).getLast? = some deed.who) :
    ∃ rounds', InRounds crew (crowd.move turn).1 (deeds ++ (crowd.move turn).2.toList) rounds' := by
  cases turn with
  | interrupt who why => cases hpeaceful
  | meddle meddling => cases hpeaceful
  | pass length => exact ⟨rounds, h.quiet rfl rfl rfl fun _ _ _ hkeeps => hkeeps⟩
  | inquire key =>
      have hworld : (crowd.world.leaseHolder key).2.database = crowd.world.database ∧
          (crowd.world.leaseHolder key).2.leaseFaults = crowd.world.leaseFaults := by
        unfold World.leaseHolder
        split <;> exact ⟨rfl, rfl⟩
      exact ⟨rounds, h.quiet rfl hworld.1 hworld.2 fun _ _ _ hkeeps => hkeeps⟩
  | act who =>
      have hdeed : (crowd.move (.act who)).2 =
        ((crowd.stand who).go crowd.world).1.map fun act => ⟨who, crowd.world, act⟩ := rfl
      rw [hdeed] at hlast ⊢
      by_cases hasked : ∃ r, ((crowd.stand who).go crowd.world).1 = some (.asked r)
      · obtain ⟨r, hr⟩ := hasked
        simp only [hr, Option.map_some, Option.toList_some] at hlast ⊢
        by_cases hwork : r.isWork = true
        · exact h.work hr hwork (hlast _ rfl (isWork_of_asked rfl hwork))
        rw [Bool.not_eq_true] at hwork
        cases hgrant : grantee? crew.leaseKey (⟨who, crowd.world, .asked r⟩ : Deed ι) with
        | none =>
            refine ⟨rounds, h.idle (by simp [hgrant]) fun r' hr' => ?_⟩
            obtain rfl : r = r' := by simpa [hr] using hr'
            exact ⟨hwork, hgrant⟩
        | some other =>
            obtain rfl : other = who := who_of_grantee? hgrant
            exact h.grant hr hwork hgrant
      · refine ⟨rounds, h.idle ?_ fun r hr => absurd ⟨r, hr⟩ hasked⟩
        cases hact : ((crowd.stand who).go crowd.world).1 with
        | none => rfl
        | some act =>
            cases act with
            | asked r => exact absurd ⟨r, hact⟩ hasked
            | slept length => rfl
            | interrupted why => rfl

end InRounds

/-- **Along every schedule** in which all work is done in time there are rounds. -/
theorem inRounds_run [DecidableEq ι] (crew : Crew ι) {turns : List (Turn ι)}
    (hpeaceful : ∀ turn ∈ turns, turn.isPeaceful = true)
    (hintime : InTime (crew.crowd.run turns).2) :
    ∃ rounds, InRounds crew (crew.crowd.run turns).1 (crew.crowd.run turns).2 rounds := by
  induction turns using List.reverseRecOn with
  | nil => exact ⟨[], inRounds_nil crew⟩
  | append_singleton turns turn ih =>
      have hrun : crew.crowd.run (turns ++ [turn]) =
          (((crew.crowd.run turns).1.move turn).1,
            (crew.crowd.run turns).2 ++ ((crew.crowd.run turns).1.move turn).2.toList) := by
        rw [Crowd.run_append, Crowd.run_cons, Crowd.run_nil, List.append_nil]
      have hbefore : InTime (crew.crowd.run turns).2 := by
        intro before deed after hd
        refine hintime before deed (after ++ ((crew.crowd.run turns).1.move turn).2.toList) ?_
        rw [hrun, hd, List.append_assoc, List.cons_append]
      obtain ⟨rounds, hrounds⟩ :=
        ih (fun turn hm => hpeaceful turn (List.mem_append_left _ hm)) hbefore
      rw [hrun]
      refine hrounds.move (hpeaceful turn (by simp)) fun deed hdeed hwork => ?_
      have hd : (crew.crowd.run (turns ++ [turn])).2 =
          (crew.crowd.run turns).2 ++ deed :: [] := by rw [hrun, hdeed, Option.toList_some]
      exact getLast?_grantees_of_isWork crew.opening hintime hd hwork

end Turns

/-! ### One after the other -/

/-- The syncs of those who were granted the lease, one after the other and in this order, in the
world that the crew began with, but without any leases. -/
def Crew.serial (crew : Crew ι) (deeds : List (Deed ι)) : List Ending × World :=
  crew.serially (grantees crew.leaseKey deeds) { crew.world with leases := {} }

/-- What a crew has done and left behind is what those who were granted the lease do one after the
other. -/
structure Serializable (crew : Crew ι) (final : Crowd ι (Except Error (Option SyncReport)))
    (deeds : List (Deed ι)) : Prop where
  /-- Nobody was granted the lease twice. -/
  once : (grantees crew.leaseKey deeds).Nodup
  catalog : final.world.catalog = (crew.serial deeds).2.catalog
  /-- Each session has executed the same statements in the same order. -/
  sessions : final.world.sessions = (crew.serial deeds).2.sessions
  endings : (grantees crew.leaseKey deeds).map (fun who => (final.stand who).outcome?) =
    (crew.serial deeds).1.map some
  /-- Everybody else has nothing to report. -/
  skipped : ∀ who, who ∉ grantees crew.leaseKey deeds →
    (final.stand who).outcome? = some (.ok (.ok none))
  /-- Nobody else has executed a statement. -/
  statements : ∀ deed ∈ deeds, ∀ session sql, deed.act = .asked (.execute session sql) →
    deed.who ∈ grantees crew.leaseKey deeds

/-- **Syncs at the same time are like syncs one after the other**: if nobody is interrupted, and
all work is done before the lease runs out, then once everybody has ended all is as if those who
were granted the lease had synced in the order of their grants, and nobody else had. -/
theorem syncs_serializable [DecidableEq ι] (crew : Crew ι) (turns : List (Turn ι))
    (hpeaceful : ∀ turn ∈ turns, turn.isPeaceful = true)
    (hintime : InTime (crew.crowd.run turns).2)
    (hended : ∀ who, ((crew.crowd.run turns).1.stand who).outcome?.isSome = true) :
    Serializable crew (crew.crowd.run turns).1 (crew.crowd.run turns).2 := by
  obtain ⟨rounds, h⟩ := inRounds_run crew hpeaceful hintime
  -- Whoever has ended has ended as the replay says.
  have hdone : ∀ who (ok : Except Error (Option SyncReport) → Replay → Prop) s,
      ((crew.crowd.run turns).1.stand who).Keeps replay (Permitted crew.leaseKey) ok
        (fun _ _ => False) s →
        ∃ value, ((crew.crowd.run turns).1.stand who).outcome? = some (.ok value) ∧ ok value s := by
    intro who ok s hkeeps
    have hended := hended who
    cases hstand : (crew.crowd.run turns).1.stand who with
    | resting since length next => rw [hstand] at hended; cases hended
    | acting job =>
        rw [hstand] at hended hkeeps
        cases job with
        | done value => exact ⟨value, rfl, hkeeps⟩
        | stop why => exact hkeeps.elim
        | sleep length next => cases hended
        | ask r next => cases hended
  have hrounds : ∀ round ∈ rounds, ∃ result,
      (crew.manager round.who).outcome round.found = (.ok result, round.left) ∧
        ((crew.crowd.run turns).1.stand round.who).outcome? = some (.ok (result.map some)) := by
    intro round hm
    obtain ⟨value, houtcome, result, hresult, rfl⟩ := hdone _ _ _ (h.entered round hm)
    exact ⟨result, hresult, houtcome⟩
  have havailable : Available crew.leaseKey { crew.world with leases := {} } :=
    ⟨crew.reached.1, crew.reached.2, fun _ hm => absurd hm List.not_mem_nil⟩
  have hfirst : { crew.world with leases := {} }.database = crew.world.database := rfl
  obtain ⟨hdatabase, hendings⟩ := crew.serially_of_chained h.chained hfirst havailable
    (fun who => ((crew.crowd.run turns).1.stand who).outcome?) hrounds
  rw [h.whos] at hdatabase hendings
  refine ⟨h.whos ▸ h.once, ?_, ?_, hendings.symm, fun who hwho => ?_, fun deed hm => ?_⟩
  · exact (congrArg Database.catalog hdatabase).symm
  · exact (congrArg Database.sessions hdatabase).symm
  · obtain ⟨value, houtcome, hvalue⟩ :=
      hdone _ _ _ (h.waiting who (h.whos ▸ hwho) crew.world.database)
    rw [houtcome, show value = .ok none from hvalue]
  · rintro session sql hact
    obtain ⟨before, after, hd⟩ := List.append_of_mem hm
    have hlast := getLast?_grantees_of_isWork crew.opening hintime hd (isWork_of_asked hact rfl)
    rw [hd, grantees_append]
    exact List.mem_append_left _ (List.mem_of_getLast? hlast)

/-! ### Three workers -/

/-- Three workers who sync the small table, the second one while the first one waits for a lock and
the third one when that is over. -/
def trio : Crew (Fin 3) where
  world :=
    { sessions := [(⟨0⟩,
        { applies := true
          failures := [⟨"CREATE TABLE", some 1, .lockTimeout "lock timeout"⟩] })] }
  oneEach := Lease.Store.oneEach_empty
  below := Lease.Store.below_empty
  reached := ⟨rfl, rfl⟩
  table := "items"
  keyspace := "database/partitioning"
  list _ := items
  table_eq _ := rfl
  settings _ := {}
  keyspace_eq _ := rfl
  session _ := ⟨0⟩
  account _ := ⟨0⟩
  start who := .ofMillis (who.val * 20)

/-- A worker goes on for so many turns. -/
private def takeTurns (who : Fin 3) (turns : Nat) : List (Turn (Fin 3)) :=
  List.replicate turns (.act who)

/-- The first worker sleeps after a lock timeout, and the second one finds the lease taken. -/
def waiting : List (Turn (Fin 3)) :=
  takeTurns 0 1 ++ takeTurns 1 1 ++ takeTurns 2 1 ++ takeTurns 0 12 ++ [.pass (.ofMillis 20)] ++
    takeTurns 1 6 ++ [.pass (.ofMillis 30)] ++ takeTurns 0 40 ++ takeTurns 2 40

/-- The first and the third worker are granted the lease, and everybody ends. -/
theorem waiting_trio :
    grantees trio.leaseKey (trio.crowd.run waiting).2 = [0, 2] ∧
      InTime (trio.crowd.run waiting).2 ∧
      ∀ who, ((trio.crowd.run waiting).1.stand who).outcome?.isSome = true := by
  decide +kernel

/-- What the three have done is what the first and the third one do one after the other. -/
theorem syncs_serializable_trio :
    grantees trio.leaseKey (trio.crowd.run waiting).2 = [0, 2] ∧
      Serializable trio (trio.crowd.run waiting).1 (trio.crowd.run waiting).2 :=
  ⟨waiting_trio.1,
    syncs_serializable trio waiting (by decide) waiting_trio.2.1 waiting_trio.2.2⟩

end Partition

end Upkeep
