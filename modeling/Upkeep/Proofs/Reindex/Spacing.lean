import Upkeep.Proofs.Reindex.Record
import Upkeep.Proofs.Reindex.Team

/-!
# The time between attempts

An automatic run leaves alone what was rebuilt recently.  But it chooses all its indexes before
it rebuilds the first of them, so an index may be rebuilt by somebody else in between.  Apart
from that, two attempts on one index start further apart than the window; and even then the
attempts do not overlap.

## Main Definitions

* `Team.automatics` — a team each of whose members makes an automatic run.
* `Distinct` — no candidates of a member have the same address.

## Main Statements

* `rebuilds_spaced` — the time between two attempts on one index.
* `rebuilds_not_spaced` — the race that remains.
-/

namespace Upkeep

open Simulation Lease

variable {ι : Type}

/-! ### The window -/

/-- An action that is not recent has started before the window. -/
theorem Thresholds.started_lt_of_not_isRecent {thresholds : Thresholds} {now : UInt64}
    {history : List Action} (hwindow : thresholds.recent.millis < UInt64.size)
    (h : thresholds.isRecent now history = false) {action : Action} (hm : action ∈ history) :
    action.started.toNat + thresholds.recent.millis < now.toNat := by
  have hold := List.any_eq_false.1 h action hm
  rw [decide_eq_true_iff, UInt64.not_le, cutoff] at hold
  have hmillis : thresholds.recent.millis64.toNat = thresholds.recent.millis :=
    UInt64.toNat_ofNat_of_lt' hwindow
  split at hold
  · next hle =>
      rw [UInt64.lt_iff_toNat_lt, UInt64.toNat_sub_of_le _ _ hle, hmillis] at hold
      omega
  · exact absurd hold UInt64.not_lt_zero

namespace Reindex

variable [DecidableEq ι] {team : Team ι} {candidates : ι → List Index} {maximum : ι → Nat}
  {turns : List (Turn ι)}

/-- A team each of whose members makes an automatic run. -/
def Team.automatics (team : Team ι) (candidates : ι → List Index) (maximum : ι → Nat) :
    Crowd ι (Except Error (List Performed)) :=
  team.crowd fun who => ((team.coordinator who).automatic (candidates who) (maximum who)).toJob

omit [DecidableEq ι] in
theorem Team.opening_automatics (team : Team ι) (candidates : ι → List Index)
    (maximum : ι → Nat) : Opening (fun _ _ => none) (team.automatics candidates maximum) :=
  team.opening fun _ => (emptyHanded_automatic _ _ _).guarded

/-- No candidates of a member have the same address. -/
def Distinct (candidates : ι → List Index) : Prop :=
  ∀ who, ((candidates who).map Index.address).Nodup

section Deeds

variable {before after : List (Deed ι)} {deed : Deed ι}

/-- Each member keeps the rule of automatic runs. -/
theorem conduct_of_run (hdistinct : Distinct candidates)
    (hd : ((team.automatics candidates maximum).run turns).2 = before ++ deed :: after)
    {r : Service.Request} (hact : deed.act = .asked r) :
    (team.coordinator deed.who).Conduct (transcriptOf deed.who before) r := by
  have hkeeps : ((team.automatics candidates maximum).stand deed.who).Keeps
      (.recording Service True) _ (fun _ _ => True) (fun _ _ => True) [] :=
    Job.Keeps.mono ((team.coordinator deed.who).keeps_automatic (maximum deed.who)
      (hdistinct deed.who)) (fun _ _ hr => hr) (fun _ _ _ => trivial) fun _ _ hs => hs
  exact Crowd.rule_of_transcript hkeeps hd hact

/-- Whoever updates an action has created it, and has asked for no lease since. -/
theorem opened_of_run (hdistinct : Distinct candidates)
    (hd : ((team.automatics candidates maximum).run turns).2 = before ++ deed :: after)
    {action : Action} (hact : deed.act = .asked (.updateAction action)) :
    ∃ l₁ begun l₂ opened, before = l₁ ++ begun :: l₂ ∧ begun.who = deed.who ∧
      begun.created? = some opened ∧ action.Continues opened ∧
        obtains (transcriptOf deed.who l₂) = 0 := by
  obtain ⟨opened, t', more, ht, hcontinues, hobtains⟩ :=
    (conduct_of_run hdistinct hd hact).updates action rfl
  obtain ⟨l₁, begun, l₂, hbefore, hwho, hbegun, hok, -, hmore⟩ := exists_deed_of_transcript ht
  exact ⟨l₁, begun, l₂, opened, hbefore, hwho, Deed.created?_eq_some_iff.2 ⟨hbegun, hok⟩,
    hcontinues, hmore ▸ hobtains⟩

/-- **Whoever creates an action** has read the history of its index before, and has found
nothing recent in it. -/
theorem listed_of_run (hdistinct : Distinct candidates)
    (hclock : ((team.automatics candidates maximum).run turns).2.Pairwise
      fun a b => a.world.clock ≤ b.world.clock)
    (hd : ((team.automatics candidates maximum).run turns).2 = before ++ deed :: after)
    {action : Action} (hact : deed.act = .asked (.createAction action)) :
    ∃ l₁ listing l₂ now history, before = l₁ ++ listing :: l₂ ∧ listing.who = deed.who ∧
      listing.act = .asked (.listActions action.database action.index) ∧
        listing.world.listActions action.database action.index = .ok history ∧
          team.settings.thresholds.isRecent now history = false ∧ now ≤ action.started := by
  obtain ⟨index, t', started, id, ht, rfl, ⟨t₁, t₂, t₃, now, history, rfl, hrecent⟩, -⟩ :=
    (conduct_of_run hdistinct hd hact).creates action rfl
  rw [List.append_assoc, List.cons_append] at ht
  obtain ⟨l₁, listing, l₂, rfl, hwho, hlisting, hhistory, ht₁, ht₂⟩ :=
    exists_deed_of_transcript ht
  -- The clock was read before the listing for its sake, and after it for that of the action.
  obtain ⟨n₁, early, n₂, rfl, -, -, hnow, -⟩ := exists_deed_of_transcript ht₁
  obtain ⟨s₁, late, s₂, rfl, -, -, hstarted, -⟩ := exists_deed_of_transcript ht₂
  refine ⟨_, listing, _, now, history, rfl, hwho, hlisting, hhistory, hrecent, ?_⟩
  rw [hd] at hclock
  have hpairwise := (List.pairwise_append.1 (List.pairwise_append.1 hclock).1).2.2
  have hle := hpairwise early (by simp) late (by simp)
  change early.world.clock = now at hnow
  change late.world.clock = started at hstarted
  rwa [hnow, hstarted] at hle

end Deeds

section Pairs

variable {l₁ l₂ l₃ : List (Deed ι)} {first second : Deed ι} {a b : Action}

/-- No member creates two actions on the same index. -/
private theorem who_ne_of_run (hdistinct : Distinct candidates)
    (hd : ((team.automatics candidates maximum).run turns).2 =
      l₁ ++ first :: l₂ ++ second :: l₃)
    (ha : first.created? = some a) (hb : second.created? = some b) (hab : a.address = b.address) :
    first.who ≠ second.who := by
  intro hwho
  obtain ⟨hfirst, -⟩ := Deed.created?_eq_some_iff.1 ha
  obtain ⟨hsecond, -⟩ := Deed.created?_eq_some_iff.1 hb
  obtain ⟨index, t', started, id, -, rfl, -, hother⟩ :=
    (conduct_of_run hdistinct hd hsecond).creates b rfl
  refine hother a ?_ hab
  rw [← hwho]
  have hexchange := Deed.exchange?_of_asked hfirst
  rw [transcriptOf_append, createdIn_append]
  refine List.mem_append_right _ (List.mem_filterMap.2 ⟨_, List.mem_filterMap.2
    ⟨first, List.mem_cons_self .., hexchange⟩, rfl⟩)

/-- What was created before the history was read for another action is older than the window. -/
private theorem started_lt_of_run (hdistinct : Distinct candidates)
    (hfaithful : Faithful (team.automatics candidates maximum) turns)
    (hwindow : team.settings.thresholds.recent.millis < UInt64.size)
    (hd : ((team.automatics candidates maximum).run turns).2 =
      l₁ ++ first :: l₂ ++ second :: l₃)
    (ha : first.created? = some a) (hb : second.created? = some b) (hab : a.address = b.address) :
    a.started.toNat + team.settings.thresholds.recent.millis < b.started.toNat ∨
      ∃ listing ∈ l₁, listing.who = second.who ∧
        listing.act = .asked (.listActions b.database b.index) := by
  obtain ⟨hsecond, -⟩ := Deed.created?_eq_some_iff.1 hb
  obtain ⟨m₁, listing, m₂, now, history, hbefore, hwho, hlisting, hhistory, hrecent, hnow⟩ :=
    listed_of_run hdistinct hfaithful.clock hd hsecond
  rcases append_cons_eq_cases hbefore with ⟨c, rfl, -⟩ | ⟨-, rfl, -⟩ | ⟨c, rfl, -⟩
  · -- The store has kept the first action, so it was in the history.
    left
    have hlist : ((team.automatics candidates maximum).run turns).2 =
        l₁ ++ first :: c ++ listing :: (m₂ ++ second :: l₃) := by
      rw [hd, hbefore, List.append_assoc (l₁ ++ first :: c), List.cons_append]
    obtain ⟨earlier, turn, later, hturns, hrun, hmove⟩ := Crowd.exists_turn_of_run hlist
    have hkept := kept_run hfaithful (fun before deed after hdeed action hact => by
      obtain ⟨n₁, begun, n₂, opened, rfl, -, hbegun, hcontinues, -⟩ :=
        opened_of_run hdistinct hdeed hact
      exact ⟨opened, mem_created.2 ⟨begun, by simp, hbegun⟩, hcontinues⟩) hturns
    rw [hrun, ← (Crowd.world_of_move hmove).1] at hkept
    obtain ⟨memory, hmemory, hstored⟩ := hkept
    obtain ⟨stored, hin, hcontinues⟩ := hstored a (mem_created.2 ⟨first, by simp, ha⟩)
    have hstoredMem : stored ∈ history := by
      rw [World.history_of_listActions hmemory hhistory]
      exact Memory.mem_history_of_address hin (hcontinues.address.trans hab)
    have hold := Thresholds.started_lt_of_not_isRecent hwindow hrecent hstoredMem
    rw [hcontinues.started] at hold
    exact lt_of_lt_of_le hold (UInt64.le_iff_toNat_le.1 hnow)
  · rw [(Deed.created?_eq_some_iff.1 ha).1] at hlisting
    cases hlisting
  · exact .inr ⟨listing, by simp, hwho, hlisting⟩

/-- An action is updated by the member that has created it, who has asked for no lease since. -/
private theorem no_lease_since (hdistinct : Distinct candidates)
    (hids : DistinctIds ((team.automatics candidates maximum).run turns).2)
    {deed : Deed ι} (hd : ((team.automatics candidates maximum).run turns).2 =
      l₁ ++ first :: l₂ ++ deed :: l₃)
    (ha : first.created? = some a) {action : Action}
    (hact : deed.act = .asked (.updateAction action)) (hid : action.id = a.id) :
    first.who = deed.who ∧ action.Continues a ∧
      ∀ other ∈ first :: l₂, other.who = first.who →
        ∀ r, other.act = .asked r → r.isObtain = false := by
  obtain ⟨m₁, begun, m₂, opened, hbefore, hwho, hbegun, hcontinues, hobtains⟩ :=
    opened_of_run hdistinct hd hact
  -- Both places are that of the action's creation.
  have hbeforeIds : DistinctIds (l₁ ++ first :: l₂) := by
    rw [hd, DistinctIds, created_append, List.map_append] at hids
    exact hids.of_append_left
  obtain ⟨rfl, rfl, rfl⟩ := hbeforeIds.place_eq hbefore ha hbegun (hid.symm.trans hcontinues.id)
  obtain rfl : a = opened := Option.some.inj (ha.symm.trans hbegun)
  refine ⟨hwho, hcontinues, fun other hother hotherwho r hr => ?_⟩
  rcases List.mem_cons.1 hother with rfl | hother
  · rw [(Deed.created?_eq_some_iff.1 ha).1] at hr
    cases hr
    rfl
  · have hcount := List.countP_eq_zero.1 hobtains ⟨r, (other.world.answer r).1⟩
      (List.mem_filterMap.2 ⟨other, hother, ?_⟩)
    · exact Bool.not_eq_true _ ▸ hcount
    · rw [← hwho, ← hotherwho]
      exact Deed.exchange?_of_asked hr

/-- An action is not updated any more once another member has created one on its index. -/
private theorem not_updated_of_run (hdistinct : Distinct candidates)
    (hids : DistinctIds ((team.automatics candidates maximum).run turns).2)
    (hintime : InTime ((team.automatics candidates maximum).run turns).2)
    (hd : ((team.automatics candidates maximum).run turns).2 =
      l₁ ++ first :: l₂ ++ second :: l₃)
    (ha : first.created? = some a) (hb : second.created? = some b) (hab : a.address = b.address) :
    ∀ deed ∈ l₃, ∀ action, deed.act = .asked (.updateAction action) → action.id ≠ a.id := by
  intro deed hm action hact hid
  obtain ⟨l₃, l₄, rfl⟩ := List.append_of_mem hm
  obtain ⟨hsecond, -⟩ := Deed.created?_eq_some_iff.1 hb
  have hspan : ((team.automatics candidates maximum).run turns).2 =
      l₁ ++ first :: l₂ ++ second :: l₃ ++ deed :: l₄ := by
    rw [hd, List.append_assoc (l₁ ++ first :: l₂), List.cons_append]
  have hcreated : ((team.automatics candidates maximum).run turns).2 =
      l₁ ++ first :: (l₂ ++ second :: l₃) ++ deed :: l₄ := by
    rw [hspan, List.append_assoc l₁, List.cons_append]
  -- The update is by the member that has created the action, who has still the same lease.
  obtain ⟨hwho, hcontinues, hnone⟩ := no_lease_since hdistinct hids hcreated ha hact hid
  obtain ⟨index, hindex, guard, hguard, hkey⟩ :=
    (conduct_of_run hdistinct hspan hact).works action (.inr rfl)
  obtain ⟨index', hindex', guard', hguard', hkey'⟩ :=
    (conduct_of_run hdistinct hd hsecond).works b (.inl rfl)
  have hsame : guard.key = guard'.key := by
    rw [hkey, hkey']
    exact Coordinator.leaseKey_congr rfl
      (hindex.trans (hcontinues.address.trans (hab.trans hindex'.symm)))
  refine who_ne_of_run hdistinct hd ha hb hab (who_eq_of_span
    (team.opening_automatics candidates maximum) hspan hwho.symm hnone hintime
      (isWork_of_asked hact rfl) (isWork_of_asked hsecond rfl) ?_ ?_ hsame).symm
  · rwa [watch_hand]
  · rwa [watch_hand]

/-- **Two attempts on one index** are those of two members, and they do not overlap: the first
action is not updated any more once the second one is created.  And they start further apart
than the window, unless the second member had read the history of the index before the first
action was created. -/
theorem rebuilds_spaced (hdistinct : Distinct candidates)
    (hfaithful : Faithful (team.automatics candidates maximum) turns)
    (hwindow : team.settings.thresholds.recent.millis < UInt64.size)
    (hintime : InTime ((team.automatics candidates maximum).run turns).2)
    (hd : ((team.automatics candidates maximum).run turns).2 =
      l₁ ++ first :: l₂ ++ second :: l₃)
    (ha : first.created? = some a) (hb : second.created? = some b)
    (hdatabase : a.database = b.database) (hindex : a.index = b.index) :
    first.who ≠ second.who ∧
      (a.started.toNat + team.settings.thresholds.recent.millis < b.started.toNat ∨
        ∃ listing ∈ l₁, listing.who = second.who ∧
          listing.act = .asked (.listActions b.database b.index)) ∧
      ∀ deed ∈ l₃, ∀ action, deed.act = .asked (.updateAction action) → action.id ≠ a.id := by
  have hab : a.address = b.address := Prod.ext hdatabase hindex
  exact ⟨who_ne_of_run hdistinct hd ha hb hab,
    started_lt_of_run hdistinct hfaithful hwindow hd ha hb hab,
    not_updated_of_run hdistinct hfaithful.ids hintime hd ha hb hab⟩

end Pairs

/-! ### A race -/

/-- Two workers with a lease for each index. -/
def racers : Team Bool where
  world := {}
  oneEach := Store.oneEach_empty
  below := Store.below_empty
  settings := { scope := .perIndex }
  worker late := ⟨late.toNat⟩
  session _ := ⟨0⟩
  account _ := ⟨0⟩
  notifier _ := .nobody

/-- An index that is worth a rebuild. -/
def bloatedIndex : Index where
  database := "main"
  schema := "public"
  name := "index_a"
  size := 10737418240
  bloat := some 4294967296

/-- Both workers make a run for the index. -/
def race : Crowd Bool (Except Error (List Performed)) :=
  racers.automatics (fun _ => [bloatedIndex]) fun _ => 1

/-- The first worker chooses the index; then the second worker chooses and rebuilds it, and
after that the first worker rebuilds it as well. -/
def racing : List (Turn Bool) :=
  List.replicate 3 (.act false) ++ List.replicate 17 (.act true) ++ List.replicate 14 (.act false)

theorem distinct_race : Distinct fun _ : Bool => [bloatedIndex] :=
  fun _ => List.nodup_singleton _

theorem faithful_race : Faithful race racing where
  memory := ⟨{}, rfl⟩
  untouched meddling hm := by simp [racing] at hm
  clock := by decide +kernel
  ids := by
    show List.Nodup _
    decide +kernel

theorem inTime_race : InTime (race.run racing).2 := by decide +kernel

/-- Two places of a list, by their numbers. -/
private theorem exists_places {β : Type} (l : List β) {i j : Nat} (hij : i < j)
    (hj : j < l.length) : ∃ l₁ a l₂ b l₃, l = l₁ ++ a :: l₂ ++ b :: l₃ ∧ l[i]? = some a ∧
      l[j]? = some b := by
  have hi : i < (l.take j).length := by
    rw [List.length_take]
    omega
  have hsecond : l.take j ++ l[j] :: l.drop (j + 1) = l := by
    rw [← List.drop_eq_getElem_cons hj, List.take_append_drop]
  have hfirst : (l.take j).take i ++ (l.take j)[i] :: (l.take j).drop (i + 1) = l.take j := by
    rw [← List.drop_eq_getElem_cons hi, List.take_append_drop]
  refine ⟨_, _, _, _, _, by rw [hfirst, hsecond], ?_, List.getElem?_eq_getElem hj⟩
  rw [List.getElem_take, List.getElem?_eq_getElem (hij.trans hj)]

/-- Both workers create an action for the index. -/
theorem exists_pair_race : ∃ l₁ first l₂ second l₃ a b,
    (race.run racing).2 = l₁ ++ first :: l₂ ++ second :: l₃ ∧ first.created? = some a ∧
      second.created? = some b ∧ a.database = b.database ∧ a.index = b.index ∧
        a.started = b.started := by
  obtain ⟨l₁, first, l₂, second, l₃, hd, hfirst, hsecond⟩ :=
    exists_places (race.run racing).2 (i := 10) (j := 24) (by decide) (by decide +kernel)
  have ha : (race.run racing).2[10]?.bind Deed.created? =
      some (.start (.ofNat 0) bloatedIndex 0) := by decide +kernel
  have hb : (race.run racing).2[24]?.bind Deed.created? =
      some (.start (.ofNat 1) bloatedIndex 0) := by decide +kernel
  rw [hfirst] at ha
  rw [hsecond] at hb
  exact ⟨l₁, first, l₂, second, l₃, _, _, hd, ha, hb, rfl, rfl, rfl⟩

/-- Two attempts on one index within the window are not excluded. -/
theorem rebuilds_not_spaced :
    Distinct (fun _ : Bool => [bloatedIndex]) ∧ Faithful race racing ∧
      racers.settings.thresholds.recent.millis < UInt64.size ∧ InTime (race.run racing).2 ∧
        ∃ l₁ first l₂ second l₃ a b,
          (race.run racing).2 = l₁ ++ first :: l₂ ++ second :: l₃ ∧ first.created? = some a ∧
            second.created? = some b ∧ a.database = b.database ∧ a.index = b.index ∧
              ¬ a.started.toNat + racers.settings.thresholds.recent.millis < b.started.toNat := by
  refine ⟨distinct_race, faithful_race, by decide, inTime_race, ?_⟩
  obtain ⟨l₁, first, l₂, second, l₃, a, b, hd, ha, hb, hdatabase, hindex, hstarted⟩ :=
    exists_pair_race
  exact ⟨l₁, first, l₂, second, l₃, a, b, hd, ha, hb, hdatabase, hindex, by rw [hstarted]; omega⟩

/-- Two attempts on one index that race are those of two workers, do not overlap, and follow a
choice that was made before the first of them. -/
theorem rebuilds_spaced_race :
    ∃ l₁ first l₂ second l₃ a b, (race.run racing).2 = l₁ ++ first :: l₂ ++ second :: l₃ ∧
      first.created? = some a ∧ second.created? = some b ∧ first.who ≠ second.who ∧
        (a.started.toNat + racers.settings.thresholds.recent.millis < b.started.toNat ∨
          ∃ listing ∈ l₁, listing.who = second.who ∧
            listing.act = .asked (.listActions b.database b.index)) ∧
          ∀ deed ∈ l₃, ∀ action, deed.act = .asked (.updateAction action) →
            action.id ≠ a.id := by
  obtain ⟨l₁, first, l₂, second, l₃, a, b, hd, ha, hb, hdatabase, hindex, -⟩ := exists_pair_race
  exact ⟨l₁, first, l₂, second, l₃, a, b, hd, ha, hb, rebuilds_spaced distinct_race faithful_race
    (by decide) inTime_race hd ha hb hdatabase hindex⟩

end Reindex

end Upkeep
