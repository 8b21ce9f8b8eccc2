import Upkeep.Proofs.Reindex.Team

/-!
# Leftovers of rebuilds

A rebuild builds the new index under the name of a leftover.  So a leftover must not be dropped
while the index that it belongs to is being rebuilt.  Whether the leases see to that depends on
what a lease is for: one for the whole database does, and one for each index does not, because
the leftover and its index have different keys.

## Main Definitions

* `Index.IsLeftoverOf` — an index that a rebuild of another one leaves behind.
* `Call` — what is asked of coordinators.
* `Call.target?` — the index that a call is at.
* `Spared` — no leftover is dropped under a running rebuild.

## Main Statements

* `Call.keeps_underway` — a call works on its indexes one after the other, each under its lease.
* `leftovers_spared_iff` — which scope of leases spares leftovers.

## Design Notes

A statement that drops an index does not say which database it is for.  But each drop asks for
one lease, so the number of leases that a call has asked for tells which of its indexes it is
at.
-/

namespace Upkeep

/-- The index is one that an interrupted rebuild of the other one leaves behind. -/
def Index.IsLeftoverOf (leftover index : Index) : Prop :=
  leftover.database = index.database ∧ leftover.schema = index.schema ∧
    ∃ digits : List Char, digits.all Char.isDigit = true ∧
      leftover.name.toList = index.name.toList ++ Index.buildSuffix ++ digits

namespace Reindex

open Simulation Lease

variable {ι α : Type}

/-! ### Calls -/

/-- What a coordinator may be asked to do. -/
inductive Call where
  | perform (index : Index)
  | drop (index : Index)
  | cleanup (indexes : List Index)

namespace Call

/-- The job of a call. -/
def job (coordinator : Coordinator) : Call → Job Service Unit
  | perform index => (coordinator.perform index).toJob.bind fun _ => .done ()
  | drop index => (coordinator.drop index).toJob.bind fun _ => .done ()
  | cleanup indexes => (coordinator.cleanup indexes).toJob.bind fun _ => .done ()

/-- The indexes that a call works on, one after the other. -/
def targets : Call → List Index
  | perform index => [index]
  | drop index => [index]
  | cleanup indexes => indexes.filter Index.isLeftover

/-- The index that a call is at after a transcript: the last one whose lease it asked for. -/
def target? (call : Call) (t : Transcript Service) : Option Index :=
  (call.targets.take (obtains t)).getLast?

end Call

/-! ### What calls do -/

/-- What a call may ask for that works on the given indexes: one lease for each of them, and
whatever else is work under the lease of the index that it is at. -/
structure Underway (coordinator : Coordinator) (targets : List Index) (t : Transcript Service)
    (r : Service.Request) : Prop where
  asks : r.isObtain = true → obtains t < targets.length
  works : r.isWork = true → ∃ index, (targets.take (obtains t)).getLast? = some index ∧
    ∃ guard ∈ handOf t, guard.key = coordinator.leaseKey index
  rebuilds : ∀ worker index, r = .endRebuild worker index → targets = [index]

/-- The end of the part of a call that works on the given indexes. -/
def IsThrough (targets : List Index) (t : Transcript Service) : Prop :=
  handOf t = [] ∧ obtains t = targets.length

/-- A round is the part of a call that works on one index. -/
theorem keeps_of_isRound {coordinator : Coordinator} {index : Index} {done rest : List Index}
    {task : Task α} (hround : IsRound (coordinator.leaseKey index) task)
    (hrebuilds : task.Obeys (fun r => ∀ worker other, r = .endRebuild worker other →
      done ++ index :: rest = [other]) True) {t : Transcript Service} (ht : IsThrough done t) :
    task.Keeps (.recording Service True) (Underway coordinator (done ++ index :: rest))
      (fun _ t => IsThrough (done ++ [index]) t) (fun _ t => IsThrough (done ++ [index]) t)
      (fun _ _ => True) t := by
  obtain ⟨hhand, hobtains⟩ := ht
  have hrule : task.toJob.Keeps (.recording Service True)
      (fun _ r => ∀ worker other, r = .endRebuild worker other → done ++ index :: rest = [other])
      (fun _ _ => True) (fun _ _ => True) t :=
    Job.Obeys.keeps hrebuilds (fun _ _ _ hr => hr) (fun _ _ _ _ _ => trivial)
      (fun _ _ _ _ => trivial) trivial
  refine (Job.Keeps.and (hround t hhand) hrule).mono ?_ ?_ fun _ _ _ => trivial
  · rintro t' r ⟨hr, hrebuild⟩
    refine ⟨fun hobtain => ?_, fun hwork => ⟨index, ?_, ?_⟩, hrebuild⟩
    · rw [hr.asks hobtain, hobtains, List.length_append, List.length_cons]
      omega
    · rw [hr.asked hwork, hobtains, List.append_cons]
      have htake : ((done ++ [index]) ++ rest).take (done ++ [index]).length = done ++ [index] :=
        List.take_left
      rw [List.length_append, List.length_singleton] at htake
      rw [htake, List.getLast?_concat]
    · exact hr.lawful.covered _ (if_pos hwork)
  · rintro result t' ⟨hend, -⟩
    match result with
    | .ok value => exact ⟨hend.1, by rw [hend.2, hobtains, List.length_append]; rfl⟩
    | .error error => exact ⟨hend.1, by rw [hend.2, hobtains, List.length_append]; rfl⟩

/-- A drop rebuilds nothing. -/
private theorem obeys_drop (coordinator : Coordinator) (index : Index) (targets : List Index) :
    (coordinator.drop index).Obeys
      (fun r => ∀ worker other, r = .endRebuild worker other → targets = [other]) True :=
  coordinator.obeys_drop index ⟨nofun, nofun, nofun⟩ nofun nofun nofun

/-- Indexes are dropped one after the other. -/
theorem keeps_dropAll (coordinator : Coordinator) (rest : List Index) (done : List Index)
    {t : Transcript Service} (ht : IsThrough done t) :
    (coordinator.dropAll rest).Keeps (.recording Service True)
      (Underway coordinator (done ++ rest)) (fun _ _ => True) (fun _ _ => True)
      (fun _ _ => True) t := by
  induction rest generalizing done t with
  | nil => exact trivial
  | cons index rest ih =>
      refine Task.keeps_bind.2 ((keeps_of_isRound (isRound_drop coordinator index)
        (obeys_drop coordinator index _) ht).mono (fun _ _ hr => hr) ?_ (fun _ _ _ => trivial)
          fun _ _ hs => hs)
      intro result t' ht'
      rw [List.append_cons]
      exact Task.keeps_bind.2 ((ih (done ++ [index]) ht').weaken fun _ _ _ => trivial)

/-- What a task ends with does not matter to a call. -/
private theorem keeps_discard {task : Task α} {rule : Transcript Service → Service.Request → Prop}
    {ok : α → Transcript Service → Prop} {failed : Error → Transcript Service → Prop}
    {t : Transcript Service}
    (h : task.Keeps (.recording Service True) rule ok failed (fun _ _ => True) t) :
    (task.toJob.bind fun _ => .done ()).Keeps (.recording Service True) rule (fun _ _ => True)
      (fun _ _ => True) t :=
  Job.keeps_bind.2 (Job.Keeps.mono h (fun _ _ hr => hr) (fun _ _ _ => trivial) fun _ _ hs => hs)

/-- **A call works on its indexes one after the other**, each under the lease for it. -/
theorem Call.keeps_underway (coordinator : Coordinator) (call : Call) :
    (call.job coordinator).Keeps (.recording Service True) (Underway coordinator call.targets)
      (fun _ _ => True) (fun _ _ => True) [] := by
  have hstart : IsThrough [] [] := ⟨rfl, rfl⟩
  cases call with
  | perform index =>
      have hallows : coordinator.Allows index fun r => ∀ worker other,
          r = .endRebuild worker other → [] ++ [index] = [other] := by
        refine ⟨nofun, nofun, nofun, nofun, (fun _ _ _ _ h => nomatch h),
          (fun _ _ _ h => nomatch h), (fun _ _ _ _ h => nomatch h), (fun _ _ _ _ h => nomatch h),
          nofun, ?_, nofun⟩
        rintro worker other ⟨⟩
        rfl
      exact keeps_discard (keeps_of_isRound (isRound_perform coordinator index)
        (hallows.obeys_perform nofun nofun nofun) hstart)
  | drop index =>
      exact keeps_discard (keeps_of_isRound (isRound_drop coordinator index)
        (obeys_drop coordinator index _) hstart)
  | cleanup indexes => exact keeps_discard (keeps_dropAll coordinator _ [] hstart)

/-- A call begins and ends with empty hands. -/
theorem Call.guarded_job (coordinator : Coordinator) (call : Call) :
    Guarded (fun _ => none) (call.job coordinator) := by
  have hguarded : ∀ {β : Type} {task : Task β}, EmptyHanded task →
      Guarded (fun _ => none) (task.toJob.bind fun _ => .done ()) :=
    fun h => Job.keeps_bind.2 h.guarded
  cases call with
  | perform index => exact hguarded (emptyHanded_of_keeps (coordinator.keeps_perform index))
  | drop index => exact hguarded (emptyHanded_of_keeps (coordinator.keeps_drop index))
  | cleanup indexes => exact hguarded (emptyHanded_dropAll coordinator _)

/-! ### Teams -/

namespace Team

variable (team : Team ι) (call : ι → Call)

/-- The team before its first turn, each member with a call. -/
def calling : Crowd ι Unit := team.crowd fun who => (call who).job (team.coordinator who)

theorem opening_calling : Opening (fun _ _ => none) (team.calling call) :=
  team.opening fun who => (call who).guarded_job _

end Team

variable [DecidableEq ι]

/-- No leftover of an index is dropped between the begin and the end of a rebuild of the
index. -/
def Spared (call : ι → Call) (deeds : List (Deed ι)) : Prop :=
  ∀ l₁ l₂ l₃ l₄ begun dropped ended, deeds = l₁ ++ begun :: l₂ ++ dropped :: l₃ ++ ended :: l₄ →
    ∀ worker index, begun.act = .asked (.beginRebuild worker index) →
      ended.act = .asked (.endRebuild worker index) → ended.who = begun.who →
        ∀ session leftover,
          dropped.act = .asked (.execute session leftover.dropStatement.text) →
            (call dropped.who).target? (transcriptOf dropped.who (l₁ ++ begun :: l₂)) =
              some leftover → ¬ leftover.IsLeftoverOf index

/-- Each call keeps its rule. -/
theorem Team.underway_of_run {team : Team ι} {call : ι → Call} {turns : List (Turn ι)}
    {before after : List (Deed ι)} {deed : Deed ι}
    (hd : ((team.calling call).run turns).2 = before ++ deed :: after) {r : Service.Request}
    (hact : deed.act = .asked r) :
    Underway (team.coordinator deed.who) (call deed.who).targets
      (transcriptOf deed.who before) r := by
  have hkeeps : ((team.calling call).stand deed.who).Keeps (.recording Service True) _ _ _ [] :=
    (call deed.who).keeps_underway (team.coordinator deed.who)
  exact Crowd.rule_of_transcript hkeeps hd hact

/-! ### Scopes -/

/-- A leftover is not its own index. -/
theorem not_isLeftoverOf_self (index : Index) : ¬ index.IsLeftoverOf index := by
  rintro ⟨-, -, digits, -, hname⟩
  have hlength := congrArg List.length hname
  simp only [List.length_append] at hlength
  have hsuffix : 0 < Index.buildSuffix.length := by decide
  omega

/-- Of a single index, a part that has a last one has been begun. -/
private theorem eq_of_getLast?_take {index last : Index} {n : Nat}
    (h : ([index].take n).getLast? = some last) : last = index ∧ 0 < n := by
  match n with
  | 0 => cases h
  | n + 1 =>
      rw [List.take_succ_cons, List.take_nil, List.getLast?_singleton] at h
      exact ⟨(Option.some.inj h).symm, Nat.succ_pos n⟩

namespace Team

variable {team : Team ι} {call : ι → Call} {turns : List (Turn ι)}

/-- Whoever has begun a rebuild asks for no lease any more. -/
private theorem isObtain_eq_false_of_begun {l₁ more rest : List (Deed ι)} {begun : Deed ι}
    (hd : ((team.calling call).run turns).2 = l₁ ++ (begun :: more) ++ rest) {index : Index}
    (htargets : (call begun.who).targets = [index]) {r : Service.Request}
    (hact : begun.act = .asked r) (hwork : r.isWork = true) :
    ∀ deed ∈ begun :: more, deed.who = begun.who →
      ∀ r, deed.act = .asked r → r.isObtain = false := by
  intro deed hm hwho r' hact'
  by_contra hobtain
  obtain ⟨m₁, m₂, hm⟩ := List.append_of_mem hm
  have hdeed : ((team.calling call).run turns).2 = (l₁ ++ m₁) ++ deed :: (m₂ ++ rest) := by
    rw [hd, hm]
    simp
  have hbegun : ((team.calling call).run turns).2 = l₁ ++ begun :: (more ++ rest) := by
    rw [hd]
    simp
  have hasks := (underway_of_run hdeed hact').asks (Bool.not_eq_false _ ▸ hobtain)
  obtain ⟨last, hlast, -⟩ := (underway_of_run hbegun hact).works hwork
  rw [htargets] at hlast
  obtain ⟨-, hpos⟩ := eq_of_getLast?_take hlast
  rw [hwho, htargets, transcriptOf_append, obtains_append, List.length_singleton] at hasks
  omega

/-- **Leases for a database spare leftovers**, if all work is done in time. -/
theorem spared_of_perDatabase (hscope : team.settings.scope = .perDatabase)
    (hintime : InTime ((team.calling call).run turns).2) :
    Spared call ((team.calling call).run turns).2 := by
  intro l₁ l₂ l₃ l₄ begun dropped ended hd worker index hbegun hended hwho session leftover
    hdropped htarget hleftover
  have hd₂ : ((team.calling call).run turns).2 =
      l₁ ++ begun :: l₂ ++ dropped :: (l₃ ++ ended :: l₄) := by
    rw [hd, List.append_assoc (l₁ ++ begun :: l₂), List.cons_append]
  -- The rebuild is the only work of its call, and is done under the lease for its index.
  have hrebuild := underway_of_run hd hended
  have htargets := hrebuild.rebuilds worker index rfl
  obtain ⟨own, hown, guard, hguard, hkey⟩ := hrebuild.works rfl
  rw [htargets] at hown
  obtain ⟨rfl, -⟩ := eq_of_getLast?_take hown
  rw [hwho] at htargets
  -- The drop is done under the lease for the leftover, which has the same key.
  obtain ⟨target, htarget', guard', hguard', hkey'⟩ := (underway_of_run hd₂ hdropped).works rfl
  obtain rfl : target = leftover := Option.some.inj (htarget'.symm.trans htarget)
  have hsame : guard.key = guard'.key := by
    rw [hkey, hkey']
    simp only [Coordinator.leaseKey, settings_coordinator, hscope, hleftover.1]
  have hnone : ∀ deed ∈ begun :: l₂ ++ dropped :: l₃, deed.who = begun.who →
      ∀ r, deed.act = .asked r → r.isObtain = false := by
    have hspan : ((team.calling call).run turns).2 =
        l₁ ++ (begun :: (l₂ ++ dropped :: l₃)) ++ ended :: l₄ := by
      rw [hd]
      simp
    exact isObtain_eq_false_of_begun hspan htargets hbegun rfl
  have heq := who_eq_of_span (team.opening_calling call) hd hwho hnone hintime
    (isWork_of_asked hended rfl) (isWork_of_asked hdropped rfl) (by rwa [watch_hand])
    (by rwa [watch_hand]) hsame
  rw [Call.target?, heq, htargets] at htarget
  obtain ⟨rfl, -⟩ := eq_of_getLast?_take htarget
  exact not_isLeftoverOf_self _ hleftover

end Team

/-- Two workers with a lease for each index. -/
def collision : Team Bool where
  world := {}
  oneEach := Store.oneEach_empty
  below := Store.below_empty
  settings := { scope := .perIndex }
  worker late := ⟨late.toNat⟩
  session _ := ⟨0⟩
  account _ := ⟨0⟩
  notifier _ := .nobody

/-- The index that the first worker rebuilds. -/
def rebuiltIndex : Index := { database := "main", schema := "public", name := "index_a" }

/-- The index that the second worker drops. -/
def droppedIndex : Index := { database := "main", schema := "public", name := "index_a_ccnew" }

/-- What the two workers are asked to do. -/
def collidingCalls (late : Bool) : Call :=
  if late then .drop droppedIndex else .perform rebuiltIndex

/-- The second worker drops the index between the begin and the end of the rebuild. -/
def colliding : List (Turn Bool) :=
  List.replicate 7 (.act false) ++ List.replicate 5 (.act true) ++ [.act false]

/-- The index that is dropped is that which the rebuild builds. -/
theorem not_spared_colliding :
    InTime ((collision.calling collidingCalls).run colliding).2 ∧
      ¬ Spared collidingCalls ((collision.calling collidingCalls).run colliding).2 := by
  refine ⟨by decide +kernel, fun hspared => ?_⟩
  -- The rebuild begins with the seventh deed and ends with the last one.
  obtain ⟨l₁, begun, l₂, dropped, ended, hd, hbegun, hended, hwho, hdropped, htarget⟩ :
      ∃ l₁ begun l₂ dropped ended,
        ((collision.calling collidingCalls).run colliding).2 =
            l₁ ++ begun :: l₂ ++ dropped :: [] ++ ended :: [] ∧
          begun.act = .asked (.beginRebuild ⟨0⟩ rebuiltIndex) ∧
            ended.act = .asked (.endRebuild ⟨0⟩ rebuiltIndex) ∧ ended.who = begun.who ∧
              dropped.act = .asked (.execute ⟨0⟩ droppedIndex.dropStatement.text) ∧
                (collidingCalls dropped.who).target?
                  (transcriptOf dropped.who (l₁ ++ begun :: l₂)) = some droppedIndex := by
    refine ⟨[_, _, _, _, _, _], _, [_, _, _, _], _, _, rfl, ?_⟩
    decide +kernel
  exact hspared _ _ _ _ _ _ _ hd _ _ hbegun hended hwho _ _ hdropped htarget
    ⟨rfl, rfl, [], rfl, by decide⟩

/-- **Leftovers are spared if and only if leases are for a database**: then no schedule of a
team that works in time drops a leftover of an index while the index is being rebuilt, and if
leases are for an index then one does. -/
theorem leftovers_spared_iff (scope : Scope) :
    (∀ (ι : Type) [DecidableEq ι] (team : Team ι) (call : ι → Call) (turns : List (Turn ι)),
        team.settings.scope = scope → InTime ((team.calling call).run turns).2 →
          Spared call ((team.calling call).run turns).2) ↔
      scope = .perDatabase := by
  constructor
  · intro hspared
    cases scope with
    | perDatabase => rfl
    | perIndex =>
        obtain ⟨hintime, hnot⟩ := not_spared_colliding
        exact absurd (hspared Bool collision collidingCalls colliding rfl hintime) hnot
  · rintro rfl ι _ team call turns hscope hintime
    exact team.spared_of_perDatabase hscope hintime

end Reindex

end Upkeep
