import Upkeep.Proofs.Reindex.Conduct
import Upkeep.Proofs.Simulation.Frame

/-!
# The record of a crowd's attempts

Actions are kept in memory by their ids.  If no id is drawn twice, and only actions that were
created are updated, then whatever a crowd has created is in the store ever after.

## Main Definitions

* `Memory.Keeps` — a store that has each of some actions, as far as it has come.
* `Deed.created?`, `created` — the actions that deeds have created.
* `Kept` — whatever has been created is in the store.
* `Faithful` — what has to be so for the store to tell of every attempt.

## Main Statements

* `Kept.done` — each deed keeps what has been created.
* `kept_run` — every part of a schedule does.
* `DistinctIds.place_eq` — an action was created by one deed only.

## Design Notes

What is kept of an action is that the store has one that continues it, because the stored one
may have been updated since.
-/

namespace Upkeep

open Simulation

variable {ι α : Type}

/-! ### Actions in memory -/

namespace Memory

theorem mem_put (memory : Memory) (action : Action) : action ∈ (memory.put action).actions := by
  unfold put
  split
  · next h =>
      obtain ⟨stored, hstored⟩ := Option.isSome_iff_exists.1 h
      unfold load at hstored
      have hid := List.find?_some hstored
      exact List.mem_map.2 ⟨stored, List.mem_of_find?_eq_some hstored, if_pos (beq_iff_eq.1 hid)⟩
  · exact List.mem_append_right _ (List.mem_singleton_self _)

/-- An action stays unless one of the same id takes its place. -/
theorem mem_put_of_ne {memory : Memory} {stored action : Action} (h : stored ∈ memory.actions)
    (hne : stored.id ≠ action.id) : stored ∈ (memory.put action).actions := by
  unfold put
  split
  · exact List.mem_map.2 ⟨stored, h, if_neg hne⟩
  · exact List.mem_append_left _ h

/-- An action is in the history of its index. -/
theorem mem_history_of_address {memory : Memory} {stored : Action} {database index : String}
    (h : stored ∈ memory.actions) (haddress : stored.address = (database, index)) :
    stored ∈ memory.history database index := by
  obtain ⟨rfl, rfl⟩ := Prod.mk.inj haddress
  refine mem_history.2 ⟨h, ?_⟩
  simp only [Action.concerns, beq_self_eq_true, Bool.and_self]

/-- Each of the actions is in the store, as far as it has come. -/
def Keeps (memory : Memory) (actions : List Action) : Prop :=
  ∀ action ∈ actions, ∃ stored ∈ memory.actions, stored.Continues action

variable {memory : Memory} {actions : List Action} {action : Action}

/-- A new action takes the place of no other one. -/
theorem Keeps.put_new (h : memory.Keeps actions) (hnew : ∀ other ∈ actions, other.id ≠ action.id) :
    (memory.put action).Keeps (actions ++ [action]) := by
  intro other hm
  rcases List.mem_append.1 hm with hm | hm
  · obtain ⟨stored, hin, hcontinues⟩ := h other hm
    exact ⟨stored, mem_put_of_ne hin (hcontinues.id ▸ hnew other hm), hcontinues⟩
  · obtain rfl := List.mem_singleton.1 hm
    exact ⟨other, memory.mem_put other, .refl other⟩

/-- An updated action takes the place of the action that it continues. -/
theorem Keeps.put_updated (h : memory.Keeps actions) {opened : Action}
    (hcontinues : action.Continues opened)
    (hopened : ∀ other ∈ actions, other.id = opened.id → other = opened) :
    (memory.put action).Keeps actions := by
  intro other hm
  obtain ⟨stored, hin, hsame⟩ := h other hm
  by_cases hid : stored.id = action.id
  · obtain rfl := hopened other hm (by rw [← hsame.id, hid, hcontinues.id])
    exact ⟨action, memory.mem_put action, hcontinues⟩
  · exact ⟨stored, mem_put_of_ne hin hid, hsame⟩

end Memory

namespace Simulation.World

variable {world : World} {memory : Memory}

/-- Only records of actions change the store of actions. -/
theorem actions_answer {r : Service.Request} (h : r.isRecord = false) (world : World) :
    (world.answer r).2.actions = world.actions := by
  refine (World.frame_answer r world).actions ?_ ?_
  · rintro action rfl
    cases h
  · rintro action rfl
    cases h

/-- A new action is in the store, if its creation succeeds. -/
theorem actions_createAction (h : world.actions = .memory memory) (action : Action) :
    (world.createAction action).1 = .ok () ∧
        (world.createAction action).2.actions = .memory (memory.put action) ∨
      (world.createAction action).1 ≠ .ok () ∧
        (world.createAction action).2.actions = .memory memory := by
  unfold createAction
  split
  · exact .inr ⟨nofun, h⟩
  · refine .inl ⟨?_, ?_⟩ <;> rw [h] <;> rfl

theorem actions_updateAction (h : world.actions = .memory memory) (action : Action) :
    (world.updateAction action).1 = .ok () ∧
        (world.updateAction action).2.actions = .memory (memory.put action) ∨
      (world.updateAction action).1 ≠ .ok () ∧
        (world.updateAction action).2.actions = .memory memory := by
  unfold updateAction
  split
  · exact .inr ⟨nofun, h⟩
  · rw [h]
    simp only [afterSaving, ActionStore.update]
    split
    · exact .inl ⟨rfl, rfl⟩
    · exact .inr ⟨nofun, rfl⟩

/-- A history is that of the store, if it can be listed. -/
theorem history_of_listActions (h : world.actions = .memory memory) {database index : String}
    {history : List Action} (hlisted : world.listActions database index = .ok history) :
    history = memory.history database index := by
  unfold listActions at hlisted
  split at hlisted
  · cases hlisted
  · rw [World.history, h] at hlisted
    exact (Except.ok.inj hlisted).symm

end Simulation.World

/-! ### What has been created -/

/-- The action that a deed has created. -/
def Deed.created? (deed : Deed ι) : Option Action :=
  match deed.act with
  | .asked (.createAction action) =>
      match (deed.world.createAction action).1 with
      | .ok () => some action
      | .error _ => none
  | _ => none

theorem Deed.created?_eq_some_iff {deed : Deed ι} {action : Action} :
    deed.created? = some action ↔ deed.act = .asked (.createAction action) ∧
      (deed.world.createAction action).1 = .ok () := by
  constructor
  · intro h
    unfold created? at h
    split at h
    · next hact =>
        split at h
        · next hok =>
            obtain rfl := Option.some.inj h
            exact ⟨hact, hok⟩
        · cases h
    · cases h
  · rintro ⟨hact, hok⟩
    simp only [created?, hact, hok]

/-- The actions that were created. -/
def created (deeds : List (Deed ι)) : List Action := deeds.filterMap Deed.created?

theorem created_append (deeds deeds' : List (Deed ι)) :
    created (deeds ++ deeds') = created deeds ++ created deeds' :=
  List.filterMap_append

theorem created_concat (deeds : List (Deed ι)) (deed : Deed ι) :
    created (deeds ++ [deed]) = created deeds ++ deed.created?.toList := by
  rw [created_append, created, created, List.filterMap_cons, List.filterMap_nil]
  cases deed.created? <;> rfl

theorem mem_created {deeds : List (Deed ι)} {action : Action} :
    action ∈ created deeds ↔ ∃ deed ∈ deeds, deed.created? = some action :=
  List.mem_filterMap

/-- Whatever has been created is in the store. -/
def Kept (world : World) (deeds : List (Deed ι)) : Prop :=
  ∃ memory, world.actions = .memory memory ∧
    ∀ action ∈ created deeds, ∃ stored ∈ memory.actions, stored.Continues action

/-- No two created actions have the same id. -/
def DistinctIds (deeds : List (Deed ι)) : Prop := ((created deeds).map Action.id).Nodup

theorem DistinctIds.eq {deeds : List (Deed ι)} (h : DistinctIds deeds) {action other : Action}
    (haction : action ∈ created deeds) (hother : other ∈ created deeds)
    (hid : action.id = other.id) : action = other :=
  List.inj_on_of_nodup_map h haction hother hid

section Kept

variable {deeds : List (Deed ι)} {deed : Deed ι}

/-- What creates nothing and leaves the store alone keeps what has been created. -/
private theorem Kept.same {memory : Memory} (hmemory : deed.after.actions = .memory memory)
    (hstored : ∀ action ∈ created deeds, ∃ stored ∈ memory.actions, stored.Continues action)
    (hnone : deed.created? = none) : Kept deed.after (deeds ++ [deed]) := by
  refine ⟨memory, hmemory, ?_⟩
  rw [created_concat, hnone, Option.toList_none, List.append_nil]
  exact hstored

private theorem Kept.create (h : Kept deed.world deeds) (hids : DistinctIds (deeds ++ [deed]))
    {action : Action} (hact : deed.act = .asked (.createAction action)) :
    Kept deed.after (deeds ++ [deed]) := by
  obtain ⟨memory, hmemory, hstored⟩ := h
  have hafter : deed.after = (deed.world.createAction action).2 := by
    simp only [Deed.after, hact, World.answer]
  rcases World.actions_createAction hmemory action with ⟨hok, hput⟩ | ⟨hfailed, hsame⟩
  · have hcreated := created_concat deeds deed
    rw [Deed.created?_eq_some_iff.2 ⟨hact, hok⟩, Option.toList_some] at hcreated
    rw [DistinctIds, hcreated, List.map_append] at hids
    refine ⟨_, hafter ▸ hput, hcreated ▸ Memory.Keeps.put_new hstored fun other hm heq => ?_⟩
    refine List.disjoint_of_nodup_append hids (List.mem_map_of_mem hm) ?_
    exact heq ▸ List.mem_singleton_self _
  · refine Kept.same (hafter ▸ hsame) hstored (Option.eq_none_iff_forall_not_mem.2 ?_)
    rintro other hother
    obtain ⟨hact', hok⟩ := Deed.created?_eq_some_iff.1 hother
    obtain rfl : action = other := by
      rw [hact] at hact'
      cases hact'
      rfl
    exact hfailed hok

private theorem Kept.update (h : Kept deed.world deeds) (hids : DistinctIds deeds)
    {action opened : Action} (hact : deed.act = .asked (.updateAction action))
    (hopened : opened ∈ created deeds) (hcontinues : action.Continues opened) :
    Kept deed.after (deeds ++ [deed]) := by
  obtain ⟨memory, hmemory, hstored⟩ := h
  have hafter : deed.after = (deed.world.updateAction action).2 := by
    simp only [Deed.after, hact, World.answer]
  have hnone : deed.created? = none := by simp only [Deed.created?, hact]
  rcases World.actions_updateAction hmemory action with ⟨-, hput⟩ | ⟨-, hsame⟩
  · exact Kept.same (hafter ▸ hput) (Memory.Keeps.put_updated hstored hcontinues
      fun other hm hid => hids.eq hm hopened hid) hnone
  · exact Kept.same (hafter ▸ hsame) hstored hnone

/-- **Each deed keeps what has been created**, if it updates only actions that were created. -/
theorem Kept.done (h : Kept deed.world deeds) (hids : DistinctIds (deeds ++ [deed]))
    (hupdates : ∀ action, deed.act = .asked (.updateAction action) →
      ∃ opened ∈ created deeds, action.Continues opened) : Kept deed.after (deeds ++ [deed]) := by
  have hother : deed.created? = none → deed.after.actions = deed.world.actions →
      Kept deed.after (deeds ++ [deed]) := by
    intro hnone hsame
    obtain ⟨memory, hmemory, hstored⟩ := h
    exact Kept.same (hsame.trans hmemory) hstored hnone
  cases hact : deed.act with
  | asked r =>
      cases r with
      | createAction action => exact h.create hids hact
      | updateAction action =>
          obtain ⟨opened, hopened, hcontinues⟩ := hupdates action hact
          refine h.update ?_ hact hopened hcontinues
          rw [DistinctIds, created_append, List.map_append] at hids
          exact hids.of_append_left
      | _ =>
          refine hother (by simp only [Deed.created?, hact]) ?_
          simp only [Deed.after, hact]
          exact World.actions_answer rfl _
  | slept length =>
      exact hother (by simp only [Deed.created?, hact]) (by simp only [Deed.after, hact])
  | interrupted why =>
      exact hother (by simp only [Deed.created?, hact]) (by simp only [Deed.after, hact])

end Kept

/-! ### Runs -/

section Runs

variable [DecidableEq ι] {crowd : Crowd ι α} {turns : List (Turn ι)}

/-- A turn in which nobody does anything leaves alone the store of actions, unless somebody
meddles with it. -/
private theorem actions_move (crowd : Crowd ι α) {turn : Turn ι}
    (hnone : (crowd.move turn).2 = none) (huntouched : ∀ meddling, turn = .meddle meddling →
      ∀ world, (meddling.change world).actions = world.actions) :
    (crowd.move turn).1.world.actions = crowd.world.actions := by
  cases turn with
  | act who =>
      simp only [Crowd.move] at hnone ⊢
      cases hstand : crowd.stand who with
      | acting job =>
          cases job with
          | ask request next =>
              rw [hstand] at hnone
              cases hnone
          | _ => rfl
      | resting since length next =>
          simp only [Stand.go]
          split <;> rfl
  | interrupt who why => rfl
  | pass length => rfl
  | inquire key =>
      simp only [Crowd.move, World.leaseHolder]
      split <;> rfl
  | meddle meddling => exact huntouched meddling rfl _

/-- What has to be so for histories to tell of every attempt: actions are kept in memory and
nobody meddles with them, the clock never goes back, and no id is drawn twice. -/
structure Faithful (crowd : Crowd ι α) (turns : List (Turn ι)) : Prop where
  memory : ∃ memory, crowd.world.actions = .memory memory
  untouched : ∀ meddling, .meddle meddling ∈ turns →
    ∀ world, (meddling.change world).actions = world.actions
  clock : (crowd.run turns).2.Pairwise fun a b => a.world.clock ≤ b.world.clock
  ids : DistinctIds (crowd.run turns).2

/-- **Whatever has been created is in the store** after every part of a schedule, if only
actions that were created are updated. -/
theorem kept_run (h : Faithful crowd turns)
    (hupdates : ∀ before deed after, (crowd.run turns).2 = before ++ deed :: after →
      ∀ action, deed.act = .asked (.updateAction action) →
        ∃ opened ∈ created before, action.Continues opened)
    {earlier later : List (Turn ι)} (hturns : turns = earlier ++ later) :
    Kept (crowd.run earlier).1.world (crowd.run earlier).2 := by
  -- What is done last in a part is done after what the part before it has kept.
  induction earlier using List.reverseRecOn generalizing later with
  | nil =>
      obtain ⟨memory, hmemory⟩ := h.memory
      exact ⟨memory, hmemory, nofun⟩
  | append_singleton earlier turn ih =>
      have hsplit : turns = earlier ++ turn :: later := by
        rw [hturns, List.append_assoc, List.singleton_append]
      have hkept := ih hsplit
      have hrun : (crowd.run turns).2 = (crowd.run earlier).2 ++
          ((crowd.run earlier).1.move turn).2.toList ++
            (((crowd.run earlier).1.move turn).1.run later).2 := by
        rw [hsplit, Crowd.run_append, Crowd.run_cons, List.append_assoc]
      rw [Crowd.run_append, Crowd.run_cons, Crowd.run_nil, List.append_nil]
      cases hd : ((crowd.run earlier).1.move turn).2 with
      | some deed =>
          obtain ⟨hworld, hafter⟩ := Crowd.world_of_move hd
          rw [hd, Option.toList_some] at hrun
          rw [hafter, Option.toList_some]
          have hids := h.ids
          rw [hrun, DistinctIds, created_append, List.map_append] at hids
          rw [List.append_assoc, List.singleton_append] at hrun
          exact (hworld ▸ hkept).done hids.of_append_left (hupdates _ _ _ hrun)
      | none =>
          have hactions := actions_move (crowd.run earlier).1 hd fun meddling heq =>
            h.untouched meddling (by rw [hturns, heq]; simp)
          obtain ⟨memory, hmemory, hstored⟩ := hkept
          rw [Option.toList_none, List.append_nil]
          exact ⟨memory, hactions.trans hmemory, hstored⟩

end Runs

/-! ### Places in a list -/

/-- Of two places in a list, one is before the other or they are the same. -/
theorem append_cons_eq_cases {β : Type} {l₁ l₂ m₁ m₂ : List β} {a b : β}
    (h : l₁ ++ a :: l₂ = m₁ ++ b :: m₂) :
    (∃ c, m₁ = l₁ ++ a :: c ∧ l₂ = c ++ b :: m₂) ∨ (l₁ = m₁ ∧ a = b ∧ l₂ = m₂) ∨
      ∃ c, l₁ = m₁ ++ b :: c ∧ m₂ = c ++ a :: l₂ := by
  rcases List.append_eq_append_iff.1 h with ⟨c, rfl, hc⟩ | ⟨c, rfl, hc⟩
  · cases c with
    | nil =>
        obtain ⟨rfl, rfl⟩ := List.cons.inj hc
        exact .inr (.inl ⟨(List.append_nil _).symm, rfl, rfl⟩)
    | cons first c =>
        obtain ⟨rfl, rfl⟩ := List.cons.inj hc
        exact .inl ⟨c, rfl, rfl⟩
  · cases c with
    | nil =>
        obtain ⟨rfl, rfl⟩ := List.cons.inj hc
        exact .inr (.inl ⟨List.append_nil _, rfl, rfl⟩)
    | cons first c =>
        obtain ⟨rfl, rfl⟩ := List.cons.inj hc
        exact .inr (.inr ⟨c, rfl, rfl⟩)

/-- Two actions of one id are not created at different places. -/
theorem not_distinctIds {l₁ l₂ l₃ : List (Deed ι)} {a b : Deed ι} {action other : Action}
    (ha : a.created? = some action) (hb : b.created? = some other) (hid : action.id = other.id) :
    ¬DistinctIds (l₁ ++ a :: (l₂ ++ b :: l₃)) := by
  intro hids
  rw [DistinctIds, created_append, List.map_append] at hids
  have hrest := hids.of_append_right
  rw [created, List.filterMap_cons_some ha, List.map_cons, List.nodup_cons] at hrest
  refine hrest.1 (hid ▸ List.mem_map_of_mem (mem_created.2 ⟨b, ?_, hb⟩))
  exact List.mem_append_right _ (List.mem_cons_self ..)

/-- An action was created at one place only. -/
theorem DistinctIds.place_eq {l₁ l₂ m₁ m₂ : List (Deed ι)} {a b : Deed ι} {action other : Action}
    (hids : DistinctIds (l₁ ++ a :: l₂)) (h : l₁ ++ a :: l₂ = m₁ ++ b :: m₂)
    (ha : a.created? = some action) (hb : b.created? = some other)
    (hid : action.id = other.id) : l₁ = m₁ ∧ a = b ∧ l₂ = m₂ := by
  rcases append_cons_eq_cases h with ⟨c, -, rfl⟩ | hsame | ⟨c, -, rfl⟩
  · exact absurd hids (not_distinctIds ha hb hid)
  · exact hsame
  · rw [h] at hids
    exact absurd hids (not_distinctIds hb ha hid.symm)

end Upkeep
