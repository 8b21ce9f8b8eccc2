import Upkeep.Simulation.Script

/-!
# The lead alone

A stage with one actor on it: requests are answered in their order, and a wait for
an instant passes the time until then.

## Main Statements

* `Stage.play_leave`, `Stage.play_ask`, `Stage.play_alarm` — the moves of an actor
  who is alone.
* `Script.run_job` — a script that consists of upkeep alone is upkeep in the
  scene's world.
-/

namespace Upkeep.Simulation

variable {ν : Type}

/-- The lead with a part before it. -/
def Actor.leading (part : Part ν) : Actor ν := { number := Stage.lead, progress := .acting part }

/-- The lead while it waits for an instant. -/
def Actor.pausing (due : Duration) (ticket : Nat) (next : Except Interruption Unit → Part ν) :
    Actor ν :=
  { number := Stage.lead, progress := .resting (.alarm due) ticket next }

namespace Stage

/-- The stage on which it is the turn of the lead. -/
def solo (scene : Scene) (heard : Duration) (drawn : Nat) : Stage := ⟨scene, heard, drawn, [lead]⟩

/-! ### Moves -/

theorem play_of_legacy? {stage : Stage} {actor : Actor ν} {legacy : Option ν}
    (hn : actor.number = lead) (hl : actor.legacy? = some legacy) :
    stage.play [actor] = (legacy, stage.scene) := by
  have hc : Company.legacy? [actor] lead = some legacy := by simp [Company.legacy?, hn, hl]
  rw [play]
  split
  · next h => rw [hc] at h; cases h; rfl
  · next h => rw [hc] at h; contradiction

theorem play_of_move {stage next : Stage} {actor : Actor ν} {new : Company ν}
    (hn : actor.number = lead) (hl : actor.legacy? = none)
    (hq : (stage.ready [actor]).queue.head? = some lead)
    (hm : (stage.ready [actor]).move [actor] actor = some (next, new)) :
    stage.play [actor] = next.play new := by
  have hc : Company.legacy? [actor] lead = none := by simp [Company.legacy?, hn, hl]
  have hs : (stage.ready [actor]).queue.head?.bind (Company.split? · [actor]) =
      some ([], actor, []) := by
    simp [hq, Company.split?, hn]
  rw [play]
  split
  · next h => rw [hc] at h; contradiction
  · split
    · next h => rw [hs] at h; contradiction
    · next h =>
        have hf := hs.symm.trans h
        simp only [Option.some.injEq, Prod.mk.injEq] at hf
        obtain ⟨rfl, rfl, rfl⟩ := hf
        split
        · next h => rw [hm] at h; contradiction
        · next h =>
            obtain ⟨rfl, rfl⟩ := Prod.mk.inj (Option.some.inj (hm.symm.trans h))
            rw [List.nil_append, List.append_nil]

theorem play_leave (scene : Scene) (heard : Duration) (drawn : Nat) (legacy : Option ν) :
    (solo scene heard drawn).play [.leading (.leave legacy)] = (legacy, scene) :=
  (play_of_move rfl rfl rfl rfl).trans (play_of_legacy? rfl rfl)

theorem play_ask (scene : Scene) (heard : Duration) (drawn : Nat) (request : Scene.Request)
    (next : Scene.Answer request → Part ν) :
    (solo scene heard drawn).play [.leading (.ask request next)] =
      (solo (scene.answer request).2 heard drawn).play
        [.leading (next (scene.answer request).1)] :=
  play_of_move rfl rfl rfl rfl

theorem play_alarm_of_le {scene : Scene} {heard : Duration} {drawn : Nat} {due : Duration}
    (next : Except Interruption Unit → Part ν) (h : due ≤ heard) :
    (solo scene heard drawn).play [.leading (.wait (.alarm due) next)] =
      (solo scene heard drawn).play [.leading (next (.ok ()))] :=
  play_of_move rfl rfl rfl (by simp [ready, move, hasCome, h, solo, Actor.act, Actor.leading])

/-! ### Waits -/

private theorem called_of_le {stage : Stage} {due : Duration} (ticket : Nat)
    (next : Except Interruption Unit → Part ν) (h : due ≤ stage.now) :
    stage.called [.pausing due ticket next] = [lead] := by
  simp [called, call?, Actor.alarms, Actor.pausing, h]

private theorem called_of_not_le {stage : Stage} {due : Duration} (ticket : Nat)
    (next : Except Interruption Unit → Part ν) (hn : ¬due ≤ stage.now)
    (hh : ¬due ≤ stage.heard) : stage.called [.pausing due ticket next] = [] := by
  simp [called, call?, Actor.alarms, Actor.pausing, hasCome, hn, hh]

private theorem le_now_elapse (scene : Scene) (due : Duration) :
    due ≤ (scene.elapse (due - scene.world.now)).world.now :=
  show due.nanos ≤ scene.world.now.nanos + (due.nanos - scene.world.now.nanos) by omega

/-- The time until the alarm passes while the lead waits. -/
private theorem ready_pausing (scene : Scene) {heard : Duration} (drawn : Nat) {due : Duration}
    (ticket : Nat) (next : Except Interruption Unit → Part ν) (h : ¬due ≤ heard) :
    (Stage.mk scene heard drawn []).ready [Actor.pausing due ticket next] =
      solo (scene.elapse (due - scene.world.now))
        (scene.elapse (due - scene.world.now)).world.now drawn := by
  by_cases hn : due ≤ scene.world.now
  · have he : due - scene.world.now = 0 := Duration.ext (Nat.sub_eq_zero_of_le hn)
    have hc : (Stage.mk scene heard drawn []).called [.pausing due ticket next] = [lead] :=
      called_of_le ticket next hn
    rw [he]
    simp only [ready, wake, hc, if_true, List.isEmpty_cons, Bool.false_eq_true, if_false]
    rfl
  · have hc : (Stage.mk scene heard drawn []).called [.pausing due ticket next] = [] :=
      called_of_not_le ticket next hn h
    have ha : Alarm.first? [(⟨due, ticket⟩ : Alarm)] = some ⟨due, ticket⟩ := by
      simp [Alarm.first?]
    have hp : (Stage.mk scene heard drawn []).passTime [Actor.pausing due ticket next] =
        ⟨scene.elapse (due - scene.world.now), heard, drawn, []⟩ := by
      simp only [passTime, List.flatMap_cons, List.flatMap_nil, List.append_nil]
      rw [show (Actor.pausing due ticket next).alarms = [⟨due, ticket⟩] from rfl, ha]
      rfl
    simp only [ready, wake, hc, hp, if_true, List.isEmpty_nil]
    rw [called_of_le ticket next (le_now_elapse scene due)]
    rfl

theorem play_alarm {scene : Scene} {heard : Duration} {drawn : Nat} {due : Duration}
    (next : Except Interruption Unit → Part ν) (h : ¬due ≤ heard) :
    (solo scene heard drawn).play [.leading (.wait (.alarm due) next)] =
      (solo (scene.elapse (due - scene.world.now))
        (scene.elapse (due - scene.world.now)).world.now (drawn + 1)).play
          [.leading (next (.ok ()))] := by
  have hr := ready_pausing scene (drawn + 1) drawn next h
  calc (solo scene heard drawn).play [.leading (.wait (.alarm due) next)]
      = (Stage.mk scene heard (drawn + 1) []).play [.pausing due drawn next] :=
        play_of_move rfl rfl rfl
          (by simp [ready, move, hasCome, h, isLate, solo, Actor.leading, Actor.pausing])
    _ = _ := play_of_move rfl rfl (by rw [hr]; rfl) (by
        rw [hr]
        simp [move, hasCome, Actor.pausing, Actor.act, Actor.leading, solo, le_now_elapse])

end Stage

/-! ### Upkeep alone -/

namespace Script

private theorem play_job (work : Job Service ν) (scene : Scene) {heard : Duration} (drawn : Nat)
    (h : heard ≤ scene.world.now) :
    (Stage.solo scene heard drawn).play [.leading (toPart (some <$> job work))] =
      ((work.run World.answer World.elapse scene.world).1.toOption,
        { scene with world := (work.run World.answer World.elapse scene.world).2 }) := by
  induction work generalizing scene heard drawn with
  | done value => exact Stage.play_leave scene heard drawn (some value)
  | stop why => exact Stage.play_leave scene heard drawn none
  | ask request next ih =>
      have hn := congrArg Duration.nanos (World.now_answer request scene.world)
      exact (Stage.play_ask scene heard drawn (.service request) _).trans
        (ih _ _ _ (Nat.le_trans h (Nat.le_of_eq hn.symm)))
  | sleep length next ih =>
      refine (Stage.play_ask scene heard drawn (.change id) _).trans ?_
      by_cases hd : scene.world.now + length ≤ heard
      · -- A sleep of no length is over at once.
        have hl : length = 0 := Duration.ext (by
          have h₁ : scene.world.now.nanos + length.nanos ≤ heard.nanos := hd
          have h₂ : heard.nanos ≤ scene.world.now.nanos := h
          show length.nanos = 0
          omega)
        subst hl
        exact (Stage.play_alarm_of_le _ hd).trans (ih _ scene drawn h)
      · have hs : scene.world.now + length - scene.world.now = length :=
          Duration.ext (Nat.add_sub_cancel_left ..)
        refine (Stage.play_alarm _ hd).trans ?_
        simp only [Scene.answer, id_eq, hs]
        exact ih _ (scene.elapse length) _ (Nat.le_refl _)

/-- A script that consists of upkeep alone is upkeep in the scene's world. -/
theorem run_job (work : Job Service ν) (scene : Scene) :
    (job work : Script ν ν).run scene =
      ((work.run World.answer World.elapse scene.world).1.toOption,
        { scene with world := (work.run World.answer World.elapse scene.world).2 }) :=
  play_job work scene 1 (Nat.le_refl _)

end Script

end Upkeep.Simulation
