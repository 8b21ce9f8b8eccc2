import Mathlib.Data.Fintype.Basic
import Upkeep.Proofs.Crowd.Basic
import Upkeep.Proofs.Duration

/-!
# Punctual crowds

Crowds in which requests take no time and sleeps last as long as they should.  In such a
crowd a member's own sleeps tell the time.

## Main Definitions

* `Crowd.Punctual` — a schedule in which time passes only while nobody has anything to do.
* `Surroundings.Clocks` — states that know how long a member has slept.
* `Stand.IsAt` — how the time is related to the sleeps of a member.

## Main Statements

* `Crowd.pairwise_now` — what is done is done in the order of time, in any schedule.
* `Crowd.isAt_run` — the time by a member's own sleeps.

## Design Notes

Nobody is interrupted in a punctual schedule, as interruptions end sleeps early.  The order
of what is done in the same instant is arbitrary.
-/

namespace Upkeep

open Simulation

variable {ι α σ : Type}

/-! ### The order of time -/

@[simp] theorem Deed.now_after (deed : Deed ι) : deed.after.now = deed.now := by
  unfold Deed.after
  split
  · exact World.now_answer _ _
  · rfl

variable [DecidableEq ι]

namespace Crowd

theorem now_move_le (crowd : Crowd ι α) (turn : Turn ι) :
    crowd.world.now ≤ (crowd.move turn).1.world.now := by
  rcases crowd.world_move turn with ⟨deed, -, hworld, hafter⟩ | ⟨-, hquiet⟩
  · rw [hafter, Deed.now_after, Deed.now, hworld]
  · exact hquiet.now_le

/-- What is done is done from the first instant on. -/
theorem now_le_of_mem {crowd : Crowd ι α} {turns : List (Turn ι)} {deed : Deed ι}
    (h : deed ∈ (crowd.run turns).2) : crowd.world.now ≤ deed.now := by
  induction turns generalizing crowd with
  | nil => cases h
  | cons turn turns ih =>
      rw [run_cons] at h
      rcases List.mem_append.1 h with h | h
      · obtain ⟨hworld, -⟩ := world_of_move (Option.mem_toList.1 h)
        rw [Deed.now, hworld]
      · exact le_trans (now_move_le crowd turn) (ih h)

/-- **What is done is done in the order of time.** -/
theorem pairwise_now (crowd : Crowd ι α) (turns : List (Turn ι)) :
    (crowd.run turns).2.Pairwise fun a b => a.now ≤ b.now := by
  induction turns generalizing crowd with
  | nil => exact .nil
  | cons turn turns ih =>
      rw [run_cons]
      refine List.pairwise_append.2 ⟨?_, ih _, fun a ha b hb => ?_⟩
      · cases (crowd.move turn).2 with
        | none => exact .nil
        | some deed => exact List.pairwise_singleton _ _
      · obtain ⟨-, hafter⟩ := world_of_move (Option.mem_toList.1 ha)
        rw [← a.now_after, ← hafter]
        exact now_le_of_mem hb

/-- Of two deeds the later one is not earlier. -/
theorem now_le_of_run {crowd : Crowd ι α} {turns : List (Turn ι)} {l₁ l₂ l₃ : List (Deed ι)}
    {a b : Deed ι} (h : (crowd.run turns).2 = l₁ ++ a :: (l₂ ++ b :: l₃)) : a.now ≤ b.now := by
  have hpairwise := crowd.pairwise_now turns
  rw [h] at hpairwise
  exact (List.pairwise_cons.1 (List.pairwise_append.1 hpairwise).2.1).1 b (by simp)

end Crowd

/-! ### Punctual schedules -/

namespace Stand

/-- The member has nothing to do until the given instant. -/
def Idles (instant : Duration) : Stand α → Prop
  | acting (.ask _ _) => False
  | acting (.sleep _ _) => False
  | acting _ => True
  | resting since length _ => instant ≤ since + length

instance (instant : Duration) (stand : Stand α) : Decidable (stand.Idles instant) :=
  match stand with
  | acting (.ask _ _) => inferInstanceAs (Decidable False)
  | acting (.sleep _ _) => inferInstanceAs (Decidable False)
  | acting (.done _) => inferInstanceAs (Decidable True)
  | acting (.stop _) => inferInstanceAs (Decidable True)
  | resting since length _ => inferInstanceAs (Decidable (instant ≤ since + length))

/-- The member goes on at an instant, or it sleeps from that instant on and is not overdue. -/
def IsAt (now instant : Duration) : Stand α → Prop
  | acting (.ask _ _) => now = instant
  | acting (.sleep _ _) => now = instant
  | acting _ => True
  | resting since length _ => since = instant ∧ now ≤ since + length

theorem isAt_acting (now : Duration) (job : Job Service α) : (acting job).IsAt now now := by
  cases job with
  | done value => exact trivial
  | stop why => exact trivial
  | sleep length next => exact rfl
  | ask request next => exact rfl

theorem IsAt.of_idles {now later instant : Duration} {stand : Stand α} (h : stand.IsAt now instant)
    (hidles : stand.Idles later) : stand.IsAt later instant := by
  match stand with
  | acting (.ask _ _) => exact hidles.elim
  | acting (.sleep _ _) => exact hidles.elim
  | acting (.done _) => exact trivial
  | acting (.stop _) => exact trivial
  | resting since length _ => exact ⟨h.1, hidles⟩

theorem now_go (stand : Stand α) (world : World) : (stand.go world).2.2.now = world.now := by
  match stand with
  | acting (.ask request _) => exact World.now_answer request world
  | acting (.sleep _ _) => rfl
  | acting (.done _) => rfl
  | acting (.stop _) => rfl
  | resting since length _ =>
      simp only [go]
      split <;> rfl

/-- Who asks for something was about to ask for it. -/
theorem eq_of_go {stand : Stand α} {world : World} {r : Service.Request}
    (h : (stand.go world).1 = some (.asked r)) : ∃ next, stand = acting (.ask r next) := by
  match stand with
  | acting (.ask request next) =>
      obtain rfl : request = r := Act.asked.inj (Option.some.inj h)
      exact ⟨next, rfl⟩
  | acting (.sleep length next) => cases h
  | acting (.done value) => cases h
  | acting (.stop why) => cases h
  | resting since length next =>
      simp only [go] at h
      split at h
      · cases h
      · cases h

theorem interrupt_ne_asked (stand : Stand α) (why : Interruption) (r : Service.Request) :
    (stand.interrupt why).1 ≠ some (.asked r) := by
  match stand with
  | acting (.ask request next) => exact nofun
  | acting (.sleep length next) => exact nofun
  | acting (.done value) => exact nofun
  | acting (.stop why) => exact nofun
  | resting since length next => exact nofun

end Stand

namespace Crowd

/-- Time passes only while nobody has anything to do, and nobody is interrupted. -/
def IsOnTime (crowd : Crowd ι α) : Turn ι → Prop
  | .interrupt _ _ => False
  | .pass length => ∀ who, (crowd.stand who).Idles (crowd.world.now + length)
  | _ => True

instance [Fintype ι] (crowd : Crowd ι α) (turn : Turn ι) : Decidable (crowd.IsOnTime turn) :=
  match turn with
  | .interrupt _ _ => inferInstanceAs (Decidable False)
  | .pass length =>
      inferInstanceAs (Decidable (∀ who, (crowd.stand who).Idles (crowd.world.now + length)))
  | .act _ => inferInstanceAs (Decidable True)
  | .inquire _ => inferInstanceAs (Decidable True)
  | .meddle _ => inferInstanceAs (Decidable True)

/-- Every turn of the schedule is on time. -/
def Punctual (crowd : Crowd ι α) : List (Turn ι) → Prop
  | [] => True
  | turn :: turns => crowd.IsOnTime turn ∧ (crowd.move turn).1.Punctual turns

instance Punctual.decidable [Fintype ι] (crowd : Crowd ι α) :
    (turns : List (Turn ι)) → Decidable (crowd.Punctual turns)
  | [] => inferInstanceAs (Decidable True)
  | turn :: turns =>
      have := Punctual.decidable (crowd.move turn).1 turns
      inferInstanceAs (Decidable (crowd.IsOnTime turn ∧ (crowd.move turn).1.Punctual turns))

theorem punctual_append {crowd : Crowd ι α} {turns turns' : List (Turn ι)} :
    crowd.Punctual (turns ++ turns') ↔
      crowd.Punctual turns ∧ (crowd.run turns).1.Punctual turns' := by
  induction turns generalizing crowd with
  | nil => simp [Punctual]
  | cons turn turns ih => simp only [List.cons_append, Punctual, run_cons, ih, and_assoc]

end Crowd

/-! ### Telling the time -/

/-- The state knows how long a member has slept. -/
structure Surroundings.Clocks (S : Surroundings Service σ) (slept : σ → Duration) : Prop where
  after : ∀ s r answer, slept (S.after s r answer) = slept s
  slept : ∀ s length, slept (S.slept s length) = slept s + length

namespace Crowd

variable {S : Surroundings Service σ} {slept : σ → Duration} {crowd : Crowd ι α} {who : ι}
  {start : Duration} {s : σ}

/-- The time by a member's own sleeps, in a turn of that member. -/
private theorem isAt_go (hS : S.Clocks slept) {stand : Stand α} {world : World}
    (h : stand.IsAt world.now (start + slept s)) :
    (stand.go world).2.1.IsAt world.now
      (start + slept ((stand.go world).1.elim s (S.note world s))) := by
  match stand with
  | .acting (.ask request next) =>
      have hnow : world.now = start + slept s := h
      simp only [Stand.go, Option.elim_some, Surroundings.note, hS.after, ← hnow]
      exact Stand.isAt_acting _ _
  | .acting (.sleep length next) => exact ⟨h, Duration.le_add_right _ _⟩
  | .acting (.done value) => exact trivial
  | .acting (.stop why) => exact trivial
  | .resting since length next =>
      obtain ⟨rfl, hdue⟩ := h
      simp only [Stand.go]
      split
      · next hover =>
          have hnow : world.now = start + slept (S.slept s length) := by
            rw [hS.slept, ← Duration.add_assoc]
            exact le_antisymm hdue hover
          simp only [Option.elim_some, Surroundings.note, ← hnow]
          exact Stand.isAt_acting _ _
      · exact ⟨rfl, hdue⟩

/-- The time by a member's own sleeps, after a turn that is on time. -/
theorem isAt_move (hS : S.Clocks slept) (turn : Turn ι) (hturn : crowd.IsOnTime turn)
    (h : (crowd.stand who).IsAt crowd.world.now (start + slept s)) :
    ((crowd.move turn).1.stand who).IsAt (crowd.move turn).1.world.now
      (start + slept (S.watch who (crowd.move turn).2.toList s)) := by
  cases turn with
  | act other =>
      have hnow : (crowd.move (.act other)).1.world.now = crowd.world.now := Stand.now_go _ _
      rw [hnow]
      by_cases ho : other = who
      · subst ho
        have hgo := isAt_go hS h
        simp only [move, Function.update_self]
        cases ha : ((crowd.stand other).go crowd.world).1 with
        | none => simpa [ha] using hgo
        | some act => simpa [ha, Surroundings.observe] using hgo
      · simp only [move, Function.update_of_ne (Ne.symm ho)]
        cases ((crowd.stand other).go crowd.world).1 with
        | none => exact h
        | some act => simpa [Surroundings.observe, ho] using h
  | interrupt other why => exact hturn.elim
  | pass length => exact h.of_idles (hturn who)
  | inquire key =>
      have hnow : (crowd.world.leaseHolder key).2.now = crowd.world.now := by
        unfold World.leaseHolder
        split <;> rfl
      simp only [move, hnow]
      exact h
  | meddle meddling =>
      simp only [move, meddling.now_change]
      exact h

/-- **A member's own sleeps tell the time** along every punctual schedule. -/
theorem isAt_run (hS : S.Clocks slept) {turns : List (Turn ι)} (hturns : crowd.Punctual turns)
    (h : (crowd.stand who).IsAt crowd.world.now (start + slept s)) :
    ((crowd.run turns).1.stand who).IsAt (crowd.run turns).1.world.now
      (start + slept (S.watch who (crowd.run turns).2 s)) := by
  induction turns generalizing crowd s with
  | nil => exact h
  | cons turn turns ih =>
      rw [run_cons, Surroundings.watch_append]
      exact ih hturns.2 (isAt_move hS turn hturns.1 h)

/-- A member that asks for something does so when it has slept that long. -/
theorem now_of_isAt {turn : Turn ι} {deed : Deed ι} (hd : (crowd.move turn).2 = some deed)
    {r : Service.Request} (hact : deed.act = .asked r) {instant : Duration}
    (h : (crowd.stand deed.who).IsAt crowd.world.now instant) : deed.now = instant := by
  obtain ⟨hworld, -⟩ := world_of_move hd
  rw [Deed.now, hworld]
  cases turn with
  | act other =>
      simp only [move, Option.map_eq_some_iff] at hd
      obtain ⟨act, hgo, rfl⟩ := hd
      obtain rfl : act = .asked r := hact
      obtain ⟨next, hstand⟩ := Stand.eq_of_go hgo
      simp only [hstand] at h
      exact h
  | interrupt other why =>
      simp only [move, Option.map_eq_some_iff] at hd
      obtain ⟨act, hinterrupt, rfl⟩ := hd
      obtain rfl : act = .asked r := hact
      exact absurd hinterrupt (Stand.interrupt_ne_asked _ _ _)
  | pass length => cases hd
  | inquire key => cases hd
  | meddle meddling => cases hd

end Crowd

end Upkeep
