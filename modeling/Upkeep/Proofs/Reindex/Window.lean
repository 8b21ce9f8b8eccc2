import Upkeep.Proofs.Duration
import Upkeep.Proofs.Reindex.Choice

/-!
# Longer windows

An index that was rebuilt within the window is left alone, so a longer window leaves fewer indexes
to choose from.  The length of a window is known in milliseconds and in a word of 64 bits though,
and a window that does not fit counts as what is left of it.

## Main Definitions

* `Thresholds.within` — the same thresholds with another window.
* `Selection.Narrows` — nothing is chosen under one window that is not chosen under another.

## Main Statements

* `Selection.narrows_of_le` — a window that counts as longer leaves fewer.
* `Selection.longer_window_narrows_iff` — and no other window does, so that the longer one of two
  windows leaves fewer if and only if it fits.
-/

namespace Upkeep

open Simulation

/-! ### Words of milliseconds -/

namespace Duration

theorem millis_le_millis {a b : Duration} (h : a ≤ b) : a.millis ≤ b.millis :=
  Nat.div_le_div_right h

theorem toNat_millis64_of_lt {d : Duration} (h : d.millis < UInt64.size) :
    d.millis64.toNat = d.millis :=
  UInt64.toNat_ofNat_of_lt' h

/-- The longest window that fits. -/
def longest : Duration := ofMillis (UInt64.size - 1)

theorem toNat_millis64_longest : longest.millis64.toNat = UInt64.size - 1 := by
  rw [toNat_millis64_of_lt (by rw [longest, millis_ofMillis]; decide), longest, millis_ofMillis]

theorem longest_le_of_size_le {d : Duration} (h : UInt64.size ≤ d.millis) : longest ≤ d :=
  calc (UInt64.size - 1) * 1000000
      ≤ UInt64.size * 1000000 := Nat.mul_le_mul_right _ (Nat.sub_le ..)
    _ ≤ d.millis * 1000000 := Nat.mul_le_mul_right _ h
    _ ≤ d.nanos := Nat.div_mul_le_self ..

end Duration

namespace Thresholds

variable {thresholds : Thresholds} {shorter longer : Duration} {now : UInt64}

/-- The same thresholds with another window. -/
def within (thresholds : Thresholds) (window : Duration) : Thresholds :=
  { thresholds with recent := window }

@[simp] theorem accept_within (thresholds : Thresholds) (window : Duration) :
    (thresholds.within window).accept = thresholds.accept := rfl

/-- The window that counts as longer begins no later. -/
theorem cutoff_le_cutoff (h : shorter.millis64 ≤ longer.millis64) (now : UInt64) :
    (thresholds.within longer).cutoff now ≤ (thresholds.within shorter).cutoff now := by
  rw [UInt64.le_iff_toNat_le, toNat_cutoff_eq, toNat_cutoff_eq]
  exact Nat.sub_le_sub_left (UInt64.le_iff_toNat_le.1 h) _

/-- What is recent under a window is recent under one that counts as longer. -/
theorem isRecent_within_mono (h : shorter.millis64 ≤ longer.millis64) {history : List Action}
    (recent : (thresholds.within shorter).isRecent now history = true) :
    (thresholds.within longer).isRecent now history = true := by
  simp only [isRecent, List.any_eq_true, decide_eq_true_eq] at recent ⊢
  obtain ⟨action, mem, le⟩ := recent
  exact ⟨action, mem, UInt64.le_trans (cutoff_le_cutoff h now) le⟩

end Thresholds

/-! ### What is chosen -/

namespace Selection

variable {shorter longer : Duration}

/-- Without a limit nothing is chosen under the one window that is not chosen under the other:
whatever the other thresholds, the candidates, the time and the world with its store are, a choice
under the one is part of a choice under the other, in the same order. -/
def Narrows (longer shorter : Duration) : Prop :=
  ∀ (thresholds : Thresholds) (world : World) (candidates : List Index) (now : UInt64)
    (maximum : Nat) (few : List Index), candidates.length ≤ maximum →
    ((select (thresholds.within longer) candidates now maximum).toJob.run
      World.answer World.elapse world).1 = .ok (.ok few) →
    ∃ many, ((select (thresholds.within shorter) candidates now maximum).toJob.run
      World.answer World.elapse world).1 = .ok (.ok many) ∧ few.Sublist many

/-- What is recent under a window is recent under one that counts as longer. -/
theorem recent_within_mono (h : shorter.millis64 ≤ longer.millis64) {thresholds : Thresholds}
    {now : UInt64} {listing : Listing} {index : Index}
    (recent : listing.recent (thresholds.within shorter) now index = true) :
    listing.recent (thresholds.within longer) now index = true := by
  cases listed : listing index.database index.identifier with
  | error error => simp [Listing.recent, listed] at recent
  | ok history =>
      rw [Listing.recent_eq listed] at recent ⊢
      exact Thresholds.isRecent_within_mono h recent

/-- **A window that counts as longer narrows the choice.** -/
theorem narrows_of_le (h : shorter.millis64 ≤ longer.millis64) : Narrows longer shorter := by
  intro thresholds world candidates now maximum few unlimited chosen
  rw [run_select_eq, Thresholds.accept_within] at chosen ⊢
  have length : (candidates.filter thresholds.accept).length ≤ maximum :=
    (List.length_filter_le ..).trans unlimited
  generalize candidates.filter thresholds.accept = accepted at chosen length
  let old (window : Duration) (index : Index) : Bool :=
    !Listing.recent world.listActions (thresholds.within window) now index
  -- The store lists the same under both windows, and so both times a choice can be made.
  obtain ⟨lists, rfl⟩ : (∀ index ∈ accepted, ∃ history,
      world.listActions index.database index.identifier = .ok history) ∧
        rank maximum (accepted.filter (old longer)) = few := by
    cases left : fresh (thresholds.within longer) now world.listActions accepted with
    | error error => simp [left, Except.map] at chosen
    | ok indexes =>
        obtain ⟨lists, rfl⟩ := fresh_eq_ok_iff.1 left
        exact ⟨lists, by simpa [left, Except.map] using chosen⟩
  have chosenToo : fresh (thresholds.within shorter) now world.listActions accepted =
      .ok (accepted.filter (old shorter)) := fresh_eq_ok_iff.2 ⟨lists, rfl⟩
  refine ⟨rank maximum (accepted.filter (old shorter)), by rw [chosenToo]; rfl, ?_⟩
  -- What is old under the longer window is so under the shorter one.
  have part : accepted.filter (old longer) =
      (accepted.filter (old shorter)).filter (old longer) := by
    rw [List.filter_filter]
    refine List.filter_congr fun index _ => ?_
    cases recent : Listing.recent world.listActions (thresholds.within shorter) now index with
    | false => simp [old, recent]
    | true => simp [old, recent, recent_within_mono h recent]
  rw [part, rank_filter ((List.length_filter_le ..).trans length)]
  exact List.filter_sublist

/-! ### Windows that count as less than they are -/

/-- An index that was rebuilt when time began. -/
def rebuilt : Index :=
  { database := "main", schema := "public", name := "index_a", size := 10737418240,
    bloat := some 5368709120 }

/-- A world whose store knows of that rebuild. -/
def rebuiltOnce : World := { actions := .memory ⟨[.start (.ofNat 0) rebuilt 0]⟩ }

/-- The index is chosen once the window has begun. -/
theorem run_select_rebuiltOnce (window : Duration) (now : UInt64) :
    ((select (({} : Thresholds).within window) [rebuilt] now 1).toJob.run
        World.answer World.elapse rebuiltOnce).1 =
      .ok (.ok (if now ≤ window.millis64 then [] else [rebuilt])) := by
  have recalls : rebuiltOnce.Recalls [.start (.ofNat 0) rebuilt 0] :=
    World.recalls_memory rfl rfl
  have accepted : [rebuilt].filter (({} : Thresholds).within window).accept = [rebuilt] := by
    rw [Thresholds.accept_within]
    decide +kernel
  have recent_iff : Listing.recent rebuiltOnce.listActions (({} : Thresholds).within window) now
      rebuilt = true ↔ now ≤ window.millis64 := by
    rw [recent_eq_true_iff recalls, UInt64.le_iff_toNat_le]
    simp only [List.mem_singleton, exists_eq_left, Action.start, and_self, true_and,
      UInt64.le_iff_toNat_le, Thresholds.toNat_cutoff_eq]
    exact Nat.le_zero.trans Nat.sub_eq_zero_iff_le
  rw [run_select_eq, accepted, fresh_of_recalls recalls]
  by_cases h : now ≤ window.millis64
  · rw [if_pos h, List.filter_cons_of_neg (by simp [recent_iff.2 h])]
    simp [rank, Except.map]
  · rw [if_neg h, List.filter_cons_of_pos (by simpa using fun recent => h (recent_iff.1 recent))]
    simp [rank, Except.map]

/-- **Only a window that counts as longer narrows the choice.**  If it counts as less then a
rebuild at the beginning of the shorter window is forgotten under it. -/
theorem narrows_iff : Narrows longer shorter ↔ shorter.millis64 ≤ longer.millis64 := by
  refine ⟨fun narrows => ?_, narrows_of_le⟩
  by_contra less
  obtain ⟨many, chosen, sublist⟩ := narrows {} rebuiltOnce [rebuilt] shorter.millis64 1 [rebuilt]
    (Nat.le_refl 1) (by rw [run_select_rebuiltOnce, if_neg less])
  rw [run_select_rebuiltOnce, if_pos (UInt64.le_refl _)] at chosen
  cases chosen
  cases sublist

/-- **The longer one of two windows narrows the choice if and only if it counts as longer**, and
so it does for all shorter windows if and only if it fits into a word of milliseconds, or what is
left of it is as much as fits. -/
theorem longer_window_narrows_iff (shorter longer : Duration) :
    (Narrows longer shorter ↔ shorter.millis64 ≤ longer.millis64) ∧
    ((∀ other : Duration, other ≤ longer → Narrows longer other) ↔
      longer.millis < UInt64.size ∨ longer.millis64.toNat = UInt64.size - 1) := by
  refine ⟨narrows_iff, ?_⟩
  simp only [narrows_iff, UInt64.le_iff_toNat_le]
  constructor
  · intro all
    by_cases fits : longer.millis < UInt64.size
    · exact .inl fits
    · have most := all Duration.longest (Duration.longest_le_of_size_le (Nat.not_lt.1 fits))
      rw [Duration.toNat_millis64_longest] at most
      exact .inr (Nat.le_antisymm (Nat.le_sub_one_of_lt longer.millis64.toNat_lt) most)
  · rintro (fits | most) other le
    · have le := Duration.millis_le_millis le
      rwa [Duration.toNat_millis64_of_lt fits,
        Duration.toNat_millis64_of_lt (Nat.lt_of_le_of_lt le fits)]
    · rw [most]
      exact Nat.le_sub_one_of_lt other.millis64.toNat_lt

/-- This window counts as 384 milliseconds. -/
example :
    let shorter := Duration.ofSecs 864000
    let longer := Duration.ofSecs 18446744073709552
    shorter ≤ longer ∧ longer.millis64 < shorter.millis64 := by decide

end Selection

end Upkeep
