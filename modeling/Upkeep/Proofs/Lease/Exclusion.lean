import Upkeep.Proofs.Crowd.Punctual
import Upkeep.Proofs.Lease.Work

/-!
# Leases exclude one another

In a crowd whose members obtain and give back leases through guards alone, a lease is
granted only when every outstanding lease of its key has run out.  So work under
leases of one key overlaps only if a lease ran out.  A member whose lease ran out and
was taken over does no harm to its successor when it gives the lease back.

## Main Definitions

* `Opening` — a crowd of guarded jobs before its first turn.
* `Exclusive` — what leases promise about one deed.

## Main Statements

* `tended_run` — the invariant along every schedule.
* `covered_of_run` — work is done under a lease.
* `eq_of_overlap` — a lease that lasts from one deed to another is the only one in between.
* `leases_exclude` — every deed of every schedule is as promised.

## Design Notes

The leases that are compared are the outstanding ones, which is more than those whose
guards still exist: one whose return failed, or came too late, stays outstanding.
-/

namespace Upkeep.Lease

open Simulation

variable {ι α : Type} [DecidableEq ι] {needs : ι → Service.Request → Option String}
  {crowd : Crowd ι α}

/-- A crowd of guarded jobs before its first turn.  The store may have entries of
others. -/
structure Opening (needs : ι → Service.Request → Option String) (crowd : Crowd ι α) :
    Prop where
  oneEach : crowd.world.leases.OneEach
  below : crowd.world.leases.Below crowd.world.tokensDrawn
  guarded : ∀ who, ∃ job, crowd.stand who = .acting job ∧ Guarded (needs who) job

/-- **The invariant along every schedule.** -/
theorem tended_run (h : Opening needs crowd) (turns : List (Turn ι)) :
    Tended needs (crowd.run turns).1 (crowd.run turns).2 := by
  refine Crowd.run_induction ⟨reflects_nil h.oneEach h.below, fun who => ?_, by simp⟩
    (fun _ _ turn htended => htended.move turn) turns
  obtain ⟨job, hstand, hguarded⟩ := h.guarded who
  rw [hstand]
  exact hguarded

/-- Work is done under a lease of the key that it needs, and of that one and any other
outstanding lease of the key, one was granted when the other had run out. -/
theorem covered_of_run (h : Opening needs crowd) {turns : List (Turn ι)}
    {before after : List (Deed ι)} {deed : Deed ι}
    (hd : (crowd.run turns).2 = before ++ deed :: after) {r : Service.Request} {key : String}
    (hact : deed.act = .asked r) (hneeds : needs deed.who r = some key) :
    ∃ own ∈ outstanding before, own.who = deed.who ∧ own.guard.key = key ∧
      ∀ other ∈ outstanding before, other.guard.key = key →
        other = own ∨ own.until ≤ other.since ∨ other.until ≤ own.since := by
  obtain ⟨earlier, turn, later, rfl, rfl, hm⟩ := Crowd.exists_turn_of_run hd
  have tended := tended_run h earlier
  have lawful := (Crowd.keeps_move isOpen_hand turn (tended.lawful deed.who)).2 deed hm rfl r hact
  obtain ⟨guard, hguard, rfl⟩ := lawful.covered key hneeds
  obtain ⟨own, hown, hwho, rfl⟩ := tended.inHand deed.who guard hguard
  exact ⟨own, hown, hwho, rfl, fun other ho hk => tended.reflects.apart_or hown ho hk.symm⟩

/-- A lease was granted before it was outstanding. -/
theorem since_le_of_run {turns : List (Turn ι)} {before after : List (Deed ι)} {deed : Deed ι}
    (hd : (crowd.run turns).2 = before ++ deed :: after) {held : Holding ι}
    (hheld : held ∈ outstanding before) : held.since ≤ deed.now := by
  have hnew : held ∈ outstanding ([] ++ before) := hheld
  obtain ⟨l₁, grant, l₂, rfl, hg⟩ := (mem_outstanding_append hnew).resolve_left (by simp)
  obtain ⟨key, ttl, token, -, -, rfl⟩ := eq_of_granted? hg
  rw [List.append_assoc, List.cons_append] at hd
  exact Crowd.now_le_of_run hd

/-- What a member has in hand was granted to that member and is outstanding. -/
theorem inHand_of_run (h : Opening needs crowd) {turns : List (Turn ι)}
    {before after : List (Deed ι)} {deed : Deed ι}
    (hd : (crowd.run turns).2 = before ++ deed :: after) {who : ι} {guard : Guard}
    (hguard : guard ∈ hand.watch who before []) :
    ∃ held ∈ outstanding before, held.who = who ∧ held.guard = guard := by
  obtain ⟨earlier, turn, later, rfl, rfl, -⟩ := Crowd.exists_turn_of_run hd
  exact (tended_run h earlier).inHand who guard hguard

/-- Of two outstanding leases of a key, one was granted when the other had run out. -/
theorem apart_of_run (h : Opening needs crowd) {turns : List (Turn ι)}
    {before after : List (Deed ι)} {deed : Deed ι}
    (hd : (crowd.run turns).2 = before ++ deed :: after) {held other : Holding ι}
    (hheld : held ∈ outstanding before) (hother : other ∈ outstanding before)
    (hkey : held.guard.key = other.guard.key) :
    other = held ∨ held.until ≤ other.since ∨ other.until ≤ held.since := by
  obtain ⟨earlier, turn, later, rfl, rfl, -⟩ := Crowd.exists_turn_of_run hd
  exact (tended_run h earlier).reflects.apart_or hheld hother hkey

/-- A lease that somebody had from one deed to a later one is the only live lease of its key in
between. -/
theorem eq_of_overlap (h : Opening needs crowd) {turns : List (Turn ι)}
    {l₁ l₂ l₃ l₄ : List (Deed ι)} {a b c : Deed ι}
    (hd : (crowd.run turns).2 = l₁ ++ a :: l₂ ++ b :: l₃ ++ c :: l₄) {own theirs : Holding ι}
    (hfirst : own ∈ outstanding l₁) (hmiddle : own ∈ outstanding (l₁ ++ a :: l₂))
    (htheirs : theirs ∈ outstanding (l₁ ++ a :: l₂)) (hkey : own.guard.key = theirs.guard.key)
    (hlive : c.now < own.until) (hlive' : b.now < theirs.until) : theirs = own := by
  have hd₂ : (crowd.run turns).2 = l₁ ++ a :: l₂ ++ b :: (l₃ ++ c :: l₄) := by
    rw [hd, List.append_assoc (l₁ ++ a :: l₂), List.cons_append]
  have hd₁ : (crowd.run turns).2 = l₁ ++ a :: (l₂ ++ b :: (l₃ ++ c :: l₄)) := by
    rw [hd₂, List.append_assoc, List.cons_append]
  have hab : a.now ≤ b.now := Crowd.now_le_of_run hd₁
  have hbc : b.now ≤ c.now := Crowd.now_le_of_run hd₂
  rcases apart_of_run h hd₂ hmiddle htheirs hkey with heq | hover | hover
  · exact heq
  · have hsince := since_le_of_run hd₂ htheirs
    exact absurd hlive (not_lt.2 (hover.trans (hsince.trans hbc)))
  · have hsince := since_le_of_run hd₁ hfirst
    exact absurd hlive' (not_lt.2 (hover.trans (hsince.trans hab)))

/-- What leases promise about a deed and what was done before it. -/
structure Exclusive (needs : ι → Service.Request → Option String) (before : List (Deed ι))
    (deed : Deed ι) : Prop where
  /-- A lease is granted when every outstanding lease of its key has run out. -/
  granted : ∀ new, granted? deed = some new →
    ∀ held ∈ outstanding before, held.guard.key = new.guard.key → held.until ≤ new.since
  /-- An outstanding lease that has not run out is the one that the store has. -/
  stored : ∀ held ∈ outstanding before, deed.now < held.until →
    held.entry ∈ deed.world.leases.entries
  /-- Whoever gives back a lease was granted that one, and has not given it back yet. -/
  own : ∀ key token, deed.act = .asked (.releaseLease key token) →
    ∃ held ∈ outstanding before, held.who = deed.who ∧ held.guard = ⟨key, token⟩
  /-- Giving back leaves alone whatever counts and was granted with another token. -/
  spared : ∀ key token, deed.act = .asked (.releaseLease key token) →
    ∀ entry ∈ deed.world.leases.entries, entry.token ≠ token → deed.now < entry.expires →
      entry ∈ deed.after.leases.entries
  /-- Work is done under a lease of the key that it needs, and of that one and any other
  outstanding lease of the key, one was granted when the other had run out. -/
  covered : ∀ r key, deed.act = .asked r → needs deed.who r = some key →
    ∃ own ∈ outstanding before, own.who = deed.who ∧ own.guard.key = key ∧
      ∀ other ∈ outstanding before, other.guard.key = key →
        other = own ∨ own.until ≤ other.since ∨ other.until ≤ own.since

/-- **Leases exclude one another**, in any order of any number of members' steps: what
they promise holds of every deed. -/
theorem leases_exclude (h : Opening needs crowd) (turns : List (Turn ι))
    {before after : List (Deed ι)} {deed : Deed ι}
    (hd : (crowd.run turns).2 = before ++ deed :: after) : Exclusive needs before deed := by
  obtain ⟨earlier, turn, later, rfl, rfl, hm⟩ := Crowd.exists_turn_of_run hd
  have tended := tended_run h earlier
  obtain ⟨hworld, -⟩ := Crowd.world_of_move hm
  have lawful : ∀ r, deed.act = .asked r → Lawful (needs deed.who)
      (hand.watch deed.who (crowd.run earlier).2 []) r :=
    (Crowd.keeps_move isOpen_hand turn (tended.lawful deed.who)).2 deed hm rfl
  refine ⟨?_, ?_, ?_, ?_, ?_⟩
  · intro new hnew held hheld hk
    have hafter := (tended.move turn).reflects.apart
    rw [hm, Option.toList_some, outstanding_append_singleton, afterDeed, hnew] at hafter
    refine (List.pairwise_append.1 hafter).2.2 held ?_ new (by simp) hk
    -- What is granted in a deed is not given back in it.
    obtain ⟨key, ttl, token, hact, -⟩ := eq_of_granted? hnew
    have hnone : returned? deed = none := by simp [returned?, hact]
    simp [hheld, hnone]
  · intro held hheld hlive
    refine hworld ▸ (tended.reflects.stored held hheld).resolve_left ?_
    exact not_le.2 (hworld ▸ hlive)
  · intro key token hact
    exact tended.inHand deed.who _ ((lawful _ hact).own key token rfl)
  · intro key token hact entry he hne hlive
    have hone : deed.world.leases.OneEach := hworld ▸ tended.reflects.oneEach
    have hafter : deed.after = (deed.world.releaseLease key token).2 := by
      simp only [Deed.after, hact]
      rfl
    rw [hafter]
    unfold World.releaseLease
    split
    · exact he
    · exact (Store.mem_release hone).2 ⟨he, fun _ => ⟨hne, Entry.isLive_eq_true_iff.2 hlive⟩⟩
  · exact fun r key hact hneeds => covered_of_run h hd hact hneeds

/-- What it takes to sync one table whose partitions are planned elsewhere. -/
def itemsManager : Partition.Manager where
  strategy := .planned "items"
  settings := {}
  session := ⟨0⟩
  account := ⟨0⟩

/-- Two members who sync one table. -/
def pair : Crowd Bool (Except Error (Option Partition.SyncReport)) where
  world := {}
  stand _ := .acting itemsManager.sync.toJob

/-- The first member is kept waiting until the second one has taken over its lease. -/
def takeover : List (Turn Bool) :=
  [.act false, .pass (.ofSecs 60), .act true, .act false, .act false, .act false, .act false]

theorem opening_pair : Opening (fun _ => under itemsManager.leaseKey) pair where
  oneEach := .nil
  below _ hm := by cases hm
  guarded _ := ⟨_, rfl, guarded_of_keeps
    (Partition.Manager.keeps_sync (Partition.Strategy.leaseFree_planned "items"))⟩

/-- The first member asks what to detach, and then gives back its lease, when both leases
are outstanding and the second one's counts. -/
theorem leases_exclude_takeover :
    ∃ before deed after, (pair.run takeover).2 = before ++ deed :: after ∧
      deed.act = .asked (.releaseLease itemsManager.leaseKey ⟨0⟩) ∧
      (outstanding before).map (fun held => (held.who, held.since)) =
        [(false, 0), (true, .ofSecs 60)] ∧
      Exclusive (fun _ => under itemsManager.leaseKey) before deed :=
  ⟨(pair.run takeover).2.take 5,
    ⟨false, (pair.run (takeover.take 6)).1.world,
      .asked (.releaseLease itemsManager.leaseKey ⟨0⟩)⟩, [],
    rfl, rfl, by decide, leases_exclude opening_pair takeover rfl⟩

end Upkeep.Lease
