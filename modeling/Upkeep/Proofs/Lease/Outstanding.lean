import Mathlib.Data.List.Pairwise
import Upkeep.Lease.Guard
import Upkeep.Proofs.Crowd.Basic
import Upkeep.Proofs.Lease.Store
import Upkeep.Proofs.Simulation.Frame

/-!
# Outstanding leases

What a crowd's deeds say about its leases: which were granted and not given back, and
whose guard is in whose hand.  This is kept apart from what the store's entries say;
here is how the two are related after every turn.

## Main Definitions

* `Holding`, `outstanding` — a lease that was granted, and those that were not given
  back yet.
* `hand`, `Guarded` — the guards that a member has, and jobs that use leases through
  them alone.
* `Reflects` — how the store's entries are related to the outstanding leases.
* `Tended` — that relation, and what is in hand is outstanding.

## Main Statements

* `Reflects.done`, `Reflects.quiet` — every turn preserves the relation.
* `Tended.move` — every turn of a crowd of guarded jobs preserves it, and that what a
  member has in hand is outstanding.

## Design Notes

*A lease counts as outstanding until the store says that it was given back.*  One
whose return failed, or came too late, stays in the list.  This makes exclusion say
more: it waits for the times of those leases, too.

*What is load-bearing* is that an outstanding lease whose time is not up has its entry
in the store.  Eviction removes nothing else, and what a member gives back is the
entry of its own token.  The relation does not depend on what the members do; only
that a member gives back no lease but its own does.
-/

namespace Upkeep.Lease

open Simulation

variable {ι α : Type}

/-! ### Holdings -/

/-- A lease that was granted to somebody. -/
structure Holding (ι : Type) where
  who : ι
  guard : Guard
  since : Duration
  ttl : Duration

/-- The instant at which the lease runs out. -/
def Holding.until (holding : Holding ι) : Duration := holding.since + holding.ttl

/-- The store's entry of a lease. -/
def Holding.entry (holding : Holding ι) : Entry :=
  ⟨holding.guard.key, holding.guard.token, holding.until⟩

/-- The lease that was granted in a deed. -/
def granted? (deed : Deed ι) : Option (Holding ι) :=
  match deed.act with
  | .asked (.obtainLease key ttl) =>
      match (deed.world.obtainLease key ttl).1 with
      | .ok (some token) => some ⟨deed.who, ⟨key, token⟩, deed.now, ttl⟩
      | _ => none
  | _ => none

/-- The guard of the lease that was given back in a deed. -/
def returned? (deed : Deed ι) : Option Guard :=
  match deed.act with
  | .asked (.releaseLease key token) =>
      match (deed.world.releaseLease key token).1 with
      | .ok true => some ⟨key, token⟩
      | _ => none
  | _ => none

/-- The outstanding leases after a deed. -/
def afterDeed (held : List (Holding ι)) (deed : Deed ι) : List (Holding ι) :=
  held.filter (fun holding => some holding.guard ≠ returned? deed) ++ (granted? deed).toList

/-- The leases that were granted and not given back. -/
def outstanding (deeds : List (Deed ι)) : List (Holding ι) := deeds.foldl afterDeed []

@[simp] theorem outstanding_nil : outstanding ([] : List (Deed ι)) = [] := rfl

@[simp] theorem outstanding_append_singleton (deeds : List (Deed ι)) (deed : Deed ι) :
    outstanding (deeds ++ [deed]) = afterDeed (outstanding deeds) deed := by
  simp [outstanding]

theorem mem_afterDeed {held : List (Holding ι)} {deed : Deed ι} {holding : Holding ι} :
    holding ∈ afterDeed held deed ↔
      (holding ∈ held ∧ some holding.guard ≠ returned? deed) ∨
        granted? deed = some holding := by
  simp [afterDeed]

/-- A lease that is outstanding was so before, or was granted since. -/
theorem mem_outstanding_append {held : Holding ι} {before more : List (Deed ι)}
    (h : held ∈ outstanding (before ++ more)) :
    held ∈ outstanding before ∨
      ∃ l₁ deed l₂, more = l₁ ++ deed :: l₂ ∧ granted? deed = some held := by
  induction more generalizing before with
  | nil => exact .inl (by simpa using h)
  | cons deed more ih =>
      rw [List.append_cons] at h
      rcases ih h with hm | ⟨l₁, deed', l₂, rfl, hg⟩
      · rw [outstanding_append_singleton] at hm
        rcases mem_afterDeed.1 hm with ⟨hold, -⟩ | hg
        · exact .inl hold
        · exact .inr ⟨[], deed, more, rfl, hg⟩
      · exact .inr ⟨deed :: l₁, deed', l₂, rfl, hg⟩

theorem eq_of_granted? {deed : Deed ι} {holding : Holding ι} (h : granted? deed = some holding) :
    ∃ key ttl token, deed.act = .asked (.obtainLease key ttl) ∧
      (deed.world.obtainLease key ttl).1 = .ok (some token) ∧
        holding = ⟨deed.who, ⟨key, token⟩, deed.now, ttl⟩ := by
  unfold granted? at h
  split at h
  · next key ttl hact =>
      split at h
      · next token htoken => exact ⟨key, ttl, token, hact, htoken, (Option.some.inj h).symm⟩
      · cases h
  · cases h

theorem eq_of_returned? {deed : Deed ι} {guard : Guard} (h : returned? deed = some guard) :
    deed.act = .asked (.releaseLease guard.key guard.token) ∧
      (deed.world.releaseLease guard.key guard.token).1 = .ok true := by
  unfold returned? at h
  split at h
  · next key token hact =>
      split at h
      · next htrue =>
          obtain rfl := Option.some.inj h
          exact ⟨hact, htrue⟩
      · cases h
  · cases h

/-! ### Guards in hand -/

/-- The guards that a member has, by what the member did: it has the guard of every
lease that it was granted until it asks for that lease to be given back. -/
def hand : Surroundings Service (List Guard) where
  replies _ _ _ := True
  after hand r answer :=
    match r, answer with
    | .obtainLease key _, .ok (some token) => hand ++ [⟨key, token⟩]
    | .releaseLease key token, _ => hand.filter fun guard => guard ≠ ⟨key, token⟩
    | _, _ => hand
  slept hand _ := hand
  interrupts := True

theorem isOpen_hand : hand.IsOpen := ⟨fun _ _ _ => trivial, trivial⟩

/-- Leases are given back by those who have their guards, and what needs a lease is
done by those who have a guard of it. -/
structure Lawful (needs : Service.Request → Option String) (hand : List Guard)
    (r : Service.Request) : Prop where
  own : ∀ key token, r = .releaseLease key token → ⟨key, token⟩ ∈ hand
  covered : ∀ key, needs r = some key → ∃ guard ∈ hand, guard.key = key

/-- A job that obtains and gives back leases through guards alone, and does what
needs a lease only while it has a guard of that. -/
def Guarded (needs : Service.Request → Option String) (job : Job Service α) : Prop :=
  job.Keeps hand (Lawful needs) (fun _ _ => True) (fun _ _ => True) []

/-! ### The store and the outstanding leases -/

/-- How the store's entries are related to the outstanding leases. -/
structure Reflects (world : World) (held : List (Holding ι)) : Prop where
  oneEach : world.leases.OneEach
  below : world.leases.Below world.tokensDrawn
  /-- Tokens are not drawn twice. -/
  drawn : ∀ holding ∈ held, holding.guard.token.serial < world.tokensDrawn
  fresh : (held.map fun holding => holding.guard.token).Nodup
  /-- A lease whose time is not up has its entry. -/
  stored : ∀ holding ∈ held, holding.until ≤ world.now ∨ holding.entry ∈ world.leases.entries
  /-- A lease was granted when those before it had run out. -/
  apart : held.Pairwise fun a b => a.guard.key = b.guard.key → a.until ≤ b.since

theorem reflects_nil {world : World} (hone : world.leases.OneEach)
    (hbelow : world.leases.Below world.tokensDrawn) : Reflects (ι := ι) world [] :=
  ⟨hone, hbelow, by simp, by simp, by simp, .nil⟩

namespace Reflects

variable {world after : World} {held : List (Holding ι)} {deed : Deed ι}

/-- Of two outstanding leases of a key, one was granted when the other had run out. -/
theorem apart_or (h : Reflects world held) {a b : Holding ι} (ha : a ∈ held) (hb : b ∈ held)
    (hk : a.guard.key = b.guard.key) :
    b = a ∨ a.until ≤ b.since ∨ b.until ≤ a.since := by
  by_cases heq : b = a
  · exact .inl heq
  have both : held.Pairwise fun a b =>
      a.guard.key = b.guard.key → a.until ≤ b.since ∨ b.until ≤ a.since :=
    h.apart.imp fun hab hk => .inl (hab hk)
  have : Std.Symm fun a b : Holding ι =>
      a.guard.key = b.guard.key → a.until ≤ b.since ∨ b.until ≤ a.since :=
    ⟨fun _ _ hab hk => (hab hk.symm).symm⟩
  exact .inr (both.forall ha hb (Ne.symm heq) hk)

/-- Time passes, and entries whose time is up go. -/
theorem quiet (h : Reflects world held) (hq : Crowd.Quiet world after) : Reflects after held := by
  have hleases : after.leases.OneEach ∧ after.leases.Below world.tokensDrawn ∧
      ∀ entry ∈ world.leases.entries, world.now < entry.expires →
        entry ∈ after.leases.entries := by
    rcases hq.leases with hl | ⟨key, hl⟩
    · rw [hl]
      exact ⟨h.oneEach, h.below, fun _ hm _ => hm⟩
    · rw [hl]
      refine ⟨h.oneEach.filter _, fun entry hm => h.below entry (Store.mem_evictKey.1 hm).1, ?_⟩
      intro entry hm hlive
      exact Store.mem_evictKey.2 ⟨hm, fun _ => Entry.isLive_eq_true_iff.2 hlive⟩
  obtain ⟨hone, hbelow, hkept⟩ := hleases
  refine ⟨hone, hq.drawn ▸ hbelow, hq.drawn ▸ h.drawn, h.fresh, ?_, h.apart⟩
  intro holding hm
  rcases h.stored holding hm with ht | he
  · exact .inl (le_trans ht hq.now_le)
  · by_cases ht : holding.until ≤ world.now
    · exact .inl (le_trans ht hq.now_le)
    · exact .inr (hkept _ he (not_le.1 ht))

/-- What is done without the leases leaves the relation alone. -/
theorem of_same (h : Reflects world held) (hnow : after.now = world.now)
    (hleases : after.leases = world.leases) (hdrawn : after.tokensDrawn = world.tokensDrawn) :
    Reflects after held :=
  h.quiet ⟨Nat.le_of_eq (congrArg Duration.nanos hnow.symm), hdrawn, .inl hleases⟩

private theorem afterDeed_of_none (hg : granted? deed = none) (hr : returned? deed = none) :
    afterDeed held deed = held := by
  simp [afterDeed, hg, hr]

/-- The store after somebody asked for a lease spares all leases whose time is not up. -/
private theorem obtain (h : Reflects world held) (key : String) (ttl : Duration) :
    Reflects
      { world with
        tokensDrawn := world.tokensDrawn + 1
        leases := (world.leases.obtain world.now key ttl ⟨world.tokensDrawn⟩).2 } held := by
  refine ⟨h.oneEach.obtain, fun entry hm => ?_, fun holding hm => ?_, h.fresh,
    fun holding hm => ?_, h.apart⟩
  · rcases Store.mem_obtain.1 hm with ⟨hm, -⟩ | ⟨-, rfl⟩
    · exact Nat.lt_succ_of_lt (h.below entry hm)
    · exact Nat.lt_succ_self _
  · exact Nat.lt_succ_of_lt (h.drawn holding hm)
  · by_cases ht : holding.until ≤ world.now
    · exact .inl ht
    · refine .inr (Store.mem_obtain.2 (.inl ⟨(h.stored holding hm).resolve_left ht, ?_⟩))
      exact Entry.isLive_eq_true_iff.2 (not_le.1 ht)

/-- A lease that has its entry is outstanding from now on, if those of its key have run out. -/
private theorem concat (h : Reflects world held) {new : Holding ι}
    (hdrawn : new.guard.token.serial < world.tokensDrawn)
    (hnew : ∀ holding ∈ held, holding.guard.token ≠ new.guard.token)
    (hstored : new.entry ∈ world.leases.entries)
    (hover : ∀ holding ∈ held, holding.guard.key = new.guard.key → holding.until ≤ new.since) :
    Reflects world (held ++ [new]) := by
  refine ⟨h.oneEach, h.below, ?_, ?_, ?_, ?_⟩
  · exact List.forall_mem_append.2 ⟨h.drawn, List.forall_mem_singleton.2 hdrawn⟩
  · rw [List.map_append]
    refine List.Nodup.append h.fresh (List.nodup_singleton _) ?_
    simpa [List.disjoint_singleton] using hnew
  · exact List.forall_mem_append.2 ⟨h.stored, List.forall_mem_singleton.2 (.inr hstored)⟩
  · refine List.pairwise_append.2 ⟨h.apart, List.pairwise_singleton _ _, fun a ha b hb => ?_⟩
    rw [List.mem_singleton.1 hb]
    exact hover a ha

/-- A new lease is granted when all others of its key have run out. -/
private theorem obtained {key : String} {ttl : Duration} (h : Reflects deed.world held)
    (hact : deed.act = .asked (.obtainLease key ttl)) :
    Reflects deed.after (afterDeed held deed) := by
  have hr : returned? deed = none := by simp [returned?, hact]
  have hafter : deed.after = (deed.world.obtainLease key ttl).2 := by
    simp only [Deed.after, hact]
    rfl
  by_cases hf : deed.world.leaseFaults.obtain = true
  · have ho : deed.world.obtainLease key ttl = (.error World.unreachable, deed.world) := by
      simp [World.obtainLease, hf]
    rw [afterDeed_of_none (by simp [granted?, hact, ho]) hr, hafter, ho]
    exact h
  -- Whatever the answer is, what has run out is evicted and a token is drawn.
  set token : Token := ⟨deed.world.tokensDrawn⟩ with htoken
  set result := deed.world.leases.obtain deed.world.now key ttl token with hresult
  have ho : deed.world.obtainLease key ttl =
      (.ok (if result.1 then some token else none),
        { deed.world with
          tokensDrawn := deed.world.tokensDrawn + 1
          leases := result.2 }) := by
    simp only [World.obtainLease, hf]
    rfl
  have hspared := h.obtain key ttl
  by_cases hgranted : result.1 = true
  · have hg : granted? deed = some ⟨deed.who, ⟨key, token⟩, deed.now, ttl⟩ := by
      simp [granted?, hact, ho, hgranted]
    have hheld : afterDeed held deed = held ++ [⟨deed.who, ⟨key, token⟩, deed.now, ttl⟩] := by
      simp [afterDeed, hg, hr]
    rw [hheld, hafter, ho]
    refine hspared.concat (Nat.lt_succ_self _) (fun holding hm heq => ?_)
      (Store.mem_obtain.2 (.inr ⟨hgranted, rfl⟩)) fun holding hm hk => ?_
    · have hlt := h.drawn holding hm
      rw [heq] at hlt
      exact Nat.lt_irrefl _ hlt
    · -- The entry of a lease that still counted would have prevented the grant.
      rcases h.stored holding hm with ht | he
      · exact ht
      · exact Entry.isLive_eq_false_iff.1 (Store.obtain_eq_true_iff.1 hgranted _ he hk)
  · have hg : granted? deed = none := by simp [granted?, hact, ho, hgranted]
    rw [afterDeed_of_none hg hr, hafter, ho]
    exact hspared

/-- Giving back removes the entry of the token that is given back, and spares all
others that still count. -/
private theorem released {key : String} {token : Token} (h : Reflects deed.world held)
    (hact : deed.act = .asked (.releaseLease key token)) :
    Reflects deed.after (afterDeed held deed) := by
  have hg : granted? deed = none := by simp [granted?, hact]
  have hafter : deed.after = (deed.world.releaseLease key token).2 := by
    simp only [Deed.after, hact]
    rfl
  by_cases hf : deed.world.leaseFaults.release = true
  · have ho : deed.world.releaseLease key token = (.error World.unreachable, deed.world) := by
      simp [World.releaseLease, hf]
    rw [afterDeed_of_none hg (by simp [returned?, hact, ho]), hafter, ho]
    exact h
  · set result := deed.world.leases.release deed.world.now key token with hresult
    have ho : deed.world.releaseLease key token =
        (.ok result.1, { deed.world with leases := result.2 }) := by
      simp only [World.releaseLease, hf]
      rfl
    have hmem : ∀ entry, entry ∈ result.2.entries ↔ entry ∈ deed.world.leases.entries ∧
        (entry.key = key → entry.token ≠ token ∧ entry.isLive deed.world.now = true) :=
      fun entry => Store.mem_release h.oneEach
    have hsub : (afterDeed held deed).Sublist held := by
      simp only [afterDeed, hg, Option.toList_none, List.append_nil]
      exact List.filter_sublist
    rw [hafter, ho]
    refine ⟨h.oneEach.release, fun entry hm => h.below entry ((hmem entry).1 hm).1,
      fun holding hm => h.drawn holding (hsub.subset hm),
      h.fresh.sublist (hsub.map _), ?_, h.apart.sublist hsub⟩
    intro holding hm
    have hheld := hsub.subset hm
    by_cases ht : holding.until ≤ deed.world.now
    · exact .inl ht
    · have he := (h.stored holding hheld).resolve_left ht
      refine .inr ((hmem _).2 ⟨he, fun hk => ⟨fun htoken => ?_, ?_⟩⟩)
      · -- Had it the token that is given back, it would not be outstanding any more.
        have hreleased : result.1 = true :=
          (Store.release_eq_true_iff h.oneEach).2 ⟨_, he, hk, htoken⟩
        have hreturned : returned? deed = some ⟨key, token⟩ := by
          simp [returned?, hact, ho, hreleased]
        rcases mem_afterDeed.1 hm with ⟨-, hne⟩ | hnone
        · rw [hreturned] at hne
          exact hne (congrArg some (Guard.mk.injEq .. ▸ ⟨hk, htoken⟩))
        · rw [hg] at hnone
          cases hnone
      · exact Entry.isLive_eq_true_iff.2 (not_le.1 ht)

/-- **A deed preserves the relation**, whoever did it. -/
theorem done (h : Reflects deed.world held) : Reflects deed.after (afterDeed held deed) := by
  by_cases ho : ∃ key ttl, deed.act = .asked (.obtainLease key ttl)
  · obtain ⟨key, ttl, hact⟩ := ho
    exact h.obtained hact
  by_cases hr : ∃ key token, deed.act = .asked (.releaseLease key token)
  · obtain ⟨key, token, hact⟩ := hr
    exact h.released hact
  have hg : granted? deed = none := by
    refine Option.eq_none_iff_forall_ne_some.2 fun holding hg => ?_
    obtain ⟨key, ttl, token, hact, -⟩ := eq_of_granted? hg
    exact ho ⟨key, ttl, hact⟩
  have hr' : returned? deed = none := by
    refine Option.eq_none_iff_forall_ne_some.2 fun guard hg => ?_
    obtain ⟨hact, -⟩ := eq_of_returned? hg
    exact hr ⟨_, _, hact⟩
  rw [afterDeed_of_none hg hr']
  match hact : deed.act with
  | .slept length => simpa [Deed.after, hact] using h
  | .interrupted why => simpa [Deed.after, hact] using h
  | .asked r =>
      have hafter : deed.after = (deed.world.answer r).2 := by simp only [Deed.after, hact]
      obtain ⟨hleases, hdrawn⟩ := (World.frame_answer r deed.world).leases
        (fun key ttl heq => ho ⟨key, ttl, heq ▸ hact⟩)
        (fun key token heq => hr ⟨key, token, heq ▸ hact⟩)
      rw [hafter]
      exact h.of_same (World.now_answer r _) hleases hdrawn

end Reflects

/-! ### What is in hand is outstanding -/

/-- What a member has in hand after a deed of its own. -/
theorem mem_note {world : World} {guards : List Guard} {act : Act} {guard : Guard}
    (h : guard ∈ hand.note world guards act) :
    (guard ∈ guards ∧ act ≠ .asked (.releaseLease guard.key guard.token)) ∨
      ∃ ttl, act = .asked (.obtainLease guard.key ttl) ∧
        (world.obtainLease guard.key ttl).1 = .ok (some guard.token) := by
  cases act with
  | slept length => exact .inl ⟨h, by simp⟩
  | interrupted why => exact .inl ⟨h, by simp⟩
  | asked r =>
      cases r with
      | obtainLease key ttl =>
          have hn : hand.note world guards (.asked (.obtainLease key ttl)) =
              match (world.obtainLease key ttl).1 with
              | .ok (some token) => guards ++ [⟨key, token⟩]
              | _ => guards := by
            cases ha : (world.obtainLease key ttl).1 with
            | error error => simp [Surroundings.note, hand, World.answer, ha]
            | ok token? => cases token? <;> simp [Surroundings.note, hand, World.answer, ha]
          rw [hn] at h
          split at h
          · next token htoken =>
              rcases List.mem_append.1 h with h | h
              · exact .inl ⟨h, by simp⟩
              · rw [List.mem_singleton.1 h]
                exact .inr ⟨ttl, rfl, htoken⟩
          · exact .inl ⟨h, by simp⟩
      | releaseLease key token =>
          simp only [Surroundings.note, hand, List.mem_filter, decide_eq_true_iff] at h
          refine .inl ⟨h.1, fun heq => h.2 ?_⟩
          simp only [Act.asked.injEq, Service.Request.releaseLease.injEq] at heq
          rw [heq.1, heq.2]
      | _ => exact .inl ⟨h, by simp⟩

variable [DecidableEq ι] {needs : ι → Service.Request → Option String}

/-- How a crowd of guarded jobs is related to what was done so far. -/
structure Tended (needs : ι → Service.Request → Option String) (crowd : Crowd ι α)
    (deeds : List (Deed ι)) : Prop where
  reflects : Reflects crowd.world (outstanding deeds)
  lawful : ∀ who, (crowd.stand who).Keeps hand (Lawful (needs who)) (fun _ _ => True)
    (fun _ _ => True) (hand.watch who deeds [])
  /-- What a member has in hand was granted to that member and is outstanding. -/
  inHand : ∀ who, ∀ guard ∈ hand.watch who deeds [],
    ∃ holding ∈ outstanding deeds, holding.who = who ∧ holding.guard = guard

namespace Tended

variable {crowd : Crowd ι α} {deeds : List (Deed ι)}

/-- Each member gives back no lease but its own, so nobody loses one. -/
private theorem inHand_move (h : Tended needs crowd deeds) (turn : Turn ι) {deed : Deed ι}
    (hd : (crowd.move turn).2 = some deed) {who : ι} {guard : Guard}
    (hg : guard ∈ hand.observe who (hand.watch who deeds []) deed) :
    ∃ holding ∈ afterDeed (outstanding deeds) deed, holding.who = who ∧ holding.guard = guard := by
  -- A guard that was there before stays, unless its own member gives it back now.
  have stays : guard ∈ hand.watch who deeds [] →
      (deed.who = who → deed.act ≠ .asked (.releaseLease guard.key guard.token)) →
      ∃ holding ∈ afterDeed (outstanding deeds) deed,
        holding.who = who ∧ holding.guard = guard := by
    intro hin hown
    obtain ⟨holding, hm, hw, rfl⟩ := h.inHand who guard hin
    refine ⟨holding, mem_afterDeed.2 (.inl ⟨hm, fun hr => ?_⟩), hw, rfl⟩
    obtain ⟨hact, -⟩ := eq_of_returned? hr.symm
    have hlaw := (Crowd.keeps_move isOpen_hand turn (h.lawful deed.who)).2 deed hd rfl _ hact
    obtain ⟨other, hm', hw', hguard⟩ := h.inHand deed.who _ (hlaw.own _ _ rfl)
    have heq : holding = other :=
      List.inj_on_of_nodup_map h.reflects.fresh hm hm' (by rw [hguard])
    exact hown (by rw [← hw', ← heq, hw]) hact
  by_cases hw : deed.who = who
  · simp only [Surroundings.observe, hw, if_true] at hg
    rcases mem_note hg with ⟨hin, hact⟩ | ⟨ttl, hact, htoken⟩
    · exact stays hin fun _ => hact
    · refine ⟨⟨deed.who, guard, deed.now, ttl⟩, mem_afterDeed.2 (.inr ?_), hw, rfl⟩
      simp [granted?, hact, htoken]
  · simp only [Surroundings.observe, hw, if_false] at hg
    exact stays hg fun heq => absurd heq hw

/-- **Every turn keeps the crowd tended.** -/
theorem move (h : Tended needs crowd deeds) (turn : Turn ι) :
    Tended needs (crowd.move turn).1 (deeds ++ (crowd.move turn).2.toList) := by
  have hlawful : ∀ who, ((crowd.move turn).1.stand who).Keeps hand (Lawful (needs who))
      (fun _ _ => True) (fun _ _ => True)
      (hand.watch who (deeds ++ (crowd.move turn).2.toList) []) := by
    intro who
    rw [Surroundings.watch_append]
    exact (Crowd.keeps_move isOpen_hand turn (h.lawful who)).1
  rcases crowd.world_move turn with ⟨deed, hd, hworld, hafter⟩ | ⟨hd, hquiet⟩
  · refine ⟨?_, hlawful, ?_⟩
    · rw [hafter, hd, Option.toList_some, outstanding_append_singleton]
      exact Reflects.done (hworld ▸ h.reflects)
    · intro who guard hg
      rw [hd, Option.toList_some, Surroundings.watch_append] at hg
      rw [hd, Option.toList_some, outstanding_append_singleton]
      exact h.inHand_move turn hd hg
  · refine ⟨?_, hlawful, ?_⟩
    · rw [hd, Option.toList_none, List.append_nil]
      exact h.reflects.quiet hquiet
    · rw [hd, Option.toList_none, List.append_nil]
      exact h.inHand

end Tended

end Upkeep.Lease
