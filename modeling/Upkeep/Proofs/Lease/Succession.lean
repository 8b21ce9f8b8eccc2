import Upkeep.Proofs.Lease.Span

/-!
# Who was granted a lease last

In a crowd whose members work under one key, and whose work is all done in time, the one
who works is always the one who was granted the lease last.  So the members' work comes in
the order of their grants, without any overlap.

## Main Definitions

* `grantees` — those who were granted the lease of a key, in this order.

## Main Statements

* `until_le_of_granted` — a lease is granted when those of its key have run out.
* `getLast?_grantees_of_isWork` — whoever works was granted the lease last.
-/

namespace Upkeep.Lease

open Simulation

variable {ι α : Type}

/-- Who was granted the lease of a key in a deed. -/
def grantee? (key : String) (deed : Deed ι) : Option ι :=
  ((granted? deed).filter fun holding => holding.guard.key = key).map Holding.who

/-- Those who were granted the lease of a key, in this order. -/
def grantees (key : String) (deeds : List (Deed ι)) : List ι := deeds.filterMap (grantee? key)

variable {key : String}

@[simp] theorem grantees_nil : grantees key ([] : List (Deed ι)) = [] := rfl

@[simp] theorem grantees_append (deeds deeds' : List (Deed ι)) :
    grantees key (deeds ++ deeds') = grantees key deeds ++ grantees key deeds' :=
  List.filterMap_append

@[simp] theorem grantees_singleton (deed : Deed ι) :
    grantees key [deed] = (grantee? key deed).toList := by
  cases h : grantee? key deed <;> simp [grantees, h]

theorem grantee?_eq_some_iff {deed : Deed ι} {who : ι} :
    grantee? key deed = some who ↔
      ∃ held, granted? deed = some held ∧ held.guard.key = key ∧ held.who = who := by
  simp [grantee?, Option.map_eq_some_iff, Option.filter_eq_some_iff, and_assoc]

/-- The last grant among some deeds, if there is any. -/
theorem grantees_eq_nil_or_exists_last (key : String) (deeds : List (Deed ι)) :
    grantees key deeds = [] ∨ ∃ l₁ grant l₂ who, deeds = l₁ ++ grant :: l₂ ∧
      grantee? key grant = some who ∧ grantees key l₂ = [] := by
  induction deeds with
  | nil => exact .inl rfl
  | cons deed deeds ih =>
      rcases ih with hnone | ⟨l₁, grant, l₂, who, rfl, hwho, hnone⟩
      · cases hd : grantee? key deed with
        | none => exact .inl (by simp [grantees, hd, ← hnone])
        | some who => exact .inr ⟨[], deed, deeds, who, rfl, hd, hnone⟩
      · exact .inr ⟨deed :: l₁, grant, l₂, who, rfl, hwho, hnone⟩

/-- A lease of the key that is outstanding after more deeds, none of which granted the key, was so
before them. -/
theorem mem_outstanding_of_grantees {before more : List (Deed ι)} {held : Holding ι}
    (hheld : held ∈ outstanding (before ++ more)) (hkey : held.guard.key = key)
    (hmore : grantees key more = []) : held ∈ outstanding before := by
  refine (mem_outstanding_append hheld).resolve_right ?_
  rintro ⟨l₁, grant, l₂, rfl, hg⟩
  have hwho : grantee? key grant = some held.who := grantee?_eq_some_iff.2 ⟨held, hg, hkey, rfl⟩
  rw [grantees, List.filterMap_eq_nil_iff] at hmore
  rw [hmore grant (by simp)] at hwho
  cases hwho

variable [DecidableEq ι] {needs : ι → Service.Request → Option String} {crowd : Crowd ι α}
  {turns : List (Turn ι)} {before after : List (Deed ι)} {deed : Deed ι}

/-- A lease is granted when the outstanding ones of its key have run out. -/
theorem until_le_of_granted (h : Opening needs crowd)
    (hd : (crowd.run turns).2 = before ++ deed :: after) {new held : Holding ι}
    (hnew : granted? deed = some new) (hheld : held ∈ outstanding before)
    (hkey : held.guard.key = new.guard.key) : held.until ≤ new.since := by
  obtain ⟨earlier, turn, later, rfl, rfl, hm⟩ := Crowd.exists_turn_of_run hd
  have hapart := ((tended_run h earlier).move turn).reflects.apart
  rw [hm, Option.toList_some, outstanding_append_singleton, afterDeed, hnew] at hapart
  refine (List.pairwise_append.1 hapart).2.2 held ?_ new (by simp) hkey
  -- What is granted in a deed is not given back in it.
  obtain ⟨key, ttl, token, hact, -⟩ := eq_of_granted? hnew
  have hnone : returned? deed = none := by simp [returned?, hact]
  simp [hheld, hnone]

/-- **Whoever works in time was granted the lease last.** -/
theorem getLast?_grantees_of_isWork (h : Opening (fun _ => under key) crowd)
    (hintime : InTime (crowd.run turns).2) (hd : (crowd.run turns).2 = before ++ deed :: after)
    (hwork : deed.isWork = true) : (grantees key before).getLast? = some deed.who := by
  -- The one who works has a lease that has not run out.
  obtain ⟨held, hheld, hwho, hkey, hlive⟩ : ∃ held ∈ outstanding before,
      held.who = deed.who ∧ held.guard.key = key ∧ deed.now < held.until := by
    obtain ⟨earlier, turn, later, rfl, rfl, hm⟩ := Crowd.exists_turn_of_run hd
    have tended := tended_run h earlier
    unfold Deed.isWork at hwork
    split at hwork
    · next r hact =>
        have lawful :=
          (Crowd.keeps_move isOpen_hand turn (tended.lawful deed.who)).2 deed hm rfl r hact
        obtain ⟨guard, hguard, hkey⟩ := lawful.covered key (if_pos hwork)
        obtain ⟨held, hheld, hwho, rfl⟩ := tended.inHand deed.who guard hguard
        exact ⟨held, hheld, hwho, hkey,
          hintime _ _ _ hd (isWork_of_asked hact hwork) held hheld hguard⟩
    · cases hwork
  rcases grantees_eq_nil_or_exists_last key before with
    hnone | ⟨l₁, grant, l₂, who, rfl, hgrant, hnone⟩
  · have hfresh : held ∈ outstanding ([] ++ before) := hheld
    cases mem_outstanding_of_grantees hfresh hkey hnone
  have hlast : (grantees key (l₁ ++ grant :: l₂)).getLast? = some who := by
    rw [List.append_cons, grantees_append, hnone, List.append_nil, grantees_append,
      grantees_singleton, hgrant, Option.toList_some, List.getLast?_concat]
  rw [hlast, ← hwho]
  -- The lease was there after the last grant, but not before that.
  obtain ⟨new, hnew, hnewkey, rfl⟩ := grantee?_eq_some_iff.1 hgrant
  rw [List.append_cons] at hheld
  have hafter := mem_outstanding_of_grantees hheld hkey hnone
  rw [outstanding_append_singleton] at hafter
  rcases mem_afterDeed.1 hafter with ⟨hold, -⟩ | hsame
  · rw [List.append_assoc, List.cons_append] at hd
    have hended := until_le_of_granted h hd hnew hold (hkey.trans hnewkey.symm)
    obtain ⟨_, _, _, -, -, rfl⟩ := eq_of_granted? hnew
    exact absurd (hlive.trans_le hended) (not_lt.2 (Crowd.now_le_of_run hd))
  · obtain rfl : new = held := Option.some.inj (hnew.symm.trans hsame)
    rfl

end Upkeep.Lease
