import Mathlib.Data.List.Nodup
import Upkeep.Proofs.Duration
import Upkeep.Simulation.World

/-!
# What the lease store does to its entries

Each operation of the store by the entries that are there before and after it.
Everything that is proved about leases goes through these equivalences; the
operations themselves are not unfolded again.

## Main Definitions

* `Store.OneEach` — no key has two entries.
* `Store.Below` — every token was drawn.

## Main Statements

* `Store.obtain_eq_true_iff`, `Store.mem_obtain` — who is granted a lease, and what
  is there after that.
* `Store.release_eq_true_iff`, `Store.mem_release` — what giving back removes.

## Design Notes

The store looks up a key by its first entry.  That this is the only one is not part
of the store's type, so it is carried along as `OneEach`; every operation keeps it.
-/

namespace Upkeep.Lease

@[simp] theorem Entry.isLive_eq_true_iff {now : Duration} {entry : Entry} :
    entry.isLive now = true ↔ now < entry.expires := decide_eq_true_iff

@[simp] theorem Entry.isLive_eq_false_iff {now : Duration} {entry : Entry} :
    entry.isLive now = false ↔ entry.expires ≤ now := by
  rw [← Bool.not_eq_true, isLive_eq_true_iff, not_lt]

namespace Store

variable {now ttl : Duration} {key : String} {token : Token} {store : Store} {entry : Entry}

/-- No key has two entries. -/
def OneEach (store : Store) : Prop := (store.entries.map Entry.key).Nodup

/-- Every token is among the first so many that were drawn. -/
def Below (drawn : Nat) (store : Store) : Prop :=
  ∀ entry ∈ store.entries, entry.token.serial < drawn

theorem oneEach_empty : OneEach {} := List.nodup_nil

theorem below_empty : Below 0 {} := fun _ hm => absurd hm List.not_mem_nil

/-! ### Looking up -/

/-- Two entries of one key are the same entry. -/
theorem OneEach.eq (h : store.OneEach) {a b : Entry} (ha : a ∈ store.entries)
    (hb : b ∈ store.entries) (hk : a.key = b.key) : a = b :=
  List.inj_on_of_nodup_map h ha hb hk

theorem find?_eq_some_iff (h : store.OneEach) :
    store.find? key = some entry ↔ entry ∈ store.entries ∧ entry.key = key := by
  constructor
  · intro hf
    exact ⟨List.mem_of_find?_eq_some hf, by simpa using List.find?_some hf⟩
  · rintro ⟨hm, rfl⟩
    cases hf : store.find? entry.key with
    | none => exact absurd (List.find?_eq_none.1 hf entry hm) (by simp)
    | some other =>
        have hk : other.key = entry.key := by simpa using List.find?_some hf
        rw [h.eq (List.mem_of_find?_eq_some hf) hm hk]

theorem find?_eq_none_iff : store.find? key = none ↔ ∀ entry ∈ store.entries, entry.key ≠ key := by
  simp [find?]

/-! ### Entries that are dropped -/

theorem mem_erase :
    entry ∈ (store.erase key).entries ↔ entry ∈ store.entries ∧ entry.key ≠ key := by
  simp [erase]

theorem mem_evict :
    entry ∈ (store.evict now).entries ↔ entry ∈ store.entries ∧ entry.isLive now = true := by
  simp [evict]

theorem mem_evictKey :
    entry ∈ (store.evictKey now key).entries ↔
      entry ∈ store.entries ∧ (entry.key = key → entry.isLive now = true) := by
  simp only [evictKey, List.mem_filter, Bool.or_eq_true, bne_iff_ne, ne_eq]
  exact and_congr_right fun _ => Decidable.imp_iff_not_or.symm

theorem OneEach.filter (h : store.OneEach) (p : Entry → Bool) :
    OneEach ⟨store.entries.filter p⟩ :=
  List.Nodup.sublist (List.filter_sublist.map _) h

/-! ### Obtaining -/

/-- A lease is granted if and only if no lease of the key still counts. -/
theorem obtain_eq_true_iff :
    (store.obtain now key ttl token).1 = true ↔
      ∀ entry ∈ store.entries, entry.key = key → entry.isLive now = false := by
  simp only [obtain]
  cases hf : (store.evict now).find? key with
  | none =>
      have hnone := find?_eq_none_iff.1 hf
      simp only [true_iff]
      intro entry hm hk
      by_contra hlive
      exact hnone entry (mem_evict.2 ⟨hm, (Bool.not_eq_false _).mp hlive⟩) hk
  | some entry =>
      simp only [Bool.false_eq_true, false_iff]
      intro hall
      obtain ⟨hm, hlive⟩ := mem_evict.1 (List.mem_of_find?_eq_some hf)
      have hk : entry.key = key := by simpa using List.find?_some hf
      rw [hall entry hm hk] at hlive
      cases hlive

/-- After an attempt to obtain a lease there are the entries that still count, and
the one that was granted. -/
theorem mem_obtain :
    entry ∈ (store.obtain now key ttl token).2.entries ↔
      (entry ∈ store.entries ∧ entry.isLive now = true) ∨
        ((store.obtain now key ttl token).1 = true ∧ entry = ⟨key, token, now + ttl⟩) := by
  simp only [obtain]
  cases (store.evict now).find? key with
  | none => simp only [List.mem_append, List.mem_singleton, mem_evict, true_and]
  | some other => simp [mem_evict]

theorem OneEach.obtain (h : store.OneEach) : (store.obtain now key ttl token).2.OneEach := by
  simp only [Store.obtain]
  cases hf : (store.evict now).find? key with
  | none =>
      have hnone := find?_eq_none_iff.1 hf
      simp only [OneEach, List.map_append, List.map_cons, List.map_nil]
      refine List.Nodup.append (h.filter _) (List.nodup_singleton _) ?_
      simp only [List.disjoint_singleton, List.mem_map, not_exists, not_and]
      exact hnone
  | some other => exact h.filter _

theorem evict_evict : (store.evict now).evict now = store.evict now := by
  simp [evict]

/-- Whether a lease is granted is a matter of the leases that still count. -/
theorem obtain_fst_eq :
    (store.obtain now key ttl token).1 = ((store.evict now).find? key).isNone := by
  simp only [obtain]
  split
  · next held => rw [held]; rfl
  · next free => rw [free]; rfl

/-- A lease that somebody has is left to them. -/
theorem obtain_of_held (h : (store.obtain now key ttl token).1 = false) :
    (store.obtain now key ttl token).2 = store.evict now := by
  simp only [obtain] at h ⊢
  split
  · rfl
  · next free => simp [free] at h

/-- What was granted is the entry of its key. -/
theorem find?_obtain (h : (store.obtain now key ttl token).1 = true) :
    (store.obtain now key ttl token).2.find? key = some ⟨key, token, now + ttl⟩ := by
  simp only [obtain] at h ⊢
  cases hf : (store.evict now).find? key with
  | some other =>
      rw [hf] at h
      cases h
  | none =>
      rw [find?] at hf ⊢
      simp only [List.find?_append, hf, Option.none_or]
      simp

/-! ### Giving back -/

/-- Giving back the entry of a key leaves none. -/
theorem release_of_find? (h : store.find? key = some entry) (ht : entry.token = token) :
    store.release now key token = (true, store.erase key) := by
  simp only [release, h, if_pos ht]


/-- What was granted can be given back at any time, and then nothing is left of it. -/
theorem release_obtain (h : (store.obtain now key ttl token).1 = true) (later : Duration) :
    (store.obtain now key ttl token).2.release later key token = (true, store.evict now) := by
  rw [release_of_find? (find?_obtain h) rfl]
  simp only [obtain] at h ⊢
  split
  · next held => simp [held] at h
  · next free =>
      refine congrArg (Prod.mk true) (congrArg Store.mk ?_)
      have others := find?_eq_none_iff.1 free
      simp only [List.filter_append]
      rw [List.filter_eq_self.2 fun entry mem => bne_iff_ne.2 (others entry mem)]
      simp [evict]

/-- A lease is given back if and only if the entry of the key has that token. -/
theorem release_eq_true_iff (h : store.OneEach) :
    (store.release now key token).1 = true ↔
      ∃ entry ∈ store.entries, entry.key = key ∧ entry.token = token := by
  simp only [release]
  cases hf : store.find? key with
  | none =>
      have hnone := find?_eq_none_iff.1 hf
      simp only [Bool.false_eq_true, false_iff]
      rintro ⟨entry, hm, hk, -⟩
      exact hnone entry hm hk
  | some found =>
      obtain ⟨hm, hk⟩ := (find?_eq_some_iff h).1 hf
      by_cases ht : found.token = token
      · simp only [ht, if_true, true_iff]
        exact ⟨found, hm, hk, ht⟩
      · simp only [ht, if_false, Bool.false_eq_true, false_iff]
        rintro ⟨entry, hm', hk', ht'⟩
        rw [h.eq hm' hm (hk'.trans hk.symm)] at ht'
        exact ht ht'

/-- Giving back removes the entry of the key if that has the token or does not count
any more, and nothing else. -/
theorem mem_release (h : store.OneEach) :
    entry ∈ (store.release now key token).2.entries ↔
      entry ∈ store.entries ∧
        (entry.key = key → entry.token ≠ token ∧ entry.isLive now = true) := by
  simp only [release]
  cases hf : store.find? key with
  | none =>
      have hnone := find?_eq_none_iff.1 hf
      exact ⟨fun hm => ⟨hm, fun hk => absurd hk (hnone entry hm)⟩, And.left⟩
  | some found =>
      obtain ⟨hm, hk⟩ := (find?_eq_some_iff h).1 hf
      by_cases ht : found.token = token
      · simp only [ht, if_true, mem_erase]
        refine and_congr_right fun hm' => ⟨fun hne hk' => absurd hk' hne, fun hall hk' => ?_⟩
        rw [h.eq hm' hm (hk'.trans hk.symm)] at hall
        exact (hall hk).1 ht
      · simp only [ht, if_false, mem_evictKey]
        refine and_congr_right fun hm' => forall_congr' fun hk' => ?_
        rw [h.eq hm' hm (hk'.trans hk.symm)]
        simp [ht]

theorem OneEach.release (h : store.OneEach) : (store.release now key token).2.OneEach := by
  simp only [Store.release]
  split
  · split
    · exact h.filter _
    · exact h.filter _
  · exact h

/-! ### Asking -/

/-- A token has the key if and only if its entry still counts. -/
theorem holder_eq_some_iff (h : store.OneEach) :
    (store.holder now key).1 = some token ↔
      ∃ entry ∈ store.entries, entry.key = key ∧ entry.token = token ∧ entry.isLive now = true := by
  have hk : (store.evictKey now key).OneEach := h.filter _
  simp only [holder, Option.map_eq_some_iff, find?_eq_some_iff hk, mem_evictKey]
  constructor
  · rintro ⟨entry, ⟨⟨hm, hlive⟩, rfl⟩, rfl⟩
    exact ⟨entry, hm, rfl, rfl, hlive rfl⟩
  · rintro ⟨entry, hm, rfl, rfl, hlive⟩
    exact ⟨entry, ⟨⟨hm, fun _ => hlive⟩, rfl⟩, rfl⟩

end Store

end Upkeep.Lease
