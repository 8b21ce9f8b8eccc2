import Mathlib.Data.Set.Card
import Upkeep.Proofs.Lease.Store

/-!
# Nobody can see when ended leases are removed

The store removes a lease that has ended only when something else is done to it, and
not always then.  Here it is compared with an ideal store, in which a lease is gone at
the instant at which it ends: through any history, both grant the same leases, name
the same holders and count the same number of leases.

## Main Definitions

* `Ideal` — the leases of the ideal store, with the operations on them.
* `Operation` — what is done to a store, the passing of time included.
* `Keeper`, `lazily`, `ideally` — the two ways to keep leases.
* `Keeper.after` — what a keeper has after a history, and when that is.

## Main Statements

* **`eviction_unobservable`** — after every history the leases that count are those of
  the ideal store, and so are the answers; an attempt to obtain a lease leaves no entry
  behind that had ended.

## Design Notes

The ideal store is a partial function from keys, so that one key has one holder by its
type.  The store itself has that only as an invariant, which `Mirrors` carries along.
What the two answer to a release is left out: that is where they differ.
-/

namespace Upkeep.Lease

/-! ### The ideal store -/

/-- Who has each key, and until when. -/
abbrev Ideal := String → Option (Token × Duration)

namespace Ideal

/-- The leases that are left at an instant: each is gone from its end on. -/
def expire (now : Duration) (leases : Ideal) : Ideal := fun key =>
  (leases key).filter fun lease => now < lease.2

/-- Grants the key unless somebody has it. -/
def obtain (now : Duration) (key : String) (ttl : Duration) (token : Token) (leases : Ideal) :
    Bool × Ideal :=
  match leases key with
  | some _ => (false, leases)
  | none => (true, Function.update leases key (some (token, now + ttl)))

/-- Takes the key from the token if the token has it. -/
def release (key : String) (token : Token) (leases : Ideal) : Bool × Ideal :=
  if (leases key).map Prod.fst = some token then (true, Function.update leases key none)
  else (false, leases)

/-- The token that has the key. -/
def holder (key : String) (leases : Ideal) : Option Token := (leases key).map Prod.fst

/-- How many keys somebody has. -/
noncomputable def activeCount (leases : Ideal) : Nat := {key | (leases key).isSome}.ncard

end Ideal

/-! ### Histories -/

/-- What is done to a store of leases, and the time in between. -/
inductive Operation where
  | obtain (key : String) (ttl : Duration) (token : Token)
  | release (key : String) (token : Token)
  | holder (key : String)
  | activeCount
  | pass (length : Duration)
  deriving DecidableEq, Repr

/-- A way to keep leases: what the operations answer and leave behind, and what time
alone does. -/
structure Keeper (σ : Type) where
  empty : σ
  obtain : Duration → String → Duration → Token → σ → Bool × σ
  release : Duration → String → Token → σ → Bool × σ
  holder : Duration → String → σ → Option Token × σ
  activeCount : Duration → σ → Nat
  /-- What is left at an instant of what was there before. -/
  settle : Duration → σ → σ

/-- The store, to which time alone does nothing. -/
def lazily : Keeper Store where
  empty := {}
  obtain := Store.obtain
  release := Store.release
  holder := Store.holder
  activeCount := Store.activeCount
  settle _ store := store

/-- The ideal store, whose leases are gone when they end. -/
noncomputable def ideally : Keeper Ideal where
  empty _ := none
  obtain := Ideal.obtain
  release _ := Ideal.release
  holder _ key leases := (leases.holder key, leases)
  activeCount _ := Ideal.activeCount
  settle := Ideal.expire

/-- What a keeper has at an instant. -/
structure Dated (σ : Type) where
  now : Duration
  leases : σ

namespace Keeper

variable {σ : Type}

/-- What a keeper has after one operation. -/
def step (keeper : Keeper σ) (state : Dated σ) : Operation → Dated σ
  | .obtain key ttl token =>
      ⟨state.now, keeper.settle state.now (keeper.obtain state.now key ttl token state.leases).2⟩
  | .release key token =>
      ⟨state.now, keeper.settle state.now (keeper.release state.now key token state.leases).2⟩
  | .holder key => ⟨state.now, keeper.settle state.now (keeper.holder state.now key state.leases).2⟩
  | .activeCount => state
  | .pass length => ⟨state.now + length, keeper.settle (state.now + length) state.leases⟩

/-- What a keeper has after a history that begins with no leases. -/
def after (keeper : Keeper σ) (history : List Operation) : Dated σ :=
  history.foldl keeper.step ⟨0, keeper.empty⟩

@[simp] theorem after_nil (keeper : Keeper σ) : keeper.after [] = ⟨0, keeper.empty⟩ := rfl

@[simp] theorem after_concat (keeper : Keeper σ) (history : List Operation) (op : Operation) :
    keeper.after (history ++ [op]) = keeper.step (keeper.after history) op := by
  simp [after]

end Keeper

/-! ### The store mirrors the ideal one -/

variable {now later ttl : Duration} {key : String} {token : Token} {store : Store} {leases : Ideal}

/-- The entries that count at an instant are the leases of the ideal store. -/
structure Mirrors (now : Duration) (store : Store) (leases : Ideal) : Prop where
  oneEach : store.OneEach
  lease_iff : ∀ entry : Entry,
    leases entry.key = some (entry.token, entry.expires) ↔
      entry ∈ store.entries ∧ now < entry.expires

namespace Ideal

theorem expire_eq_some_iff {lease : Token × Duration} :
    leases.expire now key = some lease ↔ leases key = some lease ∧ now < lease.2 := by
  simp [expire, Option.filter_eq_some_iff]

theorem obtain_eq_true_iff :
    (leases.obtain now key ttl token).1 = true ↔ leases key = none := by
  unfold obtain
  split <;> simp_all

theorem obtain_eq_some_iff {other : String} {lease : Token × Duration} :
    (leases.obtain now key ttl token).2 other = some lease ↔
      leases other = some lease ∨
        (leases.obtain now key ttl token).1 = true ∧ other = key ∧ (token, now + ttl) = lease := by
  unfold obtain
  split
  next => simp
  next free =>
    by_cases same : other = key
    · subst same
      simp [free]
    · simp [same]

theorem release_eq_some_iff {other : String} {lease : Token × Duration} :
    (leases.release key token).2 other = some lease ↔
      leases other = some lease ∧ ¬(other = key ∧ lease.1 = token) := by
  unfold release
  by_cases same : other = key
  · subst same
    split
    next held =>
      obtain ⟨held, hlease, rfl⟩ := Option.map_eq_some_iff.1 held
      simp only [Function.update_self, reduceCtorEq, hlease, Option.some_inj, true_and, false_iff,
        not_and, not_not]
      rintro rfl
      rfl
    next free =>
      refine (and_iff_left_of_imp fun hlease => ?_).symm
      rintro ⟨-, rfl⟩
      exact free (congrArg (Option.map Prod.fst) hlease)
  · split <;> simp [same]

end Ideal

namespace Mirrors

theorem empty : Mirrors now {} fun _ => none :=
  ⟨Store.oneEach_empty, fun _ => ⟨nofun, fun ⟨mem, _⟩ => absurd mem List.not_mem_nil⟩⟩

/-- The key is free in the ideal store if and only if none of its entries counts. -/
theorem free_iff (mirrors : Mirrors now store leases) :
    leases key = none ↔
      ∀ entry ∈ store.entries, entry.key = key → entry.isLive now = false := by
  constructor
  · rintro free entry mem rfl
    by_contra live
    have := (mirrors.lease_iff entry).2 ⟨mem, by simpa using live⟩
    rw [free] at this
    cases this
  · intro ended
    refine Option.eq_none_iff_forall_ne_some.2 fun lease held => ?_
    obtain ⟨mem, live⟩ := (mirrors.lease_iff ⟨key, lease.1, lease.2⟩).1 held
    exact absurd (ended _ mem rfl) (by simpa using live)

/-- Time takes the same leases away from both. -/
theorem settle (mirrors : Mirrors now store leases) (h : now ≤ later) :
    Mirrors later store (leases.expire later) where
  oneEach := mirrors.oneEach
  lease_iff entry := by
    rw [Ideal.expire_eq_some_iff, mirrors.lease_iff, and_assoc]
    exact and_congr_right fun _ => and_iff_right_of_imp h.trans_lt

theorem obtain_fst (mirrors : Mirrors now store leases) :
    (store.obtain now key ttl token).1 = (leases.obtain now key ttl token).1 := by
  rw [Bool.eq_iff_iff, Store.obtain_eq_true_iff, Ideal.obtain_eq_true_iff, mirrors.free_iff]

theorem obtain (mirrors : Mirrors now store leases) :
    Mirrors now (store.obtain now key ttl token).2
      ((leases.obtain now key ttl token).2.expire now) where
  oneEach := mirrors.oneEach.obtain
  lease_iff entry := by
    rw [Ideal.expire_eq_some_iff, Ideal.obtain_eq_some_iff, Store.mem_obtain, mirrors.lease_iff,
      mirrors.obtain_fst, Entry.isLive_eq_true_iff]
    refine and_congr_left fun _ => or_congr Iff.rfl (and_congr_right fun _ => ?_)
    obtain ⟨other, holder, ends⟩ := entry
    simp [eq_comm]

theorem release (mirrors : Mirrors now store leases) :
    Mirrors now (store.release now key token).2 ((leases.release key token).2.expire now) where
  oneEach := mirrors.oneEach.release
  lease_iff entry := by
    rw [Ideal.expire_eq_some_iff, Ideal.release_eq_some_iff, Store.mem_release mirrors.oneEach,
      mirrors.lease_iff, Entry.isLive_eq_true_iff]
    grind

theorem holder_fst (mirrors : Mirrors now store leases) :
    (store.holder now key).1 = leases.holder key := by
  refine Option.ext fun token => ?_
  rw [Store.holder_eq_some_iff mirrors.oneEach, Ideal.holder, Option.map_eq_some_iff]
  constructor
  · rintro ⟨entry, mem, rfl, rfl, live⟩
    exact ⟨_, (mirrors.lease_iff entry).2 ⟨mem, Entry.isLive_eq_true_iff.1 live⟩, rfl⟩
  · rintro ⟨lease, held, rfl⟩
    obtain ⟨mem, live⟩ := (mirrors.lease_iff ⟨key, lease.1, lease.2⟩).1 held
    exact ⟨_, mem, rfl, rfl, Entry.isLive_eq_true_iff.2 live⟩

theorem holder (mirrors : Mirrors now store leases) :
    Mirrors now (store.holder now key).2 (leases.expire now) where
  oneEach := mirrors.oneEach.filter _
  lease_iff entry := by
    rw [Ideal.expire_eq_some_iff, mirrors.lease_iff]
    simp only [Store.holder, Store.mem_evictKey, Entry.isLive_eq_true_iff]
    grind

/-- The keys that somebody has are those of the entries that count. -/
theorem keys (mirrors : Mirrors now store leases) :
    {key | (leases key).isSome} =
      (((store.entries.filter (Entry.isLive now)).map Entry.key).toFinset : Set String) := by
  ext key
  simp only [Set.mem_ofPred_eq, Option.isSome_iff_exists, List.coe_toFinset, List.mem_map,
    List.mem_filter, Entry.isLive_eq_true_iff]
  constructor
  · rintro ⟨lease, held⟩
    exact ⟨⟨key, lease.1, lease.2⟩, (mirrors.lease_iff ⟨key, lease.1, lease.2⟩).1 held, rfl⟩
  · rintro ⟨entry, counts, rfl⟩
    exact ⟨_, (mirrors.lease_iff entry).2 counts⟩

theorem activeCount (mirrors : Mirrors now store leases) :
    store.activeCount now = leases.activeCount := by
  have nodup : ((store.entries.filter (Entry.isLive now)).map Entry.key).Nodup :=
    mirrors.oneEach.filter _
  rw [Ideal.activeCount, mirrors.keys, Set.ncard_coe_finset, List.toFinset_card_of_nodup nodup,
    List.length_map, ← List.countP_eq_length_filter]
  rfl

end Mirrors

/-! ### Through a history -/

/-- A store and an ideal one that mirror each other at the same instant. -/
def Dated.Mirrors (state : Dated Store) (ideal : Dated Ideal) : Prop :=
  ideal.now = state.now ∧ Lease.Mirrors state.now state.leases ideal.leases

/-- One operation keeps the two alike. -/
theorem mirrors_step {state : Dated Store} {ideal : Dated Ideal} (mirrors : state.Mirrors ideal)
    (op : Operation) : (lazily.step state op).Mirrors (ideally.step ideal op) := by
  obtain ⟨now, store⟩ := state
  obtain ⟨_, leases⟩ := ideal
  obtain ⟨rfl, mirrors⟩ := mirrors
  cases op with
  | obtain key ttl token => exact ⟨rfl, mirrors.obtain⟩
  | release key token => exact ⟨rfl, mirrors.release⟩
  | holder key => exact ⟨rfl, mirrors.holder⟩
  | activeCount => exact ⟨rfl, mirrors⟩
  | pass length => exact ⟨rfl, mirrors.settle (Duration.le_add_right _ _)⟩

/-- The two are alike after every history. -/
theorem mirrors_after (history : List Operation) :
    (lazily.after history).Mirrors (ideally.after history) := by
  induction history using List.reverseRecOn with
  | nil => exact ⟨rfl, Mirrors.empty⟩
  | append_singleton history op ih =>
      rw [Keeper.after_concat, Keeper.after_concat]
      exact mirrors_step ih op

/-- **After every history the entries that count are the leases of the ideal store.  The
answers are the same as well: whether a lease is granted, who has a key, and how many
leases count.  An attempt to obtain a lease leaves only entries that counted before it,
and the one that it was granted.** -/
theorem eviction_unobservable (history : List Operation) :
    let state := lazily.after history
    let ideal := ideally.after history
    (∀ entry : Entry,
        entry ∈ state.leases.entries ∧ entry.isLive state.now = true ↔
          ideal.leases entry.key = some (entry.token, entry.expires)) ∧
      (∀ key ttl token,
        (lazily.obtain state.now key ttl token state.leases).1 =
          (ideally.obtain ideal.now key ttl token ideal.leases).1) ∧
      (∀ key,
        (lazily.holder state.now key state.leases).1 =
          (ideally.holder ideal.now key ideal.leases).1) ∧
      lazily.activeCount state.now state.leases = ideally.activeCount ideal.now ideal.leases ∧
      ∀ key ttl token,
        ∀ entry ∈ (lazily.after (history ++ [.obtain key ttl token])).leases.entries,
          (entry ∈ state.leases.entries ∧ entry.isLive state.now = true) ∨
            (lazily.obtain state.now key ttl token state.leases).1 = true ∧
              entry = ⟨key, token, state.now + ttl⟩ := by
  obtain ⟨same, mirrors⟩ := mirrors_after history
  simp only [same]
  refine ⟨fun entry => ?_, fun _ _ _ => mirrors.obtain_fst, fun _ => mirrors.holder_fst,
    mirrors.activeCount, fun key ttl token entry mem => ?_⟩
  · rw [mirrors.lease_iff, Entry.isLive_eq_true_iff]
  · rw [Keeper.after_concat] at mem
    exact Store.mem_obtain.1 mem

end Upkeep.Lease
