import Upkeep.Duration

/-!
# The lease store

A lease is a key that one holder at a time has, for a limited time.  The store
keeps the leases that were granted.  A lease ends when its holder gives it back
or when its time is up; one whose time is up no longer counts, but its entry
stays until somebody obtains any lease or asks about that key.

## Main Definitions

* `Token` — the identity of one grant.
* `Entry`, `Store` — the leases that were granted and not yet removed.
* `Store.obtain`, `Store.release`, `Store.holder` — the three operations.
* `Store.activeCount`, `Store.entryCount` — how many leases count, and how many
  entries there are.

## Design Notes

An entry counts up to, and not at, the instant `expires`.  Whether a token is
fresh is the business of whoever draws it.

Instants are unbounded, so `now + ttl` always is one.  A clock has a last instant
and panics if a lease is to end after it, which takes a time to live of hundreds
of billions of years; that panic is left out.
-/

namespace Upkeep.Lease

/-- The identity of one grant; only its owner can give the lease back. -/
structure Token where
  serial : Nat
  deriving DecidableEq, Repr, Inhabited

instance : ToString Token := ⟨fun token => toString token.serial⟩

/-- A lease that was granted. -/
structure Entry where
  key : String
  token : Token
  /-- The instant from which on the lease no longer counts. -/
  expires : Duration
  deriving DecidableEq, Repr

/-- Whether the lease counts at the instant `now`. -/
def Entry.isLive (now : Duration) (entry : Entry) : Bool := now < entry.expires

/-- The leases that were granted and not yet removed, one per key. -/
structure Store where
  entries : List Entry := []
  deriving DecidableEq, Repr, Inhabited

namespace Store

/-- The entry of a key, whether it still counts or not. -/
def find? (store : Store) (key : String) : Option Entry :=
  store.entries.find? fun entry => entry.key == key

/-- The store without the entry of a key. -/
def erase (store : Store) (key : String) : Store :=
  ⟨store.entries.filter fun entry => entry.key != key⟩

/-- The store without the leases that no longer count. -/
def evict (now : Duration) (store : Store) : Store :=
  ⟨store.entries.filter fun entry => entry.isLive now⟩

/-- The store without the lease of a key if it no longer counts. -/
def evictKey (now : Duration) (key : String) (store : Store) : Store :=
  ⟨store.entries.filter fun entry => entry.key != key || entry.isLive now⟩

/-- Grants the key to the token for the time `ttl`, unless somebody has it; no
lease that has ended by now is kept. -/
def obtain (now : Duration) (key : String) (ttl : Duration) (token : Token)
    (store : Store) : Bool × Store :=
  let store := store.evict now
  -- Every entry that is left counts, so an entry of the key is a holder.
  match store.find? key with
  | some _ => (false, store)
  | none => (true, ⟨store.entries ++ [⟨key, token, now + ttl⟩]⟩)

/-- Removes the lease of a key if it was granted to the token, and says whether
it did; a lease of another token is removed only if it no longer counts. -/
def release (now : Duration) (key : String) (token : Token) (store : Store) :
    Bool × Store :=
  match store.find? key with
  | some entry =>
      -- The owner removes its entry whether or not the lease still counts.
      if entry.token = token then (true, store.erase key)
      else (false, store.evictKey now key)
  | none => (false, store)

/-- The token that has the key now; a lease that no longer counts is removed. -/
def holder (now : Duration) (key : String) (store : Store) : Option Token × Store :=
  let store := store.evictKey now key
  ((store.find? key).map Entry.token, store)

/-- How many leases count now. -/
def activeCount (now : Duration) (store : Store) : Nat :=
  store.entries.countP fun entry => entry.isLive now

/-- How many entries there are, of leases that count and that do not. -/
def entryCount (store : Store) : Nat := store.entries.length

/-- Right after an attempt to obtain a lease, every entry counts. -/
theorem isLive_of_mem_obtain {now ttl : Duration} {key : String} {token : Token}
    {store : Store} (hpos : 0 < ttl) {entry : Entry}
    (h : entry ∈ (store.obtain now key ttl token).2.entries) :
    entry.isLive now = true := by
  simp only [obtain] at h
  split at h
  · exact (List.mem_filter.1 h).2
  · rcases List.mem_append.1 h with h | h
    · exact (List.mem_filter.1 h).2
    · simp only [List.mem_singleton] at h
      subst h
      simp only [Entry.isLive, decide_eq_true_eq, Duration.lt_def, Duration.nanos_add]
      simp only [Duration.lt_def, Duration.nanos_zero] at hpos
      omega

end Store

end Upkeep.Lease
