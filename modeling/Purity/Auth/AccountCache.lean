import Purity.Packet.ByteBuffer

set_option relaxedAutoImplicit false
set_option autoImplicit false

/-!
# The account cache

`AccountCache` (`server/AccountCache/AccountCache.hpp`) keeps salts and verifiers of recently
seen accounts. An entry expires when it has not been accessed for longer than `ttl_`; expired
entries stay in the map until a clean-up, but are no longer returned. The clock is
`steady_clock`, read once in each operation; a reading is a number of ticks.

## Main definitions

* `Purity.AccountCache` — the map and its time to live, with `get`, `put`, `invalidate` and
  `cleanup_expired_entries`.
* `Purity.AccountCache.WellFormed` — what the login promises about the entries.
-/

namespace Purity

/-- `AccountCacheEntry` -/
structure AccountCacheEntry where
  salt : Bytes
  verifier : Bytes
  lastAccess : ℕ := 0
  deriving DecidableEq, Repr

/-- `cache_` as a partial function of the user name, and `ttl_`. -/
structure AccountCache where
  ttl : ℕ
  cache : Bytes → Option AccountCacheEntry := fun _ => none

namespace AccountCache

/-- An entry whose last access lies more than `ttl_` before `now`. -/
def expired (c : AccountCache) (now : ℕ) (e : AccountCacheEntry) : Bool :=
  c.ttl < now - e.lastAccess

/-- `get`: a live entry is returned with its `last_access` renewed. -/
def get (c : AccountCache) (username : Bytes) (now : ℕ) : Option AccountCacheEntry × AccountCache :=
  match c.cache username with
  | none => (none, c)
  | some e =>
    if c.expired now e then (none, c)
    else
      let e := { e with lastAccess := now }
      (some e, { c with cache := Function.update c.cache username (some e) })

/-- `put` -/
def put (c : AccountCache) (username : Bytes) (entry : AccountCacheEntry) (now : ℕ) :
    AccountCache :=
  { c with cache := Function.update c.cache username (some { entry with lastAccess := now }) }

/-- `invalidate` -/
def invalidate (c : AccountCache) (username : Bytes) : AccountCache :=
  { c with cache := Function.update c.cache username none }

/-- `cleanup_expired_entries` -/
def cleanupExpiredEntries (c : AccountCache) (now : ℕ) : AccountCache :=
  { c with cache := fun username => (c.cache username).filter fun e => !c.expired now e }

/-- Every entry has a salt and a verifier of 32 bytes. -/
def WellFormed (c : AccountCache) : Prop :=
  ∀ username e, c.cache username = some e → e.salt.length = 32 ∧ e.verifier.length = 32

/-- Storing an entry with such fields keeps a cache well formed. -/
lemma WellFormed.update {c : AccountCache} (h : c.WellFormed) (username : Bytes)
    {e : AccountCacheEntry} (he : e.salt.length = 32 ∧ e.verifier.length = 32) :
    WellFormed { c with cache := Function.update c.cache username (some e) } := by
  intro u e' hu
  dsimp only at hu
  by_cases hcase : u = username
  · subst hcase
    obtain rfl : e = e' := by simpa using hu
    exact he
  · rw [Function.update_of_ne hcase] at hu
    exact h u e' hu

/-- An entry that `get` returns is one of the cache, up to its `last_access`. -/
lemma WellFormed.get {c c' : AccountCache} (h : c.WellFormed) {username : Bytes} {now : ℕ}
    {r : Option AccountCacheEntry} (hget : c.get username now = (r, c')) :
    c'.WellFormed ∧ ∀ e, r = some e → e.salt.length = 32 ∧ e.verifier.length = 32 := by
  unfold AccountCache.get at hget
  cases hc : c.cache username with
  | none =>
    rw [hc] at hget
    cases hget
    exact ⟨h, nofun⟩
  | some e =>
    rw [hc] at hget
    dsimp only at hget
    split_ifs at hget
    · cases hget
      exact ⟨h, nofun⟩
    · cases hget
      have he := h username e hc
      refine ⟨h.update username he, fun e' he' => ?_⟩
      cases he'
      exact he

end AccountCache

end Purity
