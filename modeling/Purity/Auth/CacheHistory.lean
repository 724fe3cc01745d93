import Mathlib.Data.List.Chain
import Mathlib.Data.List.Induction
import Purity.Auth.AccountCache

set_option relaxedAutoImplicit false
set_option autoImplicit false

/-!
# What the account cache returns

The map of the account cache changes under every operation: a successful `get` renews the time
stamp, a clean-up removes what has expired. What a `get` returns depends on less. It is decided by
the history of the one name: the last `put`, whether an `invalidate` followed, and the gaps between
the accesses since.

## Main definitions

* `Purity.CacheOp`, `Purity.AccountCache.after` — the operations with their clock readings, and the
  cache they leave.
* `Purity.PutRecord`, `Purity.putRecord` — what the history says about a name: the last `put` that
  no `invalidate` followed, with the times of the accesses since.
* `Purity.InTime` — no gap between consecutive accesses exceeds the time to live.

## Main results

* `Purity.answers_putRecord` — the cache answers from that record.
* `Purity.get_eq_iff_inTime` — what `get` returns, in terms of the operations themselves.
-/

namespace Purity

/-- An operation on the cache with the clock reading it makes; `invalidate` reads no clock. -/
inductive CacheOp where
  | put (username : Bytes) (entry : AccountCacheEntry) (now : ℕ)
  | get (username : Bytes) (now : ℕ)
  | invalidate (username : Bytes)
  | cleanup (now : ℕ)
  deriving DecidableEq, Repr

namespace CacheOp

/-- The clock reading of an operation. -/
def time? : CacheOp → Option ℕ
  | put _ _ now => some now
  | get _ now => some now
  | invalidate _ => none
  | cleanup now => some now

/-- A `put` or an `invalidate` of a name. -/
def replaces (u : Bytes) : CacheOp → Bool
  | put name _ _ => name == u
  | invalidate name => name == u
  | _ => false

/-- The time at which a `get` accesses a name. -/
def access? (u : Bytes) : CacheOp → Option ℕ
  | get name now => if name = u then some now else none
  | _ => none

/-- An operation for a name, as opposed to one for another name or a clean-up. -/
def concerns (u : Bytes) : CacheOp → Bool
  | put name _ _ => name == u
  | get name _ => name == u
  | invalidate name => name == u
  | cleanup _ => false

end CacheOp

namespace AccountCache

/-- The cache after an operation. -/
def apply (c : AccountCache) : CacheOp → AccountCache
  | .put username entry now => c.put username entry now
  | .get username now => (c.get username now).2
  | .invalidate username => c.invalidate username
  | .cleanup now => c.cleanupExpiredEntries now

/-- The cache after the operations, from an empty one. -/
def after (ttl : ℕ) (ops : List CacheOp) : AccountCache := ops.foldl apply { ttl := ttl }

/-- The salt and verifier that `get` returns. -/
def credentials (c : AccountCache) (u : Bytes) (t : ℕ) : Option (Bytes × Bytes) :=
  (c.get u t).1.map fun e => (e.salt, e.verifier)

/-- A name without an entry. -/
lemma credentials_of_none {c : AccountCache} {u : Bytes} (h : c.cache u = none) (t : ℕ) :
    c.credentials u t = none := by
  simp [credentials, AccountCache.get, h]

/-- What `get` returns for a name with an entry. -/
lemma credentials_of_some {c : AccountCache} {u : Bytes} {e : AccountCacheEntry}
    (h : c.cache u = some e) (t : ℕ) :
    c.credentials u t =
      if t - e.lastAccess ≤ c.ttl then some (e.salt, e.verifier) else none := by
  have hexp : c.expired t e = decide (c.ttl < t - e.lastAccess) := rfl
  by_cases hlive : t - e.lastAccess ≤ c.ttl
  · rw [if_pos hlive]
    simp [credentials, AccountCache.get, h, hexp, not_lt.2 hlive]
  · rw [if_neg hlive]
    simp [credentials, AccountCache.get, h, hexp, not_le.1 hlive]

/-- No operation changes the time to live. -/
@[simp] lemma apply_ttl (c : AccountCache) (op : CacheOp) : (c.apply op).ttl = c.ttl := by
  cases op with
  | put username entry now => rfl
  | get username now =>
    unfold apply AccountCache.get
    dsimp only
    split
    · rfl
    · split_ifs <;> rfl
  | invalidate username => rfl
  | cleanup now => rfl

end AccountCache

/-! ## The history of a name -/

/-- What the history says about a name: the salt and verifier of its last `put`, and the times of
its accesses since, that of the `put` first. -/
structure PutRecord where
  salt : Bytes
  verifier : Bytes
  accesses : List ℕ
  deriving DecidableEq, Repr

/-- The record of the name `u` after an operation. Clean-ups and failed accesses make no difference
to it. -/
def PutRecord.next (u : Bytes) (r : Option PutRecord) : CacheOp → Option PutRecord
  | .put name entry now =>
    if name = u then some ⟨entry.salt, entry.verifier, [now]⟩ else r
  | .get name now =>
    if name = u then r.map fun r => { r with accesses := r.accesses ++ [now] } else r
  | .invalidate name => if name = u then none else r
  | .cleanup _ => r

/-- The record of a name after the operations. -/
def putRecord (u : Bytes) (ops : List CacheOp) : Option PutRecord :=
  ops.foldl (PutRecord.next u) none

/-- No gap between consecutive times exceeds the time to live. -/
def InTime (ttl : ℕ) (times : List ℕ) : Prop := times.IsChain fun a b => b - a ≤ ttl

instance (ttl : ℕ) (times : List ℕ) : Decidable (InTime ttl times) :=
  inferInstanceAs (Decidable (times.IsChain fun a b => b - a ≤ ttl))

/-- What a record promises at time `t`. -/
def PutRecord.credentials (ttl t : ℕ) (r : PutRecord) : Option (Bytes × Bytes) :=
  if InTime ttl (r.accesses ++ [t]) then some (r.salt, r.verifier) else none

/-- From the time `now` on, `get` returns what the record of the name promises. -/
def Answers (c : AccountCache) (u : Bytes) (now : ℕ) (r : Option PutRecord) : Prop :=
  ∀ t, now ≤ t → c.credentials u t = r.bind (PutRecord.credentials c.ttl t)

/-- One more access, at the end. -/
lemma inTime_concat (ttl : ℕ) (times : List ℕ) (a b : ℕ) :
    InTime ttl (times ++ [a] ++ [b]) ↔ InTime ttl (times ++ [a]) ∧ b - a ≤ ttl := by
  simp only [InTime, List.append_assoc, List.singleton_append, List.isChain_append_cons_cons,
    List.isChain_singleton, and_true]

/-- Caches with the same entry for a name return the same. -/
lemma AccountCache.credentials_congr {c c' : AccountCache} {u : Bytes} (httl : c'.ttl = c.ttl)
    (h : c'.cache u = c.cache u) (t : ℕ) : c'.credentials u t = c.credentials u t := by
  cases hc : c.cache u with
  | none => rw [credentials_of_none hc, credentials_of_none (h.trans hc)]
  | some e => rw [credentials_of_some hc, credentials_of_some (h.trans hc), httl]

section Operations

open AccountCache

variable {c : AccountCache} {u : Bytes} {now now' : ℕ} {r : Option PutRecord}

/-- A `put` of another name leaves the answers alone, and one of the name starts a new record. -/
lemma Answers.put (h : Answers c u now r) (name : Bytes) (entry : AccountCacheEntry)
    (hle : now ≤ now') :
    Answers (c.put name entry now') u now' (PutRecord.next u r (.put name entry now')) := by
  intro t ht
  have httl : (c.put name entry now').ttl = c.ttl := rfl
  by_cases hname : name = u
  · subst hname
    have hnext : PutRecord.next name r (.put name entry now') =
        some ⟨entry.salt, entry.verifier, [now']⟩ := if_pos rfl
    have hentry : (c.put name entry now').cache name = some { entry with lastAccess := now' } :=
      Function.update_self _ _ _
    have hgap : InTime c.ttl ([now'] ++ [t]) ↔ t - now' ≤ c.ttl := List.isChain_pair
    rw [hnext, httl, credentials_of_some hentry, httl, Option.bind_some]
    simp only [PutRecord.credentials, hgap]
  · have hnext : PutRecord.next u r (.put name entry now') = r := if_neg hname
    have hsame : (c.put name entry now').cache u = c.cache u :=
      Function.update_of_ne (fun h => hname h.symm) _ _
    rw [hnext, httl, credentials_congr httl hsame]
    exact h t (hle.trans ht)

/-- An `invalidate` of another name leaves the answers alone, and one of the name ends its
record. -/
lemma Answers.invalidate (h : Answers c u now r) (name : Bytes) :
    Answers (c.invalidate name) u now (PutRecord.next u r (.invalidate name)) := by
  intro t ht
  have httl : (c.invalidate name).ttl = c.ttl := rfl
  by_cases hname : name = u
  · subst hname
    have hnext : PutRecord.next name r (.invalidate name) = none := if_pos rfl
    rw [hnext, credentials_of_none (Function.update_self _ _ _)]
    rfl
  · have hnext : PutRecord.next u r (.invalidate name) = r := if_neg hname
    have hsame : (c.invalidate name).cache u = c.cache u :=
      Function.update_of_ne (fun h => hname h.symm) _ _
    rw [hnext, httl, credentials_congr httl hsame]
    exact h t ht

/-- A clean-up removes only what would not be returned again. -/
lemma Answers.cleanup (h : Answers c u now r) (hle : now ≤ now') :
    Answers (c.cleanupExpiredEntries now') u now' r := by
  intro t ht
  refine Eq.trans ?_ (h t (hle.trans ht))
  have hentry : (c.cleanupExpiredEntries now').cache u =
      (c.cache u).filter fun e => !c.expired now' e := rfl
  cases hc : c.cache u with
  | none => rw [credentials_of_none hc, credentials_of_none (by rw [hentry, hc]; rfl)]
  | some e =>
    rw [hc, Option.filter_some] at hentry
    cases hexp : c.expired now' e with
    | true =>
      simp only [hexp, Bool.not_true, Bool.false_eq_true, if_false] at hentry
      have hgap : ¬ t - e.lastAccess ≤ c.ttl := by
        simp only [expired, decide_eq_true_eq] at hexp
        omega
      rw [credentials_of_none hentry, credentials_of_some hc, if_neg hgap]
    | false =>
      simp only [hexp, Bool.not_false, if_true] at hentry
      rw [credentials_of_some hentry, credentials_of_some hc]
      rfl

/-- A record whose last access already failed is not in time any more. -/
lemma bind_credentials_of_failed {ttl t : ℕ}
    (h : r.bind (PutRecord.credentials ttl now) = none) :
    (r.map fun r => { r with accesses := r.accesses ++ [now] }).bind
      (PutRecord.credentials ttl t) = none := by
  cases r with
  | none => rfl
  | some r =>
    have hout : ¬ InTime ttl (r.accesses ++ [now]) := by
      intro hin
      simp [PutRecord.credentials, hin] at h
    have hout' : ¬ InTime ttl (r.accesses ++ [now] ++ [t]) := by
      rw [inTime_concat]
      exact fun hin => hout hin.1
    exact if_neg hout'

/-- A `get` of another name leaves the answers alone; one of the name is one more access.

**Proof sketch.** After a successful `get` the entry was accessed just now, so it expires with the
next gap. A failed `get` finds no entry, or one that stays expired, and by the answer at that time
the record is no longer in time either. -/
lemma Answers.get (h : Answers c u now r) (name : Bytes) (hle : now ≤ now') :
    Answers (c.get name now').2 u now' (PutRecord.next u r (.get name now')) := by
  intro t ht
  by_cases hname : name = u
  · subst hname
    have hnext : PutRecord.next name r (.get name now') =
        r.map fun r => { r with accesses := r.accesses ++ [now'] } := if_pos rfl
    have hnow := h now' hle
    rw [hnext]
    cases hc : c.cache name with
    | none =>
      have hkeep : (c.get name now').2 = c := by simp [AccountCache.get, hc]
      rw [credentials_of_none hc] at hnow
      rw [hkeep, credentials_of_none hc, bind_credentials_of_failed hnow.symm]
    | some e =>
      rw [credentials_of_some hc] at hnow
      by_cases hlive : now' - e.lastAccess ≤ c.ttl
      · have hexp : c.expired now' e = false := by
          simpa [expired] using hlive
        have hget : (c.get name now').2 = { c with
            cache := Function.update c.cache name (some { e with lastAccess := now' }) } := by
          simp [AccountCache.get, hc, hexp]
        have hentry : (c.get name now').2.cache name = some { e with lastAccess := now' } := by
          rw [hget]
          exact Function.update_self _ _ _
        have httl : (c.get name now').2.ttl = c.ttl := by rw [hget]
        rw [if_pos hlive] at hnow
        -- the record was in time up to now, with the credentials of the entry
        cases r with
        | none => cases hnow
        | some r =>
          simp only [Option.bind_some, PutRecord.credentials] at hnow
          split_ifs at hnow with hin
          obtain ⟨hsalt, hver⟩ : e.salt = r.salt ∧ e.verifier = r.verifier := by
            simpa using hnow
          rw [httl, credentials_of_some hentry, httl, hsalt, hver, Option.map_some,
            Option.bind_some]
          simp only [PutRecord.credentials, inTime_concat, hin, true_and]
      · have hexp : c.expired now' e = true := decide_eq_true (not_le.1 hlive)
        have hkeep : (c.get name now').2 = c := by simp [AccountCache.get, hc, hexp]
        have hgap : ¬ t - e.lastAccess ≤ c.ttl := by omega
        rw [if_neg hlive] at hnow
        rw [hkeep, credentials_of_some hc, if_neg hgap, bind_credentials_of_failed hnow.symm]
  · have hnext : PutRecord.next u r (.get name now') = r := if_neg hname
    have hkeep : (c.get name now').2.ttl = c.ttl ∧ (c.get name now').2.cache u = c.cache u := by
      unfold AccountCache.get
      split
      · exact ⟨rfl, rfl⟩
      · split_ifs
        · exact ⟨rfl, rfl⟩
        · exact ⟨rfl, Function.update_of_ne (fun h => hname h.symm) _ _⟩
    rw [hnext, hkeep.1, credentials_congr hkeep.1 hkeep.2]
    exact h t (hle.trans ht)

end Operations

/-- **One operation** keeps the answers right: those of the name change with its record, and the
others leave them alone. -/
lemma Answers.apply {c : AccountCache} {u : Bytes} {now : ℕ} {r : Option PutRecord}
    (h : Answers c u now r) (op : CacheOp) {now' : ℕ} (hle : now ≤ now')
    (hop : ∀ t, op.time? = some t → t = now') :
    Answers (c.apply op) u now' (PutRecord.next u r op) := by
  cases op with
  | put name entry t =>
    obtain rfl := hop t rfl
    exact h.put name entry hle
  | get name t =>
    obtain rfl := hop t rfl
    exact h.get name hle
  | invalidate name => exact fun t ht => h.invalidate name t (hle.trans ht)
  | cleanup t =>
    obtain rfl := hop t rfl
    exact h.cleanup hle

/-- Nothing is returned by an empty cache. -/
lemma answers_empty (ttl : ℕ) (u : Bytes) : Answers { ttl := ttl } u 0 none := by
  intro t ht
  rfl

@[simp] lemma after_ttl (ttl : ℕ) (ops : List CacheOp) :
    (AccountCache.after ttl ops).ttl = ttl := by
  induction ops using List.reverseRecOn with
  | nil => rfl
  | append_singleton ops op ih => simpa [AccountCache.after] using ih

/-- **The cache answers from the history.** After operations with non-decreasing clock readings up
to `now`, the cache answers for every name from its record.

**Proof sketch.** Induction on the operations from the end; each is one use of `Answers.apply`, at
its own reading or, for an `invalidate`, at the reading before. -/
lemma answers_putRecord (ttl : ℕ) (u : Bytes) (ops : List CacheOp) {now : ℕ}
    (hmono : (ops.filterMap CacheOp.time?).Pairwise (· ≤ ·))
    (hnow : ∀ t ∈ ops.filterMap CacheOp.time?, t ≤ now) :
    Answers (AccountCache.after ttl ops) u now (putRecord u ops) := by
  induction ops using List.reverseRecOn generalizing now with
  | nil => exact fun t ht => answers_empty ttl u t t.zero_le
  | append_singleton ops op ih =>
    have hafter : AccountCache.after ttl (ops ++ [op]) = (AccountCache.after ttl ops).apply op := by
      simp [AccountCache.after]
    have hrecord : putRecord u (ops ++ [op]) = PutRecord.next u (putRecord u ops) op := by
      simp [putRecord]
    rw [hafter, hrecord]
    rw [List.filterMap_append, List.pairwise_append] at hmono
    obtain ⟨hold, -, hlast⟩ := hmono
    cases htime : op.time? with
    | none =>
      have hops : ∀ t ∈ ops.filterMap CacheOp.time?, t ≤ now := fun t ht =>
        hnow t (by rw [List.filterMap_append]; exact List.mem_append_left _ ht)
      exact (ih hold hops).apply op le_rfl (by simp [htime])
    | some now₁ =>
      have hmem : now₁ ∈ [op].filterMap CacheOp.time? := by simp [htime]
      have hops : ∀ t ∈ ops.filterMap CacheOp.time?, t ≤ now₁ := fun t ht => hlast t ht now₁ hmem
      have hle : now₁ ≤ now := hnow now₁ (by simp [htime])
      have hnext := (ih hold hops).apply op le_rfl (by simp [htime])
      exact fun t ht => hnext t (hle.trans ht)

/-! ## The record and the operations -/

/-- The record after an operation is a new one, if the operation is a `put` of the name, or the old
one with one more access, if it is a `get` of it. -/
lemma PutRecord.next_eq_some_iff (u : Bytes) (o : Option PutRecord) (op : CacheOp)
    (r : PutRecord) : PutRecord.next u o op = some r ↔
      (∃ entry t₀, op = .put u entry t₀ ∧ r = ⟨entry.salt, entry.verifier, [t₀]⟩) ∨
      op.replaces u = false ∧ ∃ r', o = some r' ∧
        r = { r' with accesses := r'.accesses ++ (op.access? u).toList } := by
  cases op with
  | put name entry now =>
    by_cases hname : name = u
    · subst hname
      simp [next, CacheOp.replaces, eq_comm (b := r)]
    · simp [next, CacheOp.replaces, CacheOp.access?, hname]
  | get name now =>
    by_cases hname : name = u
    · subst hname
      simp [next, CacheOp.replaces, CacheOp.access?, eq_comm (b := r)]
    · simp [next, CacheOp.replaces, CacheOp.access?, hname]
  | invalidate name =>
    by_cases hname : name = u
    · subst hname
      simp [next, CacheOp.replaces]
    · simp [next, CacheOp.replaces, CacheOp.access?, hname]
  | cleanup now =>
    simp [next, CacheOp.replaces, CacheOp.access?]

/-- What the record of a name says about the operations: they end with the last `put` of the name,
followed by no other and by no `invalidate` of it, and the accesses are that `put` and the later
`get`s.

**Proof sketch.** Induction on the operations from the end. The last one is either that `put`
itself, or comes after it. -/
lemma putRecord_eq_some_iff (u : Bytes) (ops : List CacheOp) (r : PutRecord) :
    putRecord u ops = some r ↔ ∃ pre entry t₀ post, ops = pre ++ .put u entry t₀ :: post ∧
      (∀ op ∈ post, op.replaces u = false) ∧
      r = ⟨entry.salt, entry.verifier, t₀ :: post.filterMap (CacheOp.access? u)⟩ := by
  induction ops using List.reverseRecOn generalizing r with
  | nil => simp [putRecord]
  | append_singleton ops op ih =>
    have hrecord : putRecord u (ops ++ [op]) = PutRecord.next u (putRecord u ops) op := by
      simp [putRecord]
    have haccess : [op].filterMap (CacheOp.access? u) = (op.access? u).toList := by
      cases h : op.access? u <;> simp [h]
    rw [hrecord, PutRecord.next_eq_some_iff]
    constructor
    · rintro (⟨entry, t₀, rfl, rfl⟩ | ⟨hop, r', hr', rfl⟩)
      · exact ⟨ops, entry, t₀, [], rfl, nofun, rfl⟩
      · obtain ⟨pre, entry, t₀, post, rfl, hpost, rfl⟩ := (ih r').1 hr'
        refine ⟨pre, entry, t₀, post ++ [op], by simp, fun o ho => ?_, ?_⟩
        · rcases List.mem_append.1 ho with ho | ho
          · exact hpost o ho
          · obtain rfl := List.mem_singleton.1 ho
            exact hop
        · rw [List.filterMap_append, haccess, List.cons_append]
    · rintro ⟨pre, entry, t₀, post, hops, hpost, rfl⟩
      rcases List.eq_nil_or_concat post with rfl | ⟨post, last, rfl⟩
      · obtain ⟨-, hop⟩ := List.append_inj' hops rfl
        exact .inl ⟨entry, t₀, by simpa using hop, rfl⟩
      · rw [List.concat_eq_append, ← List.cons_append, ← List.append_assoc] at hops
        obtain ⟨hpre, hop⟩ := List.append_inj' hops rfl
        obtain rfl : op = last := by simpa using hop
        refine .inr ⟨hpost op (by simp), _, (ih _).2 ⟨pre, entry, t₀, post, hpre,
          fun o ho => hpost o (by simp [ho]), rfl⟩, ?_⟩
        rw [List.concat_eq_append, List.filterMap_append, haccess, List.cons_append]

/-- Only the operations for the name make its record. -/
lemma putRecord_filter (u : Bytes) (ops : List CacheOp) :
    putRecord u (ops.filter (CacheOp.concerns u)) = putRecord u ops := by
  induction ops using List.reverseRecOn with
  | nil => rfl
  | append_singleton ops op ih =>
    have hrecord : putRecord u (ops ++ [op]) = PutRecord.next u (putRecord u ops) op := by
      simp [putRecord]
    rw [hrecord, List.filter_append, ← ih]
    cases hop : op.concerns u with
    | true => simp [putRecord, hop]
    | false =>
      cases op <;> simp_all [CacheOp.concerns, PutRecord.next]

/-- **Sliding time to live.** After any operations with non-decreasing clock readings, `get` of `u`
at a time `t` not before them returns a salt and verifier exactly if they are those of the most
recent `put` of `u`, no `invalidate` of `u` follows it, and every gap between consecutive accesses
of `u` from that `put` through the later `get`s up to `t` is at most `ttl_`; otherwise it returns
nothing. The answer is the same without the clean-ups and the operations for other names. -/
theorem get_eq_iff_inTime (ttl : ℕ) (ops : List CacheOp) (u : Bytes) (t : ℕ)
    (hmono : (ops.filterMap CacheOp.time?).Pairwise (· ≤ ·))
    (ht : ∀ now ∈ ops.filterMap CacheOp.time?, now ≤ t) :
    (∀ salt verifier, (AccountCache.after ttl ops).credentials u t = some (salt, verifier) ↔
      ∃ pre entry t₀ post, ops = pre ++ .put u entry t₀ :: post ∧
        (∀ op ∈ post, op.replaces u = false) ∧
        InTime ttl (t₀ :: post.filterMap (CacheOp.access? u) ++ [t]) ∧
        entry.salt = salt ∧ entry.verifier = verifier) ∧
    (AccountCache.after ttl (ops.filter (CacheOp.concerns u))).credentials u t =
      (AccountCache.after ttl ops).credentials u t := by
  have hget := answers_putRecord ttl u ops hmono ht t le_rfl
  constructor
  · intro salt verifier
    rw [hget, Option.bind_eq_some_iff, after_ttl]
    constructor
    · rintro ⟨r, hr, hcred⟩
      obtain ⟨pre, entry, t₀, post, hops, hpost, rfl⟩ := (putRecord_eq_some_iff u ops r).1 hr
      unfold PutRecord.credentials at hcred
      split_ifs at hcred with hin
      obtain ⟨hsalt, hver⟩ : entry.salt = salt ∧ entry.verifier = verifier := by simpa using hcred
      exact ⟨pre, entry, t₀, post, hops, hpost, hin, hsalt, hver⟩
    · rintro ⟨pre, entry, t₀, post, hops, hpost, hin, rfl, rfl⟩
      exact ⟨_, (putRecord_eq_some_iff u ops _).2 ⟨pre, entry, t₀, post, hops, hpost, rfl⟩,
        if_pos hin⟩
  · have hsub := List.filter_sublist (p := CacheOp.concerns u) (l := ops)
    have hsub' := hsub.filterMap CacheOp.time?
    have hget' := answers_putRecord ttl u (ops.filter (CacheOp.concerns u)) (hmono.sublist hsub')
      (fun now hnow => ht now (hsub'.subset hnow)) t le_rfl
    rw [hget, hget', putRecord_filter, after_ttl, after_ttl]

/-- A `put` renewed by a `get` is still returned after a clean-up, and lost after a longer gap. -/
theorem get_eq_iff_inTime_renewed :
    (AccountCache.after 5 [.put [65] ⟨[1], [2], 0⟩ 0, .get [65] 4, .cleanup 8]).credentials [65] 9 =
      some ([1], [2]) ∧
    (AccountCache.after 5 [.put [65] ⟨[1], [2], 0⟩ 0, .get [65] 4, .cleanup 8]).credentials [65]
      10 = none := by
  constructor
  · refine ((get_eq_iff_inTime 5 _ [65] 9 (by decide) (by decide)).1 [1] [2]).2
      ⟨[], ⟨[1], [2], 0⟩, 0, [.get [65] 4, .cleanup 8], rfl, by decide, by decide, rfl, rfl⟩
  · decide

end Purity
