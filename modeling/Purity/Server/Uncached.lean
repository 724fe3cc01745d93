import Purity.Base.Simulation
import Purity.Server.CachedLogin

set_option relaxedAutoImplicit false
set_option autoImplicit false

/-!
# The server without its cache

The cache is meant to save queries and nothing else. With a database that answers from a fixed
table, this is so for whole runs, with any number of sessions and any interleaving: whatever the
server does, a server whose cache never holds anything can do as well, and all its sessions end in
exactly the same states: the same bytes received and frames dispatched, the same `SRP6` objects, the
same replies, the same frames queued and written.

## Main definitions

* `Purity.Server.tableStep` — a step of a server whose database answers from a table.
* `Purity.Server.uncachedStep` — the same without the cache: it is emptied after every step.

## Main results

* `Purity.Server.refines_uncached` — every run of the server is matched by one without the cache.
-/

namespace Purity

open Utf8 HandlersAuth

namespace Server

/-- The server with an empty cache. -/
def forgetCache (σ : Server) : Server := { σ with cache := { ttl := σ.cache.ttl } }

/-- A step of a server whose database answers from a table, without an error. -/
def tableStep (sha1 : Sha1) (table : Bytes → Option AccountsRow) (σ : Server) (e : ServerEvent) :
    Option Server :=
  if AnsweredFrom table σ e then σ.step sha1 e else none

/-- A step of the same server with a cache that holds nothing. -/
def uncachedStep (sha1 : Sha1) (table : Bytes → Option AccountsRow) (σ : Server)
    (e : ServerEvent) : Option Server :=
  (σ.tableStep sha1 table e).map forgetCache

variable {sha1 : Sha1} {table : Bytes → Option AccountsRow} {σ σ' : Server} {e : ServerEvent}

@[simp] lemma forgetCache_sessions : σ.forgetCache.sessions = σ.sessions := rfl

@[simp] lemma forgetCache_queries : σ.forgetCache.queries = σ.queries := rfl

@[simp] lemma forgetCache_now : σ.forgetCache.now = σ.now := rfl

@[simp] lemma forgetCache_halted : σ.forgetCache.halted = σ.halted := rfl

/-- A step of a server whose database answers from a table. -/
lemma tableStep_eq_some : σ.tableStep sha1 table e = some σ' ↔
    AnsweredFrom table σ e ∧ σ.step sha1 e = some σ' := by
  simp [tableStep]

/-- What the second part of a challenge does to the session does not depend on the cache. -/
lemma challengeQuery_session (s : Session) (p : AuthPacket) (c c' : AccountCache) (now : ℕ)
    (db : Except Exn (Option AccountsRow)) (rand : Rand32) :
    (challengeQuery s p c now db rand).2 = (challengeQuery s p c' now db rand).2 := by
  rcases db with ex | _ | ⟨_ | salt, _ | verifier⟩
  · rfl
  · rfl
  · rfl
  · rfl
  · rfl
  · simp only [challengeQuery]
    split_ifs
    · rfl
    · split <;> rfl

/-- Neither part changes how long an entry lives. -/
lemma challengeLookup_ttl (s : Session) (p : AuthPacket) (c : AccountCache) (now : ℕ)
    (rand : Rand32) : (challengeLookup s p c now rand).1.ttl = c.ttl := by
  have hget : ∀ u, (c.get u now).2.ttl = c.ttl := by
    intro u
    unfold AccountCache.get
    split
    · rfl
    · dsimp only
      split_ifs <;> rfl
  unfold challengeLookup
  dsimp only
  split_ifs
  · rfl
  · have httl := hget (toUppercase p.buffer.readStringNtLe.1)
    rcases hentry : c.get (toUppercase p.buffer.readStringNtLe.1) now with ⟨_ | e, c'⟩
    · rw [hentry] at httl
      exact httl
    · rw [hentry] at httl
      dsimp only
      split <;> exact httl

lemma challengeQuery_ttl (s : Session) (p : AuthPacket) (c : AccountCache) (now : ℕ)
    (db : Except Exn (Option AccountsRow)) (rand : Rand32) :
    (challengeQuery s p c now db rand).1.ttl = c.ttl := by
  rcases db with ex | _ | ⟨_ | salt, _ | verifier⟩
  · rfl
  · rfl
  · rfl
  · rfl
  · rfl
  · simp only [challengeQuery]
    split_ifs
    · rfl
    · split <;> rfl

/-- **A hit** is a miss followed at once by the query: the entry is the row of the table, so the
same account is loaded, with the same random bytes, and the same reply sent. -/
lemma challengeLookup_hit {s : Session} {p : AuthPacket} {c : AccountCache} {now : ℕ}
    {rand : Rand32} (hcache : c.FromTable table) (hsrp : s.srp.BuiltIn sha1)
    (hvalid : isValidUtf8 (challengeName p) = true)
    (hhit : (challengeLookup s p c now rand).2.2 = false) (c' : AccountCache) :
    (challengeLookup s p c now rand).2.1 =
      (challengeQuery { s with srp := s.srp.setOnlyUsername (accountName p) } p c' now
        (.ok (table (accountName p))) rand).2 := by
  have hname : isValidUtf8 p.buffer.readStringNtLe.1 = true := hvalid
  have hupper : toUppercase p.buffer.readStringNtLe.1 = accountName p := rfl
  simp only [challengeLookup, hname, Bool.not_true, Bool.false_eq_true, if_false, hupper] at hhit ⊢
  rcases hget : c.get (accountName p) now with ⟨_ | e, c''⟩
  · simp [hget] at hhit
  · -- the entry is the row
    have hrow := (hcache.get hget).2 e rfl
    obtain ⟨⟨salt?, verifier?⟩, hrow, hcred⟩ := Option.bind_eq_some_iff.1 hrow
    obtain ⟨hsalt, hverifier, hsizes⟩ : salt? = some e.salt ∧ verifier? = some e.verifier ∧
        (e.salt.length = 32 ∧ e.verifier.length = 32) := by
      rcases salt? with _ | salt <;> rcases verifier? with _ | verifier <;>
        simp only [AccountsRow.credentials, reduceCtorEq] at hcred
      split_ifs at hcred with hsizes
      cases hcred
      exact ⟨rfl, rfl, hsizes⟩
    have hgood : ¬ (e.salt.length ≠ 32 ∨ e.verifier.length ≠ 32) := by simp [hsizes]
    have hN : (s.srp.setOnlyUsername (accountName p)).N = SRP6.modulus := hsrp.N
    obtain ⟨reply, hreply, -⟩ := challengeReply_ok hN e.salt e.verifier rand
    have hreply' : challengeReply (loadAccount { s with
        srp := s.srp.setOnlyUsername (accountName p) } (accountName p) e.salt e.verifier rand).srp
        e.salt = .ok reply := hreply
    simp only [challengeQuery, hrow, hsalt, hverifier, if_neg hgood, hupper, hreply']

/-- A session that only waits for its query stays as sound as it was. -/
lemma halted_set {s s' : Session} {i : ℕ} {ss : List Session} (hs : ss[i]? = some s)
    (hfault : s'.fault = s.fault) (h : ss.any (fun s => s.fault.isSome) = false) :
    (ss.set i s').any (fun s => s.fault.isSome) = false := by
  rw [List.any_eq_false] at h ⊢
  refine forall_mem_set h ?_
  rw [hfault]
  exact h s (List.mem_of_getElem? hs)

/-- Without the cache, a lookup of a valid name followed at once by its query. -/
lemma uncached_lookup_query {i j : ℕ} {rand : Rand32} {s t : Session} {p : AuthPacket}
    (hhalt : σ.halted = false) (hs : σ.sessions[i]? = some s) (hp : s.spawned[j]? = some p)
    (ht : t = { s with spawned := s.spawned.eraseIdx j })
    (hvalid : isValidUtf8 (challengeName p) = true) :
    Run.exec (uncachedStep sha1 table) σ.forgetCache
        [.lookup i j rand, .query σ.queries.length (.ok (table (accountName p))) rand] =
      some (forgetCache { σ with
        sessions := σ.sessions.set i
          (challengeQuery { t with srp := t.srp.setOnlyUsername (accountName p) } p
            { ttl := σ.cache.ttl } σ.now (.ok (table (accountName p))) rand).2 }) := by
  subst ht
  set t : Session := { s with spawned := s.spawned.eraseIdx j } with ht
  set w : Session := { t with srp := t.srp.setOnlyUsername (accountName p) } with hw
  set τ : Server := { σ.forgetCache with
    sessions := σ.sessions.set i w, queries := σ.queries ++ [⟨i, p⟩] } with hτ
  obtain ⟨hi, -⟩ := List.getElem?_eq_some_iff.1 hs
  have hlook : σ.forgetCache.step sha1 (.lookup i j rand) = some τ := by
    have hempty := challengeLookup_empty t p σ.cache.ttl σ.now rand
    rw [hvalid, if_pos rfl] at hempty
    simp only [step, forgetCache_halted, hhalt, Bool.false_eq_true, if_false, forgetCache_sessions,
      hs, hp, Option.bind_some, Option.map_some]
    change some ({ σ.forgetCache with
      sessions := σ.sessions.set i (challengeLookup t p { ttl := σ.cache.ttl } σ.now rand).2.1
      cache := (challengeLookup t p { ttl := σ.cache.ttl } σ.now rand).1
      queries := if (challengeLookup t p { ttl := σ.cache.ttl } σ.now rand).2.2
        then σ.queries ++ [⟨i, p⟩] else σ.queries } : Server) = _
    rw [hempty]
    rfl
  have hhalt' : τ.halted = false := by
    simp only [halted, Bool.or_eq_false_iff] at hhalt ⊢
    exact ⟨hhalt.1, halted_set hs (by rfl) hhalt.2⟩
  have hlast : τ.queries[σ.queries.length]? = some ⟨i, p⟩ := by simp [hτ]
  have hsi : τ.sessions[i]? = some w := by simp [hτ, hi]
  have hanswer : AnsweredFrom table τ
      (.query σ.queries.length (.ok (table (accountName p))) rand) := by
    intro q hq
    rw [hlast, Option.mem_some_iff] at hq
    rw [← hq]
  have hquery : τ.step sha1 (.query σ.queries.length (.ok (table (accountName p))) rand) =
      some { τ with
        sessions := τ.sessions.set i (challengeQuery w p { ttl := σ.cache.ttl } σ.now
          (.ok (table (accountName p))) rand).2
        cache := (challengeQuery w p { ttl := σ.cache.ttl } σ.now
          (.ok (table (accountName p))) rand).1
        queries := τ.queries.eraseIdx σ.queries.length } := by
    simp only [step, hhalt', Bool.false_eq_true, if_false, hlast, hsi, Option.bind_some,
      Option.map_some]
    rfl
  refine Run.exec_cons_eq_some.2 ⟨τ, ?_, Run.exec_cons_eq_some.2 ⟨_, ?_, rfl⟩⟩
  · have hok : AnsweredFrom table σ.forgetCache (.lookup i j rand) := trivial
    rw [uncachedStep, tableStep_eq_some.2 ⟨hok, hlook⟩]
    rfl
  · rw [uncachedStep, tableStep_eq_some.2 ⟨hanswer, hquery⟩, Option.map_some]
    have httl := challengeQuery_ttl w p { ttl := σ.cache.ttl } σ.now
      (.ok (table (accountName p))) rand
    have hback : τ.queries.eraseIdx σ.queries.length = σ.queries := by
      rw [hτ, List.eraseIdx_append_of_length_le le_rfl, Nat.sub_self]
      exact List.append_nil _
    rw [hback]
    simp [forgetCache, hτ, httl]

/-- **One step** is matched without the cache: a lookup that hits by the lookup and the query, any
other event by itself. -/
lemma exists_uncached_step (hσ : TableInvariant sha1 table σ)
    (hstep : σ.tableStep sha1 table e = some σ') :
    ∃ fs, Run.exec (uncachedStep sha1 table) σ.forgetCache fs = some σ'.forgetCache := by
  obtain ⟨hok, hstep⟩ := tableStep_eq_some.1 hstep
  have hhalt : σ.halted = false := halted_of_step hstep
  have hnot : ¬ σ.forgetCache.halted = true := by simp [hhalt]
  -- an event that the empty cache does not notice
  have hsame : ∀ τ, AnsweredFrom table σ.forgetCache e → σ.forgetCache.step sha1 e = some τ →
      τ.forgetCache = σ'.forgetCache →
      ∃ fs, Run.exec (uncachedStep sha1 table) σ.forgetCache fs = some σ'.forgetCache := by
    intro τ hok' hτ heq
    refine ⟨[e], Run.exec_cons_eq_some.2 ⟨σ'.forgetCache, ?_, rfl⟩⟩
    rw [uncachedStep, tableStep_eq_some.2 ⟨hok', hτ⟩, Option.map_some, heq]
  cases step_transition hstep with
  | accepted haccepts =>
    refine hsame (startAccept { σ.forgetCache with
      accepts := σ.accepts - 1
      sessions := σ.sessions ++ [Session.start sha1] }) trivial ?_ ?_
    · rw [step, if_neg hnot, if_neg (by exact haccepts)]
      rfl
    · cases hopen : σ.acceptorOpen <;> simp [startAccept, forgetCache, hopen]
  | reset haccepts ex =>
    rw [step, if_neg (by simp [hhalt]), if_neg haccepts] at hstep
    cases hstep
    refine hsame { σ.forgetCache with
      accepts := σ.accepts - 1
      sessions := σ.sessions ++ [newSession sha1]
      fault := some (.uncaught (.runtimeError "remote_endpoint: not connected")) } trivial ?_ rfl
    rw [step, if_neg hnot, if_neg (by exact haccepts)]
    rfl
  | acceptError haccepts =>
    refine hsame { σ.forgetCache with accepts := σ.accepts - 1 } trivial ?_ rfl
    rw [step, if_neg hnot, if_neg (by exact haccepts)]
    rfl
  | session i e s s' hs he hse =>
    refine hsame { σ.forgetCache with sessions := σ.sessions.set i s' } trivial ?_ rfl
    have hi : σ.forgetCache.sessions[i]? = some s := hs
    simp [step, hhalt, he, hs, hse]
  | lookup i j rand s p cache s' asks hs hp hres =>
    set t : Session := { s with spawned := s.spawned.eraseIdx j } with ht
    have hlook : σ.forgetCache.step sha1 (.lookup i j rand) = some { σ.forgetCache with
        sessions := σ.sessions.set i
          (challengeLookup t p { ttl := σ.cache.ttl } σ.now rand).2.1
        cache := (challengeLookup t p { ttl := σ.cache.ttl } σ.now rand).1
        queries := if (challengeLookup t p { ttl := σ.cache.ttl } σ.now rand).2.2
          then σ.queries ++ [⟨i, p⟩] else σ.queries } := by
      simp only [step, forgetCache_halted, hhalt, Bool.false_eq_true, if_false,
        forgetCache_sessions, hs, hp, Option.bind_some, Option.map_some]
      rfl
    rw [challengeLookup_empty] at hlook
    have httl : (challengeLookup t p σ.cache σ.now rand).1.ttl = σ.cache.ttl :=
      challengeLookup_ttl t p σ.cache σ.now rand
    obtain ⟨rfl, rfl, rfl⟩ : cache = (challengeLookup t p σ.cache σ.now rand).1 ∧
        s' = (challengeLookup t p σ.cache σ.now rand).2.1 ∧
        asks = (challengeLookup t p σ.cache σ.now rand).2.2 := by
      rw [hres]
      exact ⟨rfl, rfl, rfl⟩
    cases hvalid : isValidUtf8 (challengeName p) with
    | false =>
      -- the name is refused at once
      have hname : isValidUtf8 p.buffer.readStringNtLe.1 = false := hvalid
      have hrefused : challengeLookup t p σ.cache σ.now rand =
          (σ.cache, t.sendPacket (authResponse .authFailed .wrongUsername), false) := by
        simp only [challengeLookup, hname, Bool.not_false, if_true]
      rw [hvalid, if_neg Bool.false_ne_true] at hlook
      refine hsame _ trivial hlook ?_
      rw [hrefused]
      simp [forgetCache]
    | true =>
      rw [hvalid, if_pos rfl] at hlook
      by_cases hasks : (challengeLookup t p σ.cache σ.now rand).2.2 = true
      · -- a miss: both ask
        refine hsame _ trivial hlook ?_
        rw [(challengeLookup_asks hasks).2]
        simp [forgetCache, httl, hasks]
      · -- a hit: without the cache the query comes at once
        refine ⟨[.lookup i j rand, .query σ.queries.length (.ok (table (accountName p))) rand],
          (uncached_lookup_query hhalt hs hp ht hvalid).trans ?_⟩
        have hsrp : t.srp.BuiltIn sha1 := hσ.srp s (List.mem_of_getElem? hs)
        rw [challengeLookup_hit hσ.cache hsrp hvalid (by simpa using hasks) { ttl := σ.cache.ttl }]
        simp [forgetCache, httl, hasks]
  | query k db rand q s cache s' hq hs hres =>
    have hs' : s' = (challengeQuery s q.packet { ttl := σ.cache.ttl } σ.now db rand).2 := by
      rw [challengeQuery_session s q.packet { ttl := σ.cache.ttl } σ.cache, hres]
    have httl : cache.ttl = σ.cache.ttl := by
      have := challengeQuery_ttl s q.packet σ.cache σ.now db rand
      rw [hres] at this
      exact this
    have httl' := challengeQuery_ttl s q.packet { ttl := σ.cache.ttl } σ.now db rand
    refine hsame { σ.forgetCache with
      sessions := σ.sessions.set q.session s'
      cache := (challengeQuery s q.packet { ttl := σ.cache.ttl } σ.now db rand).1
      queries := σ.queries.eraseIdx k } hok ?_ ?_
    · simp only [step, forgetCache_halted, hhalt, Bool.false_eq_true, if_false,
        forgetCache_queries, forgetCache_sessions, hq, hs, Option.bind_some, Option.map_some, hs']
      rfl
    · simp [forgetCache, httl, httl']
  | tick ticks =>
    refine hsame { σ.forgetCache with now := σ.now + ticks } trivial ?_ rfl
    rw [step, if_neg hnot]
    rfl
  | cleanup =>
    refine hsame { σ.forgetCache with
      cache := σ.forgetCache.cache.cleanupExpiredEntries σ.now } trivial ?_ rfl
    rw [step, if_neg hnot]
    rfl
  | stop =>
    refine hsame σ.forgetCache.stop trivial ?_ rfl
    rw [step, if_neg hnot]

/-- **The cache is transparent.** Let the database answer from a fixed table. For every run of the
server, with any number of sessions, any interleaving, any random bytes, time and clean-ups, there
is a run of the server without a cache that ends in the same state, the (empty) cache apart: every
session has received, dispatched, loaded, replied, queued and written exactly the same.

**Proof sketch.** Every entry of the cache is a row of the table that passes the check, so a lookup
that finds one does what a query that follows at once does. -/
theorem refines_uncached (sha1 : Sha1) (table : Bytes → Option AccountsRow) (ttl : ℕ)
    (es : List ServerEvent) (σ : Server)
    (hrun : Run.exec (tableStep sha1 table) (start ttl) es = some σ) :
    ∃ fs, Run.exec (uncachedStep sha1 table) (start ttl) fs = some σ.forgetCache := by
  have hsim : Run.Simulates (tableStep sha1 table) (uncachedStep sha1 table) (fun _ => True)
      (fun _ => True) fun σ τ => TableInvariant sha1 table σ ∧ τ = σ.forgetCache := by
    rintro σ e σ' τ - ⟨hσ, rfl⟩ hstep
    obtain ⟨fs, hfs⟩ := exists_uncached_step hσ hstep
    obtain ⟨hok, hstep⟩ := tableStep_eq_some.1 hstep
    exact ⟨fs, _, fun _ _ => trivial, hfs, hσ.step hok hstep, rfl⟩
  obtain ⟨fs, τ, -, hfs, -, rfl⟩ := hsim.exec (fun _ _ => trivial)
    ⟨tableInvariant_start sha1 table ttl, rfl⟩ hrun
  exact ⟨fs, hfs⟩

/-- A client asks for `a` twice: the second time the cache answers. -/
theorem refines_uncached_twice :
    ∃ σ, Run.exec (tableStep SRP6.sampleSha1 sampleTable) (start 300)
        (cachingEvents ++ [.session 0 (.read [3, 0, 2, 97, 0]), .lookup 0 0 sampleRand]) = some σ ∧
      ∃ fs, Run.exec (uncachedStep SRP6.sampleSha1 sampleTable) (start 300) fs =
        some σ.forgetCache := by
  have hrun : (Run.exec (tableStep SRP6.sampleSha1 sampleTable) (start 300)
      (cachingEvents ++ [.session 0 (.read [3, 0, 2, 97, 0]), .lookup 0 0 sampleRand])).isSome =
      true := by
    decide +kernel
  obtain ⟨σ, hσ⟩ := Option.isSome_iff_exists.1 hrun
  exact ⟨σ, hσ, refines_uncached SRP6.sampleSha1 sampleTable 300 _ σ hσ⟩

end Server

end Purity
