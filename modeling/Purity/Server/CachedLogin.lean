import Purity.Server.Login
import Purity.Server.Server

set_option relaxedAutoImplicit false
set_option autoImplicit false

/-!
# Challenges with and without the cache

A challenge whose account is in the cache skips the query and the check of the row. It may, because
everything in the cache was put there by some challenge after that check: with a fixed table of
accounts, every entry is a valid row of the table. So a session cannot tell from the replies whether
there is a cache.

## Main definitions

* `Purity.AccountsRow.credentials` — the salt and verifier of a row that passes the check.
* `Purity.uncachedChallenge`, `Purity.uncachedReply` — the handler with nothing in the cache, and
  what it replies.
* `Purity.SendsOnly` — one packet is passed to `send_packet`.
* `Purity.Server.TableInvariant` — every entry of the cache is a valid row.

## Main results

* `Purity.challengeLookup_reply`, `Purity.challengeQuery_reply` — what the two parts of a challenge
  send.
* `Purity.cached_reply_eq_uncached` — in every reachable state a challenge sends the reply of the
  handler without a cache.
-/

namespace Purity

open Utf8 HandlersAuth

/-! ## The reply without a cache -/

/-- The salt and verifier of a row that passes the check of the login: both are there, with 32
bytes. -/
def AccountsRow.credentials (row : AccountsRow) : Option (Bytes × Bytes) :=
  match row.salt, row.verifier with
  | some salt, some verifier =>
    if salt.length = 32 ∧ verifier.length = 32 then some (salt, verifier) else none
  | _, _ => none

/-- The `SRP6` object with the built-in group, after an account was loaded and a key drawn. -/
def serverSrp (sha1 : Sha1) (salt verifier : Bytes) (rand : Rand32) : SRP6 :=
  ((SRP6.new sha1).loadVerifier salt verifier).generateServerEphemeral rand

/-- What a challenge is answered when the name is looked up in the table: the SRP parameters if
there is a valid row, and otherwise an error code. -/
def uncachedReply (sha1 : Sha1) (table : Bytes → Option AccountsRow) (p : AuthPacket)
    (rand : Rand32) : Packet :=
  if !isValidUtf8 (challengeName p) then authResponse .authFailed .wrongUsername
  else
    match table (accountName p) with
    | none => authResponse .authFailed .wrongUsername
    | some row =>
      match row.credentials with
      | none => authResponse .authFailed .wrongPassword
      | some (salt, verifier) =>
        match challengeReply (serverSrp sha1 salt verifier rand) salt with
        | .ok reply => .auth reply
        | .error _ => authResponse .authFailed .databaseBusy

/-- The handler without the cache: it never finds anything there. -/
def uncachedChallenge (s : Session) (p : AuthPacket) (db : Except Exn (Option AccountsRow))
    (rand : Rand32) : Session :=
  (handleLogonChallenge s p
    { cache := { ttl := 0 }, getTime := 0, putTime := 0, db := db, rand := rand }).2

/-- From `s` to `s'` exactly one packet is passed to `send_packet`, and it is `reply`. -/
def SendsOnly (s s' : Session) (reply : Packet) : Prop :=
  ∃ t : Session, s' = t.sendPacket reply ∧ t.posted = s.posted ∧ t.replies = s.replies ∧
    t.closed = s.closed

/-- The reply depends only on the group, the account loaded and the key drawn. -/
lemma challengeReply_eq {sha1 : Sha1} {srp : SRP6} (h : srp.BuiltIn sha1)
    (salt verifier : Bytes) (rand : Rand32) :
    challengeReply ((srp.loadVerifier salt verifier).generateServerEphemeral rand) salt =
      challengeReply (serverSrp sha1 salt verifier rand) salt := by
  simp only [challengeReply, SRP6.getBBytes, SRP6.getNBytes, SRP6.getGenerator,
    SRP6.generateServerEphemeral, SRP6.loadVerifier, serverSrp, SRP6.new, h.N, h.g, h.k]

/-- **The shape of the reply**: 97 bytes of SRP parameters if the name is valid and has a valid row,
and otherwise the two bytes of an `SMSG_AUTH_RESPONSE`. -/
lemma uncachedReply_shape (sha1 : Sha1) (table : Bytes → Option AccountsRow) (p : AuthPacket)
    (rand : Rand32) :
    if isValidUtf8 (challengeName p) = true ∧
        ((table (accountName p)).bind AccountsRow.credentials).isSome = true then
      ∃ q : AuthPacket, uncachedReply sha1 table p rand = .auth q ∧
        q.opcode = AuthOpcodes.smsgAuthLogonChallenge ∧ q.buffer.buffer.length = 97
    else
      ∃ q : AuthPacket, uncachedReply sha1 table p rand = .auth q ∧
        q.opcode = AuthOpcodes.smsgAuthResponse ∧ q.buffer.buffer.length = 2 := by
  have hresp : ∀ error, ∃ q : AuthPacket, authResponse .authFailed error = .auth q ∧
      q.opcode = AuthOpcodes.smsgAuthResponse ∧ q.buffer.buffer.length = 2 :=
    fun error => ⟨_, rfl, rfl, rfl⟩
  unfold uncachedReply
  cases hvalid : isValidUtf8 (challengeName p) with
  | false => simpa using hresp .wrongUsername
  | true =>
    cases hrow : table (accountName p) with
    | none => simpa using hresp .wrongUsername
    | some row =>
      cases hcred : row.credentials with
      | none => simpa [hcred] using hresp .wrongPassword
      | some cred =>
        obtain ⟨salt, verifier⟩ := cred
        have hsalt : salt.length = 32 := by
          unfold AccountsRow.credentials at hcred
          split at hcred
          · split_ifs at hcred with hsizes
            cases hcred
            exact hsizes.1
          · cases hcred
        obtain ⟨reply, hreply, hop⟩ :=
          challengeReply_ok (rfl : (SRP6.new sha1).N = SRP6.modulus) salt verifier rand
        have hreply' : challengeReply (serverSrp sha1 salt verifier rand) salt = .ok reply := hreply
        have hsize := (challengeReply_size hreply).2.2
        rw [hsalt] at hsize
        simp only [hcred, hreply', Option.bind_some, Option.isSome_some, and_self, if_true,
          Bool.not_true, Bool.false_eq_true, if_false]
        exact ⟨reply, rfl, hop, hsize⟩

/-! ## The two parts of a challenge -/

/-- Every entry is a valid row of the table. -/
def AccountCache.FromTable (table : Bytes → Option AccountsRow) (c : AccountCache) : Prop :=
  ∀ u e, c.cache u = some e →
    (table u).bind AccountsRow.credentials = some (e.salt, e.verifier)

namespace AccountCache.FromTable

variable {table : Bytes → Option AccountsRow} {c : AccountCache}

/-- Storing a valid row keeps it. -/
lemma update (h : c.FromTable table) {u : Bytes} {e : AccountCacheEntry}
    (he : (table u).bind AccountsRow.credentials = some (e.salt, e.verifier)) :
    FromTable table { c with cache := Function.update c.cache u (some e) } := by
  intro u' e' hu'
  dsimp only at hu'
  by_cases hcase : u' = u
  · subst hcase
    obtain rfl : e = e' := by simpa using hu'
    exact he
  · rw [Function.update_of_ne hcase] at hu'
    exact h u' e' hu'

/-- A `get` keeps it, and what it returns is a valid row. -/
lemma get {c' : AccountCache} (h : c.FromTable table) {u : Bytes} {now : ℕ}
    {r : Option AccountCacheEntry} (hget : c.get u now = (r, c')) :
    c'.FromTable table ∧ ∀ e, r = some e →
      (table u).bind AccountsRow.credentials = some (e.salt, e.verifier) := by
  unfold AccountCache.get at hget
  cases hc : c.cache u with
  | none =>
    rw [hc] at hget
    cases hget
    exact ⟨h, nofun⟩
  | some e =>
    rw [hc] at hget
    dsimp only at hget
    split_ifs at hget
    · cases hget
      exact ⟨h, nofun⟩
    · cases hget
      have he := h u e hc
      refine ⟨h.update he, fun e' he' => ?_⟩
      cases he'
      exact he

/-- A clean-up keeps it. -/
lemma cleanup (h : c.FromTable table) (now : ℕ) :
    (c.cleanupExpiredEntries now).FromTable table := by
  intro u e hu
  exact h u e (Option.eq_some_of_filter_eq_some hu)

end AccountCache.FromTable

section Challenge

variable {sha1 : Sha1} {table : Bytes → Option AccountsRow} {s : Session} {p : AuthPacket}
  {cache : AccountCache} {now : ℕ} {rand : Rand32}

/-- The reply for a valid name with a valid row. -/
lemma uncachedReply_of_row {salt verifier : Bytes} {reply : AuthPacket}
    (hvalid : isValidUtf8 (challengeName p) = true)
    (hrow : (table (accountName p)).bind AccountsRow.credentials = some (salt, verifier))
    (hreply : challengeReply (serverSrp sha1 salt verifier rand) salt = .ok reply) :
    uncachedReply sha1 table p rand = .auth reply := by
  obtain ⟨row, hrow, hcred⟩ := Option.bind_eq_some_iff.1 hrow
  simp [uncachedReply, hvalid, hrow, hcred, hreply]

/-- Loading an account and replying is one send, of the reply without a cache. -/
lemma sendsOnly_loadAccount {t : Session} {salt verifier : Bytes} (rand : Rand32)
    (hsrp : t.srp.BuiltIn sha1)
    (hvalid : isValidUtf8 (challengeName p) = true)
    (hrow : (table (accountName p)).bind AccountsRow.credentials = some (salt, verifier))
    (hposted : t.posted = s.posted) (hreplies : t.replies = s.replies)
    (hclosed : t.closed = s.closed) :
    ∃ reply, challengeReply (loadAccount t (accountName p) salt verifier rand).srp salt =
        .ok reply ∧
      SendsOnly s ((loadAccount t (accountName p) salt verifier rand).sendPacket (.auth reply))
        (uncachedReply sha1 table p rand) := by
  obtain ⟨reply, hreply, -⟩ := challengeReply_ok hsrp.N salt verifier rand
  refine ⟨reply, hreply, loadAccount t (accountName p) salt verifier rand, ?_, hposted, hreplies,
    hclosed⟩
  rw [challengeReply_eq hsrp] at hreply
  rw [uncachedReply_of_row hvalid hrow hreply]

/-- **The first part of a challenge** sends the reply without a cache, if it ends there; otherwise
it sends nothing, and the name is valid. It leaves a cache of valid rows. -/
lemma challengeLookup_reply (p : AuthPacket) (now : ℕ) (rand : Rand32)
    (hcache : cache.FromTable table) (hsrp : s.srp.BuiltIn sha1) :
    (challengeLookup s p cache now rand).1.FromTable table ∧
      if (challengeLookup s p cache now rand).2.2 then
        (challengeLookup s p cache now rand).2.1.posted = s.posted ∧
          (challengeLookup s p cache now rand).2.1.replies = s.replies ∧
          isValidUtf8 (challengeName p) = true
      else
        SendsOnly s (challengeLookup s p cache now rand).2.1 (uncachedReply sha1 table p rand) := by
  cases hvalid : isValidUtf8 (challengeName p) with
  | false =>
    have hname : isValidUtf8 p.buffer.readStringNtLe.1 = false := hvalid
    simp only [challengeLookup, hname, Bool.not_false, if_true, Bool.false_eq_true, if_false]
    refine ⟨hcache, s, ?_, rfl, rfl, rfl⟩
    simp [uncachedReply, hvalid]
  | true =>
    have hname : isValidUtf8 p.buffer.readStringNtLe.1 = true := hvalid
    have hupper : toUppercase p.buffer.readStringNtLe.1 = accountName p := rfl
    simp only [challengeLookup, hname, Bool.not_true, Bool.false_eq_true, if_false, hupper]
    rcases hget : cache.get (accountName p) now with ⟨_ | e, cache'⟩
    · exact ⟨(hcache.get hget).1, rfl, rfl, trivial⟩
    · obtain ⟨hcache', hentry⟩ := hcache.get hget
      obtain ⟨reply, hreply, hsends⟩ := sendsOnly_loadAccount (s := s)
        (t := { s with srp := s.srp.setOnlyUsername (accountName p) }) rand
        ⟨hsrp.N, hsrp.g, hsrp.k⟩ hvalid (hentry e rfl) rfl rfl rfl
      simp only [hreply]
      exact ⟨hcache', hsends⟩

/-- **The second part of a challenge** with a valid name sends the reply without a cache, and leaves
a cache of valid rows. -/
lemma challengeQuery_reply (now : ℕ) (rand : Rand32) (hcache : cache.FromTable table)
    (hsrp : s.srp.BuiltIn sha1) (hvalid : isValidUtf8 (challengeName p) = true) :
    (challengeQuery s p cache now (.ok (table (accountName p))) rand).1.FromTable table ∧
      SendsOnly s (challengeQuery s p cache now (.ok (table (accountName p))) rand).2
        (uncachedReply sha1 table p rand) := by
  have hupper : toUppercase p.buffer.readStringNtLe.1 = accountName p := rfl
  -- a row that is missing or does not pass the check
  have hfail : ∀ error, uncachedReply sha1 table p rand = authResponse .authFailed error →
      SendsOnly s (s.sendPacket (authResponse .authFailed error))
        (uncachedReply sha1 table p rand) := fun error herror => by
    rw [herror]
    exact ⟨s, rfl, rfl, rfl, rfl⟩
  rcases hrow : table (accountName p) with _ | ⟨_ | salt, _ | verifier⟩
  · refine ⟨hcache, hfail .wrongUsername ?_⟩
    simp [uncachedReply, hvalid, hrow]
  · refine ⟨hcache, hfail .wrongPassword ?_⟩
    simp [uncachedReply, hvalid, hrow, AccountsRow.credentials]
  · refine ⟨hcache, hfail .wrongPassword ?_⟩
    simp [uncachedReply, hvalid, hrow, AccountsRow.credentials]
  · refine ⟨hcache, hfail .wrongPassword ?_⟩
    simp [uncachedReply, hvalid, hrow, AccountsRow.credentials]
  · by_cases hsizes : salt.length = 32 ∧ verifier.length = 32
    · have hgood : ¬ (salt.length ≠ 32 ∨ verifier.length ≠ 32) := by simp [hsizes]
      have hcred :
          (table (accountName p)).bind AccountsRow.credentials = some (salt, verifier) := by
        simp [hrow, AccountsRow.credentials, hsizes]
      obtain ⟨reply, hreply, hsends⟩ := sendsOnly_loadAccount (s := s) (t := s) rand hsrp
        hvalid hcred rfl rfl rfl
      simp only [challengeQuery, if_neg hgood, hupper, hreply]
      exact ⟨hcache.update hcred, hsends⟩
    · have hbad : salt.length ≠ 32 ∨ verifier.length ≠ 32 := not_and_or.1 hsizes
      simp only [challengeQuery, if_pos hbad]
      refine ⟨hcache, hfail .wrongPassword ?_⟩
      simp [uncachedReply, hvalid, hrow, AccountsRow.credentials, hsizes]

/-- The handler without the cache sends that reply. -/
lemma uncachedChallenge_reply (hsrp : s.srp.BuiltIn sha1) :
    SendsOnly s (uncachedChallenge s p (.ok (table (accountName p))) rand)
      (uncachedReply sha1 table p rand) := by
  have hempty : AccountCache.FromTable table { ttl := 0 } := fun u e hu => by cases hu
  have hlook := (challengeLookup_reply p 0 rand hempty hsrp).2
  have heff := challengeLookup_effect s p { ttl := 0 } 0 rand
  rw [uncachedChallenge, handleLogonChallenge_eq]
  rcases hres : challengeLookup s p { ttl := 0 } 0 rand with ⟨cache', s', _ | _⟩
  · rw [hres] at hlook
    exact hlook
  · rw [hres] at hlook heff
    obtain ⟨hposted, hreplies, hvalid⟩ := hlook
    have hcache' : cache'.FromTable table := by
      have h := (challengeLookup_reply p 0 rand hempty hsrp).1
      rw [hres] at h
      exact h
    have hsrp' : s'.srp.BuiltIn sha1 :=
      ⟨heff.modulus.trans hsrp.N, heff.generator.trans hsrp.g, heff.multiplier.trans hsrp.k⟩
    obtain ⟨t, ht, hposted', hreplies', hclosed'⟩ :=
      (challengeQuery_reply 0 rand hcache' hsrp' hvalid).2
    exact ⟨t, ht, hposted'.trans hposted, hreplies'.trans hreplies, hclosed'.trans heff.closed⟩

end Challenge

/-! ## Runs of the server -/

namespace Server

/-- The database answers from the table, and without an error. -/
def AnsweredFrom (table : Bytes → Option AccountsRow) (σ : Server) : ServerEvent → Prop
  | .query k db _ => ∀ q ∈ σ.queries[k]?, db = .ok (table (accountName q.packet))
  | _ => True

/-- Whether it does can be decided. -/
instance decidableAnsweredFrom (table : Bytes → Option AccountsRow) (σ : Server) :
    ∀ e, Decidable (AnsweredFrom table σ e)
  | .query k db _ =>
    inferInstanceAs (Decidable (∀ q ∈ σ.queries[k]?, db = .ok (table (accountName q.packet))))
  | .accepted _ => isTrue trivial
  | .acceptError => isTrue trivial
  | .session _ _ => isTrue trivial
  | .lookup _ _ _ => isTrue trivial
  | .tick _ => isTrue trivial
  | .cleanup => isTrue trivial
  | .stop => isTrue trivial

/-- The invariant of a server whose database answers from a table: every entry of the cache is a
valid row, every session has the built-in group, and the challenges waiting for the database have
valid names. -/
structure TableInvariant (sha1 : Sha1) (table : Bytes → Option AccountsRow) (σ : Server) :
    Prop where
  cache : σ.cache.FromTable table
  srp : ∀ s ∈ σ.sessions, s.srp.BuiltIn sha1
  queries : ∀ q ∈ σ.queries, isValidUtf8 (challengeName q.packet) = true

/-- It holds at the start. -/
lemma tableInvariant_start (sha1 : Sha1) (table : Bytes → Option AccountsRow) (ttl : ℕ) :
    TableInvariant sha1 table (start ttl) := by
  refine ⟨fun u e hu => ?_, fun s hs => ?_, fun q hq => ?_⟩
  · simp [start, startAccept] at hu
  · simp [start, startAccept] at hs
  · simp [start, startAccept] at hq

/-- A step of a session that is not a challenge leaves its `SRP6` object alone. -/
lemma srp_of_step {sha1 : Sha1} {s s' : Session} {e : SessionEvent} (hN : s.srp.N = SRP6.modulus)
    (he : e.isChallenge = false) (h : s.step sha1 e = some s') : s'.srp = s.srp := by
  cases (Session.step_transition h).login hN with
  | keep e s' hsrp hloads he => exact hsrp
  | notFound i env p s' hp hvalid hacc hsrp hloads => cases he
  | found i env p salt verifier s' hp hacc hsrp hloads => cases he

/-- A challenge keeps the built-in group. -/
lemma builtIn_of_challenge {sha1 : Sha1} {s s' : Session} (h : ChallengeEffect s s')
    (hs : s.srp.BuiltIn sha1) : s'.srp.BuiltIn sha1 :=
  ⟨h.modulus.trans hs.N, h.generator.trans hs.g, h.multiplier.trans hs.k⟩

/-- **One step** keeps it, if the database answers from the table.

**Proof sketch.** Only the second part of a challenge puts something in the cache, and it is a row
of the table that passed the check. -/
lemma TableInvariant.step {sha1 : Sha1} {table : Bytes → Option AccountsRow} {σ σ' : Server}
    {e : ServerEvent} (hσ : TableInvariant sha1 table σ) (hok : AnsweredFrom table σ e)
    (h : σ.step sha1 e = some σ') : TableInvariant sha1 table σ' := by
  have hnew : ∀ {t : Session}, t.srp = SRP6.new sha1 →
      ∀ s ∈ σ.sessions ++ [t], s.srp.BuiltIn sha1 := by
    intro t ht s hs
    rcases List.mem_append.1 hs with hs | hs
    · exact hσ.srp s hs
    · obtain rfl := List.mem_singleton.1 hs
      rw [ht]
      exact ⟨rfl, rfl, rfl⟩
  cases step_transition h with
  | accepted haccepts =>
    unfold startAccept
    split_ifs
    · exact ⟨hσ.cache, hnew rfl, hσ.queries⟩
    · exact ⟨hσ.cache, hnew rfl, hσ.queries⟩
  | reset haccepts e => exact ⟨hσ.cache, hnew rfl, hσ.queries⟩
  | acceptError haccepts => exact ⟨hσ.cache, hσ.srp, hσ.queries⟩
  | session i e s s' hs he hstep =>
    have hsrp := hσ.srp s (List.mem_of_getElem? hs)
    refine ⟨hσ.cache, forall_mem_set hσ.srp ?_, hσ.queries⟩
    rw [srp_of_step hsrp.N he hstep]
    exact hsrp
  | lookup i j rand s p cache s' asks hs hp hres =>
    have hsrp := hσ.srp s (List.mem_of_getElem? hs)
    have hsrp' : SRP6.BuiltIn sha1 ({ s with spawned := s.spawned.eraseIdx j } : Session).srp :=
      hsrp
    have heff := challengeLookup_effect { s with spawned := s.spawned.eraseIdx j } p σ.cache σ.now
      rand
    obtain ⟨hcache, hreply⟩ :=
      challengeLookup_reply p σ.now rand hσ.cache hsrp'
    rw [hres] at heff hcache hreply
    refine ⟨hcache, forall_mem_set hσ.srp (builtIn_of_challenge heff hsrp'), fun q hq => ?_⟩
    cases asks with
    | false => exact hσ.queries q hq
    | true =>
      rcases List.mem_append.1 hq with hq | hq
      · exact hσ.queries q hq
      · obtain rfl := List.mem_singleton.1 hq
        exact hreply.2.2
  | query k db rand q s cache s' hq hs hres =>
    have hsrp := hσ.srp s (List.mem_of_getElem? hs)
    obtain rfl := hok q hq
    have heff := challengeQuery_effect s q.packet σ.cache σ.now
      (.ok (table (accountName q.packet))) rand
    have hreply := challengeQuery_reply σ.now rand hσ.cache hsrp
      (hσ.queries q (List.mem_of_getElem? hq))
    rw [hres] at heff hreply
    refine ⟨hreply.1, forall_mem_set hσ.srp (builtIn_of_challenge heff hsrp), fun r hr => ?_⟩
    exact hσ.queries r (List.mem_of_mem_eraseIdx hr)
  | tick ticks => exact ⟨hσ.cache, hσ.srp, hσ.queries⟩
  | cleanup => exact ⟨hσ.cache.cleanup σ.now, hσ.srp, hσ.queries⟩
  | stop =>
    refine ⟨hσ.cache, fun s hs => ?_, hσ.queries⟩
    obtain ⟨t, ht, rfl⟩ := List.mem_map.1 hs
    have hsrp : t.close.srp = t.srp := by rw [Session.close_toAuthState]
    change SRP6.BuiltIn sha1 t.close.srp
    rw [hsrp]
    exact hσ.srp t ht

end Server

/-- **The cached path equals the database path.** In every state a server reaches, from an empty
cache and with a database that answers from a fixed table: a challenge of any session with any
payload either ends with the cache and sends exactly one reply, or it sends nothing and asks the
database; a challenge whose query is answered sends exactly one reply, whatever has happened since
it asked; and the reply is the one that the handler without a cache sends for the same random bytes,
97 bytes of SRP parameters if the name has a valid row, and otherwise an `SMSG_AUTH_RESPONSE` of two
bytes. -/
theorem cached_reply_eq_uncached (sha1 : Sha1) (table : Bytes → Option AccountsRow) (ttl : ℕ)
    (es : List ServerEvent) (σ : Server)
    (h : Run.exec (Server.step sha1) (Server.start ttl) es = some σ)
    (hdb : Run.StepsMeet (Server.step sha1) (Server.AnsweredFrom table) (Server.start ttl) es) :
    (∀ s ∈ σ.sessions, ∀ p rand,
      SendsOnly s (uncachedChallenge s p (.ok (table (accountName p))) rand)
        (uncachedReply sha1 table p rand) ∧
      if (challengeLookup s p σ.cache σ.now rand).2.2 then
        (challengeLookup s p σ.cache σ.now rand).2.1.posted = s.posted ∧
          (challengeLookup s p σ.cache σ.now rand).2.1.replies = s.replies
      else
        SendsOnly s (challengeLookup s p σ.cache σ.now rand).2.1
          (uncachedReply sha1 table p rand)) ∧
    (∀ q ∈ σ.queries, ∀ s ∈ σ.sessions, ∀ rand,
      SendsOnly s (challengeQuery s q.packet σ.cache σ.now
        (.ok (table (accountName q.packet))) rand).2 (uncachedReply sha1 table q.packet rand)) ∧
    ∀ p rand,
      if isValidUtf8 (challengeName p) = true ∧
          ((table (accountName p)).bind AccountsRow.credentials).isSome = true then
        ∃ q : AuthPacket, uncachedReply sha1 table p rand = .auth q ∧
          q.opcode = AuthOpcodes.smsgAuthLogonChallenge ∧ q.buffer.buffer.length = 97
      else
        ∃ q : AuthPacket, uncachedReply sha1 table p rand = .auth q ∧
          q.opcode = AuthOpcodes.smsgAuthResponse ∧ q.buffer.buffer.length = 2 := by
  have hσ : Server.TableInvariant sha1 table σ := by
    have halways := Run.always_of_stepsMeet (P := Server.TableInvariant sha1 table)
      (fun σ e σ' hσ hok hstep => hσ.step hok hstep) (Server.tableInvariant_start sha1 table ttl)
      hdb
    exact halways.last h
  refine ⟨fun s hs p rand => ⟨uncachedChallenge_reply (hσ.srp s hs), ?_⟩, ?_,
    uncachedReply_shape sha1 table⟩
  · have hreply := (challengeLookup_reply p σ.now rand hσ.cache (hσ.srp s hs)).2
    split_ifs at hreply ⊢
    · exact ⟨hreply.1, hreply.2.1⟩
    · exact hreply
  · intro q hq s hs rand
    exact (challengeQuery_reply σ.now rand hσ.cache (hσ.srp s hs) (hσ.queries q hq)).2

/-- A table with the one account `A`. -/
def sampleTable (u : Bytes) : Option AccountsRow :=
  if u = [65] then some ⟨some (List.replicate 32 0), some (List.replicate 32 1)⟩ else none

/-- A client asks for `a`, and the answer is cached. -/
def cachingEvents : List ServerEvent :=
  [.accepted true, .session 0 (.read [3, 0, 2, 97, 0]), .lookup 0 0 sampleRand,
    .query 0 (.ok (sampleTable [65])) sampleRand, .tick 100]

/-- After that, a challenge for `A` or for `B` is answered as without the cache. -/
theorem cached_reply_eq_uncached_twice :
    ∃ σ, Run.exec (Server.step SRP6.sampleSha1) (Server.start 300) cachingEvents = some σ ∧
      (σ.cache.cache [65]).isSome = true ∧
      ∀ s ∈ σ.sessions, ∀ p rand,
        SendsOnly s (uncachedChallenge s p (.ok (sampleTable (accountName p))) rand)
          (uncachedReply SRP6.sampleSha1 sampleTable p rand) ∧
        ((challengeLookup s p σ.cache σ.now rand).2.2 = false →
          SendsOnly s (challengeLookup s p σ.cache σ.now rand).2.1
            (uncachedReply SRP6.sampleSha1 sampleTable p rand)) := by
  have hrun : (Run.exec (Server.step SRP6.sampleSha1) (Server.start 300) cachingEvents).map
      (fun σ => (σ.cache.cache [65]).isSome) = some true := by
    decide +kernel
  have hdb : Run.StepsMeet (Server.step SRP6.sampleSha1) (Server.AnsweredFrom sampleTable)
      (Server.start 300) cachingEvents := by
    decide +kernel
  obtain ⟨σ, hσ, hentry⟩ := Option.map_eq_some_iff.1 hrun
  refine ⟨σ, hσ, hentry, fun s hs p rand => ?_⟩
  obtain ⟨huncached, hlook⟩ :=
    (cached_reply_eq_uncached SRP6.sampleSha1 sampleTable 300 cachingEvents σ hσ hdb).1 s hs p rand
  refine ⟨huncached, fun hasks => ?_⟩
  rwa [hasks, if_neg Bool.false_ne_true] at hlook

end Purity
