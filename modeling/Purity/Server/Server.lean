import Purity.Server.ReadLoop

set_option relaxedAutoImplicit false
set_option autoImplicit false

/-!
# The server

`Server` (`server/Server.cpp`) accepts connections one after another and keeps the open sessions in
`sessions_`. Its sessions share one account cache. A challenge that does not find its account there
asks the database; until the answer is there, other sessions go on, so a challenge is two tasks.

## Main definitions

* `Purity.HandlersAuth.challengeLookup`, `challengeQuery` — the two parts of a challenge, before and
  after the query.
* `Purity.Server` — the acceptor, the sessions and the account cache with its clock.
* `Purity.ServerEvent`, `Purity.Server.step` — the tasks of the server and of all its sessions.
* `Purity.Server.Sound` — one accept is outstanding, nothing has been thrown, and `sessions_` holds
  the open sessions.

## Main results

* `Purity.HandlersAuth.handleLogonChallenge_eq` — the two parts are the handler.
* `Purity.Server.sound_iff_acceptsLive` — a run is sound exactly as long as every accept yields a
  peer that is still connected.

## Implementation notes

Sessions are numbered in the order of their acceptance and stay in the list when they are closed;
`registered` says which of them are in `sessions_`. `Server::stop` ends the run: it stops the
`io_context`, so no handler runs after it. An operation with undefined effect in one session, or an
exception that leaves a handler, ends the run too.
-/

namespace Purity

/-! ## A challenge in two parts -/

namespace HandlersAuth

open Utf8

/-- `handle_logon_challenge` up to the query: the name is read, checked, upper-cased and stored, and
the cache is asked. The last component says whether the database is asked next. -/
def challengeLookup (s : Session) (p : AuthPacket) (cache : AccountCache) (getTime : ℕ)
    (rand : Rand32) : AccountCache × Session × Bool :=
  let username := p.buffer.readStringNtLe.1
  if !isValidUtf8 username then
    (cache, s.sendPacket (authResponse .authFailed .wrongUsername), false)
  else
    let username := toUppercase username
    let s := { s with srp := s.srp.setOnlyUsername username }
    match cache.get username getTime with
    | (some cachedUser, cache) =>
      let s := loadAccount s username cachedUser.salt cachedUser.verifier rand
      match challengeReply s.srp cachedUser.salt with
      | .ok reply => (cache, s.sendPacket (.auth reply), false)
      | .error _ => (cache, s, false)
    | (none, cache) => (cache, s, true)

/-- `handle_logon_challenge` from the query on, with its answer. -/
def challengeQuery (s : Session) (p : AuthPacket) (cache : AccountCache) (putTime : ℕ)
    (db : Except Exn (Option AccountsRow)) (rand : Rand32) : AccountCache × Session :=
  let username := toUppercase p.buffer.readStringNtLe.1
  match db with
  | .error _ => (cache, s.sendPacket (authResponse .authFailed .databaseBusy))
  | .ok none => (cache, s.sendPacket (authResponse .authFailed .wrongUsername))
  | .ok (some user) =>
    match user.salt, user.verifier with
    | some salt, some verifier =>
      if salt.length ≠ 32 ∨ verifier.length ≠ 32 then
        (cache, s.sendPacket (authResponse .authFailed .wrongPassword))
      else
        let cache := cache.put username { salt, verifier } putTime
        let s := loadAccount s username salt verifier rand
        match challengeReply s.srp salt with
        | .ok reply => (cache, s.sendPacket (.auth reply))
        | .error _ => (cache, s.sendPacket (authResponse .authFailed .databaseBusy))
    | _, _ => (cache, s.sendPacket (authResponse .authFailed .wrongPassword))

/-- What the first part of a challenge leaves alone. -/
lemma challengeLookup_effect (s : Session) (p : AuthPacket) (cache : AccountCache) (getTime : ℕ)
    (rand : Rand32) : ChallengeEffect s (challengeLookup s p cache getTime rand).2.1 := by
  unfold challengeLookup
  dsimp only
  split_ifs
  · exact (ChallengeEffect.refl s).sendPacket _
  · have hname := ChallengeEffect.setOnlyUsername s (toUppercase p.buffer.readStringNtLe.1)
    rcases cache.get (toUppercase p.buffer.readStringNtLe.1) getTime with ⟨_ | e, cache⟩
    · exact hname
    · have hload := hname.loadAccount (toUppercase p.buffer.readStringNtLe.1) e.salt e.verifier rand
      dsimp only
      split
      · exact hload.sendPacket _
      · exact hload

/-- What the second part of a challenge leaves alone. -/
lemma challengeQuery_effect (s : Session) (p : AuthPacket) (cache : AccountCache) (putTime : ℕ)
    (db : Except Exn (Option AccountsRow)) (rand : Rand32) :
    ChallengeEffect s (challengeQuery s p cache putTime db rand).2 := by
  have hrefl := ChallengeEffect.refl s
  rcases db with ex | _ | ⟨_ | salt, _ | verifier⟩
  · exact hrefl.sendPacket _
  · exact hrefl.sendPacket _
  · exact hrefl.sendPacket _
  · exact hrefl.sendPacket _
  · exact hrefl.sendPacket _
  · have hload := hrefl.loadAccount (toUppercase p.buffer.readStringNtLe.1) salt verifier rand
    unfold challengeQuery
    dsimp only
    split_ifs
    · exact hrefl.sendPacket _
    · split <;> exact hload.sendPacket _

/-- A lookup in an empty cache asks the database for every valid name. -/
lemma challengeLookup_empty (s : Session) (p : AuthPacket) (ttl now : ℕ) (rand : Rand32) :
    challengeLookup s p { ttl := ttl } now rand =
      if isValidUtf8 (challengeName p) then
        ({ ttl := ttl }, { s with srp := s.srp.setOnlyUsername (accountName p) }, true)
      else ({ ttl := ttl }, s.sendPacket (authResponse .authFailed .wrongUsername), false) := by
  have hempty : ∀ u, AccountCache.get { ttl := ttl } u now = (none, { ttl := ttl }) := fun u => rfl
  have hname : isValidUtf8 p.buffer.readStringNtLe.1 = isValidUtf8 (challengeName p) := rfl
  cases hvalid : isValidUtf8 (challengeName p) with
  | false =>
    rw [hvalid] at hname
    simp only [challengeLookup, hname, Bool.not_false, if_true, Bool.false_eq_true, if_false]
  | true =>
    rw [hvalid] at hname
    simp only [challengeLookup, hname, Bool.not_true, Bool.false_eq_true, if_false, if_true, hempty]
    rfl

/-- A lookup that asks the database has found a valid name, and stored it. -/
lemma challengeLookup_asks {s : Session} {p : AuthPacket} {c : AccountCache} {now : ℕ}
    {rand : Rand32} (hasks : (challengeLookup s p c now rand).2.2 = true) :
    isValidUtf8 (challengeName p) = true ∧ (challengeLookup s p c now rand).2.1 =
      { s with srp := s.srp.setOnlyUsername (accountName p) } := by
  have hname : isValidUtf8 p.buffer.readStringNtLe.1 = isValidUtf8 (challengeName p) := rfl
  have hupper : toUppercase p.buffer.readStringNtLe.1 = accountName p := rfl
  cases hvalid : isValidUtf8 (challengeName p) with
  | false => simp [challengeLookup, hname, hvalid] at hasks
  | true =>
    simp only [challengeLookup, hname, hvalid, Bool.not_true, Bool.false_eq_true, if_false,
      hupper] at hasks ⊢
    rcases hget : c.get (accountName p) now with ⟨_ | e, c'⟩
    · exact ⟨trivial, rfl⟩
    · simp only [hget] at hasks
      split at hasks <;> simp at hasks

/-- **The two parts are the handler**, when nothing comes between them. -/
lemma handleLogonChallenge_eq (s : Session) (p : AuthPacket) (env : ChallengeEnv) :
    handleLogonChallenge s p env =
      match challengeLookup s p env.cache env.getTime env.rand with
      | (cache, s, false) => (cache, s)
      | (cache, s, true) => challengeQuery s p cache env.putTime env.db env.rand := by
  simp only [handleLogonChallenge, challengeLookup]
  cases hvalid : isValidUtf8 p.buffer.readStringNtLe.1 with
  | false => rfl
  | true =>
    simp only [Bool.not_true, Bool.false_eq_true, if_false]
    rcases env.cache.get (toUppercase p.buffer.readStringNtLe.1) env.getTime with ⟨_ | e, cache⟩
    · rfl
    · dsimp only
      generalize challengeReply _ e.salt = reply
      cases reply with
      | ok reply => rfl
      | error ex => rfl

end HandlersAuth

/-! ## The server -/

/-- A challenge waiting for the database: the session it belongs to, and its packet. -/
structure Query where
  session : ℕ
  packet : AuthPacket
  deriving DecidableEq, Repr

/-- A server: the sessions accepted so far, the number of `async_accept`s outstanding, whether the
acceptor is open, the account cache, the clock, the challenges waiting for the database, whether
`stop` was called, and the fault if there was one. -/
structure Server where
  sessions : List Session := []
  accepts : ℕ := 0
  acceptorOpen : Bool := true
  cache : AccountCache
  now : ℕ := 0
  queries : List Query := []
  stopped : Bool := false
  fault : Option Fault := none

namespace Server

/-- `start_accept` -/
def startAccept (σ : Server) : Server :=
  if !σ.acceptorOpen then σ else { σ with accepts := σ.accepts + 1 }

/-- The server of `main`: constructed, and `start_accept` called. -/
def start (ttl : ℕ) : Server := startAccept { cache := { ttl := ttl } }

/-- A session just constructed and registered, before its `start`. -/
def newSession (sha1 : Sha1) : Session := { srp := SRP6.new sha1 }

/-- The completion handler of `async_accept` on success: the session is registered and started, and
the next accept begins. `start` asks for the remote end point, which throws if the peer is gone by
then, and nothing catches it. -/
def acceptHandler (sha1 : Sha1) (σ : Server) (alive : Bool) : Server :=
  if alive then startAccept { σ with sessions := σ.sessions ++ [Session.start sha1] }
  else { σ with
    sessions := σ.sessions ++ [newSession sha1]
    fault := some (.uncaught (.runtimeError "remote_endpoint: not connected")) }

/-- `stop`: the acceptor and all sessions are closed, `sessions_` is cleared, and the `io_context`
is stopped. -/
def stop (σ : Server) : Server :=
  { σ with
    acceptorOpen := false
    sessions := σ.sessions.map fun s => { s.close with registered := false }
    stopped := true }

end Server

/-- The tasks that may run next. -/
inductive ServerEvent where
  /-- an `async_accept` completes; `alive` tells whether the peer is still connected -/
  | accepted (alive : Bool)
  /-- an `async_accept` completes with an error -/
  | acceptError
  /-- a task of the `i`-th session, other than a challenge -/
  | session (i : ℕ) (e : SessionEvent)
  /-- the `j`-th spawned challenge of the `i`-th session runs, up to the query -/
  | lookup (i j : ℕ) (rand : Rand32)
  /-- the database answers the `k`-th challenge that waits for it, and the challenge goes on -/
  | query (k : ℕ) (db : Except Exn (Option AccountsRow)) (rand : Rand32)
  /-- time passes -/
  | tick (ticks : ℕ)
  /-- the clean-up timer of the cache fires -/
  | cleanup
  /-- `stop` is called -/
  | stop

/-- The event is a challenge, which the server runs in two parts. -/
def SessionEvent.isChallenge : SessionEvent → Bool
  | .challenge _ _ => true
  | _ => false

namespace Server

/-- Nothing more is specified: the server was stopped, or something went wrong. -/
def halted (σ : Server) : Bool :=
  σ.stopped || σ.fault.isSome || σ.sessions.any fun s => s.fault.isSome

/-- One step of a server; `none` if the event is not possible. -/
def step (sha1 : Sha1) (σ : Server) (e : ServerEvent) : Option Server :=
  if σ.halted then none
  else
    match e with
    | .accepted alive =>
      if σ.accepts = 0 then none
      else some (acceptHandler sha1 { σ with accepts := σ.accepts - 1 } alive)
    | .acceptError =>
      if σ.accepts = 0 then none else some { σ with accepts := σ.accepts - 1 }
    | .session i e =>
      if e.isChallenge then none
      else
        σ.sessions[i]?.bind fun s =>
          (s.step sha1 e).map fun s' => { σ with sessions := σ.sessions.set i s' }
    | .lookup i j rand =>
      σ.sessions[i]?.bind fun s =>
        s.spawned[j]?.map fun p =>
          match HandlersAuth.challengeLookup { s with spawned := s.spawned.eraseIdx j } p σ.cache
            σ.now rand with
          | (cache, s', asks) => { σ with
              sessions := σ.sessions.set i s'
              cache := cache
              queries := if asks then σ.queries ++ [⟨i, p⟩] else σ.queries }
    | .query k db rand =>
      σ.queries[k]?.bind fun q =>
        σ.sessions[q.session]?.map fun s =>
          match HandlersAuth.challengeQuery s q.packet σ.cache σ.now db rand with
          | (cache, s') => { σ with
              sessions := σ.sessions.set q.session s'
              cache := cache
              queries := σ.queries.eraseIdx k }
    | .tick ticks => some { σ with now := σ.now + ticks }
    | .cleanup => some { σ with cache := σ.cache.cleanupExpiredEntries σ.now }
    | .stop => some σ.stop

end Server

/-! ## Transitions -/

/-- The ways a step of a server can end. -/
inductive ServerTransition (sha1 : Sha1) (σ : Server) : ServerEvent → Server → Prop where
  | accepted (haccepts : σ.accepts ≠ 0) : ServerTransition sha1 σ (.accepted true)
      (Server.startAccept { σ with
        accepts := σ.accepts - 1
        sessions := σ.sessions ++ [Session.start sha1] })
  | reset (haccepts : σ.accepts ≠ 0) (e : Exn) : ServerTransition sha1 σ (.accepted false)
      { σ with
        accepts := σ.accepts - 1
        sessions := σ.sessions ++ [Server.newSession sha1]
        fault := some (.uncaught e) }
  | acceptError (haccepts : σ.accepts ≠ 0) :
    ServerTransition sha1 σ .acceptError { σ with accepts := σ.accepts - 1 }
  | session (i : ℕ) (e : SessionEvent) (s s' : Session) (hs : σ.sessions[i]? = some s)
    (he : e.isChallenge = false) (hstep : s.step sha1 e = some s') :
    ServerTransition sha1 σ (.session i e) { σ with sessions := σ.sessions.set i s' }
  | lookup (i j : ℕ) (rand : Rand32) (s : Session) (p : AuthPacket) (cache : AccountCache)
    (s' : Session) (asks : Bool) (hs : σ.sessions[i]? = some s) (hp : s.spawned[j]? = some p)
    (hres : HandlersAuth.challengeLookup { s with spawned := s.spawned.eraseIdx j } p σ.cache
      σ.now rand = (cache, s', asks)) :
    ServerTransition sha1 σ (.lookup i j rand) { σ with
      sessions := σ.sessions.set i s'
      cache := cache
      queries := if asks then σ.queries ++ [⟨i, p⟩] else σ.queries }
  | query (k : ℕ) (db : Except Exn (Option AccountsRow)) (rand : Rand32) (q : Query) (s : Session)
    (cache : AccountCache) (s' : Session) (hq : σ.queries[k]? = some q)
    (hs : σ.sessions[q.session]? = some s)
    (hres : HandlersAuth.challengeQuery s q.packet σ.cache σ.now db rand = (cache, s')) :
    ServerTransition sha1 σ (.query k db rand) { σ with
      sessions := σ.sessions.set q.session s'
      cache := cache
      queries := σ.queries.eraseIdx k }
  | tick (ticks : ℕ) : ServerTransition sha1 σ (.tick ticks) { σ with now := σ.now + ticks }
  | cleanup : ServerTransition sha1 σ .cleanup
      { σ with cache := σ.cache.cleanupExpiredEntries σ.now }
  | stop : ServerTransition sha1 σ .stop σ.stop

namespace Server

/-- A step is only made by a server that has not halted. -/
lemma halted_of_step {sha1 : Sha1} {σ σ' : Server} {e : ServerEvent}
    (h : σ.step sha1 e = some σ') : σ.halted = false := by
  cases hh : σ.halted with
  | false => rfl
  | true => simp [step, hh] at h

/-- Nothing has gone wrong before a step, and the server was not stopped. -/
lemma running_of_step {sha1 : Sha1} {σ σ' : Server} {e : ServerEvent}
    (h : σ.step sha1 e = some σ') : σ.fault = none ∧ σ.stopped = false := by
  have hhalt := halted_of_step h
  simp only [halted, Bool.or_eq_false_iff] at hhalt
  exact ⟨Option.isNone_iff_eq_none.1 (by simpa using hhalt.1.2), hhalt.1.1⟩

/-- **Inversion**: every step of a server is one of the transitions. -/
lemma step_transition {sha1 : Sha1} {σ σ' : Server} {e : ServerEvent}
    (h : σ.step sha1 e = some σ') : ServerTransition sha1 σ e σ' := by
  have hh : ¬ σ.halted = true := by simp [halted_of_step h]
  simp only [step, if_neg hh] at h
  cases e with
  | accepted alive =>
    simp only [Option.ite_none_left_eq_some, Option.some.injEq] at h
    obtain ⟨haccepts, rfl⟩ := h
    cases alive with
    | true => exact .accepted haccepts
    | false => exact .reset haccepts _
  | acceptError =>
    simp only [Option.ite_none_left_eq_some, Option.some.injEq] at h
    obtain ⟨haccepts, rfl⟩ := h
    exact .acceptError haccepts
  | session i e =>
    simp only [Option.ite_none_left_eq_some, Option.bind_eq_some_iff, Option.map_eq_some_iff] at h
    obtain ⟨he, s, hs, s', hstep, rfl⟩ := h
    exact .session i e s s' hs (by simpa using he) hstep
  | lookup i j rand =>
    simp only [Option.bind_eq_some_iff, Option.map_eq_some_iff] at h
    obtain ⟨s, hs, p, hp, rfl⟩ := h
    exact .lookup i j rand s p _ _ _ hs hp rfl
  | query k db rand =>
    simp only [Option.bind_eq_some_iff, Option.map_eq_some_iff] at h
    obtain ⟨q, hq, s, hs, rfl⟩ := h
    exact .query k db rand q s _ _ hq hs rfl
  | tick ticks =>
    cases h
    exact .tick ticks
  | cleanup =>
    cases h
    exact .cleanup
  | stop =>
    cases h
    exact .stop

/-! ## The accept loop and the registry -/

section Frame

variable (σ : Server)

@[simp] lemma startAccept_sessions : σ.startAccept.sessions = σ.sessions := by
  unfold startAccept; split_ifs <;> rfl

@[simp] lemma startAccept_acceptorOpen : σ.startAccept.acceptorOpen = σ.acceptorOpen := by
  unfold startAccept; split_ifs <;> rfl

@[simp] lemma startAccept_fault : σ.startAccept.fault = σ.fault := by
  unfold startAccept; split_ifs <;> rfl

/-- While the acceptor is open, `start_accept` begins one more accept. -/
lemma startAccept_accepts {σ : Server} (h : σ.acceptorOpen = true) :
    σ.startAccept.accepts = σ.accepts + 1 := by
  simp [startAccept, h]

end Frame

/-- What the server promises between handlers: exactly one `async_accept` is outstanding, no
exception has left a completion handler, and `sessions_` is the set of the accepted sessions whose
`closed_` is false. -/
structure Sound (σ : Server) : Prop where
  accepts : σ.accepts = 1
  caught : ∀ e, σ.fault ≠ some (.uncaught e)
  sessions_caught : ∀ s ∈ σ.sessions, ∀ e, s.fault ≠ some (.uncaught e)
  registry : ∀ s ∈ σ.sessions, s.registered = true ↔ s.closed = false

/-- Every accept that completes yields a connection whose peer is still there. -/
def AcceptsLive (_ : Server) : ServerEvent → Prop
  | .accepted alive => alive = true
  | .acceptError => False
  | _ => True

/-- The invariant of the sessions: the acceptor is open until the server is stopped, and unless
something went wrong, the read loop of every session is as it should be. -/
structure Healthy (σ : Server) : Prop where
  acceptorOpen : σ.stopped = false → σ.acceptorOpen = true
  sessions : σ.fault = none → ∀ s ∈ σ.sessions, ReadLoop s

/-- A session replaced by another one with the invariant. -/
lemma forall_mem_set {P : Session → Prop} {ss : List Session} {i : ℕ} {s' : Session}
    (h : ∀ s ∈ ss, P s) (hs' : P s') : ∀ s ∈ ss.set i s', P s := by
  intro s hs
  rcases List.mem_or_eq_of_mem_set hs with hs | rfl
  · exact h s hs
  · exact hs'

/-- A challenge leaves the read loop alone. -/
lemma readLoop_challenge {s s' : Session} (h : HandlersAuth.ChallengeEffect s s')
    (hs : ReadLoop s) : ReadLoop s' :=
  hs.of_eq (by rw [h.read]) h.closed h.registered h.fault

/-- A session that is closed when the server stops. -/
lemma readLoop_stop {s : Session} (hs : ReadLoop s) :
    ReadLoop { s.close with registered := false } := by
  have hclose := ReadLoop.close hs.reads_le hs.registered hs.caught
  exact ⟨hclose.reads_open, hclose.reads_le, by simp, hclose.caught⟩

/-- It holds at the start. -/
lemma healthy_start (ttl : ℕ) : Healthy (start ttl) := by
  refine ⟨fun _ => rfl, fun _ s hs => ?_⟩
  simp [start, startAccept] at hs

/-- **One step** keeps it.

**Proof sketch.** Each session makes a step of its own, a challenge leaves its loop alone, and a new
session starts with one read. -/
lemma Healthy.step {sha1 : Sha1} {σ σ' : Server} {e : ServerEvent} (hσ : Healthy σ)
    (h : σ.step sha1 e = some σ') : Healthy σ' := by
  obtain ⟨hnone, hrun⟩ := running_of_step h
  have hopen := hσ.acceptorOpen hrun
  have hsessions := hσ.sessions hnone
  cases step_transition h with
  | accepted haccepts =>
    refine ⟨fun _ => by simpa using hopen, fun _ s hs => ?_⟩
    rw [startAccept_sessions] at hs
    rcases List.mem_append.1 hs with hs | hs
    · exact hsessions s hs
    · obtain rfl := List.mem_singleton.1 hs
      exact ReadLoop.start sha1
  | reset haccepts e => exact ⟨fun _ => hopen, fun hf => by cases hf⟩
  | acceptError haccepts => exact ⟨fun _ => hopen, fun _ => hsessions⟩
  | session i e s s' hs he hstep =>
    refine ⟨fun _ => hopen, fun _ => forall_mem_set hsessions ?_⟩
    exact (hsessions s (List.mem_of_getElem? hs)).step hstep
  | lookup i j rand s p cache s' asks hs hp hres =>
    refine ⟨fun _ => hopen, fun _ => forall_mem_set hsessions ?_⟩
    have heff := HandlersAuth.challengeLookup_effect { s with spawned := s.spawned.eraseIdx j } p
      σ.cache σ.now rand
    rw [hres] at heff
    have hloop := hsessions s (List.mem_of_getElem? hs)
    exact readLoop_challenge heff ⟨hloop.reads_open, hloop.reads_le, hloop.registered, hloop.caught⟩
  | query k db rand q s cache s' hq hs hres =>
    refine ⟨fun _ => hopen, fun _ => forall_mem_set hsessions ?_⟩
    have heff := HandlersAuth.challengeQuery_effect s q.packet σ.cache σ.now db rand
    rw [hres] at heff
    exact readLoop_challenge heff (hsessions s (List.mem_of_getElem? hs))
  | tick ticks => exact ⟨fun _ => hopen, fun _ => hsessions⟩
  | cleanup => exact ⟨fun _ => hopen, fun _ => hsessions⟩
  | stop =>
    refine ⟨nofun, fun _ s hs => ?_⟩
    obtain ⟨t, ht, rfl⟩ := List.mem_map.1 hs
    exact readLoop_stop (hsessions t ht)

/-- A server whose sessions have the invariant is sound as soon as one accept is outstanding and
nothing was thrown. -/
lemma Healthy.sound {σ : Server} (hσ : Healthy σ) (haccepts : σ.accepts = 1)
    (hfault : σ.fault = none) : Sound σ := by
  refine ⟨haccepts, ?_, fun s hs => (hσ.sessions hfault s hs).caught, fun s hs => ?_⟩
  · rw [hfault]
    exact nofun
  · rw [(hσ.sessions hfault s hs).registered]
    simp

/-- **One step** of a sound server leads to a sound one exactly if it is not an accept that fails or
whose peer is gone. -/
lemma sound_step_iff {sha1 : Sha1} {σ σ' : Server} {e : ServerEvent} (hσ : Healthy σ)
    (hsound : Sound σ) (h : σ.step sha1 e = some σ') : Sound σ' ↔ AcceptsLive σ e := by
  have hhealthy := hσ.step h
  have hone := hsound.accepts
  obtain ⟨hnone, hrun⟩ := running_of_step h
  have hopen := hσ.acceptorOpen hrun
  cases step_transition h with
  | accepted haccepts =>
    refine iff_of_true (hhealthy.sound ?_ ?_) rfl
    · refine (startAccept_accepts (by exact hopen)).trans ?_
      change σ.accepts - 1 + 1 = 1
      omega
    · rw [startAccept_fault]
      exact hnone
  | reset haccepts e =>
    refine iff_of_false (fun hs => hs.caught e rfl) ?_
    simp [AcceptsLive]
  | acceptError haccepts =>
    refine iff_of_false (fun hs => ?_) fun hok => hok
    have hzero : σ.accepts - 1 = 1 := hs.accepts
    omega
  | session i e s s' hs he hstep => exact iff_of_true (hhealthy.sound hone hnone) trivial
  | lookup i j rand s p cache s' asks hs hp hres =>
    exact iff_of_true (hhealthy.sound hone hnone) trivial
  | query k db rand q s cache s' hq hs hres =>
    exact iff_of_true (hhealthy.sound hone hnone) trivial
  | tick ticks => exact iff_of_true (hhealthy.sound hone hnone) trivial
  | cleanup => exact iff_of_true (hhealthy.sound hone hnone) trivial
  | stop => exact iff_of_true (hhealthy.sound hone hnone) trivial

/-- **Accept loop and session registry.** In every run of a server it is always so that exactly one
`async_accept` is outstanding, no exception has left a completion handler and `sessions_` is the set
of the accepted sessions that are open, exactly if every accept that completes in the run succeeds
with a peer that is still connected. -/
theorem sound_iff_acceptsLive (sha1 : Sha1) (ttl : ℕ) (es : List ServerEvent) :
    Run.Always (step sha1) Sound (start ttl) es ↔
      Run.StepsMeet (step sha1) AcceptsLive (start ttl) es := by
  refine Run.always_iff_stepsMeet (I := Healthy) ?_ ?_ (healthy_start ttl)
    ((healthy_start ttl).sound rfl rfl) es
  · intro σ e σ' hσ hstep
    exact hσ.step hstep
  · intro σ e σ' hσ hsound hstep
    exact sound_step_iff hσ hsound hstep

/-- The first accept fails, because no file descriptor is left, say: no accept is outstanding after
it. And an accept whose peer is gone when the session starts lets an exception out of the handler,
with the session registered. -/
theorem accept_not_resumed :
    (∃ σ, Run.exec (step SRP6.sampleSha1) (start 300) [.acceptError] = some σ ∧ ¬ Sound σ ∧
      σ.accepts = 0) ∧
    ∃ σ, Run.exec (step SRP6.sampleSha1) (start 300) [.accepted false] = some σ ∧ ¬ Sound σ ∧
      (∃ e, σ.fault = some (.uncaught e)) ∧ ∃ s ∈ σ.sessions, s.registered = true := by
  constructor
  · refine ⟨_, rfl, fun hs => ?_, rfl⟩
    have hone := hs.accepts
    simp [start, startAccept] at hone
  · refine ⟨_, rfl, fun hs => hs.caught _ rfl, ⟨_, rfl⟩, newSession SRP6.sampleSha1, ?_, rfl⟩
    exact List.mem_append_right _ (List.mem_singleton_self _)

end Server

end Purity
