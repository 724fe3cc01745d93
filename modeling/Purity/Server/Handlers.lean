import Purity.Auth.Utf8
import Purity.Auth.AccountCache
import Purity.Server.Session

set_option relaxedAutoImplicit false
set_option autoImplicit false

/-!
# Packet handlers

`HandlersAuth` and `HandlersWork` take the packets the readers extract. `HandlersAuth` answers
pings, runs the two steps of the SRP login, and switches the session to `WORK_SESSION` when it
accepts a proof; `HandlersWork` answers pings and logs chat messages.

## Main definitions

* `Purity.HandlersAuth.dispatch`, `Purity.HandlersWork.dispatch` — the two opcode switches.
* `Purity.HandlersAuth.handleLogonChallenge` — the challenge coroutine, run in a `ChallengeEnv`:
  the cache it finds, the clock, the answer of the database and the random bytes drawn.
* `Purity.HandlersAuth.handleLogonProof` — the proof handler with the mode switch.

## Main results

* `Purity.dispatchPacket_of_throws`, `Purity.dispatchPacket_of_not_throws` — everything a dispatch
  can do: a ping without its four bytes throws, and otherwise only a proof with both fields changes
  the mode.
* `Purity.HandlersAuth.handleLogonChallenge_outcome` — everything a challenge can do, case by case.

## Implementation notes

A challenge is a coroutine started with `co_spawn`: `dispatch` only records it, and it runs as a
task of its own, at any later time (or at once). It works on the packet it was started with: in the
source it holds a reference to a packet on the stack of the reader, and that this packet lives until
the coroutine has read the name from it is assumed here. An exception of `read_string_nt_le` is
caught in the source, but that method has no throw.

`handle_ping` is the same code in both modes, up to the packet class and the opcode of the reply.
-/

namespace Purity

/-- `AuthStatusCode` -/
inductive AuthStatusCode where
  | authSuccess
  | authFailed
  deriving DecidableEq, Repr

/-- The underlying value of an `AuthStatusCode`. -/
def AuthStatusCode.toUInt8 : AuthStatusCode → UInt8
  | authSuccess => 0
  | authFailed => 1

/-- `AuthErrorCode` -/
inductive AuthErrorCode where
  | internalError
  | wrongUsername
  | wrongPassword
  | databaseBusy
  deriving DecidableEq, Repr

/-- The underlying value of an `AuthErrorCode`. -/
def AuthErrorCode.toUInt8 : AuthErrorCode → UInt8
  | internalError => 0
  | wrongUsername => 1
  | wrongPassword => 2
  | databaseBusy => 3

/-- The columns of an `AccountsRow` the login reads. -/
structure AccountsRow where
  salt : Option Bytes
  verifier : Option Bytes
  deriving DecidableEq, Repr

/-- What one run of the challenge coroutine finds: the account cache, the two clock readings its
`get` and `put` make, the outcome of the query, and the bytes `RAND_bytes` draws. -/
structure ChallengeEnv where
  cache : AccountCache
  getTime : ℕ
  putTime : ℕ
  db : Except Exn (Option AccountsRow)
  rand : Rand32

/-- The reply to a ping: the same number back. -/
def pong {ω : Type} (opcode : ω) (ping : UInt32) : PacketOf ω :=
  { opcode := opcode, buffer := ({} : ByteBuffer).writeUint32Le ping }

/-- The payload of the reply is the four bytes of the number. -/
lemma pong_eq {ω : Type} (opcode : ω) {ping : UInt32} {bytes : Bytes}
    (h : Endian.toLE 4 ping.toNat = bytes) :
    pong opcode ping = { opcode := opcode, buffer := { buffer := bytes } } := by
  subst h
  rfl

namespace HandlersAuth

open Utf8

/-- The `SMSG_AUTH_RESPONSE` packet with a status and an error code. -/
def authResponse (status : AuthStatusCode) (error : AuthErrorCode) : Packet :=
  .auth { opcode := AuthOpcodes.smsgAuthResponse
          buffer := (({} : ByteBuffer).writeUint8 status.toUInt8).writeUint8 error.toUInt8 }

/-- `handle_ping` -/
def handlePing (s : Session) (p : AuthPacket) : Except Exn Session := do
  let (ping, _) ← p.buffer.readUint32Le
  return s.sendPacket (.auth (pong AuthOpcodes.smsgPong ping))

/-- Steps 3 and 7 of the challenge: load the account into the `SRP6` object and draw the
ephemeral key. -/
def loadAccount (s : Session) (username salt verifier : Bytes) (rand : Rand32) : Session :=
  { s with
    srp := (s.srp.loadVerifier salt verifier).generateServerEphemeral rand
    loads := s.loads ++ [⟨username, salt, verifier, rand⟩] }

/-- The `SMSG_AUTH_LOGON_CHALLENGE` packet: `B`, `g`, `N` and the salt. -/
def challengeReply (srp : SRP6) (salt : Bytes) : Except Exn AuthPacket := do
  let B ← srp.getBBytes
  let N ← srp.getNBytes
  let buffer := ({} : ByteBuffer).writeBytes B
  let buffer := buffer.writeUint8 srp.getGenerator
  let buffer := buffer.writeBytes N
  let buffer := buffer.writeBytes salt
  return { opcode := AuthOpcodes.smsgAuthLogonChallenge, buffer := buffer }

/-- `handle_logon_challenge`, with the cache it leaves. -/
def handleLogonChallenge (s : Session) (p : AuthPacket) (env : ChallengeEnv) :
    AccountCache × Session :=
  let username := p.buffer.readStringNtLe.1
  if !isValidUtf8 username then
    (env.cache, s.sendPacket (authResponse .authFailed .wrongUsername))
  else
    let username := toUppercase username
    let s := { s with srp := s.srp.setOnlyUsername username }
    match env.cache.get username env.getTime with
    | (some cachedUser, cache) =>
      let s := loadAccount s username cachedUser.salt cachedUser.verifier env.rand
      -- outside the `try`: an exception here would end the detached coroutine without a reply
      match challengeReply s.srp cachedUser.salt with
      | .ok reply => (cache, s.sendPacket (.auth reply))
      | .error _ => (cache, s)
    | (none, cache) =>
      match env.db with
      | .error _ => (cache, s.sendPacket (authResponse .authFailed .databaseBusy))
      | .ok none => (cache, s.sendPacket (authResponse .authFailed .wrongUsername))
      | .ok (some user) =>
        match user.salt, user.verifier with
        | some salt, some verifier =>
          if salt.length ≠ 32 ∨ verifier.length ≠ 32 then
            (cache, s.sendPacket (authResponse .authFailed .wrongPassword))
          else
            let cache := cache.put username { salt, verifier } env.putTime
            let s := loadAccount s username salt verifier env.rand
            match challengeReply s.srp salt with
            | .ok reply => (cache, s.sendPacket (.auth reply))
            | .error _ => (cache, s.sendPacket (authResponse .authFailed .databaseBusy))
        | _, _ => (cache, s.sendPacket (authResponse .authFailed .wrongPassword))

/-- The two fields of a proof packet: 32 bytes of `A`, then 20 bytes of `M1`. -/
def readProof (p : AuthPacket) : Except Exn (Bytes × Bytes) := do
  let (A, buffer) ← p.buffer.readBytes 32
  let (M1, _) ← buffer.readBytes 20
  return (A, M1)

/-- `handle_logon_proof` -/
def handleLogonProof (sha1 : Sha1) (s : Session) (p : AuthPacket) : Session :=
  match readProof p with
  | .error _ => s.sendPacket (authResponse .authFailed .internalError)
  | .ok (A, M1) =>
    let (verified, M2) := SRP6.verifyClientProof sha1 A M1
    if !verified then s.sendPacket (authResponse .authFailed .wrongPassword)
    else
      let s := { s with sessionMode := .workSession, isAuth := true }
      s.sendPacket (.auth { opcode := AuthOpcodes.smsgAuthLogonProof
                            buffer := ({} : ByteBuffer).writeBytes M2 })

/-- `dispatch`. The packet of a challenge is assumed to live until the coroutine has read it. -/
def dispatch (sha1 : Sha1) (s : Session) (p : AuthPacket) : Except Exn Session :=
  if p.opcode = AuthOpcodes.cmsgPing then handlePing s p
  else if p.opcode = AuthOpcodes.cmsgAuthLogonChallenge then
    .ok { s with spawned := s.spawned ++ [p] }
  else if p.opcode = AuthOpcodes.cmsgAuthLogonProof then .ok (handleLogonProof sha1 s p)
  else .ok s

end HandlersAuth

namespace HandlersWork

/-- `handle_ping` -/
def handlePing (s : Session) (p : WorkPacket) : Except Exn Session := do
  let (ping, _) ← p.buffer.readUint32Le
  return s.sendPacket (.work (pong WorkOpcodes.smsgPong ping))

/-- `handle_message`: the text is logged. -/
def handleMessage (s : Session) (p : WorkPacket) : Session :=
  { s with messages := s.messages ++ [p.buffer.readStringNtLe.1] }

/-- `dispatch` -/
def dispatch (s : Session) (p : WorkPacket) : Except Exn Session :=
  if p.opcode = WorkOpcodes.cmsgPing then handlePing s p
  else if p.opcode = WorkOpcodes.cmsgMessage then .ok (handleMessage s p)
  else .ok s

end HandlersWork

/-! ## What the handlers do -/

namespace Packet

/-- The mode whose reader parses packets of this kind. -/
def mode : Packet → SessionMode
  | auth _ => .authSession
  | work _ => .workSession

/-- The payload buffer. -/
def buffer : Packet → ByteBuffer
  | auth p => p.buffer
  | work p => p.buffer

/-- The payload. -/
def payload (p : Packet) : Bytes := p.buffer.buffer

/-- A ping too short for its number: the handler throws. -/
def throws : Packet → Bool
  | auth p => p.opcode == AuthOpcodes.cmsgPing && decide (p.buffer.size < 4)
  | work p => p.opcode == WorkOpcodes.cmsgPing && decide (p.buffer.size < 4)

/-- A proof long enough for its two fields: the handler switches the mode. -/
def switches : Packet → Bool
  | auth p => p.opcode == AuthOpcodes.cmsgAuthLogonProof && decide (52 ≤ p.buffer.size)
  | work _ => false

/-- The answers a handler posts: the number of a ping, and to a proof the hash of its two fields or
an error if it is too short. -/
def answers (sha1 : Sha1) : Packet → List Packet
  | auth p =>
    if p.opcode = AuthOpcodes.cmsgPing then
      [auth { opcode := AuthOpcodes.smsgPong, buffer := { buffer := p.buffer.buffer.take 4 } }]
    else if p.opcode = AuthOpcodes.cmsgAuthLogonProof then
      if 52 ≤ p.buffer.size then
        [auth { opcode := AuthOpcodes.smsgAuthLogonProof
                buffer := { buffer := sha1.hash (p.buffer.buffer.take 52) } }]
      else [HandlersAuth.authResponse .authFailed .internalError]
    else []
  | work p =>
    if p.opcode = WorkOpcodes.cmsgPing then
      [work { opcode := WorkOpcodes.smsgPong, buffer := { buffer := p.buffer.buffer.take 4 } }]
    else []

/-- The challenge coroutine a packet starts, if any. -/
def spawns : Packet → List AuthPacket
  | auth p => if p.opcode = AuthOpcodes.cmsgAuthLogonChallenge then [p] else []
  | work _ => []

/-- The text a packet makes its handler log, if any. -/
def texts : Packet → List Bytes
  | auth _ => []
  | work p => if p.opcode = WorkOpcodes.cmsgMessage then [p.buffer.readStringNtLe.1] else []

/-- Only a proof switches the mode. -/
lemma switches_of_opcode_ne {p : AuthPacket} (h : p.opcode ≠ AuthOpcodes.cmsgAuthLogonProof) :
    (auth p).switches = false := by
  simp [switches, h]

end Packet

/-- The dispatch of a packet's own class. -/
def dispatchPacket (sha1 : Sha1) (s : Session) : Packet → Except Exn Session
  | .auth p => HandlersAuth.dispatch sha1 s p
  | .work p => HandlersWork.dispatch s p

/-- What dispatching `p` does to a session: nothing but the mode switch, a spawned challenge, the
answers posted and a logged message. -/
structure DispatchEffect (sha1 : Sha1) (s s' : Session) (p : Packet) : Prop where
  write : s'.toWriteState = s.toWriteState
  closed : s'.closed = s.closed
  registered : s'.registered = s.registered
  fault : s'.fault = s.fault
  readBuffer : s'.readBuffer = s.readBuffer
  reads : s'.reads = s.reads
  received : s'.received = s.received
  dispatched : s'.dispatched = s.dispatched
  messages : s'.messages = s.messages ++ p.texts
  srp : s'.srp = s.srp
  loads : s'.loads = s.loads
  mode : s'.sessionMode = if p.switches then .workSession else s.sessionMode
  isAuth : s'.isAuth = (p.switches || s.isAuth)
  spawned : s'.spawned = s.spawned ++ p.spawns
  posted : s.closed = false → s'.posted = s.posted ++ p.answers sha1
  replies : s.closed = false → s'.replies = s.replies ++ p.answers sha1

namespace HandlersAuth

/-- A proof packet with both fields. -/
lemma readProof_of_le {p : AuthPacket} (h0 : p.buffer.readPos = 0) (h : 52 ≤ p.buffer.size) :
    readProof p = .ok (p.buffer.buffer.take 32, (p.buffer.buffer.drop 32).take 20) := by
  have h₁ := ByteBuffer.readBytes_of_le (b := p.buffer) (n := 32) (by omega)
  have h₂ := ByteBuffer.readBytes_of_le (b := { p.buffer with readPos := 32 }) (n := 20)
    (by simpa [ByteBuffer.size] using h)
  simp only [h0, List.drop_zero, Nat.zero_add] at h₁
  simp only [readProof, h₁, bind, Except.bind, h₂]
  rfl

/-- A proof packet without them. -/
lemma readProof_of_lt {p : AuthPacket} (h0 : p.buffer.readPos = 0) (h : p.buffer.size < 52) :
    ∃ e, readProof p = .error e := by
  by_cases h32 : p.buffer.size < 32
  · obtain ⟨e, he⟩ := ByteBuffer.readBytes_of_lt (b := p.buffer) (n := 32) (by omega) (by omega)
    exact ⟨e, by simp only [readProof, he]; rfl⟩
  · have h₁ := ByteBuffer.readBytes_of_le (b := p.buffer) (n := 32) (by omega)
    obtain ⟨e, he⟩ := ByteBuffer.readBytes_of_lt (b := { p.buffer with readPos := 32 }) (n := 20)
      (by simpa [ByteBuffer.size] using h) (by simp)
    simp only [h0, Nat.zero_add] at h₁
    exact ⟨e, by simp only [readProof, h₁, bind, Except.bind, he]⟩

/-- The proof handler on a packet with both fields: whatever they hold, it switches the mode and
answers with the hash of the two. -/
lemma handleLogonProof_of_le (sha1 : Sha1) (s : Session) {p : AuthPacket}
    (h0 : p.buffer.readPos = 0) (h : 52 ≤ p.buffer.size) :
    handleLogonProof sha1 s p =
      ({ s with sessionMode := .workSession, isAuth := true } : Session).sendPacket
        (.auth { opcode := AuthOpcodes.smsgAuthLogonProof
                 buffer := { buffer := sha1.hash (p.buffer.buffer.take 52) } }) := by
  have htake : p.buffer.buffer.take 32 ++ (p.buffer.buffer.drop 32).take 20 =
      p.buffer.buffer.take 52 := List.take_add.symm
  simp only [handleLogonProof, readProof_of_le h0 h, SRP6.verifyClientProof, htake]
  rfl

/-- The proof handler on a packet without both fields answers with an error. -/
lemma handleLogonProof_of_lt (sha1 : Sha1) (s : Session) {p : AuthPacket}
    (h0 : p.buffer.readPos = 0) (h : p.buffer.size < 52) :
    handleLogonProof sha1 s p = s.sendPacket (authResponse .authFailed .internalError) := by
  obtain ⟨e, he⟩ := readProof_of_lt h0 h
  simp only [handleLogonProof, he]

end HandlersAuth

/-! ### Challenges -/

/-- The salt and verifier a challenge finds for a name: a live cache entry, or else a row with
both columns of 32 bytes. -/
def ChallengeEnv.account (env : ChallengeEnv) (username : Bytes) : Option (Bytes × Bytes) :=
  match (env.cache.get username env.getTime).1 with
  | some e => some (e.salt, e.verifier)
  | none =>
    match env.db with
    | .ok (some { salt := some salt, verifier := some verifier }) =>
      if salt.length = 32 ∧ verifier.length = 32 then some (salt, verifier) else none
    | _ => none

namespace HandlersAuth

open Utf8

/-- The name a challenge packet asks for. -/
def challengeName (p : AuthPacket) : Bytes := p.buffer.readStringNtLe.1

end HandlersAuth

/-- The name a challenge stores and looks up: the one in the packet, in upper case. -/
def accountName (p : AuthPacket) : Bytes := Utf8.toUppercase (HandlersAuth.challengeName p)

namespace HandlersAuth

open Utf8

/-- The session after a challenge stored its name. -/
def storeName (s : Session) (p : AuthPacket) : Session :=
  { s with srp := s.srp.setOnlyUsername (accountName p) }

/-- The session after a challenge stored its name and loaded the account it found. -/
def loadFound (s : Session) (p : AuthPacket) (salt verifier : Bytes) (rand : Rand32) : Session :=
  loadAccount (storeName s p) (accountName p) salt verifier rand

/-- How a challenge ends: the name is not valid UTF-8; no account is found for it; or one is found
and loaded, and then the reply is built, or it cannot be built. -/
inductive ChallengeOutcome (s : Session) (p : AuthPacket) (env : ChallengeEnv) :
    Session → Prop where
  | invalid (hvalid : isValidUtf8 (challengeName p) = false) :
    ChallengeOutcome s p env (s.sendPacket (authResponse .authFailed .wrongUsername))
  | notFound (error : AuthErrorCode) (hvalid : isValidUtf8 (challengeName p) = true)
    (hacc : env.account (accountName p) = none) :
    ChallengeOutcome s p env ((storeName s p).sendPacket (authResponse .authFailed error))
  | found (salt verifier : Bytes) (reply : AuthPacket)
    (hvalid : isValidUtf8 (challengeName p) = true)
    (hacc : env.account (accountName p) = some (salt, verifier))
    (hreply : challengeReply (loadFound s p salt verifier env.rand).srp salt = .ok reply) :
    ChallengeOutcome s p env ((loadFound s p salt verifier env.rand).sendPacket (.auth reply))
  | unanswered (salt verifier : Bytes) (e : Exn) (hvalid : isValidUtf8 (challengeName p) = true)
    (hacc : env.account (accountName p) = some (salt, verifier))
    (hreply : challengeReply (loadFound s p salt verifier env.rand).srp salt = .error e) :
    ChallengeOutcome s p env (loadFound s p salt verifier env.rand)
  | busy (salt verifier : Bytes) (e : Exn) (hvalid : isValidUtf8 (challengeName p) = true)
    (hacc : env.account (accountName p) = some (salt, verifier))
    (hreply : challengeReply (loadFound s p salt verifier env.rand).srp salt = .error e) :
    ChallengeOutcome s p env
      ((loadFound s p salt verifier env.rand).sendPacket (authResponse .authFailed .databaseBusy))

/-- **Everything a challenge can do.** The cache it leaves is well formed if the one it finds is:
the login only caches accounts whose salt and verifier it checked.

**Proof sketch.** One case for each way out of the coroutine. -/
lemma handleLogonChallenge_outcome (s : Session) (p : AuthPacket) (env : ChallengeEnv) :
    ChallengeOutcome s p env (handleLogonChallenge s p env).2 ∧
      (env.cache.WellFormed → (handleLogonChallenge s p env).1.WellFormed) := by
  cases hvalid : isValidUtf8 (challengeName p) with
  | false =>
    have hres : handleLogonChallenge s p env =
        (env.cache, s.sendPacket (authResponse .authFailed .wrongUsername)) := by
      unfold challengeName at hvalid
      simp only [handleLogonChallenge, hvalid, Bool.not_false, if_true]
    rw [hres]
    exact ⟨.invalid hvalid, fun h => h⟩
  | true =>
    have hname : isValidUtf8 p.buffer.readStringNtLe.1 = true := hvalid
    have hupper : toUppercase p.buffer.readStringNtLe.1 = accountName p := rfl
    have hstore : { s with srp := s.srp.setOnlyUsername (accountName p) } = storeName s p := rfl
    have hload : ∀ salt verifier, loadAccount (storeName s p) (accountName p) salt verifier
        env.rand = loadFound s p salt verifier env.rand := fun _ _ => rfl
    simp only [handleLogonChallenge, hname, Bool.not_true, Bool.false_eq_true, if_false, hupper,
      hstore, hload]
    rcases hget : env.cache.get (accountName p) env.getTime with ⟨_ | e, cache⟩
    · dsimp only
      have hcache : env.cache.WellFormed → cache.WellFormed := fun h => (h.get hget).1
      -- without a live entry the row decides
      have hnone : ∀ o, (match env.db with
          | .ok (some { salt := some salt, verifier := some verifier }) =>
            if salt.length = 32 ∧ verifier.length = 32 then some (salt, verifier) else none
          | _ => none) = o → env.account (accountName p) = o := by
        intro o ho
        rw [ChallengeEnv.account, hget]
        exact ho
      rcases hdb : env.db with ex | _ | ⟨_ | salt, _ | verifier⟩
      · exact ⟨.notFound .databaseBusy hvalid (hnone none (by rw [hdb])), hcache⟩
      · exact ⟨.notFound .wrongUsername hvalid (hnone none (by rw [hdb])), hcache⟩
      · exact ⟨.notFound .wrongPassword hvalid (hnone none (by rw [hdb])), hcache⟩
      · exact ⟨.notFound .wrongPassword hvalid (hnone none (by rw [hdb])), hcache⟩
      · exact ⟨.notFound .wrongPassword hvalid (hnone none (by rw [hdb])), hcache⟩
      by_cases hsizes : salt.length = 32 ∧ verifier.length = 32
      · have hgood : ¬ (salt.length ≠ 32 ∨ verifier.length ≠ 32) := by simp [hsizes]
        have hacc := hnone (some (salt, verifier)) (by rw [hdb]; exact if_pos hsizes)
        simp only [if_neg hgood]
        cases hreply : challengeReply (loadFound s p salt verifier env.rand).srp salt with
        | ok reply =>
          exact ⟨.found salt verifier reply hvalid hacc hreply, fun h => (hcache h).update _ hsizes⟩
        | error ex =>
          exact ⟨.busy salt verifier ex hvalid hacc hreply, fun h => (hcache h).update _ hsizes⟩
      · have hbad : salt.length ≠ 32 ∨ verifier.length ≠ 32 := not_and_or.1 hsizes
        simp only [if_pos hbad]
        exact ⟨.notFound .wrongPassword hvalid
          (hnone none (by rw [hdb]; exact if_neg hsizes)), hcache⟩
    · dsimp only
      have hcache : env.cache.WellFormed → cache.WellFormed := fun h => (h.get hget).1
      have hacc : env.account (accountName p) = some (e.salt, e.verifier) := by
        rw [ChallengeEnv.account, hget]
      cases hreply : challengeReply (loadFound s p e.salt e.verifier env.rand).srp e.salt with
      | ok reply =>
        exact ⟨.found e.salt e.verifier reply hvalid hacc hreply, hcache⟩
      | error ex =>
        exact ⟨.unanswered e.salt e.verifier ex hvalid hacc hreply, hcache⟩

/-- An account found with a well-formed cache has fields of 32 bytes. -/
lemma account_sizes {env : ChallengeEnv} {name salt verifier : Bytes} (h : env.cache.WellFormed)
    (hacc : env.account name = some (salt, verifier)) :
    salt.length = 32 ∧ verifier.length = 32 := by
  unfold ChallengeEnv.account at hacc
  rcases hget : env.cache.get name env.getTime with ⟨_ | e, cache⟩
  · rw [hget] at hacc
    dsimp only at hacc
    split at hacc
    · split_ifs at hacc with hsizes
      cases hacc
      exact hsizes
    · cases hacc
  · rw [hget] at hacc
    cases hacc
    exact (h.get hget).2 e rfl

/-- With the built-in modulus the reply to a challenge can always be built: `B` and `N` fit. -/
lemma challengeReply_ok {srp : SRP6} (hN : srp.N = SRP6.modulus) (salt verifier : Bytes)
    (rand : Rand32) :
    ∃ reply, challengeReply ((srp.loadVerifier salt verifier).generateServerEphemeral rand) salt =
        .ok reply ∧ reply.opcode = AuthOpcodes.smsgAuthLogonChallenge := by
  have hpos : 0 < SRP6.modulus := by decide
  obtain ⟨B, hB, -⟩ := SRP6.padBytesLeft_mod
    (n := srp.k * Endian.ofBE verifier % SRP6.modulus +
      bnModExp srp.g (Endian.ofBE rand.1) SRP6.modulus) hpos SRP6.modulus_lt.le
  obtain ⟨N, hN', -⟩ := SRP6.padBytesLeft_bnToBin SRP6.modulus_lt
  refine ⟨{ opcode := AuthOpcodes.smsgAuthLogonChallenge
            buffer := (((({} : ByteBuffer).writeBytes B).writeUint8
              (UInt8.ofNat srp.g)).writeBytes N).writeBytes salt }, ?_, rfl⟩
  simp only [challengeReply, SRP6.getBBytes, SRP6.getNBytes, SRP6.generateServerEphemeral,
    SRP6.loadVerifier, SRP6.getGenerator, hN, hB, hN', bind, Except.bind]
  rfl

/-- What a challenge leaves alone: everything but the `SRP6` object, the record of loads and what
it posts. -/
structure ChallengeEffect (s s' : Session) : Prop where
  read : s'.toReadState = s.toReadState
  write : s'.toWriteState = s.toWriteState
  closed : s'.closed = s.closed
  registered : s'.registered = s.registered
  fault : s'.fault = s.fault
  mode : s'.sessionMode = s.sessionMode
  isAuth : s'.isAuth = s.isAuth
  spawned : s'.spawned = s.spawned
  modulus : s'.srp.N = s.srp.N
  generator : s'.srp.g = s.srp.g
  multiplier : s'.srp.k = s.srp.k
  replies : s.replies <+: s'.replies

namespace ChallengeEffect

/-- Doing nothing has such an effect. -/
lemma refl (s : Session) : ChallengeEffect s s :=
  ⟨rfl, rfl, rfl, rfl, rfl, rfl, rfl, rfl, rfl, rfl, rfl, List.prefix_rfl⟩

/-- Storing the name has such an effect. -/
lemma setOnlyUsername (s : Session) (username : Bytes) :
    ChallengeEffect s { s with srp := s.srp.setOnlyUsername username } :=
  ⟨rfl, rfl, rfl, rfl, rfl, rfl, rfl, rfl, rfl, rfl, rfl, List.prefix_rfl⟩

/-- So has loading an account after it. -/
lemma loadAccount {s t : Session} (h : ChallengeEffect s t) (username salt verifier : Bytes)
    (rand : Rand32) : ChallengeEffect s (loadAccount t username salt verifier rand) :=
  ⟨h.read, h.write, h.closed, h.registered, h.fault, h.mode, h.isAuth, h.spawned, h.modulus,
    h.generator, h.multiplier, h.replies⟩

/-- And sending a reply after it. -/
lemma sendPacket {s t : Session} (h : ChallengeEffect s t) (reply : Packet) :
    ChallengeEffect s (t.sendPacket reply) := by
  have hrep := h.replies.trans (Session.replies_prefix_sendPacket t reply)
  refine ⟨?_, ?_, ?_, ?_, ?_, ?_, ?_, ?_, ?_, ?_, ?_, hrep⟩
  all_goals simp [h.read, h.write, h.closed, h.registered, h.fault, h.mode, h.isAuth, h.spawned,
    h.modulus, h.generator, h.multiplier]

end ChallengeEffect

/-- A challenge has such an effect, however it ends. -/
lemma ChallengeOutcome.effect {s s' : Session} {p : AuthPacket} {env : ChallengeEnv}
    (h : ChallengeOutcome s p env s') : ChallengeEffect s s' := by
  have hname : ChallengeEffect s (storeName s p) := .setOnlyUsername s (accountName p)
  have hload : ∀ salt verifier rand, ChallengeEffect s (loadFound s p salt verifier rand) :=
    fun salt verifier rand => hname.loadAccount _ salt verifier rand
  cases h with
  | invalid hvalid => exact (ChallengeEffect.refl s).sendPacket _
  | notFound error hvalid hacc => exact hname.sendPacket _
  | found salt verifier reply hvalid hacc hreply =>
    exact (hload salt verifier env.rand).sendPacket _
  | unanswered salt verifier e hvalid hacc hreply => exact hload salt verifier env.rand
  | busy salt verifier e hvalid hacc hreply => exact (hload salt verifier env.rand).sendPacket _

/-- What running a challenge leaves alone. -/
lemma handleLogonChallenge_effect (s : Session) (p : AuthPacket) (env : ChallengeEnv) :
    ChallengeEffect s (handleLogonChallenge s p env).2 :=
  (handleLogonChallenge_outcome s p env).1.effect

/-- The reply to a challenge has 65 bytes and the salt. -/
lemma challengeReply_size {srp : SRP6} {salt : Bytes} {reply : AuthPacket}
    (h : challengeReply srp salt = .ok reply) :
    reply.opcode = AuthOpcodes.smsgAuthLogonChallenge ∧ reply.buffer.readPos = 0 ∧
      reply.buffer.buffer.length = 65 + salt.length := by
  cases hB : srp.getBBytes with
  | error e => simp [challengeReply, hB, bind, Except.bind] at h
  | ok B =>
    cases hN : srp.getNBytes with
    | error e => simp [challengeReply, hB, hN, bind, Except.bind] at h
    | ok N =>
      simp only [challengeReply, hB, hN, bind, Except.bind] at h
      cases h
      have hBlen := length_padBytesLeft hB
      have hNlen := length_padBytesLeft hN
      refine ⟨rfl, rfl, ?_⟩
      have hsize : ∀ g : UInt8, ((B ++ [g]) ++ N ++ salt).length = 65 + salt.length := by
        intro g
        simp only [List.length_append, List.length_singleton, hBlen, hNlen]
      exact hsize _

end HandlersAuth

/-! ### Dispatch -/

/-- Posting the one answer is a dispatch effect of a packet that does nothing else. -/
lemma dispatchEffect_sendPacket (sha1 : Sha1) (s : Session) {reply p : Packet}
    (hsw : p.switches = false) (hspawn : p.spawns = []) (htexts : p.texts = [])
    (hans : p.answers sha1 = [reply]) : DispatchEffect sha1 s (s.sendPacket reply) p := by
  constructor <;> simp +contextual [hsw, hspawn, htexts, hans]

/-- Doing nothing is a dispatch effect of a packet without an answer. -/
lemma dispatchEffect_refl (sha1 : Sha1) (s : Session) {p : Packet} (hsw : p.switches = false)
    (hspawn : p.spawns = []) (htexts : p.texts = []) (hans : p.answers sha1 = []) :
    DispatchEffect sha1 s s p := by
  constructor <;> simp [hsw, hspawn, htexts, hans]

/-- A short ping makes its handler throw. -/
lemma dispatchPacket_of_throws (sha1 : Sha1) (s : Session) {p : Packet}
    (h0 : p.buffer.readPos = 0) (h : p.throws = true) :
    ∃ e, dispatchPacket sha1 s p = .error e := by
  cases p with
  | auth p =>
    obtain ⟨hop, hsize⟩ : p.opcode = AuthOpcodes.cmsgPing ∧ p.buffer.size < 4 := by
      simpa [Packet.throws] using h
    obtain ⟨e, he⟩ := ByteBuffer.readUint32Le_of_lt h0 hsize
    refine ⟨e, ?_⟩
    simp only [dispatchPacket, HandlersAuth.dispatch, if_pos hop, HandlersAuth.handlePing]
    rw [show p.buffer.readUint32Le = .error e from he]
    rfl
  | work p =>
    obtain ⟨hop, hsize⟩ : p.opcode = WorkOpcodes.cmsgPing ∧ p.buffer.size < 4 := by
      simpa [Packet.throws] using h
    obtain ⟨e, he⟩ := ByteBuffer.readUint32Le_of_lt h0 hsize
    refine ⟨e, ?_⟩
    simp only [dispatchPacket, HandlersWork.dispatch, if_pos hop, HandlersWork.handlePing]
    rw [show p.buffer.readUint32Le = .error e from he]
    rfl

/-- **Everything a dispatch can do** to the state, when no handler throws.

**Proof sketch.** One case for each opcode the two switches name. Only a proof with both fields
changes the mode. -/
lemma dispatchPacket_of_not_throws (sha1 : Sha1) (s : Session) {p : Packet}
    (h0 : p.buffer.readPos = 0) (h : p.throws = false) :
    ∃ s', dispatchPacket sha1 s p = .ok s' ∧ DispatchEffect sha1 s s' p := by
  cases p with
  | auth p =>
    have htexts : (Packet.auth p).texts = [] := rfl
    simp only [dispatchPacket, HandlersAuth.dispatch]
    by_cases hping : p.opcode = AuthOpcodes.cmsgPing
    · have hsize : 4 ≤ p.buffer.size := by
        simpa [Packet.throws, hping] using h
      have hsw := Packet.switches_of_opcode_ne (p := p) (by rw [hping]; decide)
      obtain ⟨v, b', hv, hbytes⟩ := ByteBuffer.readUint32Le_of_le (b := p.buffer) h0 hsize
      rw [if_pos hping, HandlersAuth.handlePing, hv]
      refine ⟨_, rfl, dispatchEffect_sendPacket sha1 s hsw ?_ htexts ?_⟩
      · simp only [Packet.spawns, hping]; rfl
      · simp only [Packet.answers, if_pos hping, pong_eq AuthOpcodes.smsgPong hbytes]
    rw [if_neg hping]
    by_cases hchal : p.opcode = AuthOpcodes.cmsgAuthLogonChallenge
    · have hsw := Packet.switches_of_opcode_ne (p := p) (by rw [hchal]; decide)
      have hspawn : (Packet.auth p).spawns = [p] := if_pos hchal
      have hans : (Packet.auth p).answers sha1 = [] := by
        simp only [Packet.answers, if_neg hping]
        rw [if_neg (by rw [hchal]; decide)]
      rw [if_pos hchal]
      exact ⟨_, rfl, by constructor <;> simp [hsw, hspawn, htexts, hans]⟩
    rw [if_neg hchal]
    have hspawn : (Packet.auth p).spawns = [] := if_neg hchal
    by_cases hproof : p.opcode = AuthOpcodes.cmsgAuthLogonProof
    · rw [if_pos hproof]
      refine ⟨_, rfl, ?_⟩
      by_cases hsize : 52 ≤ p.buffer.size
      · have hsw : (Packet.auth p).switches = true := by simp [Packet.switches, hproof, hsize]
        have hans : (Packet.auth p).answers sha1 = [.auth
            { opcode := AuthOpcodes.smsgAuthLogonProof
              buffer := { buffer := sha1.hash (p.buffer.buffer.take 52) } }] := by
          simp only [Packet.answers, if_neg hping, if_pos hproof, if_pos hsize]
        rw [HandlersAuth.handleLogonProof_of_le sha1 s h0 hsize]
        constructor <;> simp +contextual [hsw, hspawn, htexts, hans]
      · have hsw : (Packet.auth p).switches = false := by simp [Packet.switches, hsize]
        rw [HandlersAuth.handleLogonProof_of_lt sha1 s h0 (not_le.1 hsize)]
        refine dispatchEffect_sendPacket sha1 s hsw hspawn htexts ?_
        simp only [Packet.answers, if_neg hping, if_pos hproof, if_neg hsize]
    · have hsw := Packet.switches_of_opcode_ne hproof
      rw [if_neg hproof]
      refine ⟨_, rfl, dispatchEffect_refl sha1 s hsw hspawn htexts ?_⟩
      simp only [Packet.answers, if_neg hping, if_neg hproof]
  | work p =>
    have hsw : (Packet.work p).switches = false := rfl
    have hspawn : (Packet.work p).spawns = [] := rfl
    simp only [dispatchPacket, HandlersWork.dispatch]
    by_cases hping : p.opcode = WorkOpcodes.cmsgPing
    · have hsize : 4 ≤ p.buffer.size := by
        simpa [Packet.throws, hping] using h
      obtain ⟨v, b', hv, hbytes⟩ := ByteBuffer.readUint32Le_of_le (b := p.buffer) h0 hsize
      have htexts : (Packet.work p).texts = [] := if_neg (by rw [hping]; decide)
      rw [if_pos hping, HandlersWork.handlePing, hv]
      refine ⟨_, rfl, dispatchEffect_sendPacket sha1 s hsw hspawn htexts ?_⟩
      simp only [Packet.answers, if_pos hping, pong_eq WorkOpcodes.smsgPong hbytes]
    rw [if_neg hping]
    have hans : (Packet.work p).answers sha1 = [] := if_neg hping
    by_cases hmsg : p.opcode = WorkOpcodes.cmsgMessage
    · have htexts : (Packet.work p).texts = [p.buffer.readStringNtLe.1] := if_pos hmsg
      rw [if_pos hmsg]
      refine ⟨_, rfl, ?_⟩
      constructor <;> simp [hsw, hspawn, htexts, hans, HandlersWork.handleMessage]
    · have htexts : (Packet.work p).texts = [] := if_neg hmsg
      rw [if_neg hmsg]
      exact ⟨_, rfl, dispatchEffect_refl sha1 s hsw hspawn htexts hans⟩

end Purity
