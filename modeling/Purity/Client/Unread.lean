import Purity.Client.Effect

set_option relaxedAutoImplicit false
set_option autoImplicit false

/-!
# What a client does not read

No method of a client reads the history that the model keeps, nor the password that
`set_credentials` stores: `compute_M1` hashes `A`, `B` and the salt. So a client with more history,
or with another password, does the same step for step.

## Main definitions

* `Purity.Client.Unread` — what is put before the history of a client and done to its password.
* `Purity.Client.recast` — a client with such a history and password.

## Main results

* `Purity.Client.step_recast` — a step of a client does not look at them.
-/

namespace Purity

namespace Client

/-- What is put before the history of a client, and what is done to its password. -/
structure Unread where
  sent : List Packet := []
  started : List Bytes := []
  popped : List Bytes := []
  received : Bytes := []
  connections : ℕ := 0
  password : Bytes → Bytes := id

/-- A client with the history of `u` before its own, and with the password changed by `u`. -/
def recast (u : Unread) (c : Client) : Client :=
  { c with
    sent := u.sent ++ c.sent
    started := u.started ++ c.started
    popped := u.popped ++ c.popped
    received := u.received ++ c.received
    connections := c.connections + u.connections
    srp := { c.srp with password := u.password c.srp.password } }

end Client

/-- An event with the password given changed. -/
def ClientEvent.recast (u : Client.Unread) : ClientEvent → ClientEvent
  | .logonChallenge username password => .logonChallenge username (u.password password)
  | e => e

namespace Client

section Methods

variable (u : Unread) (c : Client)

/-- `flush_queue` looks at neither the history nor the password. -/
lemma flushQueue_recast : (c.recast u).flushQueue = c.flushQueue.recast u := by
  have hconn : (c.recast u).connected = c.connected := rfl
  have hqueue : (c.recast u).outgoingQueue = c.outgoingQueue := rfl
  unfold flushQueue
  rw [hconn, hqueue]
  split_ifs
  · rfl
  · cases c.outgoingQueue with
    | nil => rfl
    | cons front rest => simp [recast]

/-- Neither does `send_packet_impl`. -/
lemma sendPacketImpl_recast (fullPacket : Bytes) :
    (c.recast u).sendPacketImpl fullPacket = (c.sendPacketImpl fullPacket).recast u := by
  have hpush : { c.recast u with outgoingQueue := (c.recast u).outgoingQueue ++ [fullPacket] } =
      recast u { c with outgoingQueue := c.outgoingQueue ++ [fullPacket] } := rfl
  unfold sendPacketImpl
  rw [hpush]
  generalize { c with outgoingQueue := c.outgoingQueue ++ [fullPacket] } = d
  have hconn : (d.recast u).connected = d.connected := rfl
  have hqueue : (d.recast u).outgoingQueue = d.outgoingQueue := rfl
  dsimp only
  rw [hconn, hqueue]
  split_ifs
  · rfl
  · exact flushQueue_recast u d
  · rfl

/-- Nor `send_packet`. -/
lemma sendPacket_recast (p : Packet) : (c.recast u).sendPacket p = (c.sendPacket p).recast u := by
  have hsent : { c.recast u with sent := (c.recast u).sent ++ [p] } =
      recast u { c with sent := c.sent ++ [p] } := by
    simp [recast]
  unfold sendPacket
  rw [hsent]
  exact sendPacketImpl_recast u { c with sent := c.sent ++ [p] } p.buildPacket

/-- Nor the action posted by `disconnect`. -/
lemma runDisconnect_recast : (c.recast u).runDisconnect = c.runDisconnect.recast u := by
  have hopen : (c.recast u).socketOpen = c.socketOpen := rfl
  simp only [runDisconnect, hopen]
  split_ifs <;> rfl

/-- Nor the completion of an `async_write`. -/
lemma writeHandler_recast : (c.recast u).writeHandler = c.writeHandler.recast u := by
  have hqueue : (c.recast u).outgoingQueue = c.outgoingQueue := rfl
  unfold writeHandler
  rw [hqueue]
  cases c.outgoingQueue with
  | nil => rfl
  | cons front rest =>
    have hpop : { c.recast u with
          outgoingQueue := rest
          popped := (c.recast u).popped ++ [front] } =
        recast u { c with outgoingQueue := rest, popped := c.popped ++ [front] } := by
      simp [recast]
    dsimp only
    rw [hpop]
    exact flushQueue_recast u _

/-- Nor that of an `async_connect`. -/
lemma connectHandler_recast : (c.recast u).connectHandler = c.connectHandler.recast u := by
  have hconn : { c.recast u with
        connected := true
        connections := (c.recast u).connections + 1 } =
      recast u { c with connected := true, connections := c.connections + 1 } := by
    simp [recast, Nat.add_right_comm]
  unfold connectHandler
  dsimp only
  rw [hconn]
  exact congrArg startHeartbeat (flushQueue_recast u
    (startReceiveLoop { c with connected := true, connections := c.connections + 1 }))

/-- Nor the heartbeat. -/
lemma heartbeatHandler_recast (aborted : Bool) (pingId : UInt32) :
    (c.recast u).heartbeatHandler aborted pingId =
      (c.heartbeatHandler aborted pingId).recast u := by
  have hconn : (c.recast u).connected = c.connected := rfl
  unfold heartbeatHandler
  rw [hconn]
  split_ifs
  · exact congrArg startHeartbeat (sendPacket_recast u c (pingPacket c.sessionMode pingId))
  · rfl

end Methods

section Receive

variable (u : Unread) (sha1 : Sha1) (c : Client) (rand : Rand32)

/-- The answer to a challenge depends on neither. -/
lemma handleChallenge_recast (p : AuthPacket) :
    handleChallenge sha1 (c.recast u) p rand = (handleChallenge sha1 c p rand).recast u := by
  unfold handleChallenge
  cases readChallenge p with
  | error e => rfl
  | ok fields =>
    obtain ⟨B, g, N, salt⟩ := fields
    have hsrp : (((c.recast u).srp.loadConstants sha1 N g).loadSalt salt).generateClientEphemeral
          rand =
        { ((c.srp.loadConstants sha1 N g).loadSalt salt).generateClientEphemeral rand with
          password := u.password c.srp.password } := rfl
    have hpassword : (((c.srp.loadConstants sha1 N g).loadSalt salt).generateClientEphemeral
        rand).password = c.srp.password := rfl
    dsimp only
    rw [hsrp, ← hpassword]
    generalize ((c.srp.loadConstants sha1 N g).loadSalt salt).generateClientEphemeral rand = srp
    have hbytes : SRP6.getABytes { srp with password := u.password srp.password } =
        srp.getABytes := rfl
    rw [hbytes]
    cases hA : srp.getABytes with
    | error e => rfl
    | ok A =>
      rw [SRP6.computeM1_eq sha1 hA, SRP6.computeM1_eq sha1 (hbytes.trans hA)]
      exact sendPacket_recast u
        { c with srp := { srp with lastM1 := sha1.hash (A ++ B ++ srp.salt) } } _

/-- Neither does what a client does with a packet. -/
lemma handlePacketAuth_recast (p : AuthPacket) :
    handlePacketAuth sha1 (c.recast u) p rand =
      (handlePacketAuth sha1 c p rand).map (recast u) := by
  simp only [handlePacketAuth]
  split_ifs
  · rfl
  · exact congrArg Except.ok (handleChallenge_recast u sha1 c rand p)
  · cases p.buffer.readBytes 20 with
    | error e => rfl
    | ok r =>
      have hver : (c.recast u).srp.verifyServerProof sha1 (c.recast u).srp.lastM1 r.1 =
          c.srp.verifyServerProof sha1 c.srp.lastM1 r.1 := rfl
      simp only [bind, Except.bind, hver]
      cases c.srp.verifyServerProof sha1 c.srp.lastM1 r.1 with
      | error e => rfl
      | ok ok => cases ok <;> rfl
  · cases p.buffer.readUint8 with
    | error e => rfl
    | ok r =>
      simp only [bind, Except.bind]
      cases r.2.readUint8 <;> rfl
  · rfl

/-- Nor with a raw packet. -/
lemma handleRaw_recast (mode : SessionMode) (raw : Bytes) :
    (c.recast u).handleRaw sha1 mode raw rand = (c.handleRaw sha1 mode raw rand).recast u := by
  unfold handleRaw
  cases mode with
  | authSession =>
    dsimp only
    cases AuthPacket.deserialize { opcode := AuthOpcodes.emptyStage } raw with
    | mk res p =>
      cases res with
      | error e => rfl
      | ok v =>
        dsimp only
        rw [handlePacketAuth_recast]
        cases handlePacketAuth sha1 c p rand <;> rfl
  | workSession =>
    dsimp only
    cases WorkPacket.deserialize { opcode := WorkOpcodes.emptyStage } raw with
    | mk res p => cases res <;> rfl

/-- Nor with a read. -/
lemma readHandler_recast (op : ReadOp) (bytes : Bytes) :
    (c.recast u).readHandler sha1 op bytes rand =
      (c.readHandler sha1 op bytes rand).recast u := by
  unfold readHandler
  cases op with
  | header mode =>
    dsimp only
    split_ifs
    · rfl
    · exact congrArg startReceiveLoop (handleRaw_recast u sha1 c rand mode bytes)
    · rfl
  | payload mode header length =>
    exact congrArg startReceiveLoop (handleRaw_recast u sha1 c rand mode (header ++ bytes))

end Receive

/-- **A step of a client** looks at neither the history nor the password: with another one the
client does the same. -/
lemma step_recast (u : Unread) (sha1 : Sha1) (c : Client) (e : ClientEvent) :
    (c.recast u).step sha1 (e.recast u) = (c.step sha1 e).map (recast u) := by
  have hfault : (c.recast u).fault = c.fault := rfl
  unfold Client.step
  rw [hfault]
  by_cases hf : c.fault.isSome = true
  · rw [if_pos hf, if_pos hf]
    rfl
  rw [if_neg hf, if_neg hf]
  cases e with
  | connect => rfl
  | disconnect => rfl
  | sendMessage msg =>
    have hmode : (c.recast u).sessionMode = c.sessionMode := rfl
    simp only [ClientEvent.recast, sendMessage, hmode]
    cases c.sessionMode with
    | authSession => rfl
    | workSession => exact congrArg some (sendPacket_recast u c (messagePacket msg))
  | logonChallenge username password =>
    exact congrArg some (sendPacket_recast u
      { c with srp := c.srp.setCredentials username password } (challengePacket username))
  | runDisconnect =>
    have hposted : (c.recast u).disconnects = c.disconnects := rfl
    simp only [ClientEvent.recast, hposted]
    split_ifs
    · exact congrArg some (runDisconnect_recast u c)
    · rfl
  | connectDone i =>
    have hconnects : (c.recast u).connects = c.connects := rfl
    simp only [ClientEvent.recast, hconnects]
    split_ifs
    · exact congrArg some (connectHandler_recast u { c with connects := c.connects.eraseIdx i })
    · rfl
  | connectError i =>
    have hconnects : (c.recast u).connects = c.connects := rfl
    simp only [ClientEvent.recast, hconnects]
    cases c.connects[i]? <;> rfl
  | reconnect i =>
    have hwaits : (c.recast u).reconnectWaits = c.reconnectWaits := rfl
    simp only [ClientEvent.recast, hwaits]
    cases c.reconnectWaits[i]? <;> rfl
  | heartbeat i pingId =>
    have hwaits : (c.recast u).heartbeatWaits = c.heartbeatWaits := rfl
    simp only [ClientEvent.recast, hwaits]
    cases c.heartbeatWaits[i]? with
    | none => rfl
    | some w =>
      exact congrArg some (heartbeatHandler_recast u
        { c with heartbeatWaits := c.heartbeatWaits.eraseIdx i } w.aborted pingId)
  | writeDone i =>
    have hwrites : (c.recast u).writes = c.writes := rfl
    simp only [ClientEvent.recast, hwrites]
    cases c.writes[i]? with
    | none => rfl
    | some w =>
      cases hw : w.aborted with
      | true => simp [hw]
      | false =>
        simp only [Option.bind_some, hw, Bool.false_eq_true, if_false]
        exact congrArg some (writeHandler_recast u { c with writes := c.writes.eraseIdx i })
  | writeError i =>
    have hwrites : (c.recast u).writes = c.writes := rfl
    simp only [ClientEvent.recast, hwrites]
    cases c.writes[i]? <;> rfl
  | readDone i bytes rand =>
    have hreads : (c.recast u).reads = c.reads := rfl
    simp only [ClientEvent.recast, hreads]
    cases c.reads[i]? with
    | none => rfl
    | some p =>
      by_cases hbad : p.aborted = true ∨ bytes.length ≠ p.op.size
      · simp only [Option.bind_some, if_pos hbad, Option.map_none]
      · have hread : { c.recast u with
              reads := c.reads.eraseIdx i
              received := (c.recast u).received ++ bytes } =
            recast u { c with reads := c.reads.eraseIdx i, received := c.received ++ bytes } := by
          simp [recast]
        simp only [Option.bind_some, if_neg hbad]
        exact congrArg some ((congrArg (fun d => readHandler sha1 d p.op bytes rand) hread).trans
          (readHandler_recast u sha1 _ rand p.op bytes))
  | readError i =>
    have hreads : (c.recast u).reads = c.reads := rfl
    simp only [ClientEvent.recast, hreads]
    cases c.reads[i]? <;> rfl

end Client

end Purity
