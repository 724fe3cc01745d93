import Mathlib.Data.List.InsertIdx
import Purity.Client.Client

set_option relaxedAutoImplicit false
set_option autoImplicit false

/-!
# What a client step does

What a transition of a client does to the sender and the mode, and what it does to the receive loop.

## Main definitions

* `Purity.SendsBy` — the packets an event can make the client send, with what it must have read.
* `Purity.SendEffect`, `Purity.ReceiveEffect` — the effects on the two parts.
* `Purity.Client.Unconnected` — a client before its first connection.

## Main results

* `Purity.Client.step_send`, `Purity.Client.step_receive` — every step has these effects.
-/

namespace Purity

/-! ## What the methods leave alone -/

namespace Client

section Frame

variable (c : Client)

/-- Aborting a read does not change what it reads. -/
@[simp] lemma map_op_abortAll {α : Type} (ops : List (Pending α)) :
    (abortAll ops).map (·.op) = ops.map (·.op) := by
  simp [abortAll]

@[simp] lemma flushQueue_toClientReceiver :
    c.flushQueue.toClientReceiver = c.toClientReceiver := by
  unfold flushQueue; split_ifs
  · rfl
  · split <;> rfl

@[simp] lemma flushQueue_connected : c.flushQueue.connected = c.connected := by
  unfold flushQueue; split_ifs
  · rfl
  · split <;> rfl

@[simp] lemma flushQueue_sessionMode : c.flushQueue.sessionMode = c.sessionMode := by
  unfold flushQueue; split_ifs
  · rfl
  · split <;> rfl

@[simp] lemma flushQueue_connections : c.flushQueue.connections = c.connections := by
  unfold flushQueue; split_ifs
  · rfl
  · split <;> rfl

variable (p : Packet)

@[simp] lemma sendPacket_toClientReceiver :
    (c.sendPacket p).toClientReceiver = c.toClientReceiver := by
  unfold sendPacket sendPacketImpl; dsimp only; split_ifs <;> simp

@[simp] lemma sendPacket_connected : (c.sendPacket p).connected = c.connected := by
  unfold sendPacket sendPacketImpl; dsimp only; split_ifs <;> simp

@[simp] lemma sendPacket_sessionMode : (c.sendPacket p).sessionMode = c.sessionMode := by
  unfold sendPacket sendPacketImpl; dsimp only; split_ifs <;> simp

@[simp] lemma sendPacket_connections : (c.sendPacket p).connections = c.connections := by
  unfold sendPacket sendPacketImpl; dsimp only; split_ifs <;> simp

/-- `flush_queue` starts a write of the front, if there is one and the client is connected. -/
@[simp] lemma flushQueue_started :
    c.flushQueue.started = c.started ++ if c.connected then c.outgoingQueue.take 1 else [] := by
  unfold flushQueue
  cases hconn : c.connected with
  | false => simp
  | true =>
    cases hq : c.outgoingQueue with
    | nil => simp
    | cons front rest => simp

@[simp] lemma flushQueue_sent : c.flushQueue.sent = c.sent := by
  unfold flushQueue; split_ifs
  · rfl
  · split <;> rfl

@[simp] lemma flushQueue_outgoingQueue : c.flushQueue.outgoingQueue = c.outgoingQueue := by
  unfold flushQueue; split_ifs
  · rfl
  · split <;> simp_all

@[simp] lemma flushQueue_popped : c.flushQueue.popped = c.popped := by
  unfold flushQueue; split_ifs
  · rfl
  · split <;> rfl

@[simp] lemma sendPacket_sent : (c.sendPacket p).sent = c.sent ++ [p] := by
  unfold sendPacket sendPacketImpl; dsimp only; split_ifs <;> simp

@[simp] lemma sendPacket_outgoingQueue :
    (c.sendPacket p).outgoingQueue = c.outgoingQueue ++ [p.buildPacket] := by
  unfold sendPacket sendPacketImpl; dsimp only; split_ifs <;> simp

@[simp] lemma sendPacket_popped : (c.sendPacket p).popped = c.popped := by
  unfold sendPacket sendPacketImpl; dsimp only; split_ifs <;> simp

/-- `send_packet` starts a write if the client is connected and the queue was empty. -/
lemma sendPacket_started : (c.sendPacket p).started =
    c.started ++ if c.connected ∧ c.outgoingQueue = [] then [p.buildPacket] else [] := by
  unfold sendPacket sendPacketImpl
  dsimp only
  cases hconn : c.connected with
  | false => simp
  | true =>
    cases hq : c.outgoingQueue with
    | nil => simp
    | cons front rest => simp

end Frame

end Client

/-! ## Sending -/

/-- The packets an event can make a client send: a ping in the current mode, a message in
`WORK_SESSION`, a challenge, and a proof in answer to a `SMSG_AUTH_LOGON_CHALLENGE`. -/
inductive SendsBy (c : Client) : ClientEvent → Packet → Prop where
  | ping (i : ℕ) (pingId : UInt32) (w : Pending Unit) (hwait : c.heartbeatWaits[i]? = some w)
    (hfired : w.aborted = false) (hconn : c.connected = true) :
    SendsBy c (.heartbeat i pingId) (Client.pingPacket c.sessionMode pingId)
  | message (msg : Bytes) (hmode : c.sessionMode = .workSession) :
    SendsBy c (.sendMessage msg) (Client.messagePacket msg)
  | challenge (username password : Bytes) :
    SendsBy c (.logonChallenge username password) (Client.challengePacket username)
  | proof (i : ℕ) (bytes : Bytes) (rand : Rand32) (header A M1 : Bytes) (length : ℕ)
    (aborted : Bool)
    (hread : c.reads[i]? = some { op := .payload .authSession header length, aborted := aborted })
    (hopcode : (header ++ bytes).head? = some AuthOpcodes.smsgAuthLogonChallenge)
    (hA : A.length = 32) (hM1 : M1.length = 20) :
    SendsBy c (.readDone i bytes rand) (Client.proofPacket A M1)

/-- What a step does to the sender and the mode: nothing; it passes a packet to `send_packet`; a
write completes and the queue is popped; the connection is established and the queue flushed; or
the client accepts a `SMSG_AUTH_LOGON_PROOF` and switches the mode. -/
inductive SendEffect (c : Client) : ClientEvent → Client → Prop where
  | keep (e : ClientEvent) (c' : Client) (hsend : c'.toClientSender = c.toClientSender)
    (hmode : c'.sessionMode = c.sessionMode) (hconn : c'.connected = true → c.connected = true)
    (hconns : c'.connections = c.connections) : SendEffect c e c'
  | send (e : ClientEvent) (c' : Client) (p : Packet) (hby : SendsBy c e p)
    (hqueue : c'.outgoingQueue = c.outgoingQueue ++ [p.buildPacket])
    (hsent : c'.sent = c.sent ++ [p]) (hpopped : c'.popped = c.popped)
    (hstarted : c'.started =
      c.started ++ if c.connected ∧ c.outgoingQueue = [] then [p.buildPacket] else [])
    (hmode : c'.sessionMode = c.sessionMode) (hconn : c'.connected = c.connected)
    (hconns : c'.connections = c.connections) : SendEffect c e c'
  | pop (i : ℕ) (c' : Client) (front : Bytes) (rest : List Bytes)
    (hqueue : c.outgoingQueue = front :: rest) (hwrites : c.writes ≠ [])
    (hqueue' : c'.outgoingQueue = rest) (hsent : c'.sent = c.sent)
    (hpopped : c'.popped = c.popped ++ [front])
    (hstarted : c'.started = c.started ++ if c.connected then rest.take 1 else [])
    (hmode : c'.sessionMode = c.sessionMode) (hconn : c'.connected = c.connected)
    (hconns : c'.connections = c.connections) : SendEffect c (.writeDone i) c'
  | established (i : ℕ) (c' : Client) (hqueue : c'.outgoingQueue = c.outgoingQueue)
    (hsent : c'.sent = c.sent) (hpopped : c'.popped = c.popped)
    (hstarted : c'.started = c.started ++ c.outgoingQueue.take 1)
    (hmode : c'.sessionMode = c.sessionMode) (hconn : c'.connected = true)
    (hconns : c'.connections = c.connections + 1) : SendEffect c (.connectDone i) c'
  | switch (i : ℕ) (bytes : Bytes) (rand : Rand32) (c' : Client) (p : Pending ReadOp)
    (hread : c.reads[i]? = some p)
    (hopcode : ∃ header, (p.op = .header .authSession ∧ header = [] ∨
        ∃ length, p.op = .payload .authSession header length) ∧
      (header ++ bytes).head? = some AuthOpcodes.smsgAuthLogonProof)
    (hsend : c'.toClientSender = c.toClientSender) (hmode : c'.sessionMode = .workSession)
    (hconn : c'.connected = c.connected) (hconns : c'.connections = c.connections) :
    SendEffect c (.readDone i bytes rand) c'

/-- Two states of a client agree but for the mode, the `SRP6` object and the actions posted. -/
structure Client.Agree (c d : Client) : Prop where
  sender : d.toClientSender = c.toClientSender
  receiver : d.toClientReceiver = c.toClientReceiver
  connected : d.connected = c.connected
  connections : d.connections = c.connections
  connects : d.connects = c.connects
  reconnectWaits : d.reconnectWaits = c.reconnectWaits
  writes : d.writes = c.writes
  fault : d.fault = c.fault

/-- A client agrees with itself. -/
lemma Client.Agree.refl (c : Client) : c.Agree c := ⟨rfl, rfl, rfl, rfl, rfl, rfl, rfl, rfl⟩

/-- Loading values into the `SRP6` object changes nothing else. -/
lemma Client.Agree.withSrp (c : Client) (srp : SRP6) : c.Agree { c with srp := srp } :=
  ⟨rfl, rfl, rfl, rfl, rfl, rfl, rfl, rfl⟩

/-- `disconnect` only posts an action. -/
lemma Client.Agree.disconnect {c d : Client} (h : c.Agree d) : c.Agree d.disconnect :=
  ⟨h.sender, h.receiver, h.connected, h.connections, h.connects, h.reconnectWaits, h.writes,
    h.fault⟩

/-- What handling a raw packet does: nothing to the sender and the mode; a challenge with a payload
is answered with a proof; or the proof of the server is accepted. -/
inductive HandleEffect (c : Client) (mode : SessionMode) (raw : Bytes) (c' : Client) : Prop where
  | keep (h : c.Agree c') (hmode : c'.sessionMode = c.sessionMode)
  | proof (d : Client) (A M1 : Bytes) (hauth : mode = .authSession)
    (hopcode : raw.head? = some AuthOpcodes.smsgAuthLogonChallenge) (hpayload : 3 < raw.length)
    (hA : A.length = 32) (hM1 : M1.length = 20) (h : c.Agree d)
    (hmode : d.sessionMode = c.sessionMode) (hsend : c' = d.sendPacket (Client.proofPacket A M1))
  | switch (hauth : mode = .authSession)
    (hopcode : raw.head? = some AuthOpcodes.smsgAuthLogonProof) (h : c.Agree c')
    (hmode : c'.sessionMode = .workSession)

namespace Client

/-- A `SMSG_AUTH_LOGON_CHALLENGE` without a payload has no fields. -/
lemma readChallenge_nil {p : AuthPacket} (h0 : p.buffer.readPos = 0) (h : p.buffer.buffer = []) :
    ∃ e, readChallenge p = .error e := by
  obtain ⟨e, he⟩ := ByteBuffer.readBytes_of_lt (b := p.buffer) (n := 32)
    (by simp [ByteBuffer.size, h]) (by omega)
  exact ⟨e, by simp only [readChallenge, he]; rfl⟩

/-- Handling a challenge posts a disconnect, or sends a proof with both fields. -/
lemma handleChallenge_cases (sha1 : Sha1) (c : Client) (p : AuthPacket) (rand : Rand32) :
    ∃ srp, handleChallenge sha1 c p rand = disconnect { c with srp := srp } ∨
      ((∃ fields, readChallenge p = .ok fields) ∧
        ∃ A M1 : Bytes, A.length = 32 ∧ M1.length = 20 ∧
          handleChallenge sha1 c p rand = sendPacket { c with srp := srp } (proofPacket A M1)) := by
  unfold handleChallenge
  cases hread : readChallenge p with
  | error e => exact ⟨c.srp, .inl rfl⟩
  | ok fields =>
    obtain ⟨B, g, N, salt⟩ := fields
    dsimp only
    generalize ((c.srp.loadConstants sha1 N g).loadSalt salt).generateClientEphemeral rand = srp
    cases hA : srp.getABytes with
    | error e => exact ⟨srp, .inl rfl⟩
    | ok A =>
      rw [SRP6.computeM1_eq sha1 hA]
      exact ⟨_, .inr ⟨⟨_, rfl⟩, A, _, length_padBytesLeft hA, sha1.length_hash _, rfl⟩⟩

/-- What `handle_packet(AuthPacket &)` does when it does not throw. -/
lemma handlePacketAuth_effect {sha1 : Sha1} {c c' : Client} {p : AuthPacket} {rand : Rand32}
    (h0 : p.buffer.readPos = 0) (h : handlePacketAuth sha1 c p rand = .ok c') :
    HandleEffect c .authSession (AuthPacket.buildPacket p) c' := by
  have hhead : (AuthPacket.buildPacket p).head? = some p.opcode := rfl
  unfold handlePacketAuth at h
  by_cases hpong : p.opcode = AuthOpcodes.smsgPong
  · rw [if_pos hpong] at h
    cases h
    exact .keep (.refl c) rfl
  rw [if_neg hpong] at h
  by_cases hchal : p.opcode = AuthOpcodes.smsgAuthLogonChallenge
  · rw [if_pos hchal] at h
    cases h
    obtain ⟨srp, hdisc | ⟨⟨fields, hread⟩, A, M1, hA, hM1, hsend⟩⟩ :=
      handleChallenge_cases sha1 c p rand
    · rw [hdisc]
      exact .keep (Agree.withSrp c srp).disconnect rfl
    · have hpayload : 3 < (AuthPacket.buildPacket p).length := by
        have hlen : (AuthPacket.buildPacket p).length = 3 + p.buffer.buffer.length := by
          rw [AuthPacket.buildPacket, PacketOf.buildPacketWith_eq, HeaderFormat.length_frame]
          rfl
        by_contra hle
        obtain ⟨e, he⟩ := readChallenge_nil h0 (List.length_eq_zero_iff.1 (by omega))
        rw [hread] at he
        cases he
      rw [hsend]
      exact .proof { c with srp := srp } A M1 rfl (by rw [hhead, hchal]) hpayload hA hM1
        (.withSrp c srp) rfl rfl
  rw [if_neg hchal] at h
  by_cases hproof : p.opcode = AuthOpcodes.smsgAuthLogonProof
  · rw [if_pos hproof] at h
    cases hM2 : p.buffer.readBytes 20 with
    | error e => rw [hM2] at h; cases h
    | ok r =>
      rw [hM2] at h
      cases hver : c.srp.verifyServerProof sha1 c.srp.lastM1 r.1 with
      | error e => simp only [bind, Except.bind, hver] at h; cases h
      | ok ok =>
        simp only [bind, Except.bind, hver] at h
        cases ok with
        | false => cases h; exact .keep (Agree.refl c).disconnect rfl
        | true =>
          cases h
          exact .switch rfl (by rw [hhead, hproof]) ⟨rfl, rfl, rfl, rfl, rfl, rfl, rfl, rfl⟩ rfl
  rw [if_neg hproof] at h
  by_cases hresp : p.opcode = AuthOpcodes.smsgAuthResponse
  · rw [if_pos hresp] at h
    cases h₁ : p.buffer.readUint8 with
    | error e => rw [h₁] at h; cases h
    | ok r =>
      rw [h₁] at h
      cases h₂ : r.2.readUint8 with
      | error e => simp only [bind, Except.bind, h₂] at h; cases h
      | ok r' =>
        simp only [bind, Except.bind, h₂] at h
        cases h
        exact .keep (Agree.refl c).disconnect rfl
  · rw [if_neg hresp] at h
    cases h
    exact .keep (.refl c) rfl

/-- **What handling a raw packet does.** An exception leaves the client as it is. -/
lemma handleRaw_effect (sha1 : Sha1) (c : Client) (mode : SessionMode) (raw : Bytes)
    (rand : Rand32) : HandleEffect c mode raw (c.handleRaw sha1 mode raw rand) := by
  have hrefl : c.Agree c := .refl c
  cases mode with
  | workSession =>
    unfold handleRaw
    dsimp only
    split <;> exact .keep hrefl rfl
  | authSession =>
    unfold handleRaw
    dsimp only
    cases hdes : AuthPacket.deserialize { opcode := AuthOpcodes.emptyStage } raw with
    | mk res p =>
      cases res with
      | error e => exact .keep hrefl rfl
      | ok u =>
        -- the packet is the one whose frame is `raw`
        have hok : (AuthPacket.deserialize { opcode := AuthOpcodes.emptyStage } raw).1 =
            .ok () := by
          rw [hdes]
        have hback := @PacketOf.buildPacket_of_deserialize _ authFormat (by decide) _ raw hok
        rw [← AuthPacket.deserialize, hdes] at hback
        obtain ⟨hraw, h0⟩ := hback
        dsimp only
        cases hres : handlePacketAuth sha1 c p rand with
        | error e => exact .keep hrefl rfl
        | ok c' =>
          rw [← hraw]
          exact handlePacketAuth_effect h0 hres

/-- The same as an equation, for `handle_packet(AuthPacket &)`: apart from the `SRP6` object, the
mode and the actions posted, it changes nothing, or it is a `send_packet`. -/
lemma handlePacketAuth_cases {sha1 : Sha1} {c c' : Client} {p : AuthPacket} {rand : Rand32}
    (h : handlePacketAuth sha1 c p rand = .ok c') : ∃ srp,
      (∃ n mode, c' = { c with srp := srp, disconnects := n, sessionMode := mode }) ∨
        ∃ q, c' = sendPacket { c with srp := srp } q := by
  unfold handlePacketAuth at h
  split_ifs at h with hpong hchal hproof hresp
  · cases h
    exact ⟨c.srp, .inl ⟨c.disconnects, c.sessionMode, rfl⟩⟩
  · cases h
    obtain ⟨srp, hdisc | ⟨-, A, M1, -, -, hsend⟩⟩ := handleChallenge_cases sha1 c p rand
    · exact ⟨srp, .inl ⟨_, _, hdisc⟩⟩
    · exact ⟨srp, .inr ⟨_, hsend⟩⟩
  · cases hM2 : p.buffer.readBytes 20 with
    | error e => rw [hM2] at h; cases h
    | ok r =>
      rw [hM2] at h
      cases hver : c.srp.verifyServerProof sha1 c.srp.lastM1 r.1 with
      | error e => simp only [bind, Except.bind, hver] at h; cases h
      | ok ok =>
        simp only [bind, Except.bind, hver] at h
        cases ok <;> cases h <;> exact ⟨c.srp, .inl ⟨_, _, rfl⟩⟩
  · cases hr : p.buffer.readUint8 with
    | error e => rw [hr] at h; cases h
    | ok r =>
      rw [hr] at h
      cases hr' : r.2.readUint8 with
      | error e => simp only [bind, Except.bind, hr'] at h; cases h
      | ok r' =>
        simp only [bind, Except.bind, hr'] at h
        cases h
        exact ⟨c.srp, .inl ⟨_, _, rfl⟩⟩
  · cases h
    exact ⟨c.srp, .inl ⟨c.disconnects, c.sessionMode, rfl⟩⟩

/-- The same for a raw packet. -/
lemma handleRaw_cases (sha1 : Sha1) (c : Client) (mode : SessionMode) (raw : Bytes)
    (rand : Rand32) : ∃ srp,
      (∃ n mode', c.handleRaw sha1 mode raw rand =
        { c with srp := srp, disconnects := n, sessionMode := mode' }) ∨
        ∃ q, c.handleRaw sha1 mode raw rand = sendPacket { c with srp := srp } q := by
  have hsame : ∃ n mode', c = { c with srp := c.srp, disconnects := n, sessionMode := mode' } :=
    ⟨c.disconnects, c.sessionMode, rfl⟩
  unfold handleRaw
  cases mode with
  | workSession =>
    dsimp only
    split <;> exact ⟨c.srp, .inl hsame⟩
  | authSession =>
    dsimp only
    split
    · exact ⟨c.srp, .inl hsame⟩
    · split
      · exact ⟨c.srp, .inl hsame⟩
      · rename_i h
        exact handlePacketAuth_cases h

end Client

open Client

/-- The sender's part after a read completed, by what handling the raw packet did. -/
lemma HandleEffect.send {c d c' : Client} {i : ℕ} {bytes raw header : Bytes} {rand : Rand32}
    {p : Pending ReadOp} {mode : SessionMode} (h : HandleEffect d mode raw c')
    (hsender : d.toClientSender = c.toClientSender) (hmode : d.sessionMode = c.sessionMode)
    (hconn : d.connected = c.connected) (hconns : d.connections = c.connections)
    (hread : c.reads[i]? = some p) (hraw : raw = header ++ bytes)
    (hop : (p.op = .header mode ∧ header = [] ∧ raw.length = mode.headerSize) ∨
      ∃ length, p.op = .payload mode header length) :
    SendEffect c (.readDone i bytes rand) c'.startReceiveLoop := by
  cases h with
  | keep h hmode' =>
    refine .keep _ _ (h.sender.trans hsender) (hmode'.trans hmode) (fun hc => ?_)
      (h.connections.trans hconns)
    rw [← hconn, ← h.connected]
    exact hc
  | proof d' A M1 hauth hopcode hpayload hA hM1 h hmode' hsend =>
    subst hsend
    rcases hop with ⟨-, -, hlen⟩ | ⟨length, hop⟩
    · -- a frame without a payload is not answered
      rw [hauth] at hlen
      change raw.length = 3 at hlen
      omega
    · have hby : SendsBy c (.readDone i bytes rand) (proofPacket A M1) := by
        refine .proof i bytes rand header A M1 length p.aborted ?_ (hraw ▸ hopcode) hA hM1
        rw [hread, ← hauth, ← hop]
      refine .send _ _ (proofPacket A M1) hby ?_ ?_ ?_ ?_ ?_ ?_ ?_
      all_goals simp only [startReceiveLoop, sendPacket_outgoingQueue, sendPacket_sent,
        sendPacket_popped, sendPacket_started, sendPacket_sessionMode, sendPacket_connected,
        sendPacket_connections, h.sender, h.connected, h.connections, hmode', hsender, hmode,
        hconn, hconns]
  | switch hauth hopcode h hmode' =>
    refine .switch i bytes rand _ p hread ⟨header, ?_, hraw ▸ hopcode⟩ (h.sender.trans hsender)
      hmode' (h.connected.trans hconn) (h.connections.trans hconns)
    rw [← hauth]
    rcases hop with ⟨hop, hnil, -⟩ | hop
    · exact .inl ⟨hop, hnil⟩
    · exact .inr hop

/-- The sender's part after a read completed. -/
lemma Client.readHandler_send (sha1 : Sha1) {c : Client} {i : ℕ} {p : Pending ReadOp}
    {bytes : Bytes} (rand : Rand32) (hread : c.reads[i]? = some p)
    (hsize : bytes.length = p.op.size) :
    SendEffect c (.readDone i bytes rand) (readHandler sha1 { c with
      reads := c.reads.eraseIdx i
      received := c.received ++ bytes } p.op bytes rand) := by
  cases hop : p.op with
  | header mode =>
    rw [hop] at hsize
    unfold readHandler
    dsimp only
    split_ifs with hbig hzero
    · exact .keep _ _ rfl rfl (fun h => by cases h) rfl
    · have hraw : bytes = [] ++ bytes := rfl
      exact (handleRaw_effect sha1 _ mode bytes rand).send rfl rfl rfl rfl hread hraw
        (.inl ⟨hop, rfl, hsize⟩)
    · exact .keep _ _ rfl rfl (fun h => h) rfl
  | payload mode header length =>
    exact (handleRaw_effect sha1 _ mode (header ++ bytes) rand).send rfl rfl rfl rfl hread rfl
      (.inr ⟨length, hop⟩)

/-- **Every step has such an effect on the sender and the mode.** -/
lemma Client.step_send {sha1 : Sha1} {c c' : Client} {e : ClientEvent}
    (h : c.step sha1 e = some c') : SendEffect c e c' := by
  cases step_transition h with
  | connect => exact .keep _ _ rfl rfl (fun h => h) rfl
  | disconnect => exact .keep _ _ rfl rfl (fun h => h) rfl
  | sendMessage msg =>
    unfold sendMessage
    cases hmode : c.sessionMode with
    | authSession => exact .keep _ _ rfl rfl (fun h => h) rfl
    | workSession =>
      exact .send _ _ (messagePacket msg) (.message msg hmode) (by simp) (by simp) (by simp)
        (sendPacket_started c _) (by simp) (by simp) (by simp)
  | logonChallenge username password =>
    exact .send _ _ (challengePacket username) (.challenge username password)
      (by simp [handleLogonChallenge]) (by simp [handleLogonChallenge])
      (by simp [handleLogonChallenge]) (sendPacket_started _ _) (by simp [handleLogonChallenge])
      (by simp [handleLogonChallenge]) (by simp [handleLogonChallenge])
  | runDisconnect hposted =>
    unfold runDisconnect
    dsimp only
    split_ifs <;> exact .keep _ _ rfl rfl (fun h => by cases h) rfl
  | connectDone i hconnect =>
    refine .established i _ ?_ ?_ ?_ ?_ ?_ ?_ ?_
    all_goals simp [connectHandler, startHeartbeat, startReceiveLoop]
  | connectError i w hconnect => exact .keep _ _ rfl rfl (fun h => by cases h) rfl
  | reconnect i w hwait => exact .keep _ _ rfl rfl (fun h => h) rfl
  | heartbeat i pingId w hwait =>
    unfold heartbeatHandler
    split_ifs with hping
    · simp only [Bool.and_eq_true, Bool.not_eq_true'] at hping
      exact .send _ _ (pingPacket c.sessionMode pingId) (.ping i pingId w hwait hping.1 hping.2)
        (by simp [startHeartbeat, sendPing]) (by simp [startHeartbeat, sendPing])
        (by simp [startHeartbeat, sendPing]) (sendPacket_started _ _)
        (by simp [startHeartbeat, sendPing]) (by simp [startHeartbeat, sendPing])
        (by simp [startHeartbeat, sendPing])
    · exact .keep _ _ rfl rfl (fun h => h) rfl
  | writeDone i w hwrite hlive =>
    have hwrites : c.writes ≠ [] := by
      intro hnil
      simp [hnil] at hwrite
    unfold writeHandler
    cases hq : c.outgoingQueue with
    | nil => exact .keep _ _ rfl rfl (fun h => h) rfl
    | cons front rest =>
      refine .pop i _ front rest hq hwrites ?_ ?_ ?_ ?_ ?_ ?_ ?_
      all_goals simp
  | writeError i w hwrite => exact .keep _ _ rfl rfl (fun h => by cases h) rfl
  | readDone i bytes rand p hread hlive hsize => exact readHandler_send sha1 rand hread hsize
  | readError i p hread => exact .keep _ _ rfl rfl (fun h => by cases h) rfl

/-- What was popped and the queue are the frames of the packets passed to `send_packet`, in order:
every step keeps it. -/
lemma SendEffect.queued {c c' : Client} {e : ClientEvent} (h : SendEffect c e c')
    (hc : c.popped ++ c.outgoingQueue = c.sent.map Packet.buildPacket) :
    c'.popped ++ c'.outgoingQueue = c'.sent.map Packet.buildPacket := by
  cases h with
  | keep e c' hsend hmode hconn hconns => rw [hsend]; exact hc
  | send e c' p hby hqueue hsent hpopped hstarted hmode hconn hconns =>
    rw [hpopped, hqueue, hsent, ← List.append_assoc, hc, List.map_append, List.map_singleton]
  | pop i c' front rest hqueue hne hqueue' hsent hpopped hstarted hmode hconn hconns =>
    rw [hpopped, hqueue', hsent, ← hc, hqueue]
    simp
  | established i c' hqueue hsent hpopped hstarted hmode hconn hconns =>
    rw [hpopped, hqueue, hsent]; exact hc
  | switch i bytes rand c' p hread hopcode hsend hmode hconn hconns => rw [hsend]; exact hc

/-! ## Receiving -/

/-- What the outstanding reads wait for. -/
def Client.ops (c : Client) : List ReadOp := c.reads.map (·.op)

/-- What a step does to the receive loop: nothing, but that a read may end with an error; the
connection is established and the loop starts; a header arrives and is too big, or is followed by a
payload; or a frame is complete and handled, and the loop goes on in the mode it left. -/
inductive ReceiveEffect (c : Client) : ClientEvent → Client → Prop where
  | keep (e : ClientEvent) (c' : Client) (hrecv : c'.received = c.received)
    (hops : c'.ops.Sublist c.ops) : ReceiveEffect c e c'
  | established (i : ℕ) (c' : Client) (hrecv : c'.received = c.received)
    (hops : c'.ops = c.ops ++ [.header c.sessionMode]) : ReceiveEffect c (.connectDone i) c'
  | stopped (i : ℕ) (bytes : Bytes) (rand : Rand32) (c' : Client) (op : ReadOp)
    (hread : c.ops[i]? = some op) (hrecv : c'.received = c.received ++ bytes)
    (hops : c'.ops = c.ops.eraseIdx i) :
    ReceiveEffect c (.readDone i bytes rand) c'
  | payload (i : ℕ) (bytes : Bytes) (rand : Rand32) (c' : Client) (mode : SessionMode)
    (hread : c.ops[i]? = some (.header mode)) (hsize : bytes.length = mode.headerSize)
    (hrecv : c'.received = c.received ++ bytes)
    (hops : c'.ops = c.ops.eraseIdx i ++ [.payload mode bytes (declaredSize mode bytes)]) :
    ReceiveEffect c (.readDone i bytes rand) c'
  | handled (i : ℕ) (bytes : Bytes) (rand : Rand32) (c' : Client) (op : ReadOp)
    (hread : c.ops[i]? = some op) (hsize : bytes.length = op.size)
    (hempty : ∀ mode, op = .header mode → declaredSize mode bytes = 0)
    (hrecv : c'.received = c.received ++ bytes)
    (hops : c'.ops = c.ops.eraseIdx i ++ [.header c'.sessionMode]) :
    ReceiveEffect c (.readDone i bytes rand) c'

/-- Handling a packet leaves the receive loop alone. -/
lemma HandleEffect.receiver {c c' : Client} {mode : SessionMode} {raw : Bytes}
    (h : HandleEffect c mode raw c') : c'.toClientReceiver = c.toClientReceiver := by
  cases h with
  | keep h hmode => exact h.receiver
  | proof d A M1 hauth hopcode hpayload hA hM1 h hmode hsend =>
    rw [hsend, sendPacket_toClientReceiver, h.receiver]
  | switch hauth hopcode h hmode => exact h.receiver

namespace Client

/-- The length the client decodes by hand from a header is the one declared there. -/
lemma lengthField_header {mode : SessionMode} {bytes : Bytes}
    (hsize : bytes.length = mode.headerSize) :
    ((bytes.getD (mode.headerSize - 2) 0).toUInt16 <<< 8 |||
      (bytes.getD (mode.headerSize - 1) 0).toUInt16).toNat = declaredSize mode bytes := by
  have htwo := Packet.two_le_headerSize mode
  have hlast : mode.headerSize - 1 = mode.headerSize - 2 + 1 := by omega
  rw [toNat_lengthField, declaredSize, take_two_drop (by omega), hlast]

/-- The loop goes on after a packet was handled. -/
lemma ops_startReceiveLoop (c : Client) :
    c.startReceiveLoop.ops = c.ops ++ [.header c.sessionMode] := by
  simp [startReceiveLoop, ops]

/-- The receive loop after a read completed. -/
lemma readHandler_receive (sha1 : Sha1) {c : Client} {i : ℕ} {p : Pending ReadOp} {bytes : Bytes}
    (rand : Rand32) (hread : c.reads[i]? = some p) (hsize : bytes.length = p.op.size) :
    ReceiveEffect c (.readDone i bytes rand) (readHandler sha1 { c with
      reads := c.reads.eraseIdx i
      received := c.received ++ bytes } p.op bytes rand) := by
  have hop : c.ops[i]? = some p.op := by
    simp [ops, hread]
  have herase : ∀ d : Client, d.reads = c.reads.eraseIdx i → d.ops = c.ops.eraseIdx i := by
    intro d hd
    rw [ops, ops, hd, List.eraseIdx_map]
  -- handling a whole frame, from the state in which the bytes have arrived
  have hhandled : ∀ (d : Client) (mode : SessionMode) (raw : Bytes),
      d.reads = c.reads.eraseIdx i → d.received = c.received ++ bytes →
      (∀ mode, p.op = .header mode → declaredSize mode bytes = 0) →
      ReceiveEffect c (.readDone i bytes rand)
        (d.handleRaw sha1 mode raw rand).startReceiveLoop := by
    intro d mode raw hreads hrecv hempty
    have hrec := (handleRaw_effect sha1 d mode raw rand).receiver
    refine .handled i bytes rand _ p.op hop hsize hempty ?_ ?_
    · change (d.handleRaw sha1 mode raw rand).received = _
      rw [hrec, hrecv]
    · rw [ops_startReceiveLoop, ops, hrec]
      exact congrArg (· ++ _) (herase d hreads)
  cases hcase : p.op with
  | header mode =>
    rw [hcase] at hsize hop
    have hfield := lengthField_header hsize
    unfold readHandler
    dsimp only
    split_ifs with hbig hzero
    · refine .stopped i bytes rand _ _ hop rfl ?_
      rw [← herase { c with reads := c.reads.eraseIdx i } rfl]
      exact map_op_abortAll _
    · refine hhandled _ mode bytes rfl rfl fun mode' hmode' => ?_
      obtain rfl : mode = mode' := by simpa [hcase] using hmode'
      rw [← hfield, hzero]
      rfl
    · refine .payload i bytes rand _ mode hop hsize rfl ?_
      rw [hfield, ← herase { c with reads := c.reads.eraseIdx i } rfl]
      simp [ops]
  | payload mode header length =>
    exact hhandled _ mode (header ++ bytes) rfl rfl fun mode' hmode' => by
      rw [hcase] at hmode'
      cases hmode'

/-- **Every step has such an effect on the receive loop.** -/
lemma step_receive {sha1 : Sha1} {c c' : Client} {e : ClientEvent}
    (h : c.step sha1 e = some c') : ReceiveEffect c e c' := by
  have hsame : ∀ (e : ClientEvent) (d : Client), d.received = c.received → d.ops = c.ops →
      ReceiveEffect c e d := fun e d hrecv hops => .keep e d hrecv (hops ▸ List.Sublist.refl _)
  cases step_transition h with
  | connect => exact hsame _ _ rfl (map_op_abortAll c.reads)
  | disconnect => exact hsame _ _ rfl rfl
  | sendMessage msg =>
    unfold sendMessage
    split
    · exact hsame _ _ rfl rfl
    · exact hsame _ _ (by simp) (by simp [ops])
  | logonChallenge username password =>
    exact hsame _ _ (by simp [handleLogonChallenge]) (by simp [handleLogonChallenge, ops])
  | runDisconnect hposted =>
    unfold runDisconnect
    dsimp only
    split_ifs
    · exact hsame _ _ rfl (map_op_abortAll c.reads)
    · exact hsame _ _ rfl rfl
  | connectDone i hconnect =>
    refine .established i _ ?_ ?_
    · simp [connectHandler, startHeartbeat, startReceiveLoop]
    · simp [connectHandler, startHeartbeat, startReceiveLoop, ops]
  | connectError i w hconnect => exact hsame _ _ rfl (map_op_abortAll c.reads)
  | reconnect i w hwait => exact hsame _ _ rfl (map_op_abortAll c.reads)
  | heartbeat i pingId w hwait =>
    unfold heartbeatHandler
    split_ifs
    · exact hsame _ _ (by simp [startHeartbeat, sendPing])
        (by simp [startHeartbeat, sendPing, ops])
    · exact hsame _ _ rfl rfl
  | writeDone i w hwrite hlive =>
    unfold writeHandler
    split
    · exact hsame _ _ rfl rfl
    · exact hsame _ _ (by simp) (by simp [ops])
  | writeError i w hwrite => exact hsame _ _ rfl (map_op_abortAll c.reads)
  | readDone i bytes rand p hread hlive hsize => exact readHandler_receive sha1 rand hread hsize
  | readError i p hread =>
    refine .keep _ _ rfl ?_
    have hops : (scheduleReconnect { c with reads := c.reads.eraseIdx i }).ops =
        c.ops.eraseIdx i := by
      rw [ops, ops, List.eraseIdx_map]
      exact map_op_abortAll _
    rw [hops]
    exact List.eraseIdx_sublist _ _

/-- A read completes with as many bytes as it waits for. -/
lemma size_of_readDone {sha1 : Sha1} {c c' : Client} {i : ℕ} {bytes : Bytes} {rand : Rand32}
    {p : Pending ReadOp} (h : c.step sha1 (.readDone i bytes rand) = some c')
    (hread : c.reads[i]? = some p) : bytes.length = p.op.size := by
  cases step_transition h with
  | readDone i bytes rand q hq hlive hsize =>
    obtain rfl : p = q := by simpa [hread] using hq
    exact hsize

/-! ## Before the connection -/

/-- A client that has not been connected: it has no reads and writes outstanding, and none
behind it. -/
structure Unconnected (c : Client) : Prop where
  connected : c.connected = false
  writes : c.writes = []
  reads : c.reads = []
  started : c.started = []
  popped : c.popped = []
  received : c.received = []

/-- While the client is not connected, `send_packet` starts no write. -/
lemma sendPacket_writes {c : Client} (p : Packet) (h : c.connected = false) :
    (c.sendPacket p).writes = c.writes := by
  simp [sendPacket, sendPacketImpl, h]

/-- No write starts before the connection. -/
lemma Unconnected.step_writes {sha1 : Sha1} {c c' : Client} {e : ClientEvent}
    (hc : c.Unconnected) (h : c.step sha1 e = some c') (he : ∀ i, e ≠ .connectDone i) :
    c'.writes = [] := by
  obtain ⟨hconn, hwrites, hreads, -, -, -⟩ := hc
  have habort : abortAll c.writes = [] := by rw [hwrites]; rfl
  cases step_transition h with
  | connect => exact habort
  | disconnect => exact hwrites
  | sendMessage msg =>
    unfold sendMessage
    split
    · exact hwrites
    · rw [sendPacket_writes _ hconn, hwrites]
  | logonChallenge username password =>
    simp [handleLogonChallenge, sendPacket_writes, hconn, hwrites]
  | runDisconnect hposted =>
    unfold runDisconnect
    dsimp only
    split_ifs
    · exact habort
    · exact hwrites
  | connectDone i hconnect => exact absurd rfl (he i)
  | connectError i w hconnect => exact habort
  | reconnect i w hwait => exact habort
  | heartbeat i pingId w hwait => simp [heartbeatHandler, hconn, hwrites]
  | writeDone i w hwrite hlive => simp [hwrites] at hwrite
  | writeError i w hwrite => simp [hwrites] at hwrite
  | readDone i bytes rand p hread hlive hsize => simp [hreads] at hread
  | readError i p hread => simp [hreads] at hread

/-- Only the completion of an `async_connect` ends this. -/
lemma Unconnected.step {sha1 : Sha1} {c c' : Client} {e : ClientEvent} (hc : c.Unconnected)
    (h : c.step sha1 e = some c') (he : ∀ i, e ≠ .connectDone i) : c'.Unconnected := by
  have hwrites := hc.step_writes h he
  have hops : c.ops = [] := by rw [ops, hc.reads, List.map_nil]
  obtain ⟨hrecv, hreads⟩ : c'.received = [] ∧ c'.reads = [] := by
    cases step_receive h with
    | keep e c' hrecv hops' =>
      rw [hops, List.sublist_nil] at hops'
      exact ⟨hrecv.trans hc.received, List.map_eq_nil_iff.1 hops'⟩
    | established i c' hrecv hops' => exact absurd rfl (he i)
    | stopped i bytes rand c' op hread hrecv hops' => simp [hops] at hread
    | payload i bytes rand c' mode hread hsize hrecv hops' => simp [hops] at hread
    | handled i bytes rand c' op hread hsize hempty hrecv hops' => simp [hops] at hread
  have hsender : c'.connected = false ∧ c'.started = [] ∧ c'.popped = [] := by
    cases step_send h with
    | keep e c' hsend hmode hconn hconns =>
      rw [hsend, hc.started, hc.popped]
      have hfalse : ¬ c'.connected = true := fun h => by simpa [hc.connected] using hconn h
      exact ⟨by simpa using hfalse, rfl, rfl⟩
    | send e c' p hby hqueue hsent hpopped hstarted hmode hconn hconns =>
      rw [hstarted, hconn, hpopped, hc.connected, hc.started, hc.popped]
      simp
    | pop i c' front rest hqueue hne hqueue' hsent hpopped hstarted hmode hconn hconns =>
      exact absurd hc.writes hne
    | established i c' hqueue hsent hpopped hstarted hmode hconn hconns =>
      exact absurd rfl (he i)
    | switch i bytes rand c' p hread hopcode hsend hmode hconn hconns =>
      simp [hc.reads] at hread
  exact ⟨hsender.1, hwrites, hreads, hsender.2.1, hsender.2.2, hrecv⟩

end Client

end Purity
