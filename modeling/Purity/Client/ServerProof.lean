import Purity.Client.Receive
import Purity.Client.Reconnect

set_option relaxedAutoImplicit false
set_option autoImplicit false

/-!
# What the client takes for a proof of the server

The client enters `WORK_SESSION` when it accepts the proof of the server, `M2`. It compares `M2`
with the hash of its key `A` and of the proof `M1` it remembers, and both are what it has sent
itself in its last `CMSG_AUTH_LOGON_PROOF`, be it on an earlier connection. So `M2` shows that
somebody has read that packet. Neither the verifier nor the password goes into it, and a client that
has not sent a proof yet accepts the hash of 32 zero bytes.

## Main definitions

* `Purity.lastProof` — the payload of the last `CMSG_AUTH_LOGON_PROOF` sent.
* `Purity.Client.taken` — the packet that a completed read hands to `handle_packet`.
* `Purity.Client.ShowsServer` — a packet with the hash of that payload;
  `Purity.Client.echoedProof` is one.

## Main results

* `Purity.Client.workSession_iff_shown` — a client is in `WORK_SESSION` exactly if it has been
  handed such a packet, and anybody who reads what it sends can build one.
-/

namespace Purity

/-- The packet is a `CMSG_AUTH_LOGON_PROOF`. -/
def Packet.isProof : Packet → Bool
  | .auth p => p.opcode == AuthOpcodes.cmsgAuthLogonProof
  | .work _ => false

/-- The payload of the last `CMSG_AUTH_LOGON_PROOF` among the packets sent. Without one it is the
key of an object just constructed, padded to 32 bytes, and an empty proof. -/
def lastProof (sent : List Packet) : Bytes :=
  sent.foldl (fun last q => if q.isProof then q.payload else last) (List.replicate 32 0)

/-- One more packet. -/
lemma lastProof_concat (sent : List Packet) (q : Packet) :
    lastProof (sent ++ [q]) = if q.isProof then q.payload else lastProof sent := by
  rw [lastProof, List.foldl_append]
  rfl

/-- The frame of `AUTH_SESSION` that is complete with the bytes of a read. -/
def ReadOp.authFrame (bytes : Bytes) : ReadOp → Option Bytes
  | .header .authSession => if declaredSize .authSession bytes = 0 then some bytes else none
  | .payload .authSession head _ => some (head ++ bytes)
  | _ => none

/-- The packet of a frame. -/
def parseAuth (raw : Bytes) : Option AuthPacket :=
  match AuthPacket.deserialize { opcode := AuthOpcodes.emptyStage } raw with
  | (.ok (), p) => some p
  | (.error _, _) => none

namespace Client

variable {sha1 : Sha1} {c c' : Client} {p : AuthPacket} {rand : Rand32}

/-- The packet that an event hands to `handle_packet(AuthPacket &)`: a read completes a frame. -/
def taken (c : Client) : ClientEvent → Option AuthPacket
  | .readDone i bytes _ => c.reads[i]?.bind fun p => (p.op.authFrame bytes).bind parseAuth
  | _ => none

/-- The packet is an `SMSG_AUTH_LOGON_PROOF` with the hash of what the client has sent last as its
own proof. -/
def ShowsServer (sha1 : Sha1) (c : Client) (p : AuthPacket) : Prop :=
  p.opcode = AuthOpcodes.smsgAuthLogonProof ∧
    p.buffer.buffer.take 20 = sha1.hash (lastProof c.sent)

/-- The key and the proof the client remembers are those it has sent last. -/
def Remembers (c : Client) : Prop :=
  ∃ A, c.srp.getABytes = .ok A ∧ A ++ c.srp.lastM1 = lastProof c.sent

/-! ## The client remembers what it has sent -/

@[simp] lemma flushQueue_srp (c : Client) : c.flushQueue.srp = c.srp := by
  unfold flushQueue; split_ifs
  · rfl
  · split <;> rfl

@[simp] lemma sendPacket_srp (c : Client) (q : Packet) : (c.sendPacket q).srp = c.srp := by
  unfold sendPacket sendPacketImpl; dsimp only; split_ifs <;> simp

/-- It depends on three members only. -/
lemma Remembers.of_eq (h : c.Remembers) (hA : c'.srp.A = c.srp.A)
    (hM1 : c'.srp.lastM1 = c.srp.lastM1) (hsent : lastProof c'.sent = lastProof c.sent) :
    c'.Remembers := by
  obtain ⟨A, hbytes, hlast⟩ := h
  refine ⟨A, ?_, by rw [hM1, hsent, hlast]⟩
  rw [SRP6.getABytes, hA]
  exact hbytes

/-- Sending another packet keeps that. -/
lemma Remembers.sendPacket {q : Packet} (h : c.Remembers) (hq : q.isProof = false) :
    (c.sendPacket q).Remembers := by
  refine h.of_eq (by rw [sendPacket_srp]) (by rw [sendPacket_srp]) ?_
  rw [sendPacket_sent, lastProof_concat, hq]
  rfl

/-- A client just constructed has the key zero and no proof. -/
lemma remembers_new (sha1 : Sha1) : (new sha1).Remembers := by
  refine ⟨List.replicate 32 0, ?_, rfl⟩
  have hkey : (new sha1).srp.A = 0 := rfl
  rw [SRP6.getABytes, hkey]
  decide

/-- The modulus of a challenge has 32 bytes. -/
lemma length_of_readChallenge {B N salt : Bytes} {g : UInt8}
    (h : readChallenge p = .ok (B, g, N, salt)) : N.length = 32 := by
  have hbytes : ∀ (b : ByteBuffer) (r : Bytes × ByteBuffer), b.readBytes 32 = .ok r →
      r.1.length = 32 := by
    intro b r hr
    simp only [ByteBuffer.readBytes, bind, Except.bind] at hr
    split at hr
    · cases hr
    · split_ifs at hr with hshort
      cases hr
      show (List.take 32 (List.drop b.readPos b.buffer)).length = 32
      rw [List.length_take, List.length_drop]
      omega
  unfold readChallenge at h
  cases h₁ : p.buffer.readBytes 32 with
  | error e => rw [h₁] at h; cases h
  | ok r₁ =>
    simp only [h₁, bind, Except.bind] at h
    cases h₂ : r₁.2.readUint8 with
    | error e => rw [h₂] at h; cases h
    | ok r₂ =>
      simp only [h₂] at h
      cases h₃ : r₂.2.readBytes 32 with
      | error e => rw [h₃] at h; cases h
      | ok r₃ =>
        simp only [h₃] at h
        cases h₄ : r₃.2.readBytes 32 with
        | error e => rw [h₄] at h; cases h
        | ok r₄ =>
          simp only [h₄] at h
          cases h
          exact hbytes _ _ h₃

/-- A client draws a key that fits 32 bytes, or keeps the one it has. -/
lemma exists_getABytes (srp : SRP6) {A : Bytes} (hA : srp.getABytes = .ok A)
    (hN : srp.N < 256 ^ 32) (rand : Rand32) :
    ∃ A', (srp.generateClientEphemeral rand).getABytes = .ok A' := by
  unfold SRP6.generateClientEphemeral SRP6.getABytes
  dsimp only
  split_ifs with hzero hkey
  · exact ⟨_, rfl⟩
  · exact ⟨A, hA⟩
  · obtain ⟨A', hA', -⟩ := SRP6.padBytesLeft_mod (n := srp.g ^ Endian.ofBE rand.1)
      (Nat.pos_of_ne_zero hzero) hN.le
    exact ⟨A', hA'⟩

/-- **Answering a challenge** sends the key and the proof that the client then remembers.

**Proof sketch.** The modulus of the challenge fits 32 bytes, so the key does, and the proof is
sent. -/
lemma Remembers.handleChallenge (h : c.Remembers) (sha1 : Sha1) (p : AuthPacket) (rand : Rand32) :
    (handleChallenge sha1 c p rand).Remembers := by
  unfold Client.handleChallenge
  cases hread : readChallenge p with
  | error e => exact h.of_eq rfl rfl rfl
  | ok fields =>
    obtain ⟨B, g, N, salt⟩ := fields
    obtain ⟨A, hA, -⟩ := h
    have hN : Endian.ofBE N < 256 ^ 32 := by
      have hlt := Endian.ofBE_lt N
      rwa [length_of_readChallenge hread] at hlt
    obtain ⟨A', hA'⟩ := exists_getABytes ((c.srp.loadConstants sha1 N g).loadSalt salt) hA hN rand
    dsimp only
    rw [hA', SRP6.computeM1_eq sha1 hA']
    dsimp only
    refine ⟨A', ?_, ?_⟩
    · rw [sendPacket_srp]
      exact hA'
    · rw [sendPacket_srp, sendPacket_sent, lastProof_concat]
      simp [Packet.isProof, proofPacket, Packet.payload, Packet.buffer, ByteBuffer.writeBytes]

/-- Handling a packet keeps that. -/
lemma Remembers.handlePacketAuth (h : c.Remembers)
    (hres : handlePacketAuth sha1 c p rand = .ok c') : c'.Remembers := by
  unfold Client.handlePacketAuth at hres
  split_ifs at hres with hpong hchal hproof hresp
  · cases hres
    exact h
  · cases hres
    exact h.handleChallenge sha1 p rand
  · cases hM2 : p.buffer.readBytes 20 with
    | error e => rw [hM2] at hres; cases hres
    | ok r =>
      cases hver : c.srp.verifyServerProof sha1 c.srp.lastM1 r.1 with
      | error e => simp only [hM2, bind, Except.bind, hver] at hres; cases hres
      | ok ok =>
        simp only [hM2, bind, Except.bind, hver] at hres
        cases ok <;> cases hres <;> exact h.of_eq rfl rfl rfl
  · cases hr : p.buffer.readUint8 with
    | error e => rw [hr] at hres; cases hres
    | ok r =>
      cases hr' : r.2.readUint8 with
      | error e => simp only [hr, bind, Except.bind, hr'] at hres; cases hres
      | ok r' =>
        simp only [hr, bind, Except.bind, hr'] at hres
        cases hres
        exact h.of_eq rfl rfl rfl
  · cases hres
    exact h

/-- And so does handling a raw packet. -/
lemma Remembers.handleRaw (h : c.Remembers) (sha1 : Sha1) (mode : SessionMode) (raw : Bytes)
    (rand : Rand32) : (c.handleRaw sha1 mode raw rand).Remembers := by
  unfold Client.handleRaw
  cases mode with
  | workSession =>
    dsimp only
    split <;> exact h
  | authSession =>
    dsimp only
    split
    · exact h
    · split
      · exact h
      · rename_i hres
        exact h.handlePacketAuth hres

/-- The completion of a read keeps that. -/
lemma Remembers.readHandler (h : c.Remembers) (sha1 : Sha1) (op : ReadOp) (bytes : Bytes)
    (rand : Rand32) : (c.readHandler sha1 op bytes rand).Remembers := by
  cases op with
  | header mode =>
    unfold Client.readHandler
    dsimp only
    split_ifs
    · exact h.of_eq rfl rfl rfl
    · exact (h.handleRaw sha1 mode bytes rand).of_eq rfl rfl rfl
    · exact h.of_eq rfl rfl rfl
  | payload mode header length =>
    exact (h.handleRaw sha1 mode (header ++ bytes) rand).of_eq rfl rfl rfl

/-- **Every step keeps that.** -/
lemma Remembers.step {e : ClientEvent} (h : c.Remembers) (hstep : c.step sha1 e = some c') :
    c'.Remembers := by
  cases step_transition hstep with
  | connect => exact h.of_eq rfl rfl rfl
  | disconnect => exact h.of_eq rfl rfl rfl
  | sendMessage msg =>
    unfold Client.sendMessage
    split
    · exact h
    · exact h.sendPacket rfl
  | logonChallenge username password =>
    exact sendPacket (c := { c with srp := c.srp.setCredentials username password })
      (h.of_eq rfl rfl rfl) rfl
  | runDisconnect hposted =>
    unfold Client.runDisconnect
    dsimp only
    split_ifs <;> exact h.of_eq rfl rfl rfl
  | connectDone i hconnect =>
    unfold connectHandler startHeartbeat
    refine h.of_eq ?_ ?_ ?_ <;> simp [startReceiveLoop]
  | connectError i w hconnect => exact h.of_eq rfl rfl rfl
  | reconnect i w hwait => exact h.of_eq rfl rfl rfl
  | heartbeat i pingId w hwait =>
    have hsame : Remembers { c with heartbeatWaits := c.heartbeatWaits.eraseIdx i } :=
      h.of_eq rfl rfl rfl
    unfold heartbeatHandler
    split_ifs
    · refine (hsame.sendPacket (q := pingPacket c.sessionMode pingId) ?_).of_eq rfl rfl rfl
      cases c.sessionMode <;> rfl
    · exact hsame
  | writeDone i w hwrite hlive =>
    unfold writeHandler
    split
    · exact h.of_eq rfl rfl rfl
    · refine h.of_eq ?_ ?_ ?_ <;> simp
  | writeError i w hwrite => exact h.of_eq rfl rfl rfl
  | readDone i bytes rand p hread hlive hsize =>
    exact Remembers.readHandler (c := { c with
      reads := c.reads.eraseIdx i
      received := c.received ++ bytes }) (h.of_eq rfl rfl rfl) sha1 p.op bytes rand
  | readError i p hread => exact h.of_eq rfl rfl rfl

/-! ## The proof of the server -/

/-- **The packets accepted.**

**Proof sketch.** `verify_server_proof` compares the field with the hash of the key and the proof
remembered, which are what was sent last. -/
lemma Remembers.acceptsPacket_iff (h : c.Remembers) (h0 : p.buffer.readPos = 0) :
    acceptsPacket sha1 c p = true ↔ c.ShowsServer sha1 p := by
  obtain ⟨A, hA, hlast⟩ := h
  have hlenhash := sha1.length_hash (A ++ c.srp.lastM1)
  unfold acceptsPacket ShowsServer
  rw [Bool.and_eq_true, decide_eq_true_eq, ← hlast]
  refine and_congr_right fun _ => ?_
  by_cases hshort : p.buffer.size < 20
  · obtain ⟨e, he⟩ := ByteBuffer.readBytes_of_lt (b := p.buffer) (n := 20)
      (by omega) (by rw [h0]; decide)
    simp only [he, Bool.false_eq_true, false_iff]
    intro heq
    have hlen := congrArg List.length heq
    rw [List.length_take, hlenhash] at hlen
    exact hshort.not_ge (hlen ▸ min_le_right _ _)
  · have hread := ByteBuffer.readBytes_of_le (b := p.buffer) (n := 20) (by omega)
    have hlen : (p.buffer.buffer.take 20).length = 20 := by
      rw [List.length_take]
      exact min_eq_left (not_lt.1 hshort)
    have hfull : (sha1.hash (A ++ c.srp.lastM1)).take 20 = sha1.hash (A ++ c.srp.lastM1) :=
      List.take_of_length_le hlenhash.le
    rw [h0, List.drop_zero] at hread
    simp only [hread, SRP6.verifyServerProof, hA, bind, Except.bind, pure, Except.pure, hlen, hfull,
      beq_iff_eq]

/-- The raw packets accepted. -/
lemma Remembers.acceptsRaw_iff (h : c.Remembers) (raw : Bytes) :
    acceptsRaw sha1 c .authSession raw = true ↔
      ∃ p, parseAuth raw = some p ∧ c.ShowsServer sha1 p := by
  unfold acceptsRaw parseAuth
  cases hdes : AuthPacket.deserialize { opcode := AuthOpcodes.emptyStage } raw with
  | mk res p =>
    cases res with
    | error e => simp
    | ok u =>
      have hok : (AuthPacket.deserialize { opcode := AuthOpcodes.emptyStage } raw).1 = .ok () := by
        rw [hdes]
      have hback := @PacketOf.buildPacket_of_deserialize _ authFormat (by decide) _ raw hok
      rw [← AuthPacket.deserialize, hdes] at hback
      simp only [h.acceptsPacket_iff hback.2, Option.some.injEq, exists_eq_left']

/-- The reads that complete such a packet. -/
lemma Remembers.acceptsRead_iff (h : c.Remembers) (bytes : Bytes) (op : ReadOp) :
    acceptsRead sha1 c bytes op = true ↔
      ∃ p, (op.authFrame bytes).bind parseAuth = some p ∧ c.ShowsServer sha1 p := by
  cases op with
  | header mode =>
    cases mode with
    | authSession =>
      rw [acceptsRead, Bool.and_eq_true, decide_eq_true_eq, h.acceptsRaw_iff, ReadOp.authFrame]
      split_ifs with hempty <;> simp [hempty]
    | workSession => simp [acceptsRead, acceptsRaw, ReadOp.authFrame]
  | payload mode header length =>
    cases mode with
    | authSession => exact h.acceptsRaw_iff (header ++ bytes)
    | workSession => simp [acceptsRead, acceptsRaw, ReadOp.authFrame]

/-- **The events that switch the mode.** -/
lemma Remembers.acceptsProof_iff (h : c.Remembers) (e : ClientEvent) :
    c.acceptsProof sha1 e = true ↔ ∃ p, c.taken e = some p ∧ c.ShowsServer sha1 p := by
  cases e with
  | readDone i bytes rand =>
    cases hread : c.reads[i]? with
    | none => simp [acceptsProof, taken, hread]
    | some op =>
      simp only [acceptsProof, taken, hread, Option.any_some, Option.bind_some]
      exact h.acceptsRead_iff bytes op.op
  | _ => simp [acceptsProof, taken]

/-- The `SMSG_AUTH_LOGON_PROOF` of whoever has read what the client has sent last as its proof, and
knows nothing else. -/
def echoedProof (sha1 : Sha1) (sent : List Packet) : AuthPacket :=
  { opcode := AuthOpcodes.smsgAuthLogonProof, buffer := { buffer := sha1.hash (lastProof sent) } }

/-- It shows the server. -/
lemma showsServer_echoedProof (sha1 : Sha1) (c : Client) :
    c.ShowsServer sha1 (echoedProof sha1 c.sent) :=
  ⟨rfl, List.take_of_length_le (sha1.length_hash _).le⟩

/-- A client that waits for a header reads it and is in `WORK_SESSION`. -/
lemma Remembers.reads_echoedProof (h : c.Remembers) (hready : c.Ready)
    (hmode : c.sessionMode = .authSession) (sha1 : Sha1) (rand : Rand32) :
    ∃ c', c.Reads sha1 rand (Packet.auth (echoedProof sha1 c.sent)).buildPacket c' ∧
      c'.sessionMode = .workSession := by
  set p := echoedProof sha1 c.sent with hp
  have hsize : p.buffer.buffer.length ≤ 2048 := by
    rw [hp, echoedProof, sha1.length_hash]
    decide
  have hframe : WholeFrame c.sessionMode (Packet.auth p).buildPacket := by
    rw [hmode]
    exact Packet.wholeFrame (p := .auth p) hsize
  have hparse : parseAuth (Packet.auth p).buildPacket = some p := by
    have hbuild : (Packet.auth p).buildPacket = authFormat.frame p.opcode p.buffer.buffer :=
      PacketOf.buildPacketWith_eq authFormat p
    have hfits : p.buffer.buffer.length ≤ 65535 := hsize.trans (by decide)
    simp only [parseAuth, AuthPacket.deserialize, hbuild, PacketOf.deserialize_frame, if_pos hfits]
    rfl
  have harrive : (c.arrive (Packet.auth p).buildPacket).Remembers := h.of_eq rfl rfl rfl
  have haccepts : acceptsRaw sha1 (c.arrive (Packet.auth p).buildPacket) .authSession
      (Packet.auth p).buildPacket = true :=
    (harrive.acceptsRaw_iff _).2 ⟨p, hparse, showsServer_echoedProof sha1 c⟩
  refine ⟨_, hready.reads_takeFrame hframe, ?_⟩
  show ((c.arrive (Packet.auth p).buildPacket).handleRaw sha1 c.sessionMode
    (Packet.auth p).buildPacket rand).sessionMode = _
  rw [hmode, handleRaw_mode, if_pos haccepts]

/-- **The client is in `WORK_SESSION` exactly if it has been shown the server.** In every run of the
client, with any number of connections, lost and restored, and whatever the servers send, the client
is in `WORK_SESSION` if and only if at some step of the run a read completed a frame of
`AUTH_SESSION` with an `SMSG_AUTH_LOGON_PROOF` whose first 20 bytes are the hash of the payload of
the last `CMSG_AUTH_LOGON_PROOF` the client had sent by then, on whatever connection, or of 32 zero
bytes if it had sent none. So whoever has read what the client sends can be the server: whenever the
client waits for a header in `AUTH_SESSION`, it can read the frame with that hash, and is then in
`WORK_SESSION`.

**Proof sketch.** The mode is a latch that an accepted proof sets, and what the client remembers is
what it has sent last. -/
theorem workSession_iff_shown (sha1 : Sha1) (es : List ClientEvent) (c : Client)
    (h : Run.exec (Client.step sha1) (Client.new sha1) es = some c) :
    (c.sessionMode = .workSession ↔ ∃ fs e gs d, es = fs ++ e :: gs ∧
      Run.exec (Client.step sha1) (Client.new sha1) fs = some d ∧
      ∃ p, d.taken e = some p ∧ d.ShowsServer sha1 p) ∧
    (c.Ready → c.sessionMode = .authSession → ∀ rand, ∃ c',
      c.Reads sha1 rand (Packet.auth (echoedProof sha1 c.sent)).buildPacket c' ∧
        c'.sessionMode = .workSession) := by
  have hstep : ∀ (c : Client) (e : ClientEvent) (c' : Client), c.Remembers →
      c.step sha1 e = some c' → c'.Remembers := fun c e c' hc hstep => hc.step hstep
  have hremembers : c.Remembers := Run.exec_invariant hstep (remembers_new sha1) h
  refine ⟨Run.latched_iff (M := fun c => c.sessionMode = .workSession)
    (T := fun d e => ∃ p, d.taken e = some p ∧ d.ShowsServer sha1 p) hstep ?_ (remembers_new sha1)
    nofun h, fun hready hmode rand => hremembers.reads_echoedProof hready hmode sha1 rand⟩
  intro c e c' hc hstep
  rw [step_mode hstep, ← hc.acceptsProof_iff]
  split_ifs with haccept <;> simp [haccept]

/-- A server that sends its proof first. -/
def unaskedEvents : List ClientEvent :=
  [.connect, .connectDone 0, .readDone 0 [6, 0, 20] sampleRand,
    .readDone 0 (SRP6.sampleSha1.hash (List.replicate 32 0)) sampleRand]

/-- The client takes it, although it has not logged in. -/
theorem workSession_iff_shown_unasked :
    ∃ c, Run.exec (Client.step SRP6.sampleSha1) (Client.new SRP6.sampleSha1) unaskedEvents =
        some c ∧ c.sessionMode = .workSession ∧ c.sent = [] ∧
      ∃ fs e gs d, unaskedEvents = fs ++ e :: gs ∧
        Run.exec (Client.step SRP6.sampleSha1) (Client.new SRP6.sampleSha1) fs = some d ∧
        ∃ p, d.taken e = some p ∧ d.ShowsServer SRP6.sampleSha1 p := by
  have hrun : (Run.exec (Client.step SRP6.sampleSha1) (Client.new SRP6.sampleSha1)
      unaskedEvents).map (fun c => (c.sessionMode, c.sent)) = some (.workSession, []) := by
    decide +kernel
  obtain ⟨c, hc, hval⟩ := Option.map_eq_some_iff.1 hrun
  simp only [Prod.mk.injEq] at hval
  exact ⟨c, hc, hval.1, hval.2, (workSession_iff_shown SRP6.sampleSha1 _ c hc).1.1 hval.1⟩

end Client

end Purity
