import Purity.Base.Run
import Purity.Client.Effect

set_option relaxedAutoImplicit false
set_option autoImplicit false

/-!
# What a client carries into a new connection

The mode of a client and its queue outlive a connection: `connect`, `schedule_reconnect` and
`disconnect` leave both alone. A new session of the server is in `AUTH_SESSION`
(`ClientSession::start`), and so is the client, with only Auth frames in its queue, exactly as long
as it has not accepted an `SMSG_AUTH_LOGON_PROOF`. After a login every further connection starts in
the wrong mode.

## Main definitions

* `Purity.Client.FreshConnect` — the client is as a new session expects it.
* `Purity.Client.acceptsProof` — the step makes the client accept an `SMSG_AUTH_LOGON_PROOF`.

## Main results

* `Purity.Client.freshConnect_iff_neverAfter` — in a run all connections are established by a client
  as a new session expects it exactly when none is established after such a step.
-/

namespace Purity

/-- What a client sends in `AUTH_SESSION` are Auth packets. -/
lemma SendsBy.auth {c : Client} {e : ClientEvent} {p : Packet} (h : SendsBy c e p)
    (hmode : c.sessionMode = .authSession) : ∃ q, p = .auth q := by
  cases h with
  | ping i pingId w hwait hfired hconn =>
    rw [hmode]
    exact ⟨_, rfl⟩
  | message msg hwork =>
    rw [hmode] at hwork
    cases hwork
  | challenge username password => exact ⟨_, rfl⟩
  | proof i bytes rand header A M1 length aborted hread hopcode hA hM1 => exact ⟨_, rfl⟩

namespace Client

/-! ## The property -/

/-- The client is as a new session expects it: it is in `AUTH_SESSION`, and what its queue holds
are the frames of the Auth packets it was last asked to send. -/
structure FreshConnect (c : Client) : Prop where
  mode : c.sessionMode = .authSession
  frames : ∃ ps : List AuthPacket, ps.map Packet.auth <:+ c.sent ∧
    c.outgoingQueue = ps.map AuthPacket.buildPacket

/-! ## The condition -/

/-- The packet is an `SMSG_AUTH_LOGON_PROOF` that `verify_server_proof` accepts. -/
def acceptsPacket (sha1 : Sha1) (c : Client) (p : AuthPacket) : Bool :=
  decide (p.opcode = AuthOpcodes.smsgAuthLogonProof) &&
    match p.buffer.readBytes 20 with
    | .error _ => false
    | .ok (M2, _) =>
      match c.srp.verifyServerProof sha1 c.srp.lastM1 M2 with
      | .error _ => false
      | .ok accepted => accepted

/-- The raw packet of a mode is parsed as such a packet. -/
def acceptsRaw (sha1 : Sha1) (c : Client) (mode : SessionMode) (raw : Bytes) : Bool :=
  match mode with
  | .workSession => false
  | .authSession =>
    match AuthPacket.deserialize { opcode := AuthOpcodes.emptyStage } raw with
    | (.error _, _) => false
    | (.ok (), p) => acceptsPacket sha1 c p

/-- The bytes complete a frame that the client accepts: a header without a payload, or a payload. -/
def acceptsRead (sha1 : Sha1) (c : Client) (bytes : Bytes) : ReadOp → Bool
  | .header mode => decide (declaredSize mode bytes = 0) && acceptsRaw sha1 c mode bytes
  | .payload mode header _ => acceptsRaw sha1 c mode (header ++ bytes)

/-- The event is a read that completes a frame with an `SMSG_AUTH_LOGON_PROOF` the client
accepts. -/
def acceptsProof (sha1 : Sha1) (c : Client) : ClientEvent → Bool
  | .readDone i bytes _ => c.reads[i]?.any fun p => acceptsRead sha1 c bytes p.op
  | _ => false

/-! ## The mode after a step -/

section Mode

variable {sha1 : Sha1} {c c' : Client} {p : AuthPacket} {rand : Rand32}

/-- A packet that `handle_packet` throws on is not accepted. -/
lemma acceptsPacket_of_error {e : Exn} (h : handlePacketAuth sha1 c p rand = .error e) :
    acceptsPacket sha1 c p = false := by
  by_cases hproof : p.opcode = AuthOpcodes.smsgAuthLogonProof
  · have hpong : p.opcode ≠ AuthOpcodes.smsgPong := by rw [hproof]; decide
    have hchal : p.opcode ≠ AuthOpcodes.smsgAuthLogonChallenge := by rw [hproof]; decide
    rw [handlePacketAuth, if_neg hpong, if_neg hchal, if_pos hproof] at h
    unfold acceptsPacket
    cases hM2 : p.buffer.readBytes 20 with
    | error e => simp
    | ok r =>
      cases hver : c.srp.verifyServerProof sha1 c.srp.lastM1 r.1 with
      | error e => simp [hver]
      | ok accepted =>
        simp only [hM2, bind, Except.bind, hver] at h
        cases accepted <;> cases h
  · simp [acceptsPacket, hproof]

/-- `handle_packet` switches the mode exactly for a packet the client accepts. -/
lemma handlePacketAuth_mode (h0 : p.buffer.readPos = 0)
    (h : handlePacketAuth sha1 c p rand = .ok c') :
    c'.sessionMode = if acceptsPacket sha1 c p then .workSession else c.sessionMode := by
  by_cases hproof : p.opcode = AuthOpcodes.smsgAuthLogonProof
  · have hpong : p.opcode ≠ AuthOpcodes.smsgPong := by rw [hproof]; decide
    have hchal : p.opcode ≠ AuthOpcodes.smsgAuthLogonChallenge := by rw [hproof]; decide
    rw [handlePacketAuth, if_neg hpong, if_neg hchal, if_pos hproof] at h
    unfold acceptsPacket
    cases hM2 : p.buffer.readBytes 20 with
    | error e => rw [hM2] at h; cases h
    | ok r =>
      rw [hM2] at h
      cases hver : c.srp.verifyServerProof sha1 c.srp.lastM1 r.1 with
      | error e => simp only [bind, Except.bind, hver] at h; cases h
      | ok accepted =>
        simp only [bind, Except.bind, hver] at h
        cases accepted with
        | false => cases h; simp [hproof, hver, disconnect]
        | true => cases h; simp [hproof, hver]
  · rw [if_neg (by simp [acceptsPacket, hproof])]
    cases handlePacketAuth_effect h0 h with
    | keep h hmode => exact hmode
    | proof d A M1 hauth hopcode hpayload hA hM1 h hmode hsend =>
      rw [hsend, sendPacket_sessionMode, hmode]
    | switch hauth hopcode h hmode => exact absurd (Option.some.inj hopcode) hproof

/-- Handling a raw packet switches the mode exactly if the client accepts it. -/
lemma handleRaw_mode (sha1 : Sha1) (c : Client) (mode : SessionMode) (raw : Bytes)
    (rand : Rand32) : (c.handleRaw sha1 mode raw rand).sessionMode =
      if acceptsRaw sha1 c mode raw then .workSession else c.sessionMode := by
  cases mode with
  | workSession =>
    unfold handleRaw acceptsRaw
    dsimp only
    split <;> rfl
  | authSession =>
    unfold handleRaw acceptsRaw
    dsimp only
    cases hdes : AuthPacket.deserialize { opcode := AuthOpcodes.emptyStage } raw with
    | mk res p =>
      cases res with
      | error e => rfl
      | ok u =>
        have hok : (AuthPacket.deserialize { opcode := AuthOpcodes.emptyStage } raw).1 =
            .ok () := by
          rw [hdes]
        have hback := @PacketOf.buildPacket_of_deserialize _ authFormat (by decide) _ raw hok
        rw [← AuthPacket.deserialize, hdes] at hback
        dsimp only
        cases hres : handlePacketAuth sha1 c p rand with
        | error e => simp [acceptsPacket_of_error hres]
        | ok c' => exact handlePacketAuth_mode hback.2 hres

/-- The completion of a read switches the mode exactly if the client accepts what it completes. -/
lemma readHandler_mode (sha1 : Sha1) (c : Client) {op : ReadOp} {bytes : Bytes} (rand : Rand32)
    (hsize : bytes.length = op.size) : (readHandler sha1 c op bytes rand).sessionMode =
      if acceptsRead sha1 c bytes op then .workSession else c.sessionMode := by
  cases op with
  | payload mode header length => exact handleRaw_mode sha1 c mode (header ++ bytes) rand
  | header mode =>
    have hfield := lengthField_header hsize
    -- a header with a payload to come is not a frame yet
    have hpayload : declaredSize mode bytes ≠ 0 →
        acceptsRead sha1 c bytes (.header mode) = false := by
      intro hne
      simp [acceptsRead, hne]
    unfold readHandler
    dsimp only
    by_cases hbig : 2048 < ((bytes.getD (mode.headerSize - 2) 0).toUInt16 <<< 8 |||
        (bytes.getD (mode.headerSize - 1) 0).toUInt16).toNat
    · rw [if_pos hbig, hpayload (by omega)]
      rfl
    rw [if_neg hbig]
    by_cases hzero : ((bytes.getD (mode.headerSize - 2) 0).toUInt16 <<< 8 |||
        (bytes.getD (mode.headerSize - 1) 0).toUInt16) = 0
    · have hempty : declaredSize mode bytes = 0 := by
        rw [← hfield, hzero]
        rfl
      rw [if_pos hzero, acceptsRead, hempty]
      exact handleRaw_mode sha1 c mode bytes rand
    · have hne : declaredSize mode bytes ≠ 0 := by
        rw [← hfield]
        exact fun h => hzero (UInt16.toNat_inj.1 h)
      rw [if_neg hzero, hpayload hne]
      rfl

/-- Steps other than the completion of a read leave the mode alone. -/
lemma mode_of_ne_readDone {e : ClientEvent} (h : c.step sha1 e = some c')
    (he : ∀ i bytes rand, e ≠ .readDone i bytes rand) : c'.sessionMode = c.sessionMode := by
  cases step_send h with
  | keep e c' hsend hmode hconn hconns => exact hmode
  | send e c' p hby hqueue hsent hpopped hstarted hmode hconn hconns => exact hmode
  | pop i c' front rest hqueue hne hqueue' hsent hpopped hstarted hmode hconn hconns => exact hmode
  | established i c' hqueue hsent hpopped hstarted hmode hconn hconns => exact hmode
  | switch i bytes rand c' p hread hopcode hsend hmode hconn hconns =>
    exact absurd rfl (he i bytes rand)

/-- **The mode after a step**: it is switched by an accepted proof and by nothing else, and it is
never switched back. -/
lemma step_mode {e : ClientEvent} (h : c.step sha1 e = some c') :
    c'.sessionMode = if c.acceptsProof sha1 e then .workSession else c.sessionMode := by
  cases e with
  | readDone i bytes rand =>
    cases step_transition h with
    | readDone i bytes rand p hread hlive hsize =>
      simp only [acceptsProof, hread, Option.any_some]
      exact readHandler_mode sha1 _ rand hsize
  | _ => exact mode_of_ne_readDone h nofun

end Mode

/-! ## Before a login -/

/-- What holds as long as the client has accepted no proof: it is in `AUTH_SESSION`, it was asked to
send Auth packets only, and its queue holds the last of them. -/
structure BeforeLogin (c : Client) : Prop where
  mode : c.sessionMode = .authSession
  sent : ∃ ps : List AuthPacket, c.sent = ps.map Packet.auth
  queued : c.popped ++ c.outgoingQueue = c.sent.map Packet.buildPacket

namespace BeforeLogin

variable {sha1 : Sha1} {c c' : Client}

/-- A client just constructed. -/
lemma new (sha1 : Sha1) : (Client.new sha1).BeforeLogin := ⟨rfl, ⟨[], rfl⟩, rfl⟩

/-- It is as a new session expects it. -/
lemma freshConnect (hc : c.BeforeLogin) : c.FreshConnect := by
  obtain ⟨ps, hps⟩ := hc.sent
  refine ⟨hc.mode, ps.drop c.popped.length, ?_, ?_⟩
  · rw [hps, List.map_drop]
    exact List.drop_suffix _ _
  · have hq : c.outgoingQueue = (c.popped ++ c.outgoingQueue).drop c.popped.length := by simp
    rw [hq, hc.queued, hps, List.map_map, List.map_drop]
    rfl

/-- A step that accepts no proof keeps it. -/
lemma step {e : ClientEvent} (hc : c.BeforeLogin) (h : c.step sha1 e = some c')
    (he : c.acceptsProof sha1 e = false) : c'.BeforeLogin := by
  refine ⟨?_, ?_, (step_send h).queued hc.queued⟩
  · rw [step_mode h, he]
    exact hc.mode
  · obtain ⟨ps, hps⟩ := hc.sent
    cases step_send h with
    | keep e c' hsend hmode hconn hconns => exact ⟨ps, by rw [hsend, hps]⟩
    | send e c' p hby hqueue hsent hpopped hstarted hmode hconn hconns =>
      obtain ⟨q, rfl⟩ := hby.auth hc.mode
      exact ⟨ps ++ [q], by rw [hsent, hps, List.map_append, List.map_singleton]⟩
    | pop i c' front rest hqueue hne hqueue' hsent hpopped hstarted hmode hconn hconns =>
      exact ⟨ps, by rw [hsent, hps]⟩
    | established i c' hqueue hsent hpopped hstarted hmode hconn hconns =>
      exact ⟨ps, by rw [hsent, hps]⟩
    | switch i bytes rand c' p hread hopcode hsend hmode hconn hconns =>
      exact ⟨ps, by rw [hsend, hps]⟩

end BeforeLogin

/-- **Mode agreement across connections.** In every run of a client, with any number of connections,
logins, failures and sends while it is not connected, each connection is established by a client in
`AUTH_SESSION` with only Auth frames in its queue exactly when none is established after the client
accepted an `SMSG_AUTH_LOGON_PROOF`.

**Proof sketch.** Until then `BeforeLogin` holds. Then the mode is `WORK_SESSION`, and no step
switches it back. -/
theorem freshConnect_iff_neverAfter (sha1 : Sha1) (es : List ClientEvent) :
    Run.StepsMeet (Client.step sha1) (fun c e => (∃ i, e = .connectDone i) → c.FreshConnect)
        (Client.new sha1) es ↔
      Run.NeverAfter (Client.step sha1) (fun c e => c.acceptsProof sha1 e = true)
        (fun _ e => ∃ i, e = .connectDone i) (Client.new sha1) es := by
  refine Run.stepsMeet_iff_neverAfter (Z := BeforeLogin)
    (W := fun c => c.sessionMode = .workSession) ?_ ?_ ?_ ?_ ?_ (BeforeLogin.new sha1) es
  · intro c e c' hc hstep haccept
    rw [step_mode hstep, haccept]
    rfl
  · intro c e c' hc hstep hnot
    exact hc.step hstep (by simpa using hnot)
  · intro c e c' hc hstep
    rw [step_mode hstep, hc, ite_self]
  · intro c hc
    exact hc.freshConnect
  · intro c hc hfresh
    rw [hfresh.mode] at hc
    cases hc

/-- A client logs in, up to the answer to its proof, which it accepts; then the read of the next
header fails, and the client is about to connect again. -/
def droppedEvents : List ClientEvent :=
  [.connect,
    .connectDone 0,
    .logonChallenge [65] [66],
    .writeDone 0,
    .readDone 0 [4, 0, 97] sampleRand,
    .readDone 0 (SRP6.sampleKey ++ [7] ++ bnToBin SRP6.modulus ++ List.replicate 32 0) sampleRand,
    .writeDone 0,
    .readDone 0 [6, 0, 20] sampleRand,
    .readDone 0 (SRP6.sampleSha1.hash (SRP6.sampleKey ++ SRP6.sampleM1)) sampleRand,
    .readError 0,
    .sendMessage [72, 105],
    .reconnect 0]

/-- When the connection is established again, the client is in `WORK_SESSION`, and the frame of the
message it was given in between is a Work frame. -/
theorem reconnects_in_work :
    (∃ c, Run.exec (Client.step SRP6.sampleSha1) (Client.new SRP6.sampleSha1) droppedEvents =
        some c ∧ c.sessionMode = .workSession ∧
      c.outgoingQueue = [(messagePacket [72, 105]).buildPacket]) ∧
    ¬ Run.StepsMeet (Client.step SRP6.sampleSha1)
      (fun c e => (∃ i, e = .connectDone i) → c.FreshConnect) (Client.new SRP6.sampleSha1)
      (droppedEvents ++ [.connectDone 0]) := by
  have hrun : (Run.exec (Client.step SRP6.sampleSha1) (Client.new SRP6.sampleSha1)
      droppedEvents).map (fun c => (c.sessionMode, c.outgoingQueue, c.connects, c.fault)) =
        some (.workSession, [(messagePacket [72, 105]).buildPacket], [⟨(), false⟩], none) := by
    decide +kernel
  obtain ⟨c, hc, hval⟩ := Option.map_eq_some_iff.1 hrun
  simp only [Prod.mk.injEq] at hval
  obtain ⟨hmode, hqueue, hconnects, hfault⟩ := hval
  refine ⟨⟨c, hc, hmode, hqueue⟩, fun h => ?_⟩
  have hstep : c.step SRP6.sampleSha1 (.connectDone 0) =
      some (connectHandler { c with connects := c.connects.eraseIdx 0 }) := by
    simp [Client.step, hfault, hconnects]
  have hfresh := (h.exec hc _ hstep).1 ⟨0, rfl⟩
  rw [hfresh.mode] at hmode
  cases hmode

end Client

end Purity
