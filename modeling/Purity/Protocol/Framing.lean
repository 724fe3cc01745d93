import Purity.Protocol.Net
import Purity.Server.Login

set_option relaxedAutoImplicit false
set_option autoImplicit false

/-!
# Framing agreement

The two ends switch from Auth to Work framing at different times: the session when it handles the
proof, the client when it accepts the answer. The client's stream is read correctly exactly as long
as the packet it sends next has the framing the session will be in when it gets there, which is that
of the packets before it: Auth up to and including the first proof, and Work after that.

## Main definitions

* `Purity.Agrees` — every frame the session parses was built by the client, in the framing it is
  parsed with.
* `Purity.SendsInTurn` — the step builds no Auth frame after a proof, and no frame whose length does
  not fit.
* `Purity.Early` — what holds as long as the client has not sent a proof.

## Main results

* `Purity.agrees_of_sendsInTurn` — a run whose steps all send in turn always agrees.
* `Purity.ping_after_proof` — a ping between the proof and its answer is read under the wrong
  header.

## Design

That the client is in `WORK_SESSION` only after it sent a proof is not a local fact: it holds
because the session sends `SMSG_AUTH_LOGON_PROOF` only after a proof, and the client reads the
session's frames as they were sent until then. `Early` carries that argument.
-/

namespace Purity

/-! ## The property -/

/-- Every frame the session has parsed is the next one the client built, and was parsed in the
framing it was built in; and what waits in the receive buffer of an open session begins with a frame
in the framing of its current mode. -/
structure Agrees (n : Net) : Prop where
  dispatched : n.server.dispatched.map (·.packet) <+: n.client.sent
  framing : ∀ d ∈ n.server.dispatched, d.raw = d.packet.buildPacket ∧ d.packet.mode = d.mode
  front : n.server.closed = false → n.server.readBuffer.active ≠ [] →
    ∃ q rest, n.client.sent = n.server.dispatched.map (·.packet) ++ q :: rest ∧
      q.mode = n.server.sessionMode ∧ n.server.readBuffer.active <+: streamOf (q :: rest)

/-! ## The condition -/

/-- The client has sent a proof with both fields. -/
def Client.proofSent (c : Client) : Bool := c.sent.any Packet.switches

/-- The bytes complete the frame of a `SMSG_AUTH_LOGON_CHALLENGE`. -/
def ReadOp.completesChallenge (bytes : Bytes) : ReadOp → Bool
  | .payload .authSession head _ =>
    (head ++ bytes).head? == some AuthOpcodes.smsgAuthLogonChallenge
  | _ => false

/-- The event makes the client build an Auth frame: the heartbeat timer fires in `AUTH_SESSION`, the
application asks for a login, or a challenge of the server arrives. -/
def Client.buildsAuth (c : Client) : ClientEvent → Bool
  | .heartbeat i _ => c.heartbeatWaits[i]?.any (fun w => !w.aborted) && c.connected &&
      decide (c.sessionMode = .authSession)
  | .logonChallenge _ _ => true
  | .readDone i bytes _ => c.reads[i]?.any fun p => p.op.completesChallenge bytes
  | _ => false

/-- The event makes the client build a frame whose length does not fit its field. -/
def Client.buildsLong (c : Client) : ClientEvent → Bool
  | .logonChallenge username _ => decide (65535 ≤ username.length)
  | .sendMessage msg => decide (c.sessionMode = .workSession) && decide (65535 ≤ msg.length)
  | _ => false

/-- The step builds no Auth frame after the client's first proof, and no frame that is too long. -/
def SendsInTurn (n : Net) : NetEvent → Prop
  | .client e => (n.client.buildsAuth e = true → n.client.proofSent = false) ∧
      n.client.buildsLong e = false
  | .server _ _ => True

instance (n : Net) : ∀ e, Decidable (SendsInTurn n e)
  | .client _ => inferInstanceAs (Decidable (_ ∧ _))
  | .server _ _ => isTrue trivial

namespace SendsBy

variable {c : Client} {e : ClientEvent} {p : Packet}

/-- What the client builds is unread. -/
lemma unread (h : SendsBy c e p) : p.buffer.readPos = 0 := by
  cases h with
  | ping i pingId w hwait hfired hconn => cases c.sessionMode <;> rfl
  | message msg hmode => rfl
  | challenge username password => rfl
  | proof i bytes rand header A M1 length aborted hread hopcode hA hM1 => rfl

/-- The client builds Work frames in `WORK_SESSION` only; other frames are Auth frames. -/
lemma mode (h : SendsBy c e p) :
    p.mode = .workSession ∧ c.sessionMode = .workSession ∨
      p.mode = .authSession ∧ c.buildsAuth e = true := by
  cases h with
  | ping i pingId w hwait hfired hconn =>
    cases hmode : c.sessionMode with
    | authSession => exact .inr ⟨rfl, by simp [Client.buildsAuth, hwait, hfired, hconn, hmode]⟩
    | workSession => exact .inl ⟨rfl, rfl⟩
  | message msg hmode => exact .inl ⟨rfl, hmode⟩
  | challenge username password => exact .inr ⟨rfl, rfl⟩
  | proof i bytes rand header A M1 length aborted hread hopcode hA hM1 =>
    refine .inr ⟨rfl, ?_⟩
    rw [Client.buildsAuth, hread]
    exact beq_iff_eq.2 hopcode

/-- A text is written with a zero byte. -/
lemma length_text (str : Bytes) :
    (({} : ByteBuffer).writeStringNtLe str).buffer.length = str.length + 1 := by
  simp [ByteBuffer.writeStringNtLe, ByteBuffer.writeStringRawLe, ByteBuffer.writeUint8,
    ByteBuffer.writeBytes]

/-- The length of what the client builds fits its field. -/
lemma size (h : SendsBy c e p) (hlong : c.buildsLong e = false) : p.payload.length ≤ 65535 := by
  cases h with
  | ping i pingId w hwait hfired hconn =>
    have hlen : (Client.pingPacket c.sessionMode pingId).payload.length = 4 := by
      cases c.sessionMode <;> exact Endian.length_toLE 4 _
    omega
  | message msg hmode =>
    have hlen : (Client.messagePacket msg).payload.length = msg.length + 1 := length_text msg
    have hshort : msg.length < 65535 := by simpa [Client.buildsLong, hmode] using hlong
    omega
  | challenge username password =>
    have hlen : (Client.challengePacket username).payload.length = username.length + 1 :=
      length_text username
    have hshort : username.length < 65535 := by simpa [Client.buildsLong] using hlong
    omega
  | proof i bytes rand header A M1 length aborted hread hopcode hA hM1 =>
    have hlen : (Client.proofPacket A M1).payload.length = 52 := by
      simp [Client.proofPacket, Packet.payload, Packet.buffer, ByteBuffer.writeBytes, hA, hM1]
    omega

end SendsBy

/-! ## Streams -/

/-- After the frames `hs` of a stream comes another, if there are more bytes. -/
lemma exists_next {hs ps : List Packet} {bytes : Bytes} (hpre : hs <+: ps)
    (h : streamOf hs ++ bytes <+: streamOf ps) (hne : bytes ≠ []) :
    ∃ q rest, ps = hs ++ q :: rest ∧ bytes <+: streamOf (q :: rest) := by
  obtain ⟨more, rfl⟩ := hpre
  rw [streamOf_append, List.prefix_append_right_inj] at h
  cases more with
  | nil => exact absurd (List.prefix_nil.1 h) hne
  | cons q rest => exact ⟨q, rest, rfl, h⟩

/-- The packet at the front of a stream of frames in its framing is the one that was built. -/
lemma front_eq {p q : Packet} {rest : Bytes} {ps : List Packet} (hmode : p.mode = q.mode)
    (hp : p.buffer.readPos = 0 ∧ p.payload.length ≤ 65535)
    (hq : q.buffer.readPos = 0 ∧ q.payload.length ≤ 65535)
    (h : p.buildPacket ++ rest <+: streamOf (q :: ps)) : p = q := by
  obtain ⟨more, hmore⟩ := h
  rw [List.append_assoc] at hmore
  exact (Packet.buildPacket_append_inj hmode hp.1 hq.1 hp.2 hq.2 hmore).1

/-- A packet may follow a well-moded list if it has the framing of the mode reached. -/
lemma WellModed.concat {mode : SessionMode} {ps : List Packet} {p : Packet}
    (h : WellModed mode ps) (hp : p.mode = modeAfter mode ps) : WellModed mode (ps ++ [p]) := by
  induction ps generalizing mode with
  | nil => exact ⟨hp, trivial⟩
  | cons q ps ih => exact ⟨h.1, ih h.2 hp⟩

/-- The mode the packets lead to from `AUTH_SESSION`. -/
lemma modeAfter_eq_auth {ps : List Packet} (h : ps.any Packet.switches = false) :
    modeAfter .authSession ps = .authSession := by
  cases hmode : modeAfter .authSession ps with
  | authSession => rfl
  | workSession =>
    obtain hauth | ⟨p, hp, hsw⟩ := (modeAfter_eq_work_iff _ _).1 hmode
    · cases hauth
    · rw [List.any_eq_true.2 ⟨p, hp, hsw⟩] at h
      cases h

/-! ## Before the proof -/

/-- Where an outstanding read of the client stands in the stream of the session's frames: at the
beginning of a frame, or after its header. -/
def ReadOp.Synced (received : Bytes) (executed : List Packet) : ReadOp → Prop
  | .header mode => mode = .authSession ∧ ∃ hs, hs <+: executed ∧ received = streamOf hs
  | .payload mode head length => mode = .authSession ∧ ∃ hs q, hs ++ [q] <+: executed ∧
      received = streamOf hs ++ head ∧ q.buildPacket = head ++ q.payload ∧
      q.payload.length = length

/-- What holds as long as the client has not sent a proof: the session sends early replies only, and
the client reads them frame by frame. -/
structure Early (n : Net) : Prop where
  replies : ∀ q ∈ n.server.outgoing, q.EarlyReply
  reads : ∀ op ∈ n.client.ops, op.Synced n.client.received n.server.executed

/-- A read stays where it is when the session goes on sending. -/
lemma ReadOp.Synced.mono {received : Bytes} {executed executed' : List Packet} {op : ReadOp}
    (h : op.Synced received executed) (hpre : executed <+: executed') :
    op.Synced received executed' := by
  cases op with
  | header mode =>
    obtain ⟨hmode, hs, hhs, hrecv⟩ := h
    exact ⟨hmode, hs, hhs.trans hpre, hrecv⟩
  | payload mode head length =>
    obtain ⟨hmode, hs, q, hhs, hrest⟩ := h
    exact ⟨hmode, hs, q, hhs.trans hpre, hrest⟩

/-- The header that arrives at the beginning of a frame is that of the frame. -/
lemma ReadOp.Synced.header_arrives {received bytes : Bytes} {executed : List Packet}
    {mode : SessionMode} (h : (ReadOp.header mode).Synced received executed)
    (hreplies : ∀ q ∈ executed, q.EarlyReply) (hsize : bytes.length = mode.headerSize)
    (hnext : received ++ bytes <+: streamOf executed) :
    ∃ hs q, hs ++ [q] <+: executed ∧ received = streamOf hs ∧
      q.buildPacket = bytes ++ q.payload ∧ q.payload.length = declaredSize mode bytes := by
  obtain ⟨rfl, hs, hhs, rfl⟩ := h
  have hne : bytes ≠ [] := by
    rintro rfl
    cases hsize
  obtain ⟨q, rest, rfl, hbytes⟩ := exists_next hhs hnext hne
  have hq := hreplies q (by simp)
  -- the header is what stands before the payload
  obtain ⟨head, hhead⟩ : ∃ head, q.buildPacket = head ++ q.payload := by
    refine ⟨q.opcodeBytes ++ Endian.toBE 2 q.payload.length, ?_⟩
    rw [Packet.buildPacket_eq, List.append_assoc]
  have hlen : head.length = bytes.length := by
    have hsum := congrArg List.length hhead
    rw [Packet.length_buildPacket, List.length_append, hq.mode] at hsum
    omega
  obtain rfl : bytes = head := by
    obtain ⟨more, hmore⟩ := hbytes
    rw [streamOf_cons, hhead, List.append_assoc] at hmore
    exact (List.append_inj hmore hlen.symm).1
  refine ⟨hs, q, ⟨rest, by simp⟩, rfl, hhead, ?_⟩
  have hdecl := Packet.declaredSize_buildPacket (hq.size.trans (by decide)) []
  rw [hq.mode, List.append_nil, hhead, declaredSize, List.drop_append_of_le_length (by omega),
    List.take_append_of_le_length (by rw [List.length_drop, hsize]; decide)] at hdecl
  exact hdecl.symm

/-- The payload that arrives after a header is that of the frame. -/
lemma ReadOp.Synced.payload_arrives {received bytes head : Bytes} {executed : List Packet}
    {mode : SessionMode} {length : ℕ}
    (h : (ReadOp.payload mode head length).Synced received executed)
    (hsize : bytes.length = length) (hnext : received ++ bytes <+: streamOf executed) :
    ∃ hs q, hs ++ [q] <+: executed ∧ received = streamOf hs ++ head ∧
      q.buildPacket = head ++ bytes := by
  obtain ⟨-, hs, q, ⟨rest, rfl⟩, rfl, hhead, hlen⟩ := h
  refine ⟨hs, q, ⟨rest, rfl⟩, rfl, ?_⟩
  obtain ⟨more, hmore⟩ := hnext
  simp only [streamOf_append, streamOf_cons, streamOf_nil, List.append_nil, List.append_assoc,
    hhead, List.append_cancel_left_eq] at hmore
  rw [hhead, (List.append_inj hmore (by omega)).1]

/-! ## The invariant -/

/-- The invariant of runs that send in turn: the packets sent are well moded and their lengths fit;
those dispatched are a beginning of them; and the client is in `WORK_SESSION` only after a proof. -/
structure FramingInvariant (n : Net) : Prop extends NetInvariant n where
  wellModed : WellModed .authSession n.client.sent
  fits : ∀ p ∈ n.client.sent, p.buffer.readPos = 0 ∧ p.payload.length ≤ 65535
  dispatched : n.server.dispatched.map (·.packet) <+: n.client.sent
  work : n.client.sessionMode = .workSession → n.client.proofSent = true
  early : n.client.proofSent = false → Early n

/-- A proof sent stays sent. -/
lemma SendEffect.proofSent {c c' : Client} {e : ClientEvent} (h : SendEffect c e c')
    (hsent : c.proofSent = true) : c'.proofSent = true := by
  obtain ⟨p, hp, hsw⟩ := List.any_eq_true.1 hsent
  exact List.any_eq_true.2 ⟨p, h.sent_grows.subset hp, hsw⟩

namespace FramingInvariant

variable {sha1 : Sha1} {n : Net}

/-- It holds at the start. -/
lemma start (sha1 : Sha1) : FramingInvariant (Net.start sha1) where
  toNetInvariant := .start sha1
  wellModed := trivial
  fits := nofun
  dispatched := List.prefix_rfl
  work := nofun
  early _ := ⟨nofun, nofun⟩

/-- Before the proof the client is in `AUTH_SESSION`. -/
lemma mode_eq_auth (hn : FramingInvariant n) (h : n.client.proofSent = false) :
    n.client.sessionMode = .authSession := by
  cases hmode : n.client.sessionMode with
  | authSession => rfl
  | workSession =>
    rw [hn.work hmode] at h
    cases h

/-- The packets before one sent determine its framing. -/
lemma mode_of_sent (hn : FramingInvariant n) {pre post : List Packet} {q : Packet}
    (h : n.client.sent = pre ++ q :: post) : q.mode = modeAfter .authSession pre := by
  have hmoded := hn.wellModed
  rw [h] at hmoded
  exact hmoded.mode_eq

/-- What the client sends in turn keeps its packets well moded. -/
lemma step_sent {c : Client} {e : ClientEvent} (hn : FramingInvariant n)
    (hok : SendsInTurn n (.client e)) (h : SendEffect n.client e c) :
    WellModed .authSession c.sent ∧
      ∀ p ∈ c.sent, p.buffer.readPos = 0 ∧ p.payload.length ≤ 65535 := by
  cases h with
  | keep e c hsend hmode hconn hconns => rw [hsend]; exact ⟨hn.wellModed, hn.fits⟩
  | pop i c front rest hqueue hne hqueue' hsent hpopped hstarted hmode hconn hconns =>
    rw [hsent]; exact ⟨hn.wellModed, hn.fits⟩
  | established i c hqueue hsent hpopped hstarted hmode hconn hconns =>
    rw [hsent]; exact ⟨hn.wellModed, hn.fits⟩
  | switch i bytes rand c p hread hopcode hsend hmode hconn hconns =>
    rw [hsend]; exact ⟨hn.wellModed, hn.fits⟩
  | send e c p hby hqueue hsent hpopped hstarted hmode hconn hconns =>
    obtain ⟨hturn, hlong⟩ := hok
    rw [hsent]
    refine ⟨hn.wellModed.concat ?_, ?_⟩
    · rcases hby.mode with ⟨hwork, hclient⟩ | ⟨hauth, hbuilds⟩
      · -- a Work frame: the client is in `WORK_SESSION`, so it has sent a proof
        rw [hwork, eq_comm, modeAfter_eq_work_iff]
        exact .inr (List.any_eq_true.1 (hn.work hclient))
      · -- an Auth frame: it has not
        rw [hauth, modeAfter_eq_auth (hturn hbuilds)]
    · intro q hq
      rcases List.mem_append.1 hq with hold | hnew
      · exact hn.fits q hold
      · obtain rfl := List.mem_singleton.1 hnew
        exact ⟨hby.unread, hby.size hlong⟩

/-- The frame a completed read of the client is part of, before the proof. -/
lemma read_frame {i : ℕ} {bytes : Bytes} {op : ReadOp} (hn : FramingInvariant n)
    (hearly : n.client.proofSent = false) (hread : n.client.ops[i]? = some op)
    (hsize : bytes.length = op.size)
    (hstream : n.client.received ++ bytes <+: streamOf n.server.executed) :
    ∃ q ∈ n.server.executed, ∀ head, (op = .header .authSession ∧ head = [] ∨
      ∃ length, op = .payload .authSession head length) →
        (head ++ bytes).head? = q.buildPacket.head? := by
  have hE := hn.early hearly
  have hsync := hE.reads op (List.mem_of_getElem? hread)
  cases op with
  | header mode =>
    obtain ⟨hs, q, hpre, -, hframe, -⟩ := hsync.header_arrives
      (fun q hq => hE.replies q (List.mem_append_right _ hq)) hsize hstream
    refine ⟨q, hpre.subset (by simp), ?_⟩
    rintro head (⟨-, rfl⟩ | ⟨length, hop⟩)
    · have hne : bytes ≠ [] := by
        rintro rfl
        have := Packet.two_le_headerSize mode
        simp only [ReadOp.size, List.length_nil] at hsize
        omega
      obtain ⟨b, bs, rfl⟩ := List.exists_cons_of_ne_nil hne
      rw [hframe]
      rfl
    · cases hop
  | payload mode head length =>
    obtain ⟨hs, q, hpre, -, hframe⟩ := hsync.payload_arrives hsize hstream
    refine ⟨q, hpre.subset (by simp), ?_⟩
    rintro head' (⟨hop, -⟩ | ⟨length', hop⟩)
    · cases hop
    · cases hop
      rw [hframe]

/-- The client switches only after a proof: before it, no frame it reads is a
`SMSG_AUTH_LOGON_PROOF`. -/
lemma step_work {c : Client} {e : ClientEvent} (hn : FramingInvariant n)
    (hmay : n.clientMay e = true) (h : n.client.step sha1 e = some c)
    (hwork : c.sessionMode = .workSession) : c.proofSent = true := by
  have hsend := Client.step_send h
  cases hsent : n.client.proofSent with
  | true => exact hsend.proofSent hsent
  | false =>
    have hauth := hn.mode_eq_auth hsent
    cases hsend with
    | keep e c hsend hmode hconn hconns => simp [hmode, hauth] at hwork
    | send e c p hby hqueue hsent hpopped hstarted hmode hconn hconns =>
      simp [hmode, hauth] at hwork
    | pop i c front rest hqueue hne hqueue' hsent hpopped hstarted hmode hconn hconns =>
      simp [hmode, hauth] at hwork
    | established i c hqueue hsent hpopped hstarted hmode hconn hconns =>
      simp [hmode, hauth] at hwork
    | switch i bytes rand c p hread hopcode hsend hmode hconn hconns =>
      obtain ⟨head, hop, hproof⟩ := hopcode
      have hop' : n.client.ops[i]? = some p.op := by simp [Client.ops, hread]
      obtain ⟨q, hq, hhead⟩ := hn.read_frame hsent hop' (Client.size_of_readDone h hread)
        (hn.read_streamOf hmay)
      have hreply := (hn.early hsent).replies q (List.mem_append_right _ hq)
      rw [hhead head hop] at hproof
      exact absurd hproof hreply.opcode

/-- Before the proof, the client goes on reading frame by frame. -/
lemma step_reads {c : Client} {e : ClientEvent} (hn : FramingInvariant n)
    (hmay : n.clientMay e = true) (h : n.client.step sha1 e = some c)
    (hsent : n.client.proofSent = false) (hauth : c.sessionMode = .authSession) :
    ∀ op ∈ c.ops, op.Synced c.received n.server.executed := by
  have hE := hn.early hsent
  have hreplies : ∀ q ∈ n.server.executed, q.EarlyReply := fun q hq =>
    hE.replies q (List.mem_append_right _ hq)
  -- the completed read was the only one
  have hlast : ∀ {i : ℕ} {op : ReadOp}, n.client.ops[i]? = some op →
      n.client.ops.eraseIdx i = [] := by
    intro i op hop
    obtain ⟨hi, -⟩ := List.getElem?_eq_some_iff.1 hop
    have := hn.client.reads
    rw [← List.length_eq_zero_iff, List.length_eraseIdx_of_lt hi]
    omega
  cases Client.step_receive h with
  | keep e c hrecv hops =>
    intro op hop
    rw [hrecv]
    exact hE.reads op (hops.subset hop)
  | established i c hrecv hops =>
    have hfirst : n.client.connections = 0 := by simpa [Net.clientMay] using hmay
    have hnone := hn.client.fresh hfirst
    intro op hop
    rw [hops, Client.ops, hnone.reads, List.map_nil, List.nil_append, List.mem_singleton] at hop
    subst hop
    refine ⟨hn.mode_eq_auth hsent, [], List.nil_prefix, ?_⟩
    rw [hrecv, hnone.received]
    rfl
  | stopped i bytes rand c op₀ hread hrecv hops =>
    intro op hop
    rw [hops, hlast hread] at hop
    exact absurd hop List.not_mem_nil
  | payload i bytes rand c mode hread hsize hrecv hops =>
    have hsync := hE.reads _ (List.mem_of_getElem? hread)
    obtain ⟨hs, q, hpre, hrecv₀, hframe, hlen⟩ :=
      hsync.header_arrives hreplies hsize (hn.read_streamOf hmay)
    intro op hop
    rw [hops, hlast hread, List.nil_append, List.mem_singleton] at hop
    subst hop
    exact ⟨hsync.1, hs, q, hpre, by rw [hrecv, hrecv₀], hframe, hlen⟩
  | handled i bytes rand c op hread hsize hempty hrecv hops =>
    have hsync := hE.reads _ (List.mem_of_getElem? hread)
    have hstream := hn.read_streamOf hmay
    obtain ⟨hs, q, hpre, hbytes⟩ : ∃ hs q, hs ++ [q] <+: n.server.executed ∧
        n.client.received ++ bytes = streamOf (hs ++ [q]) := by
      cases op with
      | header mode =>
        obtain ⟨hs, q, hpre, hrecv₀, hframe, hlen⟩ := hsync.header_arrives hreplies hsize hstream
        rw [hempty mode rfl, List.length_eq_zero_iff] at hlen
        refine ⟨hs, q, hpre, ?_⟩
        simp [hrecv₀, hframe, hlen]
      | payload mode head length =>
        obtain ⟨hs, q, hpre, hrecv₀, hframe⟩ := hsync.payload_arrives hsize hstream
        refine ⟨hs, q, hpre, ?_⟩
        simp [hrecv₀, hframe]
    intro op' hop'
    rw [hops, hlast hread, List.nil_append, List.mem_singleton] at hop'
    subst hop'
    exact ⟨hauth, hs ++ [q], hpre, by rw [hrecv, hbytes]⟩

/-- A packet the session dispatches is the next one the client sent.

**Proof sketch.** What the session has received is a beginning of the client's frames, so the front
of its buffer begins with the next of them. The packets dispatched so far determine both the mode of
the session and the framing of that frame, and frames of one framing are uniquely readable. -/
lemma step_dispatched {s : Session} {e : SessionEvent} (hn : FramingInvariant n)
    (hmay : n.serverMay e = true) (h : ReaderStep n.server e s) :
    s.dispatched.map (·.packet) <+: n.client.sent := by
  cases h with
  | idle e s hrecv hdisp hmode hauth hact he => rw [hdisp]; exact hn.dispatched
  | wait chunk s hopen hwait hrecv hdisp hmode hauth hopen' hact => rw [hdisp]; exact hn.dispatched
  | oversized chunk s hopen hsize hbig hdisp hmode hauth hclosed => rw [hdisp]; exact hn.dispatched
  | frame chunk s p rest hopen h0 hframing hsize hdata hrecv hdisp hmode hauth hclosed hact =>
    have hstream : streamOf (n.server.dispatched.map (·.packet)) ++ (p.buildPacket ++ rest) <+:
        streamOf n.client.sent := by
      rw [← hdata, ← List.append_assoc, ← hn.reader.received_eq_stream hopen]
      have hnext : n.server.received ++ chunk <+: n.toServer := of_decide_eq_true hmay
      exact hnext.trans hn.toServer_sent
    have hne : p.buildPacket ++ rest ≠ [] := by
      intro hnil
      have hlen := congrArg List.length hnil
      have := Packet.two_le_headerSize p.mode
      rw [List.length_append, Packet.length_buildPacket, List.length_nil] at hlen
      omega
    obtain ⟨q, later, hsent, hfront⟩ := exists_next hn.dispatched hstream hne
    have hmodes : p.mode = q.mode := by
      rw [hframing, hn.reader.mode, hn.mode_of_sent hsent]
    obtain rfl : p = q :=
      front_eq hmodes ⟨h0, by omega⟩ (hn.fits q (by rw [hsent]; simp)) hfront
    rw [hdisp, hsent]
    simp

/-- Before the proof, the session sends early replies only. -/
lemma step_replies {s : Session} {e : SessionEvent} (hn : FramingInvariant n)
    (hmay : n.serverMay e = true) (h : Transition sha1 n.server e s) (he : e.Ordinary)
    (hsent : n.client.proofSent = false) : ∀ q ∈ s.outgoing, q.EarlyReply := by
  intro q hq
  rcases h.outgoing he hq with hold | hnew | ⟨d, hd, hans⟩
  · exact (hn.early hsent).replies q hold
  · exact hnew
  · -- the packet answered is one of the client's, none of which switches
    have hmem : d.packet ∈ n.client.sent :=
      (hn.step_dispatched hmay h.reader).subset (List.mem_map_of_mem hd)
    have hsw : ∀ p ∈ n.client.sent, p.switches = false := by
      simpa [Client.proofSent] using hsent
    obtain ⟨pre, post, hsplit⟩ := List.append_of_mem hmem
    have hmode : d.packet.mode = .authSession := by
      rw [hn.mode_of_sent hsplit, modeAfter_eq_auth]
      rw [List.any_eq_false]
      intro p hp
      simp [hsw p (by rw [hsplit]; exact List.mem_append_left _ hp)]
    exact Packet.answers_early sha1 hmode (hsw _ hmem) hans

/-- **One step** that sends in turn keeps the invariant. -/
lemma step {n' : Net} {e : NetEvent} (hn : FramingInvariant n) (hok : SendsInTurn n e)
    (h : n.step sha1 e = some n') : FramingInvariant n' := by
  have hnet := hn.toNetInvariant.step h
  cases e with
  | client e =>
    obtain ⟨hmay, c, hc, rfl⟩ := Net.step_client h
    have hsend := Client.step_send hc
    obtain ⟨hmoded, hfits⟩ := hn.step_sent hok hsend
    have hwork := hn.step_work hmay hc
    refine ⟨hnet, hmoded, hfits, hn.dispatched.trans hsend.sent_grows, hwork, fun hsent => ?_⟩
    have hsent₀ : n.client.proofSent = false := by
      by_contra hne
      simp [hsend.proofSent (by simpa using hne)] at hsent
    have hauth : c.sessionMode = .authSession := by
      cases hmode : c.sessionMode with
      | authSession => rfl
      | workSession => simp [hwork hmode] at hsent
    exact ⟨(hn.early hsent₀).replies, hn.step_reads hmay hc hsent₀ hauth⟩
  | server e he =>
    obtain ⟨hmay, s, hs, rfl⟩ := Net.step_server h
    have htrans := Session.step_transition hs
    refine ⟨hnet, hn.wellModed, hn.fits, hn.step_dispatched hmay htrans.reader, hn.work,
      fun hsent => ⟨hn.step_replies hmay htrans he hsent, fun op hop => ?_⟩⟩
    exact ((hn.early hsent).reads op hop).mono htrans.writer.executed_grows

/-- The invariant gives agreement. -/
lemma agrees (hn : FramingInvariant n) : Agrees n := by
  refine ⟨hn.dispatched, fun d hd => ?_, fun hopen hne => ?_⟩
  · obtain ⟨pre, post, hsplit⟩ := List.append_of_mem hd
    have hexact := (hn.reader.exact pre d post hsplit).2
    exact ⟨hexact.raw, hexact.mode⟩
  · have hstream := (hn.toServer hopen).trans hn.toServer_sent
    rw [hn.reader.received_eq_stream hopen] at hstream
    obtain ⟨q, rest, hsent, hfront⟩ := exists_next hn.dispatched hstream hne
    refine ⟨q, rest, hsent, ?_, hfront⟩
    rw [hn.reader.mode, hn.mode_of_sent hsent]

end FramingInvariant

/-- **Framing agreement.** In every run of a client and its session, in any interleaving, in which
the client builds no Auth frame after its first proof and no frame whose length does not fit, every
frame the session parses was built by the client in the framing it is parsed with, and no byte in
its receive buffer is about to be read under the wrong header.

**Proof sketch.** `FramingInvariant` holds at the start and is kept by steps that send in turn. -/
theorem agrees_of_sendsInTurn (sha1 : Sha1) (es : List NetEvent)
    (h : Run.StepsMeet (Net.step sha1) SendsInTurn (Net.start sha1) es) :
    Run.Always (Net.step sha1) Agrees (Net.start sha1) es := by
  have hinv : Run.Always (Net.step sha1) FramingInvariant (Net.start sha1) es := by
    refine Run.always_of_stepsMeet ?_ (FramingInvariant.start sha1) h
    intro n e n' hn hok hstep
    exact hn.step hok hstep
  exact Run.Always.imp (fun n hn => hn.agrees) hinv

/-! ## A login -/

/-- What the challenge of the login finds: a row of zeros. -/
def loginEnv : ChallengeEnv :=
  sampleEnv (some ⟨some (List.replicate 32 0), some (List.replicate 32 0)⟩)

/-- A login up to the client's proof, which is being written at the end. -/
def loginEvents : List NetEvent :=
  [.client .connect,
    .client (.connectDone 0),
    .client (.logonChallenge [65] [66]),
    .server (.read [3, 0, 2, 65, 0]) trivial,
    .server (.challenge 0 loginEnv) nofun,
    .server (.send 0) trivial,
    .client (.readDone 0 [4, 0, 97] sampleRand),
    .client (.readDone 0
      (SRP6.sampleKey ++ [7] ++ bnToBin SRP6.modulus ++ List.replicate 32 0) sampleRand),
    .client (.writeDone 0)]

/-- The session reads the proof. -/
def readProofEvent : NetEvent :=
  .server (.read ([5, 0, 52] ++ SRP6.sampleKey ++ SRP6.sampleM1)) trivial

/-- The login goes on: the session answers the proof, the client accepts the answer and switches,
and then its heartbeat timer fires. -/
def pingEvents : List NetEvent :=
  loginEvents ++ [readProofEvent,
    .server (.writeDone 0) trivial,
    .server (.send 0) trivial,
    .client (.readDone 0 [6, 0, 20] sampleRand),
    .client (.readDone 0 (SRP6.sampleSha1.hash (SRP6.sampleKey ++ SRP6.sampleM1)) sampleRand),
    .client (.writeDone 0),
    .client (.heartbeat 0 0),
    .server (.read [0, 1, 0, 4, 0, 0, 0, 0]) trivial]

/-- The heartbeat timer fires between the proof and its answer. -/
def earlyPingEvents : List NetEvent :=
  loginEvents ++ [.client (.heartbeat 0 0),
    readProofEvent,
    .client (.writeDone 0),
    .server (.read [1, 0, 4, 0, 0, 0, 0]) trivial]

/-- A ping after the switch of the client is in turn, and is read as a Work packet. -/
theorem agrees_ping_after_login :
    Run.StepsMeet (Net.step SRP6.sampleSha1) SendsInTurn (Net.start SRP6.sampleSha1) pingEvents ∧
    ∃ n, Run.exec (Net.step SRP6.sampleSha1) (Net.start SRP6.sampleSha1) pingEvents = some n ∧
      n.server.dispatched.map (·.mode) = [.authSession, .authSession, .workSession] ∧
      Agrees n := by
  have hmeet : Run.StepsMeet (Net.step SRP6.sampleSha1) SendsInTurn (Net.start SRP6.sampleSha1)
      pingEvents := by
    decide +kernel
  have hrun : (Run.exec (Net.step SRP6.sampleSha1) (Net.start SRP6.sampleSha1) pingEvents).map
      (fun n => n.server.dispatched.map (·.mode)) =
        some [.authSession, .authSession, .workSession] := by
    decide +kernel
  obtain ⟨n, hn, hmodes⟩ := Option.map_eq_some_iff.1 hrun
  exact ⟨hmeet, n, hn, hmodes, (agrees_of_sendsInTurn SRP6.sampleSha1 pingEvents hmeet).last hn⟩

/-- A ping between the proof and its answer has an Auth header, and the session, which has switched,
reads it as a Work header. -/
theorem ping_after_proof :
    ¬ Run.Always (Net.step SRP6.sampleSha1) Agrees (Net.start SRP6.sampleSha1) earlyPingEvents := by
  intro h
  have hrun : (Run.exec (Net.step SRP6.sampleSha1) (Net.start SRP6.sampleSha1)
      earlyPingEvents).map (fun n => (n.server.closed, n.server.sessionMode,
        n.server.readBuffer.active, n.client.sent.map Packet.mode)) =
      some (false, .workSession, [1, 0, 4, 0, 0, 0, 0],
        [.authSession, .authSession, .authSession]) := by
    decide +kernel
  obtain ⟨n, hn, hval⟩ := Option.map_eq_some_iff.1 hrun
  simp only [Prod.mk.injEq] at hval
  obtain ⟨hopen, hmode, hactive, hmodes⟩ := hval
  have hne : n.server.readBuffer.active ≠ [] := by
    rw [hactive]
    exact List.cons_ne_nil _ _
  obtain ⟨q, rest, hsent, hq, -⟩ := (h.last hn).front hopen hne
  -- all three packets the client sent are Auth packets
  have hmem : q.mode ∈ n.client.sent.map Packet.mode :=
    List.mem_map_of_mem (by rw [hsent]; simp)
  rw [hmodes, hq, hmode] at hmem
  simp at hmem

end Purity
