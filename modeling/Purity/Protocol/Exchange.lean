import Purity.Client.Receive
import Purity.Server.Chunking
import Purity.Server.Login

set_option relaxedAutoImplicit false
set_option autoImplicit false

/-!
# The login exchange

A login is four messages: the client asks for a challenge with a name, the session answers with the
parameters of the account and its key `B`, the client proves with its key `A`, and the session
answers with the hash of the proof. Between two ends at rest these are all the messages there are,
and each side reads what the other wrote, in whatever chunks it arrives.

## Main definitions

* `Purity.Session.AtRest`, `Purity.Client.AtRest` — nothing is in flight at an end.
* `Purity.Session.Turn`, `Purity.Client.Turn` — an end reads bytes and makes some steps.
* `Purity.Exchange` — the exchange of the four messages.
* `Purity.LoggedIn` — both ends after an exchange that went well.

## Main results

* `Purity.Session.Takes.tookFrame` — a session that reads a frame dispatches it, whatever the
  chunks.
* `Purity.login_completes` — from every two ends at rest the login of a user with an account can be
  made, and always ends well.

## Implementation notes

The password only goes into the client's `SRP6` object: neither the key nor the proof of the source
depends on it.
-/

namespace Purity

open HandlersAuth Utf8

/-! ## A session reads a frame -/

namespace Session

/-- The session reads these bytes: they arrive in some chunks, and nothing else happens. -/
def Reads (sha1 : Sha1) (s : Session) (bytes : Bytes) (s' : Session) : Prop :=
  ∃ chunks : List Bytes, chunks.flatten = bytes ∧
    Run.exec (Session.step sha1) s (chunks.map .read) = some s'

/-- The session `t` is `s`, but for bytes of a frame in the receive buffer. -/
structure Holding (s : Session) (data : Bytes) (t : Session) : Prop where
  opened : t.closed = false
  fault : t.fault = s.fault
  auth : t.toAuthState = s.toAuthState
  write : t.toWriteState = s.toWriteState
  posted : t.posted = s.posted
  replies : t.replies = s.replies
  dispatched : t.dispatched = s.dispatched
  active : t.readBuffer.active = data

/-- The session `t` is `s` after the packet `p` has been read and dispatched. -/
structure TookFrame (sha1 : Sha1) (s : Session) (p : Packet) (t : Session) : Prop where
  opened : t.closed = false
  fault : t.fault = s.fault
  srp : t.srp = s.srp
  mode : t.sessionMode = p.nextMode s.sessionMode
  spawned : t.spawned = s.spawned ++ p.spawns
  write : t.toWriteState = s.toWriteState
  posted : t.posted = s.posted ++ p.answers sha1
  replies : t.replies = s.replies ++ p.answers sha1
  dispatched : t.dispatched.map (·.packet) = s.dispatched.map (·.packet) ++ [p]
  active : t.readBuffer.active = []

/-- The packet can be read by the session: it has the framing of the mode and the reader takes
it. -/
structure Takes (s : Session) (p : Packet) : Prop where
  mode : p.mode = s.sessionMode
  unread : p.buffer.readPos = 0
  size : p.payload.length ≤ 2048
  noThrow : p.throws = false

variable {sha1 : Sha1} {s t t' : Session} {p : Packet}

/-- The session after the dispatch of a packet that was all it held. -/
lemma Holding.dispatched_frame {data chunk : Bytes} {b b' : MessageBuffer} {u : Session}
    (h : s.Holding data t)
    (heff : DispatchEffect sha1 ((t.arrive b chunk).consume b' p.buildPacket p) u p)
    (hleft : b'.active = []) : s.TookFrame sha1 p u.doRead := by
  have hdisp : u.dispatched = t.dispatched ++ [⟨t.sessionMode, p.buildPacket, p⟩] :=
    heff.dispatched
  refine ⟨heff.closed.trans h.opened, heff.fault.trans h.fault, ?_, ?_, ?_, ?_, ?_, ?_, ?_, ?_⟩
  · exact heff.srp.trans (congrArg AuthState.srp h.auth)
  · rw [← congrArg AuthState.sessionMode h.auth]
    exact heff.mode
  · rw [← congrArg AuthState.spawned h.auth]
    exact heff.spawned
  · exact heff.write.trans h.write
  · rw [← h.posted]
    exact heff.posted h.opened
  · rw [← h.replies]
    exact heff.replies h.opened
  · show u.dispatched.map (·.packet) = _
    rw [hdisp, List.map_append, h.dispatched]
    rfl
  · show (u.readBuffer.ensureFreeSpace 512).active = []
    rw [MessageBuffer.active_ensureFreeSpace, heff.readBuffer]
    exact hleft

/-- **One chunk of a frame.** The session holds the bytes until the frame is complete, and then
dispatches it.

**Proof sketch.** By `ReaderStep.front` the session stays open, and dispatches the packet exactly if
the frame is complete. -/
lemma Holding.step {data chunk more : Bytes} (h : s.Holding data t) (hp : s.Takes p)
    (hdata : data ++ chunk ++ more = p.buildPacket)
    (hstep : t.step sha1 (.read chunk) = some t') :
    (more = [] ∧ s.TookFrame sha1 p t') ∨ (more ≠ [] ∧ s.Holding (data ++ chunk) t') := by
  have htrans := step_transition hstep
  have hmode : p.mode = t.sessionMode := by rw [hp.mode, h.auth]
  have hfront : t.readBuffer.active ++ chunk ++ more = p.buildPacket ++ [] := by
    rw [h.active, hdata, List.append_nil]
  have hlen := congrArg List.length hfront
  rw [List.append_nil, List.length_append] at hlen
  obtain ⟨hopen', -, hout'⟩ :=
    htrans.reader.front h.opened hmode hp.unread hp.size hp.noThrow hfront
  cases htrans with
  | readClosed chunk hclosed hreads =>
    rw [h.opened] at hclosed
    cases hclosed
  | read chunk b s' hopen hreads hchunk hact hout =>
    cases hout with
    | wait hwait =>
      rcases hout' with ⟨-, hdisp⟩ | ⟨hlt, -⟩
      · have hcount := congrArg List.length hdisp
        simp [doRead, arrive] at hcount
      · refine .inr ⟨?_, h.opened, h.fault, h.auth, h.write, h.posted, h.replies, h.dispatched, ?_⟩
        · rintro rfl
          rw [List.length_nil] at hlen
          omega
        · show (b.ensureFreeSpace 512).active = data ++ chunk
          rw [MessageBuffer.active_ensureFreeSpace, hact, h.active]
    | oversized hle hbig => simp at hopen'
    | thrown q b' h0 hmode' hsize hact' hthrow => simp at hopen'
    | handled q b' u h0 hmode' hsize hact' hthrow heff =>
      have hdisp : u.dispatched = t.dispatched ++ [⟨t.sessionMode, q.buildPacket, q⟩] :=
        heff.dispatched
      change (_ ∧ u.dispatched.map (·.packet) = _) ∨ (_ ∧ u.dispatched = _) at hout'
      rw [hdisp, List.map_append] at hout'
      rcases hout' with ⟨hle, hlast⟩ | ⟨-, hnone⟩
      · obtain rfl : q = p := by simpa using hlast
        -- the frame is all there was
        have hbytes : b.active = q.buildPacket ++ b'.active := hact'
        have hrest : (t.readBuffer.active ++ chunk).length =
            q.buildPacket.length + b'.active.length := by
          rw [← hact, hbytes, List.length_append]
        have hmore : more = [] := List.length_eq_zero_iff.1 (by omega)
        have hleft : b'.active = [] := List.length_eq_zero_iff.1 (by omega)
        exact .inl ⟨hmore, h.dispatched_frame heff hleft⟩
      · exact absurd hnone (by simp)

/-- A session that reads a whole frame dispatches the packet, whatever the chunks.

**Proof sketch.** Induction on the chunks. A chunk is not empty, so there is none after the frame is
complete. -/
lemma Holding.tookFrame {data : Bytes} {chunks : List Bytes} (h : s.Holding data t)
    (hp : s.Takes p) (hdata : data ++ chunks.flatten = p.buildPacket)
    (hlt : data.length < p.buildPacket.length)
    (hexec : Run.exec (Session.step sha1) t (chunks.map .read) = some t') :
    s.TookFrame sha1 p t' := by
  induction chunks generalizing data t with
  | nil =>
    rw [List.flatten_nil, List.append_nil] at hdata
    rw [hdata] at hlt
    exact absurd hlt (lt_irrefl _)
  | cons chunk chunks ih =>
    rw [List.flatten_cons, ← List.append_assoc] at hdata
    obtain ⟨u, hstep, hrest⟩ := Run.exec_cons_eq_some.1 hexec
    rcases h.step hp hdata hstep with ⟨hnil, htook⟩ | ⟨hne, hhold⟩
    · cases chunks with
      | nil =>
        obtain rfl : u = t' := by simpa using hrest
        exact htook
      | cons next chunks =>
        obtain ⟨v, hstep', -⟩ := Run.exec_cons_eq_some.1 hrest
        rw [List.flatten_cons, List.append_eq_nil_iff] at hnil
        rw [hnil.1] at hstep'
        simp [Session.step] at hstep'
    · refine ih hhold hdata ?_ hrest
      have hlen := congrArg List.length hdata
      rw [List.length_append] at hlen
      have := List.length_pos_iff.2 hne
      omega

/-- A session that can read takes a frame a byte at a time. -/
lemma Holding.exists_run {data bytes : Bytes} (h : s.Holding data t) (hcan : CanRead t)
    (hp : s.Takes p) (hdata : data ++ bytes = p.buildPacket) :
    ∃ t', Run.exec (Session.step sha1) t (byteReads bytes) = some t' := by
  induction bytes generalizing data t with
  | nil => exact ⟨t, rfl⟩
  | cons b bytes ih =>
    obtain ⟨u, hstep⟩ := hcan.exists_step sha1 h.opened b
    have hdata' : data ++ [b] ++ bytes = p.buildPacket := by
      rw [← hdata, List.append_assoc]
      rfl
    have hfirst : ∀ t', Run.exec (Session.step sha1) u (byteReads bytes) = some t' →
        Run.exec (Session.step sha1) t (byteReads (b :: bytes)) = some t' := fun t' ht' =>
      Run.exec_cons_eq_some.2 ⟨u, hstep, ht'⟩
    rcases h.step hp hdata' hstep with ⟨rfl, -⟩ | ⟨-, hhold⟩
    · exact ⟨u, hfirst u rfl⟩
    · obtain ⟨t', ht'⟩ := ih hhold (hcan.step hstep) hdata'
      exact ⟨t', hfirst t' ht'⟩

/-- An open session without unread bytes holds nothing. -/
lemma holding_self (hopen : s.closed = false) (hact : s.readBuffer.active = []) :
    s.Holding [] s :=
  ⟨hopen, rfl, rfl, rfl, rfl, rfl, rfl, hact⟩

/-- **Reading a frame** dispatches its packet. -/
lemma Takes.tookFrame (hp : s.Takes p) (hopen : s.closed = false)
    (hact : s.readBuffer.active = []) (h : s.Reads sha1 p.buildPacket t) :
    s.TookFrame sha1 p t := by
  obtain ⟨chunks, hchunks, hexec⟩ := h
  refine (holding_self hopen hact).tookFrame hp hchunks ?_ hexec
  have := Packet.two_le_headerSize p.mode
  rw [Packet.length_buildPacket, List.length_nil]
  omega

/-- A session that can read can read a frame. -/
lemma Takes.exists_reads (hp : s.Takes p) (hcan : CanRead s) (sha1 : Sha1)
    (hopen : s.closed = false) (hact : s.readBuffer.active = []) :
    ∃ t, s.Reads sha1 p.buildPacket t := by
  obtain ⟨t, ht⟩ := (holding_self hopen hact).exists_run hcan hp
    (List.nil_append p.buildPacket)
  refine ⟨t, p.buildPacket.map fun b => [b], flatten_singletons _, ?_⟩
  rw [List.map_map]
  exact ht

/-! ## A session answers -/

/-- Nothing is being written. -/
structure WriterAtRest (w : WriteState) : Prop where
  queue : w.writeQueue = []
  writing : w.writing = false
  inFlight : w.inFlight = []

/-- Nothing is in flight at the session: it is open and at the beginning of a frame, and no task,
challenge or write is outstanding. -/
structure AtRest (s : Session) : Prop where
  fault : s.fault = none
  opened : s.closed = false
  active : s.readBuffer.active = []
  spawned : s.spawned = []
  posted : s.posted = []
  write : WriterAtRest s.toWriteState

/-- The session after its only reply has been sent. -/
def wrote (s : Session) (q : Packet) : Session :=
  { s with
    posted := []
    writeQueue := []
    writing := false
    inFlight := []
    executed := s.executed ++ [q]
    started := s.started ++ [q.buildPacket]
    completed := s.completed ++ [q.buildPacket] }

/-- The task of the only reply runs, and the write of it completes. -/
lemma exec_send (sha1 : Sha1) {q : Packet} (hfault : s.fault = none)
    (hwrite : WriterAtRest s.toWriteState) (hposted : s.posted = [q]) :
    Run.exec (Session.step sha1) s [.send 0, .writeDone 0] = some (s.wrote q) := by
  have hsend : s.step sha1 (.send 0) = some { s with
      posted := []
      writeQueue := [q.buildPacket]
      writing := true
      inFlight := [q.buildPacket]
      executed := s.executed ++ [q]
      started := s.started ++ [q.buildPacket] } := by
    simp [Session.step, hfault, hposted, doSendPacket, hwrite.queue, hwrite.writing,
      hwrite.inFlight, doWrite]
  rw [Run.exec_cons, hsend, Option.bind_some]
  simp [Session.step, hfault, writeHandler, doWrite, wrote]

end Session

/-- A challenge that finds its account and can build the reply posts it. -/
lemma HandlersAuth.handleLogonChallenge_found {s : Session} {p : AuthPacket} {env : ChallengeEnv}
    {salt verifier : Bytes} {offer : AuthPacket}
    (hvalid : isValidUtf8 (challengeName p) = true)
    (hacc : env.account (accountName p) = some (salt, verifier))
    (hoffer : challengeReply (loadFound s p salt verifier env.rand).srp salt = .ok offer) :
    (handleLogonChallenge s p env).2 =
      (loadFound s p salt verifier env.rand).sendPacket (.auth offer) := by
  have hout := (handleLogonChallenge_outcome s p env).1
  generalize (handleLogonChallenge s p env).2 = s' at hout
  cases hout with
  | invalid hinvalid =>
    rw [hvalid] at hinvalid
    cases hinvalid
  | notFound error hvalid' hacc' =>
    rw [hacc] at hacc'
    cases hacc'
  | found salt' verifier' reply hvalid' hacc' hreply =>
    rw [hacc] at hacc'
    cases hacc'
    rw [hoffer] at hreply
    cases hreply
    rfl
  | unanswered salt' verifier' e hvalid' hacc' hreply =>
    rw [hacc] at hacc'
    cases hacc'
    rw [hoffer] at hreply
    cases hreply
  | busy salt' verifier' e hvalid' hacc' hreply =>
    rw [hacc] at hacc'
    cases hacc'
    rw [hoffer] at hreply
    cases hreply

/-- A challenge finds the row, if the cache has nothing else for the name. -/
lemma ChallengeEnv.account_of_row {env : ChallengeEnv} {name salt verifier : Bytes}
    (hsalt : salt.length = 32) (hverifier : verifier.length = 32)
    (hdb : env.db = .ok (some { salt := some salt, verifier := some verifier }))
    (hcache : ∀ e, env.cache.cache name = some e → e.salt = salt ∧ e.verifier = verifier) :
    env.account name = some (salt, verifier) := by
  unfold account AccountCache.get
  cases hentry : env.cache.cache name with
  | none => simp [hdb, hsalt, hverifier]
  | some e =>
    obtain ⟨rfl, rfl⟩ := hcache e hentry
    dsimp only
    split_ifs
    · simp [hdb, hsalt, hverifier]
    · rfl

/-! ## The fields of the messages -/

/-- The `SMSG_AUTH_LOGON_CHALLENGE` with its four fields. -/
def offerPacket (B : Bytes) (g : UInt8) (N salt : Bytes) : AuthPacket :=
  { opcode := AuthOpcodes.smsgAuthLogonChallenge
    buffer := { buffer := B ++ g :: (N ++ salt) } }

/-- The `SMSG_AUTH_LOGON_PROOF` with its field. -/
def proofReply (M2 : Bytes) : AuthPacket :=
  { opcode := AuthOpcodes.smsgAuthLogonProof, buffer := { buffer := M2 } }

/-- The reply to a challenge, once `B` and `N` are padded. -/
lemma HandlersAuth.challengeReply_of_bytes {srp : SRP6} {B N : Bytes} (salt : Bytes)
    (hB : srp.getBBytes = .ok B) (hN : srp.getNBytes = .ok N) :
    challengeReply srp salt = .ok (offerPacket B srp.getGenerator N salt) := by
  simp [challengeReply, hB, hN, bind, Except.bind, pure, Except.pure, ByteBuffer.writeBytes,
    ByteBuffer.writeUint8, offerPacket]

namespace Client

variable {sha1 : Sha1} {rand : Rand32} {c : Client}

/-- The client reads the fields back. -/
lemma readChallenge_offerPacket {B N salt : Bytes} (g : UInt8) (hB : B.length = 32)
    (hN : N.length = 32) (hsalt : salt.length = 32) :
    readChallenge (offerPacket B g N salt) = .ok (B, g, N, salt) := by
  have h₁ := ByteBuffer.readBytes_cursor [] B (g :: (N ++ salt))
  have h₂ := ByteBuffer.readUint8_cursor B g (N ++ salt)
  have h₃ := ByteBuffer.readBytes_cursor (B ++ [g]) N salt
  have h₄ := ByteBuffer.readBytes_cursor (B ++ [g] ++ N) salt []
  rw [hB] at h₁
  rw [hN] at h₃
  rw [hsalt, List.append_nil] at h₄
  have hcursor : (offerPacket B g N salt).buffer =
      ByteBuffer.cursor [] (B ++ g :: (N ++ salt)) := rfl
  simp only [List.nil_append] at h₁
  simp only [readChallenge, hcursor, h₁, h₂, h₃, h₄, bind, Except.bind, pure, Except.pure]

/-- Handling the frame of an Auth packet is handling the packet. -/
lemma handleRaw_auth {p : AuthPacket} {d : Client} (h0 : p.buffer.readPos = 0)
    (hsize : p.buffer.buffer.length ≤ 2048) (h : handlePacketAuth sha1 c p rand = .ok d) :
    c.handleRaw sha1 .authSession (Packet.auth p).buildPacket rand = d := by
  obtain ⟨opcode, ⟨payload, readPos⟩⟩ := p
  obtain rfl : readPos = 0 := h0
  have hframe : (Packet.auth ⟨opcode, { buffer := payload }⟩).buildPacket =
      authFormat.frame opcode payload :=
    PacketOf.buildPacketWith_eq authFormat ⟨opcode, { buffer := payload }⟩
  have hfits : payload.length ≤ 65535 := hsize.trans (by decide)
  simp only [handleRaw, AuthPacket.deserialize, hframe, PacketOf.deserialize_frame, if_pos hfits, h]

end Client

/-! ## The proof -/

/-- The `SRP6` object of a client that has answered a challenge: the group and the salt are those of
the challenge, and the proof it remembers is for `A` and `B`. -/
structure SRP6.Proves (sha1 : Sha1) (srp : SRP6) (g : UInt8) (salt A B M1 : Bytes) : Prop where
  modulus : srp.N = SRP6.modulus
  generator : srp.g = g.toNat
  multiplier : srp.k = SRP6.calculateK sha1 SRP6.modulus g.toNat
  salted : srp.salt = salt
  key : srp.getABytes = .ok A
  proof : M1 = sha1.hash (A ++ B ++ salt)
  lastM1 : srp.lastM1 = M1

/-- The answer of the server to the proof is accepted. -/
lemma SRP6.Proves.verifyServerProof {sha1 : Sha1} {srp : SRP6} {g : UInt8} {salt A B M1 : Bytes}
    (h : srp.Proves sha1 g salt A B M1) :
    srp.verifyServerProof sha1 srp.lastM1 (sha1.hash (A ++ M1)) = .ok true := by
  simp [SRP6.verifyServerProof, h.key, h.lastM1, bind, Except.bind, pure, Except.pure]

namespace Client

variable {sha1 : Sha1} {rand : Rand32} {c : Client}

/-- A challenge with the built-in modulus is answered with a proof. -/
lemma handleChallenge_ok (sha1 : Sha1) (c : Client) (rand : Rand32) {p : AuthPacket}
    {B N salt : Bytes} {g : UInt8} (hread : readChallenge p = .ok (B, g, N, salt))
    (hN : Endian.ofBE N = SRP6.modulus) :
    ∃ srp A M1, SRP6.Proves sha1 srp g salt A B M1 ∧ A.length = 32 ∧
      handleChallenge sha1 c p rand = sendPacket { c with srp := srp } (proofPacket A M1) := by
  have hpos : 0 < SRP6.modulus := by decide
  obtain ⟨A, hA, hlen⟩ := SRP6.padBytesLeft_mod (n := g.toNat ^ Endian.ofBE rand.1) hpos
    SRP6.modulus_lt.le
  set srp := ((c.srp.loadConstants sha1 N g).loadSalt salt).generateClientEphemeral rand with hsrp
  have hkey : srp.getABytes = .ok A := by
    simp only [hsrp, SRP6.getABytes, SRP6.generateClientEphemeral, SRP6.loadSalt,
      SRP6.loadConstants, hN, if_neg hpos.ne', bnModExp]
    exact hA
  refine ⟨{ srp with lastM1 := sha1.hash (A ++ B ++ salt) }, A, sha1.hash (A ++ B ++ salt),
    ⟨hN, rfl, ?_, rfl, hkey, rfl, rfl⟩, hlen, ?_⟩
  · rw [← hN]
    rfl
  · simp only [handleChallenge, hread, ← hsrp, hkey, SRP6.computeM1_eq sha1 hkey B]
    rfl

/-! ## The client's side -/

/-- Nothing is in flight at the client: it is connected and waits for a frame, and no write is
outstanding. -/
structure AtRest (c : Client) : Prop where
  ready : c.Ready
  connected : c.connected = true
  queue : c.outgoingQueue = []
  writes : c.writes = []

/-- The client while a packet is being sent. -/
def sending (c : Client) (p : Packet) : Client :=
  { c with
    outgoingQueue := [p.buildPacket]
    sent := c.sent ++ [p]
    started := c.started ++ [p.buildPacket]
    writes := [{ op := p.buildPacket }] }

/-- The client after a packet has been sent. -/
def wrote (c : Client) (p : Packet) : Client :=
  { c with
    outgoingQueue := []
    sent := c.sent ++ [p]
    started := c.started ++ [p.buildPacket]
    popped := c.popped ++ [p.buildPacket]
    writes := [] }

/-- `send_packet` starts a write at once, if nothing else is being written. -/
lemma sendPacket_eq_sending (hconn : c.connected = true) (hqueue : c.outgoingQueue = [])
    (hwrites : c.writes = []) (p : Packet) : c.sendPacket p = c.sending p := by
  simp [sendPacket, sendPacketImpl, flushQueue, sending, hconn, hqueue, hwrites]

/-- The write completes. -/
lemma step_sending (sha1 : Sha1) (hfault : c.fault = none) (p : Packet) :
    (c.sending p).step sha1 (.writeDone 0) = some (c.wrote p) := by
  simp [step, sending, wrote, hfault, writeHandler, flushQueue]

/-- The client with another `SRP6` object. -/
def withSrp (c : Client) (srp : SRP6) : Client := { c with srp := srp }

/-- The client after it has asked for a challenge. -/
def asked (c : Client) (username password : Bytes) : Client :=
  (c.withSrp (c.srp.setCredentials username password)).wrote (challengePacket username)

/-- The client after it has read a challenge and sent its proof. -/
def proved (c : Client) (frame : Bytes) (srp : SRP6) (A M1 : Bytes) : Client :=
  (((c.arrive frame).withSrp srp).startReceiveLoop).wrote (proofPacket A M1)

/-- The client after it has read and accepted the answer to its proof. -/
def finished (c : Client) (frame : Bytes) : Client :=
  startReceiveLoop { c.arrive frame with sessionMode := .workSession }

/-- Asking keeps the client at rest. -/
lemma AtRest.asked (hc : c.AtRest) (username password : Bytes) :
    (c.asked username password).AtRest :=
  ⟨⟨hc.ready.fault, hc.ready.reads⟩, hc.connected, rfl, rfl⟩

/-- Proving keeps the client at rest. -/
lemma AtRest.proved (hc : c.AtRest) (frame : Bytes) (srp : SRP6) (A M1 : Bytes) :
    (c.proved frame srp A M1).AtRest :=
  ⟨⟨hc.ready.fault, rfl⟩, hc.connected, rfl, rfl⟩

/-- The end of the login keeps the client at rest. -/
lemma AtRest.finished (hc : c.AtRest) (frame : Bytes) : (c.finished frame).AtRest :=
  ⟨⟨hc.ready.fault, rfl⟩, hc.connected, hc.queue, hc.writes⟩

/-- The client asks for a challenge. -/
lemma AtRest.ask (hc : c.AtRest) (sha1 : Sha1) (username password : Bytes) :
    Run.exec (Client.step sha1) c [.logonChallenge username password, .writeDone 0] =
      some (c.asked username password) := by
  set d := c.withSrp (c.srp.setCredentials username password) with hd
  have hsend : d.sendPacket (challengePacket username) = d.sending (challengePacket username) :=
    sendPacket_eq_sending (c := d) hc.connected hc.queue hc.writes _
  have hstep : c.step sha1 (.logonChallenge username password) =
      some (d.sending (challengePacket username)) := by
    rw [← hsend]
    simp [step, hc.ready.fault, handleLogonChallenge, hd, withSrp]
  have hdone := step_sending sha1 (c := d) hc.ready.fault (challengePacket username)
  rw [Run.exec_cons, hstep, Option.bind_some, Run.exec_cons, hdone, Option.bind_some, Run.exec_nil,
    Client.asked]

/-- The client reads bytes and then makes some steps. -/
def Turn (sha1 : Sha1) (rand : Rand32) (c : Client) (bytes : Bytes) (es : List ClientEvent)
    (c' : Client) : Prop :=
  ∃ d, c.Reads sha1 rand bytes d ∧ Run.exec (Client.step sha1) d es = some c'

/-- **A turn of a client at rest** with the frame of an Auth packet: the packet is handled, and the
loop goes on. -/
lemma AtRest.turn (hc : c.AtRest) (hmode : c.sessionMode = .authSession) {p : AuthPacket}
    (h0 : p.buffer.readPos = 0) (hsize : p.buffer.buffer.length ≤ 2048) {d c' : Client}
    (hhandle : handlePacketAuth sha1 (c.arrive (Packet.auth p).buildPacket) p rand = .ok d)
    {es : List ClientEvent} (hexec : Run.exec (Client.step sha1) d.startReceiveLoop es = some c') :
    Run.Leads (c.Turn sha1 rand (Packet.auth p).buildPacket es) (· = c') := by
  have hframe : WholeFrame c.sessionMode (Packet.auth p).buildPacket := by
    rw [hmode]
    exact Packet.wholeFrame (p := .auth p) hsize
  have htake : c.takeFrame sha1 rand (Packet.auth p).buildPacket = d.startReceiveLoop := by
    rw [takeFrame, hmode, handleRaw_auth h0 hsize hhandle]
  have hreads : Run.Leads (c.Reads sha1 rand (Packet.auth p).buildPacket)
      (· = d.startReceiveLoop) := by
    simp only [Run.Leads, hc.ready.reads_iff hframe, htake]
    exact ⟨⟨_, rfl⟩, fun _ h => h⟩
  refine hreads.bind fun u _ hu => ?_
  obtain rfl := hu
  exact Run.leads_of_eq_some hexec rfl

/-- The client answers a challenge with a proof. -/
lemma AtRest.prove (hc : c.AtRest) (hmode : c.sessionMode = .authSession) (sha1 : Sha1)
    (rand : Rand32) {B N salt : Bytes} (g : UInt8) (hB : B.length = 32) (hN : N.length = 32)
    (hsalt : salt.length = 32) (hmodulus : Endian.ofBE N = SRP6.modulus) :
    ∃ srp A M1, SRP6.Proves sha1 srp g salt A B M1 ∧ A.length = 32 ∧
      Run.Leads
        (c.Turn sha1 rand (Packet.auth (offerPacket B g N salt)).buildPacket [.writeDone 0])
        (· = c.proved (Packet.auth (offerPacket B g N salt)).buildPacket srp A M1) := by
  have hsize : (offerPacket B g N salt).buffer.buffer.length ≤ 2048 := by
    simp only [offerPacket, List.length_append, List.length_cons, hB, hN, hsalt]
    decide
  set frame := (Packet.auth (offerPacket B g N salt)).buildPacket with hframe
  obtain ⟨srp, A, M1, hproves, hA, hchal⟩ := handleChallenge_ok sha1 (c.arrive frame) rand
    (readChallenge_offerPacket g hB hN hsalt) hmodulus
  refine ⟨srp, A, M1, hproves, hA, ?_⟩
  have hsend : ((c.arrive frame).withSrp srp).sendPacket (proofPacket A M1) =
      ((c.arrive frame).withSrp srp).sending (proofPacket A M1) :=
    sendPacket_eq_sending (c := (c.arrive frame).withSrp srp) hc.connected hc.queue hc.writes _
  have hhandle : handlePacketAuth sha1 (c.arrive frame) (offerPacket B g N salt) rand =
      .ok (((c.arrive frame).withSrp srp).sending (proofPacket A M1)) := by
    rw [← hsend]
    exact congrArg Except.ok hchal
  have hdone : Run.exec (Client.step sha1)
      (((c.arrive frame).withSrp srp).sending (proofPacket A M1)).startReceiveLoop [.writeDone 0] =
      some (c.proved frame srp A M1) := by
    rw [Run.exec_cons]
    exact congrArg (Option.bind · some) (step_sending sha1
      (c := ((c.arrive frame).withSrp srp).startReceiveLoop) hc.ready.fault (proofPacket A M1))
  exact hc.turn hmode rfl hsize hhandle hdone

/-- The answer to a proof that the client remembers takes it to `WORK_SESSION`. -/
lemma handlePacketAuth_proofReply (rand : Rand32) {g : UInt8} {salt A B M1 : Bytes}
    (hproves : c.srp.Proves sha1 g salt A B M1) :
    handlePacketAuth sha1 c (proofReply (sha1.hash (A ++ M1))) rand =
      .ok { c with sessionMode := .workSession } := by
  set reply := proofReply (sha1.hash (A ++ M1)) with hreply
  have hproof : reply.opcode = AuthOpcodes.smsgAuthLogonProof := rfl
  have hpong : reply.opcode ≠ AuthOpcodes.smsgPong := by rw [hproof]; decide
  have hchal : reply.opcode ≠ AuthOpcodes.smsgAuthLogonChallenge := by rw [hproof]; decide
  have hcursor : reply.buffer = ByteBuffer.cursor [] (sha1.hash (A ++ M1)) := rfl
  have hread := ByteBuffer.readBytes_cursor [] (sha1.hash (A ++ M1)) []
  rw [sha1.length_hash, List.append_nil] at hread
  rw [handlePacketAuth, if_neg hpong, if_neg hchal, if_pos hproof]
  simp only [hcursor, hread, bind, Except.bind, hproves.verifyServerProof]
  rfl

/-- The client accepts the answer to its proof. -/
lemma AtRest.finish (hc : c.AtRest) (hmode : c.sessionMode = .authSession) (rand : Rand32)
    {g : UInt8} {salt A B M1 : Bytes} (hproves : c.srp.Proves sha1 g salt A B M1) :
    Run.Leads (c.Turn sha1 rand (Packet.auth (proofReply (sha1.hash (A ++ M1)))).buildPacket [])
      (· = c.finished (Packet.auth (proofReply (sha1.hash (A ++ M1)))).buildPacket) := by
  set reply := proofReply (sha1.hash (A ++ M1)) with hreply
  have hsize : reply.buffer.buffer.length ≤ 2048 := by
    rw [hreply, proofReply, sha1.length_hash]
    decide
  have hhandle : handlePacketAuth sha1 (c.arrive (Packet.auth reply).buildPacket) reply rand =
      .ok { c.arrive (Packet.auth reply).buildPacket with sessionMode := .workSession } :=
    handlePacketAuth_proofReply (c := c.arrive (Packet.auth reply).buildPacket) rand hproves
  exact hc.turn hmode rfl hsize hhandle rfl

end Client

/-! ## The session's side -/

/-- The object after a challenge found its account. -/
def SRP6.offered (srp : SRP6) (name salt verifier : Bytes) (rand : Rand32) : SRP6 :=
  ((srp.setOnlyUsername name).loadVerifier salt verifier).generateServerEphemeral rand

namespace Session

variable {sha1 : Sha1} {s t : Session} {username salt verifier : Bytes}

/-- The session reads bytes and then makes some steps. -/
def Turn (sha1 : Sha1) (s : Session) (bytes : Bytes) (es : List SessionEvent) (s' : Session) :
    Prop :=
  ∃ t, s.Reads sha1 bytes t ∧ Run.exec (Session.step sha1) t es = some s'

/-- The session has read one packet and sent one reply, and nothing is in flight again. -/
structure Answered (s : Session) (p q : Packet) (s' : Session) : Prop where
  rest : s'.AtRest
  started : s'.started = s.started ++ [q.buildPacket]
  replies : s'.replies = s.replies ++ [q]
  dispatched : s'.dispatched.map (·.packet) = s.dispatched.map (·.packet) ++ [p]

/-- A session that has read the packet and posted the reply sends it. -/
lemma AtRest.answered (hs : s.AtRest) (sha1 : Sha1) {p q : Packet} (hfault : t.fault = none)
    (hopen : t.closed = false) (hact : t.readBuffer.active = []) (hspawned : t.spawned = [])
    (hwrite : t.toWriteState = s.toWriteState) (hposted : t.posted = [q])
    (hreplies : t.replies = s.replies ++ [q])
    (hdisp : t.dispatched.map (·.packet) = s.dispatched.map (·.packet) ++ [p]) :
    Run.exec (Session.step sha1) t [.send 0, .writeDone 0] = some (t.wrote q) ∧
      s.Answered p q (t.wrote q) := by
  refine ⟨exec_send sha1 hfault (hwrite ▸ hs.write) hposted, ?_, ?_, hreplies, hdisp⟩
  · exact ⟨hfault, hopen, hact, hspawned, rfl, rfl, rfl, rfl⟩
  · show t.started ++ [q.buildPacket] = _
    rw [hwrite]

/-- **A turn of a session at rest** with the frame of a packet: it can be made, and it ends as the
tasks after the dispatch end. -/
lemma AtRest.turn (hs : s.AtRest) (hcan : CanRead s) {p : Packet} (hp : s.Takes p)
    {es : List SessionEvent} {P : Session → Prop}
    (h : ∀ t, s.TookFrame sha1 p t →
      ∃ s', Run.exec (Session.step sha1) t es = some s' ∧ P s') :
    Run.Leads (s.Turn sha1 p.buildPacket es) P := by
  have hreads : Run.Leads (s.Reads sha1 p.buildPacket) (s.TookFrame sha1 p) :=
    ⟨hp.exists_reads hcan sha1 hs.opened hs.active, fun t ht => hp.tookFrame hs.opened hs.active ht⟩
  refine hreads.bind fun t _ ht => ?_
  obtain ⟨s', hexec, hs'⟩ := h t ht
  exact Run.leads_of_eq_some hexec hs'

/-- The session answers a challenge. -/
lemma AtRest.offer (hs : s.AtRest) (hcan : CanRead s) (hmode : s.sessionMode = .authSession)
    {env : ChallengeEnv} {offer : AuthPacket} (hnul : (0 : UInt8) ∉ username)
    (hvalid : isValidUtf8 username = true) (hlen : username.length ≤ 2047)
    (hacc : env.account (toUppercase username) = some (salt, verifier))
    (hoffer : challengeReply (s.srp.offered (toUppercase username) salt verifier env.rand) salt =
      .ok offer) :
    Run.Leads (s.Turn sha1 (Client.challengePacket username).buildPacket
        [.challenge 0 env, .send 0, .writeDone 0])
      (fun s' => s.Answered (Client.challengePacket username) (.auth offer) s' ∧
        s'.sessionMode = .authSession ∧
        s'.srp = s.srp.offered (toUppercase username) salt verifier env.rand) := by
  set q : AuthPacket :=
    { opcode := AuthOpcodes.cmsgAuthLogonChallenge
      buffer := ({} : ByteBuffer).writeStringNtLe username } with hq
  have hname : challengeName q = username := ByteBuffer.readStringNtLe_new hnul
  have hupper : accountName q = toUppercase username := by rw [accountName, hname]
  have htakes : s.Takes (Client.challengePacket username) := by
    refine ⟨hmode.symm, rfl, ?_, rfl⟩
    show (({} : ByteBuffer).writeStringNtLe username).buffer.length ≤ 2048
    rw [ByteBuffer.writeStringNtLe_new]
    simp only [List.length_append, List.length_reverse, List.length_singleton]
    omega
  refine hs.turn hcan htakes fun t ht => ?_
  have hspawned : t.spawned = [q] := by
    rw [ht.spawned, hs.spawned]
    rfl
  have hfault : t.fault = none := ht.fault.trans hs.fault
  have hloaded : (loadFound { t with spawned := [] } q salt verifier env.rand).srp =
      s.srp.offered (toUppercase username) salt verifier env.rand := by
    rw [← hupper, ← ht.srp]
    rfl
  set u := loadFound { t with spawned := [] } q salt verifier env.rand with hu
  have hopen : u.closed = false := ht.opened
  have hchallenge : t.step sha1 (.challenge 0 env) = some (u.sendPacket (.auth offer)) := by
    rw [hu, ← handleLogonChallenge_found (by rw [hname, hvalid]) (by rw [hupper, hacc])
      (by rw [← hu, hloaded, hoffer])]
    simp [Session.step, hfault, hspawned]
  have hposted : u.posted = [] := ht.posted.trans (by rw [hs.posted]; rfl)
  have hreplies : u.replies = s.replies := by
    refine ht.replies.trans ?_
    exact List.append_nil _
  obtain ⟨hsend, hans⟩ := hs.answered (t := u.sendPacket (.auth offer)) sha1
    (p := Client.challengePacket username) (q := .auth offer)
    ((sendPacket_fault u _).trans hfault) ((sendPacket_closed u _).trans hopen)
    (by rw [sendPacket_toReadState]; exact ht.active) (by rw [sendPacket_toAuthState]; rfl)
    (by rw [sendPacket_toWriteState]; exact ht.write)
    (by rw [sendPacket_posted hopen, hposted]; rfl)
    (by rw [sendPacket_replies hopen, hreplies])
    (by rw [sendPacket_toReadState]; exact ht.dispatched)
  refine ⟨(u.sendPacket (.auth offer)).wrote (.auth offer), ?_, hans, ?_, ?_⟩
  · rw [Run.exec_cons, hchallenge, Option.bind_some, hsend]
  · show (u.sendPacket (.auth offer)).sessionMode = _
    rw [sendPacket_toAuthState]
    refine ht.mode.trans ?_
    rw [hmode]
    rfl
  · show (u.sendPacket (.auth offer)).srp = _
    rw [sendPacket_toAuthState, hloaded]

/-- The session answers a proof with both fields. -/
lemma AtRest.accept (hs : s.AtRest) (sha1 : Sha1) (hcan : CanRead s)
    (hmode : s.sessionMode = .authSession) {A M1 : Bytes} (hA : A.length = 32)
    (hM1 : M1.length = 20) :
    Run.Leads (s.Turn sha1 (Client.proofPacket A M1).buildPacket [.send 0, .writeDone 0])
      (fun s' => s.Answered (Client.proofPacket A M1)
          (.auth (proofReply (sha1.hash (A ++ M1)))) s' ∧
        s'.sessionMode = .workSession ∧ s'.srp = s.srp) := by
  have hpayload : (Client.proofPacket A M1).payload = A ++ M1 := by
    simp [Client.proofPacket, Packet.payload, Packet.buffer, ByteBuffer.writeBytes]
  have hlen : (A ++ M1).length = 52 := by
    rw [List.length_append, hA, hM1]
  have htakes : s.Takes (Client.proofPacket A M1) := by
    refine ⟨hmode.symm, rfl, ?_, rfl⟩
    rw [hpayload, hlen]
    decide
  set q : AuthPacket :=
    { opcode := AuthOpcodes.cmsgAuthLogonProof
      buffer := (({} : ByteBuffer).writeBytes A).writeBytes M1 } with hq
  have hbytes : q.buffer.buffer = A ++ M1 := hpayload
  have hsize : 52 ≤ q.buffer.size := by rw [ByteBuffer.size, hbytes, hlen]
  have hanswers : (Client.proofPacket A M1).answers sha1 =
      [.auth (proofReply (sha1.hash (A ++ M1)))] := by
    rw [proofReply, ← List.take_of_length_le hlen.le, ← hbytes]
    exact (Packet.answers_proof sha1 rfl hsize).2
  have hswitches : (Client.proofPacket A M1).switches = true :=
    (Packet.switches_iff _).2 ⟨q, rfl, rfl, hsize⟩
  refine hs.turn hcan htakes fun t ht => ?_
  obtain ⟨hsend, hans⟩ := hs.answered (t := t) sha1 (p := Client.proofPacket A M1)
    (q := .auth (proofReply (sha1.hash (A ++ M1)))) (ht.fault.trans hs.fault) ht.opened ht.active
    (by rw [ht.spawned, hs.spawned]; rfl) ht.write (by rw [ht.posted, hs.posted, hanswers]; rfl)
    (by rw [ht.replies, hanswers]) ht.dispatched
  refine ⟨_, hsend, hans, ?_, ht.srp⟩
  refine ht.mode.trans ?_
  rw [Packet.nextMode, hswitches]
  rfl

end Session

/-! ## The exchange -/

/-- The bytes given to `async_write` between two states. -/
def written (before after : List Bytes) : Bytes := (after.drop before.length).flatten

/-- If it was one frame, these are its bytes. -/
lemma written_concat (before : List Bytes) (m : Bytes) : written before (before ++ [m]) = m := by
  simp [written]

/-- **The exchange of the four messages of a login**, with nothing else in flight: the client sends
a `CMSG_AUTH_LOGON_CHALLENGE`; the session reads it, runs the challenge in the environment `env` and
sends its reply; the client reads that, drawing the key `rand`, and sends what it sends; the session
reads that and sends its reply; and the client reads it. What one side reads are the bytes the other
side wrote, in any chunks. -/
def Exchange (sha1 : Sha1) (username password : Bytes) (env : ChallengeEnv) (rand : Rand32)
    (c : Client) (s : Session) (c' : Client) (s' : Session) : Prop :=
  ∃ c₁, Run.exec (Client.step sha1) c [.logonChallenge username password, .writeDone 0] = some c₁ ∧
  ∃ s₁, s.Turn sha1 (written c.started c₁.started) [.challenge 0 env, .send 0, .writeDone 0] s₁ ∧
  ∃ c₂, c₁.Turn sha1 rand (written s.started s₁.started) [.writeDone 0] c₂ ∧
    s₁.Turn sha1 (written c₁.started c₂.started) [.send 0, .writeDone 0] s' ∧
    c₂.Turn sha1 rand (written s₁.started s'.started) [] c'

/-- Both ends after an exchange that went well. The messages arrived as they were sent, and no
catch clause ran: each would have sent an `SMSG_AUTH_RESPONSE`, closed the session, posted a
`disconnect` or left the mode of the client. -/
structure LoggedIn (sha1 : Sha1) (username salt verifier : Bytes) (c : Client) (s : Session)
    (c' : Client) (s' : Session) (A B N M1 M2 : Bytes) : Prop where
  sent : c'.sent = c.sent ++ [Client.challengePacket username, Client.proofPacket A M1]
  dispatched : s'.dispatched.map (·.packet) =
    s.dispatched.map (·.packet) ++ [Client.challengePacket username, Client.proofPacket A M1]
  replies : s'.replies =
    s.replies ++ [.auth (offerPacket B s'.srp.getGenerator N salt), .auth (proofReply M2)]
  received : c'.received = c.received ++
    ((Packet.auth (offerPacket B s'.srp.getGenerator N salt)).buildPacket ++
      (Packet.auth (proofReply M2)).buildPacket)
  fields : Client.readChallenge (offerPacket B s'.srp.getGenerator N salt) =
    .ok (B, s'.srp.getGenerator, N, salt)
  clientAtRest : c'.AtRest
  sessionAtRest : s'.AtRest
  disconnects : c'.disconnects = c.disconnects
  sameN : c'.srp.N = s'.srp.N
  sameG : c'.srp.g = s'.srp.g
  sameK : c'.srp.k = s'.srp.k
  sameSalt : c'.srp.salt = s'.srp.salt
  account : s'.srp.username = toUppercase username ∧ s'.srp.salt = salt ∧
    s'.srp.v = Endian.ofBE verifier
  serverKey : s'.srp.getBBytes = .ok B
  clientKey : c'.srp.getABytes = .ok A
  proof : c'.srp.lastM1 = M1 ∧ M1 = sha1.hash (A ++ B ++ salt)
  accepted : c'.srp.verifyServerProof sha1 c'.srp.lastM1 M2 = .ok true
  clientMode : c'.sessionMode = .workSession
  sessionMode : s'.sessionMode = .workSession

/-- A session reached by a run is at the end of a longer run after a turn. -/
lemma Session.Turn.exec {sha1 : Sha1} {s s' : Session} {bytes : Bytes} {es fs : List SessionEvent}
    (h : s.Turn sha1 bytes fs s')
    (hs : Run.exec (Session.step sha1) (Session.start sha1) es = some s) :
    ∃ es', Run.exec (Session.step sha1) (Session.start sha1) es' = some s' := by
  obtain ⟨t, ⟨chunks, -, hreads⟩, htasks⟩ := h
  refine ⟨es ++ (chunks.map .read ++ fs), ?_⟩
  rw [Run.exec_append, hs, Option.bind_some, Run.exec_append, hreads, Option.bind_some, htasks]

/-- The bytes of `B` and `N` of an object with the built-in group. -/
lemma SRP6.BuiltIn.exists_bytes {sha1 : Sha1} {srp : SRP6} (h : srp.BuiltIn sha1)
    (name salt verifier : Bytes) (rand : Rand32) :
    ∃ B N, (srp.offered name salt verifier rand).getBBytes = .ok B ∧ B.length = 32 ∧
      (srp.offered name salt verifier rand).getNBytes = .ok N ∧ N.length = 32 ∧
      Endian.ofBE N = SRP6.modulus := by
  have hpos : 0 < SRP6.modulus := by decide
  obtain ⟨B, hB, hBlen⟩ := SRP6.padBytesLeft_mod
    (n := srp.k * Endian.ofBE verifier % SRP6.modulus +
      bnModExp srp.g (Endian.ofBE rand.1) SRP6.modulus) hpos SRP6.modulus_lt.le
  obtain ⟨N, hN, hNlen⟩ := SRP6.padBytesLeft_bnToBin SRP6.modulus_lt
  refine ⟨B, N, ?_, hBlen, ?_, hNlen, SRP6.ofBE_padBytesLeft hN⟩
  · simp only [SRP6.offered, SRP6.getBBytes, SRP6.generateServerEphemeral, SRP6.loadVerifier,
      SRP6.setOnlyUsername, h.N, hB]
  · simp only [SRP6.offered, SRP6.getNBytes, SRP6.generateServerEphemeral, SRP6.loadVerifier,
      SRP6.setOnlyUsername, h.N, hN]

/-- The ends are logged in after the four messages, if the session offered the parameters of the
account and the client proved with them.

**Proof sketch.** The session's object is the one with the parameters of the account, and by
`SRP6.Proves` the client's has the same. -/
lemma loggedIn_of_answered {sha1 : Sha1} {c : Client} {s s₁ s₂ : Session}
    {username password salt verifier A B N M1 : Bytes} {rand : Rand32} {srp srp₁ : SRP6}
    (hc : c.AtRest) (hbuiltIn : s.srp.BuiltIn sha1)
    (hsrp₁ : s.srp.offered (toUppercase username) salt verifier rand = srp₁)
    (hB : srp₁.getBBytes = .ok B) (hBlen : B.length = 32) (hNlen : N.length = 32)
    (hsalt : salt.length = 32) (hproves : srp.Proves sha1 srp₁.getGenerator salt A B M1)
    (hans₁ : s.Answered (Client.challengePacket username)
      (.auth (offerPacket B srp₁.getGenerator N salt)) s₁)
    (hans₂ : s₁.Answered (Client.proofPacket A M1) (.auth (proofReply (sha1.hash (A ++ M1)))) s₂)
    (hsrp₂ : s₂.srp = srp₁) (hmode₂ : s₂.sessionMode = .workSession) :
    LoggedIn sha1 username salt verifier c s
      (((c.asked username password).proved
        (Packet.auth (offerPacket B srp₁.getGenerator N salt)).buildPacket srp A M1).finished
        (Packet.auth (proofReply (sha1.hash (A ++ M1)))).buildPacket)
      s₂ A B N M1 (sha1.hash (A ++ M1)) := by
  obtain ⟨hN, hg, hk⟩ : srp₁.BuiltIn sha1 := by
    rw [← hsrp₁]
    exact ⟨hbuiltIn.N, hbuiltIn.g, hbuiltIn.k⟩
  have hgen : srp₁.getGenerator.toNat = 7 := by
    rw [SRP6.getGenerator, hg]
    rfl
  exact
    { sent := List.append_assoc _ _ _
      dispatched := by rw [hans₂.dispatched, hans₁.dispatched, List.append_assoc]; rfl
      replies := by rw [hans₂.replies, hans₁.replies, List.append_assoc, hsrp₂]; rfl
      received := by rw [hsrp₂]; exact List.append_assoc _ _ _
      fields := by rw [hsrp₂]; exact Client.readChallenge_offerPacket _ hBlen hNlen hsalt
      clientAtRest := ((hc.asked _ _).proved _ _ _ _).finished _
      sessionAtRest := hans₂.rest
      disconnects := rfl
      sameN := by rw [hsrp₂, hN]; exact hproves.modulus
      sameG := by rw [hsrp₂, hg, ← hgen]; exact hproves.generator
      sameK := by rw [hsrp₂, hk, ← hgen]; exact hproves.multiplier
      sameSalt := by rw [hsrp₂, ← hsrp₁]; exact hproves.salted
      account := by rw [hsrp₂, ← hsrp₁]; exact ⟨rfl, rfl, rfl⟩
      serverKey := by rw [hsrp₂]; exact hB
      clientKey := hproves.key
      proof := ⟨hproves.lastM1, hproves.proof⟩
      accepted := hproves.verifyServerProof
      clientMode := rfl
      sessionMode := hmode₂ }

/-- **An honest login completes.** Let a row with a salt and a verifier of 32 bytes be stored under
`name`, let the cache hold nothing else for it, and let a user log in with a name that is valid
UTF-8 without a zero byte, fits the frame and is `name` in upper case, with any password. From every
state of a run of a session at rest in `AUTH_SESSION` and every client at rest in `AUTH_SESSION`,
whatever both sides draw, the exchange of the four messages can be made, and however it is made,
both ends are logged in after it.

**Proof sketch.** Each message is determined by the one before: the session finds the row, `B` and
`N` fit 32 bytes, so the client reads back what the session has, and its `A` fits 32 bytes too. The
answer to the proof is the hash of the same two fields on both sides. -/
theorem login_completes (sha1 : Sha1) (es : List SessionEvent) (c : Client) (s : Session)
    (name username password salt verifier : Bytes) (env : ChallengeEnv) (rand : Rand32)
    (hsalt : salt.length = 32) (hverifier : verifier.length = 32)
    (hrow : env.db = .ok (some { salt := some salt, verifier := some verifier }))
    (hcache : ∀ e, env.cache.cache name = some e → e.salt = salt ∧ e.verifier = verifier)
    (hnul : (0 : UInt8) ∉ username) (hvalid : isValidUtf8 username = true)
    (hlen : username.length ≤ 2047) (hname : toUppercase username = name)
    (hexec : Run.exec (Session.step sha1) (Session.start sha1) es = some s) (hs : s.AtRest)
    (hsmode : s.sessionMode = .authSession) (hc : c.AtRest)
    (hcmode : c.sessionMode = .authSession) :
    (∃ c' s', Exchange sha1 username password env rand c s c' s') ∧
      ∀ c' s', Exchange sha1 username password env rand c s c' s' →
        ∃ A B N M1 M2, LoggedIn sha1 username salt verifier c s c' s' A B N M1 M2 := by
  subst hname
  have hbuiltIn := builtIn_of_exec hexec
  obtain ⟨B, N, hB, hBlen, hN, hNlen, hNval⟩ :=
    hbuiltIn.exists_bytes (toUppercase username) salt verifier env.rand
  have hacc := ChallengeEnv.account_of_row hsalt hverifier hrow hcache
  set srp₁ := s.srp.offered (toUppercase username) salt verifier env.rand with hsrp₁
  set offer := (Packet.auth (offerPacket B srp₁.getGenerator N salt)).buildPacket with hoffer
  have hleads : Run.Leads (fun r : Client × Session =>
      Exchange sha1 username password env rand c s r.1 r.2) (fun r =>
        ∃ A B N M1 M2, LoggedIn sha1 username salt verifier c s r.1 r.2 A B N M1 M2) := by
    -- the client asks
    set c₁ := c.asked username password with hc₁
    have hrest₁ : c₁.AtRest := hc.asked username password
    have hask : Run.Leads (fun d => Run.exec (Client.step sha1) c
        [.logonChallenge username password, .writeDone 0] = some d) (· = c₁) :=
      Run.leads_of_eq_some (hc.ask sha1 username password) rfl
    refine hask.bind fun d _ hd => ?_
    obtain rfl := hd
    have hwritten₁ : written c.started c₁.started =
        (Client.challengePacket username).buildPacket := written_concat _ _
    rw [hwritten₁]
    -- the session offers its parameters
    refine (hs.offer (CanRead.of_exec hexec hs.fault) hsmode hnul hvalid hlen hacc
      (challengeReply_of_bytes salt hB hN)).bind fun s₁ hturn₁ hs₁ => ?_
    obtain ⟨hans₁, hmode₁, hsrp₁'⟩ := hs₁
    obtain ⟨es₁, hexec₁⟩ := hturn₁.exec hexec
    have hwritten' : written s.started s₁.started = offer := by
      rw [hans₁.started, written_concat]
    rw [hwritten']
    -- the client proves
    obtain ⟨srp, A, M1, hproves, hA, hprove⟩ :=
      hrest₁.prove hcmode sha1 rand srp₁.getGenerator hBlen hNlen hsalt hNval
    refine hprove.bind fun c₂ _ hc₂ => ?_
    have hrest₂ : c₂.AtRest := hc₂ ▸ hrest₁.proved offer srp A M1
    have hwritten₂ : written c₁.started c₂.started = (Client.proofPacket A M1).buildPacket := by
      rw [hc₂]
      exact written_concat _ _
    rw [hwritten₂]
    -- the session accepts the proof
    have hM1 : M1.length = 20 := by rw [hproves.proof, sha1.length_hash]
    have hturn₂ := hans₁.rest.accept sha1 (CanRead.of_exec hexec₁ hans₁.rest.fault) hmode₁ hA hM1
    refine hturn₂.pair (S := fun t => c₂.Turn sha1 rand (written s₁.started t.started) [])
      (Q := fun r => ∃ A B N M1 M2,
        LoggedIn sha1 username salt verifier c s r.1 r.2 A B N M1 M2) fun s₂ _ hs₂ => ?_
    obtain ⟨hans₂, hmode₂, hsrp₂⟩ := hs₂
    rw [hans₂.started, written_concat]
    -- and the client its answer
    have hmode : c₂.sessionMode = .authSession := hc₂ ▸ hcmode
    have hproves₂ : c₂.srp.Proves sha1 srp₁.getGenerator salt A B M1 := hc₂ ▸ hproves
    refine (hrest₂.finish hmode rand hproves₂).imp fun c₃ hc₃ => ?_
    rw [hc₃, hc₂]
    exact ⟨A, B, N, M1, _, loggedIn_of_answered hc hbuiltIn hsrp₁.symm hB hBlen hNlen hsalt hproves
      hans₁ hans₂ (hsrp₂.trans hsrp₁') hmode₂⟩
  obtain ⟨⟨⟨c', s'⟩, hex⟩, hall⟩ := hleads
  exact ⟨⟨c', s', hex⟩, fun c' s' h => hall (c', s') h⟩

/-- A session just started is at rest. -/
lemma Session.atRest_start (sha1 : Sha1) : (Session.start sha1).AtRest := by
  refine ⟨rfl, rfl, ?_, rfl, rfl, rfl, rfl, rfl⟩
  simp [Session.start, Session.doRead]

/-- A client just connected, in concrete runs. -/
def sampleClient : Client :=
  { Client.new SRP6.sampleSha1 with
    connected := true
    socketOpen := true
    reads := [{ op := .header .authSession }]
    heartbeatWaits := [{ op := () }]
    connections := 1 }

/-- The user `a` logs in over a new connection. -/
theorem login_completes_new_connection :
    Run.exec (Client.step SRP6.sampleSha1) (Client.new SRP6.sampleSha1)
      [.connect, .connectDone 0] = some sampleClient ∧
    ∃ c' s', Exchange SRP6.sampleSha1 [97] [98]
        (sampleEnv (some ⟨some (List.replicate 32 0), some (List.replicate 32 0)⟩)) sampleRand
        sampleClient (Session.start SRP6.sampleSha1) c' s' ∧
      c'.sessionMode = .workSession ∧ s'.sessionMode = .workSession := by
  refine ⟨rfl, ?_⟩
  obtain ⟨⟨c', s', hex⟩, hall⟩ := login_completes SRP6.sampleSha1 [] sampleClient
    (Session.start SRP6.sampleSha1) [65] [97] [98] (List.replicate 32 0) (List.replicate 32 0)
    (sampleEnv (some ⟨some (List.replicate 32 0), some (List.replicate 32 0)⟩)) sampleRand
    (by decide) (by decide) rfl nofun (by decide) (by decide) (by decide) (by decide) rfl
    (Session.atRest_start _) rfl ⟨⟨rfl, rfl⟩, rfl, rfl, rfl⟩ rfl
  obtain ⟨A, B, N, M1, M2, hlogged⟩ := hall c' s' hex
  exact ⟨c', s', hex, hlogged.clientMode, hlogged.sessionMode⟩

end Purity
