import Purity.Client.Effect
import Purity.Server.Chunking

set_option relaxedAutoImplicit false
set_option autoImplicit false

/-!
# Chat messages

`Client::send_message` frames any text, and the length field of the frame has two bytes: a text of
65535 bytes or more declares less than it has. The reader of the session closes on a frame that
declares more than 2048 bytes. So a text that is too long is refused, and what follows is not read,
unless its length modulo 65536 is small: then the session takes a part of it for the message, and
the next bytes of the text for a header.

## Main definitions

* `Purity.Client.messageStream` — the bytes that calls of `send_message` put on the stream.
* `Purity.ReadsMessages` — a session logged a beginning of the texts, from their own frames.
* `Purity.Unambiguous` — whatever a session reads of the stream, it reads messages.
* `Purity.FirstLongRefused` — the condition on the texts.

## Main results

* `Purity.unambiguous_iff` — the stream is unambiguous exactly under that condition.
-/

namespace Purity

/-! ## The stream -/

/-- The bytes of the packets that the calls of `send_message` pass to `send_packet`. -/
def Client.messageStream (c : Client) (msgs : List Bytes) : Bytes :=
  streamOf ((msgs.foldl Client.sendMessage c).sent.drop c.sent.length)

/-- In `WORK_SESSION` every text is sent. -/
lemma Client.sent_foldl_sendMessage {c : Client} (hmode : c.sessionMode = .workSession)
    (msgs : List Bytes) :
    (msgs.foldl Client.sendMessage c).sent = c.sent ++ msgs.map Client.messagePacket := by
  induction msgs generalizing c with
  | nil => simp
  | cons m msgs ih =>
    have hsend : c.sendMessage m = c.sendPacket (Client.messagePacket m) := by
      simp [Client.sendMessage, hmode]
    rw [List.foldl_cons, hsend, ih (by simpa using hmode), Client.sendPacket_sent]
    simp

/-- The stream of the messages. -/
lemma Client.messageStream_eq {c : Client} (hmode : c.sessionMode = .workSession)
    (msgs : List Bytes) : c.messageStream msgs = streamOf (msgs.map Client.messagePacket) := by
  rw [messageStream, sent_foldl_sendMessage hmode, List.drop_left]

/-- The payload of a message is the text from its end, and a zero byte. -/
lemma Client.payload_messagePacket (msg : Bytes) :
    (Client.messagePacket msg).payload = msg.reverse ++ [0] := by
  rw [Packet.payload, messagePacket, Packet.buffer, ByteBuffer.writeStringNtLe_new]

/-- A session logs the text of a message, if it has no zero byte. -/
lemma Client.texts_messagePacket {msg : Bytes} (h : (0 : UInt8) ∉ msg) :
    (Client.messagePacket msg).texts = [msg] := by
  simp only [messagePacket, Packet.texts, if_true, ByteBuffer.readStringNtLe_new h]

/-! ## The property and the condition -/

/-- A session has logged a beginning of the texts, and every frame it has parsed is the frame of a
message, one after the other: no byte of a message was taken for a header. -/
structure ReadsMessages (msgs : List Bytes) (s s' : Session) : Prop where
  texts : ∃ texts, s'.messages = s.messages ++ texts ∧ texts <+: msgs
  frames : ∃ ds, s'.dispatched = s.dispatched ++ ds ∧
    ds.map (·.raw) <+: msgs.map fun m => (Client.messagePacket m).buildPacket

/-- The stream of the messages is unambiguous: whatever a session in `WORK_SESSION`, at the
beginning of a frame, reads of it, in any chunks and with anything else in between, it reads
messages. -/
def Unambiguous (sha1 : Sha1) (c : Client) (msgs : List Bytes) : Prop :=
  ∀ es₀ s es s', Run.exec (Session.step sha1) (Session.start sha1) es₀ = some s →
    s.sessionMode = .workSession → s.closed = false → s.readBuffer.active = [] →
    Run.exec (Session.step sha1) s es = some s' →
    (chunksOf es).flatten <+: c.messageStream msgs → ReadsMessages msgs s s'

/-- The first text whose payload is over the limit of the reader, if there is one, declares a length
over the limit too. -/
def FirstLongRefused (msgs : List Bytes) : Prop :=
  ∀ m, msgs.find? (fun m => 2048 < m.length + 1) = some m → 2048 < (m.length + 1) % 65536

/-! ## What a session logs -/

/-- A packet whose handler throws is no message. -/
lemma Packet.texts_of_throws {p : Packet} (h : p.throws = true) : p.texts = [] := by
  cases p with
  | auth p => rfl
  | work p =>
    obtain ⟨hop, -⟩ : p.opcode = WorkOpcodes.cmsgPing ∧ p.buffer.size < 4 := by
      simpa [throws] using h
    exact if_neg (by rw [hop]; decide)

/-- What a step logs are the texts of the packets it dispatches. -/
lemma Transition.logged {sha1 : Sha1} {s s' : Session} {e : SessionEvent}
    (h : Transition sha1 s e s') : ∃ ds, s'.dispatched = s.dispatched ++ ds ∧
      s'.messages = s.messages ++ ds.flatMap fun d => d.packet.texts := by
  have hsame : ∀ t : Session, t.dispatched = s.dispatched → t.messages = s.messages →
      ∃ ds, t.dispatched = s.dispatched ++ ds ∧
        t.messages = s.messages ++ ds.flatMap fun d => d.packet.texts := fun t hdisp hmsgs =>
    ⟨[], by simpa using hdisp, by simpa using hmsgs⟩
  cases h with
  | readClosed chunk hclosed hreads => exact hsame _ rfl rfl
  | read chunk b s' hopen hreads hchunk hact hout =>
    cases hout with
    | wait hwait => exact hsame _ rfl rfl
    | oversized hle hbig =>
      refine hsame _ ?_ ?_
      · rw [Session.close_dispatched]; rfl
      · rw [Session.close_messages]; rfl
    | thrown p b' h0 hmode hsize hact' hthrow =>
      refine ⟨[⟨_, _, p⟩], Session.close_dispatched _, ?_⟩
      rw [Session.close_messages, List.flatMap_singleton, Packet.texts_of_throws hthrow]
      exact (List.append_nil _).symm
    | handled p b' u h0 hmode hsize hact' hthrow heff =>
      refine ⟨[⟨_, _, p⟩], heff.dispatched, ?_⟩
      rw [List.flatMap_singleton]
      exact heff.messages
  | readError hreads => exact hsame _ (by simp) (by simp)
  | challenge i env p hp =>
    have heff := HandlersAuth.handleLogonChallenge_effect
      { s with spawned := s.spawned.eraseIdx i } p env
    exact hsame _ (by rw [heff.read]) (by rw [heff.read])
  | send i p hp => exact hsame _ (by simp) (by simp)
  | writeDone i m hm => exact hsame _ (by simp) (by simp)
  | writeError i m hm => exact hsame _ (by simp) (by simp)
  | post p => exact hsame _ (by simp) (by simp)
  | close => exact hsame _ (by simp) (by simp)

/-- What a run logs are the texts of the packets it dispatches. -/
lemma logged_of_exec {sha1 : Sha1} {s s' : Session} {es : List SessionEvent}
    (h : Run.exec (Session.step sha1) s es = some s') :
    ∃ ds, s'.dispatched = s.dispatched ++ ds ∧
      s'.messages = s.messages ++ ds.flatMap fun d => d.packet.texts := by
  refine Run.exec_invariant (I := fun t => ∃ ds, t.dispatched = s.dispatched ++ ds ∧
    t.messages = s.messages ++ ds.flatMap fun d => d.packet.texts) ?_ ⟨[], by simp⟩ h
  rintro t e t' ⟨ds, hdisp, hmsgs⟩ hstep
  obtain ⟨ds', hdisp', hmsgs'⟩ := (Session.step_transition hstep).logged
  refine ⟨ds ++ ds', ?_, ?_⟩
  · rw [hdisp', hdisp, List.append_assoc]
  · rw [hmsgs', hmsgs, List.flatMap_append, List.append_assoc]

/-! ## Messages within the limit -/

/-- What dispatching the frame of a message records. -/
def dispatchedMessage (m : Bytes) : Dispatched :=
  ⟨.workSession, (Client.messagePacket m).buildPacket, Client.messagePacket m⟩

/-- The texts of messages are logged as they were. -/
lemma flatMap_texts {msgs : List Bytes} (hnul : ∀ m ∈ msgs, (0 : UInt8) ∉ m) :
    ((msgs.map dispatchedMessage).flatMap fun d => d.packet.texts) = msgs := by
  induction msgs with
  | nil => rfl
  | cons m msgs ih =>
    have htext : (dispatchedMessage m).packet.texts = [m] :=
      Client.texts_messagePacket (hnul m List.mem_cons_self)
    rw [List.map_cons, List.flatMap_cons, htext, ih fun x hx => hnul x (List.mem_cons_of_mem m hx)]
    rfl

/-- Where a session stands that has read `received` of the stream: it has dispatched the first `n`
messages, all within the limit, and if it is open, the bytes after them are in its buffer. -/
structure AtMessage (msgs : List Bytes) (s : Session) (received : Bytes) (t : Session) : Prop where
  mode : t.sessionMode = .workSession
  dispatched : ∃ n ≤ msgs.length,
    t.dispatched = s.dispatched ++ (msgs.take n).map dispatchedMessage ∧
    (∀ m ∈ msgs.take n, m.length + 1 ≤ 2048) ∧
    (t.closed = false →
      received = streamOf ((msgs.take n).map Client.messagePacket) ++ t.readBuffer.active)

/-- The message before the session, if its text is the first over the limit, is refused. -/
lemma FirstLongRefused.next {msgs : List Bytes} (h : FirstLongRefused msgs) {n : ℕ} {m : Bytes}
    {rest : List Bytes} (hdrop : msgs.drop n = m :: rest)
    (hshort : ∀ m ∈ msgs.take n, m.length + 1 ≤ 2048) (hlong : 2048 < m.length + 1) :
    2048 < (m.length + 1) % 65536 := by
  apply h m
  rw [← List.take_append_drop n msgs, hdrop, List.find?_append,
    List.find?_eq_none.2 fun x hx => by simpa using hshort x hx, Option.none_or]
  exact List.find?_cons_of_pos (decide_eq_true hlong)

/-- The frame at the front of the buffer is that of the next message.

**Proof sketch.** The length field in the buffer is that of the message. If the message is within
the limit, its frame is the one at the front. If it is not, then it is the first such one and
declares too much, but the reader took a frame within the limit. -/
lemma eq_message_of_front {p : Packet} {m : Bytes} {ps : List Packet} {rest more : Bytes}
    (hlong : 2048 < m.length + 1 → 2048 < (m.length + 1) % 65536)
    (h0 : p.buffer.readPos = 0) (hmode : p.mode = .workSession) (hsize : p.payload.length ≤ 2048)
    (h : p.buildPacket ++ rest ++ more = streamOf (Client.messagePacket m :: ps)) :
    p = Client.messagePacket m ∧ m.length + 1 ≤ 2048 := by
  have hlen : (Client.messagePacket m).payload.length = m.length + 1 := by
    rw [Client.payload_messagePacket]
    simp
  have hmode' : p.mode = (Client.messagePacket m).mode := hmode
  rw [streamOf_cons, List.append_assoc] at h
  have hdecl := Packet.declaredSize_buildPacket_mod p (rest ++ more)
  rw [h, hmode', Packet.declaredSize_buildPacket_mod, hlen] at hdecl
  have hshort : m.length + 1 ≤ 2048 := by
    by_contra hcon
    have := hlong (by omega)
    omega
  refine ⟨?_, hshort⟩
  exact (Packet.buildPacket_append_inj hmode' h0 rfl (by omega) (by omega) h).1

namespace AtMessage

variable {msgs : List Bytes} {s t t' : Session} {received : Bytes}

/-- A step that dispatches nothing and leaves the bytes that arrived in the buffer, or closes the
session, keeps it. -/
lemma of_dispatched_eq {chunk : Bytes} (h : AtMessage msgs s received t)
    (hmode : t'.sessionMode = t.sessionMode) (hdisp : t'.dispatched = t.dispatched)
    (hact : t'.closed = false →
      t.closed = false ∧ t'.readBuffer.active = t.readBuffer.active ++ chunk) :
    AtMessage msgs s (received ++ chunk) t' := by
  obtain ⟨n, hn, hdisp₀, hshort, hrecv⟩ := h.dispatched
  refine ⟨hmode.trans h.mode, n, hn, hdisp.trans hdisp₀, hshort, fun hopen => ?_⟩
  obtain ⟨hopen₀, hact'⟩ := hact hopen
  rw [hrecv hopen₀, hact', List.append_assoc]

/-- A frame that is dispatched is that of the next message. -/
lemma of_frame {chunk rest : Bytes} {p : Packet} (hmsgs : FirstLongRefused msgs)
    (h : AtMessage msgs s received t) (hopen : t.closed = false)
    (hpre : received ++ chunk <+: streamOf (msgs.map Client.messagePacket))
    (h0 : p.buffer.readPos = 0) (hframing : p.mode = t.sessionMode)
    (hsize : p.payload.length ≤ 2048)
    (hdata : t.readBuffer.active ++ chunk = p.buildPacket ++ rest)
    (hdisp : t'.dispatched = t.dispatched ++ [⟨t.sessionMode, p.buildPacket, p⟩])
    (hmode : t'.sessionMode = p.nextMode t.sessionMode)
    (hact : t'.closed = false → t'.readBuffer.active = rest) :
    AtMessage msgs s (received ++ chunk) t' := by
  obtain ⟨n, hn, hdisp₀, hshort, hrecv⟩ := h.dispatched
  have hwork : p.mode = .workSession := hframing.trans h.mode
  -- the buffer holds the beginning of what is left of the stream
  obtain ⟨more, hmore⟩ := hpre
  have hfront : p.buildPacket ++ rest ++ more =
      streamOf ((msgs.drop n).map Client.messagePacket) := by
    have hsplit : streamOf (msgs.map Client.messagePacket) =
        streamOf ((msgs.take n).map Client.messagePacket) ++
          streamOf ((msgs.drop n).map Client.messagePacket) := by
      rw [← streamOf_append, ← List.map_append, List.take_append_drop]
    rw [hrecv hopen, hsplit, List.append_assoc, List.append_assoc, List.append_cancel_left_eq,
      ← List.append_assoc, hdata] at hmore
    exact hmore
  cases hdrop : msgs.drop n with
  | nil =>
    have hlen := congrArg List.length hfront
    have htwo := Packet.two_le_headerSize p.mode
    rw [hdrop, List.map_nil, streamOf_nil, List.length_nil, List.length_append, List.length_append,
      Packet.length_buildPacket] at hlen
    omega
  | cons m ms =>
    rw [hdrop, List.map_cons] at hfront
    obtain ⟨rfl, hm⟩ :=
      eq_message_of_front (hmsgs.next hdrop hshort) h0 hwork hsize hfront
    have htake : msgs.take (n + 1) = msgs.take n ++ [m] := by
      rw [List.take_add, hdrop]
      rfl
    have hlt : n < msgs.length := by
      by_contra hge
      rw [List.drop_eq_nil_iff.2 (not_lt.1 hge)] at hdrop
      cases hdrop
    refine ⟨?_, n + 1, hlt, ?_, ?_, ?_⟩
    · rw [hmode, h.mode, Packet.nextMode, ite_self]
    · rw [hdisp, hdisp₀, htake, h.mode, List.map_append, List.append_assoc]
      rfl
    · intro x hx
      rw [htake] at hx
      rcases List.mem_append.1 hx with hold | hnew
      · exact hshort x hold
      · obtain rfl := List.mem_singleton.1 hnew
        exact hm
    · intro hopen'
      rw [hact hopen', hrecv hopen, htake, List.map_append, streamOf_append, List.append_assoc,
        hdata, List.append_assoc]
      simp

/-- **One step** of a run that reads a beginning of the stream keeps it. -/
lemma step {e : SessionEvent} (hmsgs : FirstLongRefused msgs) (h : AtMessage msgs s received t)
    (hstep : ReaderStep t e t')
    (hpre : received ++ e.chunk?.getD [] <+: streamOf (msgs.map Client.messagePacket)) :
    AtMessage msgs s (received ++ e.chunk?.getD []) t' := by
  cases hstep with
  | idle e t' hrecv hdisp hmode hauth hact he =>
    refine h.of_dispatched_eq hmode hdisp fun hopen => ?_
    obtain ⟨hopen₀, hact'⟩ := hact hopen
    refine ⟨hopen₀, ?_⟩
    cases e with
    | read chunk => exact absurd rfl (he hopen₀ chunk)
    | _ => simpa [SessionEvent.chunk?] using hact'
  | wait chunk t' hopen hwait hrecv hdisp hmode hauth hopen' hact =>
    exact h.of_dispatched_eq hmode hdisp fun _ => ⟨hopen, hact⟩
  | oversized chunk t' hopen hsize hbig hdisp hmode hauth hclosed =>
    refine h.of_dispatched_eq hmode hdisp fun hopen' => ?_
    rw [hclosed] at hopen'
    cases hopen'
  | frame chunk t' p rest hopen h0 hframing hsize hdata hrecv hdisp hmode hauth hclosed hact =>
    exact h.of_frame hmsgs hopen hpre h0 hframing hsize hdata hdisp hmode hact

end AtMessage

/-- What a run from the beginning of the messages reads are messages, if the first text over the
limit is refused. -/
lemma readsMessages_of_exec {sha1 : Sha1} {msgs : List Bytes} {s s' : Session}
    {es : List SessionEvent} (hmsgs : FirstLongRefused msgs)
    (hnul : ∀ m ∈ msgs, (0 : UInt8) ∉ m) (hmode : s.sessionMode = .workSession)
    (hact : s.readBuffer.active = []) (h : Run.exec (Session.step sha1) s es = some s')
    (hpre : (chunksOf es).flatten <+: streamOf (msgs.map Client.messagePacket)) :
    ReadsMessages msgs s s' := by
  have hat : AtMessage msgs s (chunksOf es).flatten s' := by
    refine Run.exec_induction (P := fun es t =>
      (chunksOf es).flatten <+: streamOf (msgs.map Client.messagePacket) →
        AtMessage msgs s (chunksOf es).flatten t) ?_ ?_ h hpre
    · intro _
      exact ⟨hmode, 0, Nat.zero_le _, by simp, by simp, fun _ => by simp [chunksOf, hact]⟩
    · intro es e t t' ih hstep hpre
      have hchunks : (chunksOf (es ++ [e])).flatten =
          (chunksOf es).flatten ++ e.chunk?.getD [] := by
        cases he : e.chunk? <;> simp [chunksOf, he]
      rw [hchunks] at hpre ⊢
      have hpre' := (List.prefix_append _ _).trans hpre
      exact (ih hpre').step hmsgs (Session.step_transition hstep).reader hpre
  obtain ⟨n, hn, hdisp, -, -⟩ := hat.dispatched
  obtain ⟨ds, hds, hlog⟩ := logged_of_exec h
  obtain rfl : ds = (msgs.take n).map dispatchedMessage :=
    List.append_cancel_left (hds.symm.trans hdisp)
  refine ⟨⟨msgs.take n, ?_, List.take_prefix n msgs⟩, ⟨_, hdisp, ?_⟩⟩
  · rw [hlog, flatMap_texts fun m hm => hnul m (List.mem_of_mem_take hm)]
  · rw [List.map_map]
    exact (List.take_prefix n msgs).map _

/-! ## A message that declares too little -/

/-- What the reader makes of a message over the limit that declares a length within it: a message
with the first bytes of the payload. -/
def cutMessage (m : Bytes) : Packet :=
  .work { opcode := WorkOpcodes.cmsgMessage
          buffer := { buffer := (m.reverse ++ [0]).take ((m.length + 1) % 65536) } }

/-- Its payload has the length declared. -/
lemma length_payload_cutMessage (m : Bytes) :
    (cutMessage m).payload.length = (m.length + 1) % 65536 := by
  have hle := Nat.mod_le (m.length + 1) 65536
  show ((m.reverse ++ [0]).take ((m.length + 1) % 65536)).length = _
  rw [List.length_take, List.length_append, List.length_reverse, List.length_singleton,
    min_eq_left hle]

/-- Its frame is the beginning of that of the message. -/
lemma prefix_buildPacket_cutMessage (m : Bytes) :
    (cutMessage m).buildPacket <+: (Client.messagePacket m).buildPacket := by
  have hlen : (Client.messagePacket m).payload.length = m.length + 1 := by
    rw [Client.payload_messagePacket]
    simp
  have hfield : Endian.toBE 2 ((m.length + 1) % 65536) = Endian.toBE 2 (m.length + 1) := by
    have hdiv : m.length + 1 = (m.length + 1) / 65536 * 256 ^ 2 + (m.length + 1) % 65536 := by
      omega
    conv_rhs => rw [hdiv]
    exact (Endian.toBE_add_mul 2 _ _).symm
  have hop : (cutMessage m).opcodeBytes = (Client.messagePacket m).opcodeBytes := rfl
  rw [Packet.buildPacket_eq, Packet.buildPacket_eq, length_payload_cutMessage, hlen, hfield, hop,
    Client.payload_messagePacket, List.prefix_append_right_inj, List.prefix_append_right_inj]
  exact List.take_prefix _ _

/-- The proof of a client that has not logged in: the session accepts it and switches. -/
def zeroProof : Packet :=
  .auth { opcode := AuthOpcodes.cmsgAuthLogonProof, buffer := { buffer := List.replicate 52 0 } }

/-- A proof, short messages and the beginning of a long one are a readable stream. -/
lemma readableStream_cutMessage {pre : List Bytes} {m : Bytes}
    (hpre : ∀ x ∈ pre, x.length + 1 ≤ 2048) (hcut : (m.length + 1) % 65536 ≤ 2048) :
    ReadableStream (zeroProof :: (pre.map Client.messagePacket ++ [cutMessage m])) := by
  have hmem : ∀ p ∈ zeroProof :: (pre.map Client.messagePacket ++ [cutMessage m]),
      p = zeroProof ∨ (∃ x ∈ pre, p = Client.messagePacket x) ∨ p = cutMessage m := by
    intro p hp
    simpa [eq_comm] using hp
  refine ⟨⟨rfl, ?_⟩, ?_, ?_, ?_⟩
  · have hmoded : ∀ ps : List Bytes,
        WellModed .workSession (ps.map Client.messagePacket ++ [cutMessage m]) := by
      intro ps
      induction ps with
      | nil => exact ⟨rfl, trivial⟩
      | cons x ps ih => exact ⟨rfl, ih⟩
    exact hmoded pre
  · intro p hp
    rcases hmem p hp with rfl | ⟨x, hx, rfl⟩ | rfl
    · rfl
    · rfl
    · rfl
  · intro p hp
    rcases hmem p hp with rfl | ⟨x, hx, rfl⟩ | rfl
    · decide
    · rw [Client.payload_messagePacket]
      simpa using hpre x hx
    · rw [length_payload_cutMessage]
      exact hcut
  · intro p hp
    rcases hmem p hp with rfl | ⟨x, hx, rfl⟩ | rfl
    · rfl
    · rfl
    · rfl

/-- The proof alone is one too. -/
lemma readableStream_zeroProof : ReadableStream [zeroProof] :=
  ⟨⟨rfl, trivial⟩, by decide, by decide, by decide⟩

/-- If the first text over the limit declares a length within it, a session takes its first bytes
for a message.

**Proof sketch.** The session reads a proof, the texts before, and the frame that the long one seems
to be, a byte at a time, and dispatches them all. That last frame is shorter than the message. -/
lemma not_unambiguous (sha1 : Sha1) {c : Client} {msgs : List Bytes} {m : Bytes}
    (hmode : c.sessionMode = .workSession)
    (hfirst : msgs.find? (fun m => 2048 < m.length + 1) = some m)
    (hcut : (m.length + 1) % 65536 ≤ 2048) : ¬ Unambiguous sha1 c msgs := by
  intro hun
  obtain ⟨hlong, pre, post, rfl, hshort⟩ := List.find?_eq_some_iff_append.1 hfirst
  have hpre : ∀ x ∈ pre, x.length + 1 ≤ 2048 := fun x hx => by simpa using hshort x hx
  -- the session after the proof, and after the rest
  obtain ⟨s, hs, hread, hopen, hdisp, hact⟩ := exists_run_byteReads sha1 readableStream_zeroProof
  obtain ⟨s', hs', hread', -, hdisp', -⟩ :=
    exists_run_byteReads sha1 (readableStream_cutMessage hpre hcut)
  have hwork : s.sessionMode = .workSession := by
    rw [hread.mode, hdisp]
    rfl
  have hexec : Run.exec (Session.step sha1) s
      (byteReads (streamOf (pre.map Client.messagePacket ++ [cutMessage m]))) = some s' := by
    rw [← List.singleton_append, streamOf_append, byteReads, List.map_append, Run.exec_append,
      ← byteReads, hs] at hs'
    exact hs'
  have hprefix : streamOf (pre.map Client.messagePacket ++ [cutMessage m]) <+:
      c.messageStream (pre ++ m :: post) := by
    rw [Client.messageStream_eq hmode, List.map_append, List.map_cons, streamOf_append,
      streamOf_append, List.prefix_append_right_inj, streamOf_cons, streamOf_cons, streamOf_nil,
      List.append_nil]
    exact (prefix_buildPacket_cutMessage m).trans (List.prefix_append _ _)
  obtain ⟨ds, hds, hframes⟩ := (hun _ s _ s' hs hwork hopen hact hexec
    (by simpa using hprefix)).frames
  -- the frames dispatched after the proof
  have hraw : ds.map (·.raw) =
      (pre.map Client.messagePacket ++ [cutMessage m]).map Packet.buildPacket := by
    have hall := hread'.map_raw
    rw [hdisp', hds, List.map_append, hread.map_raw, hdisp] at hall
    exact List.append_cancel_left hall
  rw [hraw, List.map_append, List.map_append, List.map_map, List.map_cons] at hframes
  have hcutFrame : [(cutMessage m).buildPacket] <+: (Client.messagePacket m).buildPacket ::
      post.map fun m => (Client.messagePacket m).buildPacket :=
    (List.prefix_append_right_inj _).1 hframes
  have heq : (cutMessage m).buildPacket = (Client.messagePacket m).buildPacket :=
    (List.cons_prefix_cons.1 hcutFrame).1
  have hlen := congrArg List.length heq
  rw [Packet.length_buildPacket, Packet.length_buildPacket, length_payload_cutMessage,
    Client.payload_messagePacket, List.length_append, List.length_reverse] at hlen
  have hheader : (cutMessage m).mode = (Client.messagePacket m).mode := rfl
  rw [hheader, List.length_singleton] at hlen
  have hlong' : 2048 < m.length + 1 := by simpa using hlong
  omega

/-- **Unambiguous framing of chat messages.** Let texts without a zero byte be passed to
`send_message` in `WORK_SESSION`. Every session that reads the stream, in whatever chunks, logs a
beginning of the texts and takes no byte of a text for a header, if and only if the first text whose
payload exceeds 2048 bytes, if there is one, declares a length over 2048.

**Proof sketch.** Under the condition `AtMessage` is kept by every step. Without it the session
dispatches a part of the long text, by `not_unambiguous`. -/
theorem unambiguous_iff (sha1 : Sha1) (c : Client) (msgs : List Bytes)
    (hmode : c.sessionMode = .workSession) (hnul : ∀ m ∈ msgs, (0 : UInt8) ∉ m) :
    Unambiguous sha1 c msgs ↔ FirstLongRefused msgs := by
  constructor
  · intro hun m hfirst
    by_contra hcut
    exact not_unambiguous sha1 hmode hfirst (not_lt.1 hcut) hun
  · intro hmsgs es₀ s es s' _ hwork _ hact hexec hpre
    rw [Client.messageStream_eq hmode] at hpre
    exact readsMessages_of_exec hmsgs hnul hwork hact hexec hpre

/-- A client in `WORK_SESSION`. -/
def sampleWorker : Client := { Client.new SRP6.sampleSha1 with sessionMode := .workSession }

/-- Two short texts are read without ambiguity. -/
theorem unambiguous_short :
    Unambiguous SRP6.sampleSha1 sampleWorker [[72, 105], [33]] :=
  (unambiguous_iff SRP6.sampleSha1 sampleWorker [[72, 105], [33]] rfl (by decide)).2
    (by intro m hm; simp at hm)

/-- A text of 65535 letters is not: with its zero byte it declares a length of 0, so the session
takes it for an empty message and its last letters for the header of another packet. -/
theorem ambiguous_long :
    sampleWorker.sessionMode = .workSession ∧ (0 : UInt8) ∉ List.replicate 65535 (65 : UInt8) ∧
      ¬ Unambiguous SRP6.sampleSha1 sampleWorker [List.replicate 65535 65] := by
  refine ⟨rfl, fun h => ?_, ?_⟩
  · exact absurd (List.eq_of_mem_replicate h) (by decide)
  · refine not_unambiguous SRP6.sampleSha1 (m := List.replicate 65535 65) rfl ?_ ?_
    · rw [List.find?_singleton, if_pos]
      rw [List.length_replicate]
      rfl
    · rw [List.length_replicate]
      decide

end Purity
