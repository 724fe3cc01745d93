import Purity.Client.Effect
import Purity.Server.ReadPath
import Purity.Server.WriteQueue

set_option relaxedAutoImplicit false
set_option autoImplicit false

/-!
# A client and its session

A client and the session the server accepted for it, joined by a byte stream in each direction. A
stream is reliable and in order: what a side has read is a beginning of what the other side has
given to its `async_write`s. How the bytes are cut into reads and when each handler runs is left to
the events.

## Main definitions

* `Purity.Net`, `Purity.NetEvent`, `Purity.Net.step` — the two parties and the streams.
* `Purity.Packet.EarlyReply` — the packets a server sends before it has accepted a proof.
* `Purity.Client.InOrder` — the sender of a client during its first connection.

## Main results

* `Purity.Transition.outgoing` — what a session may come to send in one step.
* `Purity.NetInvariant.step` — what holds of the two streams.

## Implementation notes

Only the first connection of a client is modelled here: when it ends, the session is not replaced by
another. `send_packet` is called by the handlers alone, so a session has no `post` events, and the
cache a challenge finds has been filled by challenges (`HandlersAuth.handleLogonChallenge_outcome`).
-/

namespace Purity

/-! ## What a session sends -/

/-- A packet that a session sends before it has accepted a proof: an Auth packet that a client
takes, other than `SMSG_AUTH_LOGON_PROOF`. -/
structure Packet.EarlyReply (q : Packet) : Prop where
  mode : q.mode = .authSession
  opcode : q.buildPacket.head? ≠ some AuthOpcodes.smsgAuthLogonProof
  size : q.payload.length ≤ 2048

/-- An Auth packet with another opcode. -/
lemma Packet.EarlyReply.of_opcode {p : AuthPacket} (hop : p.opcode ≠ AuthOpcodes.smsgAuthLogonProof)
    (hsize : p.buffer.buffer.length ≤ 2048) : (Packet.auth p).EarlyReply := by
  refine ⟨rfl, fun h => hop ?_, hsize⟩
  exact Option.some.inj h

/-- The answers to an Auth packet that does not switch the mode. -/
lemma Packet.answers_early (sha1 : Sha1) {p q : Packet} (hmode : p.mode = .authSession)
    (hsw : p.switches = false) (hq : q ∈ p.answers sha1) : q.EarlyReply := by
  cases p with
  | work p => cases hmode
  | auth p =>
    unfold answers at hq
    dsimp only at hq
    split_ifs at hq with hping hproof hsize
    · obtain rfl := List.mem_singleton.1 hq
      refine .of_opcode (show AuthOpcodes.smsgPong ≠ AuthOpcodes.smsgAuthLogonProof by decide) ?_
      exact (List.length_take_le 4 _).trans (by decide)
    · simp [switches, hproof, hsize] at hsw
    · obtain rfl := List.mem_singleton.1 hq
      exact .of_opcode (by decide) (by decide)
    · simp at hq

/-- `send_packet` posts at most the packet. -/
lemma Session.mem_posted_sendPacket {s : Session} {r q : Packet}
    (h : q ∈ (s.sendPacket r).posted) : q ∈ s.posted ∨ q = r := by
  unfold sendPacket at h
  split_ifs at h
  · exact .inl h
  · simpa using h

namespace HandlersAuth

/-- An error response is an early reply. -/
lemma authResponse_early (error : AuthErrorCode) : (authResponse .authFailed error).EarlyReply :=
  .of_opcode (by cases error <;> decide) (by cases error <;> decide)

/-- The reply to a challenge is an early reply. -/
lemma challengeReply_early {srp : SRP6} {salt : Bytes} {reply : AuthPacket}
    (hsalt : salt.length = 32) (h : challengeReply srp salt = .ok reply) :
    (Packet.auth reply).EarlyReply := by
  obtain ⟨hop, -, hsize⟩ := challengeReply_size h
  exact .of_opcode (by rw [hop]; decide) (by rw [hsize, hsalt]; decide)

/-- A challenge posts an early reply. -/
lemma ChallengeOutcome.posted {s s' : Session} {p : AuthPacket} {env : ChallengeEnv} {q : Packet}
    (h : ChallengeOutcome s p env s') (hcache : env.cache.WellFormed) (hq : q ∈ s'.posted) :
    q ∈ s.posted ∨ q.EarlyReply := by
  have hsend : ∀ {t : Session} {r : Packet}, q ∈ (t.sendPacket r).posted → t.posted = s.posted →
      r.EarlyReply → q ∈ s.posted ∨ q.EarlyReply := by
    intro t r hmem ht hr
    rcases Session.mem_posted_sendPacket hmem with hold | rfl
    · exact .inl (ht ▸ hold)
    · exact .inr hr
  cases h with
  | invalid hvalid => exact hsend hq rfl (authResponse_early _)
  | notFound error hvalid hacc => exact hsend hq rfl (authResponse_early _)
  | found salt verifier reply hvalid hacc hreply' =>
    exact hsend hq rfl (challengeReply_early (account_sizes hcache hacc).1 hreply')
  | unanswered salt verifier e hvalid hacc hreply' => exact .inl hq
  | busy salt verifier e hvalid hacc hreply' => exact hsend hq rfl (authResponse_early _)

end HandlersAuth

/-- The packets a session has posted, or has passed to `do_send_packet`. -/
def Session.outgoing (s : Session) : List Packet := s.posted ++ s.executed

/-- The events of a session that is left alone but for `close`: `send_packet` is not called from
elsewhere, and the cache has been filled by challenges. -/
def SessionEvent.Ordinary : SessionEvent → Prop
  | .challenge _ env => env.cache.WellFormed
  | .post _ => False
  | _ => True

/-- A read completion adds the answers to the packet it dispatches. -/
lemma ReadOutcome.outgoing {sha1 : Sha1} {t s' : Session} {q : Packet}
    (h : ReadOutcome sha1 t s') (hopen : t.closed = false) (hq : q ∈ s'.outgoing) :
    q ∈ t.outgoing ∨ ∃ d ∈ s'.dispatched, q ∈ d.packet.answers sha1 := by
  cases h with
  | wait h => exact .inl hq
  | oversized h hbig => exact .inl (by simpa [Session.outgoing] using hq)
  | thrown p b' h0 hmode hsize hact hthrow =>
    exact .inl (by simpa [Session.outgoing, Session.consume] using hq)
  | handled p b' u h0 hmode hsize hact hthrow heff =>
    have hposted : u.posted = t.posted ++ p.answers sha1 := heff.posted hopen
    have hexec : u.executed = t.executed := by rw [heff.write]; rfl
    have hdisp : u.doRead.dispatched = t.dispatched ++ [⟨t.sessionMode, p.buildPacket, p⟩] :=
      heff.dispatched
    have hmem : q ∈ (t.posted ++ p.answers sha1) ++ t.executed := by
      rw [← hposted, ← hexec]
      exact hq
    simp only [List.append_assoc, List.mem_append] at hmem
    rcases hmem with hold | hnew | hold
    · exact .inl (List.mem_append_left _ hold)
    · refine .inr ⟨⟨t.sessionMode, p.buildPacket, p⟩, ?_, hnew⟩
      rw [hdisp]
      exact List.mem_append_right _ (List.mem_singleton_self _)
    · exact .inl (List.mem_append_right _ hold)

/-- **What a session may come to send in one step**: early replies, and the answers to packets that
have been dispatched. -/
lemma Transition.outgoing {sha1 : Sha1} {s s' : Session} {e : SessionEvent} {q : Packet}
    (h : Transition sha1 s e s') (he : e.Ordinary) (hq : q ∈ s'.outgoing) :
    q ∈ s.outgoing ∨ q.EarlyReply ∨ ∃ d ∈ s'.dispatched, q ∈ d.packet.answers sha1 := by
  cases h with
  | readClosed chunk hclosed hreads => exact .inl hq
  | read chunk b s' hopen hreads hchunk hact hout =>
    rcases hout.outgoing hopen hq with hold | hnew
    · exact .inl hold
    · exact .inr (.inr hnew)
  | readError hreads => exact .inl (by simpa [Session.outgoing] using hq)
  | challenge i env p hp =>
    have hout := (HandlersAuth.handleLogonChallenge_outcome
      { s with spawned := s.spawned.eraseIdx i } p env).1
    rcases List.mem_append.1 hq with hposted | hexec
    · rcases hout.posted he hposted with hold | hnew
      · exact .inl (List.mem_append_left _ hold)
      · exact .inr (.inl hnew)
    · rw [hout.effect.write] at hexec
      exact .inl (List.mem_append_right _ hexec)
  | send i p hp =>
    left
    simp only [Session.outgoing, Session.doSendPacket_posted, Session.doSendPacket_executed,
      List.mem_append, List.mem_singleton] at hq
    rcases hq with hold | hold | rfl
    · exact List.mem_append_left _ (List.mem_of_mem_eraseIdx hold)
    · exact List.mem_append_right _ hold
    · exact List.mem_append_left _ (List.mem_of_getElem? hp)
  | writeDone i m hm => exact .inl (by simpa [Session.outgoing] using hq)
  | writeError i m hm => exact .inl (by simpa [Session.outgoing] using hq)
  | post p => exact he.elim
  | close => exact .inl (by simpa [Session.outgoing] using hq)

/-- What has been passed to `do_send_packet` stays. -/
lemma WriterStep.executed_grows {s s' : Session} {e : SessionEvent} (h : WriterStep s e s') :
    s.executed <+: s'.executed := by
  cases h with
  | idle e s' hwrite hclosed he => simp [hwrite]
  | close e s' he hclosed hwrite => simp [hwrite]
  | send i p hp => simp
  | writeDone i m hm => simp
  | writeError i m hm => simp

/-! ## What a client sends -/

/-- The sender and the receive loop of a client during its first connection: before it nothing has
been done; what was popped and the queue are the frames of the packets passed to `send_packet`, in
order; the writes started while connected are those of the messages popped and the front; and at
most one read is outstanding. -/
structure Client.InOrder (c : Client) : Prop where
  fresh : c.connections = 0 → c.Unconnected
  queued : c.popped ++ c.outgoingQueue = c.sent.map Packet.buildPacket
  started : c.connected = true → c.started = c.popped ++ c.outgoingQueue.take 1
  started_sent : c.started <+: c.sent.map Packet.buildPacket
  reads : c.ops.length ≤ 1

namespace Client

/-- The completion of an `async_connect` is a new connection. -/
lemma connections_of_connectDone {sha1 : Sha1} {c c' : Client} {i : ℕ}
    (h : c.step sha1 (.connectDone i) = some c') : c'.connections = c.connections + 1 := by
  cases step_transition h with
  | connectDone i hconnect => simp [connectHandler, startHeartbeat, startReceiveLoop]

/-- The writes of the messages popped and of the front are writes of frames of packets sent. -/
lemma started_sent_of_eq {c : Client}
    (hqueued : c.popped ++ c.outgoingQueue = c.sent.map Packet.buildPacket)
    (hstarted : c.started = c.popped ++ c.outgoingQueue.take 1) :
    c.started <+: c.sent.map Packet.buildPacket := by
  rw [hstarted, ← hqueued, List.prefix_append_right_inj]
  exact List.take_prefix _ _

end Client

namespace SendEffect

/-- Packets passed to `send_packet` stay. -/
lemma sent_grows {c c' : Client} {e : ClientEvent} (h : SendEffect c e c') :
    c.sent <+: c'.sent := by
  cases h with
  | keep e c' hsend hmode hconn hconns => simp [hsend]
  | send e c' p hby hqueue hsent hpopped hstarted hmode hconn hconns => simp [hsent]
  | pop i c' front rest hqueue hne hqueue' hsent hpopped hstarted hmode hconn hconns => simp [hsent]
  | established i c' hqueue hsent hpopped hstarted hmode hconn hconns => simp [hsent]
  | switch i bytes rand c' p hread hopcode hsend hmode hconn hconns => simp [hsend]

/-- Writes started stay. -/
lemma started_grows {c c' : Client} {e : ClientEvent} (h : SendEffect c e c') :
    c.started <+: c'.started := by
  cases h with
  | keep e c' hsend hmode hconn hconns => simp [hsend]
  | send e c' p hby hqueue hsent hpopped hstarted hmode hconn hconns => simp [hstarted]
  | pop i c' front rest hqueue hne hqueue' hsent hpopped hstarted hmode hconn hconns =>
    simp [hstarted]
  | established i c' hqueue hsent hpopped hstarted hmode hconn hconns => simp [hstarted]
  | switch i bytes rand c' p hread hopcode hsend hmode hconn hconns => simp [hsend]

end SendEffect

namespace Client.InOrder

/-- A client just constructed. -/
lemma new (sha1 : Sha1) : (Client.new sha1).InOrder := by
  refine ⟨fun _ => ⟨rfl, rfl, rfl, rfl, rfl, rfl⟩, rfl, fun _ => rfl, List.prefix_rfl, ?_⟩
  simp [Client.new, Client.ops]

/-- One step keeps at most one read outstanding, during the first connection. -/
lemma step_reads {c c' : Client} {e : ClientEvent} (hc : c.InOrder) (h : ReceiveEffect c e c')
    (hfirst : ∀ i, e = .connectDone i → c.connections = 0) : c'.ops.length ≤ 1 := by
  have hreads := hc.reads
  have hnext : ∀ {i : ℕ} {op : ReadOp} (op' : ReadOp), c.ops[i]? = some op →
      (c.ops.eraseIdx i ++ [op']).length ≤ 1 := by
    intro i op op' hop
    obtain ⟨hi, -⟩ := List.getElem?_eq_some_iff.1 hop
    rw [List.length_append, List.length_eraseIdx_of_lt hi, List.length_singleton]
    omega
  cases h with
  | keep e c' hrecv hops => exact hops.length_le.trans hreads
  | established i c' hrecv hops =>
    have hnil : c.ops = [] := by
      rw [Client.ops, (hc.fresh (hfirst i rfl)).reads, List.map_nil]
    rw [hops, hnil]
    exact le_rfl
  | stopped i bytes rand c' op hread hrecv hops =>
    rw [hops]
    exact (List.eraseIdx_sublist _ _).length_le.trans hreads
  | payload i bytes rand c' mode hread hsize hrecv hops =>
    rw [hops]
    exact hnext _ hread
  | handled i bytes rand c' op hread hsize hempty hrecv hops =>
    rw [hops]
    exact hnext _ hread

/-- **One step** keeps the sender in order, during the first connection.

**Proof sketch.** A packet passed to `send_packet` goes to the end of the queue, and its write
starts at once if the queue was empty; a completed write moves the front to the messages popped and
starts the next. -/
lemma step {sha1 : Sha1} {c c' : Client} {e : ClientEvent} (hc : c.InOrder)
    (h : c.step sha1 e = some c') (hfirst : ∀ i, e = .connectDone i → c.connections = 0) :
    c'.InOrder := by
  have hreads := hc.step_reads (Client.step_receive h) hfirst
  have hfresh : c'.connections = 0 → c'.Unconnected := by
    intro h0
    have hne : ∀ i, e ≠ .connectDone i := by
      rintro i rfl
      have := Client.connections_of_connectDone h
      omega
    have hold : c.connections = 0 := by
      cases Client.step_send h <;> omega
    exact (hc.fresh hold).step h hne
  obtain ⟨hfresh₀, hqueued, hstarted₀, hpre, -⟩ := hc
  have hqueued' := (Client.step_send h).queued hqueued
  cases Client.step_send h with
  | keep e c' hsend hmode hconn hconns =>
    refine ⟨hfresh, hqueued', fun h => ?_, ?_, hreads⟩
    · rw [hsend]; exact hstarted₀ (hconn h)
    · rw [hsend]; exact hpre
  | send e c' p hby hqueue hsent hpopped hstarted hmode hconn hconns =>
    have hall : c'.connected = true → c'.started = c'.popped ++ c'.outgoingQueue.take 1 := by
      intro h
      rw [hconn] at h
      rw [hstarted, hstarted₀ h, hpopped, hqueue]
      cases hq : c.outgoingQueue <;> simp [h]
    refine ⟨hfresh, hqueued', hall, ?_, hreads⟩
    cases hc' : c.connected with
    | true => exact Client.started_sent_of_eq hqueued' (hall (hconn.trans hc'))
    | false =>
      rw [hstarted, hsent, hc']
      simpa using hpre.trans (List.prefix_append _ _)
  | pop i c' front rest hqueue hne hqueue' hsent hpopped hstarted hmode hconn hconns =>
    have hall : c'.connected = true → c'.started = c'.popped ++ c'.outgoingQueue.take 1 := by
      intro h
      rw [hconn] at h
      rw [hstarted, hstarted₀ h, hpopped, hqueue, hqueue', h]
      simp
    refine ⟨hfresh, hqueued', hall, ?_, hreads⟩
    cases hc' : c.connected with
    | true => exact Client.started_sent_of_eq hqueued' (hall (hconn.trans hc'))
    | false =>
      rw [hstarted, hsent, hc']
      simpa using hpre
  | established i c' hqueue hsent hpopped hstarted hmode hconn hconns =>
    have hnone := hfresh₀ (hfirst i rfl)
    have hall : c'.started = c'.popped ++ c'.outgoingQueue.take 1 := by
      rw [hstarted, hpopped, hqueue, hnone.started, hnone.popped]
    exact ⟨hfresh, hqueued', fun _ => hall, Client.started_sent_of_eq hqueued' hall, hreads⟩
  | switch i bytes rand c' p hread hopcode hsend hmode hconn hconns =>
    refine ⟨hfresh, hqueued', fun h => ?_, ?_, hreads⟩
    · rw [hsend]; exact hstarted₀ (hconn ▸ h)
    · rw [hsend]; exact hpre

end Client.InOrder

/-! ## The two parties -/

/-- A client, its session, and the bytes the session has put on the stream to the client. -/
structure Net where
  client : Client
  server : Session
  toClient : Bytes := []

/-- What can happen next: an event of the client, or an ordinary event of the session. -/
inductive NetEvent where
  | client (e : ClientEvent)
  | server (e : SessionEvent) (h : e.Ordinary)

namespace Net

/-- A new client, and the session that will be its peer. -/
def start (sha1 : Sha1) : Net where
  client := Client.new sha1
  server := Session.start sha1

/-- The bytes the client has put on the stream to the session. -/
def toServer (n : Net) : Bytes := n.client.started.flatten

/-- Whether the streams allow an event of the client: a read completes with the next bytes of the
stream. The client connects once. -/
def clientMay (n : Net) : ClientEvent → Bool
  | .readDone _ bytes _ => decide (n.client.received ++ bytes <+: n.toClient)
  | .connectDone _ => n.client.connections == 0
  | _ => true

/-- Whether the streams allow an event of the session. -/
def serverMay (n : Net) : SessionEvent → Bool
  | .read chunk => decide (n.server.received ++ chunk <+: n.toServer)
  | _ => true

/-- One step of the two; `none` if the event is not possible. A closed session has no socket to
write to. -/
def step (sha1 : Sha1) (n : Net) : NetEvent → Option Net
  | .client e =>
    if n.clientMay e then (n.client.step sha1 e).map fun c => { n with client := c } else none
  | .server e _ =>
    if n.serverMay e then
      (n.server.step sha1 e).map fun s =>
        { n with server := s, toClient := if s.closed then n.toClient else s.started.flatten }
    else none

/-- A step of the client. -/
lemma step_client {sha1 : Sha1} {n n' : Net} {e : ClientEvent}
    (h : n.step sha1 (.client e) = some n') :
    n.clientMay e = true ∧ ∃ c, n.client.step sha1 e = some c ∧ { n with client := c } = n' := by
  simpa [Net.step, Option.map_eq_some_iff] using h

/-- A step of the session. -/
lemma step_server {sha1 : Sha1} {n n' : Net} {e : SessionEvent} {he : e.Ordinary}
    (h : n.step sha1 (.server e he) = some n') :
    n.serverMay e = true ∧ ∃ s, n.server.step sha1 e = some s ∧ { n with
      server := s
      toClient := if s.closed then n.toClient else s.started.flatten } = n' := by
  simpa [Net.step, Option.map_eq_some_iff] using h

end Net

/-- The bytes of a beginning of some messages. -/
lemma flatten_mono {ms ms' : List Bytes} (h : ms <+: ms') : ms.flatten <+: ms'.flatten := by
  obtain ⟨more, rfl⟩ := h
  simp

/-- What holds of the two parties and the streams: both sides are in order, the session has received
a beginning of what the client has written, and has written a beginning of the frames of the packets
passed to `do_send_packet`. -/
structure NetInvariant (n : Net) : Prop where
  client : n.client.InOrder
  reader : ReadInvariant n.server
  writer : n.server.closed = false → n.server.InOrder
  toServer : n.server.closed = false → n.server.received <+: n.toServer
  toClient : n.toClient <+: streamOf n.server.executed

namespace NetInvariant

/-- It holds at the start. -/
lemma start (sha1 : Sha1) : NetInvariant (Net.start sha1) := by
  refine ⟨.new sha1, .start sha1, fun _ => ?_, fun _ => ?_, ?_⟩
  · constructor <;> simp [Net.start, Session.start, Session.doRead]
  · simp [Net.start, Session.start, Session.doRead]
  · simp [Net.start]

/-- What the client writes is a beginning of the frames of the packets it sends. -/
lemma toServer_sent {n : Net} (hn : NetInvariant n) : n.toServer <+: streamOf n.client.sent :=
  flatten_mono hn.client.started_sent

/-- What the client reads is a beginning of the frames of the packets the session sends. -/
lemma read_streamOf {n : Net} {i : ℕ} {bytes : Bytes} {rand : Rand32} (hn : NetInvariant n)
    (hmay : n.clientMay (.readDone i bytes rand) = true) :
    n.client.received ++ bytes <+: streamOf n.server.executed := by
  have hnext : n.client.received ++ bytes <+: n.toClient := of_decide_eq_true hmay
  exact hnext.trans hn.toClient

/-- What an open session receives stays a beginning of the stream. -/
lemma step_received {sha1 : Sha1} {n : Net} {s : Session} {e : SessionEvent}
    (hn : NetInvariant n) (hmay : n.serverMay e = true) (h : n.server.step sha1 e = some s)
    (hopen : s.closed = false) : s.received <+: n.toServer := by
  cases (Session.step_transition h).reader with
  | idle e s hrecv hdisp hmode hauth hact he =>
    rw [hrecv]
    exact hn.toServer (hact hopen).1
  | wait chunk s hopen₀ hwait hrecv hdisp hmode hauth hopen' hact =>
    rw [hrecv]
    exact of_decide_eq_true hmay
  | oversized chunk s hopen₀ hsize hbig hdisp hmode hauth hclosed => simp [hclosed] at hopen
  | frame chunk s p rest hopen₀ h0 hframing hsize hdata hrecv hdisp hmode hauth hclosed hact =>
    rw [hrecv]
    exact of_decide_eq_true hmay

/-- **One step** keeps it. -/
lemma step {sha1 : Sha1} {n n' : Net} {e : NetEvent} (hn : NetInvariant n)
    (h : n.step sha1 e = some n') : NetInvariant n' := by
  cases e with
  | client e =>
    obtain ⟨hmay, c, hc, rfl⟩ := Net.step_client h
    refine ⟨hn.client.step hc ?_, hn.reader, hn.writer, fun hopen => ?_, hn.toClient⟩
    · rintro i rfl
      simpa [Net.clientMay] using hmay
    · exact (hn.toServer hopen).trans (flatten_mono (Client.step_send hc).started_grows)
  | server e he =>
    obtain ⟨hmay, s, hs, rfl⟩ := Net.step_server h
    have htrans := Session.step_transition hs
    have hwriter := htrans.writer.inOrder hn.writer
    refine ⟨hn.client, hn.reader.step htrans.reader, hwriter, hn.step_received hmay hs, ?_⟩
    dsimp only
    split_ifs with hclosed
    · obtain ⟨more, hmore⟩ := htrans.writer.executed_grows
      rw [← hmore, streamOf_append]
      exact hn.toClient.trans (List.prefix_append _ _)
    · obtain ⟨hflight, -, hwritten, hstarted⟩ := hwriter (by simpa using hclosed)
      refine flatten_mono ?_
      rw [hstarted, hflight, ← hwritten]
      rw [List.prefix_append_right_inj]
      exact List.take_prefix _ _

end NetInvariant

end Purity
