import Purity.Base.Run
import Purity.Client.Effect

set_option relaxedAutoImplicit false
set_option autoImplicit false

/-!
# The connection of a client

A client is meant to have one connection: it connects, or waits to connect again, or has one receive
loop and one write on its socket. Two slips break this. The handler of `reconnect_timer` ignores its
error code, so that cancelling the wait makes it connect at once; and the handlers of `async_read`,
`async_write` and `async_connect` call `schedule_reconnect` for every error, also for the
`operation_aborted` of a socket the client has closed itself.

## Main definitions

* `Purity.Client.Outstanding`, `Purity.Client.outstanding` — how many operations of each kind a
  client has outstanding, and what its writes write.
* `Purity.Client.Single` — one connection attempt or wait, one receive loop, one write of the front.
* `Purity.Client.InTurn` — the condition under which a step keeps it.
* `Purity.Client.Quiet` — no connection attempt and no wait to connect is under way.
* `Purity.Client.NothingPending` — the condition under which `disconnect` is final.

## Main results

* `Purity.Client.single_iff_inTurn` — a run has a single connection always exactly when all its
  steps are in turn.
* `Purity.Client.final_iff_nothingPending` — after the action of `disconnect`, the client stays
  quiet in every further run exactly when the action found nothing pending.
-/

namespace Purity

/-- The bytes are a header that declares more than 2048 bytes of payload. -/
def ReadOp.oversized (bytes : Bytes) : ReadOp → Bool
  | .header mode => decide (2048 < declaredSize mode bytes)
  | .payload _ _ _ => false

namespace Client

/-! ## What is outstanding -/

/-- How many operations a client has outstanding, and what its writes write. -/
@[ext]
structure Outstanding where
  connects : ℕ
  waits : ℕ
  reads : ℕ
  writes : List Bytes

/-- What a client has outstanding, aborted or not: the handlers still have to run. -/
def outstanding (c : Client) : Outstanding where
  connects := c.connects.length
  waits := c.reconnectWaits.length
  reads := c.reads.length
  writes := c.writes.map (·.op)

/-- A step is possible only without a fault. -/
lemma fault_of_step {sha1 : Sha1} {c c' : Client} {e : ClientEvent}
    (h : c.step sha1 e = some c') : c.fault = none := by
  cases hfault : c.fault with
  | none => rfl
  | some f =>
    simp [Client.step, hfault] at h

section Methods

variable (c : Client)

/-- Aborting an operation leaves it outstanding. -/
@[simp] lemma length_abortAll {α : Type} (ops : List (Pending α)) :
    (abortAll ops).length = ops.length := by
  simp [abortAll]

@[simp] lemma outstanding_connect : c.connect.outstanding =
    { c.outstanding with connects := c.outstanding.connects + 1 } := by
  simp [outstanding, connect, closeSocket]

@[simp] lemma outstanding_scheduleReconnect : c.scheduleReconnect.outstanding =
    { c.outstanding with waits := c.outstanding.waits + 1 } := by
  simp [outstanding, scheduleReconnect, closeSocket]

@[simp] lemma outstanding_disconnect : c.disconnect.outstanding = c.outstanding := rfl

@[simp] lemma outstanding_runDisconnect : c.runDisconnect.outstanding = c.outstanding := by
  unfold runDisconnect
  dsimp only
  split_ifs <;> simp [outstanding, closeSocket]

@[simp] lemma runDisconnect_fault : c.runDisconnect.fault = c.fault := by
  unfold runDisconnect
  dsimp only
  split_ifs <;> rfl

@[simp] lemma outstanding_startHeartbeat : c.startHeartbeat.outstanding = c.outstanding := rfl

@[simp] lemma outstanding_startReceiveLoop : c.startReceiveLoop.outstanding =
    { c.outstanding with reads := c.outstanding.reads + 1 } := by
  simp [outstanding, startReceiveLoop]

/-- `flush_queue` starts a write of the front, if there is one and the client is connected. -/
@[simp] lemma outstanding_flushQueue : c.flushQueue.outstanding =
    { c.outstanding with
      writes := c.outstanding.writes ++ if c.connected then c.outgoingQueue.take 1 else [] } := by
  unfold flushQueue
  cases hconn : c.connected with
  | false => simp [outstanding]
  | true =>
    cases hq : c.outgoingQueue with
    | nil => simp [outstanding]
    | cons front rest => simp [outstanding]

/-- `send_packet` starts a write if the client is connected and the queue was empty. -/
@[simp] lemma outstanding_sendPacket (p : Packet) : (c.sendPacket p).outstanding =
    { c.outstanding with
      writes := c.outstanding.writes ++
        if c.connected ∧ c.outgoingQueue = [] then [p.buildPacket] else [] } := by
  unfold sendPacket sendPacketImpl
  dsimp only
  cases hconn : c.connected with
  | false => simp [outstanding]
  | true =>
    cases hq : c.outgoingQueue with
    | nil => simp [outstanding, flushQueue]
    | cons front rest => simp [outstanding]

/-- A connection starts the receive loop and flushes the queue. -/
lemma outstanding_connectHandler : c.connectHandler.outstanding =
    { c.outstanding with
      reads := c.outstanding.reads + 1
      writes := c.outstanding.writes ++ c.outgoingQueue.take 1 } := by
  simp only [connectHandler, outstanding_startHeartbeat, outstanding_flushQueue,
    outstanding_startReceiveLoop]
  rfl

end Methods

/-- Handling a packet leaves the operations outstanding as they are, or is a `send_packet`. -/
lemma handleRaw_outstanding (sha1 : Sha1) (c : Client) (mode : SessionMode) (raw : Bytes)
    (rand : Rand32) :
    ∃ d : Client, d.outstanding = c.outstanding ∧ d.outgoingQueue = c.outgoingQueue ∧
      ((c.handleRaw sha1 mode raw rand) = d ∨
        ∃ p, (c.handleRaw sha1 mode raw rand) = d.sendPacket p) := by
  have hagree : ∀ d : Client, c.Agree d →
      d.outstanding = c.outstanding ∧ d.outgoingQueue = c.outgoingQueue := by
    intro d h
    simp only [outstanding, h.connects, h.reconnectWaits, h.writes, h.receiver, h.sender, and_self]
  cases handleRaw_effect sha1 c mode raw rand with
  | keep h hmode => exact ⟨_, (hagree _ h).1, (hagree _ h).2, .inl rfl⟩
  | proof d A M1 hauth hopcode hpayload hA hM1 h hmode hsend =>
    exact ⟨d, (hagree d h).1, (hagree d h).2, .inr ⟨_, hsend⟩⟩
  | switch hauth hopcode h hmode => exact ⟨_, (hagree _ h).1, (hagree _ h).2, .inl rfl⟩

/-! ## A single connection -/

/-- The client has a single connection: at most one connection attempt or wait to connect, at most
one receive loop, and at most one write, of the front of `outgoing_queue`. -/
structure Single (c : Client) : Prop where
  chain : c.connects.length + c.reconnectWaits.length ≤ 1
  reads : c.reads.length ≤ 1
  writes : c.writes.length ≤ 1
  front : ∀ w ∈ c.writes, c.outgoingQueue.head? = some w.op

/-- The step is in turn: a read or a write fails only when no connection attempt or wait is
outstanding (a header that declares too much counts as a failure), `connect` is called only then,
and a connection is established only when no read or write of an earlier one is outstanding. -/
def InTurn (c : Client) : ClientEvent → Prop
  | .connect | .writeError _ | .readError _ => c.connects = [] ∧ c.reconnectWaits = []
  | .readDone i bytes _ => (∃ p, c.reads[i]? = some p ∧ p.op.oversized bytes = true) →
      c.connects = [] ∧ c.reconnectWaits = []
  | .connectDone _ => c.reads = [] ∧ c.writes = []
  | _ => True

/-- A list of writes is that of a single one of the front. -/
lemma map_op_prefix_iff (ws : List (Pending Bytes)) (queue : List Bytes) :
    ws.map (·.op) <+: queue.take 1 ↔ ws.length ≤ 1 ∧ ∀ w ∈ ws, queue.head? = some w.op := by
  rcases ws with _ | ⟨w, _ | ⟨w', ws⟩⟩
  · simp
  · cases queue with
    | nil => simp
    | cons front rest => simp [eq_comm]
  · constructor
    · intro h
      have hlen := h.length_le
      simp only [List.map_cons, List.length_cons, List.length_take] at hlen
      omega
    · intro h
      simp at h

/-- A single connection, by what is outstanding. -/
lemma single_iff {c : Client} : c.Single ↔
    c.outstanding.connects + c.outstanding.waits ≤ 1 ∧ c.outstanding.reads ≤ 1 ∧
      c.outstanding.writes <+: c.outgoingQueue.take 1 := by
  simp only [outstanding, map_op_prefix_iff]
  constructor
  · rintro ⟨hchain, hreads, hwrites, hfront⟩
    exact ⟨hchain, hreads, hwrites, hfront⟩
  · rintro ⟨hchain, hreads, hwrites, hfront⟩
    exact ⟨hchain, hreads, hwrites, hfront⟩

namespace Single

variable {sha1 : Sha1} {c d : Client}

/-- It depends on what is outstanding and the queue. -/
lemma congr (hops : d.outstanding = c.outstanding) (hqueue : d.outgoingQueue = c.outgoingQueue) :
    d.Single ↔ c.Single := by
  rw [single_iff, single_iff, hops, hqueue]

/-- `send_packet` keeps it: it starts a write only if the queue was empty, and then none was
outstanding. -/
lemma sendPacket (h : c.Single) (p : Packet) : (c.sendPacket p).Single := by
  obtain ⟨hchain, hreads, hwrites⟩ := single_iff.1 h
  rw [single_iff]
  simp only [outstanding_sendPacket, sendPacket_outgoingQueue]
  refine ⟨hchain, hreads, ?_⟩
  cases hq : c.outgoingQueue with
  | nil =>
    rw [hq, List.take_nil, List.prefix_nil] at hwrites
    rw [hwrites]
    cases c.connected <;> simp
  | cons front rest =>
    rw [hq] at hwrites
    simpa using hwrites

/-- The write that completes is the only one. -/
lemma eraseIdx_writes {i : ℕ} {w : Pending Bytes} (hc : c.Single) (hwrite : c.writes[i]? = some w) :
    c.writes.eraseIdx i = [] := by
  obtain ⟨hi, -⟩ := List.getElem?_eq_some_iff.1 hwrite
  have := hc.writes
  rw [← List.length_eq_zero_iff, List.length_eraseIdx_of_lt hi]
  omega

/-- `schedule_reconnect` needs that no connection attempt or wait is outstanding. -/
lemma scheduleReconnect_iff (hreads : c.outstanding.reads ≤ 1)
    (hwrites : c.outstanding.writes <+: c.outgoingQueue.take 1) :
    c.scheduleReconnect.Single ↔ c.connects = [] ∧ c.reconnectWaits = [] := by
  have hqueue : c.scheduleReconnect.outgoingQueue = c.outgoingQueue := rfl
  rw [single_iff, outstanding_scheduleReconnect, hqueue, ← List.length_eq_zero_iff,
    ← List.length_eq_zero_iff]
  constructor
  · rintro ⟨hchain, -, -⟩
    change c.connects.length + (c.reconnectWaits.length + 1) ≤ 1 at hchain
    omega
  · rintro ⟨hconnects, hwaits⟩
    refine ⟨?_, hreads, hwrites⟩
    change c.connects.length + (c.reconnectWaits.length + 1) ≤ 1
    omega

/-- After the read that completed, the receive loop goes on. -/
lemma handled (hc : c.Single)
    (hops : d.outstanding = { c.outstanding with reads := c.outstanding.reads - 1 })
    (hqueue : d.outgoingQueue = c.outgoingQueue) (mode : SessionMode) (raw : Bytes)
    (rand : Rand32) : (d.handleRaw sha1 mode raw rand).startReceiveLoop.Single := by
  obtain ⟨hchain, hreads, hwrites⟩ := single_iff.1 hc
  obtain ⟨d', hops', hqueue', hd'⟩ := handleRaw_outstanding sha1 d mode raw rand
  have hsingle : d'.Single := by
    rw [single_iff, hops', hqueue', hops, hqueue]
    exact ⟨hchain, by dsimp only; omega, hwrites⟩
  have hnone : d'.outstanding.reads = 0 := by
    rw [hops', hops]
    dsimp only
    omega
  -- the loop starts again with no read outstanding
  have hloop : ∀ t : Client, t.Single → t.outstanding.reads = 0 → t.startReceiveLoop.Single := by
    intro t ht ht0
    obtain ⟨hchain, -, hwrites⟩ := single_iff.1 ht
    rw [single_iff, outstanding_startReceiveLoop]
    exact ⟨hchain, by dsimp only; omega, hwrites⟩
  rcases hd' with heq | ⟨q, heq⟩
  · rw [heq]
    exact hloop d' hsingle hnone
  · rw [heq]
    refine hloop _ (hsingle.sendPacket q) ?_
    rw [outstanding_sendPacket]
    exact hnone

/-- A read that completes keeps it, unless it is a header that declares too much. -/
lemma readHandler {i : ℕ} {bytes : Bytes} {p : Pending ReadOp} (hc : c.Single) (rand : Rand32)
    (hread : c.reads[i]? = some p) (hsize : bytes.length = p.op.size) :
    (readHandler sha1 { c with
      reads := c.reads.eraseIdx i
      received := c.received ++ bytes } p.op bytes rand).Single ↔
      (p.op.oversized bytes = true → c.connects = [] ∧ c.reconnectWaits = []) := by
  obtain ⟨hi, -⟩ := List.getElem?_eq_some_iff.1 hread
  have herase : (c.reads.eraseIdx i).length = c.reads.length - 1 := List.length_eraseIdx_of_lt hi
  have hops : outstanding { c with
      reads := c.reads.eraseIdx i
      received := c.received ++ bytes } =
        { c.outstanding with reads := c.outstanding.reads - 1 } := by
    simp [outstanding, herase]
  obtain ⟨hchain, hreads, hwrites⟩ := single_iff.1 hc
  cases hop : p.op with
  | payload mode header length =>
    simp only [Client.readHandler, ReadOp.oversized, Bool.false_eq_true, false_imp_iff, iff_true]
    exact hc.handled hops rfl mode (header ++ bytes) rand
  | header mode =>
    rw [hop] at hsize
    have hfield := lengthField_header hsize
    unfold Client.readHandler
    dsimp only
    split_ifs with hbig hzero
    · rw [hfield] at hbig
      have hlarge : (ReadOp.header mode).oversized bytes = true := decide_eq_true hbig
      rw [scheduleReconnect_iff (by rw [hops]; dsimp only; omega) (by rw [hops]; exact hwrites)]
      simp only [hlarge, true_imp_iff]
    · have hsmall : (ReadOp.header mode).oversized bytes = false := by
        rw [ReadOp.oversized, ← hfield, hzero]
        rfl
      simp only [hsmall, Bool.false_eq_true, false_imp_iff, iff_true]
      exact hc.handled hops rfl mode bytes rand
    · have hsmall : (ReadOp.header mode).oversized bytes = false := by
        rw [ReadOp.oversized, ← hfield]
        simpa using hbig
      simp only [hsmall, Bool.false_eq_true, false_imp_iff, iff_true]
      refine ⟨hc.chain, ?_, hc.writes, hc.front⟩
      have := hc.reads
      simp only [List.length_append, List.length_singleton, herase]
      omega

/-- `connect` keeps a single connection exactly if there is none under way. -/
lemma connect_iff (hc : c.Single) : c.connect.Single ↔ c.connects = [] ∧ c.reconnectWaits = [] := by
  obtain ⟨-, hreads, hwrites⟩ := single_iff.1 hc
  have hqueue : c.connect.outgoingQueue = c.outgoingQueue := rfl
  rw [single_iff, outstanding_connect, hqueue, ← List.length_eq_zero_iff,
    ← List.length_eq_zero_iff]
  constructor
  · rintro ⟨hchain', -, -⟩
    change c.connects.length + 1 + c.reconnectWaits.length ≤ 1 at hchain'
    omega
  · rintro ⟨hconnects, hwaits⟩
    refine ⟨?_, hreads, hwrites⟩
    change c.connects.length + 1 + c.reconnectWaits.length ≤ 1
    omega

/-- An operation that has completed is no longer outstanding. -/
lemma length_eraseIdx {α : Type} {l : List α} {i : ℕ} {x : α} (h : l[i]? = some x) :
    (l.eraseIdx i).length = l.length - 1 := by
  obtain ⟨hi, -⟩ := List.getElem?_eq_some_iff.1 h
  exact List.length_eraseIdx_of_lt hi

/-- A connection established keeps a single one exactly if no read and no write is left from the
one before. -/
lemma connectDone_iff (hc : c.Single) {i : ℕ} {w : Pending Unit}
    (hconnect : c.connects[i]? = some w) :
    (connectHandler { c with connects := c.connects.eraseIdx i }).Single ↔
      c.reads = [] ∧ c.writes = [] := by
  have herase := length_eraseIdx hconnect
  have hops : (connectHandler { c with connects := c.connects.eraseIdx i }).outstanding =
      ⟨c.connects.length - 1, c.reconnectWaits.length, c.reads.length + 1,
        c.outstanding.writes ++ c.outgoingQueue.take 1⟩ := by
    rw [outstanding_connectHandler]
    simp [outstanding, herase]
  have hqueue : (connectHandler { c with connects := c.connects.eraseIdx i }).outgoingQueue =
      c.outgoingQueue := by
    simp [connectHandler, startHeartbeat, startReceiveLoop]
  rw [single_iff, hops, hqueue]
  constructor
  · rintro ⟨-, hreads', hwrites'⟩
    dsimp only at hreads' hwrites'
    refine ⟨List.length_eq_zero_iff.1 (by omega), ?_⟩
    have hlen := hwrites'.length_le
    rw [List.length_append] at hlen
    refine List.map_eq_nil_iff.1 (List.length_eq_zero_iff.1 (?_ : c.outstanding.writes.length = 0))
    omega
  · rintro ⟨hnone, hnone'⟩
    have hnil : c.outstanding.writes = [] := List.map_eq_nil_iff.2 hnone'
    have hlen : c.connects.length + c.reconnectWaits.length ≤ 1 := hc.chain
    refine ⟨by dsimp only; omega, by simp [hnone], ?_⟩
    rw [hnil]
    exact List.prefix_rfl

/-- A connection attempt that fails is followed by a wait. -/
lemma connectError (hc : c.Single) {i : ℕ} {w : Pending Unit}
    (hconnect : c.connects[i]? = some w) :
    (scheduleReconnect { c with connects := c.connects.eraseIdx i }).Single := by
  obtain ⟨-, hreads, hwrites⟩ := single_iff.1 hc
  have herase := length_eraseIdx hconnect
  have hlen : c.connects.length + c.reconnectWaits.length ≤ 1 := hc.chain
  have hpos := List.length_pos_of_mem (List.mem_of_getElem? hconnect)
  refine (scheduleReconnect_iff (c := { c with connects := c.connects.eraseIdx i })
    hreads hwrites).2 ⟨?_, ?_⟩
  · rw [← List.length_eq_zero_iff, herase]
    omega
  · rw [← List.length_eq_zero_iff]
    dsimp only
    omega

/-- A wait that ends is followed by a connection attempt. -/
lemma reconnect (hc : c.Single) {i : ℕ} {w : Pending Unit}
    (hwait : c.reconnectWaits[i]? = some w) :
    (Client.connect { c with reconnectWaits := c.reconnectWaits.eraseIdx i }).Single := by
  obtain ⟨-, hreads, hwrites⟩ := single_iff.1 hc
  have herase := length_eraseIdx hwait
  have hlen : c.connects.length + c.reconnectWaits.length ≤ 1 := hc.chain
  have hpos := List.length_pos_of_mem (List.mem_of_getElem? hwait)
  rw [single_iff, outstanding_connect]
  refine ⟨?_, hreads, hwrites⟩
  simp only [outstanding, herase]
  omega

/-- A write that completes is followed by one of the next message. -/
lemma writeDone (hc : c.Single) {i : ℕ} {w : Pending Bytes} (hwrite : c.writes[i]? = some w) :
    (writeHandler { c with writes := c.writes.eraseIdx i }).Single := by
  obtain ⟨hchain, hreads, -⟩ := single_iff.1 hc
  have hnone := hc.eraseIdx_writes hwrite
  unfold writeHandler
  cases hq : c.outgoingQueue with
  | nil => exact ⟨hc.chain, hc.reads, by simp [hnone], by simp [hnone]⟩
  | cons front rest =>
    rw [single_iff, outstanding_flushQueue]
    refine ⟨hchain, hreads, ?_⟩
    simp only [outstanding, hnone, List.map_nil, List.nil_append, flushQueue_outgoingQueue]
    split_ifs
    · exact List.prefix_rfl
    · exact List.nil_prefix

/-- **One step** from a single connection leads to one exactly if it is in turn. -/
lemma step_iff {c' : Client} {e : ClientEvent} (hc : c.Single) (h : c.step sha1 e = some c') :
    c'.Single ↔ c.InTurn e := by
  obtain ⟨-, hreads, hwrites⟩ := single_iff.1 hc
  cases step_transition h with
  | connect => exact hc.connect_iff
  | disconnect =>
    simp only [InTurn, iff_true]
    exact (congr (outstanding_disconnect c) rfl).2 hc
  | sendMessage msg =>
    simp only [InTurn, iff_true]
    unfold sendMessage
    split
    · exact hc
    · exact hc.sendPacket _
  | logonChallenge username password =>
    simp only [InTurn, iff_true]
    have hsrp : Single { c with srp := c.srp.setCredentials username password } :=
      ⟨hc.chain, hc.reads, hc.writes, hc.front⟩
    exact hsrp.sendPacket _
  | runDisconnect hposted =>
    simp only [InTurn, iff_true]
    refine (congr (outstanding_runDisconnect c) ?_).2 hc
    unfold runDisconnect
    dsimp only
    split_ifs <;> rfl
  | connectDone i hconnect => exact hc.connectDone_iff hconnect
  | connectError i w hconnect =>
    simp only [InTurn, iff_true]
    exact hc.connectError hconnect
  | reconnect i w hwait =>
    simp only [InTurn, iff_true]
    exact hc.reconnect hwait
  | heartbeat i pingId w hwait =>
    simp only [InTurn, iff_true]
    have hfired : Single { c with heartbeatWaits := c.heartbeatWaits.eraseIdx i } :=
      ⟨hc.chain, hc.reads, hc.writes, hc.front⟩
    unfold heartbeatHandler
    split_ifs
    · exact (congr (outstanding_startHeartbeat _) rfl).2 (hfired.sendPacket _)
    · exact hfired
  | writeDone i w hwrite hlive =>
    simp only [InTurn, iff_true]
    exact hc.writeDone hwrite
  | writeError i w hwrite =>
    have hnone := hc.eraseIdx_writes hwrite
    have hnil : outstanding { c with writes := c.writes.eraseIdx i } =
        { c.outstanding with writes := [] } := by
      simp [outstanding, hnone]
    rw [scheduleReconnect_iff (by rw [hnil]; exact hreads) (by rw [hnil]; exact List.nil_prefix)]
    rfl
  | readDone i bytes rand p hread hlive hsize =>
    rw [hc.readHandler rand hread hsize, InTurn]
    simp [hread]
  | readError i p hread =>
    have hlen : (c.reads.eraseIdx i).length ≤ 1 :=
      (List.length_eraseIdx_le c.reads i).trans hc.reads
    rw [scheduleReconnect_iff (c := { c with reads := c.reads.eraseIdx i }) hlen hwrites]
    rfl

end Single

/-- **A single connection.** In every run of a client that starts with `connect`, the client has at
most one connection attempt or wait, one receive loop and one write, of the front of its queue, in
every state exactly when every step is in turn.

**Proof sketch.** From a single connection, a step leads to one exactly if it is in turn. -/
theorem single_iff_inTurn (sha1 : Sha1) (es : List ClientEvent) :
    Run.Always (Client.step sha1) Single (Client.new sha1).connect es ↔
      Run.StepsMeet (Client.step sha1) InTurn (Client.new sha1).connect es := by
  refine Run.always_iff_stepsMeet (I := fun _ => True) (fun _ _ _ _ _ => trivial) ?_ trivial ?_ es
  · intro c e c' _ hc hstep
    exact hc.step_iff hstep
  · exact ⟨Nat.le_refl 1, Nat.zero_le 1, Nat.zero_le 1, nofun⟩

/-- A read fails while a write is outstanding, whose handler then cancels the wait to connect: the
handler of the cancelled wait connects, and the second wait is still to come. -/
def doubledEvents : List ClientEvent :=
  [.connectDone 0, .logonChallenge [65] [66], .readError 0, .writeError 0, .reconnect 0]

/-- In that run the client connects and waits to connect at once, and neither has been aborted. -/
theorem connect_beside_wait :
    (∃ c, Run.exec (Client.step SRP6.sampleSha1) (Client.new SRP6.sampleSha1).connect
        doubledEvents = some c ∧
      c.connects = [⟨(), false⟩] ∧ c.reconnectWaits = [⟨(), false⟩]) ∧
    ¬ Run.Always (Client.step SRP6.sampleSha1) Single (Client.new SRP6.sampleSha1).connect
      doubledEvents := by
  have hrun : (Run.exec (Client.step SRP6.sampleSha1) (Client.new SRP6.sampleSha1).connect
      doubledEvents).map (fun c => (c.connects, c.reconnectWaits)) =
        some ([⟨(), false⟩], [⟨(), false⟩]) := by
    decide
  obtain ⟨c, hc, hval⟩ := Option.map_eq_some_iff.1 hrun
  simp only [Prod.mk.injEq] at hval
  refine ⟨⟨c, hc, hval.1, hval.2⟩, fun h => ?_⟩
  have hchain := (h.last hc).chain
  rw [hval.1, hval.2] at hchain
  exact absurd hchain (by decide)

/-! ## Disconnecting -/

/-- No connection attempt and no wait to connect is under way: those outstanding are aborted. -/
structure Quiet (c : Client) : Prop where
  connects : ∀ w ∈ c.connects, w.aborted = true
  waits : ∀ w ∈ c.reconnectWaits, w.aborted = true

/-- No read, write, connection attempt or wait to connect is outstanding. -/
structure NothingPending (c : Client) : Prop where
  reads : c.reads = []
  writes : c.writes = []
  connects : c.connects = []
  waits : c.reconnectWaits = []

/-- Nothing is pending, by what is outstanding. -/
lemma nothingPending_iff {c : Client} : c.NothingPending ↔ c.outstanding = ⟨0, 0, 0, []⟩ := by
  simp only [outstanding, Outstanding.mk.injEq, List.length_eq_zero_iff, List.map_eq_nil_iff]
  constructor
  · rintro ⟨hreads, hwrites, hconnects, hwaits⟩
    exact ⟨hconnects, hwaits, hreads, hwrites⟩
  · rintro ⟨hconnects, hwaits, hreads, hwrites⟩
    exact ⟨hreads, hwrites, hconnects, hwaits⟩

/-- `connect` leaves a connection attempt under way. -/
lemma not_quiet_connect (c : Client) : ¬ c.connect.Quiet := by
  intro h
  have := h.connects ⟨(), false⟩ (by simp [connect])
  cases this

/-- `schedule_reconnect` leaves a wait under way. -/
lemma not_quiet_scheduleReconnect (c : Client) : ¬ c.scheduleReconnect.Quiet := by
  intro h
  have := h.waits ⟨(), false⟩ (by simp [scheduleReconnect])
  cases this

/-- A client that is not connected and has nothing pending. -/
structure Idle (c : Client) : Prop extends NothingPending c where
  connected : c.connected = false

namespace Idle

variable {sha1 : Sha1} {c c' : Client}

/-- It is quiet. -/
lemma quiet (hc : c.Idle) : c.Quiet := by
  refine ⟨fun w hw => ?_, fun w hw => ?_⟩
  · simp [hc.connects] at hw
  · simp [hc.waits] at hw

/-- What leaves the operations outstanding as they are, and does not connect, keeps it. -/
lemma congr (hc : c.Idle) (hops : c'.outstanding = c.outstanding)
    (hconn : c'.connected = c.connected) : c'.Idle := by
  refine ⟨nothingPending_iff.2 ?_, hconn.trans hc.connected⟩
  rw [hops]
  exact nothingPending_iff.1 hc.toNothingPending

/-- Sending only queues the packet. -/
lemma sendPacket (hc : c.Idle) (p : Packet) : (c.sendPacket p).Idle := by
  refine hc.congr ?_ (sendPacket_connected c p)
  rw [outstanding_sendPacket, hc.connected]
  simp

/-- **Every step but a call of `connect`** keeps it: no handler is left to run but those of the
heartbeat timer, which check that the client is connected. -/
lemma step {e : ClientEvent} (hc : c.Idle) (h : c.step sha1 e = some c') (he : e ≠ .connect) :
    c'.Idle := by
  cases step_transition h with
  | connect => exact absurd rfl he
  | disconnect => exact hc.congr rfl rfl
  | sendMessage msg =>
    unfold sendMessage
    split
    · exact hc
    · exact hc.sendPacket _
  | logonChallenge username password =>
    have hsrp : Idle { c with srp := c.srp.setCredentials username password } := hc.congr rfl rfl
    exact hsrp.sendPacket _
  | runDisconnect hposted =>
    refine hc.congr (outstanding_runDisconnect c) ?_
    rw [hc.connected]
    rfl
  | connectDone i hconnect => simp [hc.connects] at hconnect
  | connectError i w hconnect => simp [hc.connects] at hconnect
  | reconnect i w hwait => simp [hc.waits] at hwait
  | heartbeat i pingId w hwait =>
    rw [heartbeatHandler, if_neg (by simp [hc.connected])]
    exact hc.congr rfl rfl
  | writeDone i w hwrite hlive => simp [hc.writes] at hwrite
  | writeError i w hwrite => simp [hc.writes] at hwrite
  | readDone i bytes rand p hread hlive hsize => simp [hc.reads] at hread
  | readError i p hread => simp [hc.reads] at hread

/-- As long as the application does not call `connect`, an idle client is always quiet. -/
lemma always_quiet (hc : c.Idle) {es : List ClientEvent} (hes : ∀ e ∈ es, e ≠ .connect) :
    Run.Always (Client.step sha1) Quiet c es := by
  induction es generalizing c with
  | nil => exact hc.quiet
  | cons e es ih =>
    refine ⟨hc.quiet, fun c' hstep => ?_⟩
    have hc' := hc.step hstep (hes e List.mem_cons_self)
    exact ih hc' fun f hf => hes f (List.mem_cons_of_mem e hf)

end Idle

/-- The handler of anything pending connects, or waits to connect. -/
lemma exists_not_quiet (sha1 : Sha1) {c : Client} (hfault : c.fault = none)
    (hc : ¬ c.NothingPending) :
    ∃ e c', e ≠ .connect ∧ c.step sha1 e = some c' ∧ ¬ c'.Quiet := by
  by_cases hreads : c.reads = []
  · by_cases hwrites : c.writes = []
    · by_cases hconnects : c.connects = []
      · have hwaits : c.reconnectWaits ≠ [] := fun hwaits => hc ⟨hreads, hwrites, hconnects, hwaits⟩
        have hstep : c.step sha1 (.reconnect 0) = some
            (Client.connect { c with reconnectWaits := c.reconnectWaits.eraseIdx 0 }) := by
          simp [Client.step, hfault, List.getElem?_eq_getElem (List.length_pos_iff.2 hwaits)]
        exact ⟨.reconnect 0, _, by simp, hstep, not_quiet_connect _⟩
      · have hstep : c.step sha1 (.connectError 0) = some
            (scheduleReconnect { c with connects := c.connects.eraseIdx 0 }) := by
          simp [Client.step, hfault, List.getElem?_eq_getElem (List.length_pos_iff.2 hconnects)]
        exact ⟨.connectError 0, _, by simp, hstep, not_quiet_scheduleReconnect _⟩
    · have hstep : c.step sha1 (.writeError 0) = some
          (scheduleReconnect { c with writes := c.writes.eraseIdx 0 }) := by
        simp [Client.step, hfault, List.getElem?_eq_getElem (List.length_pos_iff.2 hwrites)]
      exact ⟨.writeError 0, _, by simp, hstep, not_quiet_scheduleReconnect _⟩
  · have hstep : c.step sha1 (.readError 0) = some
        (scheduleReconnect { c with reads := c.reads.eraseIdx 0 }) := by
      simp [Client.step, hfault, List.getElem?_eq_getElem (List.length_pos_iff.2 hreads)]
    exact ⟨.readError 0, _, by simp, hstep, not_quiet_scheduleReconnect _⟩

/-- **Disconnecting is final** exactly when the action posted by `disconnect` finds nothing pending:
then no step of any further run, in any interleaving, connects or waits to connect until the
application calls `connect`; and otherwise some run has such a step.

**Proof sketch.** The action leaves the client unconnected. With nothing pending it is idle, and
every step but a call of `connect` keeps that. Otherwise the handler of something pending runs. -/
theorem final_iff_nothingPending (sha1 : Sha1) (c c' : Client)
    (h : c.step sha1 .runDisconnect = some c') :
    (∀ es, (∀ e ∈ es, e ≠ .connect) → Run.Always (Client.step sha1) Quiet c' es) ↔
      c.NothingPending := by
  have hfault : c.fault = none := fault_of_step h
  cases step_transition h with
  | runDisconnect hposted =>
    constructor
    · intro hquiet
      by_contra hc
      have hc' : ¬ c.runDisconnect.NothingPending := by
        rwa [nothingPending_iff, outstanding_runDisconnect, ← nothingPending_iff]
      obtain ⟨e, d, he, hstep, hd⟩ := exists_not_quiet sha1 (c.runDisconnect_fault.trans hfault) hc'
      have halways := hquiet [e] (by simpa using he)
      exact hd ((halways.2 d hstep).head)
    · intro hc es hes
      have hidle : c.runDisconnect.Idle := by
        refine ⟨nothingPending_iff.2 ?_, rfl⟩
        rw [outstanding_runDisconnect]
        exact nothingPending_iff.1 hc
      exact hidle.always_quiet hes

/-- The action of a `disconnect` before the first connection finds nothing pending. -/
theorem final_before_connect :
    ∃ c c', Run.exec (Client.step SRP6.sampleSha1) (Client.new SRP6.sampleSha1) [.disconnect] =
        some c ∧ c.NothingPending ∧ c.step SRP6.sampleSha1 .runDisconnect = some c' ∧
      ∀ es, (∀ e ∈ es, e ≠ .connect) → Run.Always (Client.step SRP6.sampleSha1) Quiet c' es := by
  have hpending : (Client.new SRP6.sampleSha1).disconnect.NothingPending := ⟨rfl, rfl, rfl, rfl⟩
  have hstep : (Client.new SRP6.sampleSha1).disconnect.step SRP6.sampleSha1 .runDisconnect =
      some (Client.new SRP6.sampleSha1).disconnect.runDisconnect := rfl
  exact ⟨_, _, rfl, hpending, hstep,
    (final_iff_nothingPending SRP6.sampleSha1 _ _ hstep).2 hpending⟩

/-- The application connects and disconnects; the read of the header is aborted and its handler
waits to connect again. -/
def disconnectEvents : List ClientEvent := [.connect, .connectDone 0, .disconnect, .runDisconnect]

/-- After the action of `disconnect`, the client waits to connect, and then connects. -/
theorem reconnects_after_disconnect :
    ∃ c, Run.exec (Client.step SRP6.sampleSha1) (Client.new SRP6.sampleSha1) disconnectEvents =
        some c ∧
      ¬ Run.Always (Client.step SRP6.sampleSha1) Quiet c [.readError 0, .reconnect 0] := by
  have hrun : (Run.exec (Client.step SRP6.sampleSha1) (Client.new SRP6.sampleSha1)
      disconnectEvents).isSome = true := by
    decide
  obtain ⟨c, hc⟩ := Option.isSome_iff_exists.1 hrun
  refine ⟨c, hc, fun h => ?_⟩
  have hwaits : (Run.exec (Client.step SRP6.sampleSha1) (Client.new SRP6.sampleSha1)
      (disconnectEvents ++ [.readError 0])).map (·.reconnectWaits) = some [⟨(), false⟩] := by
    decide
  obtain ⟨d, hd, hval⟩ := Option.map_eq_some_iff.1 hwaits
  rw [Run.exec_append, hc, Option.bind_some] at hd
  obtain ⟨d', hstep, heq⟩ := Run.exec_cons_eq_some.1 hd
  obtain rfl : d' = d := by simpa using heq
  have hquiet := (h.2 d' hstep).head.waits ⟨(), false⟩ (by simp [hval])
  cases hquiet

end Client

end Purity
