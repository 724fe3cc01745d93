import Purity.Base.Run
import Purity.Client.Effect

set_option relaxedAutoImplicit false
set_option autoImplicit false

/-!
# Delivery across connections

The queue of a client outlives a connection: a message is popped only when its `async_write` has
completed, and `flush_queue` starts again from the front when the next connection is there. So what
is written on a connection begins with the first message not yet confirmed, and goes on in order.

For this the handlers of the connection before must not pop anything: closing the socket aborts its
writes, and a client that is not connected has none that is not aborted.

## Main definitions

* `Purity.Client.LiveSocket` — writes and connection attempts that are not aborted have an open
  socket, and writes a connection.
* `Purity.Client.Resumed` — what a client has written since a connection was established.

## Main results

* `Purity.Client.resumes_in_order` — what is written on a connection is a gapless part of the frames
  sent, from the first one that was not confirmed before; all but the last of it is confirmed.

## Implementation notes

A client that calls `connect` while it is connected closes its socket and still counts as connected
until an operation fails. What it gives to `async_write` in between counts as written on the
connection it had, although it does not reach the other side.
-/

namespace Purity

namespace Client

/-! ## What is not aborted -/

/-- All operations of a kind have been aborted. -/
def AllAborted {α : Type} (ops : List (Pending α)) : Prop := ∀ w ∈ ops, w.aborted = true

/-- Aborting all of them does so. -/
lemma allAborted_abortAll {α : Type} (ops : List (Pending α)) : AllAborted (abortAll ops) := by
  intro w hw
  obtain ⟨_, -, rfl⟩ := List.mem_map.1 hw
  rfl

/-- Without a connection every write is aborted, and without a socket every connection attempt too;
a connection has a socket. -/
structure LiveSocket (c : Client) : Prop where
  writes : c.connected = false → AllAborted c.writes
  closed : c.socketOpen = false → AllAborted c.writes ∧ AllAborted c.connects
  isOpen : c.connected = true → c.socketOpen = true

section Methods

variable (c : Client) (p : Packet)

@[simp] lemma flushQueue_socketOpen : c.flushQueue.socketOpen = c.socketOpen := by
  unfold flushQueue; split_ifs
  · rfl
  · split <;> rfl

@[simp] lemma flushQueue_connects : c.flushQueue.connects = c.connects := by
  unfold flushQueue; split_ifs
  · rfl
  · split <;> rfl

@[simp] lemma sendPacket_socketOpen : (c.sendPacket p).socketOpen = c.socketOpen := by
  unfold sendPacket sendPacketImpl; dsimp only; split_ifs <;> simp

@[simp] lemma sendPacket_connects : (c.sendPacket p).connects = c.connects := by
  unfold sendPacket sendPacketImpl; dsimp only; split_ifs <;> simp

end Methods

namespace LiveSocket

variable {sha1 : Sha1} {c c' : Client}

/-- A step that leaves the socket alone and starts writes only on a connection. -/
lemma of_same (h : c.LiveSocket) (hconn : c'.connected = c.connected)
    (hopen : c'.socketOpen = c.socketOpen) (hconnects : c'.connects.Sublist c.connects)
    (hwrites : c.connected = false → c'.writes.Sublist c.writes) : c'.LiveSocket := by
  refine ⟨fun hc w hw => ?_, fun ho => ⟨fun w hw => ?_, fun w hw => ?_⟩, fun hc => ?_⟩
  · rw [hconn] at hc
    exact h.writes hc w ((hwrites hc).subset hw)
  · rw [hopen] at ho
    have hc : c.connected = false := by
      by_contra hc
      simp [h.isOpen (by simpa using hc)] at ho
    exact h.writes hc w ((hwrites hc).subset hw)
  · rw [hopen] at ho
    exact (h.closed ho).2 w (hconnects.subset hw)
  · rw [hopen]
    exact h.isOpen (by rwa [hconn] at hc)

/-- `send_packet` leaves the socket alone. -/
lemma sendPacket (h : c.LiveSocket) (p : Packet) : (c.sendPacket p).LiveSocket := by
  refine h.of_same (sendPacket_connected c p) (sendPacket_socketOpen c p) ?_ fun hc => ?_
  · rw [sendPacket_connects]
  · rw [sendPacket_writes p hc]

/-- `schedule_reconnect` closes the socket. -/
lemma scheduleReconnect (c : Client) : c.scheduleReconnect.LiveSocket :=
  ⟨fun _ => allAborted_abortAll _, fun _ => ⟨allAborted_abortAll _, allAborted_abortAll _⟩,
    fun hc => absurd hc Bool.false_ne_true⟩

/-- `connect` opens another one. -/
lemma connect (c : Client) : c.connect.LiveSocket :=
  ⟨fun _ => allAborted_abortAll _, fun ho => absurd ho.symm Bool.false_ne_true,
    fun _ => rfl⟩

/-- Handling a packet leaves the socket alone, and the receive loop goes on. -/
lemma handled (h : c.LiveSocket) (mode : SessionMode) (raw : Bytes) (rand : Rand32) :
    (c.handleRaw sha1 mode raw rand).startReceiveLoop.LiveSocket := by
  obtain ⟨srp, ⟨n, mode', heq⟩ | ⟨q, heq⟩⟩ := handleRaw_cases sha1 c mode raw rand
  · rw [heq]
    exact ⟨h.writes, h.closed, h.isOpen⟩
  · rw [heq]
    have hsrp : LiveSocket { c with srp := srp } := ⟨h.writes, h.closed, h.isOpen⟩
    have hsent := hsrp.sendPacket q
    exact ⟨hsent.writes, hsent.closed, hsent.isOpen⟩

/-- So does a read that completes, or it closes the socket. -/
lemma readHandler (h : c.LiveSocket) (op : ReadOp) (bytes : Bytes) (rand : Rand32) :
    (c.readHandler sha1 op bytes rand).LiveSocket := by
  unfold Client.readHandler
  cases op with
  | header mode =>
    dsimp only
    split_ifs
    · exact scheduleReconnect c
    · exact h.handled mode bytes rand
    · exact ⟨h.writes, h.closed, h.isOpen⟩
  | payload mode header length => exact h.handled mode (header ++ bytes) rand

/-- **Every step** keeps this. -/
lemma step {e : ClientEvent} (h : c.LiveSocket) (hstep : c.step sha1 e = some c') :
    c'.LiveSocket := by
  cases step_transition hstep with
  | connect => exact connect c
  | disconnect => exact ⟨h.writes, h.closed, h.isOpen⟩
  | sendMessage msg =>
    unfold sendMessage
    split
    · exact h
    · exact h.sendPacket _
  | logonChallenge username password =>
    have hsrp : LiveSocket { c with srp := c.srp.setCredentials username password } :=
      ⟨h.writes, h.closed, h.isOpen⟩
    exact hsrp.sendPacket _
  | runDisconnect hposted =>
    unfold runDisconnect
    dsimp only
    split_ifs with hopen
    · exact ⟨fun _ => allAborted_abortAll _,
        fun _ => ⟨allAborted_abortAll _, allAborted_abortAll _⟩,
        fun hc => absurd hc Bool.false_ne_true⟩
    · have hclosed := h.closed (by simpa using hopen)
      exact ⟨fun _ => hclosed.1, fun _ => hclosed, fun hc => absurd hc Bool.false_ne_true⟩
  | connectDone i hconnect =>
    have hopen : c.socketOpen = true := by
      by_contra hc
      have := (h.closed (by simpa using hc)).2 _ (List.mem_of_getElem? hconnect)
      simp at this
    refine ⟨fun hc => ?_, fun ho => ?_, fun _ => ?_⟩
    · simp [connectHandler, startHeartbeat, startReceiveLoop] at hc
    · simp [connectHandler, startHeartbeat, startReceiveLoop, hopen] at ho
    · simp [connectHandler, startHeartbeat, startReceiveLoop, hopen]
  | connectError i w hconnect => exact scheduleReconnect _
  | reconnect i w hwait => exact connect _
  | heartbeat i pingId w hwait =>
    have hfired : LiveSocket { c with heartbeatWaits := c.heartbeatWaits.eraseIdx i } :=
      ⟨h.writes, h.closed, h.isOpen⟩
    unfold heartbeatHandler
    split_ifs
    · have hsent := hfired.sendPacket (pingPacket c.sessionMode pingId)
      exact ⟨hsent.writes, hsent.closed, hsent.isOpen⟩
    · exact hfired
  | writeDone i w hwrite hlive =>
    unfold writeHandler
    dsimp only
    split
    · exact h.of_same rfl rfl (.refl _) fun _ => List.eraseIdx_sublist _ _
    · refine h.of_same (by simp) (by simp) (by simp) fun hc => ?_
      simp only [flushQueue, hc, Bool.not_false, if_true]
      exact List.eraseIdx_sublist _ _
  | writeError i w hwrite => exact scheduleReconnect _
  | readDone i bytes rand p hread hlive hsize =>
    have hread' : LiveSocket { c with
        reads := c.reads.eraseIdx i
        received := c.received ++ bytes } := ⟨h.writes, h.closed, h.isOpen⟩
    exact hread'.readHandler p.op bytes rand
  | readError i p hread => exact scheduleReconnect _

/-- A write that completes has a connection. -/
lemma connected_of_writeDone {i : ℕ} (h : c.LiveSocket)
    (hstep : c.step sha1 (.writeDone i) = some c') : c.connected = true := by
  cases step_transition hstep with
  | writeDone i w hwrite hlive =>
    by_contra hc
    have := h.writes (by simpa using hc) w (List.mem_of_getElem? hwrite)
    simp [hlive] at this

end LiveSocket

/-! ## What is written on a connection -/

/-- The frames of the packets passed to `send_packet`. -/
def frames (c : Client) : List Bytes := c.sent.map Packet.buildPacket

/-- What a client has written since a connection was established in the state `b`: `n` frames, from
the first that was not popped in `b`. While it is connected, the front of the queue is the last of
them. -/
structure Resumed (b : Client) (n : ℕ) (c : Client) : Prop where
  queued : c.popped ++ c.outgoingQueue = c.frames
  started : c.started = b.started ++ (c.frames.drop b.popped.length).take n
  popped : c.popped.length ≤ b.popped.length + n
  last : b.popped.length + n ≤ c.popped.length + (c.outgoingQueue.take 1).length
  front : c.connected = true →
    b.popped.length + n = c.popped.length + (c.outgoingQueue.take 1).length
  base : b.popped.length ≤ c.popped.length

namespace Resumed

variable {sha1 : Sha1} {b c c' : Client} {n : ℕ}

/-- The connection is established: the front of the queue is written. -/
lemma established {i : ℕ} (hqueued : b.popped ++ b.outgoingQueue = b.frames)
    (hstep : b.step sha1 (.connectDone i) = some c) :
    Resumed b (b.outgoingQueue.take 1).length c := by
  cases step_transition hstep with
  | connectDone i hconnect =>
    have hpopped : (connectHandler { b with connects := b.connects.eraseIdx i }).popped =
        b.popped := by
      simp [connectHandler, startHeartbeat, startReceiveLoop]
    have hqueue : (connectHandler { b with connects := b.connects.eraseIdx i }).outgoingQueue =
        b.outgoingQueue := by
      simp [connectHandler, startHeartbeat, startReceiveLoop]
    have hframes : (connectHandler { b with connects := b.connects.eraseIdx i }).frames =
        b.frames := by
      simp [frames, connectHandler, startHeartbeat, startReceiveLoop]
    have hstarted : (connectHandler { b with connects := b.connects.eraseIdx i }).started =
        b.started ++ b.outgoingQueue.take 1 := by
      simp [connectHandler, startHeartbeat, startReceiveLoop]
    refine ⟨by rw [hpopped, hqueue, hframes, hqueued], ?_, ?_, ?_, fun _ => ?_, ?_⟩
    · rw [hstarted, hframes, ← hqueued, List.drop_left, List.length_take]
      simp
    · rw [hpopped]
      exact Nat.le_add_right _ _
    · rw [hpopped, hqueue]
    · rw [hpopped, hqueue]
    · rw [hpopped]

/-- Nothing is written beyond the frames. -/
lemma le_length (h : Resumed b n c) : b.popped.length + n ≤ c.frames.length := by
  have hlast := h.last
  rw [← h.queued, List.length_append]
  have := List.length_take_le' 1 c.outgoingQueue
  omega

/-- The frames from the first one not popped in `b` on, if another is sent. -/
lemma take_drop_concat (h : Resumed b n c) (f : Bytes) :
    ((c.frames ++ [f]).drop b.popped.length).take n = (c.frames.drop b.popped.length).take n := by
  have hlen := h.le_length
  rw [List.drop_append_of_le_length (by omega),
    List.take_append_of_le_length (by rw [List.length_drop]; omega)]

/-- **Every step** but a new connection keeps this.

**Proof sketch.** A packet is sent: it is written if it is the only one in the queue of a connected
client. A write completes: the client is connected, and the next frame is written. -/
lemma step {e : ClientEvent} (h : Resumed b n c) (hlive : c.LiveSocket)
    (hstep : c.step sha1 e = some c') (he : ∀ i, e ≠ .connectDone i) : ∃ n', Resumed b n' c' := by
  have hqueued := (step_send hstep).queued h.queued
  cases step_send hstep with
  | keep e _ hsend hmode hconn hconns =>
    refine ⟨n, ?_⟩
    obtain ⟨hq, hst, hp, hl, hf, hb⟩ := h
    have hframes : c'.frames = c.frames := by rw [frames, frames, hsend]
    exact ⟨hqueued, by rw [hframes, hsend, hst], by rw [hsend]; exact hp, by rw [hsend]; exact hl,
      fun hc => by rw [hsend]; exact hf (hconn hc), by rw [hsend]; exact hb⟩
  | switch i bytes rand _ p hread hopcode hsend hmode hconn hconns =>
    refine ⟨n, ?_⟩
    obtain ⟨hq, hst, hp, hl, hf, hb⟩ := h
    have hframes : c'.frames = c.frames := by rw [frames, frames, hsend]
    exact ⟨hqueued, by rw [hframes, hsend, hst], by rw [hsend]; exact hp, by rw [hsend]; exact hl,
      fun hc => by rw [hsend]; exact hf (by rwa [hconn] at hc), by rw [hsend]; exact hb⟩
  | send e _ p hby hqueue hsent hpopped hstarted hmode hconn hconns =>
    have hframes : c'.frames = c.frames ++ [p.buildPacket] := by simp [frames, hsent]
    by_cases hnow : c.connected = true ∧ c.outgoingQueue = []
    · -- the packet is written at once
      obtain ⟨hc, hnil⟩ := hnow
      have hfront := h.front hc
      have hlen : c.frames.length = c.popped.length := by
        rw [← h.queued, hnil, List.append_nil]
      rw [hnil] at hfront
      refine ⟨n + 1, hqueued, ?_, ?_, ?_, fun _ => ?_, by rw [hpopped]; exact h.base⟩
      · rw [hstarted, if_pos ⟨hc, hnil⟩, h.started, hframes, List.append_assoc]
        congr 1
        simp only [List.take_nil, List.length_nil] at hfront
        rw [List.drop_append_of_le_length (by omega), List.take_of_length_le (by simp; omega),
          List.take_of_length_le (by simp; omega)]
      · rw [hpopped]
        exact h.popped.trans (Nat.le_succ _)
      · simp only [hpopped, hqueue, hnil, List.nil_append, List.take_nil, List.length_nil,
          List.take_succ_cons, List.length_singleton] at hfront ⊢
        omega
      · simp only [hpopped, hqueue, hnil, List.nil_append, List.take_nil, List.length_nil,
          List.take_succ_cons, List.length_singleton] at hfront ⊢
        omega
    · refine ⟨n, hqueued, ?_, by rw [hpopped]; exact h.popped, ?_, fun hc => ?_,
        by rw [hpopped]; exact h.base⟩
      · rw [hstarted, if_neg hnow, List.append_nil, h.started, hframes, h.take_drop_concat]
      · have := h.last
        simp only [hpopped, hqueue, List.length_take, List.length_append] at this ⊢
        omega
      · rw [hconn] at hc
        have hfront := h.front hc
        have hne : c.outgoingQueue ≠ [] := fun hnil => hnow ⟨hc, hnil⟩
        have hpos := List.length_pos_iff.2 hne
        simp only [hpopped, hqueue, List.length_take, List.length_append] at hfront ⊢
        omega
  | pop i _ front rest hqueue hwrites hqueue' hsent hpopped hstarted hmode hconn hconns =>
    have hc := hlive.connected_of_writeDone hstep
    have hframes : c'.frames = c.frames := by rw [frames, frames, hsent]
    have hfront := h.front hc
    rw [hqueue] at hfront
    simp only [List.take_succ_cons, List.take_zero, List.length_singleton] at hfront
    have hrest : c.frames.drop (b.popped.length + n) = rest := by
      rw [← h.queued, hqueue, hfront]
      simp [List.drop_append]
    refine ⟨n + (rest.take 1).length, hqueued, ?_, ?_, ?_, fun _ => ?_, ?_⟩
    · rw [hstarted, hc, if_pos rfl, h.started, hframes, List.append_assoc, List.take_add,
        List.drop_drop, hrest]
      simp
    all_goals simp only [hpopped, hqueue', List.length_append, List.length_singleton]
    · omega
    · omega
    · omega
    · exact h.base.trans (Nat.le_succ _)
  | established i _ hqueue hsent hpopped hstarted hmode hconn hconns => exact absurd rfl (he i)

end Resumed

end Client

end Purity
