import Mathlib.Data.List.Perm.Basic
import Purity.Base.Timer
import Purity.Client.Connection

set_option relaxedAutoImplicit false
set_option autoImplicit false

/-!
# The heartbeat of a client

`start_heartbeat` waits on `heartbeat_timer`; the handler sends a ping and waits again, if the
client is connected. The loop is started with every connection and dies with it, and it must neither
die under a connection nor run twice: a connection lost and restored may find the wait of the one
before still armed, or its handler queued.

In `Purity.Client.step` a wait that has been cancelled always ends as cancelled. Here its time may
have come before: then the handler is in the queue, and a cancel does not reach it.

## Main definitions

* `Purity.Heart`, `Purity.Heart.step` — a client whose heartbeat handlers may be queued.
* `Purity.Heart.timer` — its `heartbeat_timer`.

## Main results

* `Purity.Heart.step_loop` — every step does to the timer what a periodic loop may do.
* `Purity.Heart.heartbeat_beats` — while the client is connected the heartbeat goes on, with one
  wait armed at most.
-/

namespace Purity

namespace Client

/-! ## What the methods do to the heartbeat -/

section Frame

variable (c : Client) (p : Packet)

@[simp] lemma flushQueue_heartbeatWaits : c.flushQueue.heartbeatWaits = c.heartbeatWaits := by
  unfold flushQueue; split_ifs
  · rfl
  · split <;> rfl

@[simp] lemma sendPacket_heartbeatWaits : (c.sendPacket p).heartbeatWaits = c.heartbeatWaits := by
  unfold sendPacket sendPacketImpl; dsimp only; split_ifs <;> simp

@[simp] lemma sendMessage_heartbeatWaits (msg : Bytes) :
    (c.sendMessage msg).heartbeatWaits = c.heartbeatWaits := by
  unfold sendMessage; split <;> simp

@[simp] lemma sendMessage_connected (msg : Bytes) :
    (c.sendMessage msg).connected = c.connected := by
  unfold sendMessage; split <;> simp

@[simp] lemma runDisconnect_connected : c.runDisconnect.connected = false := rfl

@[simp] lemma runDisconnect_heartbeatWaits :
    c.runDisconnect.heartbeatWaits = abortAll c.heartbeatWaits := by
  unfold runDisconnect; dsimp only; split_ifs <;> rfl

end Frame

/-- A read that completes leaves the waits alone, and does not connect. -/
lemma readHandler_beat (sha1 : Sha1) (c : Client) (op : ReadOp) (bytes : Bytes) (rand : Rand32) :
    (c.readHandler sha1 op bytes rand).heartbeatWaits = c.heartbeatWaits ∧
      ((c.readHandler sha1 op bytes rand).connected = true → c.connected = true) := by
  have hraw : ∀ mode raw,
      (c.handleRaw sha1 mode raw rand).startReceiveLoop.heartbeatWaits = c.heartbeatWaits ∧
        ((c.handleRaw sha1 mode raw rand).startReceiveLoop.connected = true →
          c.connected = true) := by
    intro mode raw
    obtain ⟨srp, ⟨n, mode', h⟩ | ⟨q, h⟩⟩ := handleRaw_cases sha1 c mode raw rand
    · rw [h]
      exact ⟨rfl, id⟩
    · rw [h]
      exact ⟨sendPacket_heartbeatWaits _ q, by simp [startReceiveLoop]⟩
  unfold readHandler
  cases op with
  | header mode =>
    dsimp only
    split_ifs
    · exact ⟨rfl, fun hconn => absurd hconn Bool.false_ne_true⟩
    · exact hraw mode bytes
    · exact ⟨rfl, id⟩
  | payload mode header length => exact hraw mode (header ++ bytes)

end Client

/-! ## A client with a real timer -/

/-- A client, and the number of its heartbeat handlers that are queued because the time of their
wait has come. The waits in `heartbeatWaits` have not ended, or have been cancelled. -/
structure Heart where
  client : Client
  fired : ℕ := 0

/-- What happens to it next. -/
inductive HeartEvent where
  /-- an event of the client; a wait of `heartbeat_timer` ends only if it was cancelled -/
  | client (e : ClientEvent)
  /-- the time of the `i`-th wait of `heartbeat_timer` comes: its handler is queued -/
  | expire (i : ℕ)
  /-- a queued handler runs; a ping would have the number `pingId` -/
  | beat (pingId : UInt32)

namespace Heart

/-- A client just constructed. -/
def new (sha1 : Sha1) : Heart := { client := .new sha1 }

/-- An event that the client may see as such: not the end of a wait that was not cancelled. -/
def clientMay (c : Client) : ClientEvent → Bool
  | .heartbeat i _ => c.heartbeatWaits[i]?.any (·.aborted)
  | _ => true

/-- One step; `none` if the event is not possible. -/
def step (sha1 : Sha1) (h : Heart) : HeartEvent → Option Heart
  | .client e =>
    if clientMay h.client e then
      (h.client.step sha1 e).map fun c => { h with client := c } else none
  | .expire i =>
    h.client.heartbeatWaits[i]?.bind fun w =>
      if w.aborted then none
      else some
        { client := { h.client with heartbeatWaits := h.client.heartbeatWaits.eraseIdx i }
          fired := h.fired + 1 }
  | .beat pingId =>
    if h.fired = 0 ∨ h.client.fault.isSome then none
    else some { client := h.client.heartbeatHandler false pingId, fired := h.fired - 1 }

/-- A timer with these waits and this number of queued handlers. -/
def timerOf (waits : List (Pending Unit)) (fired : ℕ) : Timer where
  armed := waits.countP fun w => !w.aborted
  fired := fired
  aborted := waits.countP fun w => w.aborted

/-- `heartbeat_timer` -/
def timer (h : Heart) : Timer := timerOf h.client.heartbeatWaits h.fired

section Timer

variable (waits : List (Pending Unit)) (fired : ℕ)

/-- Every wait is armed or cancelled. -/
lemma length_waits : waits.length =
    (waits.countP fun w => w.aborted) + waits.countP fun w => !w.aborted := by
  simpa using waits.length_eq_countP_add_countP fun w : Pending Unit => w.aborted

/-- Cancelling all waits cancels the timer. -/
lemma timerOf_abortAll : timerOf (abortAll waits) fired = (timerOf waits fired).cancel := by
  have harmed : ((abortAll waits).countP fun w => !w.aborted) = 0 := by simp [abortAll]
  have haborted : ((abortAll waits).countP fun w => w.aborted) = waits.length := by
    simp only [abortAll, List.countP_map]
    exact List.countP_eq_length.2 fun w _ => rfl
  simp only [timerOf, Timer.cancel, harmed, haborted, Timer.mk.injEq, true_and]
  exact length_waits waits

/-- `start_heartbeat` restarts it. -/
lemma timerOf_restart :
    timerOf (abortAll waits ++ [{ op := () }]) fired = (timerOf waits fired).restart := by
  have h := timerOf_abortAll waits fired
  simp only [timerOf, Timer.cancel, Timer.mk.injEq, true_and] at h
  simp [timerOf, Timer.restart, Timer.cancel, List.countP_append, h]

/-- Taking one wait out of the list. -/
lemma countP_eraseIdx {i : ℕ} {w : Pending Unit} (hw : waits[i]? = some w)
    (q : Pending Unit → Bool) :
    waits.countP q = (waits.eraseIdx i).countP q + if q w then 1 else 0 := by
  obtain ⟨hi, rfl⟩ := List.getElem?_eq_some_iff.1 hw
  rw [← List.Perm.countP_eq q (List.getElem_cons_eraseIdx_perm hi), List.countP_cons]

/-- The time of a wait comes. -/
lemma timerOf_expire {i : ℕ} {w : Pending Unit} (hw : waits[i]? = some w)
    (hlive : w.aborted = false) :
    (timerOf waits fired).expire = some (timerOf (waits.eraseIdx i) (fired + 1)) := by
  have harmed := countP_eraseIdx waits hw fun w => !w.aborted
  have haborted := countP_eraseIdx waits hw fun w => w.aborted
  simp only [hlive, Bool.not_false, if_true] at harmed
  simp only [hlive, Bool.false_eq_true, if_false, Nat.add_zero] at haborted
  rw [Timer.expire_eq_some]
  simp only [timerOf, harmed, haborted]
  exact ⟨Nat.succ_ne_zero _, rfl⟩

/-- The handler of a cancelled wait runs. -/
lemma timerOf_aborted {i : ℕ} {w : Pending Unit} (hw : waits[i]? = some w)
    (hdead : w.aborted = true) :
    (timerOf waits fired).runAborted = some (timerOf (waits.eraseIdx i) fired) := by
  have harmed := countP_eraseIdx waits hw fun w => !w.aborted
  have haborted := countP_eraseIdx waits hw fun w => w.aborted
  simp only [hdead, Bool.not_true, Bool.false_eq_true, if_false, Nat.add_zero] at harmed
  simp only [hdead, if_true] at haborted
  rw [Timer.runAborted_eq_some]
  simp only [timerOf, harmed, haborted]
  exact ⟨Nat.succ_ne_zero _, rfl⟩

end Timer

variable {sha1 : Sha1} {h h' : Heart} {e : HeartEvent}

/-- **Every step is one of a periodic loop** that is to go on while the client is connected. -/
lemma step_loop (hstep : h.step sha1 e = some h') :
    Timer.LoopStep (h.client.connected = true) (h'.client.connected = true) h.timer h'.timer := by
  -- the waits and the queued handlers are as before, and the client has not got connected
  have hkeep : h'.client.heartbeatWaits = h.client.heartbeatWaits → h'.fired = h.fired →
      (h'.client.connected = true → h.client.connected = true) →
      Timer.LoopStep (h.client.connected = true) (h'.client.connected = true) h.timer h'.timer := by
    intro hwaits hfired hconn
    have htimer : h'.timer = h.timer := by simp only [timer, hwaits, hfired]
    rw [htimer]
    exact .keep hconn
  cases e with
  | expire i =>
    simp only [step, Option.bind_eq_some_iff, Option.ite_none_left_eq_some, Option.some.injEq]
      at hstep
    obtain ⟨w, hw, hlive, rfl⟩ := hstep
    exact .expire _ (timerOf_expire _ _ hw (by simpa using hlive)) id
  | beat pingId =>
    simp only [step, Option.ite_none_left_eq_some, not_or, Option.some.injEq] at hstep
    obtain ⟨⟨hfired, -⟩, rfl⟩ := hstep
    have hrun : h.timer.runFired = some (timerOf h.client.heartbeatWaits (h.fired - 1)) :=
      Timer.runFired_eq_some.2 ⟨hfired, rfl⟩
    cases hconn : h.client.connected with
    | true =>
      have htimer : timer { client := h.client.heartbeatHandler false pingId
                            fired := h.fired - 1 } =
          (timerOf h.client.heartbeatWaits (h.fired - 1)).restart := by
        rw [← timerOf_restart]
        simp [timer, Client.heartbeatHandler, hconn, Client.startHeartbeat, Client.sendPing]
      rw [htimer]
      exact .beat _ hrun
    | false =>
      have hsame : h.client.heartbeatHandler false pingId = h.client := by
        simp [Client.heartbeatHandler, hconn]
      rw [hsame]
      exact .stop _ hrun (by simp [hconn])
  | client e =>
    simp only [step, Option.ite_none_right_eq_some, Option.map_eq_some_iff] at hstep
    obtain ⟨hmay, c', hc', rfl⟩ := hstep
    cases Client.step_transition hc' with
    | connect => exact hkeep rfl rfl id
    | disconnect => exact hkeep rfl rfl id
    | sendMessage msg => exact hkeep (by simp) rfl (by simp)
    | logonChallenge username password =>
      exact hkeep (by simp [Client.handleLogonChallenge]) rfl
        (by simp [Client.handleLogonChallenge])
    | runDisconnect hposted =>
      have htimer : timer { h with client := h.client.runDisconnect } = h.timer.cancel := by
        rw [timer, timer, ← timerOf_abortAll, Client.runDisconnect_heartbeatWaits]
      rw [htimer]
      exact .cancel (by simp)
    | connectDone i hconnect =>
      have htimer : timer { h with client := Client.connectHandler { h.client with
          connects := h.client.connects.eraseIdx i } } = h.timer.restart := by
        rw [timer, timer, ← timerOf_restart]
        simp [Client.connectHandler, Client.startHeartbeat, Client.startReceiveLoop]
      rw [htimer]
      exact .restart
    | connectError i w hconnect => exact hkeep rfl rfl fun hconn => absurd hconn Bool.false_ne_true
    | reconnect i w hwait => exact hkeep rfl rfl id
    | heartbeat i pingId w hwait =>
      have hdead : w.aborted = true := by simpa [clientMay, hwait] using hmay
      have hsame : Client.heartbeatHandler { h.client with
          heartbeatWaits := h.client.heartbeatWaits.eraseIdx i } w.aborted pingId =
          { h.client with heartbeatWaits := h.client.heartbeatWaits.eraseIdx i } := by
        simp [Client.heartbeatHandler, hdead]
      rw [hsame]
      exact .aborted _ (timerOf_aborted _ _ hwait hdead) id
    | writeDone i w hwrite hlive =>
      unfold Client.writeHandler at hkeep ⊢
      revert hkeep
      dsimp only
      split
      · exact fun hkeep => hkeep rfl rfl id
      · exact fun hkeep => hkeep (by simp) rfl (by simp)
    | writeError i w hwrite => exact hkeep rfl rfl fun hconn => absurd hconn Bool.false_ne_true
    | readDone i bytes rand p hread hlive hsize =>
      have hbeat := Client.readHandler_beat sha1 { h.client with
        reads := h.client.reads.eraseIdx i
        received := h.client.received ++ bytes } p.op bytes rand
      exact hkeep hbeat.1 rfl hbeat.2
    | readError i p hread => exact hkeep rfl rfl fun hconn => absurd hconn Bool.false_ne_true

/-- **The heartbeat.** In every run of a client, with connections made, lost, closed and restored in
any interleaving and each handler of the timer run as late as may be: at most one wait of
`heartbeat_timer` is armed, and whenever the client is connected, a wait is armed or its handler is
queued. And a handler that runs while the client is connected passes exactly one ping to
`send_packet`, framed for the current mode, and leaves one wait armed.

**Proof sketch.** Every step is one of a periodic loop; the rule for such loops does the rest. -/
theorem heartbeat_beats (sha1 : Sha1) (es : List HeartEvent) (h : Heart)
    (hrun : Run.exec (step sha1) (new sha1) es = some h) :
    h.timer.armed ≤ 1 ∧ (h.client.connected = true → 1 ≤ h.timer.armed + h.fired) ∧
      ∀ pingId h', h.client.connected = true → h.step sha1 (.beat pingId) = some h' →
        h'.client.sent = h.client.sent ++ [Client.pingPacket h.client.sessionMode pingId] ∧
          h'.timer.armed = 1 := by
  have hbeating : Timer.Beating (h.client.connected = true) h.timer := by
    refine Run.exec_invariant
      (I := fun h : Heart => Timer.Beating (h.client.connected = true) h.timer)
      (fun s e s' hs hstep => (step_loop hstep).beating hs) ?_ hrun
    exact ⟨Nat.zero_le 1, nofun⟩
  refine ⟨hbeating.armed, hbeating.live, fun pingId h' hconn hstep => ?_⟩
  simp only [step, Option.ite_none_left_eq_some, not_or, Option.some.injEq] at hstep
  obtain ⟨-, rfl⟩ := hstep
  have hbeat : h.client.heartbeatHandler false pingId =
      (h.client.sendPing pingId).startHeartbeat := by
    simp [Client.heartbeatHandler, hconn]
  rw [hbeat]
  constructor
  · simp [Client.startHeartbeat, Client.sendPing]
  · rw [timer, Client.startHeartbeat, timerOf_restart]
    rfl

/-- A connection is lost and restored while the handler of the first heartbeat is queued. -/
def restoredEvents : List HeartEvent :=
  [.client .connect, .client (.connectDone 0), .expire 0, .client (.readError 0),
    .client (.reconnect 0), .client (.connectDone 0)]

/-- After that, the new wait is armed and the old handler is queued; when it runs, one wait is left.
-/
theorem heartbeat_beats_restored :
    ∃ h, Run.exec (step SRP6.sampleSha1) (new SRP6.sampleSha1) restoredEvents = some h ∧
      h.fired = 1 ∧ h.timer.armed ≤ 1 ∧ 1 ≤ h.timer.armed + h.fired := by
  refine ⟨_, rfl, rfl, ?_⟩
  have hbeats := heartbeat_beats SRP6.sampleSha1 restoredEvents _ rfl
  exact ⟨hbeats.1, hbeats.2.1 rfl⟩

end Heart

end Purity
