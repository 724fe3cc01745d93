import Purity.Base.Run
import Purity.Server.Reader

set_option relaxedAutoImplicit false
set_option autoImplicit false

/-!
# The session as a transition system

A started session is driven by completion handlers and tasks that the executor runs in any order,
each taken as atomic: the completion of a read or a write, a posted `do_send_packet`, a spawned
challenge, and a `send_packet` or `close` from elsewhere (`Server::stop` closes all sessions). Each
is an event, and what the environment decides about it (the bytes delivered, success or error, what
the challenge finds) is part of the event, so that a statement about all lists of events is one
about all interleavings.

## Main definitions

* `Purity.SessionEvent`, `Purity.Session.step` — the events and what each does.
* `Purity.ReadOutcome` — the four ways a read completion of an open session can end.
* `Purity.Transition` — the inversion of `step`: one constructor for each way an event can end.

## Main results

* `Purity.Session.readHandler_outcome` — a read completion of an open session ends in one of the
  four ways.
* `Purity.Session.step_transition` — every step is one of the transitions.
-/

namespace Purity

namespace Session

/-- The completion handler of `async_read_some` on success. -/
def readHandler (sha1 : Sha1) (s : Session) (chunk : Bytes) : Session :=
  let s := { s with reads := s.reads - 1 }
  if s.closed then s
  else
    match s.readBuffer.receive chunk with
    | .error e => { s with fault := some (.uncaught e) }
    | .ok buffer =>
      let s := { s with readBuffer := buffer, received := s.received ++ chunk }
      match processReadBuffer sha1 s with
      | .error e => { s with fault := some (.uncaught e) }
      | .ok s => if s.closed then s else s.doRead

/-- The completion handler of the `async_write` of `message` on success: `pop_front`, whose effect
on an empty deque is undefined, then `do_write`. -/
def writeHandler (s : Session) (message : Bytes) : Session :=
  match s.writeQueue with
  | [] => { s with fault := some .popEmpty }
  | _ :: rest =>
    doWrite { s with writeQueue := rest, completed := s.completed ++ [message] }

section Frame

variable (s : Session) (m : Bytes)

@[simp] lemma writeHandler_toAuthState : (s.writeHandler m).toAuthState = s.toAuthState := by
  unfold writeHandler; split <;> simp

@[simp] lemma writeHandler_toReadState : (s.writeHandler m).toReadState = s.toReadState := by
  unfold writeHandler; split <;> simp

@[simp] lemma writeHandler_replies : (s.writeHandler m).replies = s.replies := by
  unfold writeHandler; split <;> simp

@[simp] lemma writeHandler_posted : (s.writeHandler m).posted = s.posted := by
  unfold writeHandler; split <;> simp

@[simp] lemma writeHandler_executed : (s.writeHandler m).executed = s.executed := by
  unfold writeHandler; split <;> simp

@[simp] lemma writeHandler_closed : (s.writeHandler m).closed = s.closed := by
  unfold writeHandler; split <;> simp

end Frame

end Session

/-- The tasks the executor may run next. -/
inductive SessionEvent where
  /-- an `async_read_some` completes with these bytes -/
  | read (chunk : Bytes)
  /-- an `async_read_some` completes with an error -/
  | readError
  /-- the `i`-th spawned challenge runs -/
  | challenge (i : ℕ) (env : ChallengeEnv)
  /-- the `i`-th posted `do_send_packet` runs -/
  | send (i : ℕ)
  /-- the `i`-th outstanding `async_write` completes -/
  | writeDone (i : ℕ)
  /-- the `i`-th outstanding `async_write` completes with an error -/
  | writeError (i : ℕ)
  /-- `send_packet` is called from elsewhere -/
  | post (packet : Packet)
  /-- `close` is called from elsewhere -/
  | close

/-- One step of a session; `none` if the event is not possible. A read delivers at least one byte
and at most the space it was offered; a closed session's read may still complete, and its handler
returns at once. After a fault nothing is specified. -/
def Session.step (sha1 : Sha1) (s : Session) (e : SessionEvent) : Option Session :=
  if s.fault.isSome then none
  else
    match e with
    | .read chunk =>
      if 0 < s.reads ∧ chunk ≠ [] ∧ (s.closed = false → chunk.length ≤ s.readBuffer.remainingSpace)
      then some (s.readHandler sha1 chunk) else none
    | .readError =>
      if 0 < s.reads then some (Session.close { s with reads := s.reads - 1 }) else none
    | .challenge i env =>
      s.spawned[i]?.map fun p =>
        (HandlersAuth.handleLogonChallenge { s with spawned := s.spawned.eraseIdx i } p env).2
    | .send i =>
      s.posted[i]?.map fun p => Session.doSendPacket { s with posted := s.posted.eraseIdx i } p
    | .writeDone i =>
      s.inFlight[i]?.map fun m =>
        Session.writeHandler { s with inFlight := s.inFlight.eraseIdx i } m
    | .writeError i =>
      s.inFlight[i]?.map fun _ => Session.close { s with inFlight := s.inFlight.eraseIdx i }
    | .post packet => some (s.sendPacket packet)
    | .close => some s.close

/-! ## Read completions -/

/-- The session at a read completion, after the bytes have been put in the buffer. -/
def Session.arrive (s : Session) (buffer : MessageBuffer) (chunk : Bytes) : Session :=
  { s with reads := s.reads - 1, readBuffer := buffer, received := s.received ++ chunk }

/-- How the handler of a read completion ends, from the session `t` in which the bytes have
arrived: the front frame is not complete; it is too big; its handler throws; or it is handled. -/
inductive ReadOutcome (sha1 : Sha1) (t : Session) : Session → Prop where
  | wait
    (h : t.readBuffer.activeSize < t.sessionMode.headerSize ∨ t.readBuffer.activeSize <
      t.sessionMode.headerSize + declaredSize t.sessionMode t.readBuffer.active) :
    ReadOutcome sha1 t t.doRead
  | oversized
    (h : t.sessionMode.headerSize + declaredSize t.sessionMode t.readBuffer.active ≤
      t.readBuffer.activeSize)
    (hbig : 2048 < declaredSize t.sessionMode t.readBuffer.active) :
    ReadOutcome sha1 t t.close
  | thrown (p : Packet) (b' : MessageBuffer) (h0 : p.buffer.readPos = 0)
    (hmode : p.mode = t.sessionMode) (hsize : p.payload.length ≤ 2048)
    (hact : t.readBuffer.active = p.buildPacket ++ b'.active) (hthrow : p.throws = true) :
    ReadOutcome sha1 t (t.consume b' p.buildPacket p).close
  | handled (p : Packet) (b' : MessageBuffer) (s' : Session) (h0 : p.buffer.readPos = 0)
    (hmode : p.mode = t.sessionMode) (hsize : p.payload.length ≤ 2048)
    (hact : t.readBuffer.active = p.buildPacket ++ b'.active) (hthrow : p.throws = false)
    (heff : DispatchEffect sha1 (t.consume b' p.buildPacket p) s' p) :
    ReadOutcome sha1 t s'.doRead

/-- **A read completion** of an open session appends the bytes to the active region, and then ends
in one of the four ways. No exception leaves it. -/
lemma Session.readHandler_outcome (sha1 : Sha1) {s : Session} (hopen : s.closed = false)
    (chunk : Bytes) : ∃ b, b.active = s.readBuffer.active ++ chunk ∧
      ReadOutcome sha1 (s.arrive b chunk) (s.readHandler sha1 chunk) := by
  obtain ⟨b, hb, hact⟩ := s.readBuffer.active_receive chunk
  refine ⟨b, hact, ?_⟩
  have hclosed : (s.arrive b chunk).closed = false := hopen
  have hbody : s.readHandler sha1 chunk =
      match processReadBuffer sha1 (s.arrive b chunk) with
      | .error e => { s.arrive b chunk with fault := some (.uncaught e) }
      | .ok s' => if s'.closed then s' else s'.doRead := by
    have hnot : ¬ s.closed = true := by simp [hopen]
    unfold readHandler
    dsimp only
    rw [if_neg hnot, hb]
    rfl
  rcases processReadBuffer_cases sha1 (s.arrive b chunk) with
    ⟨hwait, hres⟩ | ⟨-, hle, hbig, hres⟩ | ⟨p, rest, b', h0, hmode, hsize, hact', rfl, hres⟩
  · rw [hbody, hres]
    simp only [hclosed, Bool.false_eq_true, if_false]
    exact .wait hwait
  · rw [hbody, hres]
    simp only [close_closed, if_true]
    exact .oversized hle hbig
  · rw [hbody, hres]
    dsimp only
    rcases tryDispatch_cases sha1 ((s.arrive b chunk).consume b' p.buildPacket p) h0 with
      ⟨hthrow, htry⟩ | ⟨hthrow, heff⟩
    · rw [htry]
      simp only [close_closed, if_true]
      exact .thrown p b' h0 hmode hsize hact' hthrow
    · have hopen' := heff.closed
      rw [show ((s.arrive b chunk).consume b' p.buildPacket p).closed = false from hopen] at hopen'
      rw [hopen']
      simp only [Bool.false_eq_true, if_false]
      exact .handled p b' _ h0 hmode hsize hact' hthrow heff

/-- A read completion closes the session exactly when the frame at the front makes the reader
close it. -/
lemma ReadOutcome.closed_eq {sha1 : Sha1} {t s' : Session} (h : ReadOutcome sha1 t s')
    (hopen : t.closed = false) : s'.closed = closesReader t.sessionMode t.readBuffer.active := by
  cases h with
  | wait h =>
    have hlt : ¬ t.sessionMode.headerSize + declaredSize t.sessionMode t.readBuffer.active ≤
        t.readBuffer.activeSize := by
      omega
    simp [closesReader, hlt, Session.doRead, hopen]
  | oversized h hbig =>
    simp [closesReader, h, hbig]
  | thrown p b' h0 hmode hsize hact hthrow =>
    rw [Session.close_closed, hact, ← hmode, Packet.closesReader_buildPacket hsize, hthrow]
  | handled p b' s' h0 hmode hsize hact hthrow heff =>
    rw [hact, ← hmode, Packet.closesReader_buildPacket hsize, hthrow]
    exact heff.closed.trans hopen

/-! ## Transitions -/

/-- The ways a step can end. -/
inductive Transition (sha1 : Sha1) (s : Session) : SessionEvent → Session → Prop where
  | readClosed (chunk : Bytes) (hclosed : s.closed = true) (hreads : 0 < s.reads) :
    Transition sha1 s (.read chunk) { s with reads := s.reads - 1 }
  | read (chunk : Bytes) (b : MessageBuffer) (s' : Session) (hopen : s.closed = false)
    (hreads : 0 < s.reads) (hchunk : chunk ≠ []) (hact : b.active = s.readBuffer.active ++ chunk)
    (hout : ReadOutcome sha1 (s.arrive b chunk) s') : Transition sha1 s (.read chunk) s'
  | readError (hreads : 0 < s.reads) :
    Transition sha1 s .readError (Session.close { s with reads := s.reads - 1 })
  | challenge (i : ℕ) (env : ChallengeEnv) (p : AuthPacket) (hp : s.spawned[i]? = some p) :
    Transition sha1 s (.challenge i env)
      (HandlersAuth.handleLogonChallenge { s with spawned := s.spawned.eraseIdx i } p env).2
  | send (i : ℕ) (p : Packet) (hp : s.posted[i]? = some p) :
    Transition sha1 s (.send i) (Session.doSendPacket { s with posted := s.posted.eraseIdx i } p)
  | writeDone (i : ℕ) (m : Bytes) (hm : s.inFlight[i]? = some m) :
    Transition sha1 s (.writeDone i)
      (Session.writeHandler { s with inFlight := s.inFlight.eraseIdx i } m)
  | writeError (i : ℕ) (m : Bytes) (hm : s.inFlight[i]? = some m) :
    Transition sha1 s (.writeError i) (Session.close { s with inFlight := s.inFlight.eraseIdx i })
  | post (packet : Packet) : Transition sha1 s (.post packet) (s.sendPacket packet)
  | close : Transition sha1 s .close s.close

/-- A step is only made without a fault. -/
lemma Session.fault_of_step {sha1 : Sha1} {s s' : Session} {e : SessionEvent}
    (h : s.step sha1 e = some s') : s.fault = none := by
  cases hf : s.fault with
  | none => rfl
  | some f => simp [step, hf] at h

/-- **Inversion**: every step is one of the transitions. -/
lemma Session.step_transition {sha1 : Sha1} {s s' : Session} {e : SessionEvent}
    (h : s.step sha1 e = some s') : Transition sha1 s e s' := by
  have hf : ¬ s.fault.isSome = true := by simp [fault_of_step h]
  simp only [step, if_neg hf] at h
  cases e with
  | read chunk =>
    simp only [Option.ite_none_right_eq_some, Option.some.injEq] at h
    obtain ⟨⟨hreads, hchunk, -⟩, rfl⟩ := h
    cases hc : s.closed with
    | true =>
      have hres : s.readHandler sha1 chunk = { s with reads := s.reads - 1 } := by
        simp [readHandler, hc]
      rw [hres]
      exact .readClosed chunk hc hreads
    | false =>
      obtain ⟨b, hact, hout⟩ := readHandler_outcome sha1 hc chunk
      exact .read chunk b _ hc hreads hchunk hact hout
  | readError =>
    simp only [Option.ite_none_right_eq_some, Option.some.injEq] at h
    obtain ⟨hreads, rfl⟩ := h
    exact .readError hreads
  | challenge i env =>
    simp only [Option.map_eq_some_iff] at h
    obtain ⟨p, hp, rfl⟩ := h
    exact .challenge i env p hp
  | send i =>
    simp only [Option.map_eq_some_iff] at h
    obtain ⟨p, hp, rfl⟩ := h
    exact .send i p hp
  | writeDone i =>
    simp only [Option.map_eq_some_iff] at h
    obtain ⟨m, hm, rfl⟩ := h
    exact .writeDone i m hm
  | writeError i =>
    simp only [Option.map_eq_some_iff] at h
    obtain ⟨m, hm, rfl⟩ := h
    exact .writeError i m hm
  | post packet =>
    simp only [Option.some.injEq] at h
    subst h
    exact .post packet
  | close =>
    simp only [Option.some.injEq] at h
    subst h
    exact .close

end Purity
