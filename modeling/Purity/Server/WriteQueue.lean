import Purity.Server.Step

set_option relaxedAutoImplicit false
set_option autoImplicit false

/-!
# The write queue

Packets to a client go through `write_queue_`: `do_send_packet` appends a frame and starts an
`async_write` if none is running, and the completion handler pops the front and starts the next.
`close` empties the queue, also while a write is outstanding.

## Main definitions

* `Purity.WriterStep` — what a step does to the writer's part of the state.
* `Purity.WriteState.InOrder` — the writer of an open session between two handlers.
* `Purity.WriteFront` — every outstanding write was given the front of the queue, and its
  completion pops that message.
* `Purity.Session.Closes` — an event that closes an open session.

## Main results

* `Purity.writes_inOrder` — while a session is open, frames are written exactly once and in order.
* `Purity.writeFront_iff_closesIdle` — a run always has `WriteFront` exactly when nothing closes
  the open session while a write is outstanding.

## Implementation notes

The two results share `WriterStep`, and differ in what they assume about `close`. In the second
one `close` after a failed write needs no condition: that write is no longer outstanding.
-/

namespace Purity

/-! ## What a step does to the writer -/

/-- The event closes the open session, by a `close` other than the one after a failed write. -/
def Session.Closes (s : Session) (e : SessionEvent) : Prop :=
  s.closed = false ∧
    match e with
    | .read chunk => closesReader s.sessionMode (s.readBuffer.active ++ chunk) = true
    | .readError => True
    | .close => True
    | _ => False

/-- What a step does to the writer's part: nothing; a `close` of the open session, which empties
the queue and leaves the rest alone; or the work of a writer's own event. -/
inductive WriterStep (s : Session) : SessionEvent → Session → Prop where
  | idle (e : SessionEvent) (s' : Session) (hwrite : s'.toWriteState = s.toWriteState)
    (hclosed : s'.closed = s.closed) (he : ¬ s.Closes e) : WriterStep s e s'
  | close (e : SessionEvent) (s' : Session) (he : s.Closes e) (hclosed : s'.closed = true)
    (hwrite : s'.toWriteState = { s.toWriteState with writeQueue := [] }) : WriterStep s e s'
  | send (i : ℕ) (p : Packet) (hp : s.posted[i]? = some p) :
    WriterStep s (.send i) (Session.doSendPacket { s with posted := s.posted.eraseIdx i } p)
  | writeDone (i : ℕ) (m : Bytes) (hm : s.inFlight[i]? = some m) :
    WriterStep s (.writeDone i)
      (Session.writeHandler { s with inFlight := s.inFlight.eraseIdx i } m)
  | writeError (i : ℕ) (m : Bytes) (hm : s.inFlight[i]? = some m) :
    WriterStep s (.writeError i) (Session.close { s with inFlight := s.inFlight.eraseIdx i })

/-- The writer's part after the first `close`. -/
lemma Session.close_toWriteState {s : Session} (h : s.closed = false) :
    s.close.toWriteState = { s.toWriteState with writeQueue := [] } := by
  simp [close, h]

/-- A call of `close` that is not the writer's own is idle or closes the open session. -/
lemma WriterStep.of_close {s t : Session} {e : SessionEvent}
    (hwrite : t.toWriteState = s.toWriteState) (hclosed : t.closed = s.closed)
    (he : s.closed = false → s.Closes e) : WriterStep s e t.close := by
  cases hc : s.closed with
  | true =>
    rw [Session.close_of_closed (hclosed.trans hc)]
    refine .idle e t hwrite hclosed fun h => ?_
    simp [Session.Closes, hc] at h
  | false =>
    refine .close e _ (he hc) (Session.close_closed t) ?_
    rw [Session.close_toWriteState (hclosed.trans hc), hwrite]

/-- A read completion of an open session is idle or closes it. -/
lemma ReadOutcome.writer {sha1 : Sha1} {s s' : Session} {b : MessageBuffer} {chunk : Bytes}
    (hopen : s.closed = false) (hact : b.active = s.readBuffer.active ++ chunk)
    (h : ReadOutcome sha1 (s.arrive b chunk) s') : WriterStep s (.read chunk) s' := by
  have hcloses : s.Closes (.read chunk) ↔ s'.closed = true := by
    rw [h.closed_eq hopen]
    simp only [Session.Closes, hopen, true_and, ← hact]
    rfl
  cases h with
  | wait h =>
    refine .idle _ _ rfl rfl ?_
    rw [hcloses]
    simp [Session.doRead, Session.arrive, hopen]
  | oversized h hbig =>
    exact .of_close rfl rfl fun _ => hcloses.2 (Session.close_closed _)
  | thrown p b' h0 hmode hsize hact' hthrow =>
    exact .of_close rfl rfl fun _ => hcloses.2 (Session.close_closed _)
  | handled p b' t h0 hmode hsize hact' hthrow heff =>
    have hclosed : t.doRead.closed = s.closed := heff.closed
    refine .idle _ _ heff.write hclosed ?_
    rw [hcloses, hclosed]
    simp [hopen]

/-- **Every step is a writer step.** -/
lemma Transition.writer {sha1 : Sha1} {s s' : Session} {e : SessionEvent}
    (h : Transition sha1 s e s') : WriterStep s e s' := by
  cases h with
  | readClosed chunk hclosed hreads =>
    exact .idle _ _ rfl rfl fun h => by simp [Session.Closes, hclosed] at h
  | read chunk b s' hopen hreads hchunk hact hout => exact hout.writer hopen hact
  | readError hreads => exact .of_close rfl rfl fun hopen => ⟨hopen, trivial⟩
  | challenge i env p hp =>
    have heff := HandlersAuth.handleLogonChallenge_effect
      { s with spawned := s.spawned.eraseIdx i } p env
    exact .idle _ _ heff.write heff.closed fun h => h.2
  | send i p hp => exact .send i p hp
  | writeDone i m hm => exact .writeDone i m hm
  | writeError i m hm => exact .writeError i m hm
  | post p => exact .idle _ _ (by simp) (by simp) fun h => h.2
  | close => exact .of_close rfl rfl fun hopen => ⟨hopen, trivial⟩

/-! ## Writing in order -/

/-- The writer of an open session between two handlers: the write outstanding, if any, is that of
the front; the flag says whether there is one; and what was written followed by the queue is what
was passed to `do_send_packet`. -/
structure WriteState.InOrder (w : WriteState) : Prop where
  inFlight : w.inFlight = w.writeQueue.take 1
  writing : w.writing = true ↔ w.writeQueue ≠ []
  written : w.completed ++ w.writeQueue = w.executed.map Packet.buildPacket
  started : w.started = w.completed ++ w.inFlight

namespace Session

/-- `do_write` puts the writer in order, once the history is right and nothing is outstanding. -/
lemma doWrite_inOrder {s : Session} (hflight : s.inFlight = [])
    (hwritten : s.completed ++ s.writeQueue = s.executed.map Packet.buildPacket)
    (hstarted : s.started = s.completed) : s.doWrite.InOrder := by
  unfold doWrite
  cases hq : s.writeQueue with
  | nil =>
    rw [hq] at hwritten
    constructor <;> simp [hflight, hstarted, ← hwritten]
  | cons front rest =>
    rw [hq] at hwritten
    constructor <;> simp [hflight, hstarted, ← hwritten]

/-- `do_send_packet` keeps the writer in order. -/
lemma doSendPacket_inOrder {s : Session} (h : s.InOrder) (p : Packet) :
    (s.doSendPacket p).InOrder := by
  have hwritten : s.completed ++ (s.writeQueue ++ [p.buildPacket]) =
      (s.executed ++ [p]).map Packet.buildPacket := by
    rw [← List.append_assoc, h.written, List.map_append, List.map_singleton]
  unfold doSendPacket
  cases hw : s.writing with
  | false =>
    -- nothing is outstanding, so a write of the new front starts
    have hq : s.writeQueue = [] := by
      by_contra hne
      simp [h.writing.2 hne] at hw
    have hflight : s.inFlight = [] := by rw [h.inFlight, hq]; rfl
    have hstarted : s.started = s.completed := by rw [h.started, hflight, List.append_nil]
    exact doWrite_inOrder hflight hwritten hstarted
  | true =>
    -- the write of the front goes on
    obtain ⟨front, rest, hq⟩ := List.exists_cons_of_ne_nil (h.writing.1 hw)
    have hflight := h.inFlight
    constructor
    · simpa [hq] using hflight
    · simp
    · exact hwritten
    · exact h.started

/-- An outstanding write of a writer in order is the only one, and was given the front. -/
lemma inOrder_outstanding {s : Session} (h : s.InOrder) {i : ℕ} {m : Bytes}
    (hm : s.inFlight[i]? = some m) :
    s.inFlight.eraseIdx i = [] ∧ ∃ rest, s.writeQueue = m :: rest := by
  rw [h.inFlight] at hm ⊢
  cases hq : s.writeQueue with
  | nil => simp [hq] at hm
  | cons front rest =>
    rw [hq] at hm
    cases i with
    | zero =>
      obtain rfl : front = m := by simpa using hm
      exact ⟨rfl, rest, rfl⟩
    | succ i => simp at hm

/-- A successful completion keeps the writer in order. -/
lemma writeHandler_inOrder {s : Session} (h : s.InOrder) {i : ℕ} {m : Bytes}
    (hm : s.inFlight[i]? = some m) :
    (writeHandler { s with inFlight := s.inFlight.eraseIdx i } m).InOrder := by
  obtain ⟨herase, rest, hq⟩ := inOrder_outstanding h hm
  have hwritten := h.written
  have hstarted := h.started
  have hflight := h.inFlight
  rw [hq] at hwritten hflight
  simp only [writeHandler, hq]
  refine doWrite_inOrder herase ?_ ?_
  · simpa using hwritten
  · simpa [hflight] using hstarted

end Session

/-- One step keeps the writer of an open session in order. -/
lemma WriterStep.inOrder {s s' : Session} {e : SessionEvent} (h : WriterStep s e s')
    (hs : s.closed = false → s.InOrder) (hopen : s'.closed = false) : s'.InOrder := by
  cases h with
  | idle e s' hwrite hclosed he =>
    rw [hwrite]
    exact hs (hclosed.symm.trans hopen)
  | close e s' he hclosed hwrite => simp [hclosed] at hopen
  | send i p hp =>
    rw [Session.doSendPacket_closed] at hopen
    exact Session.doSendPacket_inOrder (s := { s with posted := s.posted.eraseIdx i })
      (hs hopen) p
  | writeDone i m hm =>
    rw [Session.writeHandler_closed] at hopen
    exact Session.writeHandler_inOrder (hs hopen) hm
  | writeError i m hm => simp at hopen

/-- **Exactly-once in-order writing.** In every state of every run in which the session is not
closed, at most one `async_write` is outstanding, `writing_` is true iff one is outstanding iff
`write_queue_` is non-empty, the write outstanding is that of the front, the messages given to
`async_write` are those whose write has completed and the outstanding one, and the frames whose
write has completed, followed by the queue, are `build_packet()` of the packets passed to
`do_send_packet`, in order.

**Proof sketch.** `WriteState.InOrder` is an invariant of the steps that leave the session open:
sends and completions keep it, and nothing else touches the writer. -/
theorem writes_inOrder (sha1 : Sha1) (es : List SessionEvent) (s : Session)
    (h : Run.exec (Session.step sha1) (Session.start sha1) es = some s) (hopen : s.closed = false) :
    s.inFlight.length ≤ 1 ∧
    (s.writing = true ↔ s.inFlight ≠ []) ∧
    (s.writing = true ↔ s.writeQueue ≠ []) ∧
    s.inFlight = s.writeQueue.take 1 ∧
    s.started = s.completed ++ s.inFlight ∧
    s.completed ++ s.writeQueue = s.executed.map Packet.buildPacket := by
  have hinv : s.closed = false → s.InOrder := by
    refine Run.exec_invariant (I := fun s => s.closed = false → s.InOrder) ?_ ?_ h
    · intro s e s' hs hstep
      exact (Session.step_transition hstep).writer.inOrder hs
    · intro _
      constructor <;> simp [Session.start, Session.doRead]
  obtain ⟨hflight, hwriting, hwritten, hstarted⟩ := hinv hopen
  have hne : s.inFlight ≠ [] ↔ s.writeQueue ≠ [] := by
    rw [hflight, ne_eq, List.take_eq_nil_iff]
    simp
  refine ⟨?_, hwriting.trans hne.symm, hwriting, hflight, hstarted, hwritten⟩
  rw [hflight]
  exact List.length_take_le 1 _

/-- A ping has been answered, and its `SMSG_PONG` is being written. -/
theorem writes_inOrder_pong :
    ∃ s, Run.exec (Session.step SRP6.sampleSha1) (Session.start SRP6.sampleSha1)
        [.read [1, 0, 4, 1, 2, 3, 4], .send 0] = some s ∧
      s.closed = false ∧ s.inFlight = [[2, 0, 4, 1, 2, 3, 4]] ∧
      s.inFlight = s.writeQueue.take 1 ∧
      s.completed ++ s.writeQueue = s.executed.map Packet.buildPacket := by
  have hrun : (Run.exec (Session.step SRP6.sampleSha1) (Session.start SRP6.sampleSha1)
      [.read [1, 0, 4, 1, 2, 3, 4], .send 0]).map (fun s => (s.closed, s.inFlight)) =
      some (false, [[2, 0, 4, 1, 2, 3, 4]]) := by
    decide +kernel
  obtain ⟨s, hs, hval⟩ := Option.map_eq_some_iff.1 hrun
  obtain ⟨hopen, hflight⟩ := Prod.mk.inj hval
  obtain ⟨-, -, -, hfront, -, hwritten⟩ := writes_inOrder SRP6.sampleSha1 _ s hs hopen
  exact ⟨s, hs, hopen, hflight, hfront, hwritten⟩

/-! ## Closing -/

/-- At most one write is outstanding, and only while `writing_` is set. -/
structure WriteState.Single (w : WriteState) : Prop where
  length_le : w.inFlight.length ≤ 1
  writing : w.writing = false → w.inFlight = []

/-- Every outstanding write was given the front of `write_queue_`, and the `pop_front` of a
successful completion removes exactly the message written. -/
structure WriteFront (sha1 : Sha1) (s : Session) : Prop where
  front : ∀ m ∈ s.inFlight, s.writeQueue.head? = some m
  pop : ∀ i s', s.step sha1 (.writeDone i) = some s' →
    s'.fault = none ∧ ∃ m, s.inFlight[i]? = some m ∧ s.writeQueue = m :: s'.writeQueue

/-- If the event closes the open session, no write is outstanding. -/
def ClosesIdle (s : Session) (e : SessionEvent) : Prop := s.Closes e → s.inFlight = []

namespace WriteState.Single

/-- With at most one write outstanding, the completion of one leaves none. -/
lemma eraseIdx_eq_nil {w : WriteState} (h : w.Single) {i : ℕ} {m : Bytes}
    (hm : w.inFlight[i]? = some m) : w.inFlight.eraseIdx i = [] := by
  obtain ⟨hi, -⟩ := List.getElem?_eq_some_iff.1 hm
  have hle := h.length_le
  rw [← List.length_eq_zero_iff, List.length_eraseIdx_of_lt hi]
  omega

end WriteState.Single

namespace Session

/-- `do_write` with nothing outstanding starts at most one write, of the front. -/
lemma doWrite_single {s : Session} (h : s.inFlight = []) :
    s.doWrite.Single ∧ ∀ m ∈ s.doWrite.inFlight, s.doWrite.writeQueue.head? = some m := by
  rw [doWrite_writeQueue]
  unfold doWrite
  cases hq : s.writeQueue with
  | nil => exact ⟨⟨by simp [h], fun _ => h⟩, by simp [h]⟩
  | cons front rest => exact ⟨⟨by simp [h], by simp⟩, by simp [h]⟩

/-- `do_send_packet` keeps at most one write outstanding. -/
lemma doSendPacket_single {s : Session} (h : s.Single) (p : Packet) :
    (s.doSendPacket p).Single := by
  unfold doSendPacket
  cases hw : s.writing with
  | false =>
    refine (doWrite_single ?_).1
    exact h.writing hw
  | true => exact ⟨h.length_le, by simp⟩

/-- `do_send_packet` keeps the outstanding write at the front. -/
lemma doSendPacket_front {s : Session} (h : s.Single)
    (hfront : ∀ m ∈ s.inFlight, s.writeQueue.head? = some m) (p : Packet) :
    ∀ m ∈ (s.doSendPacket p).inFlight, (s.doSendPacket p).writeQueue.head? = some m := by
  unfold doSendPacket
  cases hw : s.writing with
  | false =>
    refine (doWrite_single ?_).2
    exact h.writing hw
  | true =>
    intro m hm
    have hhead := hfront m hm
    simp [List.head?_append, hhead]

/-- The completion of the only outstanding write leaves at most one outstanding. -/
lemma writeHandler_single {s : Session} (h : s.inFlight = []) (m : Bytes) :
    (s.writeHandler m).Single ∧
      ∀ m' ∈ (s.writeHandler m).inFlight, (s.writeHandler m).writeQueue.head? = some m' := by
  unfold writeHandler
  split
  · exact ⟨⟨by simp [h], fun _ => h⟩, by simp [h]⟩
  · exact doWrite_single h

/-- The front of the queue is what a completion pops, without a fault. -/
lemma writeFront_of_front (sha1 : Sha1) {s : Session}
    (h : ∀ m ∈ s.inFlight, s.writeQueue.head? = some m) : WriteFront sha1 s := by
  refine ⟨h, fun i s' hstep => ?_⟩
  have hfault := fault_of_step hstep
  cases step_transition hstep with
  | writeDone i m hm =>
    obtain ⟨rest, hq⟩ := List.head?_eq_some_iff.1 (h m (List.mem_of_getElem? hm))
    simp only [writeHandler, hq, doWrite_fault, doWrite_writeQueue]
    exact ⟨hfault, m, hm, rfl⟩

end Session

/-- A step keeps at most one write outstanding. -/
lemma WriterStep.single {s s' : Session} {e : SessionEvent} (h : WriterStep s e s')
    (hs : s.Single) : s'.Single := by
  cases h with
  | idle e s' hwrite hclosed he => rwa [hwrite]
  | close e s' he hclosed hwrite =>
    rw [hwrite]
    exact ⟨hs.length_le, hs.writing⟩
  | send i p hp =>
    exact Session.doSendPacket_single (s := { s with posted := s.posted.eraseIdx i }) hs p
  | writeDone i m hm => exact (Session.writeHandler_single (hs.eraseIdx_eq_nil hm) m).1
  | writeError i m hm =>
    have hflight := hs.eraseIdx_eq_nil hm
    constructor <;> simp [hflight]

/-- **One step**: the outstanding write is still at the front exactly if the step did not close
the session under it.

**Proof sketch.** A `close` leaves an empty queue, whose front is no message; every other step
keeps the front of the queue as long as a write of it is outstanding. -/
lemma WriterStep.front_iff {s s' : Session} {e : SessionEvent} (h : WriterStep s e s')
    (hs : s.Single) (hfront : ∀ m ∈ s.inFlight, s.writeQueue.head? = some m) :
    (∀ m ∈ s'.inFlight, s'.writeQueue.head? = some m) ↔ ClosesIdle s e := by
  cases h with
  | idle e s' hwrite hclosed he =>
    rw [hwrite]
    exact iff_of_true hfront fun hc => absurd hc he
  | close e s' he hclosed hwrite =>
    rw [hwrite]
    simp only [List.head?_nil, reduceCtorEq, imp_false, ClosesIdle, he, forall_const]
    exact List.eq_nil_iff_forall_not_mem.symm
  | send i p hp =>
    refine iff_of_true ?_ fun hc => hc.2.elim
    exact Session.doSendPacket_front (s := { s with posted := s.posted.eraseIdx i }) hs hfront p
  | writeDone i m hm =>
    refine iff_of_true ?_ fun hc => hc.2.elim
    exact (Session.writeHandler_single (hs.eraseIdx_eq_nil hm) m).2
  | writeError i m hm =>
    refine iff_of_true ?_ fun hc => hc.2.elim
    simp [hs.eraseIdx_eq_nil hm]

/-- **Write queue and close.** Along every run, the outstanding write is always that of the front
element, and its completion always pops exactly that message, if and only if every step that
closes the open session (other than by the write's own error) finds no write outstanding.

**Proof sketch.** `WriterStep.front_iff` is the exact step condition, under the invariant that at
most one write is outstanding. -/
theorem writeFront_iff_closesIdle (sha1 : Sha1) (es : List SessionEvent) :
    Run.Always (Session.step sha1) (WriteFront sha1) (Session.start sha1) es ↔
      Run.StepsMeet (Session.step sha1) ClosesIdle (Session.start sha1) es := by
  refine Run.always_iff_stepsMeet (I := fun s => s.Single) ?_ ?_ ?_ ?_ es
  · intro s e s' hs hstep
    exact (Session.step_transition hstep).writer.single hs
  · intro s e s' hs hP hstep
    rw [← (Session.step_transition hstep).writer.front_iff hs hP.front]
    exact ⟨fun h => h.front, Session.writeFront_of_front sha1⟩
  · constructor <;> simp [Session.start, Session.doRead]
  · exact Session.writeFront_of_front sha1 (by simp [Session.start, Session.doRead])

/-- The client disconnects while its `SMSG_PONG` is being written: the queue is empty with the write
outstanding, and if the write completes with success, `pop_front` runs on the empty queue. -/
theorem close_under_write :
    ¬ Run.Always (Session.step SRP6.sampleSha1) (WriteFront SRP6.sampleSha1)
        (Session.start SRP6.sampleSha1) [.read [1, 0, 4, 1, 2, 3, 4], .send 0, .readError] ∧
    (Run.exec (Session.step SRP6.sampleSha1) (Session.start SRP6.sampleSha1)
        [.read [1, 0, 4, 1, 2, 3, 4], .send 0, .readError, .writeDone 0]).map (·.fault) =
      some (some .popEmpty) := by
  refine ⟨fun h => ?_, by decide +kernel⟩
  have hrun : (Run.exec (Session.step SRP6.sampleSha1) (Session.start SRP6.sampleSha1)
      [.read [1, 0, 4, 1, 2, 3, 4], .send 0, .readError]).map
        (fun s => (s.inFlight, s.writeQueue)) = some ([[2, 0, 4, 1, 2, 3, 4]], []) := by
    decide +kernel
  obtain ⟨s, hs, hval⟩ := Option.map_eq_some_iff.1 hrun
  obtain ⟨hflight, hqueue⟩ := Prod.mk.inj hval
  have hfront := (h.last hs).front [2, 0, 4, 1, 2, 3, 4]
    (by rw [hflight]; exact List.mem_singleton_self _)
  rw [hqueue] at hfront
  cases hfront

end Purity
