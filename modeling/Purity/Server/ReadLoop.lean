import Purity.Server.Step

set_option relaxedAutoImplicit false
set_option autoImplicit false

/-!
# The read loop

A read completion of a session handles what has arrived and then either waits for more or has
closed the session: the loop is never left without a read, and never has two. Along the way the
reader indexes the receive buffer by hand, moves its read position and parses a frame it has cut
out; every one of these could fail, and none does.

## Main definitions

* `Purity.ReaderCall`, `Purity.ReaderCall.Safe` — what a reader does that could fail, and that it
  does not.
* `Purity.processReadBufferTraced` — the reader, with the list of these.
* `Purity.ReadLoop` — the invariant of the loop.

## Main results

* `Purity.readerTraced_snd` — the trace changes nothing.
* `Purity.readerTraced_safe` — every call of a reader is safe.
* `Purity.readLoop_safe` — a read completion leaves the session open with one read outstanding, or
  closed with none and removed.
-/

namespace Purity

/-! ## The calls of a reader -/

/-- What a reader does to the receive buffer and the frame that could go wrong. -/
inductive ReaderCall where
  /-- it reads `data[i]`, where `data` is `read_ptr()` -/
  | index (i : ℕ)
  /-- it copies `n` bytes from `data` on -/
  | copy (n : ℕ)
  /-- `read_completed` returns or throws -/
  | readCompleted (result : Except Exn Unit)
  /-- `deserialize` returns or throws, on a frame whose header the reader decoded to the length
  `size`, and the payload has `payload` bytes -/
  | deserialize (size payload : ℕ) (result : Except Exn Unit)

/-- A call stays inside the active region of the buffer, and does not throw; and `deserialize` finds
the length the reader decoded. -/
def ReaderCall.Safe (buffer : MessageBuffer) : ReaderCall → Prop
  | index i => i < buffer.activeSize
  | copy n => n ≤ buffer.activeSize
  | readCompleted result => result = .ok ()
  | deserialize size payload result => result = .ok () ∧ payload = size

section Format

variable {ω : Type} (fmt : HeaderFormat ω) (toPacket : PacketOf ω → Packet) (emptyStage : ω)
  (dispatch : Session → PacketOf ω → Except Exn Session)

/-- `processReadBufferWith` with its calls: the opcode and the length are read byte by byte, then
the frame is copied, dropped from the buffer and parsed. -/
def processReadBufferTraced (s : Session) : List ReaderCall × Except Exn Session :=
  let buffer := s.readBuffer
  if buffer.activeSize < fmt.headerSize then ([], .ok s)
  else
    let data := buffer.storage.drop buffer.rpos
    let header := (List.range fmt.headerSize).map ReaderCall.index
    let size : UInt16 := (data.getD fmt.width 0).toUInt16 <<< 8 |||
      (data.getD (fmt.width + 1) 0).toUInt16
    if buffer.activeSize < fmt.headerSize + size.toNat then (header, .ok s)
    else if 2048 < size.toNat then (header, .ok s.close)
    else
      let fullPacket := data.take (fmt.headerSize + size.toNat)
      let copied := header ++ [.copy (fmt.headerSize + size.toNat)]
      match buffer.readCompleted (fmt.headerSize + size.toNat) with
      | .error e => (copied ++ [.readCompleted (.error e)], .error e)
      | .ok buffer =>
        let dropped := copied ++ [.readCompleted (.ok ())]
        match PacketOf.deserializeWith fmt { opcode := emptyStage } fullPacket with
        | (.error e, packet) =>
          (dropped ++ [.deserialize size.toNat packet.buffer.size (.error e)],
            .ok (Session.close { s with readBuffer := buffer }))
        | (.ok (), packet) =>
          (dropped ++ [.deserialize size.toNat packet.buffer.size (.ok ())],
            .ok (tryWith dispatch (s.consume buffer fullPacket (toPacket packet)) packet))

/-- Without its calls this is the reader. -/
lemma processReadBufferTraced_snd (s : Session) :
    (processReadBufferTraced fmt toPacket emptyStage dispatch s).2 =
      processReadBufferWith fmt toPacket emptyStage dispatch s := by
  simp only [processReadBufferTraced, processReadBufferWith]
  split_ifs
  · rfl
  · rfl
  · rfl
  · cases s.readBuffer.readCompleted _ with
    | error e => rfl
    | ok buffer =>
      dsimp only
      generalize PacketOf.deserializeWith fmt { opcode := emptyStage } _ = parsed
      obtain ⟨e | u, packet⟩ := parsed
      · rfl
      · rfl

/-- **Every call of a reader is safe.**

**Proof sketch.** The header is indexed once it is there, and the frame copied once it is complete.
Then `read_completed` succeeds, and what was copied is a frame, which `deserialize` accepts with the
length decoded by hand. -/
lemma processReadBufferTraced_safe (s : Session) :
    ∀ call ∈ (processReadBufferTraced fmt toPacket emptyStage dispatch s).1,
      call.Safe s.readBuffer := by
  by_cases hshort : s.readBuffer.activeSize < fmt.headerSize
  · have hnil : (processReadBufferTraced fmt toPacket emptyStage dispatch s).1 = [] := by
      simp only [processReadBufferTraced, if_pos hshort]
    rw [hnil]
    exact nofun
  have hheader : ∀ call ∈ (List.range fmt.headerSize).map ReaderCall.index,
      call.Safe s.readBuffer := by
    intro call hcall
    obtain ⟨i, hi, rfl⟩ := List.mem_map.1 hcall
    have hlt : i < fmt.headerSize := List.mem_range.1 hi
    change i < s.readBuffer.activeSize
    omega
  have hfield := lengthField_eq fmt (b := s.readBuffer) (not_lt.1 hshort)
  simp only [processReadBufferTraced, if_neg hshort, hfield]
  by_cases hwait : s.readBuffer.activeSize <
      fmt.headerSize + Endian.ofBE ((s.readBuffer.active.drop fmt.width).take 2)
  · rw [if_pos hwait]
    exact hheader
  rw [if_neg hwait]
  by_cases hbig : 2048 < Endian.ofBE ((s.readBuffer.active.drop fmt.width).take 2)
  · rw [if_pos hbig]
    exact hheader
  rw [if_neg hbig]
  obtain ⟨o, payload, rest, b', hlen, hact, hact', hb', hcopy⟩ :=
    exists_front fmt rfl (not_lt.1 hwait)
  have hfits : payload.length ≤ 65535 := by omega
  rw [hb', hcopy, PacketOf.deserialize_frame, if_pos hfits]
  intro call hcall
  simp only [List.mem_append, List.mem_singleton] at hcall
  rcases hcall with ((hcall | rfl) | rfl) | rfl
  · exact hheader call hcall
  · exact not_lt.1 hwait
  · rfl
  · exact ⟨rfl, hlen⟩

end Format

/-- The reader of the current mode, with its calls. -/
def readerTraced (sha1 : Sha1) (s : Session) : List ReaderCall × Except Exn Session :=
  match s.sessionMode with
  | .authSession => processReadBufferTraced authFormat .auth AuthOpcodes.emptyStage
      (HandlersAuth.dispatch sha1) s
  | .workSession => processReadBufferTraced workFormat .work WorkOpcodes.emptyStage
      HandlersWork.dispatch s

/-- Without its calls this is `process_read_buffer`. -/
lemma readerTraced_snd (sha1 : Sha1) (s : Session) :
    (readerTraced sha1 s).2 = processReadBuffer sha1 s := by
  unfold readerTraced processReadBuffer
  cases s.sessionMode with
  | authSession => exact processReadBufferTraced_snd _ _ _ _ s
  | workSession => exact processReadBufferTraced_snd _ _ _ _ s

/-- The calls of either reader are safe. -/
lemma readerTraced_safe (sha1 : Sha1) (s : Session) :
    ∀ call ∈ (readerTraced sha1 s).1, call.Safe s.readBuffer := by
  unfold readerTraced
  cases s.sessionMode with
  | authSession => exact processReadBufferTraced_safe _ _ _ _ s
  | workSession => exact processReadBufferTraced_safe _ _ _ _ s

/-! ## The loop -/

/-- The invariant of the read loop: an open session has one read outstanding and a closed one at
most one, a session is registered with the server while it is open, and no exception has left a
handler. -/
structure ReadLoop (s : Session) : Prop where
  reads_open : s.closed = false → s.reads = 1
  reads_le : s.reads ≤ 1
  registered : s.registered = !s.closed
  caught : ∀ e, s.fault ≠ some (.uncaught e)

namespace ReadLoop

/-- It holds in a session just started. -/
lemma start (sha1 : Sha1) : ReadLoop (Session.start sha1) :=
  ⟨fun _ => rfl, le_rfl, rfl, nofun⟩

/-- A task that touches none of this keeps it. -/
lemma of_eq {s s' : Session} (hs : ReadLoop s) (hreads : s'.reads = s.reads)
    (hclosed : s'.closed = s.closed) (hreg : s'.registered = s.registered)
    (hfault : s'.fault = s.fault) : ReadLoop s' := by
  refine ⟨fun h => ?_, ?_, ?_, ?_⟩
  · rw [hreads]
    exact hs.reads_open (hclosed.symm.trans h)
  · rw [hreads]
    exact hs.reads_le
  · rw [hreg, hclosed]
    exact hs.registered
  · rw [hfault]
    exact hs.caught

/-- A `close` keeps it. -/
lemma close {s : Session} (hreads : s.reads ≤ 1) (hreg : s.registered = !s.closed)
    (hcaught : ∀ e, s.fault ≠ some (.uncaught e)) : ReadLoop s.close := by
  refine ⟨fun h => by simp at h, by simpa using hreads, ?_, by simpa using hcaught⟩
  unfold Session.close
  split_ifs with h
  · exact hreg
  · rfl

end ReadLoop

/-- How a read completion leaves the loop: open with one read outstanding, or closed with none and
removed from the server; and without an exception. -/
structure ReadDone (s : Session) : Prop where
  loop : (s.closed = false ∧ s.reads = 1 ∧ s.registered = true) ∨
    (s.closed = true ∧ s.reads = 0 ∧ s.registered = false)
  fault : s.fault = none

/-- What a read completion leaves satisfies the invariant. -/
lemma ReadDone.readLoop {s : Session} (h : ReadDone s) : ReadLoop s := by
  have hcaught : ∀ e, s.fault ≠ some (.uncaught e) := by
    rw [h.fault]
    exact nofun
  rcases h.loop with ⟨hclosed, hreads, hreg⟩ | ⟨hclosed, hreads, hreg⟩
  · exact ⟨fun _ => hreads, hreads.le, by rw [hreg, hclosed]; rfl, hcaught⟩
  · refine ⟨fun hopen => ?_, by omega, by rw [hreg, hclosed]; rfl, hcaught⟩
    rw [hclosed] at hopen
    cases hopen

/-- A read completion that closes the session leaves no read. -/
lemma readDone_close {s : Session} (hreads : s.reads = 0) (hreg : s.registered = !s.closed)
    (hfault : s.fault = none) : ReadDone s.close := by
  refine ⟨.inr ⟨Session.close_closed s, by simpa using hreads, ?_⟩, by simpa using hfault⟩
  unfold Session.close
  split_ifs with h
  · rw [hreg, h]
    rfl
  · rfl

/-- A read completion of an open session, by how it ends. -/
lemma ReadOutcome.readDone {sha1 : Sha1} {t s' : Session} (h : ReadOutcome sha1 t s')
    (hopen : t.closed = false) (hreads : t.reads = 0) (hreg : t.registered = true)
    (hfault : t.fault = none) : ReadDone s' := by
  have hreg' : t.registered = !t.closed := by rw [hreg, hopen]; rfl
  cases h with
  | wait h => exact ⟨.inl ⟨hopen, congrArg (· + 1) hreads, hreg⟩, hfault⟩
  | oversized h hbig => exact readDone_close hreads hreg' hfault
  | thrown p b' h0 hmode hsize hact hthrow =>
    exact readDone_close (s := t.consume b' p.buildPacket p) hreads hreg' hfault
  | handled p b' u h0 hmode hsize hact hthrow heff =>
    refine ⟨.inl ⟨heff.closed.trans hopen, ?_, heff.registered.trans hreg⟩,
      heff.fault.trans hfault⟩
    exact congrArg (· + 1) (heff.reads.trans hreads)

/-- A read completion, with bytes or with an error. -/
def SessionEvent.isRead : SessionEvent → Bool
  | .read _ => true
  | .readError => true
  | _ => false

/-- A read completion leaves the loop as it should be. -/
lemma Transition.readDone {sha1 : Sha1} {s s' : Session} {e : SessionEvent}
    (h : Transition sha1 s e s') (hs : ReadLoop s) (hfault : s.fault = none)
    (he : e.isRead = true) : ReadDone s' := by
  have hle := hs.reads_le
  cases h with
  | readClosed chunk hclosed hreads =>
    refine ⟨.inr ⟨hclosed, ?_, ?_⟩, hfault⟩
    · dsimp only
      omega
    · rw [hs.registered, hclosed]
      rfl
  | read chunk b s' hopen hreads hchunk hact hout =>
    refine hout.readDone hopen ?_ ?_ hfault
    · change s.reads - 1 = 0
      omega
    · change s.registered = true
      rw [hs.registered, hopen]
      rfl
  | readError hreads =>
    have hnone : s.reads - 1 = 0 := by omega
    exact readDone_close (s := { s with reads := s.reads - 1 }) hnone hs.registered hfault
  | challenge i env p hp => cases he
  | send i p hp => cases he
  | writeDone i m hm => cases he
  | writeError i m hm => cases he
  | post p => cases he
  | close => cases he

/-- **One step** keeps the invariant of the loop. -/
lemma ReadLoop.step {sha1 : Sha1} {s s' : Session} {e : SessionEvent} (hs : ReadLoop s)
    (h : s.step sha1 e = some s') : ReadLoop s' := by
  have htrans := Session.step_transition h
  have hread : e.isRead = true → ReadLoop s' := fun he =>
    (htrans.readDone hs (Session.fault_of_step h) he).readLoop
  cases htrans with
  | readClosed chunk hclosed hreads => exact hread rfl
  | read chunk b s' hopen hreads hchunk hact hout => exact hread rfl
  | readError hreads => exact hread rfl
  | challenge i env p hp =>
    have heff := HandlersAuth.handleLogonChallenge_effect
      { s with spawned := s.spawned.eraseIdx i } p env
    exact hs.of_eq (by rw [heff.read]) heff.closed heff.registered heff.fault
  | send i p hp => exact hs.of_eq (by simp) (by simp) (by simp) (by simp)
  | writeDone i m hm =>
    unfold Session.writeHandler
    split
    · exact ⟨hs.reads_open, hs.reads_le, hs.registered, nofun⟩
    · exact hs.of_eq (by simp) (by simp) (by simp) (by simp)
  | writeError i m hm =>
    exact ReadLoop.close (s := { s with inFlight := s.inFlight.eraseIdx i }) hs.reads_le
      hs.registered hs.caught
  | post p => exact hs.of_eq (by simp) (by simp) (by simp) (by simp)
  | close => exact ReadLoop.close hs.reads_le hs.registered hs.caught

/-- **Read-loop safety.** In every state of every run, each read completion ends with the session
open and exactly one `async_read_some` outstanding, or closed with none outstanding and removed from
the server, and no exception leaves its handler. When the session is open and bytes arrive, they fit
the space offered, `write_completed` does not throw, and every call that `process_read_buffer` makes
is safe: it indexes only inside the active region, `read_completed` does not throw, and
`deserialize` accepts the frame with the length the reader decoded. -/
theorem readLoop_safe (sha1 : Sha1) (es : List SessionEvent) (s : Session)
    (h : Run.exec (Session.step sha1) (Session.start sha1) es = some s) :
    (∀ e s', e.isRead = true → s.step sha1 e = some s' → ReadDone s') ∧
    ∀ chunk s', s.closed = false → s.step sha1 (.read chunk) = some s' →
      chunk.length ≤ s.readBuffer.remainingSpace ∧
      ∃ b, s.readBuffer.receive chunk = .ok b ∧
        (readerTraced sha1 (s.arrive b chunk)).2 = processReadBuffer sha1 (s.arrive b chunk) ∧
        ∀ call ∈ (readerTraced sha1 (s.arrive b chunk)).1, call.Safe b := by
  have hs : ReadLoop s :=
    Run.exec_invariant (fun s e s' hs hstep => hs.step hstep) (ReadLoop.start sha1) h
  constructor
  · intro e s' he hstep
    exact (Session.step_transition hstep).readDone hs (Session.fault_of_step hstep) he
  · intro chunk s' hopen hstep
    have hspace : chunk.length ≤ s.readBuffer.remainingSpace := by
      have hf : ¬ s.fault.isSome = true := by simp [Session.fault_of_step hstep]
      simp only [Session.step, if_neg hf, Option.ite_none_right_eq_some] at hstep
      exact hstep.1.2.2 hopen
    obtain ⟨b, hb, -⟩ := s.readBuffer.active_receive chunk
    exact ⟨hspace, b, hb, readerTraced_snd sha1 (s.arrive b chunk),
      readerTraced_safe sha1 (s.arrive b chunk)⟩

/-- A ping without its number closes the session, and no read is left. -/
theorem readLoop_safe_short_ping :
    ∃ s s', Run.exec (Session.step SRP6.sampleSha1) (Session.start SRP6.sampleSha1)
        [.read [1, 0]] = some s ∧
      s.step SRP6.sampleSha1 (.read [0]) = some s' ∧ s'.closed = true ∧ ReadDone s' := by
  have hrun : ((Run.exec (Session.step SRP6.sampleSha1) (Session.start SRP6.sampleSha1)
      [.read [1, 0]]).bind fun s => s.step SRP6.sampleSha1 (.read [0])).map (·.closed) =
        some true := by
    decide +kernel
  obtain ⟨s', hlast, hclosed⟩ := Option.map_eq_some_iff.1 hrun
  obtain ⟨s, hs, hstep⟩ := Option.bind_eq_some_iff.1 hlast
  exact ⟨s, s', hs, hstep, hclosed, (readLoop_safe SRP6.sampleSha1 _ s hs).1 _ s' rfl hstep⟩

end Purity
