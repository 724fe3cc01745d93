import Purity.Server.Step

set_option relaxedAutoImplicit false
set_option autoImplicit false

/-!
# The read path

The bytes a session receives pass through `read_buffer_` to the reader of the current mode, which
cuts them into frames. The mode is `AUTH_SESSION` until a dispatched packet switches it, so the
frames dispatched so far determine it.

## Main definitions

* `Purity.modeAfter`, `Purity.WellModed` — the mode after a list of packets, and the lists in which
  every packet has the framing of the mode it is parsed in.
* `Purity.ReaderStep` — what a step does to the reader's part of the state.
* `Purity.Dispatched.Exact` — a packet has the opcode and the payload of its raw frame.

## Main results

* `Purity.ReadInvariant.step` — the invariant of the read path.
* `Purity.received_eq_dispatched_append_active` — no byte is lost, duplicated, reordered or
  overwritten.
-/

namespace Purity

/-! ## Modes -/

/-- The mode after the packet has been handled in `mode`. -/
def Packet.nextMode (p : Packet) (mode : SessionMode) : SessionMode :=
  if p.switches then .workSession else mode

/-- The mode after the packets have been handled, from `mode`. -/
def modeAfter (mode : SessionMode) (ps : List Packet) : SessionMode :=
  ps.foldl (fun m p => p.nextMode m) mode

/-- Every packet has the framing of the mode it is parsed in: Auth frames up to and including the
one whose handling switches the mode, and Work frames after it. -/
def WellModed : SessionMode → List Packet → Prop
  | _, [] => True
  | mode, p :: ps => p.mode = mode ∧ WellModed (p.nextMode mode) ps

@[simp] lemma modeAfter_nil (mode : SessionMode) : modeAfter mode [] = mode := rfl

@[simp] lemma modeAfter_cons (mode : SessionMode) (p : Packet) (ps : List Packet) :
    modeAfter mode (p :: ps) = modeAfter (p.nextMode mode) ps := rfl

@[simp] lemma modeAfter_concat (mode : SessionMode) (ps : List Packet) (p : Packet) :
    modeAfter mode (ps ++ [p]) = p.nextMode (modeAfter mode ps) := by
  simp [modeAfter]

/-- The next packet of a well-moded list has the framing of the mode reached. -/
lemma WellModed.mode_eq {mode : SessionMode} {ps qs : List Packet} {p : Packet}
    (h : WellModed mode (ps ++ p :: qs)) : p.mode = modeAfter mode ps := by
  induction ps generalizing mode with
  | nil => exact h.1
  | cons q ps ih => exact ih h.2

/-- The mode is `WORK_SESSION` once a packet switched it, or if it was from the start. -/
lemma modeAfter_eq_work_iff (mode : SessionMode) (ps : List Packet) :
    modeAfter mode ps = .workSession ↔ mode = .workSession ∨ ∃ p ∈ ps, p.switches = true := by
  induction ps generalizing mode with
  | nil => simp
  | cons p ps ih =>
    rw [modeAfter_cons, ih]
    cases hp : p.switches <;> simp [Packet.nextMode, hp]

/-- The bytes of a list of packets on the wire. -/
def streamOf (ps : List Packet) : Bytes := (ps.map Packet.buildPacket).flatten

@[simp] lemma streamOf_nil : streamOf [] = [] := rfl

@[simp] lemma streamOf_cons (p : Packet) (ps : List Packet) :
    streamOf (p :: ps) = p.buildPacket ++ streamOf ps := rfl

@[simp] lemma streamOf_append (ps qs : List Packet) :
    streamOf (ps ++ qs) = streamOf ps ++ streamOf qs := by
  simp [streamOf]

/-! ## What a step does to the reader -/

/-- The front of `data` is not a complete frame. -/
def Incomplete (mode : SessionMode) (data : Bytes) : Prop :=
  data.length < mode.headerSize ∨ data.length < mode.headerSize + declaredSize mode data

/-- What a step does to the reader's part: nothing (but a `close` may empty the buffer); or, when
it is a read completion of an open session, the bytes arrive and the front is incomplete, is too
big, or is a frame that is consumed and dispatched. -/
inductive ReaderStep (s : Session) : SessionEvent → Session → Prop where
  | idle (e : SessionEvent) (s' : Session) (hrecv : s'.received = s.received)
    (hdisp : s'.dispatched = s.dispatched) (hmode : s'.sessionMode = s.sessionMode)
    (hauth : s'.isAuth = s.isAuth)
    (hact : s'.closed = false → s.closed = false ∧ s'.readBuffer.active = s.readBuffer.active)
    (he : s.closed = false → ∀ chunk, e ≠ .read chunk) : ReaderStep s e s'
  | wait (chunk : Bytes) (s' : Session) (hopen : s.closed = false)
    (hwait : Incomplete s.sessionMode (s.readBuffer.active ++ chunk))
    (hrecv : s'.received = s.received ++ chunk) (hdisp : s'.dispatched = s.dispatched)
    (hmode : s'.sessionMode = s.sessionMode) (hauth : s'.isAuth = s.isAuth)
    (hopen' : s'.closed = false)
    (hact : s'.readBuffer.active = s.readBuffer.active ++ chunk) : ReaderStep s (.read chunk) s'
  | oversized (chunk : Bytes) (s' : Session) (hopen : s.closed = false)
    (hsize : s.sessionMode.headerSize +
      declaredSize s.sessionMode (s.readBuffer.active ++ chunk) ≤
        (s.readBuffer.active ++ chunk).length)
    (hbig : 2048 < declaredSize s.sessionMode (s.readBuffer.active ++ chunk))
    (hdisp : s'.dispatched = s.dispatched) (hmode : s'.sessionMode = s.sessionMode)
    (hauth : s'.isAuth = s.isAuth) (hclosed : s'.closed = true) : ReaderStep s (.read chunk) s'
  | frame (chunk : Bytes) (s' : Session) (p : Packet) (rest : Bytes) (hopen : s.closed = false)
    (h0 : p.buffer.readPos = 0) (hframing : p.mode = s.sessionMode)
    (hsize : p.payload.length ≤ 2048)
    (hdata : s.readBuffer.active ++ chunk = p.buildPacket ++ rest)
    (hrecv : s'.received = s.received ++ chunk)
    (hdisp : s'.dispatched = s.dispatched ++ [⟨s.sessionMode, p.buildPacket, p⟩])
    (hmode : s'.sessionMode = p.nextMode s.sessionMode)
    (hauth : s'.isAuth = (p.switches || s.isAuth)) (hclosed : s'.closed = p.throws)
    (hact : s'.closed = false → s'.readBuffer.active = rest) : ReaderStep s (.read chunk) s'

/-- A packet whose handler throws does not switch the mode. -/
lemma Packet.switches_of_throws {p : Packet} (h : p.throws = true) : p.switches = false := by
  cases p with
  | auth p =>
    obtain ⟨hop, -⟩ : p.opcode = AuthOpcodes.cmsgPing ∧ p.buffer.size < 4 := by
      simpa [throws] using h
    exact switches_of_opcode_ne (by rw [hop]; decide)
  | work p => rfl

/-- The step of a `close` of a session whose history and mode are those of `s`. -/
lemma ReaderStep.of_close {s t : Session} {e : SessionEvent} (hrecv : t.received = s.received)
    (hdisp : t.dispatched = s.dispatched) (hauth : t.toAuthState = s.toAuthState)
    (he : ∀ chunk, e ≠ .read chunk) : ReaderStep s e t.close := by
  refine .idle e _ ?_ ?_ ?_ ?_ (fun h => by simp at h) fun _ => he
  · rw [Session.close_received, hrecv]
  · rw [Session.close_dispatched, hdisp]
  · rw [Session.close_toAuthState, hauth]
  · rw [Session.close_toAuthState, hauth]

/-- The step of a task that leaves the reader's part alone. -/
lemma ReaderStep.of_read {s t : Session} {e : SessionEvent} (hread : t.toReadState = s.toReadState)
    (hmode : t.sessionMode = s.sessionMode) (hauth : t.isAuth = s.isAuth)
    (hclosed : t.closed = s.closed) (he : ∀ chunk, e ≠ .read chunk) : ReaderStep s e t := by
  refine .idle e _ ?_ ?_ hmode hauth (fun h => ⟨hclosed.symm.trans h, ?_⟩) fun _ => he
  · rw [hread]
  · rw [hread]
  · rw [hread]

/-- A read completion of an open session is a reader step. -/
lemma ReadOutcome.reader {sha1 : Sha1} {s s' : Session} {b : MessageBuffer} {chunk : Bytes}
    (hopen : s.closed = false) (hact : b.active = s.readBuffer.active ++ chunk)
    (h : ReadOutcome sha1 (s.arrive b chunk) s') : ReaderStep s (.read chunk) s' := by
  have hlen : b.activeSize = (s.readBuffer.active ++ chunk).length := by
    rw [← hact, MessageBuffer.length_active]
  cases h with
  | wait h =>
    simp only [Session.arrive, hact, hlen] at h
    refine .wait chunk _ hopen h rfl rfl rfl rfl hopen ?_
    rw [← hact]
    exact MessageBuffer.active_ensureFreeSpace b 512
  | oversized h hbig =>
    simp only [Session.arrive, hact, hlen] at h hbig
    refine .oversized chunk _ hopen h hbig ?_ ?_ ?_ (Session.close_closed _)
    · rw [Session.close_dispatched]; rfl
    · rw [Session.close_toAuthState]; rfl
    · rw [Session.close_toAuthState]; rfl
  | thrown p b' h0 hmode hsize hdata hthrow =>
    have hsw := Packet.switches_of_throws hthrow
    refine .frame chunk _ p b'.active hopen h0 hmode hsize (hact.symm.trans hdata) ?_ ?_ ?_ ?_ ?_
      (fun h => by simp at h)
    · rw [Session.close_received]; rfl
    · rw [Session.close_dispatched]; rfl
    · rw [Session.close_toAuthState, Packet.nextMode, hsw]; rfl
    · rw [Session.close_toAuthState, hsw]; rfl
    · rw [Session.close_closed, hthrow]
  | handled p b' t h0 hmode hsize hdata hthrow heff =>
    refine .frame chunk _ p b'.active hopen h0 hmode hsize (hact.symm.trans hdata) heff.received
      heff.dispatched heff.mode heff.isAuth ?_ fun _ => ?_
    · exact heff.closed.trans (hopen.trans hthrow.symm)
    · have hbuf : t.readBuffer = b' := heff.readBuffer
      rw [← hbuf]
      exact MessageBuffer.active_ensureFreeSpace t.readBuffer 512

/-- **Every step is a reader step.** -/
lemma Transition.reader {sha1 : Sha1} {s s' : Session} {e : SessionEvent}
    (h : Transition sha1 s e s') : ReaderStep s e s' := by
  cases h with
  | readClosed chunk hclosed hreads =>
    exact .idle _ _ rfl rfl rfl rfl (fun h => ⟨h, rfl⟩) fun h => by simp [hclosed] at h
  | read chunk b s' hopen hreads hchunk hact hout => exact hout.reader hopen hact
  | readError hreads => exact .of_close rfl rfl rfl fun _ => nofun
  | challenge i env p hp =>
    have heff := HandlersAuth.handleLogonChallenge_effect
      { s with spawned := s.spawned.eraseIdx i } p env
    exact .of_read heff.read heff.mode heff.isAuth heff.closed fun _ => nofun
  | send i p hp => exact .of_read (by simp) (by simp) (by simp) (by simp) fun _ => nofun
  | writeDone i m hm => exact .of_read (by simp) (by simp) (by simp) (by simp) fun _ => nofun
  | writeError i m hm => exact .of_close rfl rfl rfl fun _ => nofun
  | post p => exact .of_read (by simp) (by simp) (by simp) (by simp) fun _ => nofun
  | close => exact .of_close rfl rfl rfl fun _ => nofun

/-! ## Conservation -/

/-- The packet has exactly the opcode and the payload of its raw frame, under the header format of
the mode it was dispatched in. -/
structure Dispatched.Exact (d : Dispatched) : Prop where
  mode : d.packet.mode = d.mode
  raw : d.raw = d.packet.buildPacket
  opcode : d.packet.opcodeBytes = d.raw.take (d.mode.headerSize - 2)
  length : declaredSize d.mode d.raw = d.packet.payload.length
  payload : d.packet.payload = d.raw.drop d.mode.headerSize
  unread : d.packet.buffer.readPos = 0

/-- A frame of a packet whose length fits is exact. -/
lemma Dispatched.exact_buildPacket {p : Packet} (h0 : p.buffer.readPos = 0)
    (h : p.payload.length ≤ 2048) : Dispatched.Exact ⟨p.mode, p.buildPacket, p⟩ := by
  have hhdr : p.mode.headerSize = (p.opcodeBytes ++ Endian.toBE 2 p.payload.length).length := by
    have := Packet.two_le_headerSize p.mode
    rw [List.length_append, Packet.length_opcodeBytes, Endian.length_toBE]
    omega
  refine ⟨rfl, rfl, ?_, ?_, ?_, h0⟩
  · dsimp only
    rw [Packet.buildPacket_eq, ← p.length_opcodeBytes, List.take_left]
  · have := Packet.declaredSize_buildPacket (show p.payload.length ≤ 65535 by omega) []
    rwa [List.append_nil] at this
  · dsimp only
    rw [hhdr, Packet.buildPacket_eq, ← List.append_assoc, List.drop_left]

/-- The invariant of the read path: the bytes received are the raw frames dispatched followed by
the active region; the mode is the one the packets dispatched lead to; and every packet was
dispatched in the mode that those before it lead to, and is exact. -/
structure ReadInvariant (s : Session) : Prop where
  received : s.closed = false →
    s.received = (s.dispatched.map (·.raw)).flatten ++ s.readBuffer.active
  mode : s.sessionMode = modeAfter .authSession (s.dispatched.map (·.packet))
  exact : ∀ pre d post, s.dispatched = pre ++ d :: post →
    d.mode = modeAfter .authSession (pre.map (·.packet)) ∧ d.Exact

namespace ReadInvariant

/-- It holds in a session just started. -/
lemma start (sha1 : Sha1) : ReadInvariant (Session.start sha1) := by
  refine ⟨fun _ => ?_, rfl, fun pre d post h => ?_⟩
  · simp [Session.start, Session.doRead]
  · have hlen := congrArg List.length h
    simp [Session.start, Session.doRead] at hlen

/-- **One step** keeps it.

**Proof sketch.** A reader step that dispatches moves the raw frame from the front of the active
region to the end of the frames dispatched. -/
lemma step {s s' : Session} {e : SessionEvent} (hs : ReadInvariant s) (h : ReaderStep s e s') :
    ReadInvariant s' := by
  cases h with
  | idle e s' hrecv hdisp hmode hauth hact he =>
    refine ⟨fun hopen => ?_, ?_, ?_⟩
    · obtain ⟨hopen', hact'⟩ := hact hopen
      rw [hrecv, hdisp, hact', hs.received hopen']
    · rw [hmode, hdisp, hs.mode]
    · rw [hdisp]; exact hs.exact
  | wait chunk s' hopen hwait hrecv hdisp hmode hauth hopen' hact =>
    refine ⟨fun _ => ?_, ?_, ?_⟩
    · rw [hrecv, hdisp, hact, hs.received hopen, List.append_assoc]
    · rw [hmode, hdisp, hs.mode]
    · rw [hdisp]; exact hs.exact
  | oversized chunk s' hopen hsize hbig hdisp hmode hauth hclosed =>
    refine ⟨fun hopen' => ?_, ?_, ?_⟩
    · simp [hclosed] at hopen'
    · rw [hmode, hdisp, hs.mode]
    · rw [hdisp]; exact hs.exact
  | frame chunk s' p rest hopen h0 hframing hsize hdata hrecv hdisp hmode hauth hclosed hact =>
    refine ⟨fun hopen' => ?_, ?_, fun pre d post hsplit => ?_⟩
    · rw [hrecv, hdisp, hact hopen', hs.received hopen, List.append_assoc, hdata]
      simp
    · rw [hmode, hdisp, hs.mode]
      simp
    · rw [hdisp] at hsplit
      rcases List.eq_nil_or_concat post with rfl | ⟨post', last, rfl⟩
      · -- the packet just dispatched
        obtain ⟨rfl, rfl⟩ : s.dispatched = pre ∧ ⟨s.sessionMode, p.buildPacket, p⟩ = d := by
          simpa using List.append_inj' hsplit rfl
        refine ⟨hs.mode, ?_⟩
        rw [← hframing]
        exact Dispatched.exact_buildPacket h0 hsize
      · -- an earlier one
        rw [List.concat_eq_append, ← List.cons_append, ← List.append_assoc] at hsplit
        exact hs.exact pre d post' (List.append_inj' hsplit rfl).1

/-- The raw frames dispatched are those of the packets. -/
lemma map_raw {s : Session} (hs : ReadInvariant s) :
    s.dispatched.map (·.raw) = (s.dispatched.map (·.packet)).map Packet.buildPacket := by
  rw [List.map_map]
  refine List.map_congr_left fun d hd => ?_
  obtain ⟨pre, post, hsplit⟩ := List.append_of_mem hd
  exact (hs.exact pre d post hsplit).2.raw

/-- The bytes received, in terms of the packets dispatched. -/
lemma received_eq_stream {s : Session} (hs : ReadInvariant s) (hopen : s.closed = false) :
    s.received = streamOf (s.dispatched.map (·.packet)) ++ s.readBuffer.active := by
  rw [hs.received hopen, hs.map_raw, streamOf]

end ReadInvariant

/-- **Byte conservation on the read path.** In every state of every run: if the session is open,
the bytes received so far are the raw frames dispatched so far followed by the active region of
`read_buffer_`; and every packet dispatched has exactly the opcode and payload of its raw frame,
under the header format of the mode current at its dispatch.

**Proof sketch.** `ReadInvariant` holds at the start and is kept by every step. -/
theorem received_eq_dispatched_append_active (sha1 : Sha1) (es : List SessionEvent) (s : Session)
    (h : Run.exec (Session.step sha1) (Session.start sha1) es = some s) :
    (s.closed = false →
      s.received = (s.dispatched.map (·.raw)).flatten ++ s.readBuffer.active) ∧
    ∀ pre d post, s.dispatched = pre ++ d :: post →
      d.mode = modeAfter .authSession (pre.map (·.packet)) ∧ d.Exact := by
  have hinv : ReadInvariant s := by
    refine Run.exec_invariant ?_ (ReadInvariant.start sha1) h
    intro s e s' hs hstep
    exact hs.step (Session.step_transition hstep).reader
  exact ⟨hinv.received, hinv.exact⟩

/-- A ping and the first byte of a challenge in one chunk: the frame is dispatched, and the byte
stays in the buffer. -/
theorem received_eq_ping :
    ∃ s, Run.exec (Session.step SRP6.sampleSha1) (Session.start SRP6.sampleSha1)
        [.read [1, 0, 4, 1, 2, 3, 4, 3]] = some s ∧
      s.closed = false ∧ s.received = [1, 0, 4, 1, 2, 3, 4, 3] ∧
      s.dispatched.map (·.raw) = [[1, 0, 4, 1, 2, 3, 4]] ∧
      s.received = (s.dispatched.map (·.raw)).flatten ++ s.readBuffer.active := by
  have hrun : (Run.exec (Session.step SRP6.sampleSha1) (Session.start SRP6.sampleSha1)
      [.read [1, 0, 4, 1, 2, 3, 4, 3]]).map
        (fun s => (s.closed, s.received, s.dispatched.map (·.raw))) =
      some (false, [1, 0, 4, 1, 2, 3, 4, 3], [[1, 0, 4, 1, 2, 3, 4]]) := by
    decide +kernel
  obtain ⟨s, hs, hval⟩ := Option.map_eq_some_iff.1 hrun
  obtain ⟨hopen, hrest⟩ := Prod.mk.inj hval
  obtain ⟨hrecv, hraw⟩ := Prod.mk.inj hrest
  exact ⟨s, hs, hopen, hrecv, hraw,
    (received_eq_dispatched_append_active SRP6.sampleSha1 _ s hs).1 hopen⟩

end Purity
