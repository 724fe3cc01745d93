import Purity.Server.ReadPath

set_option relaxedAutoImplicit false
set_option autoImplicit false

/-!
# The memory of the read path

A reader takes one frame off `read_buffer_` at each read completion, and `do_read` then offers the
socket the whole free space, at least 512 bytes. Two kinds of input make the buffer hold more than a
frame: a chunk with many small frames, of which only the first is taken, and a header that declares
more than 2048 bytes, since the reader compares the length with the limit only once the whole frame
is there.

## Main definitions

* `Purity.SmallBuffer` — the buffer holds less than the largest frame of the mode, and its storage
  has its initial size.
* `Purity.ReadFits` — a read completion gives the reader neither kind of input.

## Main results

* `Purity.smallBuffer_iff_readFits` — the buffer is small in every state of a run exactly if all its
  read completions fit.
-/

namespace Purity

/-! ## The storage -/

namespace MessageBuffer

variable {b b' : MessageBuffer} {n : ℕ}

/-- `ensure_free_space` grows the storage only if the space left beside the active region is too
small. -/
lemma length_storage_ensureFreeSpace (b : MessageBuffer) (n : ℕ) :
    (b.ensureFreeSpace n).storage.length ≤ max b.storage.length (b.activeSize + 2 * n) := by
  have hact : b.normalize.activeSize = b.activeSize := by
    rw [← length_active, active_normalize, length_active]
  have hrpos : b.normalize.rpos = 0 := by
    unfold normalize
    split_ifs with h
    · exact h
    · rfl
    · rfl
  have hlen := b.length_storage_normalize
  unfold ensureFreeSpace
  split_ifs with hless hless'
  · simp only [grow, List.length_append, List.length_replicate]
    unfold remainingSpace at hless'
    unfold activeSize at hact ⊢
    omega
  · omega
  · omega

/-- A new buffer has the space it was made with. -/
lemma ensureFreeSpace_new {size n : ℕ} (h : n ≤ size) :
    (new size).ensureFreeSpace n = new size := by
  have hspace : (new size).remainingSpace = size := by simp [remainingSpace, new]
  rw [ensureFreeSpace, if_neg]
  omega

/-- A read completion stays in the space offered. -/
lemma length_storage_receive {chunk : Bytes} (h : b.receive chunk = .ok b')
    (hspace : chunk.length ≤ b.remainingSpace) : b'.storage.length = b.storage.length := by
  have hwpos := b.wpos_le
  unfold receive writeCompleted at h
  split_ifs at h
  cases h
  unfold remainingSpace at hspace
  simp only [fill, List.length_append, List.length_take, List.length_drop]
  omega

/-- `read_completed` only moves a position. -/
lemma storage_readCompleted (h : b.readCompleted n = .ok b') : b'.storage = b.storage := by
  unfold readCompleted at h
  split_ifs at h
  cases h
  rfl

end MessageBuffer

/-- A handler leaves the receive buffer alone. -/
lemma HandlersAuth.readBuffer_dispatch {sha1 : Sha1} {s s' : Session} {p : AuthPacket}
    (h : HandlersAuth.dispatch sha1 s p = .ok s') : s'.readBuffer = s.readBuffer := by
  unfold dispatch at h
  split_ifs at h
  · obtain ⟨r, -, hr⟩ := bind_eq_ok.1 h
    cases hr
    rw [Session.sendPacket_toReadState]
  · cases h
    rfl
  · cases h
    unfold handleLogonProof
    split
    · rw [Session.sendPacket_toReadState]
    · dsimp only
      split_ifs
      · rw [Session.sendPacket_toReadState]
      · rw [Session.sendPacket_toReadState]
  · cases h
    rfl

/-- The same of the handlers of the second stage. -/
lemma HandlersWork.readBuffer_dispatch {s s' : Session} {p : WorkPacket}
    (h : HandlersWork.dispatch s p = .ok s') : s'.readBuffer = s.readBuffer := by
  unfold dispatch at h
  split_ifs at h
  · obtain ⟨r, -, hr⟩ := bind_eq_ok.1 h
    cases hr
    rw [Session.sendPacket_toReadState]
  · cases h
    rfl
  · cases h
    rfl

/-- A `close` frees the storage. -/
lemma Session.length_storage_close (s : Session) :
    s.close.readBuffer.storage.length ≤ s.readBuffer.storage.length := by
  unfold close
  split_ifs
  · exact le_rfl
  · exact Nat.zero_le _

/-- A reader does not grow the storage. -/
lemma length_storage_processReadBufferWith {ω : Type} {fmt : HeaderFormat ω}
    {toPacket : PacketOf ω → Packet} {emptyStage : ω}
    {dispatch : Session → PacketOf ω → Except Exn Session} {s s' : Session}
    (hdispatch : ∀ t p t', dispatch t p = .ok t' → t'.readBuffer = t.readBuffer)
    (h : processReadBufferWith fmt toPacket emptyStage dispatch s = .ok s') :
    s'.readBuffer.storage.length ≤ s.readBuffer.storage.length := by
  simp only [processReadBufferWith] at h
  split_ifs at h
  · cases h
    exact le_rfl
  · cases h
    exact le_rfl
  · cases h
    exact s.length_storage_close
  · generalize PacketOf.deserializeWith fmt { opcode := emptyStage } _ = parsed at h
    cases hread : s.readBuffer.readCompleted _ with
    | error e =>
      rw [hread] at h
      cases h
    | ok b =>
      have hb := MessageBuffer.storage_readCompleted hread
      rw [hread] at h
      rw [← hb]
      obtain ⟨e | u, p⟩ := parsed
      · cases h
        exact Session.length_storage_close { s with readBuffer := b }
      · cases h
        unfold tryWith
        split
        · next t ht => rw [hdispatch _ _ _ ht]; exact le_rfl
        · exact Session.length_storage_close _

/-- The same of the reader of the current mode. -/
lemma length_storage_processReadBuffer {sha1 : Sha1} {s s' : Session}
    (h : processReadBuffer sha1 s = .ok s') :
    s'.readBuffer.storage.length ≤ s.readBuffer.storage.length := by
  unfold processReadBuffer at h
  split at h
  · exact length_storage_processReadBufferWith (fun _ _ _ => HandlersAuth.readBuffer_dispatch) h
  · exact length_storage_processReadBufferWith (fun _ _ _ => HandlersWork.readBuffer_dispatch) h

/-- A read completion does not grow the storage, but for the `ensure_free_space` of `do_read`. -/
lemma Session.readBuffer_readHandler {sha1 : Sha1} {s : Session} {chunk : Bytes}
    (hopen : s.closed = false) (hspace : chunk.length ≤ s.readBuffer.remainingSpace) :
    ∃ b : MessageBuffer, b.storage.length ≤ s.readBuffer.storage.length ∧
      ((s.readHandler sha1 chunk).readBuffer = b ∨
        (s.readHandler sha1 chunk).closed = false ∧
          (s.readHandler sha1 chunk).readBuffer = b.ensureFreeSpace 512) := by
  obtain ⟨b, hb, -⟩ := s.readBuffer.active_receive chunk
  have hlen := MessageBuffer.length_storage_receive hb hspace
  have hnot : ¬ s.closed = true := by simp [hopen]
  simp only [readHandler, if_neg hnot, hb]
  cases hres : processReadBuffer sha1 { s with
      readBuffer := b, reads := s.reads - 1, received := s.received ++ chunk } with
  | error e => exact ⟨b, hlen.le, .inl rfl⟩
  | ok t =>
    refine ⟨t.readBuffer, (length_storage_processReadBuffer hres).trans hlen.le, ?_⟩
    dsimp only
    split_ifs with ht
    · exact .inl rfl
    · exact .inr ⟨by simpa [doRead] using ht, rfl⟩

/-- **The storage along a step**: it does not grow, but for the `ensure_free_space` of `do_read`. -/
lemma Session.readBuffer_step {sha1 : Sha1} {s s' : Session} {e : SessionEvent}
    (h : s.step sha1 e = some s') :
    ∃ b : MessageBuffer, b.storage.length ≤ s.readBuffer.storage.length ∧
      (s'.readBuffer = b ∨ s'.closed = false ∧ s'.readBuffer = b.ensureFreeSpace 512) := by
  have hsame : s'.readBuffer.storage.length ≤ s.readBuffer.storage.length →
      ∃ b : MessageBuffer, b.storage.length ≤ s.readBuffer.storage.length ∧
        (s'.readBuffer = b ∨ s'.closed = false ∧ s'.readBuffer = b.ensureFreeSpace 512) :=
    fun hle => ⟨_, hle, .inl rfl⟩
  cases step_transition h with
  | readClosed chunk hclosed hreads => exact hsame le_rfl
  | read chunk b s' hopen hreads hchunk hact hout =>
    have hf : ¬ s.fault.isSome = true := by simp [fault_of_step h]
    simp only [step, if_neg hf, Option.ite_none_right_eq_some, Option.some.injEq] at h
    obtain ⟨⟨-, -, hspace⟩, rfl⟩ := h
    exact readBuffer_readHandler hopen (hspace hopen)
  | readError hreads => exact hsame (length_storage_close _)
  | challenge i env p hp =>
    have heff := HandlersAuth.handleLogonChallenge_effect
      { s with spawned := s.spawned.eraseIdx i } p env
    exact hsame (by rw [heff.read])
  | send i p hp => exact hsame (by simp)
  | writeDone i m hm => exact hsame (by simp)
  | writeError i m hm => exact hsame (length_storage_close _)
  | post p => exact hsame (by simp)
  | close => exact hsame (length_storage_close _)

/-! ## The law -/

/-- An open session holds less than the largest admissible frame of its mode, and the storage has
not grown beyond its initial size. -/
structure SmallBuffer (s : Session) : Prop where
  active : s.closed = false → s.readBuffer.activeSize < s.sessionMode.headerSize + 2048
  storage : s.readBuffer.storage.length ≤ 4096

/-- What a read completion of an open session must not deliver: most of a frame whose header
declares more than the limit; or, behind a frame that the reader takes, as many bytes as the largest
frame of the mode it is followed by. -/
structure ReadFits (s : Session) (chunk : Bytes) : Prop where
  header : s.sessionMode.headerSize ≤ (s.readBuffer.active ++ chunk).length →
    2048 < declaredSize s.sessionMode (s.readBuffer.active ++ chunk) →
    (s.readBuffer.active ++ chunk).length <
      s.sessionMode.headerSize + declaredSize s.sessionMode (s.readBuffer.active ++ chunk) →
    (s.readBuffer.active ++ chunk).length < s.sessionMode.headerSize + 2048
  behind : ∀ (p : Packet) (rest : Bytes), p.buffer.readPos = 0 → p.mode = s.sessionMode →
    p.payload.length ≤ 2048 → s.readBuffer.active ++ chunk = p.buildPacket ++ rest →
    p.throws = false → rest.length < (p.nextMode s.sessionMode).headerSize + 2048

/-- The read completions of an open session fit. -/
def readsFit (s : Session) : SessionEvent → Prop
  | .read chunk => s.closed = false → ReadFits s chunk
  | _ => True

/-- The size of the data behind a frame. -/
lemma Packet.length_front {p : Packet} {mode : SessionMode} {data rest : Bytes}
    (hmode : p.mode = mode) (hsize : p.payload.length ≤ 2048)
    (hdata : data = p.buildPacket ++ rest) :
    declaredSize mode data = p.payload.length ∧
      data.length = mode.headerSize + p.payload.length + rest.length := by
  subst hmode hdata
  refine ⟨declaredSize_buildPacket (by omega) rest, ?_⟩
  rw [List.length_append, length_buildPacket]

/-- A small active region leaves the storage small. -/
lemma SmallBuffer.of_active {sha1 : Sha1} {s s' : Session} {e : SessionEvent} (hs : SmallBuffer s)
    (h : s.step sha1 e = some s')
    (hact : s'.closed = false → s'.readBuffer.activeSize < s'.sessionMode.headerSize + 2048) :
    SmallBuffer s' := by
  refine ⟨hact, ?_⟩
  have hle := hs.storage
  obtain ⟨b, hb, hbuf | ⟨hopen, hbuf⟩⟩ := Session.readBuffer_step h
  · rw [hbuf]
    exact hb.trans hle
  · have hgrow := b.length_storage_ensureFreeSpace 512
    have hlt := hact hopen
    have hheader : s'.sessionMode.headerSize ≤ 4 := by cases s'.sessionMode <;> decide
    rw [hbuf, ← MessageBuffer.length_active, MessageBuffer.active_ensureFreeSpace,
      MessageBuffer.length_active] at hlt
    rw [hbuf]
    omega

/-- **One step** keeps the buffer small exactly if it fits.

**Proof sketch.** Only a read completion of an open session changes the active region. If the front
is not complete, all bytes stay, which is at issue only for a header that declares too much. If it
is a frame, the bytes behind it stay. -/
lemma smallBuffer_step_iff {sha1 : Sha1} {s s' : Session} {e : SessionEvent} (hs : SmallBuffer s)
    (h : s.step sha1 e = some s') : SmallBuffer s' ↔ readsFit s e := by
  have hof := hs.of_active h
  cases (Session.step_transition h).reader with
  | idle e s' hrecv hdisp hmode hauth hact he =>
    refine iff_of_true (hof fun hopen => ?_) ?_
    · obtain ⟨hopen', hact'⟩ := hact hopen
      rw [← MessageBuffer.length_active, hact', hmode, MessageBuffer.length_active]
      exact hs.active hopen'
    · cases e with
      | read chunk => exact fun hopen => absurd rfl (he hopen chunk)
      | _ => trivial
  | wait chunk s' hopen hwait hrecv hdisp hmode hauth hopen' hact =>
    have hlen : s'.readBuffer.activeSize = (s.readBuffer.active ++ chunk).length := by
      rw [← MessageBuffer.length_active, hact]
    constructor
    · intro hsmall _
      have hlt := hsmall.active hopen'
      rw [hlen, hmode] at hlt
      refine ⟨fun _ _ _ => hlt, fun p rest h0 hframing hsize hdata hthrow => ?_⟩
      obtain ⟨hdecl, hcomplete⟩ := Packet.length_front hframing hsize hdata
      unfold Incomplete at hwait
      omega
    · intro hfits
      refine hof fun _ => ?_
      rw [hlen, hmode]
      have hheader := (hfits hopen).header
      unfold Incomplete at hwait
      omega
  | oversized chunk s' hopen hsize hbig hdisp hmode hauth hclosed =>
    refine iff_of_true (hof fun hopen' => ?_) fun _ => ⟨fun _ _ hlt => ?_, ?_⟩
    · rw [hclosed] at hopen'
      cases hopen'
    · omega
    · intro p rest h0 hframing hle hdata hthrow
      have hdecl := (Packet.length_front hframing hle hdata).1
      omega
  | frame chunk s' p rest hopen h0 hframing hsize hdata hrecv hdisp hmode hauth hclosed hact =>
    obtain ⟨hdecl, hcomplete⟩ := Packet.length_front hframing hsize hdata
    constructor
    · intro hsmall _
      refine ⟨fun _ _ hlt => by omega, fun q rest' hq0 hqmode hqsize hqdata hqthrow => ?_⟩
      obtain ⟨rfl, rfl⟩ := Packet.buildPacket_append_inj (hqmode.trans hframing.symm) hq0 h0
        (by omega) (by omega) (hqdata.symm.trans hdata)
      have hopen' : s'.closed = false := hclosed.trans hqthrow
      have hlt := hsmall.active hopen'
      rwa [← MessageBuffer.length_active, hact hopen', hmode] at hlt
    · intro hfits
      refine hof fun hopen' => ?_
      rw [← MessageBuffer.length_active, hact hopen', hmode]
      exact (hfits hopen).behind p rest h0 hframing hsize hdata (hclosed.symm.trans hopen')

/-- It is small in a session just started. -/
lemma SmallBuffer.start (sha1 : Sha1) : SmallBuffer (Session.start sha1) := by
  have hroom : 512 ≤ 4096 := by decide
  have hbuf : (Session.start sha1).readBuffer = .new 4096 := by
    dsimp only [Session.start, Session.doRead]
    exact MessageBuffer.ensureFreeSpace_new hroom
  refine ⟨fun _ => ?_, ?_⟩
  · rw [hbuf]
    exact Nat.add_pos_right _ (by decide)
  · rw [hbuf]
    exact List.length_replicate.le

/-- **Bounded read memory.** In every state of a run, an open session holds less than the largest
admissible frame of its mode and the storage has at most its initial size, exactly if at every
read completion the bytes fit: a header that declares more than the limit is not followed by the
limit's number of bytes before its frame is complete, and the bytes behind a frame that is taken are
fewer than the largest frame. -/
theorem smallBuffer_iff_readFits (sha1 : Sha1) (es : List SessionEvent) :
    Run.Always (Session.step sha1) SmallBuffer (Session.start sha1) es ↔
      Run.StepsMeet (Session.step sha1) readsFit (Session.start sha1) es :=
  Run.always_iff_stepsMeet (I := fun _ => True) (fun _ _ _ _ _ => trivial)
    (fun _ _ _ _ hs hstep => smallBuffer_step_iff hs hstep) trivial (SmallBuffer.start sha1) es

/-- A header that declares 65535 bytes makes the session keep as many bytes as arrive. -/
theorem oversized_header_waits : ∃ s,
    Run.exec (Session.step SRP6.sampleSha1) (Session.start SRP6.sampleSha1)
      [.read ([0, 0xFF, 0xFF] ++ List.replicate 2048 0)] = some s ∧
    s.closed = false ∧ s.readBuffer.activeSize = s.sessionMode.headerSize + 2048 ∧
    ¬ SmallBuffer s := by
  have hrun : (Run.exec (Session.step SRP6.sampleSha1) (Session.start SRP6.sampleSha1)
      [.read ([0, 0xFF, 0xFF] ++ List.replicate 2048 0)]).map (fun s =>
        (s.closed, decide (s.readBuffer.activeSize = s.sessionMode.headerSize + 2048))) =
      some (false, true) := by
    decide +kernel
  obtain ⟨s, hs, hval⟩ := Option.map_eq_some_iff.1 hrun
  simp only [Prod.mk.injEq, decide_eq_true_eq] at hval
  obtain ⟨hopen, hsize⟩ := hval
  refine ⟨s, hs, hopen, hsize, fun hsmall => ?_⟩
  have hlt := hsmall.active hopen
  omega

end Purity
