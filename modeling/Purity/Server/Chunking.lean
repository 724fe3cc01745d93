import Purity.Server.ReadLoop
import Purity.Server.ReadPath

set_option relaxedAutoImplicit false
set_option autoImplicit false

/-!
# Chunks and frames

The transport delivers a stream of frames in chunks of its own choosing. A reader takes at most one
frame for each read completion, and leaves the others in the buffer until more bytes arrive. So
whether all frames are dispatched depends on how the stream was cut.

## Main definitions

* `Purity.chunksOf` — the chunks a run delivers.
* `Purity.framesWithin` — the number of frames complete within a prefix of the stream.
* `Purity.KeepsUp` — one frame a read is enough: no final stretch of reads completes more frames
  than it has reads.
* `Purity.ReadableStream` — a stream of frames that the readers accept.
* `Purity.byteReads` — the events that deliver a stream a byte at a time.

## Main results

* `Purity.ReaderStep.front` — what a read completion does when the stream has a frame at the front.
* `Purity.dispatched_eq_iff_keepsUp` — all frames are dispatched exactly if one frame a read is
  enough.
* `Purity.exists_run_byteReads` — a byte at a time is always enough.

## Implementation notes

Between the reads a run may execute sends, challenges and write completions. They leave the reader
alone.
-/

namespace Purity

/-! ## One frame a read -/

/-- With `c i` frames complete after `i` reads, `m` reads are enough to take `n` frames at one a
read: after any `i` reads, the frames not complete by then are no more than the reads left. -/
def KeepsUp (c : ℕ → ℕ) (m n : ℕ) : Prop := ∀ i ≤ m, n ≤ c i + (m - i)

/-- One more read takes one more frame, if it is complete. -/
lemma keepsUp_succ (c : ℕ → ℕ) (m n : ℕ) :
    KeepsUp c (m + 1) n ↔ KeepsUp c m (n - 1) ∧ n ≤ c (m + 1) := by
  constructor
  · intro h
    refine ⟨fun i hi => ?_, by simpa using h (m + 1) le_rfl⟩
    have := h i (by omega)
    omega
  · rintro ⟨h, hlast⟩ i hi
    rcases Nat.lt_or_ge m i with hlt | hle
    · obtain rfl : i = m + 1 := by omega
      omega
    · have := h i hle
      omega

/-- Only the counts up to the last read matter. -/
lemma keepsUp_congr {c c' : ℕ → ℕ} {m : ℕ} (h : ∀ i ≤ m, c i = c' i) (n : ℕ) :
    KeepsUp c m n ↔ KeepsUp c' m n := by
  unfold KeepsUp
  refine forall_congr' fun i => forall_congr' fun hi => ?_
  rw [h i hi]

/-! ## Streams of frames -/

/-- The number of frames of `ps` that are complete within the first `n` bytes of their stream. -/
def framesWithin : List Packet → ℕ → ℕ
  | [], _ => 0
  | p :: ps, n =>
    if p.buildPacket.length ≤ n then framesWithin ps (n - p.buildPacket.length) + 1 else 0

/-- There are no more frames within a prefix than there are frames. -/
lemma framesWithin_le_length (ps : List Packet) (n : ℕ) : framesWithin ps n ≤ ps.length := by
  induction ps generalizing n with
  | nil => exact le_rfl
  | cons p ps ih =>
    rw [framesWithin]
    split_ifs
    · exact Nat.succ_le_succ (ih _)
    · exact Nat.zero_le _

/-- There are none within no bytes. -/
lemma framesWithin_zero (ps : List Packet) : framesWithin ps 0 = 0 := by
  cases ps with
  | nil => rfl
  | cons p ps =>
    have := Packet.two_le_headerSize p.mode
    rw [framesWithin, if_neg (by rw [Packet.length_buildPacket]; omega)]

/-- The first `k` frames are complete within the prefixes at least as long as they are. -/
lemma le_framesWithin_iff {ps : List Packet} {k n : ℕ} (hk : k ≤ ps.length) :
    k ≤ framesWithin ps n ↔ (streamOf (ps.take k)).length ≤ n := by
  induction ps generalizing k n with
  | nil =>
    obtain rfl : k = 0 := by simpa using hk
    simp
  | cons p ps ih =>
    cases k with
    | zero => simp
    | succ k =>
      have hk' : k ≤ ps.length := by simpa using hk
      rw [framesWithin, List.take_succ_cons, streamOf_cons, List.length_append]
      split_ifs with hp
      · rw [Nat.succ_le_succ_iff, ih hk']
        omega
      · omega

/-- A stream a session can read to its end: frames in the framing of the mode they are parsed in,
with payloads within the limit, none of which makes its handler throw. The packets are those of
the frames, with nothing read yet. -/
structure ReadableStream (fs : List Packet) : Prop where
  wellModed : WellModed .authSession fs
  unread : ∀ p ∈ fs, p.buffer.readPos = 0
  size : ∀ p ∈ fs, p.payload.length ≤ 2048
  noThrow : ∀ p ∈ fs, p.throws = false

/-- **A read completion with the packet `p` at the front of the stream**, of which the data may
show only a part: if the frame is complete it is dispatched, and otherwise the reader waits.

**Proof sketch.** A complete frame at the front is `p`, as frames are uniquely readable. The length
field, if it is there, is that of `p`, so the reader never finds the frame too big. -/
lemma ReaderStep.front {t t' : Session} {chunk more tail : Bytes} {p : Packet}
    (h : ReaderStep t (.read chunk) t') (hopen : t.closed = false) (hmode : p.mode = t.sessionMode)
    (h0 : p.buffer.readPos = 0) (hsize : p.payload.length ≤ 2048) (hthrow : p.throws = false)
    (hdata : t.readBuffer.active ++ chunk ++ more = p.buildPacket ++ tail) :
    t'.closed = false ∧ t'.received = t.received ++ chunk ∧
    ((p.buildPacket.length ≤ (t.readBuffer.active ++ chunk).length ∧
        t'.dispatched.map (·.packet) = t.dispatched.map (·.packet) ++ [p]) ∨
      ((t.readBuffer.active ++ chunk).length < p.buildPacket.length ∧
        t'.dispatched = t.dispatched)) := by
  set data := t.readBuffer.active ++ chunk with hdataDef
  -- once the header is there, the length field is that of `p`
  have hdecl : t.sessionMode.headerSize ≤ data.length →
      declaredSize t.sessionMode data = p.payload.length := by
    intro hle
    rw [← declaredSize_append hle more, hdata, ← hmode]
    exact Packet.declaredSize_buildPacket (by omega) tail
  have hlen : p.buildPacket.length = t.sessionMode.headerSize + p.payload.length := by
    rw [Packet.length_buildPacket, hmode]
  cases h with
  | idle e s' hrecv hdisp hmode' hauth hact he => exact absurd rfl (he hopen chunk)
  | wait chunk s' hopen' hwait hrecv hdisp hmode' hauth hopen'' hact =>
    rw [← hdataDef] at hwait
    refine ⟨hopen'', hrecv, .inr ⟨?_, hdisp⟩⟩
    by_cases hle : t.sessionMode.headerSize ≤ data.length
    · have := hdecl hle
      unfold Incomplete at hwait
      omega
    · omega
  | oversized chunk s' hopen' hle hbig hdisp hmode' hauth hclosed =>
    rw [← hdataDef] at hle hbig
    have := hdecl (by omega)
    omega
  | frame chunk s' q rest hopen' hq0 hframing hqsize hqdata hrecv hdisp hmode' hauth hclosed hact =>
    rw [← hdataDef] at hqdata
    have hboth : p.buildPacket ++ tail = q.buildPacket ++ (rest ++ more) := by
      rw [← hdata, hqdata, List.append_assoc]
    obtain ⟨rfl, -⟩ := Packet.buildPacket_append_inj (hmode.trans hframing.symm) h0 hq0
      (by omega) (by omega) hboth
    refine ⟨hclosed.trans hthrow, hrecv, .inl ⟨?_, ?_⟩⟩
    · rw [hqdata, List.length_append]
      omega
    · rw [hdisp, List.map_append]
      rfl

/-- With no frame left in the stream, there are no bytes either and the reader waits. -/
lemma ReaderStep.no_front {t t' : Session} {chunk : Bytes} (h : ReaderStep t (.read chunk) t')
    (hopen : t.closed = false) (hdata : t.readBuffer.active ++ chunk = []) :
    t'.closed = false ∧ t'.received = t.received ++ chunk ∧ t'.dispatched = t.dispatched := by
  have htwo := Packet.two_le_headerSize t.sessionMode
  cases h with
  | idle e s' hrecv hdisp hmode' hauth hact he => exact absurd rfl (he hopen chunk)
  | wait chunk s' hopen' hwait hrecv hdisp hmode' hauth hopen'' hact =>
    exact ⟨hopen'', hrecv, hdisp⟩
  | oversized chunk s' hopen' hle hbig hdisp hmode' hauth hclosed =>
    rw [hdata, List.length_nil] at hle
    omega
  | frame chunk s' q rest hopen' hq0 hframing hqsize hqdata hrecv hdisp hmode' hauth hclosed hact =>
    have hlen := congrArg List.length (hdata.symm.trans hqdata)
    rw [List.length_nil, List.length_append, Packet.length_buildPacket, hframing] at hlen
    omega

/-- **A read completion takes the next frame if it is complete.** From a state in which the first
`j` frames of the stream have been dispatched, a read of the next bytes of the stream leads to one
in which that is true of `j + 1`, or of the number of frames complete if that is smaller.

**Proof sketch.** The data before the reader is a prefix of the stream of the frames after the
first `j`. If the next frame is complete, `ReaderStep.front` dispatches it and at least `j + 1`
frames are complete; otherwise it dispatches none and exactly `j` are. -/
lemma ReaderStep.dispatched_eq_take {fs : List Packet} {t t' : Session} {chunk : Bytes} {j : ℕ}
    (h : ReaderStep t (.read chunk) t') (hopen : t.closed = false) (hinv : ReadInvariant t)
    (hfs : ReadableStream fs) (hj : j ≤ fs.length) (hdisp : t.dispatched.map (·.packet) = fs.take j)
    (hpre : t.received ++ chunk <+: streamOf fs) :
    t'.closed = false ∧ t'.received = t.received ++ chunk ∧
      t'.dispatched.map (·.packet) =
        fs.take (min (j + 1) (framesWithin fs (t.received ++ chunk).length)) := by
  have hrecv := hinv.received_eq_stream hopen
  rw [hdisp] at hrecv
  -- the data before the reader, and what is still to come
  obtain ⟨more, hmore⟩ := hpre
  have hdata : t.readBuffer.active ++ chunk ++ more = streamOf (fs.drop j) := by
    have hsplit : streamOf fs = streamOf (fs.take j) ++ streamOf (fs.drop j) := by
      rw [← streamOf_append, List.take_append_drop]
    rw [hrecv, hsplit] at hmore
    simpa using hmore
  have hbytes : (t.received ++ chunk).length =
      (streamOf (fs.take j)).length + (t.readBuffer.active ++ chunk).length := by
    rw [hrecv, List.append_assoc, List.length_append]
  have hcomplete : j ≤ framesWithin fs (t.received ++ chunk).length := by
    rw [le_framesWithin_iff hj, hbytes]
    omega
  cases hrest : fs.drop j with
  | nil =>
    rw [hrest] at hdata
    obtain ⟨hopen', hrecv', hdisp'⟩ := h.no_front hopen (List.append_eq_nil_iff.1 hdata).1
    have hall : fs.length ≤ j := List.drop_eq_nil_iff.1 hrest
    have hle := framesWithin_le_length fs (t.received ++ chunk).length
    refine ⟨hopen', hrecv', ?_⟩
    rw [hdisp', hdisp, show min (j + 1) (framesWithin fs (t.received ++ chunk).length) = j by omega]
  | cons p ps =>
    have hlt : j < fs.length := by
      by_contra hge
      rw [List.drop_eq_nil_iff.2 (not_lt.1 hge)] at hrest
      cases hrest
    have hmem : p ∈ fs := List.mem_of_mem_drop (by rw [hrest]; exact List.mem_cons_self)
    have htake : fs.take (j + 1) = fs.take j ++ [p] := by
      rw [List.take_add, hrest]
      rfl
    have hmode : p.mode = t.sessionMode := by
      have hwm := hfs.wellModed
      rw [← List.take_append_drop j fs, hrest] at hwm
      rw [hinv.mode, hdisp]
      exact hwm.mode_eq
    have hnext : j + 1 ≤ framesWithin fs (t.received ++ chunk).length ↔
        p.buildPacket.length ≤ (t.readBuffer.active ++ chunk).length := by
      rw [le_framesWithin_iff hlt, htake, hbytes, streamOf_append, List.length_append]
      simp
    rw [hrest] at hdata
    obtain ⟨hopen', hrecv', ⟨hle, hdisp'⟩ | ⟨hgt, hdisp'⟩⟩ := h.front hopen hmode
      (hfs.unread p hmem) (hfs.size p hmem) (hfs.noThrow p hmem) hdata
    · refine ⟨hopen', hrecv', ?_⟩
      rw [hdisp', hdisp, min_eq_left (hnext.2 hle), htake]
    · refine ⟨hopen', hrecv', ?_⟩
      rw [← not_le, ← hnext] at hgt
      rw [hdisp', hdisp,
        show min (j + 1) (framesWithin fs (t.received ++ chunk).length) = j by omega]

/-! ## Runs -/

/-- The chunk an event delivers. -/
def SessionEvent.chunk? : SessionEvent → Option Bytes
  | .read chunk => some chunk
  | _ => none

/-- The chunks a run delivers. -/
def chunksOf (es : List SessionEvent) : List Bytes := es.filterMap SessionEvent.chunk?

/-- The events that do not close a session of themselves: all but `close` and the errors of the
transport. -/
def SessionEvent.isQuiet : SessionEvent → Bool
  | .readError => false
  | .writeError _ => false
  | .close => false
  | _ => true

/-- The frames of `fs` complete within the first `i` chunks. -/
def completeAfter (fs : List Packet) (chunks : List Bytes) (i : ℕ) : ℕ :=
  framesWithin fs (chunks.take i).flatten.length

/-- One more chunk, in terms of the number `j` of frames that could be taken before it. -/
lemma keepsUp_concat {fs : List Packet} {chunks : List Bytes} {j : ℕ}
    (hj : ∀ k, k ≤ j ↔ KeepsUp (completeAfter fs chunks) chunks.length k) (chunk : Bytes) (k : ℕ) :
    k ≤ min (j + 1) (framesWithin fs (chunks ++ [chunk]).flatten.length) ↔
      KeepsUp (completeAfter fs (chunks ++ [chunk])) (chunks ++ [chunk]).length k := by
  have hlen : (chunks ++ [chunk]).length = chunks.length + 1 := by simp
  have hlast : completeAfter fs (chunks ++ [chunk]) (chunks.length + 1) =
      framesWithin fs (chunks ++ [chunk]).flatten.length := by
    rw [completeAfter, ← hlen, List.take_length]
  have hinit : ∀ i ≤ chunks.length,
      completeAfter fs (chunks ++ [chunk]) i = completeAfter fs chunks i := by
    intro i hi
    rw [completeAfter, List.take_append_of_le_length hi]
    rfl
  rw [hlen, keepsUp_succ, keepsUp_congr hinit, ← hj, hlast, le_min_iff]
  omega

/-- The invariant of a run that delivers a prefix of the stream `fs`: the session is open, and as
many frames have been dispatched, from the front, as one frame a read allows. -/
structure Paced (fs : List Packet) (es : List SessionEvent) (t : Session) : Prop where
  opened : t.closed = false
  received : t.received = (chunksOf es).flatten
  dispatched : ∃ j ≤ fs.length, t.dispatched.map (·.packet) = fs.take j ∧
    ∀ k, k ≤ j ↔ KeepsUp (completeAfter fs (chunksOf es)) (chunksOf es).length k

namespace Paced

variable {fs : List Packet} {es : List SessionEvent} {t t' : Session}

/-- It holds at the start. -/
lemma start (fs : List Packet) (sha1 : Sha1) : Paced fs [] (Session.start sha1) := by
  refine ⟨rfl, rfl, 0, Nat.zero_le _, rfl, fun k => ?_⟩
  simp [KeepsUp, chunksOf, completeAfter, framesWithin_zero]

/-- A quiet event that is no read leaves the session open. -/
lemma closed_of_quiet {sha1 : Sha1} {s s' : Session} {e : SessionEvent} (h : Transition sha1 s e s')
    (hopen : s.closed = false) (hquiet : e.isQuiet = true) (hchunk : e.chunk? = none) :
    s'.closed = false := by
  cases h with
  | readClosed chunk hclosed hreads => cases hchunk
  | read chunk b s' hopen hreads hne hact hout => cases hchunk
  | readError hreads => cases hquiet
  | challenge i env p hp =>
    exact (HandlersAuth.handleLogonChallenge_effect _ p env).closed.trans hopen
  | send i p hp => simpa using hopen
  | writeDone i m hm => simpa using hopen
  | writeError i m hm => cases hquiet
  | post p => simpa using hopen
  | close => cases hquiet

/-- A quiet event that is no read keeps the invariant. -/
lemma of_quiet {sha1 : Sha1} {e : SessionEvent} (h : Paced fs es t) (hstep : Transition sha1 t e t')
    (hquiet : e.isQuiet = true) (hchunk : e.chunk? = none) : Paced fs (es ++ [e]) t' := by
  have hchunks : chunksOf (es ++ [e]) = chunksOf es := by
    simp [chunksOf, hchunk]
  have hopen := closed_of_quiet hstep h.opened hquiet hchunk
  cases hstep.reader with
  | idle e s' hrecv hdisp hmode hauth hact he =>
    refine ⟨hopen, ?_, ?_⟩
    · rw [hrecv, hchunks, h.received]
    · rw [hdisp, hchunks]
      exact h.dispatched
  | wait chunk s' hopen' hwait hrecv hdisp hmode' hauth hopen'' hact => cases hchunk
  | oversized chunk s' hopen' hle hbig hdisp hmode' hauth hclosed => cases hchunk
  | frame chunk s' q rest hopen' h0 hframing hsize hdata hrecv hdisp hmode hauth hclosed hact =>
    cases hchunk

/-- A read of the next bytes of the stream keeps the invariant. -/
lemma of_read {chunk : Bytes} (h : Paced fs es t) (hinv : ReadInvariant t)
    (hfs : ReadableStream fs)
    (hpre : (chunksOf (es ++ [.read chunk])).flatten <+: streamOf fs)
    (hstep : ReaderStep t (.read chunk) t') : Paced fs (es ++ [.read chunk]) t' := by
  have hchunks : chunksOf (es ++ [.read chunk]) = chunksOf es ++ [chunk] := by
    simp [chunksOf, SessionEvent.chunk?]
  have hrecv : t.received ++ chunk = (chunksOf es ++ [chunk]).flatten := by
    simp [h.received]
  obtain ⟨j, hj, hdisp, hpace⟩ := h.dispatched
  rw [hchunks, ← hrecv] at hpre
  obtain ⟨hopen', hrecv', hdisp'⟩ := hstep.dispatched_eq_take h.opened hinv hfs hj hdisp hpre
  have hle := framesWithin_le_length fs (t.received ++ chunk).length
  refine ⟨hopen', by rw [hrecv', hchunks, hrecv], _, ?_, hdisp', fun k => ?_⟩
  · exact (min_le_right _ _).trans hle
  · rw [hchunks, hrecv]
    exact keepsUp_concat hpace chunk k

end Paced

/-- **A run that delivers a beginning of the stream**, without an error or a `close`, is paced.

**Proof sketch.** Induction on the events from the end of the run. -/
lemma paced_of_exec {sha1 : Sha1} {fs : List Packet} {es : List SessionEvent} {s : Session}
    (hfs : ReadableStream fs) (hquiet : ∀ e ∈ es, e.isQuiet = true)
    (hpre : (chunksOf es).flatten <+: streamOf fs)
    (h : Run.exec (Session.step sha1) (Session.start sha1) es = some s) :
    ReadInvariant s ∧ Paced fs es s := by
  refine Run.exec_induction (P := fun es t => (∀ e ∈ es, e.isQuiet = true) →
    (chunksOf es).flatten <+: streamOf fs → ReadInvariant t ∧ Paced fs es t) ?_ ?_ h hquiet hpre
  · intro _ _
    exact ⟨ReadInvariant.start sha1, Paced.start fs sha1⟩
  · intro es e t t' ih hstep hquiet hpre
    have htrans := Session.step_transition hstep
    have hpre' : (chunksOf es).flatten <+: streamOf fs := by
      refine List.IsPrefix.trans ?_ hpre
      simp [chunksOf]
    obtain ⟨hread, hpaced⟩ := ih (fun e he => hquiet e (List.mem_append_left _ he)) hpre'
    refine ⟨hread.step htrans.reader, ?_⟩
    cases hchunk : e.chunk? with
    | none => exact hpaced.of_quiet htrans (hquiet e (by simp)) hchunk
    | some chunk =>
      obtain rfl : e = .read chunk := by
        cases e <;> simp_all [SessionEvent.chunk?]
      exact hpaced.of_read hread hfs hpre htrans.reader

/-- Everything has been dispatched as soon as one frame a read is enough. -/
lemma Paced.complete_iff {fs : List Packet} {es : List SessionEvent} {s : Session}
    (h : Paced fs es s) (hread : ReadInvariant s) (hstream : (chunksOf es).flatten = streamOf fs) :
    (s.dispatched.map (·.packet) = fs ∧ s.readBuffer.active = []) ↔
      KeepsUp (completeAfter fs (chunksOf es)) (chunksOf es).length fs.length := by
  obtain ⟨j, hj, hdisp, hpace⟩ := h.dispatched
  have hrecv := hread.received_eq_stream h.opened
  rw [h.received, hstream] at hrecv
  rw [← hpace]
  constructor
  · rintro ⟨hfull, -⟩
    rw [hdisp] at hfull
    have := congrArg List.length hfull
    rw [List.length_take] at this
    omega
  · intro hle
    have hfull : s.dispatched.map (·.packet) = fs := by rw [hdisp, List.take_of_length_le hle]
    rw [hfull] at hrecv
    exact ⟨hfull, by simpa using hrecv⟩

/-- **Chunking and the server reader.** Let a run deliver a readable stream of frames in any
chunks, with any sends, write completions and challenges in between. Then the packets dispatched
are all frames of the stream, in order, and nothing is left in the buffer, if and only if for every
`i` the frames not complete within the first `i` chunks are no more than the chunks after them.

**Proof sketch.** `Paced` is kept along the run, and at its end says that the number of frames
dispatched is the largest number for which one frame a read is enough. -/
theorem dispatched_eq_iff_keepsUp (sha1 : Sha1) (fs : List Packet) (es : List SessionEvent)
    (s : Session) (hfs : ReadableStream fs) (hquiet : ∀ e ∈ es, e.isQuiet = true)
    (hstream : (chunksOf es).flatten = streamOf fs)
    (h : Run.exec (Session.step sha1) (Session.start sha1) es = some s) :
    (s.dispatched.map (·.packet) = fs ∧ s.readBuffer.active = []) ↔
      ∀ i ≤ (chunksOf es).length, fs.length ≤
        framesWithin fs ((chunksOf es).take i).flatten.length + ((chunksOf es).length - i) := by
  obtain ⟨hread, hpaced⟩ := paced_of_exec hfs hquiet (by simp [hstream]) h
  exact hpaced.complete_iff hread hstream

/-- A ping, as the client sends it. -/
def samplePing : Packet :=
  .auth { opcode := AuthOpcodes.cmsgPing, buffer := { buffer := [1, 2, 3, 4] } }

/-- Two pings are a readable stream. -/
lemma readableStream_samplePing : ReadableStream [samplePing, samplePing] := by
  constructor
  · exact ⟨rfl, rfl, trivial⟩
  · decide
  · decide
  · decide

/-- Two pings, delivered in three chunks, the first of which ends inside a header. -/
theorem dispatched_eq_three_chunks :
    ∃ s, Run.exec (Session.step SRP6.sampleSha1) (Session.start SRP6.sampleSha1)
        [.read [1, 0], .read [4, 1, 2, 3, 4], .read [1, 0, 4, 1, 2, 3, 4]] = some s ∧
      s.dispatched.map (·.packet) = [samplePing, samplePing] ∧ s.readBuffer.active = [] := by
  have hrun : (Run.exec (Session.step SRP6.sampleSha1) (Session.start SRP6.sampleSha1)
      [.read [1, 0], .read [4, 1, 2, 3, 4], .read [1, 0, 4, 1, 2, 3, 4]]).isSome := by
    decide +kernel
  obtain ⟨s, hs⟩ := Option.isSome_iff_exists.1 hrun
  exact ⟨s, hs, (dispatched_eq_iff_keepsUp SRP6.sampleSha1 [samplePing, samplePing] _ s
    readableStream_samplePing (by decide) (by decide) hs).2 (by decide)⟩

/-- Two pings in one chunk: the second one is not dispatched, and stays in the buffer. -/
theorem second_frame_left :
    ReadableStream [samplePing, samplePing] ∧
    (chunksOf [.read [1, 0, 4, 1, 2, 3, 4, 1, 0, 4, 1, 2, 3, 4]]).flatten =
      streamOf [samplePing, samplePing] ∧
    ∃ s, Run.exec (Session.step SRP6.sampleSha1) (Session.start SRP6.sampleSha1)
        [.read [1, 0, 4, 1, 2, 3, 4, 1, 0, 4, 1, 2, 3, 4]] = some s ∧
      s.dispatched.map (·.packet) ≠ [samplePing, samplePing] ∧
      s.readBuffer.active = [1, 0, 4, 1, 2, 3, 4] := by
  have hrun : (Run.exec (Session.step SRP6.sampleSha1) (Session.start SRP6.sampleSha1)
      [.read [1, 0, 4, 1, 2, 3, 4, 1, 0, 4, 1, 2, 3, 4]]).map
        (fun s => (s.dispatched.map (·.packet), s.readBuffer.active)) =
      some ([samplePing], [1, 0, 4, 1, 2, 3, 4]) := by
    decide +kernel
  obtain ⟨s, hs, hval⟩ := Option.map_eq_some_iff.1 hrun
  obtain ⟨hdisp, hact⟩ := Prod.mk.inj hval
  refine ⟨readableStream_samplePing, by decide, s, hs, ?_, hact⟩
  rw [hdisp]
  decide

/-! ## A byte at a time -/

/-- The events that deliver bytes one at a time. -/
def byteReads (bytes : Bytes) : List SessionEvent := bytes.map fun b => .read [b]

/-- The chunks they deliver are the bytes. -/
@[simp] lemma chunksOf_byteReads (bytes : Bytes) :
    chunksOf (byteReads bytes) = bytes.map fun b => [b] := by
  induction bytes with
  | nil => rfl
  | cons b bytes ih => simpa [chunksOf, byteReads, SessionEvent.chunk?] using ih

@[simp] lemma flatten_singletons (bytes : Bytes) : (bytes.map fun b => [b]).flatten = bytes := by
  induction bytes with
  | nil => rfl
  | cons b bytes ih => simp [ih]

/-- Delivering bytes is quiet. -/
lemma isQuiet_byteReads (bytes : Bytes) : ∀ e ∈ byteReads bytes, e.isQuiet = true := by
  intro e he
  obtain ⟨b, -, rfl⟩ := List.mem_map.1 he
  rfl

/-- After any number of bytes, the frames not complete are no more than the bytes left. -/
lemma length_le_framesWithin (fs : List Packet) (n : ℕ) :
    fs.length ≤ framesWithin fs n + ((streamOf fs).length - n) := by
  induction fs generalizing n with
  | nil => simp
  | cons p ps ih =>
    rw [framesWithin, streamOf_cons, List.length_append, List.length_cons]
    split_ifs with hp
    · have := ih (n - p.buildPacket.length)
      omega
    · have hrest := ih 0
      rw [framesWithin_zero] at hrest
      omega

/-- `do_read` makes room. -/
lemma Session.room_doRead (s : Session) : 512 ≤ s.doRead.readBuffer.remainingSpace :=
  MessageBuffer.le_remainingSpace_ensureFreeSpace s.readBuffer 512

/-- Every step of a session that stays open leaves room in the receive buffer: a read completion
makes it, and no other step touches the buffer. -/
lemma Transition.room {sha1 : Sha1} {s s' : Session} {e : SessionEvent}
    (h : Transition sha1 s e s') (hs : s.closed = false → 512 ≤ s.readBuffer.remainingSpace)
    (hopen : s'.closed = false) : 512 ≤ s'.readBuffer.remainingSpace := by
  cases h with
  | readClosed chunk hclosed hreads => simp [hclosed] at hopen
  | read chunk b s' hopen' hreads hchunk hact hout =>
    cases hout with
    | wait hwait => exact Session.room_doRead _
    | oversized hle hbig => simp at hopen
    | thrown p b' h0 hmode hsize hact' hthrow => simp at hopen
    | handled p b' u h0 hmode hsize hact' hthrow heff => exact u.room_doRead
  | readError hreads => simp at hopen
  | challenge i env p hp =>
    have heff := HandlersAuth.handleLogonChallenge_effect
      { s with spawned := s.spawned.eraseIdx i } p env
    rw [heff.read]
    exact hs (heff.closed.symm.trans hopen)
  | send i p hp =>
    rw [Session.doSendPacket_closed] at hopen
    rw [Session.doSendPacket_toReadState]
    exact hs hopen
  | writeDone i m hm =>
    rw [Session.writeHandler_closed] at hopen
    rw [Session.writeHandler_toReadState]
    exact hs hopen
  | writeError i m hm => simp at hopen
  | post p =>
    rw [Session.sendPacket_closed] at hopen
    rw [Session.sendPacket_toReadState]
    exact hs hopen
  | close => simp at hopen

/-- An open session can read: a read is outstanding and was offered space, and there was no
fault. -/
structure CanRead (s : Session) : Prop where
  loop : ReadLoop s
  fault : s.fault = none
  room : s.closed = false → 512 ≤ s.readBuffer.remainingSpace

namespace CanRead

variable {sha1 : Sha1} {s s' : Session}

/-- It holds in a session just started. -/
lemma start (sha1 : Sha1) : CanRead (Session.start sha1) := by
  refine ⟨.start sha1, rfl, fun _ => ?_⟩
  rw [Session.start]
  exact Session.room_doRead _

/-- Then a byte can arrive. -/
lemma exists_step (h : CanRead s) (sha1 : Sha1) (hopen : s.closed = false) (b : UInt8) :
    ∃ s', s.step sha1 (.read [b]) = some s' := by
  have hroom := h.room hopen
  have hreads := h.loop.reads_open hopen
  have hfits : 0 < s.reads ∧ [b] ≠ [] ∧
      (s.closed = false → [b].length ≤ s.readBuffer.remainingSpace) := by
    refine ⟨by omega, List.cons_ne_nil b [], fun _ => ?_⟩
    rw [List.length_singleton]
    omega
  refine ⟨s.readHandler sha1 [b], ?_⟩
  simp only [Session.step, h.fault, Option.isSome_none, Bool.false_eq_true, if_false, if_pos hfits]

/-- And a byte that arrives keeps it: every read completion of a session that stays open makes
room for the next. -/
lemma step {chunk : Bytes} (h : CanRead s) (hstep : s.step sha1 (.read chunk) = some s') :
    CanRead s' := by
  have htrans := Session.step_transition hstep
  have hdone := htrans.readDone h.loop h.fault rfl
  exact ⟨hdone.readLoop, hdone.fault, htrans.room h.room⟩

/-- In every state of every run an open session can read, unless there was a fault. -/
lemma of_exec {es : List SessionEvent}
    (h : Run.exec (Session.step sha1) (Session.start sha1) es = some s) (hfault : s.fault = none) :
    CanRead s := by
  have hinv : ReadLoop s ∧ (s.closed = false → 512 ≤ s.readBuffer.remainingSpace) := by
    refine Run.exec_invariant (I := fun t : Session =>
      ReadLoop t ∧ (t.closed = false → 512 ≤ t.readBuffer.remainingSpace)) ?_ ?_ h
    · rintro t e t' ⟨hloop, hroom⟩ hstep
      exact ⟨hloop.step hstep, (Session.step_transition hstep).room hroom⟩
    · exact ⟨(CanRead.start sha1).loop, (CanRead.start sha1).room⟩
  exact ⟨hinv.1, hfault, hinv.2⟩

end CanRead

/-- **A byte at a time is always enough**: a session that is delivered a readable stream in that way
dispatches all its frames.

**Proof sketch.** Induction on the bytes delivered: the run so far is paced, so the session is open,
and it can read the next byte. At the end each frame has been complete at some read. -/
lemma exists_run_byteReads (sha1 : Sha1) {fs : List Packet} (hfs : ReadableStream fs) :
    ∃ s, Run.exec (Session.step sha1) (Session.start sha1) (byteReads (streamOf fs)) = some s ∧
      ReadInvariant s ∧ s.closed = false ∧ s.dispatched.map (·.packet) = fs ∧
        s.readBuffer.active = [] := by
  have hpaced : ∀ {bytes : Bytes} {s : Session}, bytes <+: streamOf fs →
      Run.exec (Session.step sha1) (Session.start sha1) (byteReads bytes) = some s →
      ReadInvariant s ∧ Paced fs (byteReads bytes) s := by
    intro bytes s hbytes hs
    exact paced_of_exec hfs (isQuiet_byteReads bytes) (by simpa using hbytes) hs
  have hrun : ∀ bytes : Bytes, bytes <+: streamOf fs →
      ∃ s, Run.exec (Session.step sha1) (Session.start sha1) (byteReads bytes) = some s ∧
        CanRead s := by
    intro bytes
    induction bytes using List.reverseRecOn with
    | nil => exact fun _ => ⟨_, rfl, .start sha1⟩
    | append_singleton bytes b ih =>
      intro hbytes
      have hpre : bytes <+: streamOf fs := (List.prefix_append bytes [b]).trans hbytes
      obtain ⟨s, hs, hcan⟩ := ih hpre
      obtain ⟨s', hstep⟩ := hcan.exists_step sha1 (hpaced hpre hs).2.opened b
      refine ⟨s', ?_, hcan.step hstep⟩
      rw [byteReads, List.map_append, ← byteReads, Run.exec_append, hs, Option.bind_some]
      simp [hstep]
  obtain ⟨s, hs, -⟩ := hrun (streamOf fs) List.prefix_rfl
  obtain ⟨hread, hpace⟩ := hpaced List.prefix_rfl hs
  refine ⟨s, hs, hread, hpace.opened, (hpace.complete_iff hread (by simp)).2 fun i hi => ?_⟩
  simp only [chunksOf_byteReads, List.length_map] at hi ⊢
  have htake : ((streamOf fs).map fun b => [b]).take i = ((streamOf fs).take i).map fun b => [b] :=
    List.map_take.symm
  rw [completeAfter, htake, flatten_singletons, List.length_take, min_eq_left hi]
  exact length_le_framesWithin fs i

end Purity
