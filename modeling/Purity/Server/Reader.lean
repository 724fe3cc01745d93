import Purity.Server.Handlers

set_option relaxedAutoImplicit false
set_option autoImplicit false

/-!
# The packet readers

After each read completion the reader of the current mode looks at the front of the receive buffer:
it waits for a whole frame, closes the session if the frame is too big, and otherwise consumes one
frame and dispatches it. The two readers are the same code up to the packet class.

## Main definitions

* `Purity.processReadBufferWith` — the body of both readers; `Purity.processReadBuffer` picks the
  one of the current mode.
* `Purity.declaredSize` — the length field of the frame at the front.

## Main results

* `Purity.processReadBuffer_cases` — everything a reader can do. No exception leaves it.
* `Purity.tryDispatch_cases` — what the dispatch inside it does.
-/

namespace Purity

/-! ## Frames by mode -/

/-- The size of a frame header in a mode. -/
def SessionMode.headerSize : SessionMode → ℕ
  | .authSession => authFormat.headerSize
  | .workSession => workFormat.headerSize

/-- The length field of the frame at the front of `data`. -/
def declaredSize (mode : SessionMode) (data : Bytes) : ℕ :=
  Endian.ofBE ((data.drop (mode.headerSize - 2)).take 2)

/-- The opcode of the frame at the front of `data`. -/
def frontOpcode (mode : SessionMode) (data : Bytes) : ℕ :=
  Endian.ofBE (data.take (mode.headerSize - 2))

/-- The frame at the front of `data` makes the reader close the session: it is complete, and
either too big or a ping without its number (`CMSG_PING` is `1` in both modes). -/
def closesReader (mode : SessionMode) (data : Bytes) : Bool :=
  decide (mode.headerSize + declaredSize mode data ≤ data.length) &&
    (decide (2048 < declaredSize mode data) ||
      (frontOpcode mode data == 1 && decide (declaredSize mode data < 4)))

namespace Packet

/-- The opcode as it stands in the frame. -/
def opcodeBytes : Packet → Bytes
  | auth p => authFormat.encode p.opcode
  | work p => workFormat.encode p.opcode

/-- The frame of a packet: opcode, length and payload. -/
lemma buildPacket_eq (p : Packet) :
    p.buildPacket = p.opcodeBytes ++ (Endian.toBE 2 p.payload.length ++ p.payload) := by
  cases p with
  | auth p => exact PacketOf.buildPacketWith_eq authFormat p
  | work p => exact PacketOf.buildPacketWith_eq workFormat p

@[simp] lemma length_opcodeBytes (p : Packet) :
    p.opcodeBytes.length = p.mode.headerSize - 2 := by
  cases p with
  | auth p => exact authFormat.length_encode p.opcode
  | work p => exact workFormat.length_encode p.opcode

/-- The size of a header is that of the opcode and two bytes more. -/
lemma two_le_headerSize (mode : SessionMode) : 2 ≤ mode.headerSize := by
  cases mode <;> decide

@[simp] lemma length_buildPacket (p : Packet) :
    p.buildPacket.length = p.mode.headerSize + p.payload.length := by
  have := two_le_headerSize p.mode
  simp only [buildPacket_eq, List.length_append, length_opcodeBytes, Endian.length_toBE]
  omega

/-- The length field of a frame: the length, as far as two bytes hold it. -/
lemma declaredSize_buildPacket_mod (p : Packet) (rest : Bytes) :
    declaredSize p.mode (p.buildPacket ++ rest) = p.payload.length % 65536 := by
  rw [declaredSize, buildPacket_eq, List.append_assoc, ← p.length_opcodeBytes, List.drop_left,
    List.append_assoc, List.take_left' (Endian.length_toBE 2 _)]
  exact Endian.ofBE_toBE 2 _

/-- The length field of a frame, when the length fits. -/
lemma declaredSize_buildPacket {p : Packet} (h : p.payload.length ≤ 65535) (rest : Bytes) :
    declaredSize p.mode (p.buildPacket ++ rest) = p.payload.length := by
  rw [declaredSize_buildPacket_mod, Nat.mod_eq_of_lt (by omega)]

/-- The opcode of a frame. -/
lemma frontOpcode_buildPacket (p : Packet) (rest : Bytes) :
    frontOpcode p.mode (p.buildPacket ++ rest) = Endian.ofBE p.opcodeBytes := by
  rw [frontOpcode, buildPacket_eq, List.append_assoc, ← p.length_opcodeBytes, List.take_left]

/-- A packet is determined by its framing, its opcode and its payload, once it is unread. -/
lemma ext_of_unread {p q : Packet} (hmode : p.mode = q.mode)
    (hop : p.opcodeBytes = q.opcodeBytes) (hpay : p.payload = q.payload)
    (hp : p.buffer.readPos = 0) (hq : q.buffer.readPos = 0) : p = q := by
  have hbuf : p.buffer = q.buffer := by
    cases hpb : p.buffer
    cases hqb : q.buffer
    simp_all [payload]
  cases p with
  | auth p =>
    cases q with
    | auth q =>
      obtain ⟨o, b⟩ := p
      obtain ⟨o', b'⟩ := q
      obtain rfl : o = o' := by simpa [opcodeBytes, authFormat] using hop
      obtain rfl : b = b' := hbuf
      rfl
    | work q => cases hmode
  | work p =>
    cases q with
    | auth q => cases hmode
    | work q =>
      obtain ⟨o, b⟩ := p
      obtain ⟨o', b'⟩ := q
      have hval : ∀ x : UInt16, Endian.ofBE (workFormat.encode x) = x.toNat := fun x =>
        Endian.ofBE_toBE_of_lt x.toNat_lt
      obtain rfl : o = o' := by
        rw [← UInt16.toNat_inj, ← hval o, ← hval o']
        exact congrArg Endian.ofBE hop
      obtain rfl : b = b' := hbuf
      rfl

/-- **Frames are uniquely readable**: two streams that begin with frames of the same framing and
agree begin with the same packet.

**Proof sketch.** The opcodes have the same width and so agree, then the length fields, and so the
payloads. -/
lemma buildPacket_append_inj {p q : Packet} {r r' : Bytes} (hmode : p.mode = q.mode)
    (hp : p.buffer.readPos = 0) (hq : q.buffer.readPos = 0) (hps : p.payload.length ≤ 65535)
    (hqs : q.payload.length ≤ 65535) (h : p.buildPacket ++ r = q.buildPacket ++ r') :
    p = q ∧ r = r' := by
  have hlen : p.payload.length = q.payload.length := by
    rw [← declaredSize_buildPacket hps r, ← declaredSize_buildPacket hqs r', hmode, h]
  obtain ⟨hframe, hrest⟩ := List.append_inj h (by
    rw [length_buildPacket, length_buildPacket, hmode, hlen])
  refine ⟨?_, hrest⟩
  rw [buildPacket_eq, buildPacket_eq] at hframe
  obtain ⟨hop, htail⟩ := List.append_inj hframe (by simp [hmode])
  exact ext_of_unread hmode hop (List.append_inj htail (by simp)).2 hp hq

/-- A packet whose handler throws, by its opcode and size. -/
lemma throws_iff (p : Packet) :
    p.throws = true ↔ Endian.ofBE p.opcodeBytes = 1 ∧ p.payload.length < 4 := by
  cases p with
  | auth p =>
    have hop : Endian.ofBE (authFormat.encode p.opcode) = p.opcode.toNat := by
      simp [authFormat, Endian.ofBE]
    simp only [throws, opcodeBytes, hop, Bool.and_eq_true, beq_iff_eq, decide_eq_true_eq,
      ← UInt8.toNat_inj]
    rfl
  | work p =>
    have hop : Endian.ofBE (workFormat.encode p.opcode) = p.opcode.toNat :=
      Endian.ofBE_toBE_of_lt p.opcode.toNat_lt
    simp only [throws, opcodeBytes, hop, Bool.and_eq_true, beq_iff_eq, decide_eq_true_eq,
      ← UInt16.toNat_inj]
    rfl

/-- A frame at the front whose payload is not too big makes the reader close exactly if its
handler throws. -/
lemma closesReader_buildPacket {p : Packet} (h : p.payload.length ≤ 2048) (rest : Bytes) :
    closesReader p.mode (p.buildPacket ++ rest) = p.throws := by
  have hsize : ¬ 2048 < p.payload.length := by omega
  rw [Bool.eq_iff_iff, throws_iff]
  simp only [closesReader, declaredSize_buildPacket (show p.payload.length ≤ 65535 by omega),
    frontOpcode_buildPacket, List.length_append, length_buildPacket]
  simp [hsize]

end Packet

/-- The length field is read off the header alone. -/
lemma declaredSize_append {mode : SessionMode} {data : Bytes} (h : mode.headerSize ≤ data.length)
    (more : Bytes) : declaredSize mode (data ++ more) = declaredSize mode data := by
  have := Packet.two_le_headerSize mode
  rw [declaredSize, declaredSize, List.drop_append_of_le_length (by omega),
    List.take_append_of_le_length (by rw [List.length_drop]; omega)]

/-! ## The readers -/

/-- The session after the reader consumed a frame, with `buffer` left, and before it dispatches
the packet. -/
def Session.consume (s : Session) (buffer : MessageBuffer) (raw : Bytes) (packet : Packet) :
    Session :=
  { s with
    readBuffer := buffer
    dispatched := s.dispatched ++ [⟨s.sessionMode, raw, packet⟩] }

/-- Dispatching inside the reader's `try`: an exception closes the session. -/
def tryWith {ω : Type} (dispatch : Session → PacketOf ω → Except Exn Session) (s : Session)
    (packet : PacketOf ω) : Session :=
  match dispatch s packet with
  | .ok s => s
  | .error _ => s.close

/-- The body of `process_read_buffer_as_authserver` and `process_read_buffer_as_workserver`. -/
def processReadBufferWith {ω : Type} (fmt : HeaderFormat ω) (toPacket : PacketOf ω → Packet)
    (emptyStage : ω) (dispatch : Session → PacketOf ω → Except Exn Session) (s : Session) :
    Except Exn Session :=
  let buffer := s.readBuffer
  if buffer.activeSize < fmt.headerSize then .ok s
  else
    let data := buffer.storage.drop buffer.rpos
    let size : UInt16 := (data.getD fmt.width 0).toUInt16 <<< 8 |||
      (data.getD (fmt.width + 1) 0).toUInt16
    if buffer.activeSize < fmt.headerSize + size.toNat then .ok s
    else if 2048 < size.toNat then .ok s.close
    else
      let fullPacket := data.take (fmt.headerSize + size.toNat)
      match buffer.readCompleted (fmt.headerSize + size.toNat) with
      | .error e => .error e
      | .ok buffer =>
        match PacketOf.deserializeWith fmt { opcode := emptyStage } fullPacket with
        | (.error _, _) => .ok (Session.close { s with readBuffer := buffer })
        | (.ok (), packet) =>
          .ok (tryWith dispatch (s.consume buffer fullPacket (toPacket packet)) packet)

/-- `process_read_buffer_as_authserver` -/
def processReadBufferAsAuthserver (sha1 : Sha1) (s : Session) : Except Exn Session :=
  processReadBufferWith authFormat .auth AuthOpcodes.emptyStage (HandlersAuth.dispatch sha1) s

/-- `process_read_buffer_as_workserver` -/
def processReadBufferAsWorkserver (s : Session) : Except Exn Session :=
  processReadBufferWith workFormat .work WorkOpcodes.emptyStage HandlersWork.dispatch s

/-- `process_read_buffer` -/
def processReadBuffer (sha1 : Sha1) (s : Session) : Except Exn Session :=
  match s.sessionMode with
  | .authSession => processReadBufferAsAuthserver sha1 s
  | .workSession => processReadBufferAsWorkserver s

/-! ## What a reader does -/

/-- The dispatch of a packet's own class, inside the reader's `try`. -/
def tryDispatch (sha1 : Sha1) (s : Session) : Packet → Session
  | .auth p => tryWith (HandlersAuth.dispatch sha1) s p
  | .work p => tryWith HandlersWork.dispatch s p

/-- A dispatch in the reader's `try` closes the session on a short ping, and otherwise has the
effect of the handler. -/
lemma tryDispatch_cases (sha1 : Sha1) (s : Session) {p : Packet} (h0 : p.buffer.readPos = 0) :
    (p.throws = true ∧ tryDispatch sha1 s p = s.close) ∨
    (p.throws = false ∧ DispatchEffect sha1 s (tryDispatch sha1 s p) p) := by
  have htry : tryDispatch sha1 s p = match dispatchPacket sha1 s p with
      | .ok s => s
      | .error _ => s.close := by
    cases p <;> rfl
  cases h : p.throws with
  | true =>
    obtain ⟨e, he⟩ := dispatchPacket_of_throws sha1 s h0 h
    exact .inl ⟨rfl, by rw [htry, he]⟩
  | false =>
    obtain ⟨s', hs', heff⟩ := dispatchPacket_of_not_throws sha1 s h0 h
    exact .inr ⟨rfl, by rw [htry, hs']; exact heff⟩

/-- The readers' hand-written decoding of the length field. -/
lemma toNat_lengthField (hi lo : UInt8) :
    (hi.toUInt16 <<< 8 ||| lo.toUInt16).toNat = Endian.ofBE [hi, lo] := by
  have hhi : hi.toNat < 2 ^ 8 := hi.toNat_lt
  have hlo : lo.toNat < 2 ^ 8 := lo.toNat_lt
  have hshift : (hi.toNat <<< 8) % 2 ^ 16 = hi.toNat <<< 8 := by
    rw [Nat.shiftLeft_eq]; omega
  simp only [UInt16.toNat_or, UInt16.toNat_shiftLeft, UInt8.toNat_toUInt16, UInt16.toNat_ofNat]
  rw [show 8 % 2 ^ 16 % 16 = 8 from rfl, hshift, ← Nat.shiftLeft_add_eq_or_of_lt hlo,
    Nat.shiftLeft_eq]
  simp [Endian.ofBE]

/-- Two consecutive bytes of a list. -/
lemma take_two_drop {l : Bytes} {i : ℕ} (h : i + 2 ≤ l.length) :
    (l.drop i).take 2 = [l.getD i 0, l.getD (i + 1) 0] := by
  have h₀ : i < l.length := by omega
  have h₁ : i + 1 < l.length := by omega
  rw [List.drop_eq_getElem_cons h₀, List.drop_eq_getElem_cons h₁, List.getD_eq_getElem?_getD,
    List.getD_eq_getElem?_getD, List.getElem?_eq_getElem h₀, List.getElem?_eq_getElem h₁]
  rfl

section Format

variable {ω : Type} (fmt : HeaderFormat ω) (toPacket : PacketOf ω → Packet) (emptyStage : ω)
  (dispatch : Session → PacketOf ω → Except Exn Session) {s : Session}

/-- The length field a reader decodes at `read_ptr()` is the one in the active region. -/
lemma lengthField_eq {b : MessageBuffer} (h : fmt.headerSize ≤ b.activeSize) :
    (((b.storage.drop b.rpos).getD fmt.width 0).toUInt16 <<< 8 |||
      ((b.storage.drop b.rpos).getD (fmt.width + 1) 0).toUInt16).toNat =
      Endian.ofBE ((b.active.drop fmt.width).take 2) := by
  unfold HeaderFormat.headerSize at h
  have hlen : b.activeSize ≤ (b.storage.drop b.rpos).length := by
    rw [← b.length_active, MessageBuffer.active, List.length_take]
    omega
  rw [toNat_lengthField, ← take_two_drop (by omega), MessageBuffer.active, List.drop_take,
    List.take_take, Nat.min_eq_left (by omega)]

/-- **The frame at the front**, once it is complete: its bytes are those a reader copies, and
`read_completed` succeeds and drops them. -/
lemma exists_front {b : MessageBuffer} {declared : ℕ}
    (hdecl : Endian.ofBE ((b.active.drop fmt.width).take 2) = declared)
    (h : fmt.headerSize + declared ≤ b.activeSize) :
    ∃ (o : ω) (payload rest : Bytes) (b' : MessageBuffer), payload.length = declared ∧
      b.active = fmt.frame o payload ++ rest ∧ b'.active = rest ∧
      b.readCompleted (fmt.headerSize + declared) = .ok b' ∧
      (b.storage.drop b.rpos).take (fmt.headerSize + declared) = fmt.frame o payload := by
  -- the opcode of the header and the `declared` bytes after it
  obtain ⟨o, length, tail, hact, hlength, htail⟩ :=
    PacketOf.exists_header fmt (show fmt.headerSize ≤ b.active.length by
      rw [b.length_active]; omega)
  obtain rfl : length.toNat = declared := hlength.trans hdecl
  rw [b.length_active] at htail
  have hlen : (tail.take length.toNat).length = length.toNat :=
    List.length_take_of_le (by omega)
  have hsplit : b.active = fmt.frame o (tail.take length.toNat) ++ tail.drop length.toNat := by
    rw [hact, HeaderFormat.frame, hlen]
    simp only [List.append_assoc, List.take_append_drop]
  have hframe : (fmt.frame o (tail.take length.toNat)).length =
      fmt.headerSize + length.toNat := by
    rw [HeaderFormat.length_frame, hlen]
  obtain ⟨b', hb', hact'⟩ :=
    MessageBuffer.active_readCompleted (b := b) (n := fmt.headerSize + length.toNat) (by omega)
  refine ⟨o, tail.take length.toNat, tail.drop length.toNat, b', hlen, hsplit, ?_, hb', ?_⟩
  · rw [hact', hsplit, ← hframe, List.drop_left]
  · rw [MessageBuffer.take_drop_rpos (by omega), hsplit, ← hframe, List.take_left]

/-- The reader on a full header: by the declared length it waits, closes, or takes the packet at
the front.

**Proof sketch.** The length decoded by hand is the one in the header. Once the whole frame is
there, `read_completed` succeeds and drops it, and `deserialize` accepts it. -/
lemma processReadBufferWith_header {declared : ℕ}
    (hdecl : Endian.ofBE ((s.readBuffer.active.drop fmt.width).take 2) = declared)
    (h : fmt.headerSize ≤ s.readBuffer.activeSize) :
    (s.readBuffer.activeSize < fmt.headerSize + declared ∧
      processReadBufferWith fmt toPacket emptyStage dispatch s = .ok s) ∨
    (fmt.headerSize + declared ≤ s.readBuffer.activeSize ∧ 2048 < declared ∧
      processReadBufferWith fmt toPacket emptyStage dispatch s = .ok s.close) ∨
    ∃ (q : PacketOf ω) (rest : Bytes) (b' : MessageBuffer),
      q.buffer.readPos = 0 ∧ q.buffer.buffer.length ≤ 2048 ∧
      s.readBuffer.active = q.buildPacketWith fmt ++ rest ∧ b'.active = rest ∧
      processReadBufferWith fmt toPacket emptyStage dispatch s =
        .ok (tryWith dispatch (s.consume b' (q.buildPacketWith fmt) (toPacket q)) q) := by
  have hfield := lengthField_eq fmt (b := s.readBuffer) h
  rw [hdecl] at hfield
  simp only [processReadBufferWith, if_neg (not_lt.2 h), hfield]
  by_cases hwait : s.readBuffer.activeSize < fmt.headerSize + declared
  · left
    exact ⟨hwait, if_pos hwait⟩
  rw [if_neg hwait]
  by_cases hbig : 2048 < declared
  · right; left
    exact ⟨not_lt.1 hwait, hbig, if_pos hbig⟩
  right; right
  rw [if_neg hbig]
  obtain ⟨o, payload, rest, b', hlen, hact, hact', hb', hcopy⟩ :=
    exists_front fmt hdecl (not_lt.1 hwait)
  refine ⟨⟨o, { buffer := payload }⟩, rest, b', rfl, by dsimp only; omega, ?_, hact', ?_⟩
  · rw [PacketOf.buildPacketWith_eq]
    exact hact
  · rw [hb', hcopy, PacketOf.deserialize_frame, if_pos (by omega), PacketOf.buildPacketWith_eq]

end Format

/-- The reader on a full header, in terms of the packet at the front. -/
lemma processReadBuffer_header (sha1 : Sha1) {s : Session}
    (h : s.sessionMode.headerSize ≤ s.readBuffer.activeSize) :
    (s.readBuffer.activeSize <
        s.sessionMode.headerSize + declaredSize s.sessionMode s.readBuffer.active ∧
      processReadBuffer sha1 s = .ok s) ∨
    (s.sessionMode.headerSize + declaredSize s.sessionMode s.readBuffer.active ≤
        s.readBuffer.activeSize ∧ 2048 < declaredSize s.sessionMode s.readBuffer.active ∧
      processReadBuffer sha1 s = .ok s.close) ∨
    ∃ (p : Packet) (rest : Bytes) (b' : MessageBuffer),
      p.buffer.readPos = 0 ∧ p.mode = s.sessionMode ∧ p.payload.length ≤ 2048 ∧
      s.readBuffer.active = p.buildPacket ++ rest ∧ b'.active = rest ∧
      processReadBuffer sha1 s = .ok (tryDispatch sha1 (s.consume b' p.buildPacket p) p) := by
  unfold processReadBuffer declaredSize
  cases hmode : s.sessionMode with
  | authSession =>
    rw [hmode] at h
    rcases processReadBufferWith_header authFormat .auth AuthOpcodes.emptyStage
      (HandlersAuth.dispatch sha1) rfl h with
      hwait | hclose | ⟨q, rest, b', hpos, hsize, hact, hb', hres⟩
    · exact .inl hwait
    · exact .inr (.inl hclose)
    · exact .inr (.inr ⟨.auth q, rest, b', hpos, rfl, hsize, hact, hb', hres⟩)
  | workSession =>
    rw [hmode] at h
    rcases processReadBufferWith_header workFormat .work WorkOpcodes.emptyStage
      HandlersWork.dispatch rfl h with
      hwait | hclose | ⟨q, rest, b', hpos, hsize, hact, hb', hres⟩
    · exact .inl hwait
    · exact .inr (.inl hclose)
    · exact .inr (.inr ⟨.work q, rest, b', hpos, rfl, hsize, hact, hb', hres⟩)

/-- A reader that does not even see a header waits. -/
lemma processReadBuffer_short (sha1 : Sha1) {s : Session}
    (h : s.readBuffer.activeSize < s.sessionMode.headerSize) :
    processReadBuffer sha1 s = .ok s := by
  unfold processReadBuffer
  cases hmode : s.sessionMode with
  | authSession => rw [hmode] at h; exact if_pos h
  | workSession => rw [hmode] at h; exact if_pos h

/-- **Everything a reader can do**: it leaves the session as it is because the frame at the front
is not complete, closes it because that frame is complete and too big, or consumes the packet at
the front and dispatches it. -/
lemma processReadBuffer_cases (sha1 : Sha1) (s : Session) :
    ((s.readBuffer.activeSize < s.sessionMode.headerSize ∨ s.readBuffer.activeSize <
        s.sessionMode.headerSize + declaredSize s.sessionMode s.readBuffer.active) ∧
      processReadBuffer sha1 s = .ok s) ∨
    (s.sessionMode.headerSize ≤ s.readBuffer.activeSize ∧
      s.sessionMode.headerSize + declaredSize s.sessionMode s.readBuffer.active ≤
        s.readBuffer.activeSize ∧ 2048 < declaredSize s.sessionMode s.readBuffer.active ∧
      processReadBuffer sha1 s = .ok s.close) ∨
    ∃ (p : Packet) (rest : Bytes) (b' : MessageBuffer),
      p.buffer.readPos = 0 ∧ p.mode = s.sessionMode ∧ p.payload.length ≤ 2048 ∧
      s.readBuffer.active = p.buildPacket ++ rest ∧ b'.active = rest ∧
      processReadBuffer sha1 s = .ok (tryDispatch sha1 (s.consume b' p.buildPacket p) p) := by
  by_cases h : s.readBuffer.activeSize < s.sessionMode.headerSize
  · exact .inl ⟨.inl h, processReadBuffer_short sha1 h⟩
  · rcases processReadBuffer_header sha1 (not_lt.1 h) with ⟨hlt, hwait⟩ | hclose | hframe
    · exact .inl ⟨.inr hlt, hwait⟩
    · exact .inr (.inl ⟨not_lt.1 h, hclose⟩)
    · exact .inr (.inr hframe)

end Purity
