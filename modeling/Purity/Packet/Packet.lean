import Purity.Packet.ByteBuffer

set_option relaxedAutoImplicit false
set_option autoImplicit false

/-!
# Packets and their frames

A packet is an opcode and a payload buffer. On the wire it is a frame: the opcode, the length of
the payload as a 16-bit big-endian number, and the payload. `AuthPacket` has a one-byte opcode
(header of 3 bytes) and `WorkPacket` a two-byte one (header of 4 bytes); their `build_packet` and
`deserialize` are the same code otherwise, and are one definition over a header format here.

## Main definitions

* `Purity.HeaderFormat` — how a packet class writes and reads its opcode, with the laws that make
  the two inverse; `Purity.authFormat` and `Purity.workFormat` are the two of the source.
* `Purity.PacketOf`, `Purity.AuthPacket`, `Purity.WorkPacket`, `Purity.Packet` — the two packet
  classes and their common base.
* `Purity.HeaderFormat.frame` — the frame of an opcode and a payload.

## Main results

* `Purity.PacketOf.deserialize_header` — what `deserialize` does on any input with a full header.
* `Purity.frameCodec_exact` — `deserialize` accepts exactly the frames, and inverts `build_packet`
  on payloads of at most 65535 bytes.
-/

namespace Purity

/-! ## Opcodes

An enumeration of the source has a fixed underlying type and may hold any of its values, so an
opcode is a number of that type and the enumerators are constants. -/

namespace AuthOpcodes

/-- `EMPTY_STAGE` -/
def emptyStage : UInt8 := 0x00
/-- `CMSG_PING` -/
def cmsgPing : UInt8 := 0x01
/-- `SMSG_PONG` -/
def smsgPong : UInt8 := 0x02
/-- `CMSG_AUTH_LOGON_CHALLENGE` -/
def cmsgAuthLogonChallenge : UInt8 := 0x03
/-- `SMSG_AUTH_LOGON_CHALLENGE` -/
def smsgAuthLogonChallenge : UInt8 := 0x04
/-- `CMSG_AUTH_LOGON_PROOF` -/
def cmsgAuthLogonProof : UInt8 := 0x05
/-- `SMSG_AUTH_LOGON_PROOF` -/
def smsgAuthLogonProof : UInt8 := 0x06
/-- `SMSG_AUTH_RESPONSE` -/
def smsgAuthResponse : UInt8 := 0x07

end AuthOpcodes

namespace WorkOpcodes

/-- `EMPTY_STAGE` -/
def emptyStage : UInt16 := 0x00
/-- `CMSG_PING` -/
def cmsgPing : UInt16 := 0x01
/-- `SMSG_PONG` -/
def smsgPong : UInt16 := 0x02
/-- `CMSG_MESSAGE` -/
def cmsgMessage : UInt16 := 0x03

end WorkOpcodes

/-! ## Header formats -/

/-- The opcode part of a frame header: the `write_*` and `read_*` methods a packet class uses for
its opcode, the bytes they agree on, and the text of its length error. -/
structure HeaderFormat (ω : Type) where
  /-- the number of bytes of the opcode -/
  width : ℕ
  write : ByteBuffer → ω → ByteBuffer
  read : ByteBuffer → Except Exn (ω × ByteBuffer)
  /-- `what()` of the exception on a length mismatch -/
  mismatch : String
  encode : ω → Bytes
  decode : Bytes → ω
  length_encode : ∀ o, (encode o).length = width
  encode_decode : ∀ bs, bs.length = width → encode (decode bs) = bs
  write_eq : ∀ b o, write b o = b.writeBytes (encode o)
  read_encode : ∀ o rest, read (.ofBytes (encode o ++ rest)) = .ok (o, .cursor (encode o) rest)
  read_short : ∀ bs, bs.length < width → ∃ e, read (.ofBytes bs) = .error e

namespace HeaderFormat

variable {ω : Type} (fmt : HeaderFormat ω)

/-- The size of the header: the opcode and the 16-bit length. -/
def headerSize : ℕ := fmt.width + 2

/-- The frame of an opcode and a payload: the length field holds the low 16 bits of the size. -/
def frame (o : ω) (payload : Bytes) : Bytes :=
  fmt.encode o ++ (Endian.toBE 2 payload.length ++ payload)

@[simp] lemma length_frame (o : ω) (payload : Bytes) :
    (fmt.frame o payload).length = fmt.headerSize + payload.length := by
  simp only [frame, headerSize, List.length_append, fmt.length_encode, Endian.length_toBE]
  omega

end HeaderFormat

/-- The header of an `AuthPacket`: `[Opcode(uint8)][Length(uint16)]`. -/
def authFormat : HeaderFormat UInt8 where
  width := 1
  write := ByteBuffer.writeUint8
  read := ByteBuffer.readUint8
  mismatch := "AuthPacket::deserialize: payload length mismatch"
  encode o := [o]
  decode bs := bs.headD 0
  length_encode _ := rfl
  encode_decode bs h := by
    obtain ⟨b, rfl⟩ := List.length_eq_one_iff.1 h
    rfl
  write_eq _ _ := rfl
  read_encode o rest := ByteBuffer.readUint8_cursor [] o rest
  read_short bs h := by
    obtain rfl : bs = [] := List.length_eq_zero_iff.1 (by omega)
    exact ⟨_, rfl⟩

/-- The header of a `WorkPacket`: `[Opcode(uint16)][Length(uint16)]`. -/
def workFormat : HeaderFormat UInt16 where
  width := 2
  write := ByteBuffer.writeUint16Be
  read := ByteBuffer.readUint16Be
  mismatch := "WorkPacket::deserialize: payload length mismatch"
  encode o := Endian.toBE 2 o.toNat
  decode bs := UInt16.ofNat (Endian.ofBE bs)
  length_encode _ := Endian.length_toBE _ _
  encode_decode bs h := by
    have hlt : Endian.ofBE bs < 2 ^ 16 := by
      have := Endian.ofBE_lt bs
      rwa [h] at this
    have hback := Endian.toBE_ofBE bs
    rw [h] at hback
    rw [UInt16.toNat_ofNat_of_lt' hlt, hback]
  write_eq _ _ := rfl
  read_encode o rest := ByteBuffer.readUint16Be_cursor [] o rest
  read_short bs h := by
    refine ⟨.outOfRange "ByteBuffer: not enough data to read", ?_⟩
    have hcheck := ByteBuffer.checkRead_short (b := .ofBytes bs) (n := 2)
      (by simpa [ByteBuffer.ofBytes, ByteBuffer.size] using h) (by simp [ByteBuffer.ofBytes])
    simp only [ByteBuffer.readUint16Be, ByteBuffer.readFixed, hcheck]
    rfl

/-! ## Packets -/

/-- `opcode_` and the payload `buffer_` of a packet. -/
structure PacketOf (ω : Type) where
  opcode : ω
  buffer : ByteBuffer := {}
  deriving DecidableEq, Repr

namespace PacketOf

variable {ω : Type} (fmt : HeaderFormat ω)

/-- The `build_packet` of the packet class with header format `fmt`. -/
def buildPacketWith (p : PacketOf ω) : Bytes :=
  let temp : ByteBuffer := {}
  let temp := fmt.write temp p.opcode
  let temp := temp.writeUint16Be (UInt16.ofNat p.buffer.size)
  let temp := temp.writeBytes p.buffer.buffer
  temp.buffer

/-- The `deserialize` of the packet class with header format `fmt`, into an existing object `p`.
An exception leaves the object as far as it was assigned. -/
def deserializeWith (p : PacketOf ω) (rawData : Bytes) : Except Exn Unit × PacketOf ω :=
  match fmt.read (.ofBytes rawData) with
  | .error e => (.error e, p)
  | .ok (opcode, temp) =>
    let p := { p with opcode := opcode }
    match temp.readUint16Be with
    | .error e => (.error e, p)
    | .ok (length, temp) =>
      if length.toNat ≠ rawData.length - fmt.headerSize then
        (.error (.runtimeError fmt.mismatch), p)
      else
        let p := { p with buffer := p.buffer.clear }
        match temp.readBytes length.toNat with
        | .error e => (.error e, p)
        | .ok (payload, _) => (.ok (), { p with buffer := p.buffer.writeBytes payload })

variable {fmt}

variable (fmt) in
/-- `build_packet` is the frame of the opcode and the whole payload. -/
lemma buildPacketWith_eq (p : PacketOf ω) :
    p.buildPacketWith fmt = fmt.frame p.opcode p.buffer.buffer := by
  have hlen : Endian.toBE 2 (UInt16.ofNat p.buffer.size).toNat =
      Endian.toBE 2 p.buffer.buffer.length := by
    have hdiv := Nat.mod_add_div p.buffer.size (256 ^ 2)
    have hmod := Endian.toBE_add_mul 2 (p.buffer.size % 256 ^ 2) (p.buffer.size / 256 ^ 2)
    rw [UInt16.toNat_ofNat', ← ByteBuffer.size]
    rw [Nat.mul_comm, Nat.add_comm, hdiv] at hmod
    exact hmod.symm
  simp only [buildPacketWith, fmt.write_eq, ByteBuffer.writeUint16Be, ByteBuffer.writeBytes, hlen,
    List.nil_append, List.append_assoc]
  rfl

/-- **`deserialize` on a full header**: it succeeds exactly when the length field is the number
of bytes that follow, and then holds the opcode and these bytes, unread.

**Proof sketch.** The opcode and the length are read off the header. If they agree with the size,
`read_bytes` takes the rest; otherwise the object keeps its old payload. -/
lemma deserialize_header (p : PacketOf ω) (o : ω) (length : UInt16) (rest : Bytes) :
    p.deserializeWith fmt (fmt.encode o ++ (Endian.toBE 2 length.toNat ++ rest)) =
      if length.toNat = rest.length then (.ok (), ⟨o, { buffer := rest }⟩)
      else (.error (.runtimeError fmt.mismatch), { p with opcode := o }) := by
  have hsize : (fmt.encode o ++ (Endian.toBE 2 length.toNat ++ rest)).length - fmt.headerSize =
      rest.length := by
    simp only [HeaderFormat.headerSize, List.length_append, fmt.length_encode, Endian.length_toBE]
    omega
  simp only [deserializeWith, fmt.read_encode, ByteBuffer.readUint16Be_cursor, hsize]
  by_cases h : length.toNat = rest.length
  · have hread := ByteBuffer.readBytes_cursor (fmt.encode o ++ Endian.toBE 2 length.toNat) rest []
    rw [List.append_nil] at hread
    simp only [h] at hread
    simp only [h, ne_eq, not_true_eq_false, ite_false, ite_true, hread]
    rfl
  · simp only [ne_eq, h, not_false_eq_true, ite_true, ite_false]

/-- Without a full header `deserialize` throws.

**Proof sketch.** Either the opcode does not fit, or it does and the length does not. -/
lemma deserialize_short (p : PacketOf ω) {raw : Bytes} (h : raw.length < fmt.headerSize)
    (hw : fmt.headerSize < 2 ^ 64) : ∃ e, (p.deserializeWith fmt raw).1 = .error e := by
  by_cases hop : raw.length < fmt.width
  · obtain ⟨e, he⟩ := fmt.read_short raw hop
    exact ⟨e, by simp only [deserializeWith, he]⟩
  · obtain ⟨o, rest, rfl, hrest⟩ : ∃ o rest, raw = fmt.encode o ++ rest ∧ rest.length < 2 := by
      refine ⟨fmt.decode (raw.take fmt.width), raw.drop fmt.width, ?_, ?_⟩
      · rw [fmt.encode_decode _ (by rw [List.length_take]; omega), List.take_append_drop]
      · rw [List.length_drop]; unfold HeaderFormat.headerSize at h; omega
    have hcheck := ByteBuffer.checkRead_short (b := .cursor (fmt.encode o) rest) (n := 2)
      (by simpa [ByteBuffer.size] using hrest)
      (by simpa [fmt.length_encode, HeaderFormat.headerSize] using hw)
    refine ⟨.outOfRange "ByteBuffer: not enough data to read", ?_⟩
    simp only [deserializeWith, fmt.read_encode, ByteBuffer.readUint16Be, ByteBuffer.readFixed,
      hcheck]
    rfl

variable (fmt) in
/-- Any input as long as a header is one, with the bytes that follow. -/
lemma exists_header {raw : Bytes} (h : fmt.headerSize ≤ raw.length) :
    ∃ (o : ω) (length : UInt16) (rest : Bytes),
      raw = fmt.encode o ++ (Endian.toBE 2 length.toNat ++ rest) ∧
      length.toNat = Endian.ofBE ((raw.drop fmt.width).take 2) ∧
      rest.length = raw.length - fmt.headerSize := by
  unfold HeaderFormat.headerSize at h ⊢
  set field := (raw.drop fmt.width).take 2 with hfield
  have hlen : field.length = 2 := by
    rw [hfield, List.length_take, List.length_drop]; omega
  have hval : (UInt16.ofNat (Endian.ofBE field)).toNat = Endian.ofBE field := by
    have := Endian.ofBE_lt field
    rw [hlen] at this
    exact UInt16.toNat_ofNat_of_lt' this
  have hbytes : Endian.toBE 2 (UInt16.ofNat (Endian.ofBE field)).toNat = field := by
    have := Endian.toBE_ofBE field
    rw [hlen] at this
    rw [hval, this]
  refine ⟨fmt.decode (raw.take fmt.width), UInt16.ofNat (Endian.ofBE field),
    raw.drop (fmt.width + 2), ?_, hval, by rw [List.length_drop]⟩
  rw [hbytes, hfield, fmt.encode_decode _ (by rw [List.length_take]; omega), ← List.drop_drop,
    List.take_append_drop, List.take_append_drop]

/-- `deserialize` succeeds exactly on a full header whose length field is the number of bytes
that follow it. -/
lemma deserialize_ok_iff (hw : fmt.headerSize < 2 ^ 64) (p : PacketOf ω) (raw : Bytes) :
    (p.deserializeWith fmt raw).1 = .ok () ↔ fmt.headerSize ≤ raw.length ∧
      Endian.ofBE ((raw.drop fmt.width).take 2) = raw.length - fmt.headerSize := by
  by_cases h : raw.length < fmt.headerSize
  · obtain ⟨e, he⟩ := p.deserialize_short h hw
    simp only [he, reduceCtorEq, false_iff]
    omega
  · obtain ⟨o, length, rest, hraw, hfield, hrest⟩ := exists_header fmt (not_lt.1 h)
    rw [← hfield, ← hrest]
    conv_lhs => rw [hraw, deserialize_header]
    split_ifs with heq <;> simp [heq, not_lt.1 h]

/-- A successful `deserialize` is undone by `build_packet`, and leaves the cursor at `0`. -/
lemma buildPacket_of_deserialize (hw : fmt.headerSize < 2 ^ 64) (p : PacketOf ω) {raw : Bytes}
    (h : (p.deserializeWith fmt raw).1 = .ok ()) :
    (p.deserializeWith fmt raw).2.buildPacketWith fmt = raw ∧
      (p.deserializeWith fmt raw).2.buffer.readPos = 0 := by
  obtain ⟨hlen, heq⟩ := (deserialize_ok_iff hw p raw).1 h
  obtain ⟨o, length, rest, hraw, hfield, hrest⟩ := exists_header fmt hlen
  have hdes : p.deserializeWith fmt raw = (.ok (), ⟨o, { buffer := rest }⟩) := by
    conv_lhs => rw [hraw, deserialize_header, if_pos (by omega)]
  rw [hdes, buildPacketWith_eq]
  refine ⟨?_, rfl⟩
  rw [HeaderFormat.frame, ← show length.toNat = rest.length by omega]
  exact hraw.symm

/-- `deserialize` on a frame: it accepts payloads of at most 65535 bytes, and returns them. -/
lemma deserialize_frame (p : PacketOf ω) (o : ω) (payload : Bytes) :
    p.deserializeWith fmt (fmt.frame o payload) =
      if payload.length ≤ 65535 then (.ok (), ⟨o, { buffer := payload }⟩)
      else (.error (.runtimeError fmt.mismatch), { p with opcode := o }) := by
  have hfield : Endian.toBE 2 (UInt16.ofNat payload.length).toNat =
      Endian.toBE 2 payload.length := by
    have := buildPacketWith_eq fmt ⟨o, { buffer := payload }⟩
    simpa [buildPacketWith, fmt.write_eq, ByteBuffer.writeUint16Be, ByteBuffer.writeBytes,
      ByteBuffer.size, HeaderFormat.frame] using this
  rw [HeaderFormat.frame, ← hfield, deserialize_header, UInt16.toNat_ofNat']
  have hiff : payload.length % 2 ^ 16 = payload.length ↔ payload.length ≤ 65535 := by omega
  simp only [hiff]

end PacketOf

/-- `AuthPacket` -/
abbrev AuthPacket := PacketOf UInt8

/-- `WorkPacket` -/
abbrev WorkPacket := PacketOf UInt16

/-- `AuthPacket::build_packet` -/
def AuthPacket.buildPacket (p : AuthPacket) : Bytes := p.buildPacketWith authFormat

/-- `AuthPacket::deserialize` -/
def AuthPacket.deserialize (p : AuthPacket) (rawData : Bytes) : Except Exn Unit × AuthPacket :=
  p.deserializeWith authFormat rawData

/-- `WorkPacket::build_packet` -/
def WorkPacket.buildPacket (p : WorkPacket) : Bytes := p.buildPacketWith workFormat

/-- `WorkPacket::deserialize` -/
def WorkPacket.deserialize (p : WorkPacket) (rawData : Bytes) : Except Exn Unit × WorkPacket :=
  p.deserializeWith workFormat rawData

/-- The base class `Packet`: a packet of either kind, whose `build_packet` is virtual. -/
inductive Packet where
  | auth (p : AuthPacket)
  | work (p : WorkPacket)
  deriving DecidableEq, Repr

/-- The virtual `build_packet`. -/
def Packet.buildPacket : Packet → Bytes
  | .auth p => AuthPacket.buildPacket p
  | .work p => WorkPacket.buildPacket p

/-- **The frame codec is exact**, for both packet classes. Whatever the packet object held,
`deserialize(raw)` succeeds exactly when `raw` has a full header and the 16-bit value at its end
is the number of bytes after it; then `build_packet()` gives `raw` back and the payload is unread.
And `deserialize(p.build_packet())` succeeds exactly when the payload of `p` has at most 65535
bytes, and then yields the opcode and the payload of `p`.

**Proof sketch.** Both halves are instances of the lemmas over a header format. -/
theorem frameCodec_exact :
    ((∀ (p : AuthPacket) (raw : Bytes),
        ((AuthPacket.deserialize p raw).1 = .ok () ↔ 3 ≤ raw.length ∧
          Endian.ofBE ((raw.drop 1).take 2) = raw.length - 3) ∧
        ((AuthPacket.deserialize p raw).1 = .ok () →
          AuthPacket.buildPacket (AuthPacket.deserialize p raw).2 = raw ∧
          (AuthPacket.deserialize p raw).2.buffer.readPos = 0)) ∧
      ∀ p q : AuthPacket,
        ((AuthPacket.deserialize q (AuthPacket.buildPacket p)).1 = .ok () ↔
          p.buffer.size ≤ 65535) ∧
        ((AuthPacket.deserialize q (AuthPacket.buildPacket p)).1 = .ok () →
          (AuthPacket.deserialize q (AuthPacket.buildPacket p)).2.opcode = p.opcode ∧
          (AuthPacket.deserialize q (AuthPacket.buildPacket p)).2.buffer.buffer =
            p.buffer.buffer)) ∧
    ((∀ (p : WorkPacket) (raw : Bytes),
        ((WorkPacket.deserialize p raw).1 = .ok () ↔ 4 ≤ raw.length ∧
          Endian.ofBE ((raw.drop 2).take 2) = raw.length - 4) ∧
        ((WorkPacket.deserialize p raw).1 = .ok () →
          WorkPacket.buildPacket (WorkPacket.deserialize p raw).2 = raw ∧
          (WorkPacket.deserialize p raw).2.buffer.readPos = 0)) ∧
      ∀ p q : WorkPacket,
        ((WorkPacket.deserialize q (WorkPacket.buildPacket p)).1 = .ok () ↔
          p.buffer.size ≤ 65535) ∧
        ((WorkPacket.deserialize q (WorkPacket.buildPacket p)).1 = .ok () →
          (WorkPacket.deserialize q (WorkPacket.buildPacket p)).2.opcode = p.opcode ∧
          (WorkPacket.deserialize q (WorkPacket.buildPacket p)).2.buffer.buffer =
            p.buffer.buffer)) := by
  have hauth : authFormat.headerSize < 2 ^ 64 := by decide
  have hwork : workFormat.headerSize < 2 ^ 64 := by decide
  refine ⟨⟨fun p raw => ⟨PacketOf.deserialize_ok_iff hauth p raw,
    PacketOf.buildPacket_of_deserialize hauth p⟩, fun p q => ?_⟩,
    fun p raw => ⟨PacketOf.deserialize_ok_iff hwork p raw,
    PacketOf.buildPacket_of_deserialize hwork p⟩, fun p q => ?_⟩
  · simp only [AuthPacket.deserialize, AuthPacket.buildPacket, PacketOf.buildPacketWith_eq,
      PacketOf.deserialize_frame, ByteBuffer.size]
    split_ifs with h <;> simp [h]
  · simp only [WorkPacket.deserialize, WorkPacket.buildPacket, PacketOf.buildPacketWith_eq,
      PacketOf.deserialize_frame, ByteBuffer.size]
    split_ifs with h <;> simp [h]

end Purity
