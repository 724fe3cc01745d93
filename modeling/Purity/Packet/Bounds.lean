import Purity.Base.Run
import Purity.Packet.Fields

set_option relaxedAutoImplicit false
set_option autoImplicit false

/-!
# The bounds check of the byte buffer

All reads of a `ByteBuffer` but those of null-terminated strings go through `check_read`, which
adds the cursor and a length in 64-bit arithmetic. A caller may pass any length, so the sum can wrap
around. The reads that build a vector or a string of that length then fail there; `skip` builds
nothing, and moves the cursor backwards.

## Main definitions

* `Purity.BufferCall` — the calls of the methods that change a buffer, `Purity.BufferCall.run` what
  each returns or throws, and `Purity.ByteBuffer.step` the buffer after it.
* `Purity.ByteBuffer.Bounded` — the cursor is in the buffer, and the buffer is a vector.
* `Purity.ReadsExactly` — what a read of `n` bytes should do.

## Main results

* `Purity.ByteBuffer.Bounded.exec` — every sequence of calls keeps the buffer bounded.
* `Purity.FieldType.read_exact` — a read of a typed field is exact, whatever the length.
* `Purity.readsExactly_iff` — a read of `n` bytes is exact unless it is a `skip` whose sum wraps.

## Implementation notes

A method that throws does so before it changes a member, so the buffer after it is the buffer
before. A null-terminated string with a NUL inside is written as the block of its bytes is.
-/

namespace Purity

/-! ## Calls -/

/-- A call of a method of `ByteBuffer` that changes it. -/
inductive BufferCall where
  | write (f : Field)
  | read (t : FieldType)
  | skip (bytes : ℕ)
  | clear
  | resetRead

/-- The number of bytes a read takes from the buffer: its width, or the length it is called with.
The null-terminated strings have none. -/
def FieldType.width : FieldType → Option ℕ
  | .uint8 | .int8 | .bool => some 1
  | .uint16 _ | .int16 _ => some 2
  | .uint32 _ | .int32 _ | .float _ => some 4
  | .uint64 _ | .int64 _ | .double _ => some 8
  | .stringRaw _ length => some length
  | .bytes length => some length
  | .stringNt _ => none

/-- The same for a call. -/
def BufferCall.width : BufferCall → Option ℕ
  | .read t => t.width
  | .skip bytes => some bytes
  | _ => none

/-- What a call returns, and the buffer it leaves; or the exception it throws. -/
def BufferCall.run (b : ByteBuffer) : BufferCall → Except Exn (Option Field × ByteBuffer)
  | .write f => .ok (none, f.write b)
  | .read t => (t.read b).map fun (f, b) => (some f, b)
  | .skip bytes => (b.skip bytes).map fun b => (none, b)
  | .clear => .ok (none, b.clear)
  | .resetRead => .ok (none, b.resetRead)

namespace ByteBuffer

/-- The buffer after a call. The length is a `size_t`, and a vector does not grow beyond its
`max_size()`. -/
def step (b : ByteBuffer) (call : BufferCall) : Option ByteBuffer :=
  match call.run b with
  | .error _ => if ∀ n ∈ call.width, n < 2 ^ 64 then some b else none
  | .ok (_, b') =>
    if (∀ n ∈ call.width, n < 2 ^ 64) ∧ b'.size ≤ maxSize then some b' else none

/-- The cursor is at most at the end, and the size is that of a vector. -/
structure Bounded (b : ByteBuffer) : Prop where
  readPos_le : b.readPos ≤ b.size
  size_le : b.size ≤ maxSize

end ByteBuffer

/-- The value a read returns for the bytes it takes. -/
def FieldType.decode (bs : Bytes) : FieldType → Option Field
  | .uint8 => some (.uint8 (bs.getD 0 0))
  | .int8 => some (.int8 (bs.getD 0 0).toInt8)
  | .uint16 .be => some (.uint16 .be (UInt16.ofNat (Endian.ofBE bs)))
  | .uint16 .le => some (.uint16 .le (UInt16.ofNat (Endian.ofLE bs)))
  | .int16 .be => some (.int16 .be (UInt16.ofNat (Endian.ofBE bs)).toInt16)
  | .int16 .le => some (.int16 .le (UInt16.ofNat (Endian.ofLE bs)).toInt16)
  | .uint32 .be => some (.uint32 .be (UInt32.ofNat (Endian.ofBE bs)))
  | .uint32 .le => some (.uint32 .le (UInt32.ofNat (Endian.ofLE bs)))
  | .int32 .be => some (.int32 .be (UInt32.ofNat (Endian.ofBE bs)).toInt32)
  | .int32 .le => some (.int32 .le (UInt32.ofNat (Endian.ofLE bs)).toInt32)
  | .uint64 .be => some (.uint64 .be (UInt64.ofNat (Endian.ofBE bs)))
  | .uint64 .le => some (.uint64 .le (UInt64.ofNat (Endian.ofLE bs)))
  | .int64 .be => some (.int64 .be (UInt64.ofNat (Endian.ofBE bs)).toInt64)
  | .int64 .le => some (.int64 .le (UInt64.ofNat (Endian.ofLE bs)).toInt64)
  | .float .be => some (.float .be (UInt32.ofNat (Endian.ofBE bs)))
  | .float .le => some (.float .le (UInt32.ofNat (Endian.ofLE bs)))
  | .double .be => some (.double .be (UInt64.ofNat (Endian.ofBE bs)))
  | .double .le => some (.double .le (UInt64.ofNat (Endian.ofLE bs)))
  | .bool => some (.bool (bs.getD 0 0 != 0))
  | .stringRaw .be _ => some (.stringRaw .be bs)
  | .stringRaw .le _ => some (.stringRaw .le bs.reverse)
  | .bytes _ => some (.bytes bs)
  | .stringNt _ => none

/-- The value a call returns for the bytes it takes. -/
def BufferCall.decode (bs : Bytes) : BufferCall → Option Field
  | .read t => t.decode bs
  | _ => none

/-- **What a read of `n` bytes should do**: it returns exactly if `n` bytes are left; then the
cursor has moved over them and the value is that of these bytes; and if it throws, nothing has
changed. -/
structure ReadsExactly (b : ByteBuffer) (call : BufferCall) (n : ℕ) : Prop where
  returns : (∃ r, call.run b = .ok r) ↔ n ≤ b.size - b.readPos
  value : ∀ f b', call.run b = .ok (f, b') →
    f = call.decode ((b.buffer.drop b.readPos).take n) ∧ b'.buffer = b.buffer ∧
      b'.readPos = b.readPos + n
  unchanged : ∀ e, call.run b = .error e → b.step call = some b

/-! ## The typed reads -/

namespace ByteBuffer

variable {b : ByteBuffer} {n : ℕ}

/-- The check passes if the bytes are there. -/
lemma checkRead_of_le (h : b.readPos + n ≤ b.size) : b.checkRead n = .ok () := by
  have hmod : (b.readPos + n) % 2 ^ 64 ≤ b.readPos + n := Nat.mod_le _ _
  rw [checkRead, if_neg]
  unfold size at h
  omega

/-- It also passes if the sum wraps around. -/
lemma Bounded.checkRead_wraps (hb : b.Bounded) (hn : n < 2 ^ 64) (h : 2 ^ 64 ≤ b.readPos + n) :
    b.checkRead n = .ok () := by
  have hpos := hb.readPos_le
  have hsum : (b.readPos + n) % 2 ^ 64 = b.readPos + n - 2 ^ 64 := by
    rw [Nat.mod_eq_sub_mod h, Nat.mod_eq_of_lt]
    have := hb.size_le
    unfold maxSize at this
    omega
  rw [checkRead, hsum, if_neg]
  unfold size at hpos
  omega

/-- A fixed-width read of bytes that are there. -/
lemma readFixed_of_le (h : b.readPos + n ≤ b.size) : b.readFixed n =
    .ok ((b.buffer.drop b.readPos).take n, { b with readPos := b.readPos + n }) := by
  rw [readFixed, checkRead_of_le h]
  rfl

/-- A fixed-width read of bytes that are not there. -/
lemma readFixed_of_lt (h : b.size < b.readPos + n) (hw : b.readPos + n < 2 ^ 64) :
    ∃ e, b.readFixed n = .error e := by
  rw [readFixed, checkRead_short h hw]
  exact ⟨_, rfl⟩

/-- `read_uint8` as a read of width one. -/
lemma readUint8_eq (b : ByteBuffer) :
    b.readUint8 = (b.readFixed 1).map fun (bs, b) => (bs.getD 0 0, b) := by
  have hget : ((b.buffer.drop b.readPos).take 1).getD 0 0 = b.buffer.getD b.readPos 0 := by
    simp [List.getD_eq_getElem?_getD, List.getElem?_drop]
  rw [readUint8, readFixed]
  cases b.checkRead 1 with
  | error e => rfl
  | ok u =>
    simp only [bind, Except.bind, pure, Except.pure, Except.map, hget]

/-- `read_bytes` of bytes that are not there throws, whether the sum wraps or not. -/
lemma readBytes_error (h : b.size < b.readPos + n) : ∃ e, b.readBytes n = .error e := by
  unfold size at h
  rw [readBytes]
  cases b.checkRead n with
  | error e => exact ⟨e, rfl⟩
  | ok u =>
    simp only [bind, Except.bind, if_pos h]
    exact ⟨_, rfl⟩

end ByteBuffer

open ByteBuffer in
/-- A typed read copies the bytes out, with a width of at most 8 or as `read_bytes` does, and
decodes them. -/
lemma FieldType.read_eq_map (b : ByteBuffer) {t : FieldType} {n : ℕ} (hw : t.width = some n) :
    ∃ g : Bytes → Field, (∀ bs, t.decode bs = some (g bs)) ∧
      ((n ≤ 8 ∧ t.read b = (b.readFixed n).map fun (bs, b) => (g bs, b)) ∨
        t.read b = (b.readBytes n).map fun (bs, b) => (g bs, b)) := by
  rcases t with _ | _ | ⟨_ | _⟩ | ⟨_ | _⟩ | ⟨_ | _⟩ | ⟨_ | _⟩ | ⟨_ | _⟩ | ⟨_ | _⟩ | ⟨_ | _⟩ |
    ⟨_ | _⟩ | _ | ⟨_ | _, length⟩ | length | ⟨_ | _⟩ <;> cases hw
  case stringRaw.be | bytes => exact ⟨_, fun bs => rfl, .inr rfl⟩
  case stringRaw.le =>
    refine ⟨_, fun bs => rfl, .inr ?_⟩
    simp only [read, Field.ofRead, readStringRawLe]
    cases b.readBytes n <;> rfl
  case bool =>
    -- the check is made twice, with the same result
    refine ⟨_, fun bs => rfl, .inl ⟨by decide, ?_⟩⟩
    simp only [read, Field.ofRead, readBool, readUint8_eq, readFixed]
    cases b.checkRead 1 <;> rfl
  all_goals
    refine ⟨_, fun bs => rfl, .inl ⟨by decide, ?_⟩⟩
    simp only [read, Field.ofRead, readUint8_eq, readInt8, readUint16Be, readUint16Le, readInt16Be,
      readInt16Le, readUint32Be, readUint32Le, readInt32Be, readInt32Le, readUint64Be, readUint64Le,
      readInt64Be, readInt64Le, readFloatBe, readFloatLe, readDoubleBe, readDoubleLe]
    cases b.readFixed _ <;> rfl

open ByteBuffer in
/-- **The typed reads are exact.** With the bytes there a read takes them; without, it throws.

**Proof sketch.** A fixed width does not make the sum wrap. For the lengths that do, `read_bytes`
throws too. -/
lemma FieldType.read_exact {b : ByteBuffer} (hb : b.Bounded) {t : FieldType} {n : ℕ}
    (hw : t.width = some n) :
    (b.readPos + n ≤ b.size ∧ ∃ f, t.decode ((b.buffer.drop b.readPos).take n) = some f ∧
      t.read b = .ok (f, { b with readPos := b.readPos + n })) ∨
    (b.size < b.readPos + n ∧ ∃ e, t.read b = .error e) := by
  have hsize := hb.size_le
  have hpos := hb.readPos_le
  unfold maxSize at hsize
  obtain ⟨g, hg, hread⟩ := t.read_eq_map b hw
  by_cases hle : b.readPos + n ≤ b.size
  · refine .inl ⟨hle, g _, hg _, ?_⟩
    rcases hread with ⟨-, hread⟩ | hread
    · rw [hread, readFixed_of_le hle]
      rfl
    · rw [hread, readBytes_of_le hle]
      rfl
  · have hlt := not_le.1 hle
    refine .inr ⟨hlt, ?_⟩
    rcases hread with ⟨hn, hread⟩ | hread
    · obtain ⟨e, he⟩ := readFixed_of_lt hlt (by omega)
      exact ⟨e, by rw [hread, he]; rfl⟩
    · obtain ⟨e, he⟩ := readBytes_error hlt
      exact ⟨e, by rw [hread, he]; rfl⟩

/-! ## Every sequence of calls -/

namespace ByteBuffer

variable {b b' : ByteBuffer}

/-- The buffer a constructor makes is bounded. -/
lemma bounded_ofBytes {data : Bytes} (h : data.length ≤ maxSize) : (ofBytes data).Bounded :=
  ⟨Nat.zero_le _, h⟩

/-- The loop of the null-terminated strings stays in the buffer. -/
lemma scanNt_le (bs : Bytes) : (scanNt bs).2 ≤ bs.length := by
  induction bs with
  | nil => simp [scanNt]
  | cons c bs ih =>
    rw [scanNt]
    split_ifs
    · simp
    · simpa using ih

/-- A read of a null-terminated string stays in the buffer. -/
lemma readStringNtBe_readPos_le (h : b.readPos ≤ b.size) :
    b.readStringNtBe.2.readPos ≤ b.size := by
  have hscan := scanNt_le (b.buffer.drop b.readPos)
  rw [List.length_drop] at hscan
  simp only [readStringNtBe]
  unfold size at h ⊢
  omega

/-- Only the strings up to a NUL have no width. -/
lemma FieldType.eq_stringNt_of_width {t : FieldType} (h : t.width = none) :
    ∃ order, t = .stringNt order := by
  cases t with
  | stringNt order => exact ⟨order, rfl⟩
  | _ => cases h

/-- **One call** that returns leaves the cursor in the buffer.

**Proof sketch.** Writing adds bytes at the end. A typed read takes bytes that are there. `skip`
puts the cursor where the check has looked, wrapped or not. -/
lemma Bounded.run_readPos_le (hb : b.Bounded) {call : BufferCall} {f : Option Field}
    (h : call.run b = .ok (f, b')) : b'.readPos ≤ b'.size := by
  have hpos := hb.readPos_le
  cases call with
  | write f =>
    cases h
    rw [Field.write_eq]
    simp only [writeBytes, size, List.length_append]
    unfold size at hpos
    omega
  | read t =>
    cases hw : t.width with
    | none =>
      obtain ⟨order, rfl⟩ := FieldType.eq_stringNt_of_width hw
      cases order with
      | be =>
        cases h
        exact readStringNtBe_readPos_le hpos
      | le =>
        cases h
        exact readStringNtBe_readPos_le hpos
    | some n =>
      simp only [BufferCall.run] at h
      rcases FieldType.read_exact hb hw with ⟨hle, f', -, hread⟩ | ⟨-, e, hread⟩
      · rw [hread] at h
        cases h
        exact hle
      · rw [hread] at h
        cases h
  | skip n =>
    simp only [BufferCall.run, skip, checkRead] at h
    split_ifs at h with hcheck
    · cases h
    · cases h
      exact not_lt.1 hcheck
  | clear =>
    cases h
    exact le_rfl
  | resetRead =>
    cases h
    exact Nat.zero_le _

/-- **One step** keeps the buffer bounded. -/
lemma Bounded.step (hb : b.Bounded) {call : BufferCall} (h : b.step call = some b') :
    b'.Bounded := by
  unfold ByteBuffer.step at h
  split at h
  · split_ifs at h
    cases h
    exact hb
  · next f c hrun =>
    split_ifs at h with hsize
    cases h
    exact ⟨hb.run_readPos_le hrun, hsize.2⟩

/-- **Every sequence of calls** keeps the buffer bounded. -/
lemma Bounded.exec (hb : b.Bounded) {calls : List BufferCall}
    (h : Run.exec ByteBuffer.step b calls = some b') : b'.Bounded :=
  Run.exec_invariant (fun _ _ _ hs hstep => hs.step hstep) hb h

end ByteBuffer

/-! ## Exact reads -/

section Exact

variable {b : ByteBuffer} {call : BufferCall} {n : ℕ}

/-- A call that takes bytes that are there is exact. -/
lemma ReadsExactly.of_ok (hle : b.readPos + n ≤ b.size)
    (hrun : call.run b = .ok (call.decode ((b.buffer.drop b.readPos).take n),
      { b with readPos := b.readPos + n })) : ReadsExactly b call n where
  returns := ⟨fun _ => by omega, fun _ => ⟨_, hrun⟩⟩
  value f b' hok := by
    rw [hrun] at hok
    cases hok
    exact ⟨rfl, rfl, rfl⟩
  unchanged e herr := by
    rw [hrun] at herr
    cases herr

/-- A call that throws because bytes are missing is exact. -/
lemma ReadsExactly.of_error (hb : b.Bounded) (hw : call.width = some n) (hn : n < 2 ^ 64)
    (hlt : b.size < b.readPos + n) {e : Exn} (hrun : call.run b = .error e) :
    ReadsExactly b call n where
  returns := by
    have hpos := hb.readPos_le
    refine ⟨fun ⟨r, hr⟩ => ?_, fun _ => by omega⟩
    rw [hrun] at hr
    cases hr
  value f b' hok := by
    rw [hrun] at hok
    cases hok
  unchanged e' herr := by
    have hwidth : ∀ m ∈ call.width, m < 2 ^ 64 := by
      intro m hm
      obtain rfl : n = m := by simpa [hw] using hm
      exact hn
    rw [ByteBuffer.step, hrun]
    exact if_pos hwidth

/-- A typed read is exact, whatever its length. -/
lemma readsExactly_read (hb : b.Bounded) {t : FieldType} (hw : t.width = some n)
    (hn : n < 2 ^ 64) : ReadsExactly b (.read t) n := by
  rcases FieldType.read_exact hb hw with ⟨hle, f, hf, hread⟩ | ⟨hlt, e, hread⟩
  · refine .of_ok hle ?_
    simp only [BufferCall.run, BufferCall.decode, hread, hf]
    rfl
  · refine .of_error hb hw hn hlt (e := e) ?_
    simp only [BufferCall.run, hread]
    rfl

/-- `skip` is exact as long as the sum does not wrap. -/
lemma readsExactly_skip (hb : b.Bounded) (h : b.readPos + n < 2 ^ 64) :
    ReadsExactly b (.skip n) n := by
  by_cases hle : b.readPos + n ≤ b.size
  · refine .of_ok hle ?_
    simp only [BufferCall.run, ByteBuffer.skip, ByteBuffer.checkRead_of_le hle,
      Nat.mod_eq_of_lt h]
    rfl
  · have hlt := not_le.1 hle
    have hcheck := ByteBuffer.checkRead_short hlt h
    refine .of_error hb rfl (by omega) hlt
      (e := .outOfRange "ByteBuffer: not enough data to read") ?_
    simp only [BufferCall.run, ByteBuffer.skip, hcheck]
    rfl

/-- A `skip` whose sum wraps returns although the bytes are not there. -/
lemma skip_wraps (hb : b.Bounded) (hn : n < 2 ^ 64) (h : 2 ^ 64 ≤ b.readPos + n) :
    (∃ r, (BufferCall.skip n).run b = .ok r) ∧ b.size - b.readPos < n := by
  have hpos := hb.readPos_le
  have hsize := hb.size_le
  unfold ByteBuffer.maxSize at hsize
  refine ⟨?_, by omega⟩
  simp only [BufferCall.run, ByteBuffer.skip, hb.checkRead_wraps hn h]
  exact ⟨_, rfl⟩

end Exact

/-- **The bounds law.** After every sequence of calls the cursor is in the buffer, and a read of `n`
bytes is exact: it returns exactly if `n` bytes are left, with these bytes and the cursor behind
them, and otherwise throws and changes nothing. The one exception is `skip` with a length that makes
the sum of the bounds check wrap.

**Proof sketch.** `FieldType.read_exact` for the typed reads. A `skip` that wraps returns, while
fewer bytes than `n` are left. -/
theorem readsExactly_iff {data : Bytes} {calls : List BufferCall} {b : ByteBuffer}
    {call : BufferCall} {n : ℕ} (hdata : data.length ≤ ByteBuffer.maxSize)
    (hexec : Run.exec ByteBuffer.step (ByteBuffer.ofBytes data) calls = some b)
    (hw : call.width = some n) (hn : n < 2 ^ 64) :
    b.readPos ≤ b.size ∧
      (ReadsExactly b call n ↔ ∀ m, call = .skip m → b.readPos + m < 2 ^ 64) := by
  have hb : b.Bounded := (ByteBuffer.bounded_ofBytes hdata).exec hexec
  refine ⟨hb.readPos_le, ?_⟩
  cases call with
  | write f => cases hw
  | clear => cases hw
  | resetRead => cases hw
  | read t =>
    constructor
    · intro _ m hm
      cases hm
    · intro _
      exact readsExactly_read hb hw hn
  | skip m =>
    obtain rfl : m = n := Option.some.inj hw
    constructor
    · rintro hexact m' hm'
      cases hm'
      by_contra hwrap
      obtain ⟨hreturns, hleft⟩ := skip_wraps hb hn (not_lt.1 hwrap)
      exact absurd (hexact.returns.1 hreturns) (not_le.2 hleft)
    · intro h
      exact readsExactly_skip hb (h m rfl)

/-- The law for `read_bytes` with the greatest length there is. -/
theorem readsExactly_max : ∃ b, Run.exec ByteBuffer.step (ByteBuffer.ofBytes [7, 8])
      [.read .uint8] = some b ∧ ReadsExactly b (.read (.bytes (2 ^ 64 - 1))) (2 ^ 64 - 1) := by
  have hexec : Run.exec ByteBuffer.step (ByteBuffer.ofBytes [7, 8]) [.read .uint8] =
      some { buffer := [7, 8], readPos := 1 } := rfl
  have hsize : ([7, 8] : Bytes).length ≤ ByteBuffer.maxSize := by decide
  refine ⟨_, hexec, (readsExactly_iff hsize hexec rfl (by decide)).2.2 ?_⟩
  intro m hm
  cases hm

/-- After one byte of two has been read, `skip(2 ^ 64 - 1)` returns and puts the cursor back to the
start. -/
theorem skip_backwards : ∃ b, Run.exec ByteBuffer.step (ByteBuffer.ofBytes [7, 8])
      [.read .uint8] = some b ∧
    (BufferCall.skip (2 ^ 64 - 1)).run b = .ok (none, { b with readPos := 0 }) ∧
    b.size - b.readPos < 2 ^ 64 - 1 ∧ ¬ ReadsExactly b (.skip (2 ^ 64 - 1)) (2 ^ 64 - 1) := by
  have hrun : (BufferCall.skip (2 ^ 64 - 1)).run { buffer := [7, 8], readPos := 1 } =
      .ok (none, { buffer := [7, 8], readPos := 0 }) := by
    decide
  refine ⟨{ buffer := [7, 8], readPos := 1 }, rfl, hrun, by decide, fun hexact => ?_⟩
  have hleft := hexact.returns.1 ⟨_, hrun⟩
  exact absurd hleft (by decide)

end Purity
