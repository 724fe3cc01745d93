import Purity.Base.Endian

set_option relaxedAutoImplicit false
set_option autoImplicit false

/-!
# The byte buffer

`ByteBuffer` (`common/packet/ByteBuffer.hpp`) is a growing vector of bytes with a read cursor.
Writes append at the end; reads take bytes at the cursor and advance it. Every read goes through
one bounds check, `check_read`, made in 64-bit `size_t` arithmetic.

## Main definitions

* `Purity.Exn` — the exceptions the modelled code throws.
* `Purity.ByteBuffer` — the buffer, with its `write*` and `read*` methods under the source's names.
* `Purity.ByteBuffer.cursor` — the buffer whose cursor stands between two given byte lists.

## Main results

* `Purity.ByteBuffer.checkRead_cursor` — a read that fits passes the bounds check.
* `Purity.ByteBuffer.readFixed_cursor`, `readBytes_cursor`, `readStringNtBe_cursor` — what each kind
  of read returns, and where it leaves the cursor.

## Design

A `std::string` is its list of bytes, and a `float` or `double` is its bit pattern, since the
code only copies the object representation. `htobe16` and `memcpy` together lay a value out most
significant byte first whatever the host's byte order is, and are modelled by that layout. The
`ReadSource` argument of `check_read` only feeds the text of a log line and is left out.
-/

namespace Purity

/-- A list of raw bytes: a `std::vector<uint8_t>` or a `std::string`. -/
abbrev Bytes := List UInt8

/-- The exceptions of the modelled code, with the text of `what()` where the code sets it. -/
inductive Exn where
  /-- `std::out_of_range` -/
  | outOfRange (what : String)
  /-- `std::length_error`, thrown by the standard containers -/
  | lengthError
  /-- `std::runtime_error` -/
  | runtimeError (what : String)
  /-- `std::invalid_argument` -/
  | invalidArgument (what : String)
  /-- an exception of the database library -/
  | pqxx (what : String)
  deriving DecidableEq, Repr

/-- A computation after another returns exactly if both return. -/
lemma bind_eq_ok {α β : Type} {x : Except Exn α} {f : α → Except Exn β} {r : β} :
    (x >>= f) = .ok r ↔ ∃ a, x = .ok a ∧ f a = .ok r := by
  cases x with
  | error e => simp [bind, Except.bind]
  | ok a => simp [bind, Except.bind]

/-- `buffer_` and `read_pos_`. -/
structure ByteBuffer where
  buffer : Bytes := []
  readPos : ℕ := 0
  deriving DecidableEq, Repr

namespace ByteBuffer

/-- The constructor from a vector: the cursor starts at `0`. -/
def ofBytes (data : Bytes) : ByteBuffer := { buffer := data }

/-- `size()` -/
def size (b : ByteBuffer) : ℕ := b.buffer.length

/-- `max_size()` of a vector of bytes. -/
def maxSize : ℕ := 2 ^ 63 - 1

/-! ## Write methods -/

/-- `write_bytes`: grow the vector and copy the block to its end. -/
def writeBytes (b : ByteBuffer) (data : Bytes) : ByteBuffer :=
  { b with buffer := b.buffer ++ data }

/-- `write_uint8` -/
def writeUint8 (b : ByteBuffer) (value : UInt8) : ByteBuffer :=
  { b with buffer := b.buffer ++ [value] }

/-- `write_int8` -/
def writeInt8 (b : ByteBuffer) (value : Int8) : ByteBuffer :=
  { b with buffer := b.buffer ++ [value.toUInt8] }

/-- `write_uint16_be` -/
def writeUint16Be (b : ByteBuffer) (value : UInt16) : ByteBuffer :=
  b.writeBytes (Endian.toBE 2 value.toNat)

/-- `write_int16_be` -/
def writeInt16Be (b : ByteBuffer) (value : Int16) : ByteBuffer := b.writeUint16Be value.toUInt16

/-- `write_uint32_be` -/
def writeUint32Be (b : ByteBuffer) (value : UInt32) : ByteBuffer :=
  b.writeBytes (Endian.toBE 4 value.toNat)

/-- `write_int32_be` -/
def writeInt32Be (b : ByteBuffer) (value : Int32) : ByteBuffer := b.writeUint32Be value.toUInt32

/-- `write_uint64_be` -/
def writeUint64Be (b : ByteBuffer) (value : UInt64) : ByteBuffer :=
  b.writeBytes (Endian.toBE 8 value.toNat)

/-- `write_int64_be` -/
def writeInt64Be (b : ByteBuffer) (value : Int64) : ByteBuffer := b.writeUint64Be value.toUInt64

/-- `write_float_be`, on the bit pattern of the value. -/
def writeFloatBe (b : ByteBuffer) (bits : UInt32) : ByteBuffer := b.writeUint32Be bits

/-- `write_double_be`, on the bit pattern of the value. -/
def writeDoubleBe (b : ByteBuffer) (bits : UInt64) : ByteBuffer := b.writeUint64Be bits

/-- `write_uint16_le` -/
def writeUint16Le (b : ByteBuffer) (value : UInt16) : ByteBuffer :=
  b.writeBytes (Endian.toLE 2 value.toNat)

/-- `write_int16_le` -/
def writeInt16Le (b : ByteBuffer) (value : Int16) : ByteBuffer := b.writeUint16Le value.toUInt16

/-- `write_uint32_le` -/
def writeUint32Le (b : ByteBuffer) (value : UInt32) : ByteBuffer :=
  b.writeBytes (Endian.toLE 4 value.toNat)

/-- `write_int32_le` -/
def writeInt32Le (b : ByteBuffer) (value : Int32) : ByteBuffer := b.writeUint32Le value.toUInt32

/-- `write_uint64_le` -/
def writeUint64Le (b : ByteBuffer) (value : UInt64) : ByteBuffer :=
  b.writeBytes (Endian.toLE 8 value.toNat)

/-- `write_int64_le` -/
def writeInt64Le (b : ByteBuffer) (value : Int64) : ByteBuffer := b.writeUint64Le value.toUInt64

/-- `write_float_le`, on the bit pattern of the value. -/
def writeFloatLe (b : ByteBuffer) (bits : UInt32) : ByteBuffer := b.writeUint32Le bits

/-- `write_double_le`, on the bit pattern of the value. -/
def writeDoubleLe (b : ByteBuffer) (bits : UInt64) : ByteBuffer := b.writeUint64Le bits

/-- `write_bool` -/
def writeBool (b : ByteBuffer) (value : Bool) : ByteBuffer :=
  { b with buffer := b.buffer ++ [if value then 1 else 0] }

/-- `write_string_raw_be`: the characters as they are. -/
def writeStringRawBe (b : ByteBuffer) (str : Bytes) : ByteBuffer := b.writeBytes str

/-- `write_string_raw_le`: the characters reversed. -/
def writeStringRawLe (b : ByteBuffer) (str : Bytes) : ByteBuffer := b.writeBytes str.reverse

/-- `write_string_nt_be` -/
def writeStringNtBe (b : ByteBuffer) (str : Bytes) : ByteBuffer :=
  (b.writeStringRawBe str).writeUint8 0x00

/-- `write_string_nt_le` -/
def writeStringNtLe (b : ByteBuffer) (str : Bytes) : ByteBuffer :=
  (b.writeStringRawLe str).writeUint8 0x00

/-! ## Read methods -/

/-- `check_read`: the sum wraps at `2 ^ 64`. -/
def checkRead (b : ByteBuffer) (n : ℕ) : Except Exn Unit :=
  if b.buffer.length < (b.readPos + n) % 2 ^ 64 then
    .error (.outOfRange "ByteBuffer: not enough data to read")
  else .ok ()

/-- The shared body of the fixed-width reads: check, copy `w` bytes out, advance. -/
def readFixed (w : ℕ) (b : ByteBuffer) : Except Exn (Bytes × ByteBuffer) := do
  b.checkRead w
  return ((b.buffer.drop b.readPos).take w, { b with readPos := b.readPos + w })

/-- `read_uint8` -/
def readUint8 (b : ByteBuffer) : Except Exn (UInt8 × ByteBuffer) := do
  b.checkRead 1
  return (b.buffer.getD b.readPos 0, { b with readPos := b.readPos + 1 })

/-- `read_int8` -/
def readInt8 (b : ByteBuffer) : Except Exn (Int8 × ByteBuffer) := do
  let (v, b) ← b.readUint8
  return (v.toInt8, b)

/-- `read_uint16_be` -/
def readUint16Be (b : ByteBuffer) : Except Exn (UInt16 × ByteBuffer) := do
  let (bs, b) ← b.readFixed 2
  return (UInt16.ofNat (Endian.ofBE bs), b)

/-- `read_int16_be` -/
def readInt16Be (b : ByteBuffer) : Except Exn (Int16 × ByteBuffer) := do
  let (v, b) ← b.readUint16Be
  return (v.toInt16, b)

/-- `read_uint32_be` -/
def readUint32Be (b : ByteBuffer) : Except Exn (UInt32 × ByteBuffer) := do
  let (bs, b) ← b.readFixed 4
  return (UInt32.ofNat (Endian.ofBE bs), b)

/-- `read_int32_be` -/
def readInt32Be (b : ByteBuffer) : Except Exn (Int32 × ByteBuffer) := do
  let (v, b) ← b.readUint32Be
  return (v.toInt32, b)

/-- `read_uint64_be` -/
def readUint64Be (b : ByteBuffer) : Except Exn (UInt64 × ByteBuffer) := do
  let (bs, b) ← b.readFixed 8
  return (UInt64.ofNat (Endian.ofBE bs), b)

/-- `read_int64_be` -/
def readInt64Be (b : ByteBuffer) : Except Exn (Int64 × ByteBuffer) := do
  let (v, b) ← b.readUint64Be
  return (v.toInt64, b)

/-- `read_float_be`, as a bit pattern. -/
def readFloatBe (b : ByteBuffer) : Except Exn (UInt32 × ByteBuffer) := b.readUint32Be

/-- `read_double_be`, as a bit pattern. -/
def readDoubleBe (b : ByteBuffer) : Except Exn (UInt64 × ByteBuffer) := b.readUint64Be

/-- `read_uint16_le` -/
def readUint16Le (b : ByteBuffer) : Except Exn (UInt16 × ByteBuffer) := do
  let (bs, b) ← b.readFixed 2
  return (UInt16.ofNat (Endian.ofLE bs), b)

/-- `read_int16_le` -/
def readInt16Le (b : ByteBuffer) : Except Exn (Int16 × ByteBuffer) := do
  let (v, b) ← b.readUint16Le
  return (v.toInt16, b)

/-- `read_uint32_le` -/
def readUint32Le (b : ByteBuffer) : Except Exn (UInt32 × ByteBuffer) := do
  let (bs, b) ← b.readFixed 4
  return (UInt32.ofNat (Endian.ofLE bs), b)

/-- `read_int32_le` -/
def readInt32Le (b : ByteBuffer) : Except Exn (Int32 × ByteBuffer) := do
  let (v, b) ← b.readUint32Le
  return (v.toInt32, b)

/-- `read_uint64_le` -/
def readUint64Le (b : ByteBuffer) : Except Exn (UInt64 × ByteBuffer) := do
  let (bs, b) ← b.readFixed 8
  return (UInt64.ofNat (Endian.ofLE bs), b)

/-- `read_int64_le` -/
def readInt64Le (b : ByteBuffer) : Except Exn (Int64 × ByteBuffer) := do
  let (v, b) ← b.readUint64Le
  return (v.toInt64, b)

/-- `read_float_le`, as a bit pattern. -/
def readFloatLe (b : ByteBuffer) : Except Exn (UInt32 × ByteBuffer) := b.readUint32Le

/-- `read_double_le`, as a bit pattern. -/
def readDoubleLe (b : ByteBuffer) : Except Exn (UInt64 × ByteBuffer) := b.readUint64Le

/-- `read_bool`: the check is made twice, here and in `read_uint8`. -/
def readBool (b : ByteBuffer) : Except Exn (Bool × ByteBuffer) := do
  b.checkRead 1
  let (v, b) ← b.readUint8
  return (v != 0, b)

/-- `read_bytes`: check, build a vector from the range of `n` bytes at the cursor, advance.

If the range runs past the end although the check passed, the sum in the check wrapped, so `n` is
above `max_size()` and the constructor of the vector throws. -/
def readBytes (b : ByteBuffer) (n : ℕ) : Except Exn (Bytes × ByteBuffer) := do
  b.checkRead n
  if b.buffer.length < b.readPos + n then
    throw .lengthError
  return ((b.buffer.drop b.readPos).take n, { b with readPos := b.readPos + n })

/-- `read_string_raw_be`; the constructor of the string throws as that of the vector does in
`readBytes`. With length `0` and the cursor at the end it forms `&buffer_[size()]`, which the
standard leaves undefined; the result here is that of a build without checked containers, an empty
string. So it is in `readStringRawLe`. -/
def readStringRawBe (b : ByteBuffer) (length : ℕ) : Except Exn (Bytes × ByteBuffer) :=
  b.readBytes length

/-- `read_string_raw_le` -/
def readStringRawLe (b : ByteBuffer) (length : ℕ) : Except Exn (Bytes × ByteBuffer) := do
  let (str, b) ← b.readBytes length
  return (str.reverse, b)

/-- The loop of the `read_string_nt` methods over the unread bytes: the characters before the
first NUL, and the number of bytes consumed, the NUL included. -/
def scanNt : Bytes → Bytes × ℕ
  | [] => ([], 0)
  | c :: rest => if c = 0 then ([], 1) else (c :: (scanNt rest).1, (scanNt rest).2 + 1)

/-- `read_string_nt_be`: it never throws, and stops at the end of an unterminated string. -/
def readStringNtBe (b : ByteBuffer) : Bytes × ByteBuffer :=
  ((scanNt (b.buffer.drop b.readPos)).1,
    { b with readPos := b.readPos + (scanNt (b.buffer.drop b.readPos)).2 })

/-- `read_string_nt_le` -/
def readStringNtLe (b : ByteBuffer) : Bytes × ByteBuffer :=
  (b.readStringNtBe.1.reverse, b.readStringNtBe.2)

/-- The characters scanned before the terminator hold no NUL. -/
lemma zero_notMem_scanNt (bs : Bytes) : (0 : UInt8) ∉ (scanNt bs).1 := by
  induction bs with
  | nil => simp [scanNt]
  | cons c bs ih =>
    by_cases hc : c = 0
    · simp [scanNt, hc]
    · simp [scanNt, hc, ih, Ne.symm hc]

/-- The string `read_string_nt_be` returns holds no NUL. -/
lemma zero_notMem_readStringNtBe (b : ByteBuffer) : (0 : UInt8) ∉ b.readStringNtBe.1 :=
  zero_notMem_scanNt _

/-- The string `read_string_nt_le` returns holds no NUL. -/
lemma zero_notMem_readStringNtLe (b : ByteBuffer) : (0 : UInt8) ∉ b.readStringNtLe.1 := by
  simpa [readStringNtLe] using b.zero_notMem_readStringNtBe

/-! ## Utility methods -/

/-- `skip`: the cursor moves in 64-bit arithmetic, like the check. -/
def skip (b : ByteBuffer) (bytes : ℕ) : Except Exn ByteBuffer := do
  b.checkRead bytes
  return { b with readPos := (b.readPos + bytes) % 2 ^ 64 }

/-- `clear` -/
def clear (_ : ByteBuffer) : ByteBuffer := {}

/-- `reset_read` -/
def resetRead (b : ByteBuffer) : ByteBuffer := { b with readPos := 0 }

/-! ## Buffers split at their cursor -/

/-- The buffer holding `pre ++ rest`, with the cursor after `pre`. -/
def cursor (pre rest : Bytes) : ByteBuffer := { buffer := pre ++ rest, readPos := pre.length }

@[simp] lemma cursor_buffer (pre rest : Bytes) : (cursor pre rest).buffer = pre ++ rest := rfl

@[simp] lemma cursor_readPos (pre rest : Bytes) : (cursor pre rest).readPos = pre.length := rfl

/-- Moving the cursor over `mid`. -/
lemma cursor_advance (pre mid rest : Bytes) :
    ({ buffer := (cursor pre (mid ++ rest)).buffer, readPos := pre.length + mid.length } :
      ByteBuffer) = cursor (pre ++ mid) rest := by
  simp [cursor]

/-- A read of `n` bytes passes the check when `n` bytes are left. -/
lemma checkRead_cursor {pre rest : Bytes} {n : ℕ} (h : n ≤ rest.length) :
    (cursor pre rest).checkRead n = .ok () := by
  have hmod : (pre.length + n) % 2 ^ 64 ≤ pre.length + n := Nat.mod_le _ _
  rw [checkRead, if_neg]
  simp only [cursor_buffer, cursor_readPos, List.length_append]
  omega

/-- A read past the end fails the check, as long as the sum does not wrap. -/
lemma checkRead_short {b : ByteBuffer} {n : ℕ} (h : b.size < b.readPos + n)
    (hw : b.readPos + n < 2 ^ 64) :
    b.checkRead n = .error (.outOfRange "ByteBuffer: not enough data to read") := by
  rw [checkRead, Nat.mod_eq_of_lt hw]
  exact if_pos h

/-- A fixed-width read returns the next `w` bytes. -/
lemma readFixed_cursor {w : ℕ} (pre : Bytes) {mid : Bytes} (rest : Bytes) (h : mid.length = w) :
    (cursor pre (mid ++ rest)).readFixed w = .ok (mid, cursor (pre ++ mid) rest) := by
  subst h
  rw [readFixed, checkRead_cursor (by simp)]
  simp only [cursor_buffer, cursor_readPos, List.drop_left, List.take_left]
  rw [← cursor_buffer, cursor_advance]
  rfl

/-- `read_uint8` returns the next byte. -/
lemma readUint8_cursor (pre : Bytes) (v : UInt8) (rest : Bytes) :
    (cursor pre (v :: rest)).readUint8 = .ok (v, cursor (pre ++ [v]) rest) := by
  rw [readUint8, checkRead_cursor (by simp)]
  simp [cursor, bind, Except.bind, pure, Except.pure]

/-- `read_uint16_be` returns the value whose bytes are next. -/
lemma readUint16Be_cursor (pre : Bytes) (v : UInt16) (rest : Bytes) :
    (cursor pre (Endian.toBE 2 v.toNat ++ rest)).readUint16Be =
      .ok (v, cursor (pre ++ Endian.toBE 2 v.toNat) rest) := by
  have hv : Endian.ofBE (Endian.toBE 2 v.toNat) = v.toNat := Endian.ofBE_toBE_of_lt v.toNat_lt
  rw [readUint16Be, readFixed_cursor pre rest (Endian.length_toBE _ _)]
  simp [bind, Except.bind, pure, Except.pure, hv]

/-- `read_uint32_be` returns the value whose bytes are next. -/
lemma readUint32Be_cursor (pre : Bytes) (v : UInt32) (rest : Bytes) :
    (cursor pre (Endian.toBE 4 v.toNat ++ rest)).readUint32Be =
      .ok (v, cursor (pre ++ Endian.toBE 4 v.toNat) rest) := by
  have hv : Endian.ofBE (Endian.toBE 4 v.toNat) = v.toNat := Endian.ofBE_toBE_of_lt v.toNat_lt
  rw [readUint32Be, readFixed_cursor pre rest (Endian.length_toBE _ _)]
  simp [bind, Except.bind, pure, Except.pure, hv]

/-- `read_uint64_be` returns the value whose bytes are next. -/
lemma readUint64Be_cursor (pre : Bytes) (v : UInt64) (rest : Bytes) :
    (cursor pre (Endian.toBE 8 v.toNat ++ rest)).readUint64Be =
      .ok (v, cursor (pre ++ Endian.toBE 8 v.toNat) rest) := by
  have hv : Endian.ofBE (Endian.toBE 8 v.toNat) = v.toNat := Endian.ofBE_toBE_of_lt v.toNat_lt
  rw [readUint64Be, readFixed_cursor pre rest (Endian.length_toBE _ _)]
  simp [bind, Except.bind, pure, Except.pure, hv]

/-- `read_uint16_le` returns the value whose bytes are next. -/
lemma readUint16Le_cursor (pre : Bytes) (v : UInt16) (rest : Bytes) :
    (cursor pre (Endian.toLE 2 v.toNat ++ rest)).readUint16Le =
      .ok (v, cursor (pre ++ Endian.toLE 2 v.toNat) rest) := by
  have hv : Endian.ofLE (Endian.toLE 2 v.toNat) = v.toNat := Endian.ofLE_toLE_of_lt v.toNat_lt
  rw [readUint16Le, readFixed_cursor pre rest (Endian.length_toLE _ _)]
  simp [bind, Except.bind, pure, Except.pure, hv]

/-- `read_uint32_le` returns the value whose bytes are next. -/
lemma readUint32Le_cursor (pre : Bytes) (v : UInt32) (rest : Bytes) :
    (cursor pre (Endian.toLE 4 v.toNat ++ rest)).readUint32Le =
      .ok (v, cursor (pre ++ Endian.toLE 4 v.toNat) rest) := by
  have hv : Endian.ofLE (Endian.toLE 4 v.toNat) = v.toNat := Endian.ofLE_toLE_of_lt v.toNat_lt
  rw [readUint32Le, readFixed_cursor pre rest (Endian.length_toLE _ _)]
  simp [bind, Except.bind, pure, Except.pure, hv]

/-- `read_uint64_le` returns the value whose bytes are next. -/
lemma readUint64Le_cursor (pre : Bytes) (v : UInt64) (rest : Bytes) :
    (cursor pre (Endian.toLE 8 v.toNat ++ rest)).readUint64Le =
      .ok (v, cursor (pre ++ Endian.toLE 8 v.toNat) rest) := by
  have hv : Endian.ofLE (Endian.toLE 8 v.toNat) = v.toNat := Endian.ofLE_toLE_of_lt v.toNat_lt
  rw [readUint64Le, readFixed_cursor pre rest (Endian.length_toLE _ _)]
  simp [bind, Except.bind, pure, Except.pure, hv]

/-- `read_bytes` returns the next `n` bytes. -/
lemma readBytes_cursor (pre mid rest : Bytes) :
    (cursor pre (mid ++ rest)).readBytes mid.length = .ok (mid, cursor (pre ++ mid) rest) := by
  have hlen : ¬ (cursor pre (mid ++ rest)).buffer.length <
      (cursor pre (mid ++ rest)).readPos + mid.length := by
    simp only [cursor_buffer, cursor_readPos, List.length_append]
    omega
  rw [readBytes, checkRead_cursor (by simp)]
  simp only [bind, Except.bind, if_neg hlen]
  simp only [cursor_buffer, cursor_readPos, List.drop_left, List.take_left]
  rw [← cursor_buffer, cursor_advance]
  rfl

/-- A four-byte read at the start of a buffer that has the bytes. -/
lemma readUint32Le_of_le {b : ByteBuffer} (h0 : b.readPos = 0) (h : 4 ≤ b.size) :
    ∃ v b', b.readUint32Le = .ok (v, b') ∧ Endian.toLE 4 v.toNat = b.buffer.take 4 := by
  have hcheck : b.checkRead 4 = .ok () := by
    rw [checkRead, h0, if_neg]
    unfold size at h
    omega
  have hlen : (b.buffer.take 4).length = 4 := List.length_take_of_le h
  have hlt : Endian.ofLE (b.buffer.take 4) < 2 ^ 32 := by
    have := Endian.ofBE_lt (b.buffer.take 4).reverse
    rwa [List.length_reverse, hlen] at this
  have hread : b.readUint32Le =
      .ok (UInt32.ofNat (Endian.ofLE (b.buffer.take 4)), { b with readPos := 4 }) := by
    simp only [readUint32Le, readFixed, hcheck, h0]
    rfl
  refine ⟨_, _, hread, ?_⟩
  have hback := Endian.toBE_ofBE (b.buffer.take 4).reverse
  rw [List.length_reverse, hlen] at hback
  rw [UInt32.toNat_ofNat_of_lt' hlt, Endian.toLE, Endian.ofLE, hback, List.reverse_reverse]

/-- A four-byte read at the start of a buffer that is too short. -/
lemma readUint32Le_of_lt {b : ByteBuffer} (h0 : b.readPos = 0) (h : b.size < 4) :
    ∃ e, b.readUint32Le = .error e := by
  have hcheck := checkRead_short (b := b) (n := 4) (by omega) (by omega)
  simp only [readUint32Le, readFixed, hcheck]
  exact ⟨_, rfl⟩

/-- `read_bytes` of a block the buffer has at its cursor. -/
lemma readBytes_of_le {b : ByteBuffer} {n : ℕ} (h : b.readPos + n ≤ b.size) :
    b.readBytes n =
      .ok ((b.buffer.drop b.readPos).take n, { b with readPos := b.readPos + n }) := by
  unfold size at h
  have hcheck : b.checkRead n = .ok () := by
    have hmod : (b.readPos + n) % 2 ^ 64 ≤ b.readPos + n := Nat.mod_le _ _
    rw [checkRead, if_neg]
    omega
  simp only [readBytes, hcheck, bind, Except.bind, if_neg (not_lt.2 h)]
  rfl

/-- `read_bytes` of a block the buffer does not have. -/
lemma readBytes_of_lt {b : ByteBuffer} {n : ℕ} (h : b.size < b.readPos + n)
    (hw : b.readPos + n < 2 ^ 64) : ∃ e, b.readBytes n = .error e := by
  simp only [readBytes, checkRead_short h hw]
  exact ⟨_, rfl⟩

/-- The scan of a NUL-free string with its terminator. -/
lemma scanNt_append (str rest : Bytes) (h : (0 : UInt8) ∉ str) :
    scanNt (str ++ 0 :: rest) = (str, str.length + 1) := by
  induction str with
  | nil => simp [scanNt]
  | cons c str ih =>
    obtain ⟨hc, hstr⟩ : (0 : UInt8) ≠ c ∧ (0 : UInt8) ∉ str := by simpa using h
    simp [scanNt, ih hstr, Ne.symm hc]

/-- `read_string_nt_be` returns the characters before the terminator and consumes it. -/
lemma readStringNtBe_cursor (pre str rest : Bytes) (h : (0 : UInt8) ∉ str) :
    (cursor pre (str ++ 0 :: rest)).readStringNtBe =
      (str, cursor (pre ++ (str ++ [0])) rest) := by
  simp only [readStringNtBe, cursor_buffer, cursor_readPos, List.drop_left,
    scanNt_append str rest h]
  simp [cursor]

/-- A buffer with one string holds it from its end, and a zero byte. -/
lemma writeStringNtLe_new (str : Bytes) :
    ({} : ByteBuffer).writeStringNtLe str = { buffer := str.reverse ++ [0] } := by
  simp [writeStringNtLe, writeStringRawLe, writeUint8, writeBytes]

/-- The string is read back, if it has no zero byte. -/
lemma readStringNtLe_new {str : Bytes} (h : (0 : UInt8) ∉ str) :
    (({} : ByteBuffer).writeStringNtLe str).readStringNtLe.1 = str := by
  have hscan := scanNt_append str.reverse [] (by simpa using h)
  rw [writeStringNtLe_new]
  simp only [readStringNtLe, readStringNtBe, List.drop_zero, hscan, List.reverse_reverse]

end ByteBuffer

end Purity
