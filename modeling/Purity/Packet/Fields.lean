import Purity.Packet.ByteBuffer

set_option relaxedAutoImplicit false
set_option autoImplicit false

/-!
# Typed fields of a byte buffer

A packet payload is a list of typed fields. Writing a field with the `write_*` method of its type
appends its bytes; reading with the matching `read_*` method returns it and moves the cursor over
exactly these bytes, so any list of fields is read back as it was written.

## Main definitions

* `Purity.Field` — a typed value, one constructor for each pair of `write_*`/`read_*` methods; the
  null-terminated strings carry the proof that they hold no NUL byte.
* `Purity.FieldType` — what a reader has to know about a field: its type, and the length of a raw
  string or byte block.
* `Purity.Field.encode` — the bytes of a field.

## Main results

* `Purity.Field.write_eq`, `Purity.Field.read_cursor` — writing appends the encoding, and reading
  at an encoding returns the field.
* `Purity.readFields_writeFields` — the round trip for lists of fields.
-/

namespace Purity

/-- The suffix of a method name: `_be` or `_le`. -/
inductive ByteOrder where
  | be
  | le
  deriving DecidableEq, Repr

/-- A value that some `write_*` method of `ByteBuffer` takes. -/
inductive Field where
  | uint8 (value : UInt8)
  | int8 (value : Int8)
  | uint16 (o : ByteOrder) (value : UInt16)
  | int16 (o : ByteOrder) (value : Int16)
  | uint32 (o : ByteOrder) (value : UInt32)
  | int32 (o : ByteOrder) (value : Int32)
  | uint64 (o : ByteOrder) (value : UInt64)
  | int64 (o : ByteOrder) (value : Int64)
  /-- a `float`, by its bit pattern -/
  | float (o : ByteOrder) (bits : UInt32)
  /-- a `double`, by its bit pattern -/
  | double (o : ByteOrder) (bits : UInt64)
  | bool (value : Bool)
  | stringRaw (o : ByteOrder) (str : Bytes)
  | bytes (data : Bytes)
  | stringNt (o : ByteOrder) (str : Bytes) (nulFree : (0 : UInt8) ∉ str)
  deriving DecidableEq, Repr

/-- What the reading side passes: the method, and the length where the method takes one. -/
inductive FieldType where
  | uint8
  | int8
  | uint16 (o : ByteOrder)
  | int16 (o : ByteOrder)
  | uint32 (o : ByteOrder)
  | int32 (o : ByteOrder)
  | uint64 (o : ByteOrder)
  | int64 (o : ByteOrder)
  | float (o : ByteOrder)
  | double (o : ByteOrder)
  | bool
  | stringRaw (o : ByteOrder) (length : ℕ)
  | bytes (length : ℕ)
  | stringNt (o : ByteOrder)
  deriving DecidableEq, Repr

namespace Field

/-- The type of a field, with the length of what was written. -/
def type : Field → FieldType
  | uint8 _ => .uint8
  | int8 _ => .int8
  | uint16 o _ => .uint16 o
  | int16 o _ => .int16 o
  | uint32 o _ => .uint32 o
  | int32 o _ => .int32 o
  | uint64 o _ => .uint64 o
  | int64 o _ => .int64 o
  | float o _ => .float o
  | double o _ => .double o
  | bool _ => .bool
  | stringRaw o str => .stringRaw o str.length
  | bytes data => .bytes data.length
  | stringNt o _ _ => .stringNt o

/-- Write a field with the method of its type. -/
def write (b : ByteBuffer) : Field → ByteBuffer
  | uint8 v => b.writeUint8 v
  | int8 v => b.writeInt8 v
  | uint16 .be v => b.writeUint16Be v
  | uint16 .le v => b.writeUint16Le v
  | int16 .be v => b.writeInt16Be v
  | int16 .le v => b.writeInt16Le v
  | uint32 .be v => b.writeUint32Be v
  | uint32 .le v => b.writeUint32Le v
  | int32 .be v => b.writeInt32Be v
  | int32 .le v => b.writeInt32Le v
  | uint64 .be v => b.writeUint64Be v
  | uint64 .le v => b.writeUint64Le v
  | int64 .be v => b.writeInt64Be v
  | int64 .le v => b.writeInt64Le v
  | float .be v => b.writeFloatBe v
  | float .le v => b.writeFloatLe v
  | double .be v => b.writeDoubleBe v
  | double .le v => b.writeDoubleLe v
  | bool v => b.writeBool v
  | stringRaw .be str => b.writeStringRawBe str
  | stringRaw .le str => b.writeStringRawLe str
  | bytes data => b.writeBytes data
  | stringNt .be str _ => b.writeStringNtBe str
  | stringNt .le str _ => b.writeStringNtLe str

/-- Tag the value a read returned. -/
def ofRead {α : Type} (mk : α → Field) (r : Except Exn (α × ByteBuffer)) :
    Except Exn (Field × ByteBuffer) :=
  r.map fun (v, b) => (mk v, b)

/-- The bytes a field is laid out in. -/
def encode : Field → Bytes
  | uint8 v => [v]
  | int8 v => [v.toUInt8]
  | uint16 .be v => Endian.toBE 2 v.toNat
  | uint16 .le v => Endian.toLE 2 v.toNat
  | int16 .be v => Endian.toBE 2 v.toUInt16.toNat
  | int16 .le v => Endian.toLE 2 v.toUInt16.toNat
  | uint32 .be v => Endian.toBE 4 v.toNat
  | uint32 .le v => Endian.toLE 4 v.toNat
  | int32 .be v => Endian.toBE 4 v.toUInt32.toNat
  | int32 .le v => Endian.toLE 4 v.toUInt32.toNat
  | uint64 .be v => Endian.toBE 8 v.toNat
  | uint64 .le v => Endian.toLE 8 v.toNat
  | int64 .be v => Endian.toBE 8 v.toUInt64.toNat
  | int64 .le v => Endian.toLE 8 v.toUInt64.toNat
  | float .be v => Endian.toBE 4 v.toNat
  | float .le v => Endian.toLE 4 v.toNat
  | double .be v => Endian.toBE 8 v.toNat
  | double .le v => Endian.toLE 8 v.toNat
  | bool v => [if v then 1 else 0]
  | stringRaw .be str => str
  | stringRaw .le str => str.reverse
  | bytes data => data
  | stringNt .be str _ => str ++ [0]
  | stringNt .le str _ => str.reverse ++ [0]

end Field

/-- Read a field with the method of the given type. -/
def FieldType.read (b : ByteBuffer) : FieldType → Except Exn (Field × ByteBuffer)
  | .uint8 => Field.ofRead .uint8 b.readUint8
  | .int8 => Field.ofRead .int8 b.readInt8
  | .uint16 .be => Field.ofRead (.uint16 .be) b.readUint16Be
  | .uint16 .le => Field.ofRead (.uint16 .le) b.readUint16Le
  | .int16 .be => Field.ofRead (.int16 .be) b.readInt16Be
  | .int16 .le => Field.ofRead (.int16 .le) b.readInt16Le
  | .uint32 .be => Field.ofRead (.uint32 .be) b.readUint32Be
  | .uint32 .le => Field.ofRead (.uint32 .le) b.readUint32Le
  | .int32 .be => Field.ofRead (.int32 .be) b.readInt32Be
  | .int32 .le => Field.ofRead (.int32 .le) b.readInt32Le
  | .uint64 .be => Field.ofRead (.uint64 .be) b.readUint64Be
  | .uint64 .le => Field.ofRead (.uint64 .le) b.readUint64Le
  | .int64 .be => Field.ofRead (.int64 .be) b.readInt64Be
  | .int64 .le => Field.ofRead (.int64 .le) b.readInt64Le
  | .float .be => Field.ofRead (.float .be) b.readFloatBe
  | .float .le => Field.ofRead (.float .le) b.readFloatLe
  | .double .be => Field.ofRead (.double .be) b.readDoubleBe
  | .double .le => Field.ofRead (.double .le) b.readDoubleLe
  | .bool => Field.ofRead .bool b.readBool
  | .stringRaw .be n => Field.ofRead (.stringRaw .be) (b.readStringRawBe n)
  | .stringRaw .le n => Field.ofRead (.stringRaw .le) (b.readStringRawLe n)
  | .bytes n => Field.ofRead .bytes (b.readBytes n)
  | .stringNt .be =>
    .ok (.stringNt .be b.readStringNtBe.1 b.zero_notMem_readStringNtBe, b.readStringNtBe.2)
  | .stringNt .le =>
    .ok (.stringNt .le b.readStringNtLe.1 b.zero_notMem_readStringNtLe, b.readStringNtLe.2)

namespace Field

open ByteBuffer

/-- Writing a field appends its encoding and leaves the cursor where it was. -/
lemma write_eq (b : ByteBuffer) (f : Field) : f.write b = b.writeBytes f.encode := by
  rcases f with v | v | ⟨_ | _, v⟩ | ⟨_ | _, v⟩ | ⟨_ | _, v⟩ | ⟨_ | _, v⟩ | ⟨_ | _, v⟩ |
    ⟨_ | _, v⟩ | ⟨_ | _, v⟩ | ⟨_ | _, v⟩ | v | ⟨_ | _, str⟩ | data | ⟨_ | _, str, h⟩
  case stringNt.be | stringNt.le =>
    simp [write, encode, writeStringNtBe, writeStringNtLe, writeStringRawBe, writeStringRawLe,
      writeBytes, writeUint8]
  all_goals rfl

/-- **One field**: a read of the matching type, at the encoding of a field, returns the field and
moves the cursor over the encoding.

**Proof sketch.** One case for each method: the read lemma of the method, then the cast, reversal
or comparison it makes is undone. -/
lemma read_cursor (pre : Bytes) (f : Field) (rest : Bytes) :
    f.type.read (cursor pre (f.encode ++ rest)) = .ok (f, cursor (pre ++ f.encode) rest) := by
  rcases f with v | v | ⟨_ | _, v⟩ | ⟨_ | _, v⟩ | ⟨_ | _, v⟩ | ⟨_ | _, v⟩ | ⟨_ | _, v⟩ |
    ⟨_ | _, v⟩ | ⟨_ | _, v⟩ | ⟨_ | _, v⟩ | v | ⟨_ | _, str⟩ | data | ⟨_ | _, str, h⟩
  all_goals simp only [type, encode, FieldType.read, List.singleton_append]
  case uint8 => rw [readUint8_cursor]; rfl
  case int8 => rw [readInt8, readUint8_cursor]; rfl
  case uint16.be => rw [readUint16Be_cursor]; rfl
  case uint16.le => rw [readUint16Le_cursor]; rfl
  case int16.be => rw [readInt16Be, readUint16Be_cursor]; rfl
  case int16.le => rw [readInt16Le, readUint16Le_cursor]; rfl
  case uint32.be => rw [readUint32Be_cursor]; rfl
  case uint32.le => rw [readUint32Le_cursor]; rfl
  case int32.be => rw [readInt32Be, readUint32Be_cursor]; rfl
  case int32.le => rw [readInt32Le, readUint32Le_cursor]; rfl
  case uint64.be => rw [readUint64Be_cursor]; rfl
  case uint64.le => rw [readUint64Le_cursor]; rfl
  case int64.be => rw [readInt64Be, readUint64Be_cursor]; rfl
  case int64.le => rw [readInt64Le, readUint64Le_cursor]; rfl
  case float.be => rw [readFloatBe, readUint32Be_cursor]; rfl
  case float.le => rw [readFloatLe, readUint32Le_cursor]; rfl
  case double.be => rw [readDoubleBe, readUint64Be_cursor]; rfl
  case double.le => rw [readDoubleLe, readUint64Le_cursor]; rfl
  case bool =>
    -- the first of the two checks, then the byte read
    rw [readBool, checkRead_cursor (by simp)]
    simp only [bind, Except.bind]
    rw [readUint8_cursor]
    cases v <;> rfl
  case stringRaw.be => rw [readStringRawBe, readBytes_cursor]; rfl
  case stringRaw.le =>
    rw [readStringRawLe, ← List.length_reverse, readBytes_cursor]
    simp [ofRead, bind, Except.bind, pure, Except.pure, Except.map]
  case bytes => rw [readBytes_cursor]; rfl
  case stringNt.be =>
    simp only [List.append_assoc, List.singleton_append, readStringNtBe_cursor pre str rest h]
  case stringNt.le =>
    have h' : (0 : UInt8) ∉ str.reverse := by simpa using h
    simp only [List.append_assoc, List.singleton_append, readStringNtLe,
      readStringNtBe_cursor pre str.reverse rest h', List.reverse_reverse]

end Field

/-! ## Lists of fields -/

/-- Write the fields in order. -/
def writeFields (b : ByteBuffer) (fs : List Field) : ByteBuffer := fs.foldl Field.write b

/-- Read fields of the given types in order; the first exception ends it. -/
def readFields (b : ByteBuffer) : List FieldType → Except Exn (List Field × ByteBuffer)
  | [] => .ok ([], b)
  | t :: ts => do
    let (f, b) ← t.read b
    let (fs, b) ← readFields b ts
    return (f :: fs, b)

/-- Writing a list of fields appends their encodings. -/
lemma writeFields_eq (b : ByteBuffer) (fs : List Field) :
    writeFields b fs = b.writeBytes (fs.flatMap Field.encode) := by
  induction fs generalizing b with
  | nil => simp [writeFields, ByteBuffer.writeBytes]
  | cons f fs ih =>
    have hcons : writeFields b (f :: fs) = writeFields (f.write b) fs := rfl
    rw [hcons, ih, Field.write_eq]
    simp [ByteBuffer.writeBytes]

/-- Reading at the encodings of a list of fields returns the fields.

**Proof sketch.** Induction on the fields: the first read stops at the encoding of the second. -/
lemma readFields_cursor (pre : Bytes) (fs : List Field) (rest : Bytes) :
    readFields (ByteBuffer.cursor pre (fs.flatMap Field.encode ++ rest)) (fs.map Field.type) =
      .ok (fs, ByteBuffer.cursor (pre ++ fs.flatMap Field.encode) rest) := by
  induction fs generalizing pre with
  | nil => simp [readFields]
  | cons f fs ih =>
    simp only [List.flatMap_cons, List.map_cons, List.append_assoc, readFields]
    rw [Field.read_cursor]
    simp only [bind, Except.bind]
    rw [ih]
    simp [pure, Except.pure]

/-- **The typed round trip.** From a buffer whose cursor is at its end, write any list of fields
and read it back with the matching methods: no read throws, the fields come back as they were
written, the bytes that were there before are still there, and the cursor ends at the end. -/
theorem readFields_writeFields (b : ByteBuffer) (hb : b.readPos = b.size) (fs : List Field) :
    ∃ b', readFields (writeFields b fs) (fs.map Field.type) = .ok (fs, b') ∧
      b'.buffer = (writeFields b fs).buffer ∧ b'.buffer.take b.size = b.buffer ∧
      b'.readPos = b'.size := by
  have hcur : writeFields b fs = ByteBuffer.cursor b.buffer (fs.flatMap Field.encode ++ []) := by
    rw [writeFields_eq]
    simp only [ByteBuffer.writeBytes, ByteBuffer.cursor, List.append_nil, hb, ByteBuffer.size]
  refine ⟨_, by rw [hcur]; exact readFields_cursor b.buffer fs [], ?_, ?_, ?_⟩
  · simp [hcur]
  · simp [ByteBuffer.size]
  · simp [ByteBuffer.size]

/-- The round trip of two fields from the empty buffer. -/
theorem readFields_writeFields_pair :
    ∃ b', readFields (writeFields {} [.int16 .le (-2), .stringNt .le [72, 105] (by decide)])
        [.int16 .le, .stringNt .le] =
          .ok ([.int16 .le (-2), .stringNt .le [72, 105] (by decide)], b') ∧
      b'.buffer = [0xFE, 0xFF, 105, 72, 0] ∧ b'.buffer.take 0 = [] ∧ b'.readPos = b'.size :=
  readFields_writeFields {} rfl [.int16 .le (-2), .stringNt .le [72, 105] (by decide)]

end Purity
