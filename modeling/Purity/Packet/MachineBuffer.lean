import Purity.Base.Run
import Purity.Packet.MessageBuffer

set_option relaxedAutoImplicit false
set_option autoImplicit false

/-!
# The receive buffer in machine arithmetic

`MessageBuffer` of `Purity.Packet.MessageBuffer` carries the order of its positions as a field and
counts in natural numbers. The class counts in 64-bit `size_t` and lets the size given to `resize`
wrap around. Here it is modelled that way, and shown to be the same buffer, and so a queue of bytes,
as long as `ensure_free_space` is not asked for more than a vector can hold: beyond that `resize`
throws, or the size has wrapped around and `resize` drops what is stored.

## Main definitions

* `Purity.MachineBuffer` — the members of the class, and its methods.
* `Purity.BufferOp`, `Purity.MachineBuffer.step` — the operations and the buffer after each.
* `Purity.MachineBuffer.FifoStep` — what an operation does to a queue of bytes.
* `Purity.MachineBuffer.Holds` — the machine buffer has the value of a `MessageBuffer`.

## Main results

* `Purity.MachineBuffer.Holds.run` — one operation on both buffers.
* `Purity.MachineBuffer.fifo_iff_growthFits` — the buffer is a queue of bytes through a whole run
  exactly if no `ensure_free_space` in it has to grow the storage beyond `max_size()`.

## Implementation notes

Allocations up to `max_size()` do not fail. Bytes are filled in at `write_ptr()` only if they fit
the storage.
-/

namespace Purity

/-! ## The class -/

/-- `_storage`, `_wpos` and `_rpos`. -/
structure MachineBuffer where
  storage : Bytes
  wpos : UInt64
  rpos : UInt64
  deriving DecidableEq, Repr

namespace MachineBuffer

/-- The constructor. That of the vector throws if the size is beyond `max_size()`. -/
def new (initialSize : UInt64) : Except Exn MachineBuffer :=
  if ByteBuffer.maxSize < initialSize.toNat then .error .lengthError
  else .ok
    { storage := List.replicate initialSize.toNat 0
      wpos := 0
      rpos := 0 }

/-- `_storage.size()` -/
def size (s : MachineBuffer) : UInt64 := UInt64.ofNat s.storage.length

/-- `reset` -/
def reset (s : MachineBuffer) : MachineBuffer := { s with wpos := 0, rpos := 0 }

/-- `clear` -/
def clear (s : MachineBuffer) : MachineBuffer := { s.reset with storage := [] }

/-- `get_active_size` -/
def getActiveSize (s : MachineBuffer) : UInt64 := s.wpos - s.rpos

/-- `get_remaining_space` -/
def getRemainingSpace (s : MachineBuffer) : UInt64 := s.size - s.wpos

/-- The `get_active_size()` bytes at `read_ptr()`. -/
def active (s : MachineBuffer) : Bytes :=
  (s.storage.drop s.rpos.toNat).take s.getActiveSize.toNat

/-- Bytes filled in at `write_ptr()`. -/
def fill (s : MachineBuffer) (chunk : Bytes) : MachineBuffer :=
  { s with storage := s.storage.take s.wpos.toNat ++
      (chunk ++ s.storage.drop (s.wpos.toNat + chunk.length)) }

/-- `write_completed` -/
def writeCompleted (s : MachineBuffer) (bytes : UInt64) : Except Exn MachineBuffer :=
  if s.getRemainingSpace < bytes then .error (.runtimeError "MessageBuffer: write overflow")
  else .ok { s with wpos := s.wpos + bytes }

/-- `read_completed` -/
def readCompleted (s : MachineBuffer) (bytes : UInt64) : Except Exn MachineBuffer :=
  if s.getActiveSize < bytes then .error (.runtimeError "MessageBuffer: read overflow")
  else .ok { s with rpos := s.rpos + bytes }

/-- `normalize` -/
def normalize (s : MachineBuffer) : MachineBuffer :=
  if s.rpos = 0 then s
  else
    { storage := if s.rpos = s.wpos then s.storage
        else s.active ++ s.storage.drop s.getActiveSize.toNat
      wpos := s.wpos - s.rpos
      rpos := 0 }

/-- `_storage.resize`: it drops bytes at the end or appends zeros, and throws if the size is beyond
`max_size()`. -/
def resize (s : MachineBuffer) (newSize : UInt64) : Except Exn MachineBuffer :=
  if ByteBuffer.maxSize < newSize.toNat then .error .lengthError
  else .ok { s with storage := s.storage.take newSize.toNat ++
      List.replicate (newSize.toNat - s.storage.length) 0 }

/-- `ensure_free_space`: what it returns or throws, and the buffer it leaves. The new size is
computed in `size_t`; if `resize` throws, `normalize` has been done. -/
def ensureFreeSpace (s : MachineBuffer) (minFree : UInt64) : Except Exn Unit × MachineBuffer :=
  if s.getRemainingSpace < minFree then
    if s.normalize.getRemainingSpace < minFree then
      match s.normalize.resize (s.normalize.size + minFree) with
      | .ok s' => (.ok (), s')
      | .error e => (.error e, s.normalize)
    else (.ok (), s.normalize)
  else (.ok (), s)

end MachineBuffer

/-! ## Operations -/

/-- An operation on the buffer. -/
inductive BufferOp where
  /-- fill in these bytes at `write_ptr()`, then `write_completed` with their number, a `size_t` -/
  | write (chunk : Bytes) (fits : chunk.length < 2 ^ 64)
  | read (bytes : UInt64)
  | normalize
  | ensureFreeSpace (minFree : UInt64)
  | reset
  | clear
  deriving DecidableEq, Repr

namespace MachineBuffer

/-- The buffer a call on `s` leaves if it throws before it changes a member. -/
def leaving (s : MachineBuffer) : Except Exn MachineBuffer → Except Exn Unit × MachineBuffer
  | .ok s' => (.ok (), s')
  | .error e => (.error e, s)

/-- What an operation returns or throws, and the buffer it leaves. -/
def run (s : MachineBuffer) : BufferOp → Except Exn Unit × MachineBuffer
  | .write chunk _ =>
    let s := if chunk.length ≤ s.getRemainingSpace.toNat then s.fill chunk else s
    s.leaving (s.writeCompleted (UInt64.ofNat chunk.length))
  | .read bytes => s.leaving (s.readCompleted bytes)
  | .normalize => (.ok (), s.normalize)
  | .ensureFreeSpace minFree => s.ensureFreeSpace minFree
  | .reset => (.ok (), s.reset)
  | .clear => (.ok (), s.clear)

/-- The buffer after an operation, also after one that throws. -/
def step (s : MachineBuffer) (op : BufferOp) : Option MachineBuffer := some (s.run op).2

/-- `_rpos <= _wpos <= _storage.size()` -/
structure Ordered (s : MachineBuffer) : Prop where
  rpos_le : s.rpos ≤ s.wpos
  wpos_le : s.wpos ≤ s.size

end MachineBuffer

/-- What an operation that returns does to the queue. -/
def BufferOp.queue (q : Bytes) : BufferOp → Bytes
  | .write chunk _ => q ++ chunk
  | .read bytes => q.drop bytes.toNat
  | .normalize | .ensureFreeSpace _ => q
  | .reset | .clear => []

/-- An operation on more bytes than there is room for, or than are active. -/
def BufferOp.Exceeds (s : MachineBuffer) : BufferOp → Prop
  | .write chunk _ => s.storage.length - s.wpos.toNat < chunk.length
  | .read bytes => s.wpos.toNat - s.rpos.toNat < bytes.toNat
  | _ => False

/-- **An operation on a queue of bytes**: it throws exactly if it exceeds the buffer, and then
changes nothing; the positions are in order after it; if it returns, the active bytes are those of
the queue; and after `ensure_free_space` the space asked for is there. -/
structure MachineBuffer.FifoStep (s : MachineBuffer) (op : BufferOp) : Prop where
  throws : (∃ e, (s.run op).1 = .error e) ↔ op.Exceeds s
  unchanged : ∀ e, (s.run op).1 = .error e → (s.run op).2 = s
  ordered : (s.run op).2.Ordered
  queue : (s.run op).1 = .ok () → (s.run op).2.active = op.queue s.active
  writable : ∀ minFree, op = .ensureFreeSpace minFree →
    minFree.toNat ≤ (s.run op).2.storage.length - (s.run op).2.wpos.toNat

/-- **The condition**: if `ensure_free_space` has to grow the storage, the new size is at most
`max_size()`. -/
def MachineBuffer.GrowthFits (s : MachineBuffer) : BufferOp → Prop
  | .ensureFreeSpace minFree =>
    s.storage.length - (s.wpos.toNat - s.rpos.toNat) < minFree.toNat →
      s.storage.length + minFree.toNat ≤ ByteBuffer.maxSize
  | _ => True

instance (s : MachineBuffer) : ∀ op, Decidable (s.GrowthFits op)
  | .ensureFreeSpace _ => inferInstanceAs (Decidable (_ → _))
  | .write _ _ | .read _ | .normalize | .reset | .clear => isTrue trivial

/-! ## The two buffers -/

namespace MachineBuffer

/-- The machine buffer has the storage and the positions of `b`. -/
structure Holds (s : MachineBuffer) (b : MessageBuffer) : Prop where
  storage : s.storage = b.storage
  wpos : s.wpos.toNat = b.wpos
  rpos : s.rpos.toNat = b.rpos
  fits : b.storage.length ≤ ByteBuffer.maxSize

variable {s : MachineBuffer} {b : MessageBuffer}

/-- The size of the storage is a `size_t`. -/
lemma Holds.length_lt (h : s.Holds b) : b.storage.length < 2 ^ 64 :=
  h.fits.trans_lt (by decide)

/-- The size of the storage, as a number. -/
lemma Holds.size (h : s.Holds b) : s.size.toNat = b.storage.length := by
  rw [MachineBuffer.size, h.storage, UInt64.toNat_ofNat_of_lt' h.length_lt]

/-- The positions are in order. -/
lemma Holds.ordered (h : s.Holds b) : s.Ordered := by
  have hr := b.rpos_le
  have hw := b.wpos_le
  constructor
  · rw [UInt64.le_iff_toNat_le, h.rpos, h.wpos]
    exact hr
  · rw [UInt64.le_iff_toNat_le, h.wpos, h.size]
    exact hw

/-- `get_active_size` does not underflow. -/
lemma Holds.getActiveSize (h : s.Holds b) : s.getActiveSize.toNat = b.activeSize := by
  rw [MachineBuffer.getActiveSize, UInt64.toNat_sub_of_le _ _ h.ordered.rpos_le, h.wpos, h.rpos]
  rfl

/-- `get_remaining_space` does not underflow. -/
lemma Holds.getRemainingSpace (h : s.Holds b) : s.getRemainingSpace.toNat = b.remainingSpace := by
  rw [MachineBuffer.getRemainingSpace, UInt64.toNat_sub_of_le _ _ h.ordered.wpos_le, h.wpos, h.size]
  rfl

/-- Both have the same active bytes. -/
lemma Holds.active (h : s.Holds b) : s.active = b.active := by
  rw [MachineBuffer.active, h.getActiveSize, h.storage, h.rpos]
  rfl

/-- The constructors. -/
lemma holds_new {initialSize : UInt64} (hnew : new initialSize = .ok s) :
    s.Holds (.new initialSize.toNat) := by
  rw [new] at hnew
  split_ifs at hnew with hbig
  obtain rfl := Except.ok.inj hnew
  refine ⟨rfl, rfl, rfl, ?_⟩
  rw [MessageBuffer.new, List.length_replicate]
  exact not_lt.1 hbig

/-- `reset` -/
lemma Holds.reset (h : s.Holds b) : s.reset.Holds b.reset := ⟨h.storage, rfl, rfl, h.fits⟩

/-- `clear` -/
lemma holds_clear (s : MachineBuffer) (b : MessageBuffer) : s.clear.Holds b.clear :=
  ⟨rfl, rfl, rfl, Nat.zero_le _⟩

/-- `normalize` -/
lemma Holds.normalize (h : s.Holds b) : s.normalize.Holds b.normalize := by
  have hrpos : s.rpos = 0 ↔ b.rpos = 0 := by rw [← UInt64.toNat_inj, h.rpos]; rfl
  have heq : s.rpos = s.wpos ↔ b.rpos = b.wpos := by rw [← UInt64.toNat_inj, h.rpos, h.wpos]
  have hfits := b.length_storage_normalize ▸ h.fits
  by_cases h0 : b.rpos = 0
  · rw [MachineBuffer.normalize, if_pos (hrpos.2 h0), MessageBuffer.normalize, if_pos h0]
    exact h
  · refine ⟨?_, ?_, ?_, hfits⟩
    · simp only [MachineBuffer.normalize, MessageBuffer.normalize, hrpos, if_neg h0, heq, h.storage,
        h.active, h.getActiveSize]
    · have hactive := h.getActiveSize
      simp only [MachineBuffer.normalize, MessageBuffer.normalize, hrpos, if_neg h0]
      exact hactive
    · simp only [MachineBuffer.normalize, MessageBuffer.normalize, hrpos, if_neg h0]
      rfl

/-- After `normalize` everything but the active bytes is free. -/
lemma remainingSpace_normalize (b : MessageBuffer) :
    b.normalize.remainingSpace = b.storage.length - b.activeSize := by
  have hwpos : b.normalize.wpos = b.activeSize := by
    by_cases h0 : b.rpos = 0
    · rw [MessageBuffer.normalize, if_pos h0, MessageBuffer.activeSize, h0, Nat.sub_zero]
    · rw [MessageBuffer.normalize, if_neg h0]
      rfl
  rw [MessageBuffer.remainingSpace, b.length_storage_normalize, hwpos]

/-- `ensure_free_space` has to grow the storage if there is not enough space beside the active
bytes. -/
lemma Holds.ensureFreeSpace_grows (h : s.Holds b) {minFree : UInt64}
    (hgrow : b.storage.length - b.activeSize < minFree.toNat) :
    s.getRemainingSpace < minFree ∧ s.normalize.getRemainingSpace < minFree := by
  have hr := b.rpos_le
  constructor
  · rw [UInt64.lt_iff_toNat_lt, h.getRemainingSpace]
    unfold MessageBuffer.remainingSpace
    unfold MessageBuffer.activeSize at hgrow
    omega
  · rw [UInt64.lt_iff_toNat_lt, h.normalize.getRemainingSpace, remainingSpace_normalize]
    exact hgrow

/-- `resize` to a size that a vector can have. -/
lemma Holds.resize (h : s.Holds b) {n : UInt64}
    (hfits : b.storage.length + n.toNat ≤ ByteBuffer.maxSize) :
    ∃ s', s.resize (s.size + n) = .ok s' ∧ s'.Holds (b.grow n.toNat) := by
  have hsize : (s.size + n).toNat = b.storage.length + n.toNat := by
    rw [UInt64.toNat_add, h.size, Nat.mod_eq_of_lt (hfits.trans_lt (by decide))]
  have hsmall : ¬ ByteBuffer.maxSize < (s.size + n).toNat := by
    rw [hsize]
    exact not_lt.2 hfits
  refine ⟨_, if_neg hsmall, ?_, h.wpos, h.rpos, ?_⟩
  · simp only [MessageBuffer.grow, hsize, h.storage, Nat.add_sub_cancel_left]
    rw [List.take_of_length_le (Nat.le_add_right _ _)]
  · simp only [MessageBuffer.grow, List.length_append, List.length_replicate]
    exact hfits

/-- `ensure_free_space`, if a vector can have the new size. -/
lemma Holds.ensureFreeSpace (h : s.Holds b) {minFree : UInt64}
    (hgrow : b.storage.length - b.activeSize < minFree.toNat →
      b.storage.length + minFree.toNat ≤ ByteBuffer.maxSize) :
    ∃ s', s.ensureFreeSpace minFree = (.ok (), s') ∧
      s'.Holds (b.ensureFreeSpace minFree.toNat) := by
  have hn := h.normalize
  have hfirst : s.getRemainingSpace < minFree ↔ b.remainingSpace < minFree.toNat := by
    rw [UInt64.lt_iff_toNat_lt, h.getRemainingSpace]
  have hsecond : s.normalize.getRemainingSpace < minFree ↔
      b.normalize.remainingSpace < minFree.toNat := by
    rw [UInt64.lt_iff_toNat_lt, hn.getRemainingSpace]
  simp only [MachineBuffer.ensureFreeSpace, MessageBuffer.ensureFreeSpace, hfirst, hsecond]
  split_ifs with h₁ h₂
  · rw [remainingSpace_normalize] at h₂
    obtain ⟨s', hs', hholds⟩ := hn.resize (by rw [b.length_storage_normalize]; exact hgrow h₂)
    rw [hs']
    exact ⟨s', rfl, hholds⟩
  · exact ⟨_, rfl, hn⟩
  · exact ⟨_, rfl, h⟩

/-- If a vector cannot have the new size and it has not wrapped, `ensure_free_space` throws. -/
lemma Holds.ensureFreeSpace_throws (h : s.Holds b) {minFree : UInt64}
    (hgrow : b.storage.length - b.activeSize < minFree.toNat)
    (hbig : ByteBuffer.maxSize < b.storage.length + minFree.toNat)
    (hwrap : b.storage.length + minFree.toNat < 2 ^ 64) :
    s.ensureFreeSpace minFree = (.error .lengthError, s.normalize) := by
  obtain ⟨hfirst, hsecond⟩ := h.ensureFreeSpace_grows hgrow
  have hsize : (s.normalize.size + minFree).toNat = b.storage.length + minFree.toNat := by
    rw [UInt64.toNat_add, h.normalize.size, b.length_storage_normalize, Nat.mod_eq_of_lt hwrap]
  rw [MachineBuffer.ensureFreeSpace, if_pos hfirst, if_pos hsecond, MachineBuffer.resize,
    if_pos (by rw [hsize]; exact hbig)]

/-- If the new size wraps, less space is there than was asked for. -/
lemma Holds.length_ensureFreeSpace_lt (h : s.Holds b) {minFree : UInt64}
    (hgrow : b.storage.length - b.activeSize < minFree.toNat)
    (hwrap : 2 ^ 64 ≤ b.storage.length + minFree.toNat) :
    (s.ensureFreeSpace minFree).2.storage.length < minFree.toNat := by
  have hn := h.normalize
  have hfits := h.fits
  have hmin := minFree.toNat_lt
  unfold ByteBuffer.maxSize at hfits
  obtain ⟨hfirst, hsecond⟩ := h.ensureFreeSpace_grows hgrow
  have hlen : s.normalize.storage.length = b.storage.length := by
    rw [hn.storage, b.length_storage_normalize]
  have hsize : (s.normalize.size + minFree).toNat = b.storage.length + minFree.toNat - 2 ^ 64 := by
    rw [UInt64.toNat_add, hn.size, b.length_storage_normalize, Nat.mod_eq_sub_mod hwrap,
      Nat.mod_eq_of_lt (by omega)]
  have hsmall : ¬ ByteBuffer.maxSize < (s.normalize.size + minFree).toNat := by
    rw [hsize, ByteBuffer.maxSize]
    omega
  rw [MachineBuffer.ensureFreeSpace, if_pos hfirst, if_pos hsecond, MachineBuffer.resize,
    if_neg hsmall]
  simp only [List.length_append, List.length_take, List.length_replicate, hsize, hlen]
  omega

/-- Filling in bytes that fit. -/
lemma Holds.fill (h : s.Holds b) {chunk : Bytes} (hle : chunk.length ≤ b.remainingSpace) :
    (s.fill chunk).Holds (b.fill chunk) := by
  have hw := b.wpos_le
  have hfits := h.fits
  refine ⟨?_, h.wpos, h.rpos, ?_⟩
  · simp only [MachineBuffer.fill, MessageBuffer.fill, h.storage, h.wpos]
  · unfold MessageBuffer.remainingSpace at hle
    simp only [MessageBuffer.fill, List.length_append, List.length_take, List.length_drop]
    omega

/-- `write_completed` of bytes for which there is room. -/
lemma Holds.writeCompleted (h : s.Holds b) {bytes : UInt64}
    (hle : bytes.toNat ≤ b.remainingSpace) :
    ∃ s' b', s.writeCompleted bytes = .ok s' ∧ b.writeCompleted bytes.toNat = .ok b' ∧
      s'.Holds b' := by
  have hspace : ¬ s.getRemainingSpace < bytes := by
    rw [UInt64.lt_iff_toNat_lt, h.getRemainingSpace]
    omega
  have hspace' : ¬ b.remainingSpace < bytes.toNat := by omega
  refine ⟨_, _, if_neg hspace, dif_neg hspace', h.storage, ?_, h.rpos, h.fits⟩
  have hw := b.wpos_le
  have hfits := h.length_lt
  unfold MessageBuffer.remainingSpace at hle
  rw [UInt64.toNat_add, h.wpos, Nat.mod_eq_of_lt]
  omega

/-- `read_completed` of active bytes. -/
lemma Holds.readCompleted (h : s.Holds b) {bytes : UInt64} (hle : bytes.toNat ≤ b.activeSize) :
    ∃ s' b', s.readCompleted bytes = .ok s' ∧ b.readCompleted bytes.toNat = .ok b' ∧
      s'.Holds b' := by
  have hspace : ¬ s.getActiveSize < bytes := by
    rw [UInt64.lt_iff_toNat_lt, h.getActiveSize]
    omega
  have hspace' : ¬ b.activeSize < bytes.toNat := by omega
  refine ⟨_, _, if_neg hspace, dif_neg hspace', h.storage, h.wpos, ?_, h.fits⟩
  have hw := b.wpos_le
  have hr := b.rpos_le
  have hfits := h.length_lt
  unfold MessageBuffer.activeSize at hle
  rw [UInt64.toNat_add, h.rpos, Nat.mod_eq_of_lt]
  omega

/-- Writing bytes for which there is room appends them to the active ones. -/
lemma Holds.write (h : s.Holds b) {chunk : Bytes} (hlen : chunk.length < 2 ^ 64)
    (hle : chunk.length ≤ b.remainingSpace) :
    ∃ s' b', (s.fill chunk).writeCompleted (UInt64.ofNat chunk.length) = .ok s' ∧ s'.Holds b' ∧
      b'.active = b.active ++ chunk := by
  have hbytes : (UInt64.ofNat chunk.length).toNat = chunk.length := UInt64.toNat_ofNat_of_lt' hlen
  have hspace : (b.fill chunk).remainingSpace = b.remainingSpace := by
    have hw := b.wpos_le
    unfold MessageBuffer.remainingSpace at hle ⊢
    simp only [MessageBuffer.fill, List.length_append, List.length_take, List.length_drop]
    omega
  obtain ⟨s', b', hs', hb', hholds⟩ :=
    (h.fill hle).writeCompleted (by rw [hbytes, hspace]; exact hle)
  obtain ⟨c, hc, hact⟩ := b.active_receive chunk
  rw [hbytes] at hb'
  obtain rfl : b' = c := Except.ok.inj (hb'.symm.trans hc)
  exact ⟨s', b', hs', hholds, hact⟩

/-- An operation that exceeds the buffer throws before it changes a member. -/
structure Refused (s : MachineBuffer) (op : BufferOp) : Prop where
  exceeds : op.Exceeds s
  throws : ∃ e, (s.run op).1 = .error e
  unchanged : (s.run op).2 = s

/-- An operation that returns is one of the queue, and leaves the value of a `MessageBuffer`. -/
structure Done (s : MachineBuffer) (b : MessageBuffer) (op : BufferOp) : Prop where
  fits : ¬ op.Exceeds s
  returns : (s.run op).1 = .ok ()
  holds : ∃ b', (s.run op).2.Holds b' ∧ b'.active = op.queue b.active ∧
    ∀ minFree, op = .ensureFreeSpace minFree → minFree.toNat ≤ b'.remainingSpace

/-- **One operation** on both buffers, if a vector can have the new size: it throws because it
exceeds the buffer, or it is one of the queue. -/
lemma Holds.run (h : s.Holds b) {op : BufferOp} (hgrows : s.GrowthFits op) :
    s.Refused op ∨ s.Done b op := by
  cases op with
  | write chunk hlen =>
    have hexceeds : (BufferOp.write chunk hlen).Exceeds s ↔ b.remainingSpace < chunk.length := by
      rw [BufferOp.Exceeds, h.storage, h.wpos]
      rfl
    by_cases hlt : b.remainingSpace < chunk.length
    · have hover : s.writeCompleted (UInt64.ofNat chunk.length) =
          .error (.runtimeError "MessageBuffer: write overflow") := by
        rw [MachineBuffer.writeCompleted, if_pos]
        rw [UInt64.lt_iff_toNat_lt, UInt64.toNat_ofNat_of_lt' hlen, h.getRemainingSpace]
        exact hlt
      have hrun : s.run (.write chunk hlen) =
          (.error (.runtimeError "MessageBuffer: write overflow"), s) := by
        rw [MachineBuffer.run, h.getRemainingSpace, if_neg (not_le.2 hlt), hover]
        rfl
      exact .inl ⟨hexceeds.2 hlt, by rw [hrun]; exact ⟨_, rfl⟩, by rw [hrun]⟩
    · obtain ⟨s', b', hs', hholds, hact⟩ := h.write hlen (not_lt.1 hlt)
      have hrun : s.run (.write chunk hlen) = (.ok (), s') := by
        rw [MachineBuffer.run, h.getRemainingSpace, if_pos (not_lt.1 hlt), hs']
        rfl
      refine .inr ⟨fun hex => hlt (hexceeds.1 hex), by rw [hrun], b', by rw [hrun]; exact hholds,
        hact, ?_⟩
      rintro minFree ⟨⟩
  | read bytes =>
    have hexceeds : (BufferOp.read bytes).Exceeds s ↔ b.activeSize < bytes.toNat := by
      rw [BufferOp.Exceeds, h.wpos, h.rpos]
      rfl
    by_cases hlt : b.activeSize < bytes.toNat
    · have hrun : s.run (.read bytes) =
          (.error (.runtimeError "MessageBuffer: read overflow"), s) := by
        rw [MachineBuffer.run, MachineBuffer.readCompleted, if_pos]
        · rfl
        · rw [UInt64.lt_iff_toNat_lt, h.getActiveSize]
          exact hlt
      exact .inl ⟨hexceeds.2 hlt, by rw [hrun]; exact ⟨_, rfl⟩, by rw [hrun]⟩
    · obtain ⟨s', b', hs', hb', hholds⟩ := h.readCompleted (not_lt.1 hlt)
      obtain ⟨c, hc, hact⟩ := MessageBuffer.active_readCompleted (not_lt.1 hlt)
      obtain rfl : b' = c := Except.ok.inj (hb'.symm.trans hc)
      have hrun : s.run (.read bytes) = (.ok (), s') := by
        rw [MachineBuffer.run, hs']
        rfl
      refine .inr ⟨fun hex => hlt (hexceeds.1 hex), by rw [hrun], b', by rw [hrun]; exact hholds,
        hact, ?_⟩
      rintro minFree ⟨⟩
  | normalize =>
    refine .inr ⟨id, rfl, b.normalize, h.normalize, b.active_normalize, ?_⟩
    rintro minFree ⟨⟩
  | ensureFreeSpace minFree =>
    rw [GrowthFits, h.storage, h.wpos, h.rpos] at hgrows
    obtain ⟨s', hs', hholds⟩ := h.ensureFreeSpace hgrows
    have hrun : s.run (.ensureFreeSpace minFree) = (.ok (), s') := hs'
    refine .inr ⟨id, by rw [hrun], _, by rw [hrun]; exact hholds, b.active_ensureFreeSpace _, ?_⟩
    rintro minFree ⟨⟩
    exact b.le_remainingSpace_ensureFreeSpace _
  | reset =>
    refine .inr ⟨id, rfl, b.reset, h.reset, ?_, ?_⟩
    · simp [MessageBuffer.active, MessageBuffer.reset, MessageBuffer.activeSize, BufferOp.queue]
    · rintro minFree ⟨⟩
  | clear =>
    refine .inr ⟨id, rfl, b.clear, holds_clear s b, b.active_clear, ?_⟩
    rintro minFree ⟨⟩

/-! ## Runs -/

/-- An operation whose new size a vector can have is one of the queue. -/
lemma Holds.fifoStep (h : s.Holds b) {op : BufferOp} (hgrows : s.GrowthFits op) :
    s.FifoStep op := by
  rcases h.run hgrows with ⟨hexceeds, hthrows, hsame⟩ | ⟨hfits, hreturns, b', hholds, hact, hspace⟩
  · refine ⟨⟨fun _ => hexceeds, fun _ => hthrows⟩, fun _ _ => hsame, ?_, fun hok => ?_, ?_⟩
    · rw [hsame]
      exact h.ordered
    · obtain ⟨e, he⟩ := hthrows
      rw [hok] at he
      cases he
    · rintro minFree rfl
      exact hexceeds.elim
  · have hnot : ¬ ∃ e, (s.run op).1 = .error e := by
      rintro ⟨e, he⟩
      rw [hreturns] at he
      cases he
    refine ⟨⟨fun hthrows => absurd hthrows hnot, fun hex => absurd hex hfits⟩,
      fun e he => absurd ⟨e, he⟩ hnot, hholds.ordered, fun _ => ?_, fun minFree hop => ?_⟩
    · rw [hholds.active, h.active, hact]
    · rw [hholds.storage, hholds.wpos]
      exact hspace minFree hop

/-- **One step** is one of the queue exactly if it does not need more than a vector can have: beyond
that it throws, or leaves too little space. -/
lemma Holds.fifoStep_iff (h : s.Holds b) (op : BufferOp) : s.FifoStep op ↔ s.GrowthFits op := by
  refine ⟨fun hfifo => ?_, h.fifoStep⟩
  cases op with
  | ensureFreeSpace minFree =>
    rw [GrowthFits, h.storage, h.wpos, h.rpos]
    intro hgrow
    by_contra hbig
    rw [not_le] at hbig
    by_cases hwrap : b.storage.length + minFree.toNat < 2 ^ 64
    · have hthrows := h.ensureFreeSpace_throws hgrow hbig hwrap
      exact hfifo.throws.1 ⟨.lengthError, by rw [MachineBuffer.run, hthrows]⟩
    · have hshort := h.length_ensureFreeSpace_lt hgrow (not_lt.1 hwrap)
      have hroom : minFree.toNat ≤ (s.ensureFreeSpace minFree).2.storage.length -
          (s.ensureFreeSpace minFree).2.wpos.toNat := hfifo.writable minFree rfl
      omega
  | _ => trivial

/-- A step that does not need more leads to the value of a `MessageBuffer` again. -/
lemma Holds.step (h : s.Holds b) {op : BufferOp} {s' : MachineBuffer} (hgrows : s.GrowthFits op)
    (hstep : s.step op = some s') : ∃ b', s'.Holds b' := by
  obtain rfl := Option.some.inj hstep
  rcases h.run hgrows with ⟨-, -, hsame⟩ | ⟨-, -, b', hholds, -⟩
  · rw [hsame]
    exact ⟨b, h⟩
  · exact ⟨b', hholds⟩

/-- **A queue of bytes.** From a buffer of any size that can be constructed, every operation of a
run is one of a queue of bytes, with the positions in order after it, exactly if none of its
`ensure_free_space` has to grow the storage to more bytes than `max_size()`.

**Proof sketch.** The invariant is that the buffer has the value of a `MessageBuffer`. The
operations that stay below `max_size()` keep it and are those of the queue; beyond it
`ensure_free_space` throws, and if the size wraps, it leaves less space than was asked for. -/
theorem fifo_iff_growthFits (initialSize : UInt64) (s : MachineBuffer)
    (hnew : new initialSize = .ok s) (ops : List BufferOp) :
    Run.StepsMeet step FifoStep s ops ↔ Run.StepsMeet step GrowthFits s ops := by
  refine Run.stepsMeet_congr_of_meets (I := fun s => ∃ b, s.Holds b) ?_ ?_ ⟨_, holds_new hnew⟩ ops
  · rintro s op s' ⟨b, h⟩ hgrows hstep
    exact h.step hgrows hstep
  · rintro s op s' ⟨b, h⟩ -
    exact h.fifoStep_iff op

/-- A byte, more space, a read that exceeds the buffer: a queue. -/
theorem fifo_of_growthFits_one :
    Run.StepsMeet step FifoStep ⟨[0], 0, 0⟩
      [.write [7] (by decide), .ensureFreeSpace 2, .read 2, .read 1, .clear] :=
  (fifo_iff_growthFits 1 ⟨[0], 0, 0⟩ (by decide) _).2 (by decide)

/-- One byte is written into a buffer of size one. `ensure_free_space(2 ^ 64 - 1)` then drops the
storage, so that the byte is lost, the write position is beyond the end, and `get_remaining_space`
underflows; `ensure_free_space(2 ^ 64 - 2)` throws. -/
theorem ensureFreeSpace_shrinks :
    new 1 = .ok ⟨[0], 0, 0⟩ ∧
    ¬ Run.StepsMeet step FifoStep ⟨[0], 0, 0⟩
      [.write [7] (by decide), .ensureFreeSpace 0xFFFFFFFFFFFFFFFF] ∧
    Run.exec step ⟨[0], 0, 0⟩ [.write [7] (by decide), .ensureFreeSpace 0xFFFFFFFFFFFFFFFF] =
      some ⟨[], 1, 0⟩ ∧
    ¬ Ordered ⟨[], 1, 0⟩ ∧ getRemainingSpace ⟨[], 1, 0⟩ = 0xFFFFFFFFFFFFFFFF ∧
    ensureFreeSpace ⟨[7], 1, 0⟩ 0xFFFFFFFFFFFFFFFE = (.error .lengthError, ⟨[7], 1, 0⟩) := by
  have hordered : ¬ Ordered ⟨[], 1, 0⟩ := fun h => absurd h.wpos_le (by decide)
  refine ⟨by decide, fun hmeets => ?_, by decide, hordered, by decide, by decide⟩
  obtain ⟨-, hrest⟩ := hmeets ⟨[7], 1, 0⟩ (by decide)
  obtain ⟨hfifo, -⟩ := hrest ⟨[], 1, 0⟩ (by decide)
  exact hordered hfifo.ordered

end MachineBuffer

end Purity
