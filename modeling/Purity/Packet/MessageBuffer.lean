import Purity.Packet.ByteBuffer

set_option relaxedAutoImplicit false
set_option autoImplicit false

/-!
# The receive buffer

`MessageBuffer` (`common/packet/MessageBuffer.hpp`) is the storage a session reads into: the
socket fills bytes at `write_ptr()`, the packet reader takes them at `read_ptr()`. The bytes
between the two positions, the active region, are the ones received and not yet consumed.

## Main definitions

* `Purity.MessageBuffer` — storage and positions, with `_rpos ≤ _wpos ≤ _storage.size()` as
  fields, so that the two unsigned differences of the class never underflow.
* `Purity.MessageBuffer.active` — the bytes of the active region.

## Main results

* `Purity.MessageBuffer.active_receive`, `active_readCompleted`, `active_normalize`,
  `active_ensureFreeSpace` — the active region evolves as a queue of bytes.
* `Purity.MessageBuffer.le_remainingSpace_ensureFreeSpace` — the space asked for is there.
-/

namespace Purity

/-- `_storage`, `_wpos` and `_rpos`. -/
structure MessageBuffer where
  storage : Bytes
  wpos : ℕ
  rpos : ℕ
  rpos_le : rpos ≤ wpos
  wpos_le : wpos ≤ storage.length
  deriving DecidableEq, Repr

namespace MessageBuffer

/-- The constructor: `initialSize` value-initialised bytes, both positions at `0`. -/
def new (initialSize : ℕ := 4096) : MessageBuffer where
  storage := List.replicate initialSize 0
  wpos := 0
  rpos := 0
  rpos_le := le_rfl
  wpos_le := Nat.zero_le _

/-- `reset` -/
def reset (b : MessageBuffer) : MessageBuffer :=
  { b with wpos := 0, rpos := 0, rpos_le := le_rfl, wpos_le := Nat.zero_le _ }

/-- `clear`: `reset`, and the storage drops to size zero. -/
def clear (_ : MessageBuffer) : MessageBuffer where
  storage := []
  wpos := 0
  rpos := 0
  rpos_le := le_rfl
  wpos_le := le_rfl

/-- `get_active_size` -/
def activeSize (b : MessageBuffer) : ℕ := b.wpos - b.rpos

/-- `get_remaining_space` -/
def remainingSpace (b : MessageBuffer) : ℕ := b.storage.length - b.wpos

/-- The active region: the `get_active_size()` bytes at `read_ptr()`. -/
def active (b : MessageBuffer) : Bytes := (b.storage.drop b.rpos).take b.activeSize

/-- What the socket does to the storage when it delivers `chunk` at `write_ptr()`. It never
delivers more than the space it was offered, `get_remaining_space()` bytes. -/
def fill (b : MessageBuffer) (chunk : Bytes) : MessageBuffer where
  storage := b.storage.take b.wpos ++ (chunk ++ b.storage.drop (b.wpos + chunk.length))
  wpos := b.wpos
  rpos := b.rpos
  rpos_le := b.rpos_le
  wpos_le := by
    have := b.wpos_le
    simp only [List.length_append, List.length_take]
    omega

/-- `write_completed` -/
def writeCompleted (b : MessageBuffer) (bytes : ℕ) : Except Exn MessageBuffer :=
  if h : b.remainingSpace < bytes then
    .error (.runtimeError "MessageBuffer: write overflow")
  else .ok { b with
    wpos := b.wpos + bytes
    rpos_le := Nat.le_add_right_of_le b.rpos_le
    wpos_le := by have := b.wpos_le; unfold remainingSpace at h; omega }

/-- `read_completed` -/
def readCompleted (b : MessageBuffer) (bytes : ℕ) : Except Exn MessageBuffer :=
  if h : b.activeSize < bytes then
    .error (.runtimeError "MessageBuffer: read overflow")
  else .ok { b with
    rpos := b.rpos + bytes
    rpos_le := by have := b.rpos_le; unfold activeSize at h; omega }

/-- `normalize`: `memmove` the active region to the start of the storage. -/
def normalize (b : MessageBuffer) : MessageBuffer :=
  if b.rpos = 0 then b
  else {
    storage := if b.rpos = b.wpos then b.storage else b.active ++ b.storage.drop b.activeSize
    wpos := b.wpos - b.rpos
    rpos := 0
    rpos_le := Nat.zero_le _
    wpos_le := by
      have := b.wpos_le
      split
      · omega
      · simp only [active, activeSize, List.length_append, List.length_take, List.length_drop]
        omega }

/-- The growth step of `ensure_free_space`: `resize` appends value-initialised bytes. -/
def grow (b : MessageBuffer) (n : ℕ) : MessageBuffer :=
  { b with
    storage := b.storage ++ List.replicate n 0
    wpos_le := by have := b.wpos_le; simp only [List.length_append]; omega }

/-- `ensure_free_space` -/
def ensureFreeSpace (b : MessageBuffer) (minFree : ℕ := 512) : MessageBuffer :=
  if b.remainingSpace < minFree then
    if b.normalize.remainingSpace < minFree then b.normalize.grow minFree else b.normalize
  else b

/-! ## The active region -/

@[simp] lemma length_active (b : MessageBuffer) : b.active.length = b.activeSize := by
  have h₁ := b.rpos_le
  have h₂ := b.wpos_le
  simp only [active, activeSize, List.length_take, List.length_drop]
  omega

@[simp] lemma active_new (n : ℕ) : (new n).active = [] := rfl

@[simp] lemma active_clear (b : MessageBuffer) : b.clear.active = [] := rfl

/-- `normalize` keeps the size of the storage. -/
lemma length_storage_normalize (b : MessageBuffer) :
    b.normalize.storage.length = b.storage.length := by
  have h₁ := b.rpos_le
  have h₂ := b.wpos_le
  unfold normalize
  split_ifs
  · rfl
  · rfl
  · simp only [List.length_append, List.length_drop, length_active]
    unfold activeSize
    omega

/-- `normalize` does not change the active region. -/
@[simp] lemma active_normalize (b : MessageBuffer) : b.normalize.active = b.active := by
  by_cases h0 : b.rpos = 0
  · simp [normalize, h0]
  · simp only [normalize, if_neg h0]
    by_cases hw : b.rpos = b.wpos
    · simp [active, activeSize, hw]
    · simp only [if_neg hw]
      rw [active]
      simp only [activeSize, Nat.sub_zero, List.drop_zero]
      exact List.take_left' b.length_active

/-- `resize` does not change the active region. -/
@[simp] lemma active_grow (b : MessageBuffer) (n : ℕ) : (b.grow n).active = b.active := by
  have h₁ := b.rpos_le
  have h₂ := b.wpos_le
  simp only [active, grow, activeSize]
  rw [List.drop_append_of_le_length (by omega),
    List.take_append_of_le_length (by rw [List.length_drop]; omega)]

/-- `ensure_free_space` does not change the active region. -/
@[simp] lemma active_ensureFreeSpace (b : MessageBuffer) (n : ℕ) :
    (b.ensureFreeSpace n).active = b.active := by
  unfold ensureFreeSpace
  split_ifs <;> simp

/-- After `ensure_free_space(n)` at least `n` bytes can be received. -/
lemma le_remainingSpace_ensureFreeSpace (b : MessageBuffer) (n : ℕ) :
    n ≤ (b.ensureFreeSpace n).remainingSpace := by
  unfold ensureFreeSpace
  split_ifs with h₁ h₂
  · have := b.normalize.wpos_le
    simp only [remainingSpace, grow, List.length_append, List.length_replicate]
    omega
  · omega
  · omega

/-- `read_completed` succeeds on at most the active bytes, and drops them from the front. -/
lemma active_readCompleted {b : MessageBuffer} {n : ℕ} (h : n ≤ b.activeSize) :
    ∃ b', b.readCompleted n = .ok b' ∧ b'.active = b.active.drop n := by
  have hn : ¬ b.activeSize < n := by omega
  refine ⟨_, by rw [readCompleted, dif_neg hn], ?_⟩
  simp only [active, activeSize, List.drop_take, List.drop_drop]
  congr 1
  omega

/-- The first `n` bytes at `read_ptr()`, for `n` at most the active size. -/
lemma take_drop_rpos {b : MessageBuffer} {n : ℕ} (h : n ≤ b.activeSize) :
    (b.storage.drop b.rpos).take n = b.active.take n := by
  rw [active, List.take_take, Nat.min_eq_left h]

/-! ## Receiving -/

/-- A read completion of `chunk`: the socket filled it in, then `write_completed`. -/
def receive (b : MessageBuffer) (chunk : Bytes) : Except Exn MessageBuffer :=
  (b.fill chunk).writeCompleted chunk.length

/-- A completed read appends the chunk to the active region and does not throw.

**Proof sketch.** The chunk lies in the storage, so the check of `write_completed` passes. The
bytes below `_wpos` are untouched, so the region grows by exactly the chunk. -/
lemma active_receive (b : MessageBuffer) (chunk : Bytes) :
    ∃ b', b.receive chunk = .ok b' ∧ b'.active = b.active ++ chunk := by
  have h₁ := b.rpos_le
  have h₂ := b.wpos_le
  have htake : (b.storage.take b.wpos).length = b.wpos := by
    rw [List.length_take]; omega
  have hspace : ¬ (b.fill chunk).remainingSpace < chunk.length := by
    simp only [remainingSpace, fill, List.length_append, htake, List.length_drop]
    omega
  refine ⟨_, by rw [receive, writeCompleted, dif_neg hspace], ?_⟩
  simp only [active, fill, activeSize]
  rw [List.drop_append_of_le_length (by omega)]
  have hpre : (b.storage.take b.wpos).drop b.rpos =
      (b.storage.drop b.rpos).take (b.wpos - b.rpos) := by
    rw [List.drop_take]
  have hlen : ((b.storage.drop b.rpos).take (b.wpos - b.rpos)).length = b.wpos - b.rpos := by
    rw [List.length_take, List.length_drop]; omega
  rw [hpre, ← List.append_assoc]
  apply List.take_left'
  rw [List.length_append, hlen]
  omega

end MessageBuffer

end Purity
