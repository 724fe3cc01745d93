import Mathlib.Data.Nat.Size
import Mathlib.Tactic.Common
import Mathlib.Tactic.Ring

set_option relaxedAutoImplicit false
set_option autoImplicit false

/-!
# Fixed-width byte encodings of natural numbers

A natural number below `256 ^ w` is laid out in exactly `w` bytes, most significant byte first
(big-endian) or last (little-endian). The two layouts are mirror images, so everything is proved
for the big-endian one and read backwards for the other.

## Main definitions

* `Endian.toBE`, `Endian.ofBE` — the `w` big-endian bytes of a number, and the number they spell.
* `Endian.toLE`, `Endian.ofLE` — the same in little-endian order.
* `Endian.byteLength` — the number of bytes of a number written without leading zero bytes.

## Main results

* `Endian.ofBE_toBE`, `Endian.toBE_ofBE` — the two maps are inverse, modulo `256 ^ w` one way and
  at the right length the other way; `Endian.ofLE_toLE_of_lt` for the little-endian one.
* `Endian.byteLength_le_iff` — a number fits in `w` bytes exactly when it is below `256 ^ w`.
-/

namespace Endian

/-- The `w` low-order bytes of `n`, most significant first. -/
def toBE : ℕ → ℕ → List UInt8
  | 0, _ => []
  | w + 1, n => UInt8.ofNat (n / 256 ^ w) :: toBE w n

/-- The number spelled by a list of bytes, most significant first. -/
def ofBE : List UInt8 → ℕ
  | [] => 0
  | b :: bs => b.toNat * 256 ^ bs.length + ofBE bs

/-- The `w` low-order bytes of `n`, least significant first. -/
def toLE (w n : ℕ) : List UInt8 := (toBE w n).reverse

/-- The number spelled by a list of bytes, least significant first. -/
def ofLE (bs : List UInt8) : ℕ := ofBE bs.reverse

/-- The number of bytes of `n` without leading zero bytes; `0` takes none. -/
def byteLength (n : ℕ) : ℕ := (n.size + 7) / 8

/-- What holds of each of the 256 values holds of every byte. -/
@[elab_as_elim]
lemma forall_byte {motive : UInt8 → Prop} (h : ∀ n < 256, motive (UInt8.ofNat n)) (b : UInt8) :
    motive b := by
  have hb := h b.toNat b.toNat_lt
  rwa [UInt8.ofNat_toNat] at hb

/-! ## Lengths and bounds -/

@[simp] lemma length_toBE (w n : ℕ) : (toBE w n).length = w := by
  induction w with
  | zero => rfl
  | succ w ih => simp [toBE, ih]

@[simp] lemma length_toLE (w n : ℕ) : (toLE w n).length = w := by simp [toLE]

/-- `w` bytes spell a number below `256 ^ w`. -/
lemma ofBE_lt (bs : List UInt8) : ofBE bs < 256 ^ bs.length := by
  induction bs with
  | nil => simp [ofBE]
  | cons b bs ih =>
    have hb : b.toNat < 256 := b.toNat_lt
    calc ofBE (b :: bs) < b.toNat * 256 ^ bs.length + 256 ^ bs.length := by
          simp only [ofBE]; omega
      _ = (b.toNat + 1) * 256 ^ bs.length := by ring
      _ ≤ 256 * 256 ^ bs.length := Nat.mul_le_mul_right _ hb
      _ = 256 ^ (b :: bs).length := by rw [List.length_cons, pow_succ]; ring

/-- A number fits in `w` bytes exactly when it is below `256 ^ w`. -/
lemma byteLength_le_iff (n w : ℕ) : byteLength n ≤ w ↔ n < 256 ^ w := by
  have hpow : (256 : ℕ) ^ w = 2 ^ (8 * w) := by rw [pow_mul]; norm_num
  rw [hpow, ← Nat.size_le, byteLength]
  omega

/-! ## Round trips -/

/-- Higher digits do not change the low-order bytes. -/
lemma toBE_add_mul (w n k : ℕ) : toBE w (k * 256 ^ w + n) = toBE w n := by
  induction w generalizing k with
  | zero => rfl
  | succ w ih =>
    have hk : k * 256 ^ (w + 1) + n = (k * 256) * 256 ^ w + n := by rw [pow_succ]; ring
    have hdiv : ((k * 256) * 256 ^ w + n) / 256 ^ w = k * 256 + n / 256 ^ w := by
      rw [Nat.add_comm, Nat.add_mul_div_right _ _ (Nat.pow_pos (by norm_num)), Nat.add_comm]
    rw [hk]
    simp only [toBE, ih, hdiv]
    congr 1
    apply UInt8.toNat_inj.1
    simp only [UInt8.toNat_ofNat']
    omega

/-- Reading back the `w` bytes of `n` gives `n` modulo `256 ^ w`.

**Proof sketch.** Induction on `w`: the first byte is digit `w` of `n`, the rest spell
`n % 256 ^ w`. -/
lemma ofBE_toBE (w n : ℕ) : ofBE (toBE w n) = n % 256 ^ w := by
  induction w with
  | zero => simp [toBE, ofBE, Nat.mod_one]
  | succ w ih =>
    have hdigit : (n / 256 ^ w) % 2 ^ 8 = n / 256 ^ w % 256 := rfl
    simp only [toBE, ofBE, ih, length_toBE, UInt8.toNat_ofNat', hdigit]
    rw [pow_succ, Nat.mod_mul]
    ring

/-- The bytes of a number below `256 ^ w` spell it. -/
lemma ofBE_toBE_of_lt {w n : ℕ} (h : n < 256 ^ w) : ofBE (toBE w n) = n := by
  rw [ofBE_toBE, Nat.mod_eq_of_lt h]

/-- The number spelled by a list of bytes, laid out at that length, is the list. -/
lemma toBE_ofBE (bs : List UInt8) : toBE bs.length (ofBE bs) = bs := by
  induction bs with
  | nil => rfl
  | cons b bs ih =>
    have hb : b.toNat < 256 := b.toNat_lt
    have hdiv : (b.toNat * 256 ^ bs.length + ofBE bs) / 256 ^ bs.length = b.toNat := by
      rw [Nat.add_comm, Nat.add_mul_div_right _ _ (Nat.pow_pos (by norm_num)),
        Nat.div_eq_of_lt (ofBE_lt bs), Nat.zero_add]
    simp only [List.length_cons, toBE, ofBE, toBE_add_mul, ih, hdiv, UInt8.ofNat_toNat]

/-- The little-endian bytes of a number below `256 ^ w` spell it. -/
lemma ofLE_toLE_of_lt {w n : ℕ} (h : n < 256 ^ w) : ofLE (toLE w n) = n := by
  rw [ofLE, toLE, List.reverse_reverse, ofBE_toBE_of_lt h]

/-- The number spelled by `a` followed by `b`. -/
lemma ofBE_append (as bs : List UInt8) :
    ofBE (as ++ bs) = ofBE as * 256 ^ bs.length + ofBE bs := by
  induction as with
  | nil => simp [ofBE]
  | cons a as ih =>
    simp only [List.cons_append, ofBE, ih, List.length_append, pow_add]
    ring

/-- Leading zero bytes do not change the number spelled. -/
lemma ofBE_replicate_zero_append (k : ℕ) (bs : List UInt8) :
    ofBE (List.replicate k 0 ++ bs) = ofBE bs := by
  have hzero : ofBE (List.replicate k 0) = 0 := by
    induction k with
    | zero => rfl
    | succ k ih => simp [List.replicate_succ, ofBE, ih]
  rw [ofBE_append, hzero, Nat.zero_mul, Nat.zero_add]

end Endian
