import Mathlib.Data.ZMod.Basic
import Mathlib.Tactic.NormNum.Prime
import Purity.Auth.Srp6

set_option relaxedAutoImplicit false
set_option autoImplicit false

/-!
# The group of the SRP6 object

SRP-6 computes in the multiplicative group of a prime field. The modulus that `init_constants`
installs is even, although the login handler calls it a large prime: it is `2 · 3³ · 73` times a
number of 244 bits. So not every residue has an inverse. The generator 7 has one, and therefore the
powers of it that the protocol computes have too.

## Main results

* `Purity.SRP6.isUnit_iff_coprime_factors` — which residues have an inverse, and that the verifier,
  the client's key and `B - k v` always have one.
-/

namespace Purity

namespace SRP6

/-- What is left of the modulus after the factors 2, 3 and 73. -/
def cofactor : ℕ := 21067362161503077069973498402788200780073543669640099738875801436286079353

/-- The factors of the modulus. -/
lemma modulus_eq : modulus = 2 * 3 ^ 3 * 73 * cofactor := by decide

/-- A number has no factor in common with the modulus if it has none with the four parts. -/
lemma coprime_modulus_iff (y : ℕ) :
    y.Coprime modulus ↔ ¬ 2 ∣ y ∧ ¬ 3 ∣ y ∧ ¬ 73 ∣ y ∧ y.Coprime cofactor := by
  have hprime : ∀ p : ℕ, p.Prime → (y.Coprime p ↔ ¬ p ∣ y) := by
    intro p hp
    rw [Nat.coprime_comm]
    exact hp.coprime_iff_not_dvd
  rw [modulus_eq, Nat.coprime_mul_iff_right, Nat.coprime_mul_iff_right, Nat.coprime_mul_iff_right,
    Nat.coprime_pow_right_iff (by decide), hprime 2 Nat.prime_two, hprime 3 Nat.prime_three,
    hprime 73 (by norm_num)]
  simp only [and_assoc]

/-- The generator has an inverse. -/
lemma isUnit_generator : IsUnit (7 : ZMod modulus) := by
  have hcop : Nat.Coprime 7 modulus := by decide
  exact_mod_cast (ZMod.isUnit_iff_coprime 7 modulus).2 hcop

/-- A power of the generator, computed by `BN_mod_exp`. -/
lemma natCast_bnModExp (e : ℕ) : ((bnModExp 7 e modulus : ℕ) : ZMod modulus) = 7 ^ e := by
  rw [bnModExp, ZMod.natCast_mod, Nat.cast_pow]
  rfl

/-- So it has an inverse. -/
lemma isUnit_bnModExp (e : ℕ) : IsUnit ((bnModExp 7 e modulus : ℕ) : ZMod modulus) := by
  rw [natCast_bnModExp]
  exact isUnit_generator.pow e

variable (sha1 : Sha1)

/-- Without `k v`, the server's key is `g ^ b`. -/
lemma natCast_B_sub (salt verifier : Bytes) (rand : Rand32) :
    ((((new sha1).loadVerifier salt verifier).generateServerEphemeral rand).B : ZMod modulus) -
        (new sha1).k * Endian.ofBE verifier = 7 ^ Endian.ofBE rand.1 := by
  have hB : (((new sha1).loadVerifier salt verifier).generateServerEphemeral rand).B =
      ((new sha1).k * Endian.ofBE verifier % modulus + bnModExp 7 (Endian.ofBE rand.1) modulus) %
        modulus := rfl
  rw [hB, ZMod.natCast_mod, Nat.cast_add, ZMod.natCast_mod, natCast_bnModExp, Nat.cast_mul,
    add_sub_cancel_left]

/-- **The group law**: a residue has an inverse modulo the installed `N` exactly if it is divisible
by none of 2, 3 and 73 and coprime to the cofactor; in particular `N` is not a prime. What the
protocol computes from `g` always has an inverse: the verifier `v = g ^ x`, the client's key
`A = g ^ a` and `B - k v = g ^ b`.

**Proof sketch.** A residue has an inverse exactly if it is coprime to `N`. The generator 7 is, and
so is each of its powers. -/
theorem isUnit_iff_coprime_factors :
    (∀ y : ℕ, IsUnit (y : ZMod (new sha1).N) ↔
      ¬ 2 ∣ y ∧ ¬ 3 ∣ y ∧ ¬ 73 ∣ y ∧ y.Coprime cofactor) ∧
    ¬ (new sha1).N.Prime ∧
    (∀ x : ℕ, IsUnit ((bnModExp (new sha1).g x (new sha1).N : ℕ) : ZMod (new sha1).N)) ∧
    (∀ rand, IsUnit (((new sha1).generateClientEphemeral rand).A : ZMod (new sha1).N)) ∧
    (∀ salt verifier rand,
      ((((new sha1).loadVerifier salt verifier).generateServerEphemeral rand).B :
            ZMod (new sha1).N) - (new sha1).k * Endian.ofBE verifier =
          7 ^ Endian.ofBE rand.1 ∧
        IsUnit (((((new sha1).loadVerifier salt verifier).generateServerEphemeral rand).B :
            ZMod (new sha1).N) - (new sha1).k * Endian.ofBE verifier)) := by
  have hN : (new sha1).N = modulus := rfl
  have hg : (new sha1).g = 7 := rfl
  rw [hN, hg]
  refine ⟨fun y => ?_, ?_, isUnit_bnModExp, fun rand => isUnit_bnModExp _, ?_⟩
  · rw [ZMod.isUnit_iff_coprime, coprime_modulus_iff]
  · intro hp
    have h2 : 2 ∣ modulus := by decide
    have heq := (Nat.prime_dvd_prime_iff_eq Nat.prime_two hp).1 h2
    exact absurd heq (by decide)
  · intro salt verifier rand
    have hB := natCast_B_sub sha1 salt verifier rand
    refine ⟨hB, ?_⟩
    rw [hB]
    exact isUnit_generator.pow _

/-- The residue 2 has no inverse. -/
theorem two_not_isUnit : ¬ ∀ y : ℕ, 0 < y → y < (new sampleSha1).N →
    ∃ z : ℕ, y * z % (new sampleSha1).N = 1 := by
  intro h
  obtain ⟨z, hz⟩ := h 2 (by decide) (by decide)
  have heven : (new sampleSha1).N = 2 * (27 * 73 * cofactor) := by decide
  rw [heven, Nat.mul_mod_mul_left] at hz
  omega

end SRP6

end Purity
