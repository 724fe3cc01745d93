import Mathlib.Data.ZMod.Basic
import Mathlib.Tactic.ReduceModChar
import Purity.Auth.LetterCase
import Purity.Server.CachedLogin

set_option relaxedAutoImplicit false
set_option autoImplicit false

/-!
# Registration

`SRP6::generate_salt_and_verifier_trinity` makes the salt and the verifier that are stored for an
account, and `handle_logon_challenge` checks that a stored row has 32 bytes of each, as the table
does. Registration stores the verifier without padding, so it passes the check only if the number
has 32 bytes.

## Main definitions

* `Purity.SRP6.generateSaltAndVerifierTrinity` — the function, where the salt is what `RAND_bytes`
  gave.
* `Purity.SRP6.registrationX` — the exponent `x` it computes from the name, the password and the
  salt.
* `Purity.RegistrationFits` — login accepts what registration stored.

## Main results

* `Purity.registrationFits_iff` — it does exactly if `7 ^ x mod N` has 32 bytes.
-/

namespace Purity

namespace SRP6

variable (sha1 : Sha1)

/-- `generate_salt_and_verifier_trinity`: the salt, and `g ^ x mod N` in `BN_num_bytes` bytes, where
`x` is the hash of the salt and the inner hash. -/
def generateSaltAndVerifierTrinity (s : SRP6) (username password : Bytes) (rand : Rand32) :
    Bytes × Bytes :=
  let saltVec := rand.1
  let up := Utf8.uppercaseLoop username ++ [0x3A] ++ password
  let innerHash := sha1.hash up
  let x := Endian.ofBE (sha1.hash (saltVec ++ innerHash))
  let v := bnModExp s.g x s.N
  (saltVec, bnToBin v)

/-- The hash `x` of a registration, as a number. -/
def registrationX (username password : Bytes) (salt : Rand32) : ℕ :=
  Endian.ofBE (sha1.hash (salt.1 ++ sha1.hash (Utf8.uppercaseLoop username ++ [0x3A] ++ password)))

end SRP6

/-- What is stored for an account: the salt and the verifier. -/
def registration (sha1 : Sha1) (username password : Bytes) (salt : Rand32) : Bytes × Bytes :=
  (SRP6.new sha1).generateSaltAndVerifierTrinity sha1 username password salt

/-- **Registration and login agree**: the row of a registration passes the check of the login
handler and those of the table, and loading it gives `v = g ^ x mod N`. -/
structure RegistrationFits (sha1 : Sha1) (username password : Bytes) (salt : Rand32) : Prop where
  check : (AccountsRow.mk (some (registration sha1 username password salt).1)
      (some (registration sha1 username password salt).2)).credentials =
    some (registration sha1 username password salt)
  table : (registration sha1 username password salt).1.length = 32 ∧
    (registration sha1 username password salt).2.length = 32
  loaded : ∀ srp : SRP6, (srp.loadVerifier (registration sha1 username password salt).1
      (registration sha1 username password salt).2).v =
    7 ^ SRP6.registrationX sha1 username password salt % SRP6.modulus

/-- The number of bytes that `BN_bn2bin` writes is 32 exactly if the number needs as many. -/
lemma length_bnToBin_eq_iff {n : ℕ} (h : n < 256 ^ 32) : (bnToBin n).length = 32 ↔ 2 ^ 248 ≤ n := by
  have hle := (Endian.byteLength_le_iff n 32).2 h
  have hiff := Endian.byteLength_le_iff n 31
  rw [length_bnToBin]
  omega

/-- The verifier has 32 bytes exactly if the number needs as many. -/
lemma length_verifier_eq_iff (sha1 : Sha1) (username password : Bytes) (salt : Rand32) :
    (registration sha1 username password salt).2.length = 32 ↔
      2 ^ 248 ≤ 7 ^ SRP6.registrationX sha1 username password salt % SRP6.modulus := by
  have hpos : 0 < SRP6.modulus := by decide
  exact length_bnToBin_eq_iff ((Nat.mod_lt _ hpos).trans SRP6.modulus_lt)

/-- **Registration and login agree on sizes** exactly if `7 ^ x mod N` is at least `2 ^ 248`, so
that it has 32 bytes.

**Proof sketch.** The salt has 32 bytes and the number is always read back. The verifier has as many
bytes as the number needs, and at most 32 since `N` has 256 bits. -/
theorem registrationFits_iff (sha1 : Sha1) (username password : Bytes) (salt : Rand32) :
    RegistrationFits sha1 username password salt ↔
      2 ^ 248 ≤ 7 ^ SRP6.registrationX sha1 username password salt % SRP6.modulus := by
  have hlen := length_verifier_eq_iff sha1 username password salt
  constructor
  · intro h
    exact hlen.1 h.table.2
  · intro h
    have hsizes : (registration sha1 username password salt).1.length = 32 ∧
        (registration sha1 username password salt).2.length = 32 := ⟨salt.2, hlen.2 h⟩
    refine ⟨if_pos hsizes, hsizes, fun srp => ?_⟩
    exact ofBE_bnToBin _

/-- A power computed in the residues. -/
lemma pow_mod_eq_of_zmod {a e r n : ℕ} (h : (a : ZMod n) ^ e = (r : ℕ)) (hr : r < n) :
    a ^ e % n = r := by
  have hcast : ((a ^ e : ℕ) : ZMod n) = (r : ℕ) := by rw [Nat.cast_pow, h]
  rw [(ZMod.natCast_eq_natCast_iff' _ _ _).1 hcast, Nat.mod_eq_of_lt hr]

/-- `BOB:hunter2` -/
def bobText : Bytes := [0x42, 0x4F, 0x42, 0x3A, 0x68, 0x75, 0x6E, 0x74, 0x65, 0x72, 0x32]

/-- The SHA-1 hash of that text. -/
def bobInner : Bytes :=
  [38, 93, 49, 6, 98, 30, 164, 207, 130, 80, 195, 228, 157, 9, 128, 233, 154, 87, 47, 14]

/-- The values of SHA-1 that the registration of `bob` with the password `hunter2` meets, if each
byte of the salt is 11. -/
def bobSha1 : Sha1 where
  hash data :=
    if data = bobText then bobInner
    else if data = List.replicate 32 11 ++ bobInner then
      [209, 204, 159, 90, 221, 79, 87, 193, 212, 157, 139, 149, 155, 189, 244, 220, 127, 48, 118,
        233]
    else List.replicate 20 0
  length_hash data := by split_ifs <;> rfl

/-- The verifier of that registration has 31 bytes, so `bob` cannot log in. -/
theorem registration_short : ¬ RegistrationFits bobSha1 [0x62, 0x6F, 0x62]
    [0x68, 0x75, 0x6E, 0x74, 0x65, 0x72, 0x32] ⟨List.replicate 32 11, rfl⟩ := by
  intro h
  have hlen := (length_verifier_eq_iff _ _ _ _).1 h.table.2
  have hx : SRP6.registrationX bobSha1 [0x62, 0x6F, 0x62] [0x68, 0x75, 0x6E, 0x74, 0x65, 0x72, 0x32]
      ⟨List.replicate 32 11, rfl⟩ = 0xd1cc9f5add4f57c1d49d8b959bbdf4dc7f3076e9 := by
    decide +kernel
  have hpow : ((7 : ℕ) : ZMod 0xB79B3E2A878DBEDF5AD53B139A99D8CEC8DA65FED1BD845FB70F6051754B8D36) ^
      0xd1cc9f5add4f57c1d49d8b959bbdf4dc7f3076e9 =
      (0x650cb32e61f396665919927cc1ef49d68b3dc380316230c3d675840858f08d : ℕ) := by
    rw [Nat.cast_ofNat]
    reduce_mod_char
  rw [hx, SRP6.modulus, pow_mod_eq_of_zmod hpow (by decide)] at hlen
  exact absurd hlen (by decide)

end Purity
