import Purity.Packet.ByteBuffer

set_option relaxedAutoImplicit false
set_option autoImplicit false

/-!
# The SRP6 object

`SRP6` (`common/srp6/SRP6.cpp`) holds one side's values of a login: on the server the account's
name, salt and verifier with the ephemeral key pair `b`, `B`; on the client the credentials with
`a`, `A` and the last proof. Big numbers are natural numbers, and the OpenSSL functions on them
are exact arithmetic. SHA-1 is a parameter: any function to 20 bytes.

## Main definitions

* `Purity.Sha1` — the hash function, with its output length.
* `Purity.SRP6` — the object, with its server-side and client-side methods.
* `Purity.padBytesLeft` — `HexUtils::pad_bytes_left`.

## Main results

* `Purity.length_padBytesLeft`, `Purity.padBytesLeft_eq` — when padding succeeds and what it gives.
* `Purity.SRP6.padBytesLeft_mod` — a residue modulo a 256-bit number is padded to 32 bytes.

## Implementation notes

`verify_client_proof` compares nothing: it computes the server's answer `M2` and returns `true`.
-/

namespace Purity

/-- SHA-1 as an arbitrary function to 20 bytes (`SHA_DIGEST_LENGTH`). -/
structure Sha1 where
  hash : Bytes → Bytes
  length_hash : ∀ data, (hash data).length = 20

/-- The 32 bytes `RAND_bytes` fills in. -/
abbrev Rand32 := { bs : Bytes // bs.length = 32 }

/-- What both sides draw in concrete runs: the exponent 3. -/
def sampleRand : Rand32 := ⟨List.replicate 31 0 ++ [3], by decide⟩

/-! ## Big numbers -/

/-- `BN_bn2bin` into a vector of `BN_num_bytes` bytes. -/
def bnToBin (n : ℕ) : Bytes := Endian.toBE (Endian.byteLength n) n

/-- `BN_mod_exp`, for a nonzero modulus. -/
def bnModExp (a e n : ℕ) : ℕ := a ^ e % n

@[simp] lemma length_bnToBin (n : ℕ) : (bnToBin n).length = Endian.byteLength n :=
  Endian.length_toBE _ _

/-- The number is read back from its bytes. -/
@[simp] lemma ofBE_bnToBin (n : ℕ) : Endian.ofBE (bnToBin n) = n :=
  Endian.ofBE_toBE_of_lt ((Endian.byteLength_le_iff n _).1 le_rfl)

/-- `HexUtils::pad_bytes_left` -/
def padBytesLeft (src : Bytes) (targetSize : ℕ) : Except Exn Bytes :=
  if targetSize < src.length then
    .error (.invalidArgument "[HexUtils] Source bytes longer than target size")
  else if src.length = targetSize then .ok src
  else .ok (List.replicate (targetSize - src.length) 0 ++ src)

/-- Padding to at least the size puts zero bytes in front. -/
lemma padBytesLeft_eq {src : Bytes} {n : ℕ} (h : src.length ≤ n) :
    padBytesLeft src n = .ok (List.replicate (n - src.length) 0 ++ src) := by
  rw [padBytesLeft, if_neg (not_lt.2 h)]
  split_ifs with heq
  · simp [heq]
  · rfl

/-- Padding fails on a vector that is too long. -/
lemma length_le_of_padBytesLeft {src out : Bytes} {n : ℕ} (h : padBytesLeft src n = .ok out) :
    src.length ≤ n := by
  by_contra hlt
  rw [padBytesLeft, if_pos (not_le.1 hlt)] at h
  cases h

/-- A padded vector has the size asked for. -/
lemma length_padBytesLeft {src out : Bytes} {n : ℕ} (h : padBytesLeft src n = .ok out) :
    out.length = n := by
  have hle := length_le_of_padBytesLeft h
  rw [padBytesLeft_eq hle] at h
  cases h
  simp only [List.length_append, List.length_replicate]
  omega

/-! ## The object -/

/-- The members of `SRP6`. -/
structure SRP6 where
  salt : Bytes := []
  username : Bytes := []
  password : Bytes := []
  v : ℕ := 0
  b : ℕ := 0
  B : ℕ := 0
  N : ℕ := 0
  g : ℕ := 0
  k : ℕ := 0
  a : ℕ := 0
  A : ℕ := 0
  lastM1 : Bytes := []
  deriving DecidableEq, Repr

namespace SRP6

variable (sha1 : Sha1)

/-- `N_hex` of `init_constants`. -/
def modulus : ℕ := 0xB79B3E2A878DBEDF5AD53B139A99D8CEC8DA65FED1BD845FB70F6051754B8D36

/-- `calculate_k`: the hash of `N` and `g`. -/
def calculateK (N g : ℕ) : ℕ := Endian.ofBE (sha1.hash (bnToBin N ++ bnToBin g))

/-- The constructor: `BN_new` gives zeros, then `init_constants`. -/
def new : SRP6 where
  N := modulus
  g := 7
  k := calculateK sha1 modulus 7

/-- The ephemeral key `7 ^ 3` that concrete runs use on both sides. -/
def sampleKey : Bytes := List.replicate 30 0 ++ [1, 87]

/-- The proof of a client with that key, against a server with the same key and a zero salt. -/
def sampleM1 : Bytes :=
  [202, 68, 59, 156, 195, 91, 66, 148, 80, 26, 7, 179, 176, 192, 24, 3, 147, 212, 239, 58]

/-- The values of SHA-1 that concrete runs meet: on the group parameters, for the proof and for its
answer, and on a proof of 52 zero bytes. -/
def sampleSha1 : Sha1 where
  hash data :=
    if data = bnToBin modulus ++ bnToBin 7 then
      [63, 62, 61, 3, 119, 121, 127, 124, 240, 16, 161, 109, 244, 9, 84, 157, 226, 188, 70, 78]
    else if data = sampleKey ++ sampleKey ++ List.replicate 32 0 then sampleM1
    else if data = sampleKey ++ sampleM1 then
      [241, 67, 236, 173, 179, 28, 136, 142, 42, 133, 53, 241, 148, 98, 57, 129, 108, 152, 1, 229]
    else
      [47, 16, 80, 173, 246, 79, 51, 41, 143, 240, 206, 66, 62, 184, 109, 71, 40, 68, 27, 33]
  length_hash data := by split_ifs <;> rfl

/-! ## Server side -/

/-- `set_only_username` -/
def setOnlyUsername (s : SRP6) (username : Bytes) : SRP6 := { s with username := username }

/-- `load_verifier` -/
def loadVerifier (s : SRP6) (salt verifier : Bytes) : SRP6 :=
  { s with salt := salt, v := Endian.ofBE verifier }

/-- `generate_server_ephemeral`, where `rand` is what `RAND_bytes` gave:
`B = (k v + g ^ b) mod N`. -/
def generateServerEphemeral (s : SRP6) (rand : Rand32) : SRP6 :=
  let b := Endian.ofBE rand.1
  let gb := bnModExp s.g b s.N
  let kv := s.k * s.v % s.N
  { s with b := b, B := (kv + gb) % s.N }

/-- `get_B_bytes` -/
def getBBytes (s : SRP6) : Except Exn Bytes := padBytesLeft (bnToBin s.B) 32

/-- `get_N_bytes` -/
def getNBytes (s : SRP6) : Except Exn Bytes := padBytesLeft (bnToBin s.N) 32

/-- `get_generator` -/
def getGenerator (s : SRP6) : UInt8 := UInt8.ofNat s.g

/-- `verify_client_proof`: the result and `M2`, the hash of `A` and the client's `M1`. -/
def verifyClientProof (A M1 : Bytes) : Bool × Bytes := (true, sha1.hash (A ++ M1))

/-! ## Client side -/

/-- `load_constants` -/
def loadConstants (s : SRP6) (N : Bytes) (g : UInt8) : SRP6 :=
  { s with N := Endian.ofBE N, g := g.toNat, k := calculateK sha1 (Endian.ofBE N) g.toNat }

/-- `load_salt` -/
def loadSalt (s : SRP6) (salt : Bytes) : SRP6 := { s with salt := salt }

/-- `set_credentials` -/
def setCredentials (s : SRP6) (username password : Bytes) : SRP6 :=
  { s with username := username, password := password }

/-- `generate_client_ephemeral`. The modulus is the server's; if it is zero, `BN_mod_exp` fails for
every exponent but zero and leaves `A_` alone. -/
def generateClientEphemeral (s : SRP6) (rand : Rand32) : SRP6 :=
  let a := Endian.ofBE rand.1
  let A := if s.N = 0 then if a = 0 then 1 else s.A else bnModExp s.g a s.N
  { s with a := a, A := A }

/-- `get_A_bytes` -/
def getABytes (s : SRP6) : Except Exn Bytes := padBytesLeft (bnToBin s.A) 32

/-- `compute_M1`: the hash of `A`, `B` and the salt, remembered as the last proof. -/
def computeM1 (s : SRP6) (B : Bytes) : Except Exn (Bytes × SRP6) := do
  let A ← s.getABytes
  let m1 ← padBytesLeft (sha1.hash (A ++ B ++ s.salt)) 20
  return (m1, { s with lastM1 := m1 })

/-- `verify_server_proof`: `std::equal` compares as many bytes as `M2` has. -/
def verifyServerProof (s : SRP6) (lastM1 M2 : Bytes) : Except Exn Bool := do
  let A ← s.getABytes
  return M2 == (sha1.hash (A ++ lastM1)).take M2.length

/-! ## Sizes -/

/-- A number below `256 ^ 32` is padded to 32 bytes. -/
lemma padBytesLeft_bnToBin {n : ℕ} (h : n < 256 ^ 32) :
    ∃ out, padBytesLeft (bnToBin n) 32 = .ok out ∧ out.length = 32 := by
  have hle : (bnToBin n).length ≤ 32 := by
    rw [length_bnToBin, Endian.byteLength_le_iff]
    exact h
  exact ⟨_, padBytesLeft_eq hle, length_padBytesLeft (padBytesLeft_eq hle)⟩

/-- Padding keeps the number. -/
lemma ofBE_padBytesLeft {n w : ℕ} {out : Bytes} (h : padBytesLeft (bnToBin n) w = .ok out) :
    Endian.ofBE out = n := by
  rw [padBytesLeft_eq (length_le_of_padBytesLeft h)] at h
  cases h
  rw [Endian.ofBE_replicate_zero_append, ofBE_bnToBin]

/-- The modulus has 256 bits. -/
lemma modulus_lt : modulus < 256 ^ 32 := by decide

/-- `compute_M1` throws only if `A` does not fit: the hash already has the size it is padded to. -/
lemma computeM1_eq {s : SRP6} {A : Bytes} (hA : s.getABytes = .ok A) (B : Bytes) :
    s.computeM1 sha1 B = .ok (sha1.hash (A ++ B ++ s.salt),
      { s with lastM1 := sha1.hash (A ++ B ++ s.salt) }) := by
  have hlen := sha1.length_hash (A ++ B ++ s.salt)
  have hpad := padBytesLeft_eq hlen.le
  rw [hlen] at hpad
  simp only [computeM1, hA, bind, Except.bind, hpad]
  rfl

/-- A residue modulo a nonzero 256-bit number is padded to 32 bytes. -/
lemma padBytesLeft_mod {n N : ℕ} (hN : 0 < N) (hN' : N ≤ 256 ^ 32) :
    ∃ out, padBytesLeft (bnToBin (n % N)) 32 = .ok out ∧ out.length = 32 :=
  padBytesLeft_bnToBin ((Nat.mod_lt n hN).trans_le hN')

end SRP6

end Purity
