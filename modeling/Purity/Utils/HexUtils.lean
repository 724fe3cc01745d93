import Purity.Auth.Srp6

set_option relaxedAutoImplicit false
set_option autoImplicit false

/-!
# Hexadecimal text

`HexUtils` (`common/utils/HexUtils.hpp`) turns bytes into hexadecimal text and back, and pads a
vector with zero bytes on the left. The text is written through a `std::ostringstream`, whose base
and fill character stay set while its field width is good for one value only.

## Main definitions

* `Purity.OStringStream` — the formatting state of a stream, with the manipulators the code uses.
* `Purity.HexUtils.hexToBytes`, `Purity.HexUtils.bytesToHex` — the two directions.
* `Purity.HexUtils.IsHexDigit`, `Purity.HexUtils.lowerDigit` — the characters `hex_to_bytes` takes,
  and their lower-case form.

## Main results

* `Purity.HexUtils.putInt_byte` — a byte is written as exactly two digits.
* `Purity.HexUtils.hexCodec_exact` — the two directions are inverse up to the case of the digits,
  `hex_to_bytes` fails on nothing but malformed text, and padding keeps the number.

## Implementation notes

`padBytesLeft` stands with the `SRP6` object, which uses it. Allocations do not fail.
-/

namespace Purity

/-! ## Formatted output -/

/-- What a `std::ostringstream` holds: the text so far, the base and the fill character, which stay
as set, and the width of the next field. -/
structure OStringStream where
  text : Bytes := []
  base : ℕ := 10
  fill : UInt8 := 0x20
  width : ℕ := 0

namespace OStringStream

/-- `<< std::hex` -/
def hex (oss : OStringStream) : OStringStream := { oss with base := 16 }

/-- `<< std::setfill(c)` -/
def setfill (oss : OStringStream) (c : UInt8) : OStringStream := { oss with fill := c }

/-- `<< std::setw(n)` -/
def setw (oss : OStringStream) (n : ℕ) : OStringStream := { oss with width := n }

/-- `<<` of an `int` that is not negative: its digits, filled up on the left to the width of the
field, which is then zero again. -/
def putInt (oss : OStringStream) (value : ℕ) : OStringStream :=
  let digits := (Nat.toDigits oss.base value).map fun c => UInt8.ofNat c.toNat
  { oss with
    text := oss.text ++ (List.replicate (oss.width - digits.length) oss.fill ++ digits)
    width := 0 }

end OStringStream

namespace HexUtils

/-! ## The two directions -/

/-- `hex_char_to_int` -/
def hexCharToInt (c : UInt8) : Except Exn UInt8 :=
  if 0x30 ≤ c ∧ c ≤ 0x39 then .ok (c - 0x30)
  else if 0x61 ≤ c ∧ c ≤ 0x66 then .ok (c - 0x61 + 10)
  else if 0x41 ≤ c ∧ c ≤ 0x46 then .ok (c - 0x41 + 10)
  else .error (.invalidArgument "Invalid hex character")

/-- The loop of `hex_to_bytes`, two characters at a time; the length is even. -/
def hexPairs : Bytes → Except Exn Bytes
  | hi :: lo :: rest => do
    let hi ← hexCharToInt hi
    let lo ← hexCharToInt lo
    let bytes ← hexPairs rest
    return (hi <<< 4 ||| lo) :: bytes
  | _ => .ok []

/-- `hex_to_bytes` -/
def hexToBytes (hex : Bytes) : Except Exn Bytes :=
  if hex.length % 2 ≠ 0 then .error (.invalidArgument "Hex string must have even length")
  else hexPairs hex

/-- `bytes_to_hex` -/
def bytesToHex (bytes : Bytes) : Bytes :=
  (bytes.foldl (fun oss b => (oss.setw 2).putInt b.toNat)
    (({} : OStringStream).hex.setfill 0x30)).text

/-! ## Digits -/

/-- `0`-`9`, `a`-`f` and `A`-`F`. -/
def IsHexDigit (c : UInt8) : Prop :=
  (0x30 ≤ c ∧ c ≤ 0x39) ∨ (0x61 ≤ c ∧ c ≤ 0x66) ∨ (0x41 ≤ c ∧ c ≤ 0x46)

instance (c : UInt8) : Decidable (IsHexDigit c) := by unfold IsHexDigit; infer_instance

/-- `A`-`F` in lower case, and every other character as it is. -/
def lowerDigit (c : UInt8) : UInt8 := if 0x41 ≤ c ∧ c ≤ 0x46 then c + 0x20 else c

/-- The lower-case digit of a value below 16. -/
def digitChar (d : UInt8) : UInt8 := if d < 10 then 0x30 + d else 0x57 + d

/-- The two digits of a byte. -/
def hexPair (b : UInt8) : Bytes := [digitChar (b >>> 4), digitChar (b &&& 0xF)]

/-- `hex_char_to_int` returns on a digit. -/
lemma exists_hexCharToInt {c : UInt8} (h : IsHexDigit c) : ∃ d, hexCharToInt c = .ok d := by
  unfold hexCharToInt
  split_ifs with h₀ h₁ h₂
  · exact ⟨_, rfl⟩
  · exact ⟨_, rfl⟩
  · exact ⟨_, rfl⟩
  · rcases h with h | h | h
    · exact absurd h h₀
    · exact absurd h h₁
    · exact absurd h h₂

/-- It returns on nothing else, and its value stands for the digit in lower case. -/
lemma hexCharToInt_eq_ok {c d : UInt8} (h : hexCharToInt c = .ok d) :
    IsHexDigit c ∧ d < 16 ∧ digitChar d = lowerDigit c := by
  have hall : ∀ c : UInt8, (hexCharToInt c).toOption.all
      (fun d => IsHexDigit c ∧ d < 16 ∧ digitChar d = lowerDigit c) = true := by
    intro c
    refine Endian.forall_byte ?_ c
    decide +kernel
  have hc := hall c
  rw [h] at hc
  simpa [Except.toOption] using hc

/-- The digit of a value below 16 is read back. -/
lemma hexCharToInt_digitChar {d : UInt8} (h : d < 16) : hexCharToInt (digitChar d) = .ok d := by
  have hcases : ∀ n < 16, hexCharToInt (digitChar (UInt8.ofNat n)) = .ok (UInt8.ofNat n) := by
    decide
  have hd := hcases d.toNat h
  rwa [UInt8.ofNat_toNat] at hd

/-- The halves of a byte are below 16, and together they are the byte. -/
lemma halves (b : UInt8) : b >>> 4 < 16 ∧ b &&& 0xF < 16 ∧ b >>> 4 <<< 4 ||| (b &&& 0xF) = b := by
  refine Endian.forall_byte ?_ b
  decide +kernel

/-- A byte put together from two values below 16 has these halves. -/
lemma halves_shiftLeft_or {hi lo : UInt8} (hhi : hi < 16) (hlo : lo < 16) :
    (hi <<< 4 ||| lo) >>> 4 = hi ∧ (hi <<< 4 ||| lo) &&& 0xF = lo := by
  have hcases : ∀ m < 16, ∀ n < 16,
      (UInt8.ofNat m <<< 4 ||| UInt8.ofNat n) >>> 4 = UInt8.ofNat m ∧
      (UInt8.ofNat m <<< 4 ||| UInt8.ofNat n) &&& 0xF = UInt8.ofNat n := by
    decide +kernel
  have h := hcases hi.toNat hhi lo.toNat hlo
  rwa [UInt8.ofNat_toNat, UInt8.ofNat_toNat] at h

/-- **A byte** is written as its two digits, and the next field starts from width zero again. -/
lemma putInt_byte {oss : OStringStream} (hbase : oss.base = 16) (hfill : oss.fill = 0x30)
    (b : UInt8) : (oss.setw 2).putInt b.toNat =
      { oss with text := oss.text ++ hexPair b, width := 0 } := by
  have hdigits : List.replicate (2 - (Nat.toDigits 16 b.toNat).length) 0x30 ++
      (Nat.toDigits 16 b.toNat).map (fun c => UInt8.ofNat c.toNat) = hexPair b := by
    refine Endian.forall_byte ?_ b
    decide +kernel
  simp only [OStringStream.putInt, OStringStream.setw, hbase, hfill, List.length_map, hdigits]

/-- `bytes_to_hex` writes the two digits of each byte.

**Proof sketch.** Induction on the bytes: the base and the fill character stay as they are. -/
lemma bytesToHex_eq (bytes : Bytes) : bytesToHex bytes = bytes.flatMap hexPair := by
  have hloop : ∀ oss : OStringStream, oss.base = 16 → oss.fill = 0x30 →
      (bytes.foldl (fun oss b => (oss.setw 2).putInt b.toNat) oss).text =
        oss.text ++ bytes.flatMap hexPair := by
    induction bytes with
    | nil => simp
    | cons b bytes ih =>
      intro oss hbase hfill
      have hrest := ih { oss with text := oss.text ++ hexPair b, width := 0 } hbase hfill
      rw [List.foldl_cons, putInt_byte hbase hfill, hrest, List.flatMap_cons, List.append_assoc]
  rw [bytesToHex, hloop _ rfl rfl]
  rfl

/-- Two digits for each byte. -/
lemma length_bytesToHex (bytes : Bytes) : (bytesToHex bytes).length = 2 * bytes.length := by
  rw [bytesToHex_eq]
  induction bytes with
  | nil => rfl
  | cons b bytes ih =>
    rw [List.flatMap_cons, List.length_append, ih, List.length_cons]
    simp only [hexPair, List.length_cons, List.length_nil]
    omega

/-! ## The codec -/

/-- The text of a byte vector is read back. -/
lemma hexPairs_flatMap (bytes : Bytes) : hexPairs (bytes.flatMap hexPair) = .ok bytes := by
  induction bytes with
  | nil => rfl
  | cons b bytes ih =>
    obtain ⟨hhi, hlo, hb⟩ := halves b
    have hcons : (b :: bytes).flatMap hexPair =
        digitChar (b >>> 4) :: digitChar (b &&& 0xF) :: bytes.flatMap hexPair := rfl
    rw [hcons, hexPairs, hexCharToInt_digitChar hhi, hexCharToInt_digitChar hlo, ih]
    simp only [bind, Except.bind, pure, Except.pure, hb]

/-- A text of digits only is read. -/
lemma exists_hexPairs {hex : Bytes} (h : ∀ c ∈ hex, IsHexDigit c) :
    ∃ bytes, hexPairs hex = .ok bytes := by
  fun_induction hexPairs hex with
  | case1 hi lo rest ih =>
    obtain ⟨d, hd⟩ := exists_hexCharToInt (h hi (by simp))
    obtain ⟨e, he⟩ := exists_hexCharToInt (h lo (by simp))
    obtain ⟨bytes, hbytes⟩ := ih fun c hc => h c (by simp [hc])
    exact ⟨(d <<< 4 ||| e) :: bytes, by rw [hd, he, hbytes]; rfl⟩
  | case2 hex hpair => exact ⟨[], rfl⟩

/-- A text of even length that is read has digits only, and the bytes are written as the text in
lower case.

**Proof sketch.** Induction along the loop. The first two characters have values below 16, which are
the halves of the byte put together from them. -/
lemma hexPairs_eq_ok {hex bytes : Bytes} (heven : hex.length % 2 = 0)
    (h : hexPairs hex = .ok bytes) :
    (∀ c ∈ hex, IsHexDigit c) ∧ bytes.flatMap hexPair = hex.map lowerDigit := by
  induction hex using hexPairs.induct generalizing bytes with
  | case1 hi lo rest ih =>
    rw [hexPairs] at h
    obtain ⟨d, hd, h⟩ := bind_eq_ok.1 h
    obtain ⟨e, he, h⟩ := bind_eq_ok.1 h
    obtain ⟨tail, htail, h⟩ := bind_eq_ok.1 h
    cases h
    obtain ⟨hhi, hd16, hdlow⟩ := hexCharToInt_eq_ok hd
    obtain ⟨hlo, he16, helow⟩ := hexCharToInt_eq_ok he
    have hlen : rest.length % 2 = 0 := by
      rw [List.length_cons, List.length_cons] at heven
      omega
    obtain ⟨hrest, htext⟩ := ih hlen htail
    obtain ⟨hfst, hsnd⟩ := halves_shiftLeft_or hd16 he16
    refine ⟨?_, ?_⟩
    · simpa using ⟨hhi, hlo, hrest⟩
    · rw [List.flatMap_cons, hexPair, hfst, hsnd, hdlow, helow, htext]
      rfl
  | case2 hex hpair =>
    match hex, hpair with
    | [], _ =>
      cases h
      simp
    | [c], _ => simp at heven
    | hi :: lo :: rest, hpair => exact absurd rfl (hpair hi lo rest)

/-! ## Padding -/

/-- The value of a padded vector, and where the source stands in it. -/
lemma padBytesLeft_value {src out : Bytes} {n : ℕ} (h : padBytesLeft src n = .ok out) :
    Endian.ofBE out = Endian.ofBE src ∧ out.drop (n - src.length) = src := by
  rw [padBytesLeft_eq (length_le_of_padBytesLeft h)] at h
  cases h
  refine ⟨Endian.ofBE_replicate_zero_append _ _, ?_⟩
  exact List.drop_left' (List.length_replicate ..)

/-- **The hexadecimal codec.** Every byte vector is read back from its text. A text is read exactly
if it has even length and holds digits only, and its bytes are then written as the text in lower
case. And `pad_bytes_left` returns exactly if the source is not longer than the size asked for, a
vector of that size with the same value that ends with the source.

**Proof sketch.** Two characters of the text are one byte: induction on the bytes one way, along the
loop of `hex_to_bytes` the other way. -/
theorem hexCodec_exact :
    (∀ bytes, hexToBytes (bytesToHex bytes) = .ok bytes) ∧
    (∀ hex, (∃ bytes, hexToBytes hex = .ok bytes) ↔
      hex.length % 2 = 0 ∧ ∀ c ∈ hex, IsHexDigit c) ∧
    (∀ hex bytes, hexToBytes hex = .ok bytes → bytesToHex bytes = hex.map lowerDigit) ∧
    (∀ src n, (∃ out, padBytesLeft src n = .ok out) ↔ src.length ≤ n) ∧
    ∀ src n out, padBytesLeft src n = .ok out → out.length = n ∧
      Endian.ofBE out = Endian.ofBE src ∧ out.drop (n - src.length) = src := by
  have heven : ∀ {hex bytes : Bytes}, hexToBytes hex = .ok bytes →
      hex.length % 2 = 0 ∧ hexPairs hex = .ok bytes := by
    intro hex bytes h
    unfold hexToBytes at h
    split_ifs at h with hodd
    exact ⟨not_not.1 hodd, h⟩
  refine ⟨?_, ?_, ?_, ?_, ?_⟩
  · intro bytes
    have hlen := length_bytesToHex bytes
    rw [hexToBytes, if_neg (by omega), bytesToHex_eq]
    exact hexPairs_flatMap bytes
  · intro hex
    constructor
    · rintro ⟨bytes, h⟩
      obtain ⟨hlen, h⟩ := heven h
      exact ⟨hlen, (hexPairs_eq_ok hlen h).1⟩
    · rintro ⟨hlen, hdigits⟩
      rw [hexToBytes, if_neg (not_not.2 hlen)]
      exact exists_hexPairs hdigits
  · intro hex bytes h
    obtain ⟨hlen, h⟩ := heven h
    rw [bytesToHex_eq]
    exact (hexPairs_eq_ok hlen h).2
  · intro src n
    exact ⟨fun ⟨out, h⟩ => length_le_of_padBytesLeft h, fun h => ⟨_, padBytesLeft_eq h⟩⟩
  · intro src n out h
    exact ⟨length_padBytesLeft h, padBytesLeft_value h⟩

/-- The text `0aF`, which has odd length, is not read; `0aFf` is, and is written as `0aff`. -/
theorem hexCodec_mixed_case :
    (¬ ∃ bytes, hexToBytes [0x30, 0x61, 0x46] = .ok bytes) ∧
    hexToBytes [0x30, 0x61, 0x46, 0x66] = .ok [0x0A, 0xFF] ∧
    bytesToHex [0x0A, 0xFF] = [0x30, 0x61, 0x66, 0x66] ∧
    padBytesLeft [0x0A, 0xFF] 3 = .ok [0, 0x0A, 0xFF] ∧ Endian.ofBE [0, 0x0A, 0xFF] = 0x0AFF := by
  obtain ⟨-, hread, hlower, -, hpad⟩ := hexCodec_exact
  refine ⟨?_, rfl, ?_, rfl, ?_⟩
  · rw [hread]
    decide
  · exact hlower [0x30, 0x61, 0x46, 0x66] [0x0A, 0xFF] rfl
  · exact (hpad [0x0A, 0xFF] 3 _ rfl).2.1

end HexUtils

end Purity
