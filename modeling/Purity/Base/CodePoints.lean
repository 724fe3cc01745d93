import Mathlib.Data.List.Basic
import Purity.Base.Endian

set_option relaxedAutoImplicit false
set_option autoImplicit false

/-!
# UTF-8 encodings of code points

The encoding of RFC 3629, section 3: a code point takes one to four bytes, by its size, and the
first byte says how many. `String.utf8EncodeChar` of the standard library is this encoding of a
`Char`, a Unicode scalar value; the table itself goes on beyond U+10FFFF, up to the 21 bits that
four bytes hold, and so does `CodePoint.encode`.

## Main definitions

* `CodePoint.encode` — the bytes of a code point.
* `CodePoint.IsUtf8` — a list of bytes is the encoding of a list of scalar values.

## Main results

* `CodePoint.encode_cases` — the four forms of an encoding.
* `CodePoint.encode_two`, `encode_three`, `encode_four` — the code point that given bytes encode.
* `CodePoint.flatMap_encode_inj` — a text has one decoding.
-/

namespace CodePoint

/-- The bytes of a code point below `2 ^ 21`. -/
def encode (n : ℕ) : List UInt8 :=
  if n ≤ 0x7F then [UInt8.ofNat n]
  else if n ≤ 0x7FF then [UInt8.ofNat (n / 64 % 32 + 0xC0), UInt8.ofNat (n % 64 + 0x80)]
  else if n ≤ 0xFFFF then
    [UInt8.ofNat (n / 4096 % 16 + 0xE0), UInt8.ofNat (n / 64 % 64 + 0x80),
      UInt8.ofNat (n % 64 + 0x80)]
  else
    [UInt8.ofNat (n / 262144 % 8 + 0xF0), UInt8.ofNat (n / 4096 % 64 + 0x80),
      UInt8.ofNat (n / 64 % 64 + 0x80), UInt8.ofNat (n % 64 + 0x80)]

/-- The bytes of a text: the encoding of some list of Unicode scalar values. -/
def IsUtf8 (s : List UInt8) : Prop := ∃ cs : List Char, cs.flatMap String.utf8EncodeChar = s

/-- The encoding of a scalar value is that of the standard library. -/
lemma encode_toNat (c : Char) : encode c.toNat = String.utf8EncodeChar c := rfl

/-- A byte given by a number below 256. -/
lemma toNat_ofNat {m n : ℕ} (h : m = n) (hn : n < 256) : (UInt8.ofNat m).toNat = n := by
  rw [h, UInt8.toNat_ofNat_of_lt' hn]

/-- **The four forms** of an encoding. -/
lemma encode_cases {n : ℕ} (h : n < 0x200000) :
    (∃ c, encode n = [c] ∧ n ≤ 0x7F ∧ c.toNat = n) ∨
    (∃ c c₁, encode n = [c, c₁] ∧ 0x7F < n ∧ n ≤ 0x7FF ∧ c.toNat = n / 64 + 0xC0 ∧
      c₁.toNat = n % 64 + 0x80) ∨
    (∃ c c₁ c₂, encode n = [c, c₁, c₂] ∧ 0x7FF < n ∧ n ≤ 0xFFFF ∧ c.toNat = n / 4096 + 0xE0 ∧
      c₁.toNat = n / 64 % 64 + 0x80 ∧ c₂.toNat = n % 64 + 0x80) ∨
    (∃ c c₁ c₂ c₃, encode n = [c, c₁, c₂, c₃] ∧ 0xFFFF < n ∧ c.toNat = n / 262144 + 0xF0 ∧
      c₁.toNat = n / 4096 % 64 + 0x80 ∧ c₂.toNat = n / 64 % 64 + 0x80 ∧
      c₃.toNat = n % 64 + 0x80) := by
  unfold encode
  split_ifs with h₁ h₂ h₃
  · exact .inl ⟨_, rfl, h₁, toNat_ofNat rfl (by omega)⟩
  · exact .inr (.inl ⟨_, _, rfl, by omega, h₂, toNat_ofNat (by omega) (by omega),
      toNat_ofNat rfl (by omega)⟩)
  · exact .inr (.inr (.inl ⟨_, _, _, rfl, by omega, h₃, toNat_ofNat (by omega) (by omega),
      toNat_ofNat rfl (by omega), toNat_ofNat rfl (by omega)⟩))
  · exact .inr (.inr (.inr ⟨_, _, _, _, rfl, by omega, toNat_ofNat (by omega) (by omega),
      toNat_ofNat rfl (by omega), toNat_ofNat rfl (by omega), toNat_ofNat rfl (by omega)⟩))

/-- An encoding is one ASCII character, or its bytes are all beyond ASCII. -/
lemma encode_ascii_or_high {n : ℕ} (h : n < 0x200000) :
    (n ≤ 0x7F ∧ encode n = [UInt8.ofNat n]) ∨
      (0x7F < n ∧ ∀ c ∈ encode n, 0x80 ≤ c.toNat) := by
  rcases encode_cases h with ⟨c, hc, hn₁, hc₀⟩ | ⟨c, c₁, hc, hn₁, hn₂, hc₀, hc₁⟩ |
      ⟨c, c₁, c₂, hc, hn₁, hn₂, hc₀, hc₁, hc₂⟩ | ⟨c, c₁, c₂, c₃, hc, hn₁, hc₀, hc₁, hc₂, hc₃⟩
  · exact .inl ⟨hn₁, by rw [encode, if_pos hn₁]⟩
  · refine .inr ⟨hn₁, ?_⟩
    rw [hc, List.forall_mem_cons, List.forall_mem_singleton]
    omega
  · refine .inr ⟨by omega, ?_⟩
    rw [hc, List.forall_mem_cons, List.forall_mem_cons, List.forall_mem_singleton]
    omega
  · refine .inr ⟨by omega, ?_⟩
    rw [hc, List.forall_mem_cons, List.forall_mem_cons, List.forall_mem_cons,
      List.forall_mem_singleton]
    omega

/-! ## Decoding -/

/-- A byte with the value of another. -/
lemma ofNat_eq {n : ℕ} {c : UInt8} (h : n = c.toNat) : UInt8.ofNat n = c := by
  rw [h, UInt8.ofNat_toNat]

/-- One byte below `0x80` encodes its value. -/
lemma encode_one {c : UInt8} (hc : c.toNat ≤ 0x7F) : encode c.toNat = [c] := by
  rw [encode, if_pos hc, UInt8.ofNat_toNat]

/-- The code point two bytes encode. -/
lemma encode_two {c c₁ : UInt8} (hc : 0xC2 ≤ c.toNat) (hc' : c.toNat < 0xE0)
    (h₁ : 0x80 ≤ c₁.toNat) (h₁' : c₁.toNat < 0xC0) :
    ∃ n, encode n = [c, c₁] ∧ n = (c.toNat - 0xC0) * 64 + (c₁.toNat - 0x80) := by
  refine ⟨_, ?_, rfl⟩
  rw [encode, if_neg (by omega), if_pos (by omega), ofNat_eq (c := c) (by omega),
    ofNat_eq (c := c₁) (by omega)]

/-- The code point three bytes encode, if it needs as many. -/
lemma encode_three {c c₁ c₂ : UInt8} (hc : 0xE0 ≤ c.toNat) (hc' : c.toNat < 0xF0)
    (hshort : c.toNat = 0xE0 → 0xA0 ≤ c₁.toNat) (h₁ : 0x80 ≤ c₁.toNat) (h₁' : c₁.toNat < 0xC0)
    (h₂ : 0x80 ≤ c₂.toNat) (h₂' : c₂.toNat < 0xC0) :
    ∃ n, encode n = [c, c₁, c₂] ∧
      n = (c.toNat - 0xE0) * 4096 + (c₁.toNat - 0x80) * 64 + (c₂.toNat - 0x80) := by
  refine ⟨_, ?_, rfl⟩
  rw [encode, if_neg (by omega), if_neg (by omega), if_pos (by omega),
    ofNat_eq (c := c) (by omega), ofNat_eq (c := c₁) (by omega), ofNat_eq (c := c₂) (by omega)]

/-- The code point four bytes encode, if it needs as many. -/
lemma encode_four {c c₁ c₂ c₃ : UInt8} (hc : 0xF0 ≤ c.toNat) (hc' : c.toNat < 0xF8)
    (hshort : c.toNat = 0xF0 → 0x90 ≤ c₁.toNat) (h₁ : 0x80 ≤ c₁.toNat) (h₁' : c₁.toNat < 0xC0)
    (h₂ : 0x80 ≤ c₂.toNat) (h₂' : c₂.toNat < 0xC0) (h₃ : 0x80 ≤ c₃.toNat)
    (h₃' : c₃.toNat < 0xC0) :
    ∃ n, encode n = [c, c₁, c₂, c₃] ∧
      n = (c.toNat - 0xF0) * 262144 + (c₁.toNat - 0x80) * 4096 + (c₂.toNat - 0x80) * 64 +
        (c₃.toNat - 0x80) := by
  refine ⟨_, ?_, rfl⟩
  rw [encode, if_neg (by omega), if_neg (by omega), if_neg (by omega),
    ofNat_eq (c := c) (by omega), ofNat_eq (c := c₁) (by omega), ofNat_eq (c := c₂) (by omega),
    ofNat_eq (c := c₃) (by omega)]

/-- **The first code point** of a text is determined.

**Proof sketch.** The first byte tells the forms apart. In the same form the bytes have the digits
of the code point. -/
lemma encode_append_inj {m n : ℕ} {r r' : List UInt8} (hm : m < 0x200000) (hn : n < 0x200000)
    (h : encode m ++ r = encode n ++ r') : m = n ∧ r = r' := by
  rcases encode_cases hm with ⟨c, hc, hm₁, hc₀⟩ | ⟨c, c₁, hc, hm₁, hm₂, hc₀, hc₁⟩ |
      ⟨c, c₁, c₂, hc, hm₁, hm₂, hc₀, hc₁, hc₂⟩ | ⟨c, c₁, c₂, c₃, hc, hm₁, hc₀, hc₁, hc₂, hc₃⟩ <;>
    rcases encode_cases hn with ⟨d, hd, hn₁, hd₀⟩ | ⟨d, d₁, hd, hn₁, hn₂, hd₀, hd₁⟩ |
      ⟨d, d₁, d₂, hd, hn₁, hn₂, hd₀, hd₁, hd₂⟩ | ⟨d, d₁, d₂, d₃, hd, hn₁, hd₀, hd₁, hd₂, hd₃⟩ <;>
    rw [hc, hd] at h <;>
    simp only [List.cons_append, List.nil_append, List.cons.injEq] at h
  -- first bytes of different forms lie in different ranges
  all_goals obtain ⟨rfl, h⟩ := h
  all_goals try omega
  · exact ⟨by omega, h⟩
  · obtain ⟨rfl, h⟩ := h
    exact ⟨by omega, h⟩
  · obtain ⟨rfl, rfl, h⟩ := h
    exact ⟨by omega, h⟩
  · obtain ⟨rfl, rfl, rfl, h⟩ := h
    exact ⟨by omega, h⟩

/-- No encoding is empty. -/
lemma encode_ne_nil (n : ℕ) : encode n ≠ [] := by
  unfold encode
  split_ifs <;> simp

/-- **A text has one decoding.** -/
lemma flatMap_encode_inj {ms ns : List ℕ} (hms : ∀ n ∈ ms, n < 0x200000)
    (hns : ∀ n ∈ ns, n < 0x200000) (h : ms.flatMap encode = ns.flatMap encode) : ms = ns := by
  induction ms generalizing ns with
  | nil =>
    cases ns with
    | nil => rfl
    | cons n ns => simp [encode_ne_nil] at h
  | cons m ms ih =>
    cases ns with
    | nil => simp [encode_ne_nil] at h
    | cons n ns =>
      rw [List.flatMap_cons, List.flatMap_cons] at h
      obtain ⟨rfl, hrest⟩ := encode_append_inj (hms m (by simp)) (hns n (by simp)) h
      rw [ih (fun k hk => hms k (by simp [hk])) (fun k hk => hns k (by simp [hk])) hrest]

/-! ## Texts -/

/-- A text is the encoding of a list of scalar values, given by their numbers. -/
lemma isUtf8_iff {s : List UInt8} :
    IsUtf8 s ↔ ∃ ns : List ℕ, (∀ n ∈ ns, n.isValidChar) ∧ ns.flatMap encode = s := by
  constructor
  · rintro ⟨cs, rfl⟩
    refine ⟨cs.map Char.toNat, ?_, ?_⟩
    · intro n hn
      obtain ⟨c, -, rfl⟩ := List.mem_map.1 hn
      exact c.valid
    · rw [List.flatMap_map]
      rfl
  · rintro ⟨ns, hns, rfl⟩
    refine ⟨ns.map Char.ofNat, ?_⟩
    rw [List.flatMap_map]
    refine List.flatMap_congr fun n hn => ?_
    have hchar : (Char.ofNat n).toNat = n := by
      rw [Char.ofNat, dif_pos (hns n hn)]
      rfl
    rw [← encode_toNat, hchar]

end CodePoint
