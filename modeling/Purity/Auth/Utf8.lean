import Purity.Base.CodePoints
import Purity.Packet.ByteBuffer

set_option relaxedAutoImplicit false
set_option autoImplicit false

/-!
# User names

The part of `UTF8Utils` (`common/utils/utf8utils/UTF8Utils.cpp`) the login handler uses: the
validity check of a name and its upper-case form. Both loops advance over the string by the length
of the current UTF-8 sequence; here they run over the bytes still to read.

## Main definitions

* `Purity.Utf8.isValidUtf8` — the validator, with the boundary checks the source makes.
* `Purity.Utf8.toUppercase` — ASCII letters upper-cased, multi-byte sequences copied.
* `Purity.Utf8.Accepted`, `Purity.Utf8.BeyondUnicode` — the code points whose encodings the
  validator accepts, and the strings with one that is no Unicode code point.

## Main results

* `Purity.Utf8.isValidUtf8_iff_accepted` — the strings the validator accepts.
* `Purity.Utf8.isValidUtf8_exact_iff` — it is exact but for the strings beyond Unicode.
-/

namespace Purity.Utf8

/-- `(c & 0xC0) == 0x80`: `c` may continue a sequence. -/
def isCont (c : UInt8) : Bool := c &&& 0xC0 == 0x80

/-- `is_valid_utf8` -/
def isValidUtf8 : Bytes → Bool
  | [] => true
  | c :: rest =>
    if c ≤ 0x7F then isValidUtf8 rest
    else if c &&& 0xE0 == 0xC0 then
      match rest with
      | c₁ :: rest =>
        if !isCont c₁ then false
        else if c < 0xC2 then false
        else isValidUtf8 rest
      | _ => false
    else if c &&& 0xF0 == 0xE0 then
      match rest with
      | c₁ :: c₂ :: rest =>
        if !isCont c₁ then false
        else if !isCont c₂ then false
        else if c == 0xE0 && c₁ < 0xA0 then false
        else if c == 0xED && c₁ ≥ 0xA0 then false
        else isValidUtf8 rest
      | _ => false
    else if c &&& 0xF8 == 0xF0 then
      match rest with
      | c₁ :: c₂ :: c₃ :: rest =>
        if !isCont c₁ then false
        else if !isCont c₂ then false
        else if !isCont c₃ then false
        else if c == 0xF0 && c₁ < 0x90 then false
        else if c > 0xF4 then false
        else isValidUtf8 rest
      | _ => false
    else false

/-- `std::toupper` of the "C" locale. -/
def toUpperByte (c : UInt8) : UInt8 := if 0x61 ≤ c ∧ c ≤ 0x7A then c - 0x20 else c

/-- The length of the sequence a lead byte above `0x7F` starts, as the case functions take it. -/
def seqLength (c : UInt8) : ℕ :=
  if c &&& 0xE0 == 0xC0 then 2
  else if c &&& 0xF0 == 0xE0 then 3
  else if c &&& 0xF8 == 0xF0 then 4
  else 1

/-- The loop of `to_uppercase`, where `copy` bytes of the current multi-byte sequence are still
to be appended as they are; `substr` stops at the end of the string, and so does this. -/
def toUppercaseFrom : ℕ → Bytes → Bytes
  | _, [] => []
  | copy + 1, c :: rest => c :: toUppercaseFrom copy rest
  | 0, c :: rest =>
    if c ≤ 0x7F then toUpperByte c :: toUppercaseFrom 0 rest
    else c :: toUppercaseFrom (seqLength c - 1) rest

/-- `to_uppercase` -/
def toUppercase (str : Bytes) : Bytes := toUppercaseFrom 0 str

/-! ## Classes of bytes -/

/-- The classes of bytes that the masks tell apart. -/
lemma mask_cases (c : UInt8) : (isCont c = true ↔ 0x80 ≤ c.toNat ∧ c.toNat < 0xC0) ∧
    ((c &&& 0xE0 == 0xC0) = true ↔ 0xC0 ≤ c.toNat ∧ c.toNat < 0xE0) ∧
    ((c &&& 0xF0 == 0xE0) = true ↔ 0xE0 ≤ c.toNat ∧ c.toNat < 0xF0) ∧
    ((c &&& 0xF8 == 0xF0) = true ↔ 0xF0 ≤ c.toNat ∧ c.toNat < 0xF8) := by
  refine Endian.forall_byte ?_ c
  decide +kernel

/-- The bytes that continue a sequence. -/
lemma isCont_iff (c : UInt8) : isCont c = true ↔ 0x80 ≤ c.toNat ∧ c.toNat < 0xC0 :=
  (mask_cases c).1

/-- The bytes taken as the first of two. -/
lemma leads_two_iff (c : UInt8) :
    (c &&& 0xE0 == 0xC0) = true ↔ 0xC0 ≤ c.toNat ∧ c.toNat < 0xE0 :=
  (mask_cases c).2.1

/-- The bytes taken as the first of three. -/
lemma leads_three_iff (c : UInt8) :
    (c &&& 0xF0 == 0xE0) = true ↔ 0xE0 ≤ c.toNat ∧ c.toNat < 0xF0 :=
  (mask_cases c).2.2.1

/-- The bytes taken as the first of four. -/
lemma leads_four_iff (c : UInt8) :
    (c &&& 0xF8 == 0xF0) = true ↔ 0xF0 ≤ c.toNat ∧ c.toNat < 0xF8 :=
  (mask_cases c).2.2.2

/-! ## What the validator accepts -/

open CodePoint

/-- The code points whose encoding the validator accepts: no surrogate, and up to U+13FFFF, since
the second byte after `0xF4` is not checked. -/
def Accepted (n : ℕ) : Prop := n < 0xD800 ∨ (0xDFFF < n ∧ n < 0x140000)

/-- An ASCII character is taken off. -/
lemma isValidUtf8_ascii {c : UInt8} (h : c ≤ 0x7F) (rest : Bytes) :
    isValidUtf8 (c :: rest) = isValidUtf8 rest := by
  rw [isValidUtf8.eq_def]
  exact if_pos h

/-- A sequence of two bytes that passes the checks is taken off. -/
lemma isValidUtf8_two {c c₁ : UInt8} (hc : 0xC2 ≤ c.toNat ∧ c.toNat < 0xE0)
    (h₁ : isCont c₁ = true) (rest : Bytes) :
    isValidUtf8 (c :: c₁ :: rest) = isValidUtf8 rest := by
  have hascii : ¬ c ≤ 0x7F := show ¬ c.toNat ≤ 0x7F by omega
  have hlead : (c &&& 0xE0 == 0xC0) = true := (leads_two_iff c).2 (by omega)
  have hlow : ¬ c < 0xC2 := show ¬ c.toNat < 0xC2 by omega
  rw [isValidUtf8.eq_def]
  dsimp only
  rw [if_neg hascii, if_pos hlead, if_neg (by simp [h₁]), if_neg hlow]

/-- The same for three bytes. -/
lemma isValidUtf8_three {c c₁ c₂ : UInt8} (hc : 0xE0 ≤ c.toNat ∧ c.toNat < 0xF0)
    (h₁ : isCont c₁ = true) (h₂ : isCont c₂ = true) (hE0 : c.toNat = 0xE0 → 0xA0 ≤ c₁.toNat)
    (hED : c.toNat = 0xED → c₁.toNat < 0xA0) (rest : Bytes) :
    isValidUtf8 (c :: c₁ :: c₂ :: rest) = isValidUtf8 rest := by
  have hascii : ¬ c ≤ 0x7F := show ¬ c.toNat ≤ 0x7F by omega
  have htwo : ¬ (c &&& 0xE0 == 0xC0) = true := mt (leads_two_iff c).1 (by omega)
  have hlead : (c &&& 0xF0 == 0xE0) = true := (leads_three_iff c).2 hc
  have hshort : ¬ (c == 0xE0 && decide (c₁ < 0xA0)) = true := by
    rw [Bool.and_eq_true, beq_iff_eq, decide_eq_true_iff]
    rintro ⟨rfl, hlt⟩
    exact absurd (hE0 rfl) (not_le.2 hlt)
  have hsurrogate : ¬ (c == 0xED && decide (c₁ ≥ 0xA0)) = true := by
    rw [Bool.and_eq_true, beq_iff_eq, decide_eq_true_iff]
    rintro ⟨rfl, hge⟩
    exact absurd (hED rfl) (not_lt.2 hge)
  rw [isValidUtf8.eq_def]
  dsimp only
  rw [if_neg hascii, if_neg htwo, if_pos hlead, if_neg (by simp [h₁]), if_neg (by simp [h₂]),
    if_neg hshort, if_neg hsurrogate]

/-- The same for four bytes. -/
lemma isValidUtf8_four {c c₁ c₂ c₃ : UInt8} (hc : 0xF0 ≤ c.toNat ∧ c.toNat ≤ 0xF4)
    (h₁ : isCont c₁ = true) (h₂ : isCont c₂ = true) (h₃ : isCont c₃ = true)
    (hF0 : c.toNat = 0xF0 → 0x90 ≤ c₁.toNat) (rest : Bytes) :
    isValidUtf8 (c :: c₁ :: c₂ :: c₃ :: rest) = isValidUtf8 rest := by
  have hascii : ¬ c ≤ 0x7F := show ¬ c.toNat ≤ 0x7F by omega
  have htwo : ¬ (c &&& 0xE0 == 0xC0) = true := mt (leads_two_iff c).1 (by omega)
  have hthree : ¬ (c &&& 0xF0 == 0xE0) = true := mt (leads_three_iff c).1 (by omega)
  have hlead : (c &&& 0xF8 == 0xF0) = true := (leads_four_iff c).2 (by omega)
  have hshort : ¬ (c == 0xF0 && decide (c₁ < 0x90)) = true := by
    rw [Bool.and_eq_true, beq_iff_eq, decide_eq_true_iff]
    rintro ⟨rfl, hlt⟩
    exact absurd (hF0 rfl) (not_le.2 hlt)
  have hhigh : ¬ c > 0xF4 := show ¬ 0xF4 < c.toNat by omega
  rw [isValidUtf8.eq_def]
  dsimp only
  rw [if_neg hascii, if_neg htwo, if_neg hthree, if_pos hlead, if_neg (by simp [h₁]),
    if_neg (by simp [h₂]), if_neg (by simp [h₃]), if_neg hshort, if_neg hhigh]

/-- The validator takes the encoding of an accepted code point off the string.

**Proof sketch.** One case for each form of the encoding. -/
lemma isValidUtf8_encode {n : ℕ} (h : Accepted n) (rest : Bytes) :
    isValidUtf8 (encode n ++ rest) = isValidUtf8 rest := by
  unfold Accepted at h
  have hcont : ∀ {c : UInt8} {m : ℕ}, c.toNat = m % 64 + 0x80 → isCont c = true := by
    intro c m hc
    rw [isCont_iff]
    omega
  rcases encode_cases (n := n) (by omega) with ⟨c, hc, hn₁, hc₀⟩ | ⟨c, c₁, hc, hn₁, hn₂, hc₀, hc₁⟩ |
      ⟨c, c₁, c₂, hc, hn₁, hn₂, hc₀, hc₁, hc₂⟩ | ⟨c, c₁, c₂, c₃, hc, hn₁, hc₀, hc₁, hc₂, hc₃⟩
  · have hascii : c ≤ 0x7F := show c.toNat ≤ 0x7F by omega
    rw [hc, List.singleton_append, isValidUtf8_ascii hascii]
  · rw [hc]
    exact isValidUtf8_two (by omega) (hcont hc₁) rest
  · rw [hc]
    exact isValidUtf8_three (by omega) (hcont hc₁) (hcont hc₂) (by omega) (by omega) rest
  · rw [hc]
    exact isValidUtf8_four (by omega) (hcont hc₁) (hcont hc₂) (hcont hc₃) (by omega) rest

/-- A byte that does not fail the continuation check. -/
lemma isCont_of_not {c : UInt8} (h : ¬ (!isCont c) = true) : 0x80 ≤ c.toNat ∧ c.toNat < 0xC0 := by
  rw [← isCont_iff]
  simpa using h

/-- A check of two bytes that does not fail. -/
lemma not_lt_of_check {c c₁ a b : UInt8} (h : ¬ (c == a && decide (c₁ < b)) = true)
    (hc : c.toNat = a.toNat) : b.toNat ≤ c₁.toNat := by
  by_contra hlt
  refine h ?_
  rw [Bool.and_eq_true, beq_iff_eq, decide_eq_true_iff]
  exact ⟨UInt8.toNat_inj.1 hc, not_le.1 hlt⟩

/-- A string that the validator accepts starts with the encoding of such a code point.

**Proof sketch.** One case for each branch of the loop. The checks made there are those that the
form of the encoding needs. -/
lemma exists_encode_of_isValidUtf8 {c : UInt8} {rest : Bytes}
    (h : isValidUtf8 (c :: rest) = true) :
    ∃ n r, Accepted n ∧ c :: rest = encode n ++ r ∧ isValidUtf8 r = true := by
  rw [isValidUtf8.eq_def] at h
  dsimp only at h
  split at h
  · next hascii =>
    have hc : c.toNat ≤ 0x7F := hascii
    exact ⟨c.toNat, rest, .inl (by omega), by rw [encode_one hc]; rfl, h⟩
  split at h
  · next htwo =>
    obtain ⟨-, hc⟩ := (leads_two_iff c).1 htwo
    split at h
    · next c₁ r =>
      split_ifs at h with hcont hlow
      have hlow' : 0xC2 ≤ c.toNat := not_lt.1 hlow
      obtain ⟨h₁, h₁'⟩ := isCont_of_not hcont
      obtain ⟨n, henc, hn⟩ := encode_two hlow' hc h₁ h₁'
      exact ⟨n, r, .inl (by omega), by rw [henc]; rfl, h⟩
    · cases h
  split at h
  · next hthree =>
    obtain ⟨hc, hc'⟩ := (leads_three_iff c).1 hthree
    split at h
    · next c₁ c₂ r =>
      split_ifs at h with hcont₁ hcont₂ hshort hsurrogate
      obtain ⟨h₁, h₁'⟩ := isCont_of_not hcont₁
      obtain ⟨h₂, h₂'⟩ := isCont_of_not hcont₂
      obtain ⟨n, henc, hn⟩ := encode_three hc hc' (not_lt_of_check hshort) h₁ h₁' h₂ h₂'
      have hED : c.toNat = 0xED → c₁.toNat < 0xA0 := by
        intro hc
        by_contra hge
        refine hsurrogate ?_
        rw [Bool.and_eq_true, beq_iff_eq, decide_eq_true_iff]
        exact ⟨UInt8.toNat_inj.1 hc, not_lt.1 hge⟩
      refine ⟨n, r, ?_, by rw [henc]; rfl, h⟩
      unfold Accepted
      omega
    · cases h
  split at h
  · next hfour =>
    obtain ⟨hc, hc'⟩ := (leads_four_iff c).1 hfour
    split at h
    · next c₁ c₂ c₃ r =>
      split_ifs at h with hcont₁ hcont₂ hcont₃ hshort hhigh
      have hhigh' : c.toNat ≤ 0xF4 := not_lt.1 hhigh
      obtain ⟨h₁, h₁'⟩ := isCont_of_not hcont₁
      obtain ⟨h₂, h₂'⟩ := isCont_of_not hcont₂
      obtain ⟨h₃, h₃'⟩ := isCont_of_not hcont₃
      have hF0 : c.toNat = 0xF0 → 0x90 ≤ c₁.toNat := not_lt_of_check hshort
      obtain ⟨n, henc, hn⟩ := encode_four hc hc' hF0 h₁ h₁' h₂ h₂' h₃ h₃'
      refine ⟨n, r, .inr ?_, by rw [henc]; rfl, h⟩
      omega
    · cases h
  · cases h

/-- **What the validator accepts**: the encodings of lists of accepted code points. -/
lemma isValidUtf8_iff_accepted (s : Bytes) : isValidUtf8 s = true ↔
    ∃ ns : List ℕ, (∀ n ∈ ns, Accepted n) ∧ ns.flatMap encode = s := by
  constructor
  · intro h
    induction hlen : s.length using Nat.strong_induction_on generalizing s with
    | _ len ih =>
      cases s with
      | nil => exact ⟨[], by simp, rfl⟩
      | cons c rest =>
        obtain ⟨n, r, hn, hs, hr⟩ := exists_encode_of_isValidUtf8 h
        have hpos := List.length_pos_iff.2 (encode_ne_nil n)
        have hlt : r.length < len := by
          rw [← hlen, hs, List.length_append]
          omega
        obtain ⟨ns, hns, rfl⟩ := ih r.length hlt r hr rfl
        refine ⟨n :: ns, ?_, hs.symm⟩
        simpa using ⟨hn, hns⟩
  · rintro ⟨ns, hns, rfl⟩
    induction ns with
    | nil => rfl
    | cons n ns ih =>
      rw [List.flatMap_cons, isValidUtf8_encode (hns n (by simp))]
      exact ih fun m hm => hns m (by simp [hm])

/-- The string is the encoding of code points that the validator accepts, and one of them lies
beyond Unicode. -/
def BeyondUnicode (s : Bytes) : Prop :=
  ∃ ns : List ℕ, (∀ n ∈ ns, Accepted n) ∧ (∃ n ∈ ns, 0x110000 ≤ n) ∧ ns.flatMap encode = s

/-- **Exactness of the validator.** It accepts the UTF-8 texts and nothing else, except for strings
with the encoding of a code point from U+110000 to U+13FFFF among encodings that it accepts.

**Proof sketch.** By `isValidUtf8_iff_accepted` it accepts every UTF-8 text, since a scalar value is
an accepted code point. What else it accepts has a code point beyond Unicode. And as a text has one
decoding, a string with such a code point is no UTF-8 text. -/
theorem isValidUtf8_exact_iff (s : Bytes) :
    (isValidUtf8 s = true ↔ IsUtf8 s) ↔ ¬ BeyondUnicode s := by
  have hscalar : ∀ n : ℕ, n.isValidChar → Accepted n := by
    intro n hn
    unfold Nat.isValidChar at hn
    unfold Accepted
    omega
  constructor
  · rintro hexact ⟨ns, hns, ⟨n, hn, hbig⟩, hs⟩
    obtain ⟨ms, hms, hs'⟩ := isUtf8_iff.1 (hexact.1 ((isValidUtf8_iff_accepted s).2 ⟨ns, hns, hs⟩))
    have hbound : ∀ {k}, Accepted k → k < 0x200000 := by
      intro k hk
      unfold Accepted at hk
      omega
    obtain rfl : ns = ms := flatMap_encode_inj (fun k hk => hbound (hns k hk))
      (fun k hk => hbound (hscalar k (hms k hk))) (hs.trans hs'.symm)
    have hvalid := hms n hn
    unfold Nat.isValidChar at hvalid
    omega
  · intro hunicode
    rw [isValidUtf8_iff_accepted, isUtf8_iff]
    constructor
    · rintro ⟨ns, hns, hs⟩
      refine ⟨ns, fun n hn => ?_, hs⟩
      have hsmall : ¬ 0x110000 ≤ n := fun hbig => hunicode ⟨ns, hns, ⟨n, hn, hbig⟩, hs⟩
      have haccepted := hns n hn
      unfold Accepted at haccepted
      unfold Nat.isValidChar
      omega
    · rintro ⟨ns, hns, hs⟩
      exact ⟨ns, fun n hn => hscalar n (hns n hn), hs⟩

/-- The bytes of U+110000 are accepted, and are no UTF-8 text. -/
theorem isValidUtf8_beyond :
    isValidUtf8 [0xF4, 0x90, 0x80, 0x80] = true ∧ ¬ IsUtf8 [0xF4, 0x90, 0x80, 0x80] := by
  have hs : [0x110000].flatMap encode = [0xF4, 0x90, 0x80, 0x80] := by decide
  refine ⟨by decide, fun h => ?_⟩
  obtain ⟨ms, hms, hs'⟩ := isUtf8_iff.1 h
  have hbound : ∀ m ∈ ms, m < 0x200000 := by
    intro m hm
    have hvalid := hms m hm
    unfold Nat.isValidChar at hvalid
    omega
  obtain rfl : [0x110000] = ms := flatMap_encode_inj (by decide) hbound (hs.trans hs'.symm)
  exact absurd (hms 0x110000 (by simp)) (by decide)

end Purity.Utf8
