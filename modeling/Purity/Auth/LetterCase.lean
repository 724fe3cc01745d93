import Purity.Auth.Utf8

set_option relaxedAutoImplicit false
set_option autoImplicit false

/-!
# Upper and lower case of names

A name reaches the account table in two ways. Registration upper-cases it byte by byte
(`SRP6::generate_salt_and_verifier_trinity`), login with `UTF8Utils::to_uppercase`, which steps over
the string by the lengths its lead bytes claim. On a valid name the two agree.

## Main definitions

* `Purity.Utf8.toLowercase` — the lower-case form, which differs from `toUppercase` in the map of a
  byte only.
* `Purity.Utf8.uppercaseLoop` — the loop over the bytes at registration.
* `Purity.Utf8.Recased` — the same text, with some ASCII letters in the other case.

## Main results

* `Purity.Utf8.caseFrom_caseFrom` — two such functions one after the other.
* `Purity.Utf8.toUppercase_eq_uppercaseLoop` — login and registration agree on valid names.
* `Purity.Utf8.normalisation_consistent` — what the upper-case form keeps and forgets.
-/

namespace Purity.Utf8

open CodePoint

/-! ## The case functions -/

/-- `std::tolower` of the "C" locale. -/
def toLowerByte (c : UInt8) : UInt8 := if 0x41 ≤ c ∧ c ≤ 0x5A then c + 0x20 else c

/-- The loop that `to_lowercase` and `to_uppercase` share, where `copy` bytes of the current
multi-byte sequence are still to be appended as they are. -/
def caseFrom (f : UInt8 → UInt8) : ℕ → Bytes → Bytes
  | _, [] => []
  | copy + 1, c :: rest => c :: caseFrom f copy rest
  | 0, c :: rest =>
    if c ≤ 0x7F then f c :: caseFrom f 0 rest else c :: caseFrom f (seqLength c - 1) rest

@[simp] lemma caseFrom_nil (f : UInt8 → UInt8) (copy : ℕ) : caseFrom f copy [] = [] := by
  cases copy <;> rfl

@[simp] lemma caseFrom_succ (f : UInt8 → UInt8) (copy : ℕ) (c : UInt8) (rest : Bytes) :
    caseFrom f (copy + 1) (c :: rest) = c :: caseFrom f copy rest := rfl

/-- Between two sequences the first byte decides. -/
lemma caseFrom_zero (f : UInt8 → UInt8) (c : UInt8) (rest : Bytes) : caseFrom f 0 (c :: rest) =
    if c ≤ 0x7F then f c :: caseFrom f 0 rest else c :: caseFrom f (seqLength c - 1) rest := rfl

/-- `to_lowercase` -/
def toLowercase (str : Bytes) : Bytes := caseFrom toLowerByte 0 str

/-- The loop `for (char& c : up)` of `generate_salt_and_verifier_trinity`. -/
def uppercaseLoop (up : Bytes) : Bytes := up.map toUpperByte

/-- The text `t` is `s` with the case of some ASCII letters changed. -/
def Recased (s t : Bytes) : Prop :=
  List.Forall₂ (fun a b => b = a ∨ b = toUpperByte a ∨ b = toLowerByte a) s t

/-- `to_uppercase` is the loop with `std::toupper`. -/
lemma toUppercase_eq (str : Bytes) : toUppercase str = caseFrom toUpperByte 0 str := by
  have hloop : ∀ copy, toUppercaseFrom copy str = caseFrom toUpperByte copy str := by
    induction str with
    | nil =>
      intro copy
      rw [toUppercaseFrom, caseFrom_nil]
    | cons c rest ih =>
      intro copy
      cases copy with
      | zero => rw [toUppercaseFrom, caseFrom_zero, ih, ih]
      | succ copy => rw [toUppercaseFrom, caseFrom_succ, ih]
  exact hloop 0

/-! ## Every string -/

/-- The loop keeps the length. -/
lemma length_caseFrom (f : UInt8 → UInt8) (copy : ℕ) (s : Bytes) :
    (caseFrom f copy s).length = s.length := by
  induction s generalizing copy with
  | nil => rw [caseFrom_nil]
  | cons c rest ih =>
    cases copy with
    | zero =>
      rw [caseFrom_zero]
      split_ifs <;> simp [ih]
    | succ copy => simp [ih]

/-- **One loop after another** steps over the string in the same way, if the first maps ASCII to
ASCII. -/
lemma caseFrom_caseFrom {f g h : UInt8 → UInt8} (hg : ∀ c ≤ 0x7F, g c ≤ 0x7F)
    (hfg : ∀ c ≤ 0x7F, f (g c) = h c) (copy : ℕ) (s : Bytes) :
    caseFrom f copy (caseFrom g copy s) = caseFrom h copy s := by
  induction s generalizing copy with
  | nil => simp
  | cons c rest ih =>
    cases copy with
    | succ copy => simp [ih]
    | zero =>
      by_cases hc : c ≤ 0x7F
      · simp only [caseFrom_zero, if_pos hc, if_pos (hg c hc), hfg c hc, ih]
      · simp only [caseFrom_zero, if_neg hc, ih]

/-- The value of a byte in upper case. -/
lemma toNat_toUpperByte (c : UInt8) : (toUpperByte c).toNat =
    if 0x61 ≤ c.toNat ∧ c.toNat ≤ 0x7A then c.toNat - 0x20 else c.toNat := by
  have hiff : 0x61 ≤ c ∧ c ≤ 0x7A ↔ 0x61 ≤ c.toNat ∧ c.toNat ≤ 0x7A := Iff.rfl
  simp only [toUpperByte, hiff]
  split_ifs with h
  · have hle : 0x20 ≤ c.toNat := by omega
    exact UInt8.toNat_sub_of_le c 0x20 hle
  · rfl

/-- The value of a byte in lower case. -/
lemma toNat_toLowerByte (c : UInt8) : (toLowerByte c).toNat =
    if 0x41 ≤ c.toNat ∧ c.toNat ≤ 0x5A then c.toNat + 0x20 else c.toNat := by
  have hiff : 0x41 ≤ c ∧ c ≤ 0x5A ↔ 0x41 ≤ c.toNat ∧ c.toNat ≤ 0x5A := Iff.rfl
  simp only [toLowerByte, hiff]
  split_ifs with h
  · have hlt : c.toNat + 0x20 < 256 := by omega
    rw [UInt8.toNat_add]
    exact Nat.mod_eq_of_lt hlt
  · rfl

/-- Both maps of a byte keep ASCII, and upper case undoes both. -/
lemma toUpperByte_cases (c : UInt8) : (c ≤ 0x7F → toUpperByte c ≤ 0x7F ∧ toLowerByte c ≤ 0x7F) ∧
    toUpperByte (toUpperByte c) = toUpperByte c ∧ toUpperByte (toLowerByte c) = toUpperByte c := by
  refine ⟨fun h => ?_, ?_, ?_⟩
  · change c.toNat ≤ 0x7F at h
    change (toUpperByte c).toNat ≤ 0x7F ∧ (toLowerByte c).toNat ≤ 0x7F
    rw [toNat_toUpperByte, toNat_toLowerByte]
    split_ifs <;> omega
  · rw [← UInt8.toNat_inj, toNat_toUpperByte, toNat_toUpperByte]
    split_ifs <;> omega
  · rw [← UInt8.toNat_inj, toNat_toUpperByte, toNat_toUpperByte, toNat_toLowerByte]
    split_ifs <;> omega

/-- A byte with its upper case in ASCII is in ASCII. -/
lemma toUpperByte_le {c : UInt8} (h : toUpperByte c ≤ 0x7F) : c ≤ 0x7F := by
  change (toUpperByte c).toNat ≤ 0x7F at h
  change c.toNat ≤ 0x7F
  rw [toNat_toUpperByte] at h
  split_ifs at h <;> omega

/-- A byte beyond ASCII is no letter, and a letter is not mapped to one. -/
lemma toUpperByte_eq_of_high {c d : UInt8} (hc : 0x80 ≤ c.toNat) (h : toUpperByte d = c) :
    d = c := by
  have hval := toNat_toUpperByte d
  rw [h] at hval
  rw [← UInt8.toNat_inj]
  split_ifs at hval <;> omega

/-- A byte in another case has the same upper case. -/
lemma Recased.map_eq {s t : Bytes} (h : Recased s t) : uppercaseLoop t = uppercaseLoop s := by
  induction h with
  | nil => rfl
  | @cons a b s t hab _ ih =>
    obtain ⟨-, hup, hlow⟩ := toUpperByte_cases a
    have hb : toUpperByte b = toUpperByte a := by
      rcases hab with rfl | rfl | rfl
      · rfl
      · exact hup
      · exact hlow
    simp only [uppercaseLoop, List.map_cons, hb] at ih ⊢
    rw [ih]

/-! ## Valid strings -/

/-- The rest of a sequence is copied. -/
lemma caseFrom_append (f : UInt8 → UInt8) (seq rest : Bytes) :
    caseFrom f seq.length (seq ++ rest) = seq ++ caseFrom f 0 rest := by
  induction seq with
  | nil => rfl
  | cons c seq ih => simp [ih]

/-- The lead byte of an encoding beyond ASCII claims the length that the encoding has. -/
lemma seqLength_of_encode {n : ℕ} {c : UInt8} {tail : Bytes} (hn : n < 0x200000) (hhigh : 0x7F < n)
    (h : encode n = c :: tail) : seqLength c - 1 = tail.length := by
  have htwo := leads_two_iff c
  have hthree := leads_three_iff c
  have hfour := leads_four_iff c
  unfold seqLength
  rcases encode_cases hn with ⟨d, hd, hn₁, -⟩ | ⟨d, d₁, hd, hn₁, hn₂, hd₀, -⟩ |
      ⟨d, d₁, d₂, hd, hn₁, hn₂, hd₀, -, -⟩ | ⟨d, d₁, d₂, d₃, hd, hn₁, hd₀, -, -, -⟩
  · omega
  all_goals
    rw [hd] at h
    cases h
  · rw [if_pos (htwo.2 (by omega))]
    rfl
  · rw [if_neg (mt htwo.1 (by omega)), if_pos (hthree.2 (by omega))]
    rfl
  · rw [if_neg (mt htwo.1 (by omega)), if_neg (mt hthree.1 (by omega)),
      if_pos (hfour.2 (by omega))]
    rfl

/-- An accepted code point has at most 21 bits. -/
lemma Accepted.lt {n : ℕ} (h : Accepted n) : n < 0x200000 := by
  unfold Accepted at h
  omega

/-- Bytes beyond ASCII are kept by upper case. -/
lemma uppercaseLoop_of_high {seq : Bytes} (h : ∀ c ∈ seq, 0x80 ≤ c.toNat) :
    uppercaseLoop seq = seq := by
  have hbyte : ∀ c : UInt8, 0x80 ≤ c.toNat → toUpperByte c = c := by
    intro c hc
    rw [← UInt8.toNat_inj, toNat_toUpperByte, if_neg]
    omega
  have hmap : seq.map toUpperByte = seq.map id :=
    List.map_congr_left fun c hc => hbyte c (h c hc)
  rw [uppercaseLoop, hmap, List.map_id]

/-- The byte of a code point of ASCII. -/
lemma ofNat_le {n : ℕ} (h : n ≤ 0x7F) : UInt8.ofNat n ≤ 0x7F := by
  show (UInt8.ofNat n).toNat ≤ 0x7F
  rw [UInt8.toNat_ofNat_of_lt' (by omega : n < 256)]
  exact h

/-- **Login and registration agree** on a valid name.

**Proof sketch.** Induction on the code points. The loop of `to_uppercase` steps over the encoding
of each as a whole, and a multi-byte encoding has no ASCII letter. -/
lemma toUppercase_eq_uppercaseLoop {s : Bytes} (h : isValidUtf8 s = true) :
    toUppercase s = uppercaseLoop s := by
  obtain ⟨ns, hns, rfl⟩ := (isValidUtf8_iff_accepted s).1 h
  clear h
  rw [toUppercase_eq]
  induction ns with
  | nil => rfl
  | cons n ns ih =>
    have hrest := ih fun m hm => hns m (by simp [hm])
    have hn := (hns n (by simp)).lt
    rw [List.flatMap_cons, uppercaseLoop, List.map_append]
    rcases encode_ascii_or_high hn with ⟨hsmall, henc⟩ | ⟨hbig, hhigh⟩
    · have hascii := ofNat_le hsmall
      rw [henc]
      simp only [List.singleton_append, caseFrom, if_pos hascii, hrest]
      rfl
    · obtain ⟨c, tail, htail⟩ := List.exists_cons_of_ne_nil (encode_ne_nil n)
      have hlead : ¬ c ≤ 0x7F := by
        have := hhigh c (by simp [htail])
        show ¬ c.toNat ≤ 0x7F
        omega
      have hkept := uppercaseLoop_of_high hhigh
      rw [uppercaseLoop] at hkept
      rw [hkept, htail]
      simp only [List.cons_append, caseFrom_zero, if_neg hlead,
        seqLength_of_encode hn hbig htail, caseFrom_append, hrest]
      rfl

/-- The upper case of a valid string is valid. -/
lemma isValidUtf8_uppercaseLoop {s : Bytes} (h : isValidUtf8 s = true) :
    isValidUtf8 (uppercaseLoop s) = true := by
  obtain ⟨ns, hns, rfl⟩ := (isValidUtf8_iff_accepted s).1 h
  clear h
  induction ns with
  | nil => rfl
  | cons n ns ih =>
    have hrest := ih fun m hm => hns m (by simp [hm])
    have hn := hns n (by simp)
    rw [List.flatMap_cons, uppercaseLoop, List.map_append]
    rcases encode_ascii_or_high hn.lt with ⟨hsmall, henc⟩ | ⟨hbig, hhigh⟩
    · have hascii := ofNat_le hsmall
      rw [henc, List.map_singleton, List.singleton_append,
        isValidUtf8_ascii ((toUpperByte_cases _).1 hascii).1]
      exact hrest
    · have hkept := uppercaseLoop_of_high hhigh
      rw [uppercaseLoop] at hkept
      rw [hkept, isValidUtf8_encode hn]
      exact hrest

/-- A string with a valid upper case is valid.

**Proof sketch.** Induction on the code points of the upper case. A byte beyond ASCII stands for
itself, and an ASCII character for another one. -/
lemma isValidUtf8_of_uppercaseLoop {t : Bytes} (h : isValidUtf8 (uppercaseLoop t) = true) :
    isValidUtf8 t = true := by
  obtain ⟨ns, hns, ht⟩ := (isValidUtf8_iff_accepted _).1 h
  clear h
  induction ns generalizing t with
  | nil =>
    obtain rfl : t = [] := by simpa [uppercaseLoop] using ht.symm
    rfl
  | cons n ns ih =>
    have hn := hns n (by simp)
    rw [List.flatMap_cons, uppercaseLoop] at ht
    obtain ⟨seq, rest, rfl, hseq, hrest⟩ := List.map_eq_append_iff.1 ht.symm
    have hvalid := ih (fun m hm => hns m (by simp [hm])) hrest.symm
    rcases encode_ascii_or_high hn.lt with ⟨hsmall, henc⟩ | ⟨hbig, hhigh⟩
    · obtain ⟨c, rfl, hc⟩ : ∃ c, seq = [c] ∧ toUpperByte c = UInt8.ofNat n := by
        rw [henc] at hseq
        obtain ⟨c, rfl, hc⟩ := List.map_eq_singleton_iff.1 hseq
        exact ⟨c, rfl, hc⟩
      have hascii : c ≤ 0x7F := toUpperByte_le (hc ▸ ofNat_le hsmall)
      rw [List.singleton_append, isValidUtf8_ascii hascii]
      exact hvalid
    · have hkept : seq.map toUpperByte = seq.map id := by
        refine List.map_congr_left fun c hc => (toUpperByte_eq_of_high ?_ rfl).symm
        refine hhigh _ ?_
        rw [← hseq]
        exact List.mem_map_of_mem hc
      rw [hkept, List.map_id] at hseq
      rw [hseq, isValidUtf8_encode hn]
      exact hvalid

/-- **Names are normalised consistently.** The upper-case form of every string has its length and is
its own upper-case form. For a string that the validator accepts it is the form registration
computes and valid again, it is the same for every string that differs in the case of ASCII letters,
and lower case before it makes no difference. -/
theorem normalisation_consistent :
    (∀ s, (toUppercase s).length = s.length ∧ toUppercase (toUppercase s) = toUppercase s) ∧
    ∀ s, isValidUtf8 s = true →
      toUppercase s = uppercaseLoop s ∧ isValidUtf8 (toUppercase s) = true ∧
      (∀ t, Recased s t → toUppercase t = toUppercase s) ∧
      toUppercase (toLowercase s) = toUppercase s := by
  have hup : ∀ c ≤ 0x7F, toUpperByte c ≤ 0x7F := fun c hc => ((toUpperByte_cases c).1 hc).1
  have hlow : ∀ c ≤ 0x7F, toLowerByte c ≤ 0x7F := fun c hc => ((toUpperByte_cases c).1 hc).2
  refine ⟨fun s => ⟨?_, ?_⟩, fun s hs => ⟨?_, ?_, ?_, ?_⟩⟩
  · rw [toUppercase_eq, length_caseFrom]
  · rw [toUppercase_eq, toUppercase_eq]
    exact caseFrom_caseFrom hup (fun c _ => (toUpperByte_cases c).2.1) 0 s
  · exact toUppercase_eq_uppercaseLoop hs
  · rw [toUppercase_eq_uppercaseLoop hs]
    exact isValidUtf8_uppercaseLoop hs
  · intro t ht
    have hmap := ht.map_eq
    have hvalid : isValidUtf8 t = true :=
      isValidUtf8_of_uppercaseLoop (hmap ▸ isValidUtf8_uppercaseLoop hs)
    rw [toUppercase_eq_uppercaseLoop hs, toUppercase_eq_uppercaseLoop hvalid, hmap]
  · rw [toUppercase_eq, toUppercase_eq, toLowercase]
    exact caseFrom_caseFrom hlow (fun c _ => (toUpperByte_cases c).2.2) 0 s

/-- The name `aä` of three bytes, and `Aä`. -/
theorem normalisation_consistent_umlaut :
    toUppercase [0x61, 0xC3, 0xA4] = [0x41, 0xC3, 0xA4] ∧
      toUppercase [0x61, 0xC3, 0xA4] = toUppercase [0x41, 0xC3, 0xA4] := by
  obtain ⟨-, hvalid⟩ := normalisation_consistent
  obtain ⟨hloop, -, hcase, -⟩ := hvalid [0x61, 0xC3, 0xA4] (by decide)
  refine ⟨hloop.trans (by decide), (hcase [0x41, 0xC3, 0xA4] ?_).symm⟩
  exact .cons (.inr (.inl rfl)) (.cons (.inl rfl) (.cons (.inl rfl) .nil))

end Purity.Utf8
