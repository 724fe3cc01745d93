import Purity.Base.CodePoints
import Purity.Base.Run

set_option relaxedAutoImplicit false
set_option autoImplicit false

/-!
# JSON texts

The grammar of RFC 8259, on the bytes of a text in UTF-8, together with the value that a text
denotes. A string denotes a list of UTF-16 code units, since the escape `\u` gives one unit and a
character outside the basic plane may be written as a pair of them.

## Main definitions

* `Json` — values; the members of an object are in the order of the text.
* `Json.StringBody`, `Json.IsNumber`, `Json.Derives`, `Json.IsText` — the grammar.
* `Json.scanByte` — a scanner that only knows whether it is in a string, and fails on a control
  character there.

## Main results

* `Json.units_inj`, `Json.utf8_inj` — the code units and the bytes of a text determine it.
* `Json.Derives.scan` — the scanner accepts what the grammar derives.
* `Json.StringBody.of_plain`, `Json.isNumber_toDigits`, `Json.Derives.member_of` — texts without
  space.
-/

/-- A value. A number is kept as it is written. -/
inductive Json where
  | null
  | bool (b : Bool)
  | num (text : List UInt8)
  | str (units : List ℕ)
  | arr (elements : List Json)
  | obj (members : List (List ℕ × Json))

namespace Json

/-- The bytes of a text. -/
def utf8 (cs : List Char) : List UInt8 := cs.flatMap String.utf8EncodeChar

/-- The UTF-16 code units of a character. -/
def utf16 (c : Char) : List ℕ :=
  if c.toNat < 0x10000 then [c.toNat]
  else [0xD800 + (c.toNat - 0x10000) / 0x400, 0xDC00 + (c.toNat - 0x10000) % 0x400]

/-- The code units of a text. -/
def units (cs : List Char) : List ℕ := cs.flatMap utf16

/-- The code point of a character is no surrogate. -/
lemma toNat_char (c : Char) : c.toNat < 0xD800 ∨ 0xDFFF < c.toNat ∧ c.toNat < 0x110000 := c.valid

/-- The first character of a list of code units is determined. -/
lemma utf16_append_inj {c d : Char} {us vs : List ℕ} (h : utf16 c ++ us = utf16 d ++ vs) :
    c = d ∧ us = vs := by
  have hc := toNat_char c
  have hd := toNat_char d
  unfold utf16 at h
  split_ifs at h
  · simp only [List.cons_append, List.nil_append, List.cons.injEq] at h
    exact ⟨Char.toNat_inj.1 h.1, h.2⟩
  · simp only [List.cons_append, List.nil_append, List.cons.injEq] at h
    omega
  · simp only [List.cons_append, List.nil_append, List.cons.injEq] at h
    omega
  · simp only [List.cons_append, List.nil_append, List.cons.injEq] at h
    exact ⟨Char.toNat_inj.1 (by omega), h.2.2⟩

/-- No character has no code unit. -/
lemma utf16_ne_nil (c : Char) : utf16 c ≠ [] := by
  unfold utf16
  split_ifs <;> simp

/-- The code units determine the text. -/
lemma units_inj {cs ds : List Char} (h : units cs = units ds) : cs = ds := by
  induction cs generalizing ds with
  | nil =>
    cases ds with
    | nil => rfl
    | cons d ds => simp [units, utf16_ne_nil] at h
  | cons c cs ih =>
    cases ds with
    | nil => simp [units, utf16_ne_nil] at h
    | cons d ds =>
      obtain ⟨rfl, hrest⟩ := utf16_append_inj h
      rw [ih hrest]

/-- So do the bytes. -/
lemma utf8_inj {cs ds : List Char} (h : utf8 cs = utf8 ds) : cs = ds := by
  have hlt : ∀ es : List Char, ∀ n ∈ es.map Char.toNat, n < 0x200000 := by
    intro es n hn
    obtain ⟨c, -, rfl⟩ := List.mem_map.1 hn
    have := toNat_char c
    omega
  have hmap : ∀ es : List Char, (es.map Char.toNat).flatMap CodePoint.encode = utf8 es := by
    intro es
    rw [List.flatMap_map]
    rfl
  refine List.map_injective_iff.2 (fun c d => Char.toNat_inj.1) ?_
  exact CodePoint.flatMap_encode_inj (hlt cs) (hlt ds) (by rw [hmap, hmap, h])

/-! ## The grammar -/

/-- Space, tab, line feed and carriage return. -/
def IsWs (s : List UInt8) : Prop := ∀ b ∈ s, b = 0x20 ∨ b = 0x09 ∨ b = 0x0A ∨ b = 0x0D

/-- A decimal digit. -/
def IsDigit (b : UInt8) : Prop := 0x30 ≤ b.toNat ∧ b.toNat ≤ 0x39

/-- One digit or more. -/
def IsDigits (s : List UInt8) : Prop := s ≠ [] ∧ ∀ b ∈ s, IsDigit b

/-- The integer part of a number: zero, or digits that do not begin with a zero. -/
def IsInt (s : List UInt8) : Prop := s = [0x30] ∨ IsDigits s ∧ s.head? ≠ some 0x30

/-- The fraction of a number. -/
def IsFrac (s : List UInt8) : Prop := s = [] ∨ ∃ ds, s = 0x2E :: ds ∧ IsDigits ds

/-- The exponent of a number. -/
def IsExp (s : List UInt8) : Prop :=
  s = [] ∨ ∃ e sign ds, s = e :: (sign ++ ds) ∧ (e = 0x65 ∨ e = 0x45) ∧
    (sign = [] ∨ sign = [0x2B] ∨ sign = [0x2D]) ∧ IsDigits ds

/-- A number: a minus sign, the integer part, a fraction and an exponent, all but the second
optional. -/
def IsNumber (s : List UInt8) : Prop :=
  ∃ minus int frac exp, s = minus ++ (int ++ (frac ++ exp)) ∧ (minus = [] ∨ minus = [0x2D]) ∧
    IsInt int ∧ IsFrac frac ∧ IsExp exp

/-- The code unit of an escape by one letter. -/
def escapeValue (b : UInt8) : Option ℕ :=
  if b = 0x22 ∨ b = 0x5C ∨ b = 0x2F then some b.toNat
  else if b = 0x62 then some 0x08
  else if b = 0x66 then some 0x0C
  else if b = 0x6E then some 0x0A
  else if b = 0x72 then some 0x0D
  else if b = 0x74 then some 0x09
  else none

/-- The value of a hexadecimal digit. -/
def hexValue (b : UInt8) : Option ℕ :=
  if 0x30 ≤ b.toNat ∧ b.toNat ≤ 0x39 then some (b.toNat - 0x30)
  else if 0x41 ≤ b.toNat ∧ b.toNat ≤ 0x46 then some (b.toNat - 0x41 + 10)
  else if 0x61 ≤ b.toNat ∧ b.toNat ≤ 0x66 then some (b.toNat - 0x61 + 10)
  else none

/-- What stands between the quotation marks of a string, and its code units: characters from U+0020
on other than the quotation mark and the backslash, and escapes. -/
inductive StringBody : List UInt8 → List ℕ → Prop where
  | nil : StringBody [] []
  | unescaped {c : Char} {s : List UInt8} {us : List ℕ} (hc : 0x20 ≤ c.toNat) (hquote : c ≠ '"')
    (hback : c ≠ '\\') (h : StringBody s us) :
    StringBody (String.utf8EncodeChar c ++ s) (utf16 c ++ us)
  | escaped {b : UInt8} {u : ℕ} {s : List UInt8} {us : List ℕ} (hb : escapeValue b = some u)
    (h : StringBody s us) : StringBody (0x5C :: b :: s) (u :: us)
  | hex {b₁ b₂ b₃ b₄ : UInt8} {v₁ v₂ v₃ v₄ : ℕ} {s : List UInt8} {us : List ℕ}
    (h₁ : hexValue b₁ = some v₁) (h₂ : hexValue b₂ = some v₂) (h₃ : hexValue b₃ = some v₃)
    (h₄ : hexValue b₄ = some v₄) (h : StringBody s us) :
    StringBody (0x5C :: 0x75 :: b₁ :: b₂ :: b₃ :: b₄ :: s)
      ((((v₁ * 16 + v₂) * 16 + v₃) * 16 + v₄) :: us)

/-- A string with its quotation marks. -/
def IsString (s : List UInt8) (us : List ℕ) : Prop :=
  ∃ body, s = 0x22 :: (body ++ [0x22]) ∧ StringBody body us

/-- The nonterminals: a value; what stands between the brackets of an array that is not empty, as
the array of its elements; and the same for an object. -/
inductive Nonterminal where
  | value
  | elements
  | members

/-- The text of a nonterminal and its value. -/
inductive Derives : Nonterminal → List UInt8 → Json → Prop where
  | null : Derives .value (utf8 "null".toList) .null
  | true : Derives .value (utf8 "true".toList) (.bool true)
  | false : Derives .value (utf8 "false".toList) (.bool false)
  | number {s : List UInt8} (h : IsNumber s) : Derives .value s (.num s)
  | string {s : List UInt8} {us : List ℕ} (h : IsString s us) : Derives .value s (.str us)
  | emptyArray {w : List UInt8} (hw : IsWs w) : Derives .value (0x5B :: (w ++ [0x5D])) (.arr [])
  | array {s : List UInt8} {vs : List Json} (h : Derives .elements s (.arr vs)) :
    Derives .value (0x5B :: (s ++ [0x5D])) (.arr vs)
  | emptyObject {w : List UInt8} (hw : IsWs w) : Derives .value (0x7B :: (w ++ [0x7D])) (.obj [])
  | object {s : List UInt8} {ms : List (List ℕ × Json)} (h : Derives .members s (.obj ms)) :
    Derives .value (0x7B :: (s ++ [0x7D])) (.obj ms)
  | lastElement {w w' s : List UInt8} {v : Json} (hw : IsWs w) (hw' : IsWs w')
    (h : Derives .value s v) : Derives .elements (w ++ (s ++ w')) (.arr [v])
  | element {w w' s t : List UInt8} {v : Json} {vs : List Json} (hw : IsWs w) (hw' : IsWs w')
    (h : Derives .value s v) (ht : Derives .elements t (.arr vs)) :
    Derives .elements (w ++ (s ++ (w' ++ 0x2C :: t))) (.arr (v :: vs))
  | lastMember {w₁ w₂ w₃ w₄ k s : List UInt8} {us : List ℕ} {v : Json} (hw₁ : IsWs w₁)
    (hw₂ : IsWs w₂) (hw₃ : IsWs w₃) (hw₄ : IsWs w₄) (hk : IsString k us) (h : Derives .value s v) :
    Derives .members (w₁ ++ (k ++ (w₂ ++ 0x3A :: (w₃ ++ (s ++ w₄))))) (.obj [(us, v)])
  | member {w₁ w₂ w₃ w₄ k s t : List UInt8} {us : List ℕ} {v : Json} {ms : List (List ℕ × Json)}
    (hw₁ : IsWs w₁) (hw₂ : IsWs w₂) (hw₃ : IsWs w₃) (hw₄ : IsWs w₄) (hk : IsString k us)
    (h : Derives .value s v) (ht : Derives .members t (.obj ms)) :
    Derives .members (w₁ ++ (k ++ (w₂ ++ 0x3A :: (w₃ ++ (s ++ (w₄ ++ 0x2C :: t))))))
      (.obj ((us, v) :: ms))

/-- A JSON text: a value with space around it. -/
def IsText (s : List UInt8) (v : Json) : Prop :=
  ∃ w t w', s = w ++ (t ++ w') ∧ IsWs w ∧ IsWs w' ∧ Derives .value t v

/-! ## The bytes of a character -/

/-- The bytes of a character: itself if it is ASCII, and otherwise bytes beyond ASCII. -/
lemma utf8EncodeChar_cases (c : Char) :
    (c.toNat ≤ 0x7F ∧ String.utf8EncodeChar c = [UInt8.ofNat c.toNat]) ∨
      (0x7F < c.toNat ∧ ∀ b ∈ String.utf8EncodeChar c, 0x80 ≤ b.toNat) := by
  have hvalid := toNat_char c
  exact CodePoint.encode_ascii_or_high (by omega)

/-- A character other than one of ASCII does not have its byte. -/
lemma ne_of_mem_utf8EncodeChar {c d : Char} (hd : d.toNat ≤ 0x7F) (hne : c ≠ d) :
    ∀ b ∈ String.utf8EncodeChar c, b ≠ UInt8.ofNat d.toNat := by
  rintro b hb rfl
  have hval : (UInt8.ofNat d.toNat).toNat = d.toNat := CodePoint.toNat_ofNat rfl (by omega)
  rcases utf8EncodeChar_cases c with ⟨hle, heq⟩ | ⟨-, hhigh⟩
  · have hval' : (UInt8.ofNat c.toNat).toNat = c.toNat := CodePoint.toNat_ofNat rfl (by omega)
    rw [heq, List.mem_singleton] at hb
    rw [hb, hval'] at hval
    exact hne (Char.toNat_inj.1 hval)
  · have hle := hhigh _ hb
    omega

/-- The bytes of a text have no control character. -/
def NoControl (s : List UInt8) : Prop := ∀ b ∈ s, 0x20 ≤ b.toNat

instance (s : List UInt8) : Decidable (NoControl s) := List.decidableBAll _ s

@[simp] lemma noControl_append {s t : List UInt8} :
    NoControl (s ++ t) ↔ NoControl s ∧ NoControl t := List.forall_mem_append

/-- The bytes of a character have no control character unless it is one. -/
lemma noControl_utf8EncodeChar {c : Char} :
    NoControl (String.utf8EncodeChar c) ↔ 0x20 ≤ c.toNat := by
  rcases utf8EncodeChar_cases c with ⟨hle, heq⟩ | ⟨hlt, hhigh⟩
  · have hval : (UInt8.ofNat c.toNat).toNat = c.toNat := CodePoint.toNat_ofNat rfl (by omega)
    rw [heq, NoControl, List.forall_mem_singleton, hval]
  · refine iff_of_true (fun b hb => ?_) (by omega)
    have := hhigh b hb
    omega

/-! ## Scanning -/

/-- Where a scanner is: outside the strings, in one, or behind a backslash in one. -/
inductive Place where
  | outside
  | inside
  | escaped
  deriving DecidableEq

/-- The scanner reads a byte. -/
def scanByte : Place → UInt8 → Option Place
  | .outside, b => some (if b = 0x22 then .inside else .outside)
  | .inside, b =>
    if b.toNat < 0x20 then none
    else if b = 0x22 then some .outside
    else if b = 0x5C then some .escaped
    else some .inside
  | .escaped, b => if b.toNat < 0x20 then none else some .inside

/-- The scanner reads a text. -/
def scan (p : Place) (s : List UInt8) : Option Place := Run.exec scanByte p s

@[simp] lemma scan_cons (p : Place) (b : UInt8) (s : List UInt8) :
    scan p (b :: s) = (scanByte p b).bind fun q => scan q s := rfl

/-- A text read in two parts. -/
lemma scan_append (p : Place) (s t : List UInt8) :
    scan p (s ++ t) = (scan p s).bind fun q => scan q t :=
  Run.exec_append p s t

/-- The rest of a text behind a part that leads from `p` to `q`. -/
lemma scan_append_of_eq {p q : Place} {s : List UInt8} (h : scan p s = some q) (t : List UInt8) :
    scan p (s ++ t) = scan q t := by
  rw [scan_append, h, Option.bind_some]

/-- A byte other than a quotation mark does not lead into a string. -/
lemma scan_outside_cons {b : UInt8} (h : b ≠ 0x22) (s : List UInt8) :
    scan .outside (b :: s) = scan .outside s := by
  simp [scanByte, h]

/-- Nor does a text without quotation marks. -/
lemma scan_outside_of_forall {s : List UInt8} (h : ∀ b ∈ s, b ≠ 0x22) :
    scan .outside s = some .outside := by
  induction s with
  | nil => rfl
  | cons b s ih =>
    rw [scan_outside_cons (h b (by simp))]
    exact ih fun c hc => h c (by simp [hc])

/-- A byte that is no control character, quotation mark or backslash stays in the string. -/
lemma scanByte_inside {b : UInt8} (h : 0x20 ≤ b.toNat) (hquote : b ≠ 0x22) (hback : b ≠ 0x5C) :
    scanByte .inside b = some .inside := by
  simp [scanByte, hquote, hback, Nat.not_lt.2 h]

/-- So does a text of such bytes. -/
lemma scan_inside_of_forall {s : List UInt8}
    (h : ∀ b ∈ s, 0x20 ≤ b.toNat ∧ b ≠ 0x22 ∧ b ≠ 0x5C) : scan .inside s = some .inside := by
  induction s with
  | nil => rfl
  | cons b s ih =>
    obtain ⟨hb, hquote, hback⟩ := h b (by simp)
    rw [scan_cons, scanByte_inside hb hquote hback, Option.bind_some]
    exact ih fun c hc => h c (by simp [hc])

/-- The bytes of a character that may stand in a string stay in it. -/
lemma scan_utf8EncodeChar {c : Char} (hc : 0x20 ≤ c.toNat) (hquote : c ≠ '"') (hback : c ≠ '\\') :
    scan .inside (String.utf8EncodeChar c) = some .inside := by
  have hbytes := noControl_utf8EncodeChar.2 hc
  refine scan_inside_of_forall fun b hb => ⟨hbytes b hb, ?_, ?_⟩
  · exact ne_of_mem_utf8EncodeChar (d := '"') (by decide) hquote b hb
  · exact ne_of_mem_utf8EncodeChar (d := '\\') (by decide) hback b hb

/-- A byte with a hexadecimal value stays in a string. -/
lemma scanByte_hex {b : UInt8} {v : ℕ} (h : hexValue b = some v) :
    scanByte .inside b = some .inside := by
  have hrange : (0x30 ≤ b.toNat ∧ b.toNat ≤ 0x39) ∨ (0x41 ≤ b.toNat ∧ b.toNat ≤ 0x46) ∨
      (0x61 ≤ b.toNat ∧ b.toNat ≤ 0x66) := by
    unfold hexValue at h
    split_ifs at h with h₁ h₂ h₃
    · exact .inl h₁
    · exact .inr (.inl h₂)
    · exact .inr (.inr h₃)
  refine scanByte_inside (by omega) ?_ ?_
  · rintro rfl
    revert hrange
    decide
  · rintro rfl
    revert hrange
    decide

/-- The byte behind a backslash leads back into the string. -/
lemma scanByte_escaped {b : UInt8} {u : ℕ} (h : escapeValue b = some u) :
    scanByte .escaped b = some .inside := by
  have hge : ¬ b.toNat < 0x20 := by
    intro hlt
    have hne : ∀ c : UInt8, 0x20 ≤ c.toNat → b ≠ c := by
      rintro c hc rfl
      omega
    unfold escapeValue at h
    simp [hne] at h
  simp [scanByte, hge]

/-- The body of a string is read inside it. -/
lemma StringBody.scan {s : List UInt8} {us : List ℕ} (h : StringBody s us) :
    Json.scan .inside s = some .inside := by
  induction h with
  | nil => rfl
  | unescaped hc hquote hback h ih =>
    rw [scan_append_of_eq (scan_utf8EncodeChar hc hquote hback), ih]
  | escaped hb h ih =>
    have hback : scanByte .inside 0x5C = some .escaped := by decide
    rw [scan_cons, hback, Option.bind_some, scan_cons, scanByte_escaped hb, Option.bind_some, ih]
  | hex h₁ h₂ h₃ h₄ h ih =>
    have hback : scanByte .inside 0x5C = some .escaped := by decide
    have hu : scanByte .escaped 0x75 = some .inside := by decide
    rw [scan_cons, hback, Option.bind_some, scan_cons, hu, Option.bind_some]
    simp only [scan_cons, scanByte_hex h₁, scanByte_hex h₂, scanByte_hex h₃, scanByte_hex h₄,
      Option.bind_some, ih]

/-- A string leads from outside to outside. -/
lemma IsString.scan {s : List UInt8} {us : List ℕ} (h : IsString s us) :
    Json.scan .outside s = some .outside := by
  obtain ⟨body, rfl, hbody⟩ := h
  change Json.scan .inside (body ++ [0x22]) = _
  rw [scan_append_of_eq hbody.scan]
  rfl

/-- Space has no quotation mark. -/
lemma IsWs.scan {w : List UInt8} (h : IsWs w) : Json.scan .outside w = some .outside := by
  refine scan_outside_of_forall fun b hb => ?_
  rcases h b hb with rfl | rfl | rfl | rfl <;> decide

/-- Nor has a list of digits. -/
lemma IsDigits.ne_quote {s : List UInt8} (h : ∀ b ∈ s, IsDigit b) : ∀ b ∈ s, b ≠ 0x22 := by
  rintro b hb rfl
  exact absurd (h _ hb).1 (by decide)

/-- Nor has a number. -/
lemma IsNumber.scan {s : List UInt8} (h : IsNumber s) : Json.scan .outside s = some .outside := by
  obtain ⟨minus, int, frac, exp, rfl, hminus, hint, hfrac, hexp⟩ := h
  have hminus' : ∀ b ∈ minus, b ≠ 0x22 := by
    rcases hminus with rfl | rfl <;> simp
  have hint' : ∀ b ∈ int, b ≠ 0x22 := by
    rcases hint with rfl | ⟨hds, -⟩
    · simp
    · exact IsDigits.ne_quote hds.2
  have hfrac' : ∀ b ∈ frac, b ≠ 0x22 := by
    rcases hfrac with rfl | ⟨ds, rfl, hds⟩
    · simp
    · rw [List.forall_mem_cons]
      exact ⟨by decide, IsDigits.ne_quote hds.2⟩
  have hexp' : ∀ b ∈ exp, b ≠ 0x22 := by
    rcases hexp with rfl | ⟨e, sign, ds, rfl, he, hsign, hds⟩
    · simp
    · rw [List.forall_mem_cons, List.forall_mem_append]
      refine ⟨?_, ?_, IsDigits.ne_quote hds.2⟩
      · rcases he with rfl | rfl <;> decide
      · rcases hsign with rfl | rfl | rfl <;> simp
  refine scan_outside_of_forall fun b hb => ?_
  simp only [List.mem_append] at hb
  rcases hb with hb | hb | hb | hb
  · exact hminus' b hb
  · exact hint' b hb
  · exact hfrac' b hb
  · exact hexp' b hb

/-- **The scanner accepts what the grammar derives.**

**Proof sketch.** Induction on the derivation. What stands outside the strings has no quotation
mark, and a string leads from outside to outside. -/
lemma Derives.scan {n : Nonterminal} {s : List UInt8} {v : Json} (h : Derives n s v) :
    Json.scan .outside s = some .outside := by
  induction h with
  | null => decide
  | true => decide
  | false => decide
  | number h => exact h.scan
  | string h => exact h.scan
  | emptyArray hw =>
    rw [scan_outside_cons (by decide), scan_append_of_eq hw.scan]
    decide
  | array h ih =>
    rw [scan_outside_cons (by decide), scan_append_of_eq ih]
    decide
  | emptyObject hw =>
    rw [scan_outside_cons (by decide), scan_append_of_eq hw.scan]
    decide
  | object h ih =>
    rw [scan_outside_cons (by decide), scan_append_of_eq ih]
    decide
  | lastElement hw hw' h ih => rw [scan_append_of_eq hw.scan, scan_append_of_eq ih, hw'.scan]
  | element hw hw' h ht ih iht =>
    rw [scan_append_of_eq hw.scan, scan_append_of_eq ih, scan_append_of_eq hw'.scan,
      scan_outside_cons (by decide), iht]
  | lastMember hw₁ hw₂ hw₃ hw₄ hk h ih =>
    rw [scan_append_of_eq hw₁.scan, scan_append_of_eq hk.scan, scan_append_of_eq hw₂.scan,
      scan_outside_cons (by decide), scan_append_of_eq hw₃.scan, scan_append_of_eq ih, hw₄.scan]
  | member hw₁ hw₂ hw₃ hw₄ hk h ht ih iht =>
    rw [scan_append_of_eq hw₁.scan, scan_append_of_eq hk.scan, scan_append_of_eq hw₂.scan,
      scan_outside_cons (by decide), scan_append_of_eq hw₃.scan, scan_append_of_eq ih,
      scan_append_of_eq hw₄.scan, scan_outside_cons (by decide), iht]

/-- So does it accept a text. -/
lemma IsText.scan {s : List UInt8} {v : Json} (h : IsText s v) :
    Json.scan .outside s = some .outside := by
  obtain ⟨w, t, w', rfl, hw, hw', ht⟩ := h
  rw [scan_append_of_eq hw.scan, scan_append_of_eq ht.scan, hw'.scan]

/-! ## Texts without space -/

@[simp] lemma utf8_cons (c : Char) (cs : List Char) :
    utf8 (c :: cs) = String.utf8EncodeChar c ++ utf8 cs := List.flatMap_cons

@[simp] lemma units_cons (c : Char) (cs : List Char) : units (c :: cs) = utf16 c ++ units cs :=
  List.flatMap_cons

/-- A character that stands in a string as it is. -/
def Plain (c : Char) : Prop := 0x20 ≤ c.toNat ∧ c ≠ '"' ∧ c ≠ '\\'

instance (c : Char) : Decidable (Plain c) := inferInstanceAs (Decidable (_ ∧ _ ∧ _))

/-- A text of such characters. -/
def AllPlain (cs : List Char) : Prop := ∀ c ∈ cs, Plain c

instance (cs : List Char) : Decidable (AllPlain cs) := List.decidableBAll _ cs

/-- It is the body of a string. -/
lemma StringBody.of_plain {cs : List Char} (h : AllPlain cs) :
    StringBody (utf8 cs) (units cs) := by
  induction cs with
  | nil => exact .nil
  | cons c cs ih =>
    obtain ⟨hc, hquote, hback⟩ := h c (by simp)
    rw [utf8_cons, units_cons]
    exact .unescaped hc hquote hback (ih fun d hd => h d (by simp [hd]))

/-- A text of characters that stand in a string as they are has none. -/
lemma noControl_of_plain {cs : List Char} (h : AllPlain cs) : NoControl (utf8 cs) := by
  induction cs with
  | nil => simp [NoControl, utf8]
  | cons c cs ih =>
    rw [utf8_cons, noControl_append, noControl_utf8EncodeChar]
    exact ⟨(h c (by simp)).1, ih fun d hd => h d (by simp [hd])⟩

/-- A string from its body. -/
lemma StringBody.isString {body : List UInt8} {us : List ℕ} (h : StringBody body us) :
    IsString (0x22 :: (body ++ [0x22])) us := ⟨body, rfl, h⟩

/-- There is no space in front of or behind the parts. -/
lemma isWs_nil : IsWs [] := fun _ h => absurd h List.not_mem_nil

/-- The last member of an object, with space behind it. -/
lemma Derives.lastMember_of {k s w : List UInt8} {us : List ℕ} {v : Json} (hk : IsString k us)
    (h : Derives .value s v) (hw : IsWs w) :
    Derives .members (k ++ 0x3A :: (s ++ w)) (.obj [(us, v)]) :=
  .lastMember isWs_nil isWs_nil isWs_nil hw hk h

/-- A member of an object in front of others. -/
lemma Derives.member_of {k s t : List UInt8} {us : List ℕ} {v : Json} {ms : List (List ℕ × Json)}
    (hk : IsString k us) (h : Derives .value s v) (ht : Derives .members t (.obj ms)) :
    Derives .members (k ++ 0x3A :: (s ++ 0x2C :: t)) (.obj ((us, v) :: ms)) :=
  .member isWs_nil isWs_nil isWs_nil isWs_nil hk h ht

/-- A digit stands in a string as it is. -/
lemma plain_of_isDigit {c : Char} (h : c.isDigit = true) : Plain c := by
  have hrange : 0x30 ≤ c.toNat ∧ c.toNat ≤ 0x39 := Char.isDigit_iff_toNat.1 h
  refine ⟨by omega, ?_, ?_⟩
  · rintro rfl
    revert hrange
    decide
  · rintro rfl
    revert hrange
    decide

/-- The bytes of a list of digits. -/
lemma utf8_of_isDigit {cs : List Char} (h : ∀ c ∈ cs, c.isDigit = true) :
    utf8 cs = cs.map fun c => UInt8.ofNat c.toNat := by
  induction cs with
  | nil => rfl
  | cons c cs ih =>
    have hrange : 0x30 ≤ c.toNat ∧ c.toNat ≤ 0x39 := Char.isDigit_iff_toNat.1 (h c (by simp))
    rcases utf8EncodeChar_cases c with ⟨-, heq⟩ | ⟨hlt, -⟩
    · rw [utf8_cons, heq, ih fun d hd => h d (by simp [hd])]
      rfl
    · omega

/-- The digits of a positive number begin with the digit of a positive number below 10. -/
lemma head?_toDigits {n : ℕ} (hn : 0 < n) :
    ∃ d, 0 < d ∧ d < 10 ∧ (Nat.toDigits 10 n).head? = some d.digitChar := by
  induction n using Nat.strong_induction_on with
  | h n ih =>
    rcases Nat.lt_or_ge n 10 with hlt | hge
    · exact ⟨n, hn, hlt, by rw [Nat.toDigits_of_lt_base hlt]; rfl⟩
    · obtain ⟨d, hpos, hd, hhead⟩ := ih (n / 10) (by omega) (by omega)
      refine ⟨d, hpos, hd, ?_⟩
      rw [Nat.toDigits_of_base_le (by decide) hge, List.head?_append, hhead]
      rfl

/-- The digits of a natural number are a number. -/
lemma isNumber_toDigits (n : ℕ) : IsNumber (utf8 (Nat.toDigits 10 n)) := by
  have hdigit : ∀ c ∈ Nat.toDigits 10 n, c.isDigit = true := fun c hc =>
    Nat.isDigit_of_mem_toDigits (by decide) (by decide) hc
  refine ⟨[], utf8 (Nat.toDigits 10 n), [], [], by simp, .inl rfl, ?_, .inl rfl, .inl rfl⟩
  rcases Nat.eq_zero_or_pos n with rfl | hn
  · left
    decide
  · right
    obtain ⟨d, hpos, hd, hhead⟩ := head?_toDigits hn
    rw [utf8_of_isDigit hdigit]
    refine ⟨⟨by simp, fun b hb => ?_⟩, ?_⟩
    · obtain ⟨c, hc, rfl⟩ := List.mem_map.1 hb
      have hrange : 0x30 ≤ c.toNat ∧ c.toNat ≤ 0x39 := Char.isDigit_iff_toNat.1 (hdigit c hc)
      have hval : (UInt8.ofNat c.toNat).toNat = c.toNat := CodePoint.toNat_ofNat rfl (by omega)
      unfold IsDigit
      omega
    · have hne : ∀ d < 10, 0 < d → UInt8.ofNat (Nat.digitChar d).toNat ≠ 0x30 := by decide
      rw [List.head?_map, hhead, Option.map_some, ne_eq, Option.some.injEq]
      exact hne d hd hpos

end Json
