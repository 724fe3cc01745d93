import Mathlib.Data.List.Nodup
import Purity.Base.Json
import Purity.Packet.ByteBuffer

set_option relaxedAutoImplicit false
set_option autoImplicit false

/-!
# Log lines

`Logger` (`common/Logger.hpp`) writes each message as a JSON object on a line of its own. The text
of the message and the entries of the diagnostic context go through `escape`, which puts a backslash
in front of quotation marks and backslashes. It leaves control characters alone, which JSON does not
allow in a string, and messages contain what clients send.

## Main definitions

* `Purity.Logger.escape`, `mdcToJson`, `logJson`, `formatWithMdc` — the payload of a message.
* `Purity.Logger.format` — `JsonFormatter::format`, where what `localtime_r` gives is a parameter.
* `Purity.Logger.WellFormed` — the line is one line and a JSON object that has the texts as they
  were.

## Main results

* `Purity.Logger.wellFormed_iff_noControl` — a line is well formed exactly if there are no control
  characters in the texts.
-/

namespace Purity

/-- `MDC`: the keys and values, in the order in which the `std::unordered_map` gives them. -/
structure MDC where
  data : List (Bytes × Bytes)
  nodup : (data.map Prod.fst).Nodup

namespace Logger

/-- A string literal of the source. -/
def text (s : String) : Bytes := Json.utf8 s.toList

/-! ## The payload -/

/-- What `escape` writes for a character. -/
def escapeChar (c : UInt8) : Bytes :=
  if c = 0x22 then text "\\\"" else if c = 0x5C then text "\\\\" else [c]

/-- `escape` -/
def escape (s : Bytes) : Bytes := s.flatMap escapeChar

/-- The loop of `mdc_to_json`. -/
def mdcLoop : Bool → List (Bytes × Bytes) → Bytes
  | _, [] => []
  | first, (k, v) :: rest =>
    (if first then [] else text ",") ++ (text "\"" ++ (escape k ++ (text "\":\"" ++ (escape v ++
      (text "\"" ++ mdcLoop false rest)))))

/-- `mdc_to_json` -/
def mdcToJson (mdc : MDC) : Bytes := text "\x7b" ++ (mdcLoop true mdc.data ++ text "\x7d")

/-- The payload that `log_json` makes of a message. -/
def logJson (message : Bytes) : Bytes := text "\"message\":\"" ++ (escape message ++ text "\"")

/-- `format_with_mdc` -/
def formatWithMdc (message : Bytes) (mdc : MDC) : Bytes :=
  text "\"message\":\"" ++ (escape message ++ (text "\",\"mdc\":" ++ mdcToJson mdc))

/-- The payload of a message, with or without a diagnostic context. -/
def payload (message : Bytes) : Option MDC → Bytes
  | none => logJson message
  | some mdc => formatWithMdc message mdc

/-! ## The line -/

/-- The levels that messages are logged at. -/
inductive Level where
  | trace
  | debug
  | info
  | warn
  | err
  | critical
  deriving DecidableEq, Repr

/-- `spdlog::level::to_string_view` -/
def Level.toStringView : Level → String
  | trace => "trace"
  | debug => "debug"
  | info => "info"
  | warn => "warning"
  | err => "error"
  | critical => "critical"

/-- The fields of `std::tm` that are written. -/
structure Tm where
  year : ℤ
  mon : ℕ
  mday : ℕ
  hour : ℕ
  min : ℕ
  sec : ℕ

/-- The digits of a number, with zeros in front of them up to a width. -/
def padDigits (width n : ℕ) : List Char :=
  List.replicate (width - (Nat.toDigits 10 n).length) '0' ++ Nat.toDigits 10 n

/-- An `int` in a format with zeros up to a width, such as `{:03}`. The sign counts. -/
def fmtInt (width : ℕ) (n : ℤ) : List Char :=
  if n < 0 then '-' :: padDigits (width - 1) n.natAbs else padDigits width n.natAbs

/-- `strftime` with the format `%Y-%m-%dT%H:%M:%S`. The year of a time in nanoseconds of 64 bits has
four digits, so the text fits the 64 bytes of `time_buf`. -/
def strftime (tm : Tm) : List Char :=
  fmtInt 0 (tm.year + 1900) ++ '-' :: (padDigits 2 (tm.mon + 1) ++ '-' :: (padDigits 2 tm.mday ++
    'T' :: (padDigits 2 tm.hour ++ ':' :: (padDigits 2 tm.min ++ ':' :: padDigits 2 tm.sec))))

/-- What the formatter reads of a `log_msg`; the time is in nanoseconds. -/
structure LogMsg where
  time : ℤ
  level : Level
  threadId : ℕ
  payload : Bytes

/-- The time as it is written: `{}.{:03}{:03}`. The casts of time points round towards zero. -/
def timestamp (localtime : ℤ → Tm) (time : ℤ) : List Char :=
  let s := time.tdiv 1000000000
  let ms := time.tdiv 1000000 - s * 1000
  let ns := time - time.tdiv 1000000 * 1000000
  strftime (localtime s) ++ '.' :: (fmtInt 3 ms ++ fmtInt 3 ns)

/-- `JsonFormatter::format` -/
def format (localtime : ℤ → Tm) (msg : LogMsg) : Bytes :=
  text "\x7b\"timestamp\":\"" ++ (Json.utf8 (timestamp localtime msg.time) ++
    (text "\",\"level\":\"" ++ (text msg.level.toStringView ++
      (text "\",\"thread_id\":" ++ (Json.utf8 (Nat.toDigits 10 msg.threadId) ++
        (text "," ++ (msg.payload ++ text " \x7d\n")))))))

/-! ## Well-formed lines -/

/-- The name of a member. -/
def name (s : String) : List ℕ := Json.units s.toList

/-- A JSON string has the text of a string of the source. -/
def SameText (us : List ℕ) (s : Bytes) : Prop := ∃ cs, Json.utf8 cs = s ∧ us = Json.units cs

/-- An entry of a JSON object is an entry of the diagnostic context. -/
def SameEntry (member : List ℕ × Json) (entry : Bytes × Bytes) : Prop :=
  SameText member.1 entry.1 ∧ ∃ us, member.2 = .str us ∧ SameText us entry.2

/-- **A well-formed log line**: its only newline is the last character, and it is a JSON object with
one member `message`, which is the message; and if there is a diagnostic context, with one
member `mdc`, an object with its entries under different names. -/
structure WellFormed (line message : Bytes) (mdc : Option MDC) : Prop where
  oneLine : ∃ body, line = body ++ [0x0A] ∧ (0x0A : UInt8) ∉ body
  json : ∃ members, Json.IsText line (.obj members) ∧
    (∃ us, members.filter (fun m => m.1 = name "message") = [(name "message", .str us)] ∧
      SameText us message) ∧
    ∀ m, mdc = some m → ∃ entries,
      members.filter (fun m => m.1 = name "mdc") = [(name "mdc", .obj entries)] ∧
      List.Forall₂ SameEntry entries m.data ∧ (entries.map Prod.fst).Nodup

/-- The texts that go into a line: the message, and the keys and values of the context. -/
def texts (message : Bytes) (mdc : Option MDC) : List Bytes :=
  message :: (mdc.elim [] fun m => m.data.flatMap fun entry => [entry.1, entry.2])

/-- The keys and values are among them. -/
lemma mem_texts {message : Bytes} {m : MDC} {entry : Bytes × Bytes} (h : entry ∈ m.data) :
    entry.1 ∈ texts message (some m) ∧ entry.2 ∈ texts message (some m) := by
  simp only [texts, Option.elim_some, List.mem_cons, List.mem_flatMap]
  exact ⟨.inr ⟨entry, h, .inl rfl⟩, .inr ⟨entry, h, .inr (.inl rfl)⟩⟩

/-- A JSON string and the text it has determine each other. -/
lemma biUnique_sameText : Relator.BiUnique SameText := by
  constructor
  · rintro us s vs ⟨cs, rfl, rfl⟩ ⟨ds, hds, rfl⟩
    rw [Json.utf8_inj hds]
  · rintro us s t ⟨cs, rfl, rfl⟩ ⟨ds, rfl, hds⟩
    rw [Json.units_inj hds]

/-- The entries have different names, since the keys are different. -/
lemma nodup_names {entries : List (List ℕ × Json)} {data : List (Bytes × Bytes)}
    (h : List.Forall₂ SameEntry entries data) (hkeys : (data.map Prod.fst).Nodup) :
    (entries.map Prod.fst).Nodup := by
  have hnames : List.Forall₂ SameText (entries.map Prod.fst) (data.map Prod.fst) := by
    rw [List.forall₂_map_left_iff, List.forall₂_map_right_iff]
    exact h.imp fun _ _ hentry => hentry.1
  exact (List.rel_nodup biUnique_sameText hnames).2 hkeys

/-! ## Control characters are found -/

open Json (Place NoControl scan)

/-- A scanner that gets through an escaped text has met no control character. -/
lemma noControl_of_scan_escape {s rest : Bytes} {q : Place}
    (h : scan .inside (escape s ++ rest) = some q) :
    NoControl s ∧ scan .inside rest = some q := by
  induction s with
  | nil => exact ⟨by simp [NoControl], h⟩
  | cons c s ih =>
    have hsplit : escape (c :: s) ++ rest = escapeChar c ++ (escape s ++ rest) := by
      simp [escape]
    have hstep : 0x20 ≤ c.toNat ∧ scan .inside (escape s ++ rest) = some q := by
      rw [hsplit, escapeChar] at h
      split_ifs at h with hquote hback
      · exact ⟨by rw [hquote]; decide, h⟩
      · exact ⟨by rw [hback]; decide, h⟩
      · by_cases hc : c.toNat < 0x20
        · simp [Json.scanByte, hc] at h
        · refine ⟨not_lt.1 hc, ?_⟩
          rwa [List.singleton_append, Json.scan_cons,
            Json.scanByte_inside (not_lt.1 hc) hquote hback, Option.bind_some] at h
    obtain ⟨hc, hrest⟩ := hstep
    obtain ⟨hs, hq⟩ := ih hrest
    exact ⟨List.forall_mem_cons.2 ⟨hc, hs⟩, hq⟩

/-- The same for the entries of a diagnostic context. -/
lemma noControl_of_scan_mdcLoop {first : Bool} {data : List (Bytes × Bytes)} {rest : Bytes}
    {q : Place} (h : scan .outside (mdcLoop first data ++ rest) = some q) :
    (∀ entry ∈ data, NoControl entry.1 ∧ NoControl entry.2) ∧ scan .outside rest = some q := by
  induction data generalizing first with
  | nil => exact ⟨by simp, h⟩
  | cons entry data ih =>
    obtain ⟨k, v⟩ := entry
    have hcomma : scan .outside (if first then [] else text ",") = some .outside := by
      cases first <;> decide
    have hopen : scan .outside (text "\"") = some .inside := by decide
    have hcolon : scan .inside (text "\":\"") = some .inside := by decide
    have hclose : scan .inside (text "\"") = some .outside := by decide
    simp only [mdcLoop, List.append_assoc] at h
    rw [Json.scan_append_of_eq hcomma, Json.scan_append_of_eq hopen] at h
    obtain ⟨hk, h⟩ := noControl_of_scan_escape h
    rw [Json.scan_append_of_eq hcolon] at h
    obtain ⟨hv, h⟩ := noControl_of_scan_escape h
    rw [Json.scan_append_of_eq hclose] at h
    obtain ⟨hdata, hq⟩ := ih h
    exact ⟨List.forall_mem_cons.2 ⟨⟨hk, hv⟩, hdata⟩, hq⟩

/-- The texts of a payload that a scanner gets through have no control characters. -/
lemma noControl_of_scan_payload {message rest : Bytes} {mdc : Option MDC} {q : Place}
    (h : scan .outside (payload message mdc ++ rest) = some q) :
    ∀ s ∈ texts message mdc, NoControl s := by
  have hname : scan .outside (text "\"message\":\"") = some .inside := by decide
  cases mdc with
  | none =>
    simp only [payload, logJson, List.append_assoc] at h
    rw [Json.scan_append_of_eq hname] at h
    simpa [texts] using (noControl_of_scan_escape h).1
  | some m =>
    have hmdc : scan .inside (text "\",\"mdc\":") = some .outside := by decide
    have hbrace : scan .outside (text "\x7b") = some .outside := by decide
    simp only [payload, formatWithMdc, mdcToJson, List.append_assoc] at h
    rw [Json.scan_append_of_eq hname] at h
    obtain ⟨hmessage, h⟩ := noControl_of_scan_escape h
    rw [Json.scan_append_of_eq hmdc, Json.scan_append_of_eq hbrace] at h
    obtain ⟨hdata, -⟩ := noControl_of_scan_mdcLoop h
    intro s hs
    simp only [texts, Option.elim_some, List.mem_cons, List.mem_flatMap, List.not_mem_nil,
      or_false] at hs
    rcases hs with rfl | ⟨entry, hentry, rfl | rfl⟩
    · exact hmessage
    · exact (hdata entry hentry).1
    · exact (hdata entry hentry).2

/-! ## The parts in front of the payload -/

/-- The digits of a number stand in a string as they are. -/
lemma plain_padDigits (width n : ℕ) : Json.AllPlain (padDigits width n) := by
  intro c hc
  rcases List.mem_append.1 hc with hzero | hdigit
  · rw [List.eq_of_mem_replicate hzero]
    decide
  · exact Json.plain_of_isDigit (Nat.isDigit_of_mem_toDigits (by decide) (by decide) hdigit)

/-- So does an integer. -/
lemma plain_fmtInt (width : ℕ) (n : ℤ) : Json.AllPlain (fmtInt width n) := by
  unfold fmtInt
  split_ifs
  · exact List.forall_mem_cons.2 ⟨by decide, plain_padDigits _ _⟩
  · exact plain_padDigits _ _

/-- So does a time. -/
lemma plain_timestamp (localtime : ℤ → Tm) (time : ℤ) :
    Json.AllPlain (timestamp localtime time) := by
  have hmark : Json.Plain '-' ∧ Json.Plain 'T' ∧ Json.Plain ':' ∧ Json.Plain '.' := by decide
  simp only [Json.AllPlain, timestamp, strftime, List.forall_mem_append, List.forall_mem_cons]
  simp only [hmark, true_and]
  exact ⟨⟨plain_fmtInt _ _, plain_padDigits _ _, plain_padDigits _ _, plain_padDigits _ _,
    plain_padDigits _ _, plain_padDigits _ _⟩, plain_fmtInt _ _, plain_fmtInt _ _⟩

/-- So does the name of a level. -/
lemma plain_toStringView (level : Level) : Json.AllPlain level.toStringView.toList := by
  cases level <;> decide

/-- A scanner is outside the strings at the payload. -/
lemma scan_format (localtime : ℤ → Tm) (msg : LogMsg) :
    scan .outside (format localtime msg) = scan .outside (msg.payload ++ text " \x7d\n") := by
  have htime := (Json.StringBody.of_plain (plain_timestamp localtime msg.time)).scan
  have hlevel : scan .inside (text msg.level.toStringView) = some .inside :=
    (Json.StringBody.of_plain (plain_toStringView msg.level)).scan
  have hid := (Json.isNumber_toDigits msg.threadId).scan
  have h₁ : scan .outside (text "\x7b\"timestamp\":\"") = some .inside := by decide
  have h₂ : scan .inside (text "\",\"level\":\"") = some .inside := by decide
  have h₃ : scan .inside (text "\",\"thread_id\":") = some .outside := by decide
  have h₄ : scan .outside (text ",") = some .outside := by decide
  rw [format, Json.scan_append_of_eq h₁, Json.scan_append_of_eq htime, Json.scan_append_of_eq h₂,
    Json.scan_append_of_eq hlevel, Json.scan_append_of_eq h₃, Json.scan_append_of_eq hid,
    Json.scan_append_of_eq h₄]

/-! ## Clean texts come back -/

/-- Escaping goes part by part. -/
lemma escape_append (s t : Bytes) : escape (s ++ t) = escape s ++ escape t := List.flatMap_append

/-- A character other than the two that are escaped is left alone. -/
lemma escape_utf8EncodeChar {c : Char} (hquote : c ≠ '"') (hback : c ≠ '\\') :
    escape (String.utf8EncodeChar c) = String.utf8EncodeChar c := by
  have hne : ∀ b ∈ String.utf8EncodeChar c, escapeChar b = [b] := by
    intro b hb
    rw [escapeChar, if_neg, if_neg]
    · exact Json.ne_of_mem_utf8EncodeChar (d := '\\') (by decide) hback b hb
    · exact Json.ne_of_mem_utf8EncodeChar (d := '"') (by decide) hquote b hb
  rw [escape, List.flatMap_congr hne, List.flatMap_singleton']

/-- **Escaping is undone by JSON**, if there are no control characters.

**Proof sketch.** Induction on the text. A quotation mark or a backslash becomes an escape of one
letter, and other characters stand as they are. -/
lemma stringBody_escape {cs : List Char} (h : NoControl (Json.utf8 cs)) :
    Json.StringBody (escape (Json.utf8 cs)) (Json.units cs) := by
  induction cs with
  | nil => exact .nil
  | cons c cs ih =>
    rw [Json.utf8_cons, Json.noControl_append, Json.noControl_utf8EncodeChar] at h
    obtain ⟨hc, hcs⟩ := h
    rw [Json.utf8_cons, Json.units_cons, escape_append]
    by_cases hquote : c = '"'
    · subst hquote
      exact .escaped (b := 0x22) (by decide) (ih hcs)
    by_cases hback : c = '\\'
    · subst hback
      exact .escaped (b := 0x5C) (by decide) (ih hcs)
    rw [escape_utf8EncodeChar hquote hback]
    exact .unescaped hc hquote hback (ih hcs)

/-- The same for the bytes of a string. -/
lemma exists_isString_escape {s : Bytes} (hutf8 : CodePoint.IsUtf8 s) (h : NoControl s) :
    ∃ us, Json.IsString (0x22 :: (escape s ++ [0x22])) us ∧ SameText us s := by
  obtain ⟨cs, rfl⟩ := hutf8
  exact ⟨Json.units cs, (stringBody_escape h).isString, cs, rfl, rfl⟩

/-- An entry of a diagnostic context is a name and a string. -/
lemma exists_entry {entry : Bytes × Bytes}
    (hutf8 : CodePoint.IsUtf8 entry.1 ∧ CodePoint.IsUtf8 entry.2)
    (h : NoControl entry.1 ∧ NoControl entry.2) :
    ∃ member : List ℕ × Json, Json.IsString (0x22 :: (escape entry.1 ++ [0x22])) member.1 ∧
      Json.Derives .value (0x22 :: (escape entry.2 ++ [0x22])) member.2 ∧
      SameEntry member entry := by
  obtain ⟨us, hname, hsame⟩ := exists_isString_escape hutf8.1 h.1
  obtain ⟨us', hvalue, hsame'⟩ := exists_isString_escape hutf8.2 h.2
  exact ⟨(us, .str us'), hname, .string hvalue, hsame, us', rfl, hsame'⟩

/-- The first entry is a string, a colon and a string. -/
lemma mdcLoop_true_cons (k v : Bytes) (data : List (Bytes × Bytes)) :
    mdcLoop true ((k, v) :: data) = (0x22 :: (escape k ++ [0x22])) ++
      0x3A :: ((0x22 :: (escape v ++ [0x22])) ++ mdcLoop false data) := by
  have hquote : text "\"" = [0x22] := rfl
  have hcolon : text "\":\"" = [0x22, 0x3A, 0x22] := rfl
  simp only [mdcLoop, hquote, hcolon, if_true, List.nil_append, List.cons_append,
    List.append_assoc]

/-- In front of another one there is a comma. -/
lemma mdcLoop_false_cons (entry : Bytes × Bytes) (data : List (Bytes × Bytes)) :
    mdcLoop false (entry :: data) = 0x2C :: mdcLoop true (entry :: data) := rfl

/-- **The entries** of a diagnostic context are the members of an object. -/
lemma exists_members_mdcLoop {entry : Bytes × Bytes} {data : List (Bytes × Bytes)}
    (hutf8 : ∀ e ∈ entry :: data, CodePoint.IsUtf8 e.1 ∧ CodePoint.IsUtf8 e.2)
    (h : ∀ e ∈ entry :: data, NoControl e.1 ∧ NoControl e.2) :
    ∃ members, Json.Derives .members (mdcLoop true (entry :: data)) (.obj members) ∧
      List.Forall₂ SameEntry members (entry :: data) := by
  induction data generalizing entry with
  | nil =>
    obtain ⟨member, hname, hvalue, hsame⟩ :=
      exists_entry (hutf8 entry List.mem_cons_self) (h entry List.mem_cons_self)
    refine ⟨[member], ?_, .cons hsame .nil⟩
    rw [mdcLoop_true_cons]
    exact .lastMember_of hname hvalue Json.isWs_nil
  | cons next data ih =>
    obtain ⟨member, hname, hvalue, hsame⟩ :=
      exists_entry (hutf8 entry List.mem_cons_self) (h entry List.mem_cons_self)
    obtain ⟨members, hmembers, hall⟩ :=
      ih (List.forall_mem_cons.1 hutf8).2 (List.forall_mem_cons.1 h).2
    refine ⟨member :: members, ?_, .cons hsame hall⟩
    rw [mdcLoop_true_cons, mdcLoop_false_cons]
    exact .member_of hname hvalue hmembers

/-- A diagnostic context is an object with its entries. -/
lemma exists_derives_mdcToJson {mdc : MDC}
    (hutf8 : ∀ e ∈ mdc.data, CodePoint.IsUtf8 e.1 ∧ CodePoint.IsUtf8 e.2)
    (h : ∀ e ∈ mdc.data, NoControl e.1 ∧ NoControl e.2) :
    ∃ entries, Json.Derives .value (mdcToJson mdc) (.obj entries) ∧
      List.Forall₂ SameEntry entries mdc.data := by
  unfold mdcToJson
  cases hdata : mdc.data with
  | nil => exact ⟨[], .emptyObject Json.isWs_nil, .nil⟩
  | cons entry data =>
    rw [hdata] at hutf8 h
    obtain ⟨entries, hder, hall⟩ := exists_members_mdcLoop hutf8 h
    exact ⟨entries, .object hder, hall⟩

/-- A name that is written as it is. -/
lemma isString_name {s : String} (h : Json.AllPlain s.toList) :
    Json.IsString (0x22 :: (text s ++ [0x22])) (name s) :=
  (Json.StringBody.of_plain h).isString

/-- The members that a payload adds, with the space of the formatter behind them. -/
lemma exists_members_payload {message : Bytes} {mdc : Option MDC}
    (hutf8 : ∀ s ∈ texts message mdc, CodePoint.IsUtf8 s)
    (h : ∀ s ∈ texts message mdc, NoControl s) :
    ∃ us rest, Json.Derives .members (payload message mdc ++ [0x20])
        (.obj ((name "message", .str us) :: rest)) ∧ SameText us message ∧
      (mdc = none ∧ rest = [] ∨ ∃ m entries, mdc = some m ∧ rest = [(name "mdc", .obj entries)] ∧
        List.Forall₂ SameEntry entries m.data) := by
  have hspace : Json.IsWs [0x20] := by simp [Json.IsWs]
  have hname : Json.IsString (0x22 :: (text "message" ++ [0x22])) (name "message") :=
    isString_name (by decide)
  have htext : text "\"message\":\"" = 0x22 :: (text "message" ++ [0x22, 0x3A, 0x22]) := rfl
  obtain ⟨us, hvalue, hsame⟩ :=
    exists_isString_escape (hutf8 message List.mem_cons_self) (h message List.mem_cons_self)
  cases mdc with
  | none =>
    have hquote : text "\"" = [0x22] := rfl
    refine ⟨us, [], ?_, hsame, .inl ⟨rfl, rfl⟩⟩
    have hder := Json.Derives.lastMember_of hname (.string hvalue) hspace
    simp only [List.cons_append, List.append_assoc, List.nil_append] at hder
    simp only [payload, logJson, htext, hquote, List.cons_append, List.append_assoc,
      List.nil_append]
    exact hder
  | some m =>
    obtain ⟨entries, hobj, hall⟩ := exists_derives_mdcToJson
      (fun e he => ⟨hutf8 _ (mem_texts he).1, hutf8 _ (mem_texts he).2⟩)
      fun e he => ⟨h _ (mem_texts he).1, h _ (mem_texts he).2⟩
    have hmdc : Json.IsString (0x22 :: (text "mdc" ++ [0x22])) (name "mdc") :=
      isString_name (by decide)
    have htext' : text "\",\"mdc\":" = 0x22 :: 0x2C :: 0x22 :: (text "mdc" ++ [0x22, 0x3A]) := rfl
    refine ⟨us, [(name "mdc", .obj entries)], ?_, hsame, .inr ⟨m, entries, rfl, rfl, hall⟩⟩
    have hder := Json.Derives.member_of hname (.string hvalue)
      (Json.Derives.lastMember_of hmdc hobj hspace)
    simp only [List.cons_append, List.append_assoc, List.nil_append] at hder
    simp only [payload, formatWithMdc, htext, htext', List.cons_append, List.append_assoc,
      List.nil_append]
    exact hder

/-- The object of a line: the members of the formatter, then those of the payload. -/
lemma isText_format (localtime : ℤ → Tm) {msg : LogMsg} {members : List (List ℕ × Json)}
    (h : Json.Derives .members (msg.payload ++ [0x20]) (.obj members)) :
    Json.IsText (format localtime msg)
      (.obj ((name "timestamp", .str (Json.units (timestamp localtime msg.time))) ::
        (name "level", .str (name msg.level.toStringView)) ::
        (name "thread_id", .num (Json.utf8 (Nat.toDigits 10 msg.threadId))) :: members)) := by
  have htime := (Json.StringBody.of_plain (plain_timestamp localtime msg.time)).isString
  have hlevel := isString_name (plain_toStringView msg.level)
  have hder := Json.Derives.object
    (Json.Derives.member_of (isString_name (s := "timestamp") (by decide)) (.string htime)
      (Json.Derives.member_of (isString_name (s := "level") (by decide)) (.string hlevel)
        (Json.Derives.member_of (isString_name (s := "thread_id") (by decide))
          (.number (Json.isNumber_toDigits msg.threadId)) h)))
  have hnewline : Json.IsWs [0x0A] := by simp [Json.IsWs]
  refine ⟨[], _, [0x0A], ?_, Json.isWs_nil, hnewline, hder⟩
  have h₁ : text "\x7b\"timestamp\":\"" =
    0x7B :: 0x22 :: (text "timestamp" ++ [0x22, 0x3A, 0x22]) := rfl
  have h₂ : text "\",\"level\":\"" =
    0x22 :: 0x2C :: 0x22 :: (text "level" ++ [0x22, 0x3A, 0x22]) := rfl
  have h₃ : text "\",\"thread_id\":" =
    0x22 :: 0x2C :: 0x22 :: (text "thread_id" ++ [0x22, 0x3A]) := rfl
  have h₄ : text "," = [0x2C] := rfl
  have h₅ : text " \x7d\n" = [0x20, 0x7D, 0x0A] := rfl
  simp only [format, h₁, h₂, h₃, h₄, h₅, List.cons_append, List.append_assoc, List.nil_append]

/-! ## One line -/

/-- Escaping brings in no control characters. -/
lemma noControl_escape {s : Bytes} (h : NoControl s) : NoControl (escape s) := by
  intro b hb
  obtain ⟨c, hc, hb⟩ := List.mem_flatMap.1 hb
  have hmark : NoControl (text "\\\"") ∧ NoControl (text "\\\\") := by decide
  unfold escapeChar at hb
  split_ifs at hb
  · exact hmark.1 b hb
  · exact hmark.2 b hb
  · rw [List.mem_singleton.1 hb]
    exact h c hc

/-- Nor does the loop over the entries. -/
lemma noControl_mdcLoop {first : Bool} {data : List (Bytes × Bytes)}
    (h : ∀ e ∈ data, NoControl e.1 ∧ NoControl e.2) : NoControl (mdcLoop first data) := by
  induction data generalizing first with
  | nil => simp [mdcLoop, NoControl]
  | cons entry data ih =>
    obtain ⟨hentry, hdata⟩ := List.forall_mem_cons.1 h
    have hcomma : NoControl (if first then [] else text ",") := by cases first <;> decide
    have hmark : NoControl (text "\"") ∧ NoControl (text "\":\"") := by decide
    simp only [mdcLoop, Json.noControl_append]
    exact ⟨hcomma, hmark.1, noControl_escape hentry.1, hmark.2, noControl_escape hentry.2, hmark.1,
      ih hdata⟩

/-- Nor does the rest of the payload. -/
lemma noControl_payload {message : Bytes} {mdc : Option MDC}
    (h : ∀ s ∈ texts message mdc, NoControl s) : NoControl (payload message mdc) := by
  have hmessage := noControl_escape (h message List.mem_cons_self)
  have hname : NoControl (text "\"message\":\"") := by decide
  cases mdc with
  | none =>
    have hquote : NoControl (text "\"") := by decide
    simp only [payload, logJson, Json.noControl_append]
    exact ⟨hname, hmessage, hquote⟩
  | some m =>
    have hmark : NoControl (text "\",\"mdc\":") ∧ NoControl (text "\x7b") ∧
        NoControl (text "\x7d") := by decide
    simp only [payload, formatWithMdc, mdcToJson, Json.noControl_append]
    refine ⟨hname, hmessage, hmark.1, hmark.2.1, noControl_mdcLoop fun e he => ?_, hmark.2.2⟩
    exact ⟨h _ (mem_texts he).1, h _ (mem_texts he).2⟩

/-- The line has no control character but the newline at its end. -/
lemma exists_body_format (localtime : ℤ → Tm) (msg : LogMsg) (h : NoControl msg.payload) :
    ∃ body, format localtime msg = body ++ [0x0A] ∧ NoControl body := by
  have htime := Json.noControl_of_plain (plain_timestamp localtime msg.time)
  have hlevel : NoControl (text msg.level.toStringView) :=
    Json.noControl_of_plain (plain_toStringView msg.level)
  have hid : NoControl (Json.utf8 (Nat.toDigits 10 msg.threadId)) :=
    Json.noControl_of_plain fun c hc =>
      Json.plain_of_isDigit (Nat.isDigit_of_mem_toDigits (by decide) (by decide) hc)
  have hmark : NoControl (text "\x7b\"timestamp\":\"") ∧ NoControl (text "\",\"level\":\"") ∧
      NoControl (text "\",\"thread_id\":") ∧ NoControl (text ",") ∧ NoControl (text " \x7d") := by
    decide
  have hend : text " \x7d\n" = text " \x7d" ++ [0x0A] := rfl
  refine ⟨text "\x7b\"timestamp\":\"" ++ (Json.utf8 (timestamp localtime msg.time) ++
    (text "\",\"level\":\"" ++ (text msg.level.toStringView ++
      (text "\",\"thread_id\":" ++ (Json.utf8 (Nat.toDigits 10 msg.threadId) ++
        (text "," ++ (msg.payload ++ text " \x7d"))))))), ?_, ?_⟩
  · simp only [format, hend, List.append_assoc]
  · simp only [Json.noControl_append]
    exact ⟨hmark.1, htime, hmark.2.1, hlevel, hmark.2.2.1, hid, hmark.2.2.2.1, h, hmark.2.2.2.2⟩

/-! ## The law -/

/-- **Log lines are well formed** exactly if the message and the entries of the diagnostic context,
texts in UTF-8, have no control characters.

**Proof sketch.** A scanner that follows the strings of a JSON text gets through every text that the
grammar derives. In a line it is inside a string at each of the texts, and fails on a control
character there. Without control characters the line is derived part by part, and each escape is
undone. -/
theorem wellFormed_iff_noControl (localtime : ℤ → Tm) (time : ℤ) (level : Level) (threadId : ℕ)
    (message : Bytes) (mdc : Option MDC)
    (hutf8 : ∀ s ∈ texts message mdc, CodePoint.IsUtf8 s) :
    WellFormed (format localtime ⟨time, level, threadId, payload message mdc⟩) message mdc ↔
      ∀ s ∈ texts message mdc, NoControl s := by
  constructor
  · rintro ⟨-, members, htext, -⟩
    have hscan := htext.scan
    rw [scan_format] at hscan
    exact noControl_of_scan_payload hscan
  · intro h
    obtain ⟨body, hline, hbody⟩ := exists_body_format localtime
      ⟨time, level, threadId, payload message mdc⟩ (noControl_payload h)
    obtain ⟨us, rest, hder, hsame, hmdc⟩ := exists_members_payload hutf8 h
    refine ⟨⟨body, hline, fun hnewline => ?_⟩, _, isText_format localtime hder, ?_, ?_⟩
    · exact absurd (hbody _ hnewline) (by decide)
    · refine ⟨us, ?_, hsame⟩
      rcases hmdc with ⟨-, rfl⟩ | ⟨m, entries, -, rfl, -⟩ <;> rfl
    · intro m hm
      rcases hmdc with ⟨rfl, -⟩ | ⟨m', entries, rfl, rfl, hall⟩
      · cases hm
      · obtain rfl : m' = m := Option.some.inj hm
        exact ⟨entries, rfl, hall, nodup_names hall m'.nodup⟩

/-- Midnight of the first of January 1970. -/
def epoch : Tm := ⟨70, 0, 1, 0, 0, 0⟩

/-- The law for a message with a quotation mark and a backslash. -/
theorem wellFormed_quoted :
    WellFormed (format (fun _ => epoch) ⟨0, .info, 1, payload (text "a \"b\" \\ c") none⟩)
      (text "a \"b\" \\ c") none := by
  refine (wellFormed_iff_noControl (fun _ => epoch) 0 .info 1 (text "a \"b\" \\ c") none ?_).2 ?_
  · intro s hs
    rw [texts, Option.elim_none, List.mem_singleton] at hs
    exact ⟨_, hs.symm⟩
  · decide

/-- The line of `handle_message` for a text of two lines from a client. -/
theorem message_newline : CodePoint.IsUtf8 (text "[HandlersWork] CMSG_MESSAGE: a\nb") ∧
    ¬ WellFormed (format (fun _ => epoch)
        ⟨0, .info, 1, payload (text "[HandlersWork] CMSG_MESSAGE: a\nb") none⟩)
      (text "[HandlersWork] CMSG_MESSAGE: a\nb") none := by
  refine ⟨⟨_, rfl⟩, ?_⟩
  rintro ⟨-, members, htext, -⟩
  have hscan := htext.scan
  rw [scan_format] at hscan
  exact absurd hscan (by decide)

end Logger

end Purity
