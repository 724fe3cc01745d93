import Mathlib.Data.List.Infix
import Mathlib.Logic.Function.Basic
import Purity.Log.ThreadPool
import Purity.Packet.ByteBuffer

set_option relaxedAutoImplicit false
set_option autoImplicit false

/-!
# The log files

With `LOG_FILE` set the logger has a `rotating_file_sink`, of at most 5 MiB a file and three files
beside `logs/server.log`. A record that would make the file too long goes into a new file: `rotate_`
renames the files, from the oldest on, each to the next number, and empties the one to write to. A
file that cannot be renamed makes `rotate_` empty the file and throw; the record is lost then.

## Main definitions

* `Purity.RotatingFile`, `Purity.RotatingFile.sinkIt` — the sink with what was written to its files,
  and a record logged.
* `Purity.RotatingFile.rotateLoop` — the renames of `rotate_`, for files of any content.
* `Purity.RotatingFile.records` — the records in the files, the oldest first.
* `Purity.BufferedFile`, `Purity.BufferedFile.sinkIt` — the sink with what is on disk, and what the
  stream of the file 0 still holds.
* `Purity.BufferedFile.handleAll` — the sink under the messages that a worker has handled.

## Main results

* `Purity.RotatingFile.sink_keeps_latest` — the files hold whole records, in order, and are not
  longer than allowed; while all renames succeed, they hold the latest.
* `Purity.BufferedFile.written_handleAll` — the sink with its stream refines the sink.
* `Purity.BufferedFile.closed_files_hold` — what is on disk of the records of a logger that was shut
  down, before the sink is destroyed and after.

## Implementation notes

The file number `i` is `calc_filename(base_filename_, i)`. Opening, writing and removing a file do
not fail, nobody else writes to the files, and the sink does not rotate when it is opened.

`file_helper::write` is an `fwrite`. In a `RotatingFile` the bytes count as in the file once they
are written to the stream; the stream may hold them back until it is flushed or closed, which is in
`BufferedFile`. Nothing flushes it when the worker ends: the static `Logger` keeps the sink, which
closes its stream when the program destroys it.
-/

namespace Purity

/-- Files by their number; some exist. -/
abbrev Files (γ : Type) : Type := ℕ → Option γ

/-- A `rotating_file_sink` and its files, with what was written to them. -/
structure RotatingFile where
  maxSize : ℕ
  maxFiles : ℕ
  currentSize : ℕ
  files : Files Bytes

namespace RotatingFile

section Rotate

variable {γ : Type}

/-- `rename_file_`: the target is removed, and the source renamed to it. -/
def renameFile (fs : Files γ) (src target : ℕ) : Files γ :=
  Function.update (Function.update fs target (fs src)) src none

/-- The loop of `rotate_`, from the target `i` down. If `fails` is a target, renaming to it fails
twice; the target has been removed then. The result says whether all went well. -/
def rotateLoop (fails : Option ℕ) : ℕ → Files γ → Files γ × Bool
  | 0, fs => (fs, true)
  | i + 1, fs =>
    if (fs i).isNone then rotateLoop fails i fs
    else if fails = some (i + 1) then (Function.update fs (i + 1) none, false)
    else rotateLoop fails i (renameFile fs i (i + 1))

/-- `rotate_`: whatever comes of the renames, the file 0 is emptied in the end. -/
def rotate (fails : Option ℕ) (maxFiles : ℕ) (empty : γ) (fs : Files γ) : Files γ × Bool :=
  let r := rotateLoop fails maxFiles fs
  (Function.update r.1 0 (some empty), r.2)

end Rotate

/-- The most files a sink may have. -/
def maxFilesLimit : ℕ := 200000

/-- The constructor, without `rotate_on_open`: the file 0 is opened at its end. -/
def new (maxSize maxFiles : ℕ) (old : Files Bytes) : Option RotatingFile :=
  if maxSize = 0 ∨ maxFilesLimit < maxFiles then none
  else some
    { maxSize := maxSize
      maxFiles := maxFiles
      currentSize := ((old 0).getD []).length
      files := Function.update old 0 (some ((old 0).getD [])) }

/-- `file_helper_.size()`, when the stream has been flushed. -/
def fileSize (s : RotatingFile) : ℕ := ((s.files 0).getD []).length

/-- `file_helper_.write`, to the stream. -/
def write (s : RotatingFile) (formatted : Bytes) : RotatingFile :=
  { s with files := Function.update s.files 0 (some ((s.files 0).getD [] ++ formatted)) }

/-- `sink_it_`; `fails` is a target to which a rename would fail. -/
def sinkIt (s : RotatingFile) (formatted : Bytes) (fails : Option ℕ) : RotatingFile :=
  let newSize := s.currentSize + formatted.length
  if s.maxSize < newSize ∧ 0 < s.fileSize then
    match rotate fails s.maxFiles [] s.files with
    | (files, true) => { write { s with files := files } formatted with
        currentSize := formatted.length }
    | (files, false) => { s with files := files, currentSize := 0 }
  else { s.write formatted with currentSize := newSize }

/-- Records logged one after the other. -/
def log (s : RotatingFile) (es : List (Bytes × Option ℕ)) : RotatingFile :=
  es.foldl (fun s e => s.sinkIt e.1 e.2) s

/-! ## The renames -/

section Records

variable {β γ δ : Type}

/-- The records in the files below `n`, the oldest first. -/
def records : ℕ → Files (List β) → List β
  | 0, _ => []
  | n + 1, fs => (fs n).getD [] ++ records n fs

lemma records_succ (n : ℕ) (fs : Files (List β)) :
    records (n + 1) fs = (fs n).getD [] ++ records n fs := rfl

/-- They are in these files only. -/
lemma records_congr {n : ℕ} {fs gs : Files (List β)} (h : ∀ i, i < n → fs i = gs i) :
    records n fs = records n gs := by
  induction n with
  | zero => rfl
  | succ n ih =>
    rw [records_succ, records_succ, h n n.lt_succ_self,
      ih fun i hi => h i (Nat.lt_succ_of_lt hi)]

/-- What happens to the file `n` does not matter below. -/
@[simp] lemma records_update {n : ℕ} (fs : Files (List β)) (c : Option (List β)) :
    records n (Function.update fs n c) = records n fs :=
  records_congr fun _ hi => Function.update_of_ne (Nat.ne_of_lt hi) c fs

/-- The oldest file removed. -/
lemma records_remove {i : ℕ} (fs : Files (List β)) :
    records (i + 2) (Function.update fs (i + 1) none) = records (i + 1) fs := by
  rw [records_succ (i + 1), records_update, Function.update_self]
  rfl

/-- A file renamed to the next number, with what is in the files below. -/
lemma records_renameFile {i : ℕ} (fs : Files (List β)) :
    records (i + 2) (renameFile fs i (i + 1)) = records (i + 1) fs := by
  have hbelow : records i (Function.update fs (i + 1) (fs i)) = records i fs :=
    records_congr fun j hj => Function.update_of_ne (by omega) _ _
  simp [records, renameFile, hbelow]

/-- The records in the file 0 are the last. -/
lemma exists_records_update (n : ℕ) (fs : Files (List β)) :
    ∃ xs, ∀ c, records (n + 1) (Function.update fs 0 c) = xs ++ c.getD [] := by
  induction n with
  | zero => exact ⟨[], fun c => by simp [records]⟩
  | succ n ih =>
    obtain ⟨xs, hxs⟩ := ih
    refine ⟨(fs (n + 1)).getD [] ++ xs, fun c => ?_⟩
    rw [records_succ, hxs, Function.update_of_ne n.succ_ne_zero, List.append_assoc]

variable (fails : Option ℕ)

/-- **One turn of the loop**: there is no file to rename, or the rename fails, or it is done. -/
lemma rotateLoop_cases (i : ℕ) (fs : Files γ) :
    (fs i = none ∧ rotateLoop fails (i + 1) fs = rotateLoop fails i fs) ∨
      (fails = some (i + 1) ∧
        rotateLoop fails (i + 1) fs = (Function.update fs (i + 1) none, false)) ∨
      rotateLoop fails (i + 1) fs = rotateLoop fails i (renameFile fs i (i + 1)) := by
  rw [rotateLoop]
  split_ifs with hsrc hfails
  · exact .inl ⟨Option.isNone_iff_eq_none.1 hsrc, rfl⟩
  · exact .inr (.inl ⟨hfails, rfl⟩)
  · exact .inr (.inr rfl)

/-- The file renamed is gone. -/
lemma renameFile_src (fs : Files γ) (i : ℕ) : renameFile fs i (i + 1) i = none :=
  Function.update_self _ _ _

/-- The loop does not touch the files above. -/
lemma rotateLoop_above {i j : ℕ} (fs : Files γ) (hj : i < j) :
    (rotateLoop fails i fs).1 j = fs j := by
  induction i generalizing fs with
  | zero => rfl
  | succ i ih =>
    rcases rotateLoop_cases fails i fs with ⟨-, heq⟩ | ⟨-, heq⟩ | heq
    · rw [heq, ih fs (by omega)]
    · rw [heq]
      exact Function.update_of_ne (Nat.ne_of_gt hj) _ _
    · rw [heq, ih _ (by omega), renameFile, Function.update_of_ne (by omega),
        Function.update_of_ne (by omega)]

/-- The loop leaves no file 0 behind. -/
lemma rotateLoop_zero {i : ℕ} (fs : Files γ) (hi : 0 < i) :
    (rotateLoop none i fs).1 0 = none := by
  induction i generalizing fs with
  | zero => exact absurd hi (Nat.lt_irrefl 0)
  | succ i ih =>
    rcases rotateLoop_cases none i fs with ⟨hsrc, heq⟩ | ⟨hfails, -⟩ | heq
    · rw [heq]
      rcases Nat.eq_zero_or_pos i with rfl | hpos
      · exact hsrc
      · exact ih fs hpos
    · cases hfails
    · rw [heq]
      rcases Nat.eq_zero_or_pos i with rfl | hpos
      · exact renameFile_src fs 0
      · exact ih _ hpos

/-- What holds of every file holds of every file after the loop. -/
lemma rotateLoop_forall {P : γ → Prop} {i : ℕ} {fs : Files γ}
    (h : ∀ j c, fs j = some c → P c) : ∀ j c, (rotateLoop fails i fs).1 j = some c → P c := by
  induction i generalizing fs with
  | zero => exact h
  | succ i ih =>
    rcases rotateLoop_cases fails i fs with ⟨-, heq⟩ | ⟨-, heq⟩ | heq
    · rw [heq]
      exact ih h
    · rw [heq]
      intro j c (hc : Function.update fs (i + 1) none j = some c)
      rcases eq_or_ne j (i + 1) with rfl | hj
      · simp at hc
      · rw [Function.update_of_ne hj] at hc
        exact h j c hc
    · rw [heq]
      refine ih fun j c hc => ?_
      rcases eq_or_ne j i with rfl | hj
      · simp [renameFile_src] at hc
      rw [renameFile, Function.update_of_ne hj] at hc
      rcases eq_or_ne j (i + 1) with rfl | hj'
      · rw [Function.update_self] at hc
        exact h i c hc
      · rw [Function.update_of_ne hj'] at hc
        exact h j c hc

/-- A file changed, or looked into first. -/
lemma map_update (g : γ → δ) (fs : Files γ) (j : ℕ) (c : Option γ) :
    Function.update (fun j => (fs j).map g) j (c.map g) =
      fun k => (Function.update fs j c k).map g := by
  funext k
  rcases eq_or_ne k j with rfl | hk
  · simp
  · simp [Function.update_of_ne hk]

/-- The renames do not look into the files. -/
lemma rotateLoop_map {i : ℕ} (g : γ → δ) (fs : Files γ) :
    rotateLoop fails i (fun j => (fs j).map g) =
      (fun j => ((rotateLoop fails i fs).1 j).map g, (rotateLoop fails i fs).2) := by
  induction i generalizing fs with
  | zero => rfl
  | succ i ih =>
    rw [rotateLoop, rotateLoop]
    simp only [Option.isNone_map]
    split_ifs
    · exact ih fs
    · exact Prod.ext (map_update g fs (i + 1) none) rfl
    · have hrename : renameFile (fun j => (fs j).map g) i (i + 1) =
          fun j => (renameFile fs i (i + 1) j).map g := by
        simp only [renameFile]
        rw [map_update g fs (i + 1) (fs i)]
        exact map_update g _ i none
      rw [hrename]
      exact ih _

/-- **The loop keeps the order**: it may lose records, but does not exchange any.

**Proof sketch.** Induction on the target. A file that is removed loses its records; a file that is
renamed goes where a file was that is lost. -/
lemma records_rotateLoop_sublist {i : ℕ} (fs : Files (List β)) :
    (records (i + 1) (rotateLoop fails i fs).1).Sublist (records (i + 1) fs) := by
  induction i generalizing fs with
  | zero => exact .refl _
  | succ i ih =>
    rcases rotateLoop_cases fails i fs with ⟨-, heq⟩ | ⟨-, heq⟩ | heq
    · rw [heq, records_succ, records_succ, rotateLoop_above fails fs i.lt_succ_self]
      exact (ih fs).append_left _
    · rw [heq, records_remove]
      exact List.sublist_append_right _ _
    · rw [heq, records_succ, rotateLoop_above fails _ i.lt_succ_self]
      refine ((ih _).append_left _).trans ?_
      rw [← records_succ, records_renameFile]
      exact List.sublist_append_right _ _

/-- While all renames succeed, a loop that has a free target loses nothing. -/
lemma records_rotateLoop_free {i : ℕ} (fs : Files (List β)) (hfree : fs i = none) :
    records (i + 1) (rotateLoop none i fs).1 = records (i + 1) fs := by
  induction i generalizing fs with
  | zero => rfl
  | succ i ih =>
    rcases rotateLoop_cases none i fs with ⟨hsrc, heq⟩ | ⟨hfails, -⟩ | heq
    · rw [heq, records_succ (i + 1), records_succ (i + 1), rotateLoop_above none fs i.lt_succ_self,
        ih fs hsrc]
    · cases hfails
    · rw [heq, records_succ, rotateLoop_above none _ i.lt_succ_self, ih _ (renameFile_src fs i),
        ← records_succ, records_renameFile, records_succ (i + 1), hfree]
      rfl

/-- **While all renames succeed**, the loop loses the oldest file at most. -/
lemma records_rotateLoop_suffix {i : ℕ} (fs : Files (List β)) :
    records (i + 1) (rotateLoop none i fs).1 <:+ records (i + 1) fs := by
  cases i with
  | zero => exact List.suffix_refl _
  | succ i =>
    rcases rotateLoop_cases none i fs with ⟨hsrc, heq⟩ | ⟨hfails, -⟩ | heq
    · rw [heq, records_succ (i + 1), records_succ (i + 1), rotateLoop_above none fs i.lt_succ_self,
        records_rotateLoop_free fs hsrc]
    · cases hfails
    · rw [heq, records_succ, rotateLoop_above none _ i.lt_succ_self,
        records_rotateLoop_free _ (renameFile_src fs i), ← records_succ, records_renameFile]
      exact List.suffix_append _ _

end Records

/-! ## The sink -/

/-- A file is within its limit, or it has one record only (and perhaps empty ones). -/
def Fits (maxSize : ℕ) (c : List Bytes) : Prop := c.flatten.length ≤ maxSize ∨ c.flatten ∈ c

/-- The sink's files consist of these records. -/
structure Holds (s : RotatingFile) (chunks : Files (List Bytes)) : Prop where
  files : s.files = fun i => (chunks i).map List.flatten
  fits : ∀ i c, chunks i = some c → Fits s.maxSize c
  currentSize : s.currentSize = s.fileSize

variable {s : RotatingFile} {chunks : Files (List Bytes)}

/-- The file to write to. -/
lemma Holds.file_zero (h : Holds s chunks) :
    (s.files 0).getD [] = ((chunks 0).getD []).flatten := by
  simp only [h.files]
  cases chunks 0 <;> rfl

/-- A record written behind the others. -/
lemma Holds.write (h : Holds s chunks) (r : Bytes)
    (hfits : Fits s.maxSize ((chunks 0).getD [] ++ [r])) :
    Holds { s.write r with currentSize := s.currentSize + r.length }
      (Function.update chunks 0 (some ((chunks 0).getD [] ++ [r]))) := by
  refine ⟨?_, fun i c hc => ?_, ?_⟩
  · rw [← map_update]
    simp [RotatingFile.write, h.file_zero, ← h.files]
  · rcases eq_or_ne i 0 with rfl | hi
    · rw [Function.update_self] at hc
      obtain rfl := Option.some.inj hc
      exact hfits
    · rw [Function.update_of_ne hi] at hc
      exact h.fits i c hc
  · simp [RotatingFile.fileSize, RotatingFile.write, h.currentSize]

/-- The files renamed, and the file 0 emptied. -/
lemma Holds.rotate (h : Holds s chunks) (fails : Option ℕ) :
    (RotatingFile.rotate fails s.maxFiles [] s.files).2 =
        (rotateLoop fails s.maxFiles chunks).2 ∧
      Holds { s with
        files := (RotatingFile.rotate fails s.maxFiles [] s.files).1
        currentSize := 0 }
        (Function.update (rotateLoop fails s.maxFiles chunks).1 0 (some [])) := by
  have hmap := rotateLoop_map fails (i := s.maxFiles) List.flatten chunks
  rw [← h.files] at hmap
  simp only [RotatingFile.rotate, hmap]
  refine ⟨trivial, ?_, fun i c hc => ?_, ?_⟩
  · exact map_update List.flatten _ 0 (some [])
  · rcases eq_or_ne i 0 with rfl | hi
    · rw [Function.update_self] at hc
      obtain rfl := Option.some.inj hc
      exact .inl (Nat.zero_le _)
    · rw [Function.update_of_ne hi] at hc
      exact rotateLoop_forall fails h.fits i c hc
  · simp [RotatingFile.fileSize]

/-- What the files have to do with what was logged. -/
structure Keeps (maxFiles : ℕ) (chunks : Files (List Bytes)) (logged : List Bytes)
    (failed : Bool) : Prop where
  sublist : (records (maxFiles + 1) chunks).Sublist logged
  suffix : failed = false → records (maxFiles + 1) chunks <:+ logged

/-- A record written behind the others is the latest. -/
lemma Keeps.write {maxFiles : ℕ} {logged : List Bytes} {failed : Bool}
    (h : Keeps maxFiles chunks logged failed) (r : Bytes) :
    Keeps maxFiles (Function.update chunks 0 (some ((chunks 0).getD [] ++ [r]))) (logged ++ [r])
      failed := by
  obtain ⟨xs, hxs⟩ := exists_records_update maxFiles chunks
  have hold : records (maxFiles + 1) chunks = xs ++ (chunks 0).getD [] := by
    rw [← hxs, Function.update_eq_self]
  have hnew : records (maxFiles + 1)
      (Function.update chunks 0 (some ((chunks 0).getD [] ++ [r]))) =
      records (maxFiles + 1) chunks ++ [r] := by
    rw [hxs, hold, List.append_assoc]
    rfl
  constructor
  · rw [hnew]
    exact h.sublist.append_right [r]
  · intro hfailed
    obtain ⟨ys, hys⟩ := h.suffix hfailed
    exact ⟨ys, by rw [hnew, ← List.append_assoc, hys]⟩

/-- Without a failure the loop ends well. -/
lemma rotateLoop_none_snd {γ : Type} (i : ℕ) (fs : Files γ) : (rotateLoop none i fs).2 = true := by
  induction i generalizing fs with
  | zero => rfl
  | succ i ih =>
    rcases rotateLoop_cases none i fs with ⟨-, heq⟩ | ⟨hfails, -⟩ | heq
    · rw [heq, ih]
    · cases hfails
    · rw [heq, ih]

/-- `rotate_` loses the oldest file at most, unless a rename fails or there is one file only. -/
lemma Keeps.rotate {maxFiles : ℕ} {logged : List Bytes} {failed : Bool}
    (h : Keeps maxFiles chunks logged failed) (fails : Option ℕ) :
    Keeps maxFiles (Function.update (rotateLoop fails maxFiles chunks).1 0 (some [])) logged
      (failed || fails.isSome) := by
  obtain ⟨xs, hxs⟩ := exists_records_update maxFiles (rotateLoop fails maxFiles chunks).1
  have hloop : records (maxFiles + 1) (rotateLoop fails maxFiles chunks).1 =
      xs ++ ((rotateLoop fails maxFiles chunks).1 0).getD [] := by
    rw [← hxs, Function.update_eq_self]
  have hnew : records (maxFiles + 1)
      (Function.update (rotateLoop fails maxFiles chunks).1 0 (some [])) = xs := by
    rw [hxs]
    exact List.append_nil xs
  constructor
  · have hsub := (records_rotateLoop_sublist fails chunks).trans h.sublist
    rw [hloop] at hsub
    rw [hnew]
    exact (List.sublist_append_left _ _).trans hsub
  · intro hgood
    obtain ⟨hfailed, hnone⟩ := Bool.or_eq_false_iff.1 hgood
    obtain rfl : fails = none := by simpa using hnone
    rw [hnew]
    rcases Nat.eq_zero_or_pos maxFiles with rfl | hpos
    · have hnil : xs = [] := by simpa [records] using (hxs none).symm
      rw [hnil]
      exact List.nil_suffix
    · rw [rotateLoop_zero chunks hpos] at hloop
      have hsuffix := records_rotateLoop_suffix (i := maxFiles) chunks
      rw [hloop] at hsuffix
      simpa using hsuffix.trans (h.suffix hfailed)

/-- **One record** logged. -/
lemma Holds.sinkIt {logged : List Bytes} {failed : Bool} (h : Holds s chunks)
    (hkeeps : Keeps s.maxFiles chunks logged failed) (r : Bytes) (fails : Option ℕ) :
    (s.sinkIt r fails).maxSize = s.maxSize ∧ (s.sinkIt r fails).maxFiles = s.maxFiles ∧
      ∃ chunks', Holds (s.sinkIt r fails) chunks' ∧
        Keeps s.maxFiles chunks' (logged ++ [r]) (failed || fails.isSome) ∧
        (fails = none → ∃ c, chunks' 0 = some (c ++ [r])) := by
  unfold RotatingFile.sinkIt
  dsimp only
  split_ifs with hfull
  · obtain ⟨hok, hrotate⟩ := h.rotate fails
    have hkeeps' := hkeeps.rotate fails
    cases hr : RotatingFile.rotate fails s.maxFiles [] s.files with
    | mk files ok =>
      rw [hr] at hok hrotate
      cases ok with
      | true =>
        refine ⟨rfl, rfl, _, ?_, hkeeps'.write r, fun _ => ⟨_, Function.update_self _ _ _⟩⟩
        have hwrite := hrotate.write r (.inr (by simp))
        simp only [Nat.zero_add] at hwrite
        exact hwrite
      | false =>
        refine ⟨rfl, rfl, _, hrotate, ⟨?_, fun hgood => ?_⟩, ?_⟩
        · exact hkeeps'.sublist.trans (List.sublist_append_left _ _)
        · obtain ⟨-, hnone⟩ := Bool.or_eq_false_iff.1 hgood
          obtain rfl : fails = none := by simpa using hnone
          simp [rotateLoop_none_snd] at hok
        · rintro rfl
          simp [rotateLoop_none_snd] at hok
  · have hfits : Fits s.maxSize ((chunks 0).getD [] ++ [r]) := by
      have hsize : s.fileSize = ((chunks 0).getD []).flatten.length := by
        rw [RotatingFile.fileSize, h.file_zero]
      rw [h.currentSize, hsize] at hfull
      rcases Nat.eq_zero_or_pos ((chunks 0).getD []).flatten.length with hzero | hpos
      · refine .inr ?_
        rw [List.length_eq_zero_iff] at hzero
        simp only [List.flatten_append, hzero, List.nil_append, List.flatten_cons,
          List.flatten_nil, List.append_nil]
        exact List.mem_append_right _ List.mem_cons_self
      · refine .inl ?_
        simp only [List.flatten_append, List.flatten_cons, List.flatten_nil, List.append_nil,
          List.length_append]
        omega
    refine ⟨rfl, rfl, _, h.write r hfits, ?_, fun _ => ⟨_, Function.update_self _ _ _⟩⟩
    have hwrite := hkeeps.write r
    exact ⟨hwrite.sublist, fun hgood => hwrite.suffix (Bool.or_eq_false_iff.1 hgood).1⟩

/-- The records that the sink finds in old files: each file is taken as one. -/
def oldRecords (maxFiles : ℕ) (old : Files Bytes) : List Bytes :=
  records (maxFiles + 1) fun i => (old i).map fun f => [f]

/-- A sink just opened holds what was in the files. -/
lemma holds_new {maxSize maxFiles : ℕ} {old : Files Bytes}
    (hnew : new maxSize maxFiles old = some s) :
    s.maxSize = maxSize ∧ s.maxFiles = maxFiles ∧ ∃ chunks, Holds s chunks ∧
      Keeps maxFiles chunks (oldRecords maxFiles old) false := by
  simp only [new, Option.ite_none_left_eq_some, Option.some.injEq] at hnew
  obtain ⟨-, rfl⟩ := hnew
  let olds : Files (List Bytes) := fun i => (old i).map fun f => [f]
  have hflatten : old = fun i => (olds i).map List.flatten := by
    funext i
    cases h : old i <;> simp [olds, h]
  have hzero : (old 0).getD [] = ((olds 0).getD []).flatten := by
    simp only [olds]
    cases old 0 <;> simp
  refine ⟨rfl, rfl, Function.update olds 0 (some ((olds 0).getD [])), ⟨?_, ?_, ?_⟩, ?_⟩
  · rw [← map_update, ← hflatten]
    simp [hzero]
  · intro i c hc
    have hmem : c = [] ∨ ∃ f, c = [f] := by
      rcases eq_or_ne i 0 with rfl | hi
      · rw [Function.update_self] at hc
        obtain rfl := Option.some.inj hc
        simp only [olds]
        cases old 0 with
        | none => exact .inl rfl
        | some f => exact .inr ⟨f, rfl⟩
      · rw [Function.update_of_ne hi] at hc
        obtain ⟨f, -, rfl⟩ := Option.map_eq_some_iff.1 hc
        exact .inr ⟨f, rfl⟩
    rcases hmem with rfl | ⟨f, rfl⟩
    · exact .inl (Nat.zero_le _)
    · exact .inr (by simp)
  · simp [fileSize]
  · have hrecords : records (maxFiles + 1) (Function.update olds 0 (some ((olds 0).getD []))) =
        oldRecords maxFiles old := by
      obtain ⟨xs, hxs⟩ := exists_records_update maxFiles olds
      have hold : records (maxFiles + 1) olds = xs ++ (olds 0).getD [] := by
        rw [← hxs, Function.update_eq_self]
      rw [hxs]
      exact hold.symm
    exact ⟨by rw [hrecords], fun _ => by rw [hrecords]⟩

/-- **Every run** of the sink. -/
lemma holds_log {maxSize maxFiles : ℕ} {old : Files Bytes}
    (hnew : new maxSize maxFiles old = some s) (es : List (Bytes × Option ℕ)) :
    (s.log es).maxSize = maxSize ∧ (s.log es).maxFiles = maxFiles ∧ ∃ chunks,
      Holds (s.log es) chunks ∧ Keeps maxFiles chunks (oldRecords maxFiles old ++ es.map Prod.fst)
        (es.any fun e => e.2.isSome) ∧
      ∀ r, es.getLast? = some (r, none) → ∃ c, chunks 0 = some (c ++ [r]) := by
  induction es using List.reverseRecOn with
  | nil =>
    obtain ⟨hsize, hfiles, chunks, hholds, hkeeps⟩ := holds_new hnew
    exact ⟨hsize, hfiles, chunks, hholds, by simpa using hkeeps, by simp⟩
  | append_singleton es e ih =>
    obtain ⟨hsize, hfiles, chunks, hholds, hkeeps, -⟩ := ih
    have hlog : s.log (es ++ [e]) = (s.log es).sinkIt e.1 e.2 := by simp [log]
    rw [← hfiles] at hkeeps
    obtain ⟨hsize', hfiles', chunks', hholds', hkeeps', hlast⟩ := hholds.sinkIt hkeeps e.1 e.2
    rw [hlog]
    refine ⟨hsize'.trans hsize, hfiles'.trans hfiles, chunks', hholds', ?_, fun r hr => ?_⟩
    · rw [hfiles] at hkeeps'
      simpa [List.any_append, ← List.append_assoc] using hkeeps'
    · obtain rfl : e = (r, none) := by simpa using hr
      exact hlast rfl

/-- **The log files.** For every limit, number of files and old content of them, and any records
logged one after the other, any of the renames failing: each file is a sequence of whole records,
and with all files together, the oldest first, these are in the order in which they were logged. No
file is longer than the limit, unless it has one record only. And while all renames succeed, the
files hold the latest records without a gap, the last of all in the file 0.

**Proof sketch.** Induction on the records. The loop of `rotate_` goes down from the highest number,
so a file is moved where the one before has just left, and only the oldest is lost. -/
theorem sink_keeps_latest (maxSize maxFiles : ℕ) (old : Files Bytes) (s : RotatingFile)
    (hnew : new maxSize maxFiles old = some s) (es : List (Bytes × Option ℕ)) :
    ∃ chunks : Files (List Bytes), (s.log es).files = (fun i => (chunks i).map List.flatten) ∧
      (∀ i c, chunks i = some c → c.flatten.length ≤ maxSize ∨ c.flatten ∈ c) ∧
      (records (maxFiles + 1) chunks).Sublist (oldRecords maxFiles old ++ es.map Prod.fst) ∧
      ((∀ e ∈ es, e.2 = none) →
        records (maxFiles + 1) chunks <:+ oldRecords maxFiles old ++ es.map Prod.fst ∧
          ∀ r, es.getLast? = some (r, none) → ∃ c, chunks 0 = some (c ++ [r])) := by
  obtain ⟨hsize, -, chunks, hholds, hkeeps, hlast⟩ := holds_log hnew es
  refine ⟨chunks, hholds.files, fun i c hc => ?_, hkeeps.sublist, fun hall => ?_⟩
  · rw [← hsize]
    exact hholds.fits i c hc
  · refine ⟨hkeeps.suffix (List.any_eq_false.2 fun e he => ?_), hlast⟩
    simp [hall e he]

/-- Two files, at most three bytes each, the first of which has two bytes already. -/
theorem sink_keeps_latest_rotated :
    ∃ s, new 3 1 (Function.update (fun _ => none) 0 (some [1, 2])) = some s ∧
      (s.log [([3], none), ([4, 5], none)]).files 0 = some [4, 5] ∧
      ∃ chunks : Files (List Bytes), (s.log [([3], none), ([4, 5], none)]).files =
        (fun i => (chunks i).map List.flatten) ∧
          records 2 chunks <:+ [[1, 2], [3], [4, 5]] := by
  refine ⟨_, rfl, rfl, ?_⟩
  obtain ⟨chunks, hfiles, -, -, hsuffix⟩ := sink_keeps_latest 3 1
    (Function.update (fun _ => none) 0 (some [1, 2])) _ rfl [([3], none), ([4, 5], none)]
  exact ⟨chunks, hfiles, (hsuffix (by simp)).1⟩

/-- What is written in two pieces. -/
lemma write_write (s : RotatingFile) (x y : Bytes) : (s.write x).write y = s.write (x ++ y) := by
  simp [write]

/-- Nothing written to a file that exists. -/
lemma write_nil {s : RotatingFile} {f : Bytes} (hf : s.files 0 = some f) : s.write [] = s := by
  have hfiles : Function.update s.files 0 (some f) = s.files := by
    rw [← hf, Function.update_eq_self]
  simp [write, hf, hfiles]

/-- A sink just opened has a file to write to. -/
lemma files_zero_of_new {maxSize maxFiles : ℕ} {old : Files Bytes}
    (hnew : new maxSize maxFiles old = some s) : s.files 0 = some ((old 0).getD []) := by
  simp only [new, Option.ite_none_left_eq_some, Option.some.injEq] at hnew
  obtain ⟨-, rfl⟩ := hnew
  exact Function.update_self 0 _ old

/-- And one that was rotated has an empty one. -/
lemma files_zero_of_rotate {γ : Type} {fails : Option ℕ} {maxFiles : ℕ} {empty : γ}
    {fs files : Files γ} {ok : Bool} (h : rotate fails maxFiles empty fs = (files, ok)) :
    files 0 = some empty := by
  obtain ⟨rfl, -⟩ := Prod.ext_iff.1 h
  simp [rotate]

end RotatingFile

/-! ## The stream -/

/-- A sink with the stream of its file 0: the files as they are on disk, and what was written to the
stream and is not in the file yet. -/
structure BufferedFile extends RotatingFile where
  held : Bytes := []

namespace BufferedFile

open RotatingFile

/-- The stream passes `n` bytes on to the file. -/
def pass (b : BufferedFile) (n : ℕ) : BufferedFile where
  toRotatingFile := b.toRotatingFile.write (b.held.take n)
  held := b.held.drop n

/-- `file_helper_.flush` -/
def flush (b : BufferedFile) : BufferedFile where
  toRotatingFile := b.toRotatingFile.write b.held

/-- `file_helper_.close`, also by its destructor: `fclose` flushes the stream. -/
def close (b : BufferedFile) : BufferedFile := b.flush

/-- `file_helper_.write`: the stream takes the bytes, and passes `n` of what it has on. -/
def write (b : BufferedFile) (formatted : Bytes) (n : ℕ) : BufferedFile :=
  pass { b with held := b.held ++ formatted } n

/-- `sink_it_`; `fails` is a target to which a rename would fail, and the stream passes on `n` bytes
when it is written to. -/
def sinkIt (b : BufferedFile) (formatted : Bytes) (fails : Option ℕ) (n : ℕ) : BufferedFile :=
  let newSize := b.currentSize + formatted.length
  if b.maxSize < newSize then
    let b := b.flush
    if 0 < b.fileSize then
      -- `rotate_` closes the stream first
      let b := b.close
      match rotate fails b.maxFiles [] b.files with
      | (files, true) => { write { b with files := files } formatted n with
          currentSize := formatted.length }
      | (files, false) => { b with files := files, currentSize := 0 }
    else { b.write formatted n with currentSize := newSize }
  else { b.write formatted n with currentSize := newSize }

/-- The constructor: nothing is in the stream yet. -/
def new (maxSize maxFiles : ℕ) (old : Files Bytes) : Option BufferedFile :=
  (RotatingFile.new maxSize maxFiles old).map fun s => { toRotatingFile := s }

/-- The sink with what was written to its files. -/
def written (b : BufferedFile) : RotatingFile := b.toRotatingFile.write b.held

section Written

variable (b : BufferedFile) (n : ℕ)

/-- Passing bytes on writes nothing. -/
lemma written_pass : (b.pass n).written = b.written := by
  rw [written, written, pass, write_write, List.take_append_drop]

/-- The stream is written to. -/
lemma written_write (formatted : Bytes) :
    (b.write formatted n).written = b.written.write formatted := by
  rw [write, written_pass, written, written, write_write]

/-- A stream that was flushed holds nothing. -/
lemma written_flush : b.flush.written = b.written := by
  rw [written, written, flush, write_write, List.append_nil]

/-- **One record**: what was written is as in the sink without its stream.

**Proof sketch.** The stream is flushed before the sink looks at the size of the file, and holds
nothing when the files are renamed. -/
lemma written_sinkIt (formatted : Bytes) (fails : Option ℕ) :
    (b.sinkIt formatted fails n).written = b.written.sinkIt formatted fails := by
  have hwrite : ∀ (c : BufferedFile) (size : ℕ),
      written { c.write formatted n with currentSize := size } =
        { c.written.write formatted with currentSize := size } := by
    intro c size
    rw [← written_write]
    rfl
  have hflush : b.flush.close.toRotatingFile = b.written := written_flush b
  have hsize : b.flush.fileSize = b.written.fileSize := rfl
  unfold sinkIt RotatingFile.sinkIt
  dsimp only
  rw [hsize, hflush]
  by_cases hbig : b.maxSize < b.currentSize + formatted.length
  · have hbig' : b.written.maxSize < b.written.currentSize + formatted.length := hbig
    by_cases hpos : 0 < b.written.fileSize
    · rw [if_pos hbig, if_pos hpos, if_pos ⟨hbig', hpos⟩]
      cases hrotate : rotate fails b.written.maxFiles [] b.written.files with
      | mk files ok =>
        have hzero : files 0 = some [] := files_zero_of_rotate hrotate
        have hclosed : written { b.flush.close with files := files } =
            { b.written with files := files } := by
          rw [written, ← hflush]
          exact write_nil hzero
        cases ok with
        | true =>
          have hlogged := hwrite { b.flush.close with files := files } formatted.length
          rw [hclosed] at hlogged
          exact hlogged
        | false => exact congrArg (fun s : RotatingFile => { s with currentSize := 0 }) hclosed
    · rw [if_pos hbig, if_neg hpos, if_neg fun h => hpos h.2, hwrite, written_flush]
      rfl
  · rw [if_neg hbig, if_neg fun h => hbig h.1, hwrite]
    rfl

/-- **On disk** are the files that were renamed, and the beginning of the file 0. -/
lemma files_of_written :
    (∀ i, 0 < i → b.files i = b.written.files i) ∧
      (b.files 0).getD [] <+: (b.written.files 0).getD [] := by
  refine ⟨fun i hi => ?_, ?_⟩
  · exact (Function.update_of_ne (Nat.ne_of_gt hi) _ b.files).symm
  · simp [written, RotatingFile.write]

end Written

/-- A sink just opened has written all that it has. -/
lemma written_new {maxSize maxFiles : ℕ} {old : Files Bytes} {b : BufferedFile}
    (hnew : new maxSize maxFiles old = some b) :
    RotatingFile.new maxSize maxFiles old = some b.written := by
  obtain ⟨s, hs, rfl⟩ := Option.map_eq_some_iff.1 hnew
  rw [hs, written, write_nil (files_zero_of_new hs)]

/-! ## From the log call to the file -/

section Worker

variable {ρ : Type} (formatted : ρ → Bytes)

/-- The record in a message, if it has one. -/
def record? : AsyncMsg ρ → Option ρ
  | .log r => some r
  | _ => none

/-- `process_msg`, in the sink: the message comes with a target to which a rename would fail, and
the bytes that the stream passes on. A flush for the level of a record counts with these. -/
def handle (b : BufferedFile) (m : AsyncMsg ρ × Option ℕ × ℕ) : BufferedFile :=
  match m.1 with
  | .log r => b.sinkIt (formatted r) m.2.1 m.2.2
  | .flush => b.flush
  | .terminate => b

/-- Messages handled one after the other. -/
def handleAll (b : BufferedFile) (msgs : List (AsyncMsg ρ × Option ℕ × ℕ)) : BufferedFile :=
  msgs.foldl (handle formatted) b

/-- When no log call is left in the pool, the records enqueued are those of all that got it. -/
lemma perm_records {n threads : ℕ} {p : ThreadPool ρ} (h : ThreadPool.Sound n threads p)
    (hpending : p.pending = []) :
    (p.enqueued.filterMap record?).Perm (p.accepted.filterMap record?) := by
  have hworks := h.kept.works
  rw [hpending, List.append_nil] at hworks
  have hrecords := hworks.filterMap record?
  rw [List.filterMap_filter] at hrecords
  convert hrecords using 2 with msg
  cases msg <;> rfl

/-- What is logged with the messages. -/
def sunk (msgs : List (AsyncMsg ρ × Option ℕ × ℕ)) : List (Bytes × Option ℕ) :=
  msgs.filterMap fun m => (record? m.1).map fun r => (formatted r, m.2.1)

/-- **Every run of the worker**: what was written is as in the sink without its stream.

**Proof sketch.** Induction on the messages. -/
lemma written_handleAll (b : BufferedFile) (msgs : List (AsyncMsg ρ × Option ℕ × ℕ)) :
    (handleAll formatted b msgs).written = b.written.log (sunk formatted msgs) := by
  induction msgs generalizing b with
  | nil => rfl
  | cons m msgs ih =>
    have hrest : (handleAll formatted b (m :: msgs)).written =
        (handle formatted b m).written.log (sunk formatted msgs) := ih _
    rw [hrest]
    rcases m with ⟨msg, fails, n⟩
    cases msg with
    | log r =>
      have hsink := written_sinkIt b n (formatted r) fails
      exact congrArg (fun s : RotatingFile => s.log (sunk formatted msgs)) hsink
    | flush =>
      exact congrArg (fun s : RotatingFile => s.log (sunk formatted msgs)) (written_flush b)
    | terminate => rfl

/-- Each record is logged once, in the order of the messages. -/
lemma map_fst_sunk (msgs : List (AsyncMsg ρ × Option ℕ × ℕ)) :
    (sunk formatted msgs).map Prod.fst =
      ((msgs.map Prod.fst).filterMap record?).map formatted := by
  rw [sunk, List.map_filterMap, List.filterMap_map, List.map_filterMap]
  refine List.filterMap_congr fun m _ => ?_
  simp only [Function.comp_apply]
  cases record? m.1 <;> rfl

/-- While no rename fails, what is logged is known from the messages. -/
lemma sunk_of_good {msgs : List (AsyncMsg ρ × Option ℕ × ℕ)} (hgood : ∀ m ∈ msgs, m.2.1 = none) :
    sunk formatted msgs =
      ((msgs.map Prod.fst).filterMap record?).map fun r => (formatted r, none) := by
  rw [sunk, List.filterMap_map, List.map_filterMap]
  refine List.filterMap_congr fun m hm => ?_
  rw [hgood m hm]
  rfl

/-- **From the log call to the file.** Let the logger have one worker, as `init_thread_pool` makes
it. In every run of its pool, once the worker has finished, and however much its sink's stream
passed on with each message:

- the records enqueued are those of all the log calls that got the pool;
- once the stream is closed, each file is a sequence of whole records, and with all files together,
  the oldest first, these are in the order of the queue;
- before it is closed, the file 0 on disk is the beginning of what it is then, and the others are
  as they are then;
- if no rename failed, the files hold the latest of the records enqueued without a gap, the last of
  all at the end of the file 0.

**Proof sketch.** The pool has handled everything in the order of the queue, and what the sink has
written does not depend on what its stream passed on. -/
theorem closed_files_hold [Inhabited ρ] (n : ℕ) (hn : n + 1 < 2 ^ 64)
    (es : List (LogPoolEvent ρ)) (p : ThreadPool ρ)
    (hrun : Run.exec ThreadPool.step (.new n 1 hn) es = some p) (hfinished : p.finished = 1)
    (maxSize maxFiles : ℕ) (old : Files Bytes) (b : BufferedFile)
    (hnew : new maxSize maxFiles old = some b) (msgs : List (AsyncMsg ρ × Option ℕ × ℕ))
    (hmsgs : msgs.map Prod.fst = p.handled) :
    (p.enqueued.filterMap record?).Perm (p.accepted.filterMap record?) ∧
      ∃ chunks : Files (List Bytes),
        (handleAll formatted b msgs).close.files = (fun i => (chunks i).map List.flatten) ∧
        (∀ i, 0 < i → (handleAll formatted b msgs).files i = (chunks i).map List.flatten) ∧
        ((handleAll formatted b msgs).files 0).getD [] <+: ((chunks 0).getD []).flatten ∧
        (records (maxFiles + 1) chunks).Sublist
          (oldRecords maxFiles old ++ (p.enqueued.filterMap record?).map formatted) ∧
        ((∀ m ∈ msgs, m.2.1 = none) →
          records (maxFiles + 1) chunks <:+
              oldRecords maxFiles old ++ (p.enqueued.filterMap record?).map formatted ∧
            ∀ r, (p.enqueued.filterMap record?).getLast? = some r →
              ∃ c, chunks 0 = some (c ++ [formatted r])) := by
  have hsound := ThreadPool.sound_of_exec hrun
  obtain ⟨hpending, -, -⟩ := hsound.ended Nat.one_pos hfinished
  rw [ThreadPool.handled_of_single hrun hfinished] at hmsgs
  refine ⟨perm_records hsound hpending, ?_⟩
  obtain ⟨-, -, chunks, hholds, hkeeps, hlast⟩ :=
    holds_log (written_new hnew) (sunk formatted msgs)
  obtain ⟨hothers, hfirst⟩ := files_of_written (handleAll formatted b msgs)
  rw [← written_handleAll] at hholds
  rw [map_fst_sunk, hmsgs] at hkeeps
  rw [hholds.file_zero] at hfirst
  refine ⟨chunks, hholds.files, fun i hi => ?_, hfirst, hkeeps.sublist, fun hgood => ⟨?_, ?_⟩⟩
  · rw [hothers i hi, hholds.files]
  · refine hkeeps.suffix (List.any_eq_false.2 fun e he => ?_)
    rw [sunk_of_good formatted hgood] at he
    obtain ⟨r, -, rfl⟩ := List.mem_map.1 he
    simp
  · intro r hr
    refine hlast (formatted r) ?_
    rw [sunk_of_good formatted hgood, hmsgs, List.getLast?_map, hr]
    rfl

/-- The two records of `shutdownEvents`, which are numbers written as a byte each, in files of one
byte: the first is renamed whole, the second stays in the stream until it is closed. -/
theorem closed_files_hold_two :
    ∃ p, Run.exec ThreadPool.step (.new 1 1 (by decide)) ThreadPool.shutdownEvents = some p ∧
      ∃ b, new 1 3 (fun _ => none) = some b ∧
        ∃ msgs : List (AsyncMsg ℕ × Option ℕ × ℕ), msgs.map Prod.fst = p.handled ∧
          (handleAll (fun r => [r.toUInt8]) b msgs).files 0 = some [] ∧
          ∃ chunks : Files (List Bytes),
            (handleAll (fun r => [r.toUInt8]) b msgs).close.files =
              (fun i => (chunks i).map List.flatten) ∧
            records 4 chunks <:+ [[5], [6]] ∧ ∃ c, chunks 0 = some (c ++ [[6]]) := by
  refine ⟨_, rfl, _, rfl, [(.log 5, none, 0), (.log 6, none, 0), (.terminate, none, 0)], rfl, rfl,
    ?_⟩
  obtain ⟨-, chunks, hfiles, -, -, -, hgood⟩ :=
    closed_files_hold (fun r : ℕ => [r.toUInt8]) 1 (by decide) ThreadPool.shutdownEvents _ rfl rfl 1
      3 (fun _ => none) _ rfl
      [(.log 5, none, 0), (.log 6, none, 0), (.terminate, none, 0)] rfl
  obtain ⟨hsuffix, hlast⟩ := hgood (by simp)
  exact ⟨chunks, hfiles, hsuffix, hlast 6 rfl⟩

end Worker

end BufferedFile

end Purity
