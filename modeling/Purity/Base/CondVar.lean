import Mathlib.Tactic.Common
import Mathlib.Data.List.Perm.Basic

set_option relaxedAutoImplicit false
set_option autoImplicit false

/-!
# Condition variables

A monitor is a state under a mutex together with condition variables. A thread that finds nothing
to take blocks on a condition variable; a thread that has put something there unlocks the mutex and
then calls `notify_one`, which lets one of the blocked threads go. A thread let go has to lock the
mutex again before it can look, and until then others may come before it. Threads also leave the
wait on their own, when it times out or for no reason.

What the threads do under the mutex is one step each, so this file has only what happens outside it:
who is blocked, who is on the way back to the mutex, and how many calls of `notify_one` are still
to come. The identity of a thread is a value of an arbitrary type.

## Main definitions

* `CondVar` — the threads at a condition variable, and its operations.
* `CondVar.Alert` — no wakeup is lost: as long as a thread is blocked, there are at least as many
  threads on the way back, and calls of `notify_one` to come, as things to take.

## Main results

* `CondVar.Alert.block`, `changed`, `notifyOne`, `wake`, `relock` — what each operation does to it.
* `CondVar.Alert.exists_wakeup` — a blocked thread with something to take is not forgotten.
-/

/-- The threads at a condition variable: those blocked in a wait; those that have left the wait and
want the mutex back, each with whether its wait timed out; and the number of threads that have
changed the state and have yet to call `notify_one`. -/
structure CondVar (ι : Type*) where
  blocked : List ι := []
  woken : List (ι × Bool) := []
  notifying : ℕ := 0

namespace CondVar

variable {ι : Type*} (cv : CondVar ι)

/-- A thread blocks: it unlocks the mutex and joins the wait. -/
def block (t : ι) : CondVar ι := { cv with blocked := cv.blocked ++ [t] }

/-- A thread has changed the state; its `notify_one` is to come. -/
def changed : CondVar ι := { cv with notifying := cv.notifying + 1 }

/-- The `i`-th blocked thread leaves the wait, because of a timeout or spuriously. -/
def wake (i : ℕ) (timedOut : Bool) : Option (CondVar ι) :=
  cv.blocked[i]?.map fun t =>
    { cv with blocked := cv.blocked.eraseIdx i, woken := cv.woken ++ [(t, timedOut)] }

/-- `notify_one`: the `i`-th blocked thread is let go. If none is blocked, nothing happens. -/
def notifyOne (i : ℕ) : Option (CondVar ι) :=
  if cv.notifying = 0 then none
  else if cv.blocked.isEmpty then some { cv with notifying := cv.notifying - 1 }
  else wake { cv with notifying := cv.notifying - 1 } i false

/-- The `i`-th thread on the way back locks the mutex; the result says which thread it is, and
whether its wait timed out. -/
def relock (i : ℕ) : Option ((ι × Bool) × CondVar ι) :=
  cv.woken[i]?.map fun t => (t, { cv with woken := cv.woken.eraseIdx i })

/-- All threads at the condition variable. -/
def threads : List ι := cv.blocked ++ cv.woken.map Prod.fst

/-- **No wakeup is lost.** With `n` things to take: as long as a thread is blocked, at least `n`
threads are on the way back or calls of `notify_one` are to come. -/
def Alert (n : ℕ) : Prop := cv.blocked ≠ [] → n ≤ cv.notifying + cv.woken.length

variable {cv}

/-- With fewer things to take there is less to be alert to. -/
lemma Alert.mono {m n : ℕ} (h : cv.Alert n) (hmn : m ≤ n) : cv.Alert m :=
  fun hne => Nat.le_trans hmn (h hne)

/-- Nobody can take anything. -/
lemma alert_zero : cv.Alert 0 := fun _ => Nat.zero_le _

/-- One more thing, and one more call of `notify_one` to come. -/
lemma Alert.changed {n : ℕ} (h : cv.Alert n) : cv.changed.Alert (n + 1) := by
  intro hne
  have := h hne
  simp only [CondVar.changed]
  omega

/-- A thread that leaves the wait is on the way back. -/
lemma Alert.wake {n i : ℕ} {timedOut : Bool} {cv' : CondVar ι} (h : cv.Alert n)
    (hw : cv.wake i timedOut = some cv') : cv'.Alert n := by
  simp only [CondVar.wake, Option.map_eq_some_iff] at hw
  obtain ⟨t, ht, rfl⟩ := hw
  intro _
  have hne : cv.blocked ≠ [] := by
    rintro hnil
    simp [hnil] at ht
  have := h hne
  simp only [List.length_append, List.length_singleton]
  omega

/-- `notify_one` sends a thread on its way, or nobody is blocked. -/
lemma Alert.notifyOne {n i : ℕ} {cv' : CondVar ι} (h : cv.Alert n)
    (hn : cv.notifyOne i = some cv') : cv'.Alert n := by
  simp only [CondVar.notifyOne, CondVar.wake] at hn
  split_ifs at hn with hzero hempty
  · cases hn
    intro hne
    exact absurd (List.isEmpty_iff.1 hempty) hne
  · simp only [Option.map_eq_some_iff] at hn
    obtain ⟨t, ht, rfl⟩ := hn
    intro _
    have := h (by simpa using hempty)
    simp only [List.length_append, List.length_singleton]
    omega

/-- A thread that is back has either taken something or found nothing. -/
lemma Alert.relock {n i : ℕ} {t : ι × Bool} {cv' : CondVar ι} (h : cv.Alert n)
    (hr : cv.relock i = some (t, cv')) : cv'.Alert (n - 1) := by
  simp only [CondVar.relock, Option.map_eq_some_iff, Prod.mk.injEq] at hr
  obtain ⟨_, ht, rfl, rfl⟩ := hr
  intro hne
  have := h hne
  obtain ⟨hi, -⟩ := List.getElem?_eq_some_iff.1 ht
  simp only [List.length_eraseIdx_of_lt hi]
  omega

/-- **A blocked thread is not forgotten**: if there is something to take, somebody is on the way
back, or will notify. -/
lemma Alert.exists_wakeup {n : ℕ} (h : cv.Alert n) (hn : 0 < n) (hne : cv.blocked ≠ []) :
    cv.woken ≠ [] ∨ 0 < cv.notifying := by
  have hle := h hne
  rcases List.eq_nil_or_concat cv.woken with hnil | ⟨ws, w, hw⟩
  · rw [hnil, List.length_nil] at hle
    exact .inr (by omega)
  · exact .inl (by simp [hw])

/-! ## Who is at the condition variable -/

/-- A thread that blocks joins the others. -/
lemma threads_block (t : ι) : ((cv.block t).threads).Perm (t :: cv.threads) := by
  simp only [threads, block, List.append_assoc, List.singleton_append]
  exact List.perm_middle

/-- A thread that leaves the wait is still there. -/
lemma threads_wake {i : ℕ} {timedOut : Bool} {cv' : CondVar ι}
    (hw : cv.wake i timedOut = some cv') : cv'.threads.Perm cv.threads := by
  simp only [wake, Option.map_eq_some_iff] at hw
  obtain ⟨t, ht, rfl⟩ := hw
  obtain ⟨hi, rfl⟩ := List.getElem?_eq_some_iff.1 ht
  simp only [threads, List.map_append, List.map_cons, List.map_nil]
  rw [← List.append_assoc]
  refine (List.perm_append_singleton _ _).trans ?_
  exact (List.getElem_cons_eraseIdx_perm hi).append_right _

/-- So is one that `notify_one` lets go. -/
lemma threads_notifyOne {i : ℕ} {cv' : CondVar ι} (hn : cv.notifyOne i = some cv') :
    cv'.threads.Perm cv.threads := by
  unfold notifyOne at hn
  split_ifs at hn with hzero hempty
  · cases hn
    exact .refl _
  · have hperm := threads_wake hn
    exact hperm

/-- A thread that is back at the mutex is no longer at the condition variable. -/
lemma threads_relock {i : ℕ} {t : ι × Bool} {cv' : CondVar ι}
    (hr : cv.relock i = some (t, cv')) : (t.1 :: cv'.threads).Perm cv.threads := by
  simp only [relock, Option.map_eq_some_iff, Prod.mk.injEq] at hr
  obtain ⟨_, ht, rfl, rfl⟩ := hr
  obtain ⟨hi, rfl⟩ := List.getElem?_eq_some_iff.1 ht
  simp only [threads]
  have hperm := (List.getElem_cons_eraseIdx_perm hi).map Prod.fst
  rw [List.map_cons] at hperm
  exact List.perm_middle.symm.trans (hperm.append_left _)

/-! ## What is possible -/

/-- A call of `notify_one` that is to come can come. -/
lemma exists_notifyOne (h : 0 < cv.notifying) :
    ∃ cv', cv.notifyOne 0 = some cv' ∧ cv'.notifying + 1 = cv.notifying := by
  have hne : cv.notifying ≠ 0 := Nat.pos_iff_ne_zero.1 h
  cases hb : cv.blocked with
  | nil =>
    refine ⟨{ cv with notifying := cv.notifying - 1 }, by simp [notifyOne, hne, hb], ?_⟩
    exact Nat.succ_pred_eq_of_pos h
  | cons t ts =>
    refine ⟨_, by simp [notifyOne, wake, hne, hb]; rfl, ?_⟩
    exact Nat.succ_pred_eq_of_pos h

/-- A thread on the way back can lock the mutex. -/
lemma exists_relock (h : cv.woken ≠ []) :
    ∃ t cv', cv.relock 0 = some (t, cv') ∧ cv'.notifying = cv.notifying := by
  obtain ⟨t, ts, ht⟩ := List.exists_cons_of_ne_nil h
  exact ⟨t, { cv with woken := ts }, by simp [relock, ht], rfl⟩

/-- **Somebody can move**: if there is something to take and no `notify_one` is to come, then all
threads are on the way back, if there are any. -/
lemma Alert.woken_ne_nil {n : ℕ} (h : cv.Alert n) (hn : 0 < n) (hnotify : cv.notifying = 0)
    (hthreads : cv.threads ≠ []) : cv.woken ≠ [] := by
  intro hnil
  have hblocked : cv.blocked ≠ [] := by
    rintro hb
    simp [threads, hb, hnil] at hthreads
  rcases h.exists_wakeup hn hblocked with hwoken | hpos
  · exact hwoken hnil
  · omega

end CondVar
