import Mathlib.Tactic.Common

set_option relaxedAutoImplicit false
set_option autoImplicit false

/-!
# Timers of an event loop

A wait on a timer ends in one of two ways: its time comes, or it is cancelled. Either way its
handler does not run at once but is put in a queue, and a cancel that comes while the handler is
queued comes too late: the handler runs as if nothing had happened. So a timer is not armed or idle;
what counts is how many of its waits are armed, how many handlers are queued because the time came,
and how many because of a cancel.

A periodic loop is a handler that waits again whenever it runs for the first reason. The rule for
such loops is about one step of a system with a timer, so it can be used for any system.

## Main definitions

* `Timer` — the waits of a timer; `Timer.restart` is a cancel followed by a new wait.
* `Timer.LoopStep` — what a step may do to the timer of a periodic loop that is to go on as long as
  a condition holds.
* `Timer.Beating` — at most one wait is armed, and while the condition holds the loop is alive.

## Main results

* `Timer.LoopStep.beating` — such a step keeps the loop beating.
-/

/-- A timer: the waits that have not ended, the handlers queued because the time of a wait came, and
those queued because a wait was cancelled. -/
structure Timer where
  armed : ℕ := 0
  fired : ℕ := 0
  aborted : ℕ := 0
  deriving DecidableEq, Repr

namespace Timer

/-- The waits not cancelled: their handlers will run, or are queued, without an error. -/
def live (t : Timer) : ℕ := t.armed + t.fired

/-- All waits that have not ended are cancelled. -/
def cancel (t : Timer) : Timer := { t with armed := 0, aborted := t.aborted + t.armed }

/-- A new wait, after the ones before it are cancelled by setting the time. -/
def restart (t : Timer) : Timer := { t.cancel with armed := 1 }

/-- The time of a wait comes. -/
def expire (t : Timer) : Option Timer :=
  if t.armed = 0 then none else some { t with armed := t.armed - 1, fired := t.fired + 1 }

/-- A handler runs whose wait was not cancelled in time. -/
def runFired (t : Timer) : Option Timer :=
  if t.fired = 0 then none else some { t with fired := t.fired - 1 }

/-- A handler runs whose wait was cancelled. -/
def runAborted (t : Timer) : Option Timer :=
  if t.aborted = 0 then none else some { t with aborted := t.aborted - 1 }

@[simp] lemma restart_armed (t : Timer) : t.restart.armed = 1 := rfl

@[simp] lemma restart_fired (t : Timer) : t.restart.fired = t.fired := rfl

@[simp] lemma cancel_armed (t : Timer) : t.cancel.armed = 0 := rfl

@[simp] lemma cancel_fired (t : Timer) : t.cancel.fired = t.fired := rfl

/-- The time of an armed wait comes. -/
lemma expire_eq_some {t t' : Timer} : t.expire = some t' ↔
    t.armed ≠ 0 ∧ t' = { t with armed := t.armed - 1, fired := t.fired + 1 } := by
  simp [expire, eq_comm]

/-- A handler that is queued runs. -/
lemma runFired_eq_some {t t' : Timer} : t.runFired = some t' ↔
    t.fired ≠ 0 ∧ t' = { t with fired := t.fired - 1 } := by
  simp [runFired, eq_comm]

/-- So does the handler of a cancelled wait. -/
lemma runAborted_eq_some {t t' : Timer} : t.runAborted = some t' ↔
    t.aborted ≠ 0 ∧ t' = { t with aborted := t.aborted - 1 } := by
  simp [runAborted, eq_comm]

/-- **A step of a periodic loop**, from a state where the condition is `on` to one where it is
`on'`: the timer is left alone; the loop is started anew; it is cancelled, and the condition is off;
the time of a wait comes; the handler runs and waits again; it runs and does not, with the condition
off; or a handler of a cancelled wait runs. -/
inductive LoopStep (on on' : Prop) (t : Timer) : Timer → Prop where
  | keep (h : on' → on) : LoopStep on on' t t
  | restart : LoopStep on on' t t.restart
  | cancel (h : ¬ on') : LoopStep on on' t t.cancel
  | expire (t' : Timer) (ht : t.expire = some t') (h : on' → on) : LoopStep on on' t t'
  | beat (t' : Timer) (ht : t.runFired = some t') : LoopStep on on' t t'.restart
  | stop (t' : Timer) (ht : t.runFired = some t') (h : ¬ on') : LoopStep on on' t t'
  | aborted (t' : Timer) (ht : t.runAborted = some t') (h : on' → on) : LoopStep on on' t t'

/-- The loop beats: at most one wait is armed, and while the condition is on, a wait is armed or its
handler is queued. -/
structure Beating (on : Prop) (t : Timer) : Prop where
  armed : t.armed ≤ 1
  live : on → 1 ≤ t.live

/-- **The rule for periodic loops.** -/
lemma LoopStep.beating {on on' : Prop} {t t' : Timer} (h : LoopStep on on' t t')
    (ht : Beating on t) : Beating on' t' := by
  obtain ⟨harmed, hlive⟩ := ht
  simp only [Timer.live] at hlive
  cases h with
  | keep h => exact ⟨harmed, fun hon => hlive (h hon)⟩
  | restart => exact ⟨Nat.le_refl 1, fun _ => Nat.le_add_right 1 t.fired⟩
  | cancel h => exact ⟨Nat.zero_le 1, fun hon => absurd hon h⟩
  | expire t' he h =>
    obtain ⟨hne, rfl⟩ := expire_eq_some.1 he
    refine ⟨by simp only; omega, fun _ => ?_⟩
    simp only [Timer.live]
    omega
  | beat t' he => exact ⟨Nat.le_refl 1, fun _ => Nat.le_add_right 1 t'.fired⟩
  | stop t' he h =>
    obtain ⟨hne, rfl⟩ := runFired_eq_some.1 he
    exact ⟨harmed, fun hon => absurd hon h⟩
  | aborted t' he h =>
    obtain ⟨hne, rfl⟩ := runAborted_eq_some.1 he
    exact ⟨harmed, fun hon => hlive (h hon)⟩

end Timer
