import Purity.Auth.CacheHistory
import Purity.Base.Run
import Purity.Base.Timer

set_option relaxedAutoImplicit false
set_option autoImplicit false

/-!
# The clean-up timer of the account cache

`start` of `AccountCache` arms `cleanup_timer_`; its handler removes the expired entries and arms
the timer again, unless the wait was cancelled, and `stop` cancels it. As `get` only hides an
expired entry, the clean-ups alone keep the map from growing with every name that was ever asked
for.

## Main definitions

* `Purity.CacheService` — the cache with its clock and its timer.
* `Purity.CacheEvent`, `Purity.CacheService.step` — the operations, the time passing, and the
  handlers of the timer.
* `Purity.CacheService.Punctual` — the time does not run ahead of a clean-up that is due by more
  than a given delay.

## Main results

* `Purity.CacheService.stop_final_iff` — after `stop` there are no more clean-ups if no handler was
  queued, and otherwise they go on for ever.
* `Purity.CacheService.age_le` — no entry stays in the map much longer than its time to live.
-/

namespace Purity

/-- `AccountCache` with its timer: the map, the clock, `cleanup_interval_`, the waits of
`cleanup_timer_` and the time they end. -/
structure CacheService where
  cache : AccountCache
  interval : ℕ
  now : ℕ := 0
  timer : Timer := {}
  deadline : ℕ := 0

/-- What happens to it next. -/
inductive CacheEvent where
  /-- `put` -/
  | put (username : Bytes) (entry : AccountCacheEntry)
  /-- `get` -/
  | get (username : Bytes)
  /-- `invalidate` -/
  | invalidate (username : Bytes)
  /-- time passes -/
  | tick (ticks : ℕ)
  /-- the time of the wait has come: its handler is queued -/
  | expire
  /-- a handler runs whose wait was not cancelled -/
  | cleanup
  /-- a handler runs whose wait was cancelled -/
  | aborted
  /-- `stop` -/
  | stop
  deriving DecidableEq, Repr

namespace CacheService

/-- `start_cleanup_timer` -/
def startCleanupTimer (c : CacheService) : CacheService :=
  { c with timer := c.timer.restart, deadline := c.now + c.interval }

/-- The cache of the server: constructed, and `start` called. -/
def start (ttl interval now : ℕ) : CacheService :=
  startCleanupTimer { cache := { ttl := ttl }, interval := interval, now := now }

/-- One step; `none` if the event is not possible. -/
def step (c : CacheService) : CacheEvent → Option CacheService
  | .put username entry => some { c with cache := c.cache.put username entry c.now }
  | .get username => some { c with cache := (c.cache.get username c.now).2 }
  | .invalidate username => some { c with cache := c.cache.invalidate username }
  | .tick ticks => some { c with now := c.now + ticks }
  | .expire =>
    if c.deadline ≤ c.now then c.timer.expire.map fun timer => { c with timer := timer } else none
  | .cleanup =>
    c.timer.runFired.map fun timer => startCleanupTimer
      { c with cache := c.cache.cleanupExpiredEntries c.now, timer := timer }
  | .aborted => c.timer.runAborted.map fun timer => { c with timer := timer }
  | .stop => some { c with timer := c.timer.cancel }

variable {c c' : CacheService} {e : CacheEvent}

/-! ## Stopping -/

/-- The number of clean-ups in a run. -/
def cleanups (es : List CacheEvent) : ℕ := es.count .cleanup

/-- Once nothing is armed or queued, nothing will be. -/
lemma live_eq_zero_of_step (h : c.timer.live = 0) (hstep : c.step e = some c') :
    c'.timer.live = 0 ∧ e ≠ .cleanup := by
  simp only [Timer.live, Nat.add_eq_zero_iff] at h ⊢
  obtain ⟨harmed, hfired⟩ := h
  cases e with
  | put username entry => cases hstep; exact ⟨⟨harmed, hfired⟩, by simp⟩
  | get username => cases hstep; exact ⟨⟨harmed, hfired⟩, by simp⟩
  | invalidate username => cases hstep; exact ⟨⟨harmed, hfired⟩, by simp⟩
  | tick ticks => cases hstep; exact ⟨⟨harmed, hfired⟩, by simp⟩
  | expire => simp [step, Timer.expire, harmed] at hstep
  | cleanup => simp [step, Timer.runFired, hfired] at hstep
  | aborted =>
    simp only [step, Option.map_eq_some_iff] at hstep
    obtain ⟨timer, ht, rfl⟩ := hstep
    obtain ⟨-, rfl⟩ := Timer.runAborted_eq_some.1 ht
    exact ⟨⟨harmed, hfired⟩, by simp⟩
  | stop => cases hstep; exact ⟨⟨rfl, hfired⟩, by simp⟩

/-- Then no clean-up is made any more. -/
lemma cleanups_eq_zero (h : c.timer.live = 0) {es : List CacheEvent}
    (hrun : Run.exec step c es = some c') : cleanups es = 0 := by
  induction es generalizing c with
  | nil => rfl
  | cons e es ih =>
    obtain ⟨t, ht, hrest⟩ := Run.exec_cons_eq_some.1 hrun
    obtain ⟨hlive, hne⟩ := live_eq_zero_of_step h ht
    rw [cleanups, List.count_cons_of_ne hne]
    exact ih hlive hrest

/-- A queued handler cleans up and arms the timer; when the time has come, it is queued again. -/
lemma exists_cleanups (h : c.timer.fired ≠ 0) (n : ℕ) :
    ∃ es c', Run.exec step c es = some c' ∧ c'.timer.fired ≠ 0 ∧ cleanups es = n := by
  induction n generalizing c with
  | zero => exact ⟨[], c, rfl, h, rfl⟩
  | succ n ih =>
    set d : CacheService := startCleanupTimer { c with
      cache := c.cache.cleanupExpiredEntries c.now
      timer := { c.timer with fired := c.timer.fired - 1 } } with hd
    have hclean : c.step .cleanup = some d := by
      simp [step, Timer.runFired, h, hd]
    have htick : d.step (.tick c.interval) = some { d with now := c.now + c.interval } := rfl
    have hexpire : step { d with now := c.now + c.interval } .expire = some { d with
        now := c.now + c.interval
        timer := { d.timer with armed := 0, fired := d.timer.fired + 1 } } := by
      have hdue : d.deadline ≤ c.now + c.interval := Nat.le_refl _
      have harmed : d.timer.armed = 1 := rfl
      simp [step, hdue, Timer.expire, harmed]
    obtain ⟨es, c', hrun, hfired, hcount⟩ := ih (c := { d with
      now := c.now + c.interval
      timer := { d.timer with armed := 0, fired := d.timer.fired + 1 } }) (by simp)
    refine ⟨.cleanup :: .tick c.interval :: .expire :: es, c', ?_, hfired, ?_⟩
    · refine Run.exec_cons_eq_some.2 ⟨d, hclean, Run.exec_cons_eq_some.2 ⟨_, htick, ?_⟩⟩
      exact Run.exec_cons_eq_some.2 ⟨_, hexpire, hrun⟩
    · simp only [cleanups] at hcount ⊢
      simp [hcount]

/-- **Stopping the clean-ups.** Whatever has happened before, after `stop` the number of clean-ups
still to be made is bounded exactly if no handler was queued when `stop` ran, and then there are
none. If the time of the wait had come and its handler was queued, the cancel came too late for it;
it cleans up and arms the timer again, and so on without end.

**Proof sketch.** With nothing queued, nothing is armed after the cancel, and only a handler arms
anything. A queued handler makes any number of clean-ups possible. -/
theorem stop_final_iff (c c' : CacheService) (hstop : c.step .stop = some c') :
    ((∃ n, ∀ es d, Run.exec step c' es = some d → cleanups es ≤ n) ↔ c.timer.fired = 0) ∧
      (c.timer.fired = 0 → ∀ es d, Run.exec step c' es = some d → cleanups es = 0) := by
  cases hstop
  have hnone : c.timer.fired = 0 → ∀ es d,
      Run.exec step { c with timer := c.timer.cancel } es = some d → cleanups es = 0 := by
    intro hzero es d hrun
    refine cleanups_eq_zero ?_ hrun
    simp [Timer.live, hzero]
  refine ⟨⟨?_, fun hzero => ⟨0, fun es d hrun => (hnone hzero es d hrun).le⟩⟩, hnone⟩
  rintro ⟨n, hn⟩
  by_contra hne
  obtain ⟨es, d, hrun, -, hcount⟩ :=
    exists_cleanups (c := { c with timer := c.timer.cancel }) hne (n + 1)
  have := hn es d hrun
  omega

/-- A cache that is stopped at once makes no clean-up; one that is stopped when the time of the wait
has just come makes any number of them. -/
theorem stop_final_iff_queued :
    (∀ es d, Run.exec step { start 300 60 0 with timer := (start 300 60 0).timer.cancel } es =
        some d → cleanups es = 0) ∧
      ∃ c c', Run.exec step (start 300 60 0) [.tick 60, .expire] = some c ∧
        c.step .stop = some c' ∧ c.timer.fired = 1 ∧
        ¬ ∃ n, ∀ es d, Run.exec step c' es = some d → cleanups es ≤ n := by
  refine ⟨(stop_final_iff (start 300 60 0) _ rfl).2 rfl, _, _, rfl, rfl, rfl, fun hbounded => ?_⟩
  exact absurd ((stop_final_iff _ _ rfl).1.1 hbounded) Nat.one_ne_zero

/-! ## How long an entry stays -/

/-- The time does not run ahead of a clean-up that is due by more than `delay`, and `stop` is not
called. -/
def Punctual (delay : ℕ) (c : CacheService) : CacheEvent → Prop
  | .tick ticks => c.now + ticks ≤ c.deadline + delay
  | .stop => False
  | _ => True

/-- The last clean-up was made an interval before the next one is due, not later than now, and it
left no entry older than its time to live. One clean-up is pending, and not overdue by more than
`delay`. -/
structure Swept (delay ttl interval : ℕ) (c : CacheService) : Prop where
  ttl_eq : c.cache.ttl = ttl
  interval_eq : c.interval = interval
  pending : c.timer.live = 1
  now_le : c.now ≤ c.deadline + delay
  le_now : c.deadline ≤ c.now + interval
  swept : ∀ u e, c.cache.cache u = some e → c.deadline ≤ e.lastAccess + ttl + interval

variable {delay ttl interval : ℕ}

/-- It holds at the start. -/
lemma swept_start (delay ttl interval now : ℕ) :
    (start ttl interval now).Swept delay ttl interval := by
  refine ⟨rfl, rfl, rfl, ?_, Nat.le_refl _, nofun⟩
  simp only [start, startCleanupTimer]
  omega

namespace Swept

/-- An access sets the time stamp of an entry to the current time. -/
lemma update (h : c.Swept delay ttl interval) (username : Bytes) (e : AccountCacheEntry) :
    Swept delay ttl interval { c with cache := c.cache.put username e c.now } := by
  refine ⟨h.ttl_eq, h.interval_eq, h.pending, h.now_le, h.le_now, fun u e' hu => ?_⟩
  have hle := h.le_now
  dsimp only [AccountCache.put] at hu ⊢
  by_cases hcase : u = username
  · subst hcase
    rw [Function.update_self, Option.some.injEq] at hu
    rw [← hu]
    dsimp only
    omega
  · rw [Function.update_of_ne hcase] at hu
    exact h.swept u e' hu

/-- A new period starts with a clean-up. -/
lemma cleanup (h : c.Swept delay ttl interval) {timer : Timer}
    (ht : c.timer.runFired = some timer) :
    (startCleanupTimer { c with
      cache := c.cache.cleanupExpiredEntries c.now
      timer := timer }).Swept delay ttl interval := by
  obtain ⟨httl, hinterval, hpending, hnow, hle, hswept⟩ := h
  obtain ⟨hfired, rfl⟩ := Timer.runFired_eq_some.1 ht
  simp only [Timer.live] at hpending
  refine ⟨httl, hinterval, ?_, ?_, ?_, fun u e hu => ?_⟩
  · simp only [startCleanupTimer, Timer.live, Timer.restart_armed, Timer.restart_fired]
    omega
  · simp only [startCleanupTimer]
    omega
  · simp only [startCleanupTimer, hinterval, Nat.le_refl]
  · -- an entry that survived was not expired
    have hkept : (!c.cache.expired c.now e) = true := (Option.filter_eq_some_iff.1 hu).2
    simp only [AccountCache.expired, Bool.not_eq_true', decide_eq_false_iff_not, not_lt,
      httl] at hkept
    simp only [startCleanupTimer, hinterval]
    omega

/-- **One step** of a punctual run. -/
lemma step (h : c.Swept delay ttl interval) (hok : c.Punctual delay e)
    (hstep : c.step e = some c') : c'.Swept delay ttl interval := by
  cases e with
  | put username entry =>
    cases hstep
    exact h.update username entry
  | get username =>
    cases hstep
    unfold AccountCache.get
    split
    · exact h
    · rename_i entry hentry
      dsimp only
      split_ifs
      · exact h
      · exact h.update username entry
  | invalidate username =>
    cases hstep
    refine ⟨h.ttl_eq, h.interval_eq, h.pending, h.now_le, h.le_now, fun u e' hu => ?_⟩
    dsimp only [AccountCache.invalidate] at hu
    by_cases hcase : u = username
    · subst hcase
      simp at hu
    · rw [Function.update_of_ne hcase] at hu
      exact h.swept u e' hu
  | tick ticks =>
    cases hstep
    refine ⟨h.ttl_eq, h.interval_eq, h.pending, hok, ?_, h.swept⟩
    exact h.le_now.trans (Nat.add_le_add_right (Nat.le_add_right _ _) _)
  | expire =>
    simp only [CacheService.step, Option.ite_none_right_eq_some, Option.map_eq_some_iff] at hstep
    obtain ⟨-, timer, ht, rfl⟩ := hstep
    obtain ⟨harmed, rfl⟩ := Timer.expire_eq_some.1 ht
    refine ⟨h.ttl_eq, h.interval_eq, ?_, h.now_le, h.le_now, h.swept⟩
    have := h.pending
    simp only [Timer.live] at this ⊢
    omega
  | cleanup =>
    simp only [CacheService.step, Option.map_eq_some_iff] at hstep
    obtain ⟨timer, ht, rfl⟩ := hstep
    exact h.cleanup ht
  | aborted =>
    simp only [CacheService.step, Option.map_eq_some_iff] at hstep
    obtain ⟨timer, ht, rfl⟩ := hstep
    obtain ⟨-, rfl⟩ := Timer.runAborted_eq_some.1 ht
    exact ⟨h.ttl_eq, h.interval_eq, h.pending, h.now_le, h.le_now, h.swept⟩
  | stop => exact hok.elim

end Swept

/-- **How long an entry stays.** In every run from the start without `stop` in which no clean-up
that is due is late by more than `delay`, with any operations at any times: exactly one clean-up is
pending at any time, and no entry is in the map longer than `ttl + interval + delay` after its last
access.

**Proof sketch.** A clean-up leaves no entry older than `ttl`, and the next one comes after
`interval`, or `delay` later. -/
theorem age_le (delay ttl interval now : ℕ) (es : List CacheEvent) (c : CacheService)
    (hrun : Run.exec step (start ttl interval now) es = some c)
    (hok : Run.StepsMeet step (Punctual delay) (start ttl interval now) es) :
    c.timer.live = 1 ∧
      ∀ u e, c.cache.cache u = some e → c.now ≤ e.lastAccess + ttl + interval + delay := by
  have hswept : c.Swept delay ttl interval :=
    (Run.always_of_stepsMeet (P := Swept delay ttl interval) (fun s e s' hs hok h => hs.step hok h)
      (swept_start delay ttl interval now) hok).last hrun
  refine ⟨hswept.pending, fun u e hu => ?_⟩
  have hsince := hswept.swept u e hu
  have hlate := hswept.now_le
  omega

/-- A name stored at 10, with a time to live of 300 and a clean-up every 60: the first clean-up
keeps it, and the second one is late by 2. -/
def agingEvents : List CacheEvent :=
  [.tick 10, .put [65] { salt := [], verifier := [] }, .tick 50, .expire, .cleanup, .tick 62]

/-- The bound for that run. -/
theorem age_le_aging :
    ∃ c, Run.exec step (start 300 60 0) agingEvents = some c ∧ c.timer.live = 1 ∧
      ∀ u e, c.cache.cache u = some e → c.now ≤ e.lastAccess + 300 + 60 + 2 := by
  refine ⟨_, rfl, ?_⟩
  refine age_le 2 300 60 0 agingEvents _ rfl ?_
  simp [agingEvents, Run.StepsMeet, Punctual, step, start, startCleanupTimer, Timer.restart,
    Timer.cancel, Timer.expire, Timer.runFired]

end CacheService

end Purity
