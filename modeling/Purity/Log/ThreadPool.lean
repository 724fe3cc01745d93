import Purity.Base.CondVar
import Purity.Log.CircularQ

set_option relaxedAutoImplicit false
set_option autoImplicit false

/-!
# The thread pool of the logger

`Logger` hands its records to an `async_logger` of spdlog with the policy `block`: a log call locks
`queue_mutex_`, waits on `pop_cv_` until the ring has room, puts its message in and notifies
`push_cv_`; a worker waits on `push_cv_` until there is a message, takes it, notifies `pop_cv_` and
handles it. The registry holds the pool, and so does every log call while it runs; when the last of
them lets go, the destructor sends each worker a `terminate` and joins it.

## Main definitions

* `Purity.ThreadPool` — the queue, its two condition variables, the log calls and the workers.
* `Purity.ThreadPool.enqueue`, `dequeue`, `processMsg` — what they do under the lock and after.
* `Purity.LogPoolEvent`, `Purity.ThreadPool.step` — what a thread does next, each atomic.
* `Purity.ThreadPool.Sound` — the invariant: where every message is, and in which order.

## Main results

* `Purity.ThreadPool.nothing_lost` — no message is lost, dropped or handled twice; with one worker
  all are handled in the order in which they were enqueued; and when the workers have finished,
  every message of every log call that got the pool has been handled.
* `Purity.ThreadPool.can_finish` — the pool is never stuck: the threads under way can get every
  message handled, and after a shutdown every worker finished.

## Implementation notes

A log call keeps the pool until after its `notify_one`. That a worker calls `notify_one` before it
handles its message is not modelled: the two may come in either order. What a sink does with a
record is not modelled here.
-/

namespace Purity

/-- `async_msg`: a record, a flush, or the end of a worker. -/
inductive AsyncMsg (ρ : Type) where
  | log (record : ρ)
  | flush
  | terminate
  deriving DecidableEq, Repr, Inhabited

/-- The message ends a worker. -/
def AsyncMsg.isTerminate {ρ : Type} : AsyncMsg ρ → Bool
  | terminate => true
  | _ => false

/-- A `thread_pool`: the ring and the two condition variables of its queue, where a log call waits
with its message; the calls that have yet to lock the mutex; the workers that are to lock it, the
messages they are handling and how many of them have finished; whether the registry holds the pool;
and, while the destructor runs, how many times it has yet to post `terminate`. The rest is history.
-/
structure ThreadPool (ρ : Type) where
  threads : ℕ
  q : CircularQ (AsyncMsg ρ)
  pushCv : CondVar Unit := {}
  popCv : CondVar (AsyncMsg ρ) := {}
  posting : List (AsyncMsg ρ) := []
  ready : ℕ
  handling : List (AsyncMsg ρ) := []
  finished : ℕ := 0
  registered : Bool := true
  terminates : Option ℕ := none
  accepted : List (AsyncMsg ρ) := []
  rejected : List (AsyncMsg ρ) := []
  enqueued : List (AsyncMsg ρ) := []
  dequeued : List (AsyncMsg ρ) := []
  handled : List (AsyncMsg ρ) := []

/-- What a thread does next. -/
inductive LogPoolEvent (ρ : Type) where
  /-- a thread logs a record -/
  | log (record : ρ)
  /-- a thread calls `flush` -/
  | flush
  /-- the `i`-th call of `enqueue` that has just begun locks the mutex -/
  | lock (i : ℕ)
  /-- the `i`-th call that has left its wait locks the mutex again -/
  | relockCall (i : ℕ)
  /-- a thread that has enqueued calls `push_cv_.notify_one`, which lets the `i`-th worker go -/
  | notifyPush (i : ℕ)
  /-- a worker locks the mutex in `dequeue` -/
  | dequeue
  /-- the `i`-th worker that has left its wait locks the mutex again -/
  | relockWorker (i : ℕ)
  /-- a worker calls `pop_cv_.notify_one`, which lets the `i`-th call go -/
  | notifyPop (i : ℕ)
  /-- the wait of the `i`-th blocked call ends spuriously -/
  | wakeCall (i : ℕ)
  /-- the wait of the `i`-th blocked worker ends spuriously -/
  | wakeWorker (i : ℕ)
  /-- the `i`-th message in hand has been handled -/
  | handle (i : ℕ)
  /-- `spdlog::shutdown`: the registry lets go of the pool -/
  | shutdown
  /-- nobody holds the pool any more: the destructor begins -/
  | destroy
  /-- the destructor posts a `terminate` -/
  | terminate

namespace ThreadPool

variable {ρ : Type}

/-- The constructor, for a queue of `n` messages and `threads` workers. -/
def new [Inhabited ρ] (n threads : ℕ) (hn : n + 1 < 2 ^ 64) : ThreadPool ρ where
  threads := threads
  q := .new n hn
  ready := threads

section Step

variable (p : ThreadPool ρ)

/-- The messages of calls of `enqueue` that are not in the queue yet. -/
def pending : List (AsyncMsg ρ) := p.posting ++ p.popCv.threads

/-- The number of calls of `enqueue` that have not returned. -/
def calls : ℕ := p.pending.length + p.pushCv.notifying

/-- A call of the logger: `thread_pool_.lock()` gives the pool as long as somebody holds it. -/
def call (msg : AsyncMsg ρ) : ThreadPool ρ :=
  if p.terminates.isNone && (p.registered || p.calls != 0) then
    { p with posting := p.posting ++ [msg], accepted := p.accepted ++ [msg] }
  else { p with rejected := p.rejected ++ [msg] }

/-- `enqueue` with the lock: the call blocks if there is no room. -/
def enqueue (msg : AsyncMsg ρ) : ThreadPool ρ :=
  if p.q.full then { p with popCv := p.popCv.block msg }
  else { p with
    q := p.q.pushBack msg
    enqueued := p.enqueued ++ [msg]
    pushCv := p.pushCv.changed }

/-- `dequeue` with the lock: the worker blocks if there is no message. -/
def dequeue : ThreadPool ρ :=
  if p.q.empty then { p with pushCv := p.pushCv.block () }
  else { p with
    q := p.q.popFront
    dequeued := p.dequeued ++ [p.q.front]
    handling := p.handling ++ [p.q.front]
    popCv := p.popCv.changed }

/-- The rest of `process_next_msg_`: after a `terminate` the worker leaves its loop. -/
def processMsg (msg : AsyncMsg ρ) : ThreadPool ρ :=
  if msg.isTerminate then { p with handled := p.handled ++ [msg], finished := p.finished + 1 }
  else { p with handled := p.handled ++ [msg], ready := p.ready + 1 }

/-- One step of the threads; `none` if the event is not possible. -/
def step : LogPoolEvent ρ → Option (ThreadPool ρ)
  | .log record => some (p.call (.log record))
  | .flush => some (p.call .flush)
  | .lock i =>
    p.posting[i]?.map fun msg => enqueue { p with posting := p.posting.eraseIdx i } msg
  | .relockCall i => (p.popCv.relock i).map fun (t, cv) => enqueue { p with popCv := cv } t.1
  | .notifyPush i => (p.pushCv.notifyOne i).map fun cv => { p with pushCv := cv }
  | .dequeue => if p.ready = 0 then none else some (dequeue { p with ready := p.ready - 1 })
  | .relockWorker i => (p.pushCv.relock i).map fun (_, cv) => dequeue { p with pushCv := cv }
  | .notifyPop i => (p.popCv.notifyOne i).map fun cv => { p with popCv := cv }
  | .wakeCall i => (p.popCv.wake i false).map fun cv => { p with popCv := cv }
  | .wakeWorker i => (p.pushCv.wake i false).map fun cv => { p with pushCv := cv }
  | .handle i =>
    p.handling[i]?.map fun msg => processMsg { p with handling := p.handling.eraseIdx i } msg
  | .shutdown => some { p with registered := false }
  | .destroy =>
    if p.terminates.isNone ∧ p.registered = false ∧ p.calls = 0 then
      some { p with terminates := some p.threads } else none
  | .terminate =>
    match p.terminates with
    | some (k + 1) =>
      if p.calls = 0 then
        some { p with terminates := some k, posting := p.posting ++ [.terminate] } else none
    | _ => none

end Step

/-! ## Transitions -/

/-- Without a call that has got the lock to enqueue `msg`, the calls would be those in `posting` and
at `cv`. -/
structure Entering (p : ThreadPool ρ) (msg : AsyncMsg ρ) (posting : List (AsyncMsg ρ))
    (cv : CondVar (AsyncMsg ρ)) : Prop where
  pending : (msg :: (posting ++ cv.threads)).Perm p.pending
  alert : ∀ n, p.popCv.Alert n → cv.Alert (n - 1)

/-- Without a worker that has got the lock, `ready` workers would be to lock it, and the others that
wait at `cv`. -/
structure Looking (p : ThreadPool ρ) (ready : ℕ) (cv : CondVar Unit) : Prop where
  workers : ready + cv.threads.length + 1 = p.ready + p.pushCv.threads.length
  alert : ∀ n, p.pushCv.Alert n → cv.Alert (n - 1)

/-- The ways a step can end. -/
inductive Transition (p : ThreadPool ρ) : ThreadPool ρ → Prop where
  | call (msg : AsyncMsg ρ) (hmsg : msg.isTerminate = false) (hnone : p.terminates = none) :
    Transition p { p with posting := p.posting ++ [msg], accepted := p.accepted ++ [msg] }
  | reject (msg : AsyncMsg ρ) : Transition p { p with rejected := p.rejected ++ [msg] }
  | block (msg : AsyncMsg ρ) (posting : List (AsyncMsg ρ)) (cv : CondVar (AsyncMsg ρ))
    (hcall : Entering p msg posting cv) (hfull : p.q.full = true) :
    Transition p { p with posting := posting, popCv := cv.block msg }
  | push (msg : AsyncMsg ρ) (posting : List (AsyncMsg ρ)) (cv : CondVar (AsyncMsg ρ))
    (hcall : Entering p msg posting cv) (hroom : p.q.full = false) :
    Transition p { p with
      posting := posting
      popCv := cv
      q := p.q.pushBack msg
      enqueued := p.enqueued ++ [msg]
      pushCv := p.pushCv.changed }
  | idle (ready : ℕ) (cv : CondVar Unit) (hworker : Looking p ready cv)
    (hempty : p.q.items = []) : Transition p { p with ready := ready, pushCv := cv.block () }
  | pop (ready : ℕ) (cv : CondVar Unit) (hworker : Looking p ready cv)
    (hne : p.q.items ≠ []) :
    Transition p { p with
      ready := ready
      pushCv := cv
      q := p.q.popFront
      dequeued := p.dequeued ++ [p.q.front]
      handling := p.handling ++ [p.q.front]
      popCv := p.popCv.changed }
  | atPush (cv : CondVar Unit) (hperm : cv.threads.Perm p.pushCv.threads)
    (halert : ∀ n, p.pushCv.Alert n → cv.Alert n) : Transition p { p with pushCv := cv }
  | atPop (cv : CondVar (AsyncMsg ρ)) (hperm : cv.threads.Perm p.popCv.threads)
    (halert : ∀ n, p.popCv.Alert n → cv.Alert n) : Transition p { p with popCv := cv }
  | handle (i : ℕ) (msg : AsyncMsg ρ) (hi : p.handling[i]? = some msg) :
    Transition p (processMsg { p with handling := p.handling.eraseIdx i } msg)
  | shutdown : Transition p { p with registered := false }
  | destroy (hnone : p.terminates = none) (hreg : p.registered = false) (hcalls : p.calls = 0) :
    Transition p { p with terminates := some p.threads }
  | terminate (k : ℕ) (hsome : p.terminates = some (k + 1)) (hcalls : p.calls = 0) :
    Transition p { p with terminates := some k, posting := p.posting ++ [.terminate] }

variable {p p' : ThreadPool ρ}

/-- What a call of `enqueue` does with the lock. -/
lemma transition_enqueue {msg : AsyncMsg ρ} {posting : List (AsyncMsg ρ)}
    {cv : CondVar (AsyncMsg ρ)} (hcall : Entering p msg posting cv) :
    Transition p (enqueue { p with posting := posting, popCv := cv } msg) := by
  unfold enqueue
  split_ifs with hfull
  · exact .block msg posting cv hcall hfull
  · exact .push msg posting cv hcall (by simpa using hfull)

/-- What a worker does with the lock. -/
lemma transition_dequeue {ready : ℕ} {cv : CondVar Unit} (hworker : Looking p ready cv) :
    Transition p (dequeue { p with ready := ready, pushCv := cv }) := by
  unfold dequeue
  split_ifs with hempty
  · exact .idle ready cv hworker ((CircularQ.empty_iff p.q).1 hempty)
  · exact .pop ready cv hworker fun h => hempty ((CircularQ.empty_iff p.q).2 h)

/-- What a call of the logger does. -/
lemma transition_call {msg : AsyncMsg ρ} (hmsg : msg.isTerminate = false) :
    Transition p (p.call msg) := by
  unfold call
  split_ifs with h
  · exact .call msg hmsg (by simpa using (Bool.and_eq_true_iff.1 h).1)
  · exact .reject msg

/-- **Every step is one of the transitions.** -/
lemma step_transition {e : LogPoolEvent ρ} (hstep : p.step e = some p') : Transition p p' := by
  cases e with
  | log record =>
    cases hstep
    exact transition_call rfl
  | flush =>
    cases hstep
    exact transition_call rfl
  | lock i =>
    simp only [step, Option.map_eq_some_iff] at hstep
    obtain ⟨msg, hi, rfl⟩ := hstep
    obtain ⟨hlt, rfl⟩ := List.getElem?_eq_some_iff.1 hi
    refine transition_enqueue ⟨?_, fun n h => h.mono (Nat.sub_le n 1)⟩
    exact (List.getElem_cons_eraseIdx_perm hlt).append_right _
  | relockCall i =>
    simp only [step, Option.map_eq_some_iff] at hstep
    obtain ⟨⟨t, cv⟩, h, rfl⟩ := hstep
    refine transition_enqueue ⟨?_, fun n halert => halert.relock h⟩
    exact List.perm_middle.symm.trans ((CondVar.threads_relock h).append_left _)
  | notifyPush i =>
    simp only [step, Option.map_eq_some_iff] at hstep
    obtain ⟨cv, h, rfl⟩ := hstep
    exact .atPush cv (CondVar.threads_notifyOne h) fun n halert => halert.notifyOne h
  | dequeue =>
    simp only [step, Option.ite_none_left_eq_some, Option.some.injEq] at hstep
    obtain ⟨hready, rfl⟩ := hstep
    exact transition_dequeue ⟨by omega, fun n h => h.mono (Nat.sub_le n 1)⟩
  | relockWorker i =>
    simp only [step, Option.map_eq_some_iff] at hstep
    obtain ⟨⟨t, cv⟩, h, rfl⟩ := hstep
    have hlen := (CondVar.threads_relock h).length_eq
    rw [List.length_cons] at hlen
    have hworker : Looking p p.ready cv := ⟨by omega, fun n halert => halert.relock h⟩
    exact transition_dequeue hworker
  | notifyPop i =>
    simp only [step, Option.map_eq_some_iff] at hstep
    obtain ⟨cv, h, rfl⟩ := hstep
    exact .atPop cv (CondVar.threads_notifyOne h) fun n halert => halert.notifyOne h
  | wakeCall i =>
    simp only [step, Option.map_eq_some_iff] at hstep
    obtain ⟨cv, h, rfl⟩ := hstep
    exact .atPop cv (CondVar.threads_wake h) fun n halert => halert.wake h
  | wakeWorker i =>
    simp only [step, Option.map_eq_some_iff] at hstep
    obtain ⟨cv, h, rfl⟩ := hstep
    exact .atPush cv (CondVar.threads_wake h) fun n halert => halert.wake h
  | handle i =>
    simp only [step, Option.map_eq_some_iff] at hstep
    obtain ⟨msg, hi, rfl⟩ := hstep
    exact .handle i msg hi
  | shutdown =>
    cases hstep
    exact .shutdown
  | destroy =>
    simp only [step, Option.ite_none_right_eq_some, Option.some.injEq] at hstep
    obtain ⟨⟨hnone, hreg, hcalls⟩, rfl⟩ := hstep
    exact .destroy (by simpa using hnone) hreg hcalls
  | terminate =>
    simp only [step] at hstep
    split at hstep
    · rename_i k hsome
      simp only [Option.ite_none_right_eq_some, Option.some.injEq] at hstep
      obtain ⟨hcalls, rfl⟩ := hstep
      exact .terminate k hsome hcalls
    · cases hstep

/-! ## No lost wakeup -/

/-- The ring has its capacity, has never been overrun, and no wakeup is lost: neither that of a
worker for a message nor that of a call for room. -/
structure Awake (n : ℕ) (p : ThreadPool ρ) : Prop where
  maxItems : p.q.maxItems = n + 1
  noOverrun : p.q.overrunCounter = 0
  push : p.pushCv.Alert p.q.items.length
  pop : p.popCv.Alert (n - p.q.items.length)

/-- The queue has room for as long as there are fewer messages than its capacity. -/
lemma Awake.full_iff {n : ℕ} (h : Awake n p) : p.q.full = true ↔ p.q.items.length = n := by
  rw [CircularQ.full_iff, h.maxItems]
  omega

/-- There are never more. -/
lemma Awake.length_le {n : ℕ} (h : Awake n p) : p.q.items.length ≤ n := by
  have hlt := p.q.size_lt
  rw [← CircularQ.length_items, h.maxItems] at hlt
  omega

/-- **One step** loses no wakeup. -/
lemma Awake.step {n : ℕ} (h : Awake n p) (htr : Transition p p') : Awake n p' := by
  cases htr with
  | call => exact ⟨h.maxItems, h.noOverrun, h.push, h.pop⟩
  | reject => exact ⟨h.maxItems, h.noOverrun, h.push, h.pop⟩
  | block msg posting cv hcall hfull =>
    refine ⟨h.maxItems, h.noOverrun, h.push, ?_⟩
    rw [h.full_iff.1 hfull, Nat.sub_self]
    exact CondVar.alert_zero
  | push msg posting cv hcall hroom =>
    have hitems := CircularQ.items_pushBack p.q msg hroom
    refine ⟨h.maxItems, ?_, ?_, ?_⟩
    · rw [CircularQ.overrunCounter_pushBack, hroom]
      exact h.noOverrun
    · rw [hitems, List.length_append, List.length_singleton]
      exact h.push.changed
    · rw [hitems, List.length_append, List.length_singleton, ← Nat.sub_sub]
      exact hcall.alert _ h.pop
  | idle ready cv hworker hempty =>
    refine ⟨h.maxItems, h.noOverrun, ?_, h.pop⟩
    rw [hempty]
    exact CondVar.alert_zero
  | pop ready cv hworker hne =>
    have hitems := CircularQ.items_popFront p.q hne
    have hpos := List.length_pos_iff.2 hne
    have hle := h.length_le
    refine ⟨h.maxItems, h.noOverrun, ?_, ?_⟩
    · rw [hitems, List.length_tail]
      exact hworker.alert _ h.push
    · have hroom : n - (p.q.items.length - 1) = n - p.q.items.length + 1 := by omega
      rw [hitems, List.length_tail, hroom]
      exact h.pop.changed
  | atPush cv hperm halert => exact ⟨h.maxItems, h.noOverrun, halert _ h.push, h.pop⟩
  | atPop cv hperm halert => exact ⟨h.maxItems, h.noOverrun, h.push, halert _ h.pop⟩
  | handle i msg hi =>
    unfold processMsg
    split_ifs <;> exact ⟨h.maxItems, h.noOverrun, h.push, h.pop⟩
  | shutdown => exact ⟨h.maxItems, h.noOverrun, h.push, h.pop⟩
  | destroy => exact ⟨h.maxItems, h.noOverrun, h.push, h.pop⟩
  | terminate => exact ⟨h.maxItems, h.noOverrun, h.push, h.pop⟩

/-! ## Where the messages are -/

/-- Every message is accounted for: the ring holds what was enqueued and not dequeued, in that
order; what was dequeued is handled or in hand; the log calls' messages are in the queue's history
or still with their calls; and every worker is somewhere, or has handled a `terminate`. -/
structure Kept (p : ThreadPool ρ) : Prop where
  inOrder : p.dequeued ++ p.q.items = p.enqueued
  taken : (p.handled ++ p.handling).Perm p.dequeued
  works : ((p.enqueued ++ p.pending).filter fun msg => !msg.isTerminate).Perm p.accepted
  workers : p.ready + p.pushCv.threads.length + p.handling.length + p.finished = p.threads
  finished : p.finished = p.handled.countP AsyncMsg.isTerminate

/-- A call that is added to `posting` is one more message. -/
lemma perm_posting (xs posting ts : List (AsyncMsg ρ)) (msg : AsyncMsg ρ) :
    (xs ++ ((posting ++ [msg]) ++ ts)).Perm (msg :: (xs ++ (posting ++ ts))) := by
  have h : xs ++ ((posting ++ [msg]) ++ ts) = (xs ++ posting) ++ msg :: ts := by simp
  rw [h, ← List.append_assoc]
  exact List.perm_middle

/-- A call that blocks keeps its message. -/
lemma Entering.block {msg : AsyncMsg ρ} {posting : List (AsyncMsg ρ)}
    {cv : CondVar (AsyncMsg ρ)} (h : Entering p msg posting cv) :
    (posting ++ (cv.block msg).threads).Perm p.pending :=
  (((CondVar.threads_block msg).append_left posting).trans List.perm_middle).trans h.pending

/-- A call that enqueues puts its message into the queue. -/
lemma Entering.push {msg : AsyncMsg ρ} {posting : List (AsyncMsg ρ)}
    {cv : CondVar (AsyncMsg ρ)} (h : Entering p msg posting cv) (xs : List (AsyncMsg ρ)) :
    ((xs ++ [msg]) ++ (posting ++ cv.threads)).Perm (xs ++ p.pending) := by
  rw [List.append_assoc, List.singleton_append]
  exact h.pending.append_left xs

/-- **One step** loses no message. -/
lemma Kept.step (h : Kept p) (htr : Transition p p') : Kept p' := by
  obtain ⟨hinOrder, htaken, hworks, hworkers, hfinished⟩ := h
  cases htr with
  | call msg hmsg hnone =>
    refine ⟨hinOrder, htaken, ?_, hworkers, hfinished⟩
    refine ((perm_posting _ _ _ msg).filter _).trans ?_
    rw [List.filter_cons_of_pos (by simp [hmsg])]
    exact (hworks.cons msg).trans (List.perm_append_singleton msg p.accepted).symm
  | reject msg => exact ⟨hinOrder, htaken, hworks, hworkers, hfinished⟩
  | block msg posting cv hcall hfull =>
    refine ⟨hinOrder, htaken, ?_, hworkers, hfinished⟩
    exact ((hcall.block.append_left p.enqueued).filter _).trans hworks
  | push msg posting cv hcall hroom =>
    refine ⟨?_, htaken, ?_, hworkers, hfinished⟩
    · rw [CircularQ.items_pushBack p.q msg hroom, ← List.append_assoc, hinOrder]
    · exact ((hcall.push p.enqueued).filter _).trans hworks
  | idle ready cv hworker hempty =>
    refine ⟨hinOrder, htaken, hworks, ?_, hfinished⟩
    have hblock : (cv.block ()).threads.Perm (() :: cv.threads) := CondVar.threads_block ()
    have hlen := hblock.length_eq
    have := hworker.workers
    rw [List.length_cons] at hlen
    simp only
    omega
  | pop ready cv hworker hne =>
    obtain ⟨msg, rest, hcons⟩ := List.exists_cons_of_ne_nil hne
    have hfront : p.q.front = msg := by
      have := CircularQ.head?_items p.q hne
      rw [hcons] at this
      exact (Option.some.inj this).symm
    refine ⟨?_, ?_, ?_, ?_, hfinished⟩
    · rw [CircularQ.items_popFront p.q hne, hcons, hfront, ← hinOrder, hcons]
      simp
    · rw [← List.append_assoc]
      exact htaken.append_right _
    · exact hworks
    · have := hworker.workers
      simp only [List.length_append, List.length_singleton]
      omega
  | atPush cv hperm halert =>
    refine ⟨hinOrder, htaken, hworks, ?_, hfinished⟩
    simpa only [hperm.length_eq] using hworkers
  | atPop cv hperm halert =>
    refine ⟨hinOrder, htaken, ?_, hworkers, hfinished⟩
    exact (((hperm.append_left p.posting).append_left p.enqueued).filter _).trans hworks
  | handle i msg hi =>
    obtain ⟨hlt, rfl⟩ := List.getElem?_eq_some_iff.1 hi
    have hlen := List.length_eraseIdx_of_lt hlt
    have hperm : ((p.handled ++ [p.handling[i]]) ++ p.handling.eraseIdx i).Perm
        (p.handled ++ p.handling) := by
      rw [List.append_assoc, List.singleton_append]
      exact (List.getElem_cons_eraseIdx_perm hlt).append_left _
    unfold processMsg
    split_ifs with hmsg
    · refine ⟨hinOrder, hperm.trans htaken, hworks, ?_, ?_⟩
      · simp only [hlen]
        omega
      · simp [List.countP_append, hmsg, hfinished]
    · refine ⟨hinOrder, hperm.trans htaken, hworks, ?_, ?_⟩
      · simp only [hlen]
        omega
      · simp [List.countP_append, hmsg, hfinished]
  | shutdown => exact ⟨hinOrder, htaken, hworks, hworkers, hfinished⟩
  | destroy => exact ⟨hinOrder, htaken, hworks, hworkers, hfinished⟩
  | terminate k hsome hcalls =>
    refine ⟨hinOrder, htaken, ?_, hworkers, hfinished⟩
    refine ((perm_posting _ _ _ .terminate).filter _).trans ?_
    rw [List.filter_cons_of_neg (by simp [AsyncMsg.isTerminate])]
    exact hworks

/-! ## The end of the pool -/

/-- Before the destructor runs there is no `terminate`; then nobody but the destructor posts
anything, so that no message comes after a `terminate`. -/
structure Ending (p : ThreadPool ρ) : Prop where
  before : p.terminates = none → ∀ msg ∈ p.enqueued ++ p.pending, msg.isTerminate = false
  after : p.terminates.isSome = true →
    p.registered = false ∧ ∀ msg ∈ p.pending, msg.isTerminate = true
  left : ∀ k, p.terminates = some k →
    (p.enqueued ++ p.pending).countP AsyncMsg.isTerminate + k = p.threads
  last : p.enqueued.Pairwise fun a b => a.isTerminate = true → b.isTerminate = true

/-- What is pending may move about. -/
lemma Ending.of_perm (h : Ending p) (hterm : p'.terminates = p.terminates)
    (hreg : p.registered = false → p'.registered = false) (hthreads : p'.threads = p.threads)
    (henq : p'.enqueued = p.enqueued) (hpend : p'.pending.Perm p.pending) : Ending p' := by
  refine ⟨?_, ?_, ?_, by rw [henq]; exact h.last⟩
  · intro hnone msg hmsg
    rw [henq] at hmsg
    exact h.before (hterm ▸ hnone) msg ((hpend.append_left p.enqueued).subset hmsg)
  · intro hsome
    obtain ⟨hfalse, hall⟩ := h.after (hterm ▸ hsome)
    exact ⟨hreg hfalse, fun msg hmsg => hall msg (hpend.subset hmsg)⟩
  · intro k hk
    rw [henq, hthreads, (hpend.append_left p.enqueued).countP_eq]
    exact h.left k (hterm ▸ hk)

/-- No call is under way: nothing is pending. -/
lemma pending_eq_nil (hcalls : p.calls = 0) : p.pending = [] := by
  rw [calls, Nat.add_eq_zero_iff] at hcalls
  exact List.eq_nil_of_length_eq_zero hcalls.1

/-- **One step** keeps the end in order. -/
lemma Ending.step (h : Ending p) (htr : Transition p p') : Ending p' := by
  cases htr with
  | call msg hmsg hnone =>
    refine ⟨?_, fun hsome => by simp [hnone] at hsome, fun k hk => by simp [hnone] at hk, h.last⟩
    intro _ m hm
    rcases List.mem_cons.1 ((perm_posting _ _ _ msg).subset hm) with rfl | hm
    · exact hmsg
    · exact h.before hnone m hm
  | reject msg => exact h.of_perm rfl id rfl rfl (.refl _)
  | block msg posting cv hcall hfull => exact h.of_perm rfl id rfl rfl hcall.block
  | push msg posting cv hcall hroom =>
    have hmem : msg ∈ p.pending := hcall.pending.subset List.mem_cons_self
    refine ⟨?_, ?_, ?_, ?_⟩
    · intro hnone m hm
      exact h.before hnone m ((hcall.push p.enqueued).subset hm)
    · intro hsome
      obtain ⟨hreg, hall⟩ := h.after hsome
      exact ⟨hreg, fun m hm => hall m (hcall.pending.subset (List.mem_cons_of_mem msg hm))⟩
    · intro k hk
      rw [← h.left k hk]
      exact congrArg (· + k) ((hcall.push p.enqueued).countP_eq _)
    · refine List.pairwise_append.2 ⟨h.last, List.pairwise_singleton _ _, ?_⟩
      intro a ha b hb hterm
      obtain rfl : b = msg := List.mem_singleton.1 hb
      cases hsome : p.terminates with
      | none => simp [h.before hsome a (List.mem_append_left _ ha)] at hterm
      | some k => exact (h.after (by simp [hsome])).2 b hmem
  | idle ready cv hworker hempty => exact h.of_perm rfl id rfl rfl (.refl _)
  | pop ready cv hworker hne => exact h.of_perm rfl id rfl rfl (.refl _)
  | atPush cv hperm halert => exact h.of_perm rfl id rfl rfl (.refl _)
  | atPop cv hperm halert =>
    exact h.of_perm rfl id rfl rfl (hperm.append_left p.posting)
  | handle i msg hi =>
    unfold processMsg
    split_ifs <;> exact h.of_perm rfl id rfl rfl (.refl _)
  | shutdown => exact h.of_perm rfl (fun _ => rfl) rfl rfl (.refl _)
  | destroy hnone hreg hcalls =>
    have hnil := pending_eq_nil hcalls
    refine ⟨fun hterm => by simp at hterm, fun _ => ⟨hreg, fun m hm => ?_⟩, fun k hk => ?_, h.last⟩
    · rw [show (pending { p with terminates := some p.threads }) = [] from hnil] at hm
      simp at hm
    · obtain rfl : p.threads = k := Option.some.inj hk
      have hcount : (p.enqueued ++ p.pending).countP AsyncMsg.isTerminate = 0 := by
        rw [List.countP_eq_zero]
        intro m hm
        simp [h.before hnone m hm]
      change (p.enqueued ++ p.pending).countP AsyncMsg.isTerminate + p.threads = p.threads
      omega
  | terminate k hsome hcalls =>
    have hnil := pending_eq_nil hcalls
    refine ⟨fun hterm => by simp at hterm, fun _ => ⟨?_, fun m hm => ?_⟩, fun j hj => ?_, h.last⟩
    · exact (h.after (by simp [hsome])).1
    · rcases List.mem_cons.1 ((perm_posting [] _ _ .terminate).subset hm) with rfl | hm
      · rfl
      · exact (h.after (by simp [hsome])).2 m hm
    · obtain rfl : k = j := Option.some.inj hj
      have hleft := h.left (k + 1) hsome
      have hcount := (perm_posting p.enqueued p.posting p.popCv.threads
        AsyncMsg.terminate).countP_eq AsyncMsg.isTerminate
      rw [List.countP_cons_of_pos rfl] at hcount
      change (p.enqueued ++ ((p.posting ++ [AsyncMsg.terminate]) ++ p.popCv.threads)).countP
        AsyncMsg.isTerminate + k = p.threads
      rw [pending] at hleft
      omega

/-! ## Every run -/

/-- A state that a pool for `n` messages with so many workers can reach. -/
structure Sound (n threads : ℕ) (p : ThreadPool ρ) : Prop where
  threads : p.threads = threads
  awake : Awake n p
  kept : Kept p
  ending : Ending p

/-- No step starts or joins a worker. -/
lemma Transition.threads (htr : Transition p p') : p'.threads = p.threads := by
  cases htr with
  | handle i msg hi => unfold processMsg; split_ifs <;> rfl
  | _ => rfl

/-- **One step** keeps a state sound. -/
lemma Sound.step {n threads : ℕ} (h : Sound n threads p) (htr : Transition p p') :
    Sound n threads p' :=
  ⟨htr.threads.trans h.threads, h.awake.step htr, h.kept.step htr, h.ending.step htr⟩

/-- A pool just constructed is sound. -/
lemma sound_new [Inhabited ρ] (n threads : ℕ) (hn : n + 1 < 2 ^ 64) :
    Sound n threads (new n threads hn : ThreadPool ρ) := by
  refine ⟨rfl, ⟨rfl, rfl, ?_, ?_⟩, ⟨rfl, .refl _, .refl _, rfl, rfl⟩, ⟨?_, ?_, ?_, .nil⟩⟩
  · exact CondVar.alert_zero
  · exact fun hne => absurd rfl hne
  · exact fun _ msg hmsg => by simp [new, pending, CondVar.threads] at hmsg
  · exact fun hsome => by simp [new] at hsome
  · exact fun k hk => by simp [new] at hk

/-- Every state that a pool reaches is sound. -/
lemma sound_of_exec [Inhabited ρ] {n threads : ℕ} {hn : n + 1 < 2 ^ 64}
    {es : List (LogPoolEvent ρ)} {p : ThreadPool ρ}
    (hrun : Run.exec step (new n threads hn) es = some p) : Sound n threads p :=
  Run.exec_invariant (I := Sound n threads) (fun _ _ _ h hstep => h.step (step_transition hstep))
    (sound_new n threads hn) hrun

/-- A single worker handles one message after the other. -/
lemma single_step {n : ℕ} (h : Sound n 1 p) (hsingle : p.handled ++ p.handling = p.dequeued)
    (htr : Transition p p') : p'.handled ++ p'.handling = p'.dequeued := by
  have hworkers := h.kept.workers
  rw [h.threads] at hworkers
  cases htr with
  | pop ready cv hworker hne =>
    have := hworker.workers
    have hnil : p.handling = [] := List.eq_nil_of_length_eq_zero (by omega)
    simp only [hnil, List.append_nil] at hsingle
    simp [hnil, hsingle]
  | handle i msg hi =>
    obtain ⟨hlt, rfl⟩ := List.getElem?_eq_some_iff.1 hi
    obtain ⟨m, hm⟩ := List.length_eq_one_iff.1 (show p.handling.length = 1 by omega)
    have hzero : i = 0 := by simp [hm] at hlt; omega
    subst hzero
    unfold processMsg
    split_ifs <;> simpa [hm] using hsingle
  | _ => exact hsingle

/-- With one worker, everything is handled in the order in which it was enqueued. -/
lemma inOrder_of_single [Inhabited ρ] {n : ℕ} {hn : n + 1 < 2 ^ 64} {es : List (LogPoolEvent ρ)}
    {p : ThreadPool ρ} (hrun : Run.exec step (new n 1 hn) es = some p) :
    p.handled ++ p.handling ++ p.q.items = p.enqueued := by
  have hsingle : Sound n 1 p ∧ p.handled ++ p.handling = p.dequeued := by
    refine Run.exec_invariant (I := fun p : ThreadPool ρ =>
      Sound n 1 p ∧ p.handled ++ p.handling = p.dequeued) ?_ ⟨sound_new n 1 hn, rfl⟩ hrun
    intro p e p' hp hstep
    have htr := step_transition hstep
    exact ⟨hp.1.step htr, single_step hp.1 hp.2 htr⟩
  rw [hsingle.2, hsingle.1.kept.inOrder]

/-- **A pool that has ended** has handled everything.

**Proof sketch.** Each worker has handled a `terminate`, so there is no other one anywhere; but
everything that is still pending or comes after one of them would be one. -/
lemma Sound.ended {n threads : ℕ} (h : Sound n threads p) (hthreads : 0 < threads)
    (hfinished : p.finished = threads) :
    p.pending = [] ∧ p.q.items = [] ∧ p.handling = [] := by
  have hworkers := h.kept.workers
  rw [h.threads] at hworkers
  have hhandling : p.handling = [] := List.eq_nil_of_length_eq_zero (by omega)
  have hdequeued : p.dequeued.countP AsyncMsg.isTerminate = threads := by
    rw [← h.kept.taken.countP_eq, hhandling, List.append_nil, ← h.kept.finished, hfinished]
  -- no `terminate` is left to come
  have hcount : p.q.items.countP AsyncMsg.isTerminate = 0 ∧
      p.pending.countP AsyncMsg.isTerminate = 0 ∧ p.terminates.isSome = true := by
    cases hterm : p.terminates with
    | none =>
      have hbefore := h.ending.before hterm
      rw [← h.kept.inOrder] at hbefore
      have hzero : p.dequeued.countP AsyncMsg.isTerminate = 0 := by
        rw [List.countP_eq_zero]
        intro m hm
        simp [hbefore m (by simp [hm])]
      omega
    | some k =>
      have hleft := h.ending.left k hterm
      rw [← h.kept.inOrder, List.countP_append, List.countP_append, hdequeued, h.threads] at hleft
      exact ⟨by omega, by omega, rfl⟩
  obtain ⟨hitems, hpending, hsome⟩ := hcount
  rw [List.countP_eq_zero] at hitems hpending
  refine ⟨List.eq_nil_iff_forall_not_mem.2 fun m hm => ?_,
    List.eq_nil_iff_forall_not_mem.2 fun m hm => ?_, hhandling⟩
  · exact hpending m hm ((h.ending.after hsome).2 m hm)
  · obtain ⟨t, ht, hterm⟩ := List.countP_pos_iff.1 (hdequeued ▸ hthreads)
    have hlast := h.ending.last
    rw [← h.kept.inOrder, List.pairwise_append] at hlast
    exact hitems m hm (hlast.2.2 t ht m hm hterm)

/-- A single worker that has finished has handled everything, in the order in which it was enqueued.
-/
lemma handled_of_single [Inhabited ρ] {n : ℕ} {hn : n + 1 < 2 ^ 64} {es : List (LogPoolEvent ρ)}
    {p : ThreadPool ρ} (hrun : Run.exec step (new n 1 hn) es = some p)
    (hfinished : p.finished = 1) : p.handled = p.enqueued := by
  obtain ⟨-, hitems, hhandling⟩ := (sound_of_exec hrun).ended Nat.one_pos hfinished
  have horder := inOrder_of_single hrun
  rwa [hitems, hhandling, List.append_nil, List.append_nil] at horder

/-- **No message is lost.** In every run of a pool with any number of workers and any queue size to
which one can be added in `size_t`, with any interleaving of log calls, workers, spurious wakeups
and a shutdown at any time: the ring is never overrun; what has been enqueued is handled, in hand or
in the ring, each message once; what the log calls that got the pool have passed is enqueued or
still with its call. With one worker, everything is handled in the order in which it was enqueued.
And when all workers have finished, every message of such a log call has been handled, whenever the
shutdown came.

**Proof sketch.** `Kept` and `Ending` are invariants; the last part is `Sound.ended`. -/
theorem nothing_lost [Inhabited ρ] (n threads : ℕ) (hfits : n + 1 < 2 ^ 64)
    (es : List (LogPoolEvent ρ)) (p : ThreadPool ρ)
    (hrun : Run.exec step (new n threads hfits) es = some p) :
    (p.q.overrunCounter = 0 ∧ p.q.items.length ≤ n) ∧
      (p.handled ++ p.handling ++ p.q.items).Perm p.enqueued ∧
      ((p.enqueued ++ p.pending).filter fun msg => !msg.isTerminate).Perm p.accepted ∧
      (threads = 1 → p.handled ++ p.handling ++ p.q.items = p.enqueued) ∧
      (0 < threads → p.finished = threads → p.pending = [] ∧
        (p.handled.filter fun msg => !msg.isTerminate).Perm p.accepted) := by
  have h := sound_of_exec hrun
  have hperm : (p.handled ++ p.handling ++ p.q.items).Perm p.enqueued := by
    rw [← h.kept.inOrder]
    exact h.kept.taken.append_right _
  refine ⟨⟨h.awake.noOverrun, h.awake.length_le⟩, hperm, h.kept.works, ?_, ?_⟩
  · rintro rfl
    exact inOrder_of_single hrun
  · intro hthreads hfinished
    obtain ⟨hpending, hitems, hhandling⟩ := h.ended hthreads hfinished
    refine ⟨hpending, ?_⟩
    rw [hitems, hhandling, List.append_nil, List.append_nil] at hperm
    have hworks := h.kept.works
    rw [hpending, List.append_nil] at hworks
    exact (hperm.filter _).trans hworks

/-- One worker, a ring for one message: two log calls, the second of which finds the ring full; the
registry lets go of the pool while they run. -/
def shutdownEvents : List (LogPoolEvent ℕ) :=
  [.log 5, .log 6, .lock 0, .lock 0, .shutdown, .dequeue, .notifyPop 0, .relockCall 0, .handle 0,
    .dequeue, .handle 0, .notifyPush 0, .notifyPush 0, .destroy, .terminate, .lock 0, .dequeue,
    .handle 0]

/-- Both records are handled before the worker finishes. -/
theorem nothing_lost_shutdown :
    ∃ p, Run.exec step (new 1 1 (by decide)) shutdownEvents = some p ∧ p.finished = 1 ∧
      (p.handled.filter fun msg => !msg.isTerminate).Perm [.log 5, .log 6] := by
  refine ⟨_, rfl, rfl, ?_⟩
  exact ((nothing_lost 1 1 (by decide) shutdownEvents _ rfl).2.2.2.2 Nat.one_pos rfl).2

/-! ## Progress -/

/-- The event is a step of a thread under way: no new call of the logger, no `shutdown`, and no
spurious wakeup. -/
def UnderWay : LogPoolEvent ρ → Prop
  | .log _ | .flush | .shutdown | .wakeCall _ | .wakeWorker _ => False
  | _ => True

/-- The `terminate`s that the destructor has yet to post, each with what there is to do for it. -/
def toEnd (p : ThreadPool ρ) : ℕ :=
  match p.terminates with
  | none => if p.registered then 0 else 6 * p.threads + 1
  | some k => 6 * k

/-- The work that is left: a message is enqueued and announced, dequeued and announced, handled. -/
def work (p : ThreadPool ρ) : ℕ :=
  5 * p.pending.length + 3 * p.q.items.length + p.handling.length + p.pushCv.notifying +
    p.popCv.notifying + p.toEnd

/-- A step that leaves the log calls alone and less work. -/
structure Less (p p' : ThreadPool ρ) : Prop where
  accepted : p'.accepted = p.accepted
  registered : p'.registered = p.registered
  work : p'.work < p.work

/-- A call that has got the lock, if there is room. -/
lemma less_enqueue {msg : AsyncMsg ρ} {posting : List (AsyncMsg ρ)} {cv : CondVar (AsyncMsg ρ)}
    (hcall : Entering p msg posting cv) (hcv : cv.notifying = p.popCv.notifying)
    (hroom : p.q.full = false) :
    Less p (enqueue { p with posting := posting, popCv := cv } msg) := by
  have hlen := hcall.pending.length_eq
  rw [List.length_cons] at hlen
  have hitems := CircularQ.items_pushBack p.q msg hroom
  simp only [enqueue, hroom, Bool.false_eq_true, if_false]
  refine ⟨rfl, rfl, ?_⟩
  simp only [work, toEnd, pending, hitems, CondVar.changed, List.length_append,
    List.length_singleton, hcv] at hlen ⊢
  omega

/-- A worker that has got the lock, if there is a message. -/
lemma less_dequeue {ready : ℕ} {cv : CondVar Unit} (hcv : cv.notifying = p.pushCv.notifying)
    (hne : p.q.items ≠ []) : Less p (dequeue { p with ready := ready, pushCv := cv }) := by
  have hpos := List.length_pos_iff.2 hne
  have hempty : p.q.empty = false := by
    rw [← Bool.not_eq_true, CircularQ.empty_iff]
    exact hne
  have hitems := CircularQ.items_popFront p.q hne
  simp only [dequeue, hempty, Bool.false_eq_true, if_false]
  refine ⟨rfl, rfl, ?_⟩
  simp only [work, toEnd, pending, CondVar.threads, hitems, CondVar.changed, List.length_append,
    List.length_singleton, List.length_tail, hcv]
  omega

/-- A worker is not finished while there is a message in the ring.

**Proof sketch.** If all were finished, a `terminate` each would have been handled. Then the message
would be another one, since nothing comes after a `terminate` but these. -/
lemma Sound.finished_lt {n threads : ℕ} (h : Sound n threads p) (hthreads : 0 < threads)
    (hne : p.q.items ≠ []) : p.finished < threads := by
  have hworkers := h.kept.workers
  rw [h.threads] at hworkers
  by_contra hle
  exact hne (h.ended hthreads (by omega)).2.1

/-- With a message in the ring and nothing in hand or to be announced, a worker can take it. -/
lemma exists_dequeue {n threads : ℕ} (h : Sound n threads p) (hthreads : 0 < threads)
    (hne : p.q.items ≠ []) (hhandling : p.handling = []) (hnotify : p.pushCv.notifying = 0) :
    ∃ e p', UnderWay e ∧ p.step e = some p' ∧ Less p p' := by
  by_cases hready : p.ready = 0
  · have hworkers := h.kept.workers
    have hlt := h.finished_lt hthreads hne
    rw [h.threads, hready, hhandling, List.length_nil] at hworkers
    have hwoken : p.pushCv.woken ≠ [] := by
      refine h.awake.push.woken_ne_nil (List.length_pos_iff.2 hne) hnotify fun hnil => ?_
      rw [hnil, List.length_nil] at hworkers
      omega
    obtain ⟨t, cv, hrelock, hcv⟩ := CondVar.exists_relock hwoken
    have hless : Less p (dequeue { p with ready := p.ready, pushCv := cv }) := less_dequeue hcv hne
    exact ⟨.relockWorker 0, _, trivial, by rw [step, hrelock]; rfl, hless⟩
  · exact ⟨.dequeue, _, trivial, if_neg hready, less_dequeue rfl hne⟩

/-- With an empty ring and nothing to be announced, a call can enqueue. -/
lemma exists_enqueue {n threads : ℕ} (h : Sound n threads p) (hn : 0 < n)
    (hempty : p.q.items = []) (hpending : p.pending ≠ []) (hnotify : p.popCv.notifying = 0) :
    ∃ e p', UnderWay e ∧ p.step e = some p' ∧ Less p p' := by
  have hroom : p.q.full = false := by
    rw [← Bool.not_eq_true, h.awake.full_iff, hempty]
    exact Nat.ne_of_lt hn
  cases hposting : p.posting with
  | nil =>
    have hwoken : p.popCv.woken ≠ [] := by
      have hpop := h.awake.pop
      rw [hempty, List.length_nil, Nat.sub_zero] at hpop
      exact hpop.woken_ne_nil hn hnotify (by simpa [pending, hposting] using hpending)
    obtain ⟨t, cv, hrelock, hcv⟩ := CondVar.exists_relock hwoken
    have hcall : Entering p t.1 p.posting cv :=
      ⟨List.perm_middle.symm.trans ((CondVar.threads_relock hrelock).append_left _),
        fun n halert => halert.relock hrelock⟩
    exact ⟨.relockCall 0, _, trivial, by rw [step, hrelock]; rfl, less_enqueue hcall hcv hroom⟩
  | cons msg rest =>
    have hcall : Entering p msg rest p.popCv :=
      ⟨by rw [pending, hposting]; rfl, fun n halert => halert.mono (Nat.sub_le n 1)⟩
    exact ⟨.lock 0, _, trivial, by simp [step, hposting], less_enqueue hcall rfl hroom⟩

/-- **Some thread under way can move** as long as there is work left.

**Proof sketch.** What is in hand is handled and what is to be announced is announced. Then a
message in the ring can be dequeued, because no worker waits without cause; and with an empty ring a
call can enqueue, because no call does. With nothing left but the end, the destructor goes on. -/
lemma exists_less {n threads : ℕ} (h : Sound n threads p) (hn : 0 < n) (hthreads : 0 < threads)
    (hwork : p.work ≠ 0) : ∃ e p', UnderWay e ∧ p.step e = some p' ∧ Less p p' := by
  by_cases hhandling : p.handling = []
  swap
  · obtain ⟨msg, rest, hcons⟩ := List.exists_cons_of_ne_nil hhandling
    refine ⟨.handle 0, processMsg { p with handling := rest } msg, trivial, ?_, ?_⟩
    · simp [step, hcons]
    · unfold processMsg
      split_ifs <;> exact ⟨rfl, rfl, by simp [work, toEnd, pending, hcons]⟩
  by_cases hpush : p.pushCv.notifying = 0
  swap
  · obtain ⟨cv, hcv, hlt⟩ := CondVar.exists_notifyOne (Nat.pos_iff_ne_zero.2 hpush)
    refine ⟨.notifyPush 0, { p with pushCv := cv }, trivial, by rw [step, hcv]; rfl, rfl, rfl, ?_⟩
    simp only [work, toEnd, pending]
    omega
  by_cases hpop : p.popCv.notifying = 0
  swap
  · obtain ⟨cv, hcv, hlt⟩ := CondVar.exists_notifyOne (Nat.pos_iff_ne_zero.2 hpop)
    have hlen := (CondVar.threads_notifyOne hcv).length_eq
    refine ⟨.notifyPop 0, { p with popCv := cv }, trivial, by rw [step, hcv]; rfl, rfl, rfl, ?_⟩
    simp only [work, toEnd, pending, List.length_append]
    omega
  by_cases hitems : p.q.items = []
  swap
  · exact exists_dequeue h hthreads hitems hhandling hpush
  by_cases hpending : p.pending = []
  swap
  · exact exists_enqueue h hn hitems hpending hpop
  -- only the end is left
  have hcalls : p.calls = 0 := by rw [calls, hpending, hpush]; rfl
  have hend : p.work = p.toEnd := by simp [work, hpending, hitems, hhandling, hpush, hpop]
  rw [hend] at hwork
  cases hterm : p.terminates with
  | none =>
    have hreg : p.registered = false := by
      by_contra hreg
      simp [toEnd, hterm, hreg] at hwork
    refine ⟨.destroy, { p with terminates := some p.threads }, trivial, ?_, rfl, rfl, ?_⟩
    · simp [step, hterm, hreg, hcalls]
    · simp [work, toEnd, pending, hterm, hreg]
  | some k =>
    cases k with
    | zero => simp [toEnd, hterm] at hwork
    | succ k =>
      refine ⟨.terminate, { p with terminates := some k, posting := p.posting ++ [.terminate] },
        trivial, ?_, rfl, rfl, ?_⟩
      · simp [step, hterm, hcalls]
      · simp [work, toEnd, pending, hterm]
        omega

/-- **The pool is never stuck.** From every state that a pool with room for a message and a worker
can reach, the threads that are under way can, without another call or a spurious wakeup, get every
message of the log calls handled and all log calls returned; and if the registry has let go of the
pool, they can finish every worker too, so that the destructor returns.

**Proof sketch.** As long as there is work left some thread can move and make it less. -/
theorem can_finish [Inhabited ρ] (n threads : ℕ) (hfits : n + 1 < 2 ^ 64) (hn : 0 < n)
    (hthreads : 0 < threads) (es : List (LogPoolEvent ρ)) (p : ThreadPool ρ)
    (hrun : Run.exec step (new n threads hfits) es = some p) :
    ∃ fs p', (∀ f ∈ fs, UnderWay f) ∧ Run.exec step p fs = some p' ∧ p'.calls = 0 ∧
      (p'.handled.filter fun msg => !msg.isTerminate).Perm p.accepted ∧
      (p.registered = false → p'.finished = threads) := by
  let I := fun s : ThreadPool ρ =>
    Sound n threads s ∧ s.accepted = p.accepted ∧ s.registered = p.registered
  have hmove : ∀ s : ThreadPool ρ, I s → s.work ≠ 0 →
      ∃ e s', UnderWay e ∧ s.step e = some s' ∧ I s' ∧ s'.work < s.work := by
    intro s hs hne
    obtain ⟨e, s', he, hstep, hless⟩ := exists_less hs.1 hn hthreads hne
    exact ⟨e, s', he, hstep, ⟨hs.1.step (step_transition hstep),
      hless.accepted.trans hs.2.1, hless.registered.trans hs.2.2⟩, hless.work⟩
  obtain ⟨fs, p', hfs, hrun', ⟨h, haccepted, hregistered⟩, hwork⟩ :=
    Run.exists_exec_of_decreasing hmove ⟨sound_of_exec hrun, rfl, rfl⟩
  simp only [work, Nat.add_eq_zero_iff, Nat.mul_eq_zero, List.length_eq_zero_iff] at hwork
  obtain ⟨⟨⟨⟨⟨hpending, hitems⟩, hhandling⟩, hpush⟩, hpop⟩, hend⟩ := hwork
  have hpending := hpending.resolve_left (by decide)
  have hitems := hitems.resolve_left (by decide)
  have hinOrder := h.kept.inOrder
  have htaken := h.kept.taken
  have hworks := h.kept.works
  rw [hitems, List.append_nil] at hinOrder
  rw [hhandling, List.append_nil, hinOrder] at htaken
  rw [hpending, List.append_nil] at hworks
  refine ⟨fs, p', hfs, hrun', by rw [calls, hpending, hpush]; rfl, ?_, fun hreg => ?_⟩
  · rw [← haccepted]
    exact (htaken.filter _).trans hworks
  · cases hterm : p'.terminates with
    | none => simp [toEnd, hterm, hregistered, hreg] at hend
    | some k =>
      have hleft := h.ending.left k hterm
      obtain rfl : k = 0 := by
        simp only [toEnd, hterm] at hend
        omega
      rw [hpending, List.append_nil, ← htaken.countP_eq, ← h.kept.finished, h.threads] at hleft
      exact hleft

/-- A log call is blocked on a full ring, and the worker has not yet begun. -/
theorem can_finish_blocked :
    ∃ p, Run.exec step (new 1 1 (by decide))
        [.log 5, .log 6, .lock 0, .lock 0, .shutdown] = some p ∧
      p.popCv.blocked = [.log 6] ∧ ∃ fs p', (∀ f ∈ fs, UnderWay f) ∧
        Run.exec step p fs = some p' ∧ p'.calls = 0 ∧
        (p'.handled.filter fun msg => !msg.isTerminate).Perm p.accepted ∧
        (p.registered = false → p'.finished = 1) :=
  ⟨_, rfl, rfl, can_finish 1 1 (by decide) Nat.one_pos Nat.one_pos
    [.log 5, .log 6, .lock 0, .lock 0, .shutdown] _ rfl⟩

end ThreadPool

end Purity
