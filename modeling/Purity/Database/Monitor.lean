import Purity.Base.CondVar
import Purity.Base.Simulation
import Purity.Database.Pool

set_option relaxedAutoImplicit false
set_option autoImplicit false

/-!
# The mutex and the condition variable of the pool

`Purity.Database` takes a call that waits for a connection as one that gets it some time. This file
is one level below: `acquire_connection` locks `mutex_`, and with an empty queue it blocks on
`cond_` until it is notified or its time is over; `release_connection` unlocks before it calls
`notify_one`, so that a call just arriving can be faster than the one that is let go. `shutdown`
empties the queue while calls may be running.

## Main definitions

* `Purity.PoolMonitor`, `Purity.PoolMonitor.acquire` — the pool, its condition variable, and
  `acquire_connection` under the lock.
* `Purity.MonitorEvent`, `Purity.PoolMonitor.step` — what a thread does under the lock or at the
  condition variable, each atomic.
* `Purity.PoolMonitor.Refines` — a monitor and a pool in the sense of `Purity.Database`.
* `Purity.PoolMonitor.Acquires` — the step gives a connection to a call.

## Main results

* `Purity.PoolMonitor.blocked_is_served` — no wakeup is lost: a call that is blocked while there is
  a connection in the queue can always be let go and served, by steps of the threads under way
  alone.
* `Purity.PoolMonitor.refines_pool` — every run of the monitor is one of the pool.
* `Purity.PoolMonitor.shutdown_final_iff` — after `shutdown` no call gets a connection any more
  exactly if no call held one.
-/

namespace Purity

/-- The pool with its condition variable. The calls in `waiting` have not had the lock yet; the
others that wait are at `cond_`. -/
structure PoolMonitor (ρ : Type) extends Database ρ where
  cond : CondVar ℕ := {}

/-- What a thread does next, under the lock or at the condition variable. -/
inductive MonitorEvent (ρ : Type) where
  /-- a thread calls `execute_sync` -/
  | call
  /-- the `i`-th call that has just begun locks the mutex -/
  | enter (i : ℕ) (isOpen : Bool) (reconnect : Except Exn Unit)
  /-- the wait of the `i`-th blocked call times out, or ends spuriously -/
  | wake (i : ℕ) (timedOut : Bool)
  /-- the `i`-th call that has left its wait locks the mutex again -/
  | relock (i : ℕ) (isOpen : Bool) (reconnect : Except Exn Unit)
  /-- the body of the `i`-th call with a connection ends -/
  | query (i : ℕ) (outcome : QueryOutcome ρ)
  /-- its connection is put back under the lock -/
  | release (i : ℕ)
  /-- a thread that has put one back calls `notify_one`, which lets the `i`-th blocked call go -/
  | notify (i : ℕ)
  /-- `shutdown` -/
  | shutdown

namespace PoolMonitor

variable {ρ : Type}

/-- The constructor, when all its connections can be made. -/
def new (poolSize : ℕ) : PoolMonitor ρ := { toDatabase := .new poolSize }

/-- `acquire_connection` with the lock: if the queue is empty, the call blocks, unless its wait has
timed out. -/
def acquire (m : PoolMonitor ρ) (caller : ℕ) (timedOut isOpen : Bool)
    (reconnect : Except Exn Unit) : PoolMonitor ρ :=
  if m.connections.isEmpty && !timedOut then { m with cond := m.cond.block caller }
  else { m with toDatabase := m.toDatabase.acquireScopedConnection caller isOpen reconnect }

/-- One step of the threads; `none` if the event is not possible. -/
def step (m : PoolMonitor ρ) : MonitorEvent ρ → Option (PoolMonitor ρ)
  | .call => (m.toDatabase.step .call).map fun db => { m with toDatabase := db }
  | .enter i isOpen reconnect =>
    m.waiting[i]?.map fun caller =>
      acquire { m with waiting := m.waiting.eraseIdx i } caller false isOpen reconnect
  | .wake i timedOut => (m.cond.wake i timedOut).map fun cond => { m with cond := cond }
  | .relock i isOpen reconnect =>
    (m.cond.relock i).map fun (t, cond) =>
      acquire { m with cond := cond } t.1 t.2 isOpen reconnect
  | .query i outcome =>
    (m.toDatabase.step (.query i outcome)).map fun db => { m with toDatabase := db }
  | .release i =>
    (m.toDatabase.step (.release i)).map fun db => { toDatabase := db, cond := m.cond.changed }
  | .notify i => (m.cond.notifyOne i).map fun cond => { m with cond := cond }
  | .shutdown => some { m with connections := [] }

/-! ## What the steps do to the queue -/

/-- A call that acquires takes at most the front of the queue; with an empty queue it either blocks
or gives up. -/
lemma acquire_cases (m : PoolMonitor ρ) (caller : ℕ) (timedOut isOpen : Bool)
    (reconnect : Except Exn Unit) :
    (m.connections = [] ∧ timedOut = false ∧
      m.acquire caller timedOut isOpen reconnect = { m with cond := m.cond.block caller }) ∨
    ((m.connections = [] → timedOut = true) ∧
      m.acquire caller timedOut isOpen reconnect =
        { m with toDatabase := m.toDatabase.acquireScopedConnection caller isOpen reconnect }) := by
  unfold acquire
  cases hpool : m.connections with
  | nil =>
    cases timedOut with
    | false => exact .inl ⟨rfl, rfl, by simp⟩
    | true => exact .inr ⟨fun _ => rfl, by simp⟩
  | cons conn rest => exact .inr ⟨nofun, by simp⟩

end PoolMonitor

namespace Database

variable {ρ : Type}

/-- `acquire_scoped_connection` takes the front of the queue, whatever comes of it. -/
@[simp] lemma acquireScopedConnection_connections (db : Database ρ) (caller : ℕ) (isOpen : Bool)
    (reconnect : Except Exn Unit) :
    (db.acquireScopedConnection caller isOpen reconnect).connections = db.connections.tail := by
  unfold acquireScopedConnection acquireConnection
  cases hpool : db.connections with
  | nil => simp [finish, hpool]
  | cons conn rest => rcases isOpen with _ | _ <;> rcases reconnect with _ | _ <;> rfl

/-- It does not look at the other calls that wait. -/
lemma acquireScopedConnection_waiting (db : Database ρ) (ws : List ℕ) (caller : ℕ) (isOpen : Bool)
    (reconnect : Except Exn Unit) :
    acquireScopedConnection { db with waiting := ws } caller isOpen reconnect =
      { db.acquireScopedConnection caller isOpen reconnect with waiting := ws } := by
  unfold acquireScopedConnection acquireConnection
  cases hpool : db.connections with
  | nil => simp [finish, hpool]
  | cons conn rest => rcases isOpen with _ | _ <;> rcases reconnect with _ | _ <;> rfl

/-- Neither does the body of a call that ends. -/
lemma step_query_waiting (db : Database ρ) (ws : List ℕ) (i : ℕ) (outcome : QueryOutcome ρ) :
    step { db with waiting := ws } (.query i outcome) =
      (db.step (.query i outcome)).map fun db => { db with waiting := ws } := by
  simp only [step]
  cases db.running[i]? with
  | none => rfl
  | some call =>
    rcases call with ⟨caller, conn, _ | r⟩
    · rcases outcome with row | e | ⟨e, _ | _⟩ <;> rfl
    · rfl

/-- Nor a call that gives its connection back. -/
lemma step_release_waiting (db : Database ρ) (ws : List ℕ) (i : ℕ) :
    step { db with waiting := ws } (.release i) =
      (db.step (.release i)).map fun db => { db with waiting := ws } := by
  simp only [step]
  cases db.running[i]? with
  | none => rfl
  | some call => rcases call with ⟨caller, conn, _ | r⟩ <;> rfl

end Database

namespace PoolMonitor

variable {ρ : Type} {m m' : PoolMonitor ρ}

/-! ## No lost wakeup -/

/-- A call that acquires takes a connection from the queue, or the queue was empty: nothing is left
over that it should have been woken for. -/
lemma alert_acquire (caller : ℕ) (timedOut isOpen : Bool) (reconnect : Except Exn Unit)
    (h : m.cond.Alert (m.connections.length - 1)) :
    (m.acquire caller timedOut isOpen reconnect).cond.Alert
      (m.acquire caller timedOut isOpen reconnect).connections.length := by
  rcases m.acquire_cases caller timedOut isOpen reconnect with ⟨hnil, -, heq⟩ | ⟨-, heq⟩
  · rw [heq]
    have hzero : m.connections.length = 0 := by rw [hnil]; rfl
    simp only [hzero]
    exact CondVar.alert_zero
  · rw [heq]
    simpa using h

/-- **One step** loses no wakeup. -/
lemma alert_step {e : MonitorEvent ρ} (h : m.cond.Alert m.connections.length)
    (hstep : m.step e = some m') : m'.cond.Alert m'.connections.length := by
  cases e with
  | call =>
    cases hstep
    exact h
  | enter i isOpen reconnect =>
    simp only [step, Option.map_eq_some_iff] at hstep
    obtain ⟨caller, -, rfl⟩ := hstep
    exact alert_acquire caller false isOpen reconnect (h.mono (Nat.sub_le _ _))
  | wake i timedOut =>
    simp only [step, Option.map_eq_some_iff] at hstep
    obtain ⟨cond, hcond, rfl⟩ := hstep
    exact h.wake hcond
  | relock i isOpen reconnect =>
    simp only [step, Option.map_eq_some_iff] at hstep
    obtain ⟨⟨t, cond⟩, hcond, rfl⟩ := hstep
    exact alert_acquire t.1 t.2 isOpen reconnect (h.relock hcond)
  | query i outcome =>
    simp only [step, Option.map_eq_some_iff] at hstep
    obtain ⟨db, hdb, rfl⟩ := hstep
    have hpool : db.connections = m.connections := by
      simp only [Database.step, Option.bind_eq_some_iff] at hdb
      obtain ⟨call, -, hdb⟩ := hdb
      cases hres : call.result with
      | some r => simp [hres] at hdb
      | none =>
        simp only [hres, Option.some.injEq] at hdb
        rw [← hdb]
        exact (m.toDatabase.runQuery_keeps outcome).1
    change m.cond.Alert db.connections.length
    rwa [hpool]
  | release i =>
    simp only [step, Option.map_eq_some_iff] at hstep
    obtain ⟨db, hdb, rfl⟩ := hstep
    simp only [Database.step, Option.bind_eq_some_iff, Option.map_eq_some_iff] at hdb
    obtain ⟨call, -, result, -, rfl⟩ := hdb
    change m.cond.changed.Alert (m.connections ++ [call.conn]).length
    rw [List.length_append, List.length_singleton]
    exact h.changed
  | notify i =>
    simp only [step, Option.map_eq_some_iff] at hstep
    obtain ⟨cond, hcond, rfl⟩ := hstep
    exact h.notifyOne hcond
  | shutdown =>
    cases hstep
    exact CondVar.alert_zero

/-- The event is a `notify_one` to come, or a call on its way back to the lock. -/
def UnderWay : MonitorEvent ρ → Prop
  | .notify _ | .relock _ _ _ => True
  | _ => False

/-- A call back at the lock with a connection in the queue gets it. -/
lemma exists_relock (hpool : m.connections ≠ []) (hwoken : m.cond.woken ≠ []) :
    ∃ m', m.step (.relock 0 true (.ok ())) = some m' ∧
      m'.running.length = m.running.length + 1 := by
  cases hw : m.cond.woken with
  | nil => exact absurd hw hwoken
  | cons t ws =>
    cases hc : m.connections with
    | nil => exact absurd hc hpool
    | cons conn rest =>
      have hstep : m.step (.relock 0 true (.ok ())) =
          some (acquire { m with cond := { m.cond with woken := ws } } t.1 t.2 true (.ok ())) := by
        simp [step, CondVar.relock, hw]
      refine ⟨_, hstep, ?_⟩
      simp [acquire, Database.acquireScopedConnection, Database.acquireConnection, hc]

/-- **No lost wakeup.** In every state that the calls on a pool can reach, with any interleaving,
any outcomes, timeouts and spurious wakeups, and `shutdown` at any time: if a call is blocked while
there is a connection in the queue, then some call can be given a connection by threads that are
under way already (a `notify_one` to come, or a call on its way back to the lock). No further
release is needed.

**Proof sketch.** As long as a call is blocked, there are at least as many such threads as
connections in the queue: putting a connection back adds one of each, and a call that comes back
either takes a connection or finds none. -/
theorem blocked_is_served (n : ℕ) (es : List (MonitorEvent ρ)) (m : PoolMonitor ρ)
    (hrun : Run.exec step (new n) es = some m) (hblocked : m.cond.blocked ≠ [])
    (hpool : m.connections ≠ []) :
    ∃ fs m', (∀ f ∈ fs, UnderWay f) ∧ Run.exec step m fs = some m' ∧
      m'.running.length = m.running.length + 1 := by
  have halert : m.cond.Alert m.connections.length := by
    refine Run.exec_invariant (I := fun m : PoolMonitor ρ => m.cond.Alert m.connections.length)
      (fun s e s' hs h => alert_step hs h) ?_ hrun
    intro hne
    exact absurd rfl hne
  have hpos : 0 < m.connections.length := List.length_pos_of_ne_nil hpool
  by_cases hwoken : m.cond.woken = []
  · -- nobody is on the way back yet: a `notify_one` is to come
    have hnotify : 0 < m.cond.notifying :=
      (halert.exists_wakeup hpos hblocked).resolve_left fun hne => hne hwoken
    obtain ⟨t, ts, ht⟩ := List.exists_cons_of_ne_nil hblocked
    have hstep : m.step (.notify 0) = some { m with cond :=
        { blocked := ts, woken := [(t, false)], notifying := m.cond.notifying - 1 } } := by
      simp [step, CondVar.notifyOne, CondVar.wake, ht, hwoken, Nat.pos_iff_ne_zero.1 hnotify]
    obtain ⟨m', hm', hlen⟩ := exists_relock (m := { m with cond :=
      { blocked := ts, woken := [(t, false)], notifying := m.cond.notifying - 1 } }) hpool (by simp)
    refine ⟨[.notify 0, .relock 0 true (.ok ())], m', ?_, ?_, hlen⟩
    · simp [UnderWay]
    · exact Run.exec_cons_eq_some.2 ⟨_, hstep, Run.exec_cons_eq_some.2 ⟨m', hm', rfl⟩⟩
  · obtain ⟨m', hm', hlen⟩ := exists_relock hpool hwoken
    refine ⟨[.relock 0 true (.ok ())], m', ?_, ?_, hlen⟩
    · simp [UnderWay]
    · exact Run.exec_cons_eq_some.2 ⟨m', hm', rfl⟩

/-- A pool of one: a call takes the connection, a second one blocks, the first one ends. -/
def handoverEvents : List (MonitorEvent Unit) :=
  [.call, .enter 0 true (.ok ()), .call, .enter 0 true (.ok ()), .query 0 (.result none),
    .release 0]

/-- The state after `handoverEvents`: the connection is back, and its `notify_one` is to come. -/
def handoverState : PoolMonitor Unit where
  connections := [0]
  made := 1
  calls := 2
  waiting := []
  returned := [(0, .ok none)]
  cond := { blocked := [1], notifying := 1 }

/-- The second call is served. -/
theorem blocked_is_served_handover :
    ∃ fs m', (∀ f ∈ fs, UnderWay f) ∧ Run.exec step handoverState fs = some m' ∧
      m'.running.length = handoverState.running.length + 1 :=
  blocked_is_served 1 handoverEvents handoverState rfl (by decide) (by decide)

/-! ## The monitor refines the pool -/

/-- A monitor and a pool agree: all but the calls that wait is the same, and those that wait are the
calls that have not had the lock yet together with those at the condition variable. -/
def Refines (m : PoolMonitor ρ) (db : Database ρ) : Prop :=
  ∃ ws : List ℕ, ws.Perm (m.waiting ++ m.cond.threads) ∧ db = { m.toDatabase with waiting := ws }

/-- A call under the lock does nothing that the pool sees, or acquires. -/
lemma refines_acquire {ws : List ℕ} {caller : ℕ} (timedOut isOpen : Bool)
    (reconnect : Except Exn Unit) (hws : ws.Perm (caller :: (m.waiting ++ m.cond.threads))) :
    ∃ fs db', Run.exec Database.step { m.toDatabase with waiting := ws } fs = some db' ∧
      Refines (m.acquire caller timedOut isOpen reconnect) db' := by
  rcases m.acquire_cases caller timedOut isOpen reconnect with ⟨-, -, heq⟩ | ⟨-, heq⟩
  · refine ⟨[], _, rfl, ws, ?_, by rw [heq]⟩
    rw [heq]
    refine hws.trans (List.perm_middle.symm.trans ?_)
    exact (CondVar.threads_block caller).symm.append_left _
  · obtain ⟨i, hi, hrest⟩ := Run.exists_getElem?_of_perm hws
    have hstep : Database.step { m.toDatabase with waiting := ws } (.acquire i isOpen reconnect) =
        some { m.toDatabase.acquireScopedConnection caller isOpen reconnect with
          waiting := ws.eraseIdx i } := by
      simp only [Database.step, hi, Option.map_some]
      rw [← Database.acquireScopedConnection_waiting]
    refine ⟨[.acquire i isOpen reconnect], _, Run.exec_cons_eq_some.2 ⟨_, hstep, rfl⟩,
      ws.eraseIdx i, ?_, by rw [heq]⟩
    rw [heq]
    have hwaiting : (m.toDatabase.acquireScopedConnection caller isOpen reconnect).waiting =
        m.waiting := by
      have := congrArg Database.waiting
        (m.toDatabase.acquireScopedConnection_waiting m.waiting caller isOpen reconnect)
      exact this
    simpa only [hwaiting] using hrest

/-- **Refinement.** Every run of the pool's threads under the mutex and at the condition variable,
without `shutdown`, is matched by a run of `Purity.Database` from the same number of connections
that ends with the same queue, the same calls holding the same connections, the same results
returned, and the same calls waiting (in some order). So what holds of every run of the pool, such
as its conservation, holds of the code with its locks.

**Proof sketch.** A call that blocks, is let go or times out in its wait does nothing that the pool
sees; a call that leaves `acquire_connection` is an `acquire` of the pool. -/
theorem refines_pool (n : ℕ) (es : List (MonitorEvent ρ)) (m : PoolMonitor ρ)
    (hes : ∀ e ∈ es, e ≠ .shutdown) (hrun : Run.exec step (new n) es = some m) :
    ∃ fs db, Run.exec Database.step (Database.new n) fs = some db ∧ Refines m db := by
  have hsim : Run.Simulates step Database.step (fun e : MonitorEvent ρ => e ≠ .shutdown)
      (fun _ => True) Refines := by
    rintro m e m' db he ⟨ws, hws, rfl⟩ hstep
    suffices h : ∃ fs db',
        Run.exec Database.step { m.toDatabase with waiting := ws } fs = some db' ∧
          Refines m' db' by
      obtain ⟨fs, db', hfs, href⟩ := h
      exact ⟨fs, db', fun _ _ => trivial, hfs, href⟩
    cases e with
    | call =>
      cases hstep
      refine ⟨[.call], _, rfl, ws ++ [m.calls], ?_, rfl⟩
      refine (List.perm_append_singleton _ _).trans ((hws.cons _).trans ?_)
      simp only [List.append_assoc, List.singleton_append]
      exact List.perm_middle.symm
    | enter i isOpen reconnect =>
      simp only [step, Option.map_eq_some_iff] at hstep
      obtain ⟨caller, hcaller, rfl⟩ := hstep
      obtain ⟨hi, rfl⟩ := List.getElem?_eq_some_iff.1 hcaller
      refine refines_acquire (m := { m with waiting := m.waiting.eraseIdx i }) false isOpen
        reconnect (hws.trans ?_)
      exact (List.getElem_cons_eraseIdx_perm hi).symm.append_right _
    | wake i timedOut =>
      simp only [step, Option.map_eq_some_iff] at hstep
      obtain ⟨cond, hcond, rfl⟩ := hstep
      exact ⟨[], _, rfl, ws, hws.trans ((CondVar.threads_wake hcond).symm.append_left _), rfl⟩
    | relock i isOpen reconnect =>
      simp only [step, Option.map_eq_some_iff] at hstep
      obtain ⟨⟨t, cond⟩, hcond, rfl⟩ := hstep
      refine refines_acquire (m := { m with cond := cond }) t.2 isOpen reconnect (hws.trans ?_)
      exact ((CondVar.threads_relock hcond).symm.append_left _).trans List.perm_middle
    | query i outcome =>
      simp only [step, Option.map_eq_some_iff] at hstep
      obtain ⟨db', hdb', rfl⟩ := hstep
      have hstep : Database.step { m.toDatabase with waiting := ws } (.query i outcome) =
          some { db' with waiting := ws } := by
        rw [Database.step_query_waiting, hdb']
        rfl
      have hwaiting : db'.waiting = m.waiting := by
        have hself := m.toDatabase.step_query_waiting m.waiting i outcome
        rw [hdb'] at hself
        simpa using congrArg (Option.map Database.waiting) hself
      refine ⟨[.query i outcome], _, Run.exec_cons_eq_some.2 ⟨_, hstep, rfl⟩, ws, ?_, rfl⟩
      simpa only [hwaiting] using hws
    | release i =>
      simp only [step, Option.map_eq_some_iff] at hstep
      obtain ⟨db', hdb', rfl⟩ := hstep
      have hstep : Database.step { m.toDatabase with waiting := ws } (.release i) =
          some { db' with waiting := ws } := by
        rw [Database.step_release_waiting, hdb']
        rfl
      have hwaiting : db'.waiting = m.waiting := by
        have hself := m.toDatabase.step_release_waiting m.waiting i
        rw [hdb'] at hself
        simpa using congrArg (Option.map Database.waiting) hself
      refine ⟨[.release i], _, Run.exec_cons_eq_some.2 ⟨_, hstep, rfl⟩, ws, ?_, rfl⟩
      change ws.Perm (db'.waiting ++ m.cond.threads)
      rwa [hwaiting]
    | notify i =>
      simp only [step, Option.map_eq_some_iff] at hstep
      obtain ⟨cond, hcond, rfl⟩ := hstep
      exact ⟨[], _, rfl, ws, hws.trans ((CondVar.threads_notifyOne hcond).symm.append_left _), rfl⟩
    | shutdown => exact absurd rfl he
  obtain ⟨fs, db, -, hfs, href⟩ := hsim.exec hes ⟨[], .refl _, rfl⟩ hrun
  exact ⟨fs, db, hfs, href⟩

/-- The same with the events and the state of `handoverEvents`. -/
theorem refines_pool_handover :
    ∃ fs db, Run.exec Database.step (Database.new 1) fs = some db ∧ Refines handoverState db := by
  refine refines_pool 1 handoverEvents handoverState (fun e he => ?_) rfl
  simp only [handoverEvents, List.mem_cons, List.not_mem_nil, or_false] at he
  rcases he with rfl | rfl | rfl | rfl | rfl | rfl <;> nofun

/-! ## Shutdown -/

/-- The step gives a connection to a call: the call is at the lock, the queue is not empty, and the
connection at its front is open or can be made again. -/
def Acquires (m : PoolMonitor ρ) : MonitorEvent ρ → Prop
  | .enter _ isOpen reconnect | .relock _ isOpen reconnect =>
    m.connections ≠ [] ∧ (isOpen = true ∨ reconnect = .ok ())
  | _ => False

/-- No connection is in the queue, and none is held. -/
structure Drained (m : PoolMonitor ρ) : Prop where
  connections : m.connections = []
  running : m.running = []

/-- A call that tries to acquire gets nothing. -/
lemma Drained.acquire (h : m.Drained) (caller : ℕ) (timedOut isOpen : Bool)
    (reconnect : Except Exn Unit) : (m.acquire caller timedOut isOpen reconnect).Drained := by
  rcases m.acquire_cases caller timedOut isOpen reconnect with ⟨-, -, heq⟩ | ⟨-, heq⟩
  · rw [heq]
    exact ⟨h.connections, h.running⟩
  · rw [heq]
    constructor
    · simp [h.connections]
    · simp [Database.acquireScopedConnection, Database.acquireConnection, h.connections,
        Database.finish, h.running]

/-- Without connections there is nothing to give, and nothing comes back. -/
lemma Drained.step {e : MonitorEvent ρ} (h : m.Drained) (hstep : m.step e = some m') :
    m'.Drained := by
  cases e with
  | call =>
    cases hstep
    exact ⟨h.connections, h.running⟩
  | enter i isOpen reconnect =>
    simp only [PoolMonitor.step, Option.map_eq_some_iff] at hstep
    obtain ⟨caller, -, rfl⟩ := hstep
    exact Drained.acquire (m := { m with waiting := m.waiting.eraseIdx i })
      ⟨h.connections, h.running⟩ caller false isOpen reconnect
  | wake i timedOut =>
    simp only [PoolMonitor.step, Option.map_eq_some_iff] at hstep
    obtain ⟨cond, -, rfl⟩ := hstep
    exact ⟨h.connections, h.running⟩
  | relock i isOpen reconnect =>
    simp only [PoolMonitor.step, Option.map_eq_some_iff] at hstep
    obtain ⟨⟨t, cond⟩, -, rfl⟩ := hstep
    exact Drained.acquire (m := { m with cond := cond }) ⟨h.connections, h.running⟩ t.1 t.2 isOpen
      reconnect
  | query i outcome => simp [PoolMonitor.step, Database.step, h.running] at hstep
  | release i => simp [PoolMonitor.step, Database.step, h.running] at hstep
  | notify i =>
    simp only [PoolMonitor.step, Option.map_eq_some_iff] at hstep
    obtain ⟨cond, -, rfl⟩ := hstep
    exact ⟨h.connections, h.running⟩
  | shutdown =>
    cases hstep
    exact ⟨rfl, h.running⟩

/-- A call that holds a connection can end and give it back. -/
lemma exists_release {call : ScopedCall ρ} {rest : List (ScopedCall ρ)}
    (hrunning : m.running = call :: rest) :
    ∃ es m', Run.exec PoolMonitor.step m es = some m' ∧ m'.connections ≠ [] := by
  have hrelease : ∀ (m : PoolMonitor ρ) (call : ScopedCall ρ) (r : Except Exn (Option ρ)),
      m.running[0]? = some call → call.result = some r →
        ∃ m', m.step (.release 0) = some m' ∧ m'.connections ≠ [] := by
    intro m call r hcall hres
    refine ⟨_, by simp only [PoolMonitor.step, Database.step, hcall, Option.bind_some, hres,
      Option.map_some]; rfl, ?_⟩
    simp [Database.finish, Database.releaseConnection]
  cases hres : call.result with
  | some r =>
    obtain ⟨m', hm', hne⟩ := hrelease m call r (by simp [hrunning]) hres
    exact ⟨[.release 0], m', Run.exec_cons_eq_some.2 ⟨m', hm', rfl⟩, hne⟩
  | none =>
    -- its body has yet to end
    have hquery : m.step (.query 0 (.result none)) = some { m with
        running := { call with result := some (.ok none) } :: rest } := by
      simp [PoolMonitor.step, Database.step, hrunning, hres, Database.runQuery]
    obtain ⟨m', hm', hne⟩ := hrelease { m with
      running := { call with result := some (.ok none) } :: rest } _ _ rfl rfl
    refine ⟨[.query 0 (.result none), .release 0], m', ?_, hne⟩
    exact Run.exec_cons_eq_some.2 ⟨_, hquery, Run.exec_cons_eq_some.2 ⟨m', hm', rfl⟩⟩

/-- **Shutdown.** After `shutdown`, whatever the state before it, no call is given a connection in
any further run exactly if no call held one. Otherwise the connection comes back into the queue:
nobody closes it, and calls go on.

**Proof sketch.** With none held the queue stays empty for good. A call that holds one can end and
put it back, and then a new call gets it. -/
theorem shutdown_final_iff (m m' : PoolMonitor ρ) (hshutdown : m.step .shutdown = some m') :
    (∀ es, Run.StepsMeet step (fun t e => ¬ t.Acquires e) m' es) ↔ m.running = [] := by
  cases hshutdown
  constructor
  · intro h
    by_contra hne
    obtain ⟨call, rest, hrunning⟩ := List.exists_cons_of_ne_nil hne
    obtain ⟨es, t, ht, hpool⟩ := exists_release (m := { m with connections := [] }) hrunning
    -- a new call arrives and finds the connection
    have hcall : t.step .call = some { t with
        calls := t.calls + 1, waiting := t.waiting ++ [t.calls] } := rfl
    have hacq := (h (es ++ [.call, .enter t.waiting.length true (.ok ())])).exec ht
    obtain ⟨-, hnext⟩ := hacq _ hcall
    have henter : step { t with calls := t.calls + 1, waiting := t.waiting ++ [t.calls] }
        (.enter t.waiting.length true (.ok ())) = some (acquire { t with
          calls := t.calls + 1
          waiting := (t.waiting ++ [t.calls]).eraseIdx t.waiting.length } t.calls false true
          (.ok ())) := by
      simp [step]
    exact (hnext _ henter).1 ⟨hpool, .inl rfl⟩
  · intro hnone es
    have hstart : Drained { m with connections := [] } := ⟨rfl, hnone⟩
    generalize ({ m with connections := [] } : PoolMonitor ρ) = t at hstart
    induction es generalizing t with
    | nil => trivial
    | cons e es ih =>
      intro t' ht'
      refine ⟨fun hacq => ?_, ih t' (hstart.step ht')⟩
      cases e with
      | enter i isOpen reconnect => exact hacq.1 hstart.connections
      | relock i isOpen reconnect => exact hacq.1 hstart.connections
      | _ => exact hacq

/-- A fresh pool holds nothing out: once it is shut down, all calls time out. With a call that holds
the connection of a pool of one, some call is given it again. -/
theorem shutdown_final_iff_held :
    (∀ es, Run.StepsMeet step (fun t e => ¬ t.Acquires e)
        ({ (new 4 : PoolMonitor Unit) with connections := [] }) es) ∧
      ∃ m m', Run.exec step (new 1 : PoolMonitor Unit) [.call, .enter 0 true (.ok ())] = some m ∧
        m.step .shutdown = some m' ∧ m.running.length = 1 ∧
        ¬ ∀ es, Run.StepsMeet step (fun t e => ¬ t.Acquires e) m' es := by
  refine ⟨(shutdown_final_iff (new 4) _ rfl).2 rfl, _, _, rfl, rfl, rfl, fun hnever => ?_⟩
  exact absurd ((shutdown_final_iff _ _ rfl).1 hnever) (List.cons_ne_nil _ _)

end PoolMonitor

end Purity
