import Mathlib.Data.List.Perm.Basic
import Purity.Base.Run
import Purity.Packet.ByteBuffer

set_option relaxedAutoImplicit false
set_option autoImplicit false

/-!
# The connection pool

`Database` (`common/database/Database.hpp`) keeps a queue of connections. `execute_sync` takes the
front one, waiting for it if need be, replaces it if it turns out to be closed, and wraps it in a
`ScopedConnection` whose destructor gives it back, however the query ends. Calls run on any number
of threads; what each does under `mutex_` is a step.

## Main definitions

* `Purity.Database` — the queue, the calls that wait for a connection and the calls that hold one.
* `Purity.Database.acquireConnection`, `reconnectConnection`, `releaseConnection` — the methods.
* `Purity.PoolEvent`, `Purity.Database.step` — the steps of the calls, with what the database
  server decides in the event: whether a connection is open, how a query or a reconnect ends.
* `Purity.Database.Conserved` — no connection is missing, and none is held twice.

## Main results

* `Purity.Database.conserved_iff_reconnects` — the pool is conserved along a run exactly if no
  reconnect fails inside `acquire_connection`.

## Implementation notes

A connection is named by its place in the order in which the connections were made. The constructor
of a connection yields an open connection or throws, and so does `reconnect_connection`, which also
prepares the statements; its null check in `execute_sync` never fails. A row has any type.
-/

namespace Purity

/-- A `pqxx::connection`. -/
abbrev Connection := ℕ

/-- How the body of `execute_sync` ends. -/
inductive QueryOutcome (ρ : Type) where
  /-- the query is committed; an empty result gives no row -/
  | result (row : Option ρ)
  /-- an exception other than `broken_connection` -/
  | failed (e : Exn)
  /-- `broken_connection`, and how the reconnect in its handler ends -/
  | broken (e : Exn) (reconnect : Except Exn Unit)

/-- A call of `execute_sync` with a live `ScopedConnection`, and once its body has ended what it
returns or throws. -/
structure ScopedCall (ρ : Type) where
  caller : ℕ
  conn : Connection
  result : Option (Except Exn (Option ρ)) := none

/-- The members of `Database` and the calls of `execute_sync`: `connections_`, the number of
connections and of calls made so far, the calls that have no connection yet, those that hold one,
and (history) what the calls that have ended returned or threw. -/
structure Database (ρ : Type) where
  connections : List Connection
  made : ℕ
  calls : ℕ := 0
  waiting : List ℕ := []
  running : List (ScopedCall ρ) := []
  returned : List (ℕ × Except Exn (Option ρ)) := []

namespace Database

variable {ρ : Type}

/-- The constructor, when all its connections can be made. -/
def new (poolSize : ℕ) : Database ρ := { connections := List.range poolSize, made := poolSize }

/-- `reconnect_connection` -/
def reconnectConnection (db : Database ρ) (outcome : Except Exn Unit) :
    Except Exn Connection × Database ρ :=
  match outcome with
  | .ok () => (.ok db.made, { db with made := db.made + 1 })
  | .error e => (.error e, db)

/-- `acquire_connection`, once the call has the lock: with an empty queue the wait has timed out. -/
def acquireConnection (db : Database ρ) (isOpen : Bool) (reconnect : Except Exn Unit) :
    Except Exn (Option Connection) × Database ρ :=
  match db.connections with
  | [] => (.ok none, db)
  | conn :: rest =>
    let db := { db with connections := rest }
    if !isOpen then
      -- the closed connection is destroyed, also when no new one takes its place
      match db.reconnectConnection reconnect with
      | (.ok conn, db) => (.ok (some conn), db)
      | (.error e, db) => (.error e, db)
    else (.ok (some conn), db)

/-- The call ends with a result or an exception. -/
def finish (db : Database ρ) (caller : ℕ) (result : Except Exn (Option ρ)) : Database ρ :=
  { db with returned := db.returned ++ [(caller, result)] }

/-- `acquire_scoped_connection` in `execute_sync`: an exception ends the call. -/
def acquireScopedConnection (db : Database ρ) (caller : ℕ) (isOpen : Bool)
    (reconnect : Except Exn Unit) : Database ρ :=
  match db.acquireConnection isOpen reconnect with
  | (.error e, db) => db.finish caller (.error e)
  | (.ok none, db) =>
    db.finish caller (.error (.runtimeError "No DB connection available after timeout"))
  | (.ok (some conn), db) => { db with running := db.running ++ [{ caller, conn }] }

/-- The body of `execute_sync`: what it returns or throws. The handler of `broken_connection` makes
a connection, destroys it, and throws the exception again. -/
def runQuery (db : Database ρ) : QueryOutcome ρ → Except Exn (Option ρ) × Database ρ
  | .result row => (.ok row, db)
  | .failed e => (.error e, db)
  | .broken e reconnect =>
    match db.reconnectConnection reconnect with
    | (.ok _, db) => (.error e, db)
    | (.error e, db) => (.error e, db)

/-- `release_connection` -/
def releaseConnection (db : Database ρ) (conn : Connection) : Database ρ :=
  { db with connections := db.connections ++ [conn] }

end Database

/-- The steps of the calls. -/
inductive PoolEvent (ρ : Type) where
  /-- a thread calls `execute_sync` -/
  | call
  /-- the `i`-th waiting call gets the lock, or its wait times out -/
  | acquire (i : ℕ) (isOpen : Bool) (reconnect : Except Exn Unit)
  /-- the body of the `i`-th call with a connection ends -/
  | query (i : ℕ) (outcome : QueryOutcome ρ)
  /-- its `ScopedConnection` is destroyed and the call returns or throws -/
  | release (i : ℕ)

namespace Database

variable {ρ : Type}

/-- One step of the calls; `none` if the event is not possible. -/
def step (db : Database ρ) : PoolEvent ρ → Option (Database ρ)
  | .call => some { db with calls := db.calls + 1, waiting := db.waiting ++ [db.calls] }
  | .acquire i isOpen reconnect =>
    db.waiting[i]?.map fun caller =>
      acquireScopedConnection { db with waiting := db.waiting.eraseIdx i } caller isOpen reconnect
  | .query i outcome =>
    db.running[i]?.bind fun call =>
      match call.result with
      | some _ => none
      | none =>
        let (result, db) := db.runQuery outcome
        some { db with running := db.running.set i { call with result := some result } }
  | .release i =>
    db.running[i]?.bind fun call =>
      call.result.map fun result =>
        (releaseConnection { db with running := db.running.eraseIdx i } call.conn).finish
          call.caller result

/-- The connections held by live `ScopedConnection`s. -/
def held (db : Database ρ) : List Connection := db.running.map (·.conn)

/-! ## What a step does to the connections -/

/-- If the event finds a closed connection at the front, its reconnect succeeds. -/
def Reconnects (db : Database ρ) : PoolEvent ρ → Prop
  | .acquire _ isOpen reconnect =>
    db.connections ≠ [] → isOpen = false → reconnect = .ok ()
  | _ => True

/-- What a step does to the connections: nothing (but new ones may be made and destroyed); the
front is taken; it is taken, destroyed and replaced; it is taken and destroyed; or one is given
back. -/
inductive Flow (db : Database ρ) (e : PoolEvent ρ) (db' : Database ρ) : Prop where
  | keep (hpool : db'.connections = db.connections) (hheld : db'.held = db.held)
    (hmade : db.made ≤ db'.made) (he : db.Reconnects e)
  | take (conn : Connection) (hpool : db.connections = conn :: db'.connections)
    (hheld : db'.held = db.held ++ [conn]) (hmade : db'.made = db.made) (he : db.Reconnects e)
  | renew (conn : Connection) (hpool : db.connections = conn :: db'.connections)
    (hheld : db'.held = db.held ++ [db.made]) (hmade : db'.made = db.made + 1)
    (he : db.Reconnects e)
  | lose (conn : Connection) (hpool : db.connections = conn :: db'.connections)
    (hheld : db'.held = db.held) (hmade : db'.made = db.made) (he : ¬ db.Reconnects e)
  | giveBack (conn : Connection) (hpool : db'.connections = db.connections ++ [conn])
    (hheld : (conn :: db'.held).Perm db.held) (hmade : db'.made = db.made)
    (he : db.Reconnects e)

/-- A body that ends leaves the connections alone. -/
lemma runQuery_keeps (db : Database ρ) (outcome : QueryOutcome ρ) :
    (db.runQuery outcome).2.connections = db.connections ∧
      (db.runQuery outcome).2.running = db.running ∧ db.made ≤ (db.runQuery outcome).2.made := by
  rcases outcome with row | e | ⟨e, _ | _⟩
  · exact ⟨rfl, rfl, le_rfl⟩
  · exact ⟨rfl, rfl, le_rfl⟩
  · exact ⟨rfl, rfl, le_rfl⟩
  · exact ⟨rfl, rfl, Nat.le_succ _⟩

/-- **Every step is such a flow.** -/
lemma step_flow {db db' : Database ρ} {e : PoolEvent ρ} (h : db.step e = some db') :
    Flow db e db' := by
  cases e with
  | call =>
    simp only [step, Option.some.injEq] at h
    subst h
    exact .keep rfl rfl le_rfl trivial
  | acquire i isOpen reconnect =>
    simp only [step, Option.map_eq_some_iff] at h
    obtain ⟨caller, -, rfl⟩ := h
    simp only [acquireScopedConnection, acquireConnection]
    cases hpool : db.connections with
    | nil => exact .keep hpool.symm rfl le_rfl fun hne => absurd hpool hne
    | cons conn rest =>
      cases isOpen with
      | true => exact .take conn hpool (by simp [held]) rfl fun _ h => by cases h
      | false =>
        cases reconnect with
        | ok u => exact .renew conn hpool (by simp [held, reconnectConnection]) rfl fun _ _ => rfl
        | error e =>
          refine .lose conn hpool rfl rfl fun hok => ?_
          have := hok (by simp [hpool]) rfl
          cases this
  | query i outcome =>
    simp only [step, Option.bind_eq_some_iff] at h
    obtain ⟨call, hcall, h⟩ := h
    obtain ⟨hpool, hrunning, hmade⟩ := db.runQuery_keeps outcome
    cases hres : call.result with
    | some r => simp [hres] at h
    | none =>
      simp only [hres, Option.some.injEq] at h
      subst h
      refine .keep hpool ?_ hmade trivial
      obtain ⟨hi, hget⟩ := List.getElem?_eq_some_iff.1 hcall
      simp only [held, hrunning, List.map_set]
      rw [← hget, ← List.map_set, List.set_getElem_self]
  | release i =>
    simp only [step, Option.bind_eq_some_iff, Option.map_eq_some_iff] at h
    obtain ⟨call, hcall, result, -, rfl⟩ := h
    refine .giveBack call.conn rfl ?_ rfl trivial
    obtain ⟨hi, hget⟩ := List.getElem?_eq_some_iff.1 hcall
    have hperm := (List.getElem_cons_eraseIdx_perm hi).map (·.conn)
    rwa [List.map_cons, hget] at hperm

/-! ## Conservation -/

/-- The connections in the queue and held are all different, and have been made. -/
structure Distinct (db : Database ρ) : Prop where
  nodup : (db.connections ++ db.held).Nodup
  lt_made : ∀ c ∈ db.connections ++ db.held, c < db.made

/-- With a pool of `n`: the connections in `connections_` and those held by live `ScopedConnection`s
are `n`, none is held by two callers, and if no call is running all `n` are in `connections_`. -/
structure Conserved (n : ℕ) (db : Database ρ) : Prop where
  count : db.connections.length + db.running.length = n
  notShared : db.held.Nodup
  full : db.waiting = [] → db.running = [] → db.connections.length = n

/-- The number of connections held is that of the calls that hold one. -/
lemma length_held (db : Database ρ) : db.held.length = db.running.length := List.length_map _

/-- A step that only moves connections keeps them different. -/
lemma Distinct.of_perm {db db' : Database ρ} (h : Distinct db)
    (hperm : (db'.connections ++ db'.held).Perm (db.connections ++ db.held))
    (hmade : db.made ≤ db'.made) : Distinct db' := by
  refine ⟨hperm.nodup_iff.2 h.nodup, fun c hc => ?_⟩
  exact (h.lt_made c (hperm.subset hc)).trans_le hmade

/-- A step keeps the connections different.

**Proof sketch.** Connections are only moved, dropped, or made; one that is made is different from
all that were made before. -/
lemma Flow.distinct {db db' : Database ρ} {e : PoolEvent ρ} (h : Flow db e db')
    (hd : Distinct db) : Distinct db' := by
  cases h with
  | keep hpool hheld hmade he =>
    exact hd.of_perm (by rw [hpool, hheld]) hmade
  | take conn hpool hheld hmade he =>
    refine hd.of_perm ?_ hmade.ge
    rw [hpool, hheld, ← List.append_assoc]
    exact List.perm_append_singleton conn _
  | renew conn hpool hheld hmade he =>
    have hsub : ∀ c ∈ db'.connections ++ db.held, c < db.made := fun c hc =>
      hd.lt_made c (by rw [hpool]; exact List.mem_cons_of_mem _ hc)
    have hnodup : (db'.connections ++ db.held).Nodup := by
      have := hd.nodup
      rw [hpool] at this
      exact this.of_cons
    have hall : (db'.connections ++ db'.held).Perm (db.made :: (db'.connections ++ db.held)) := by
      rw [hheld, ← List.append_assoc]
      exact List.perm_append_singleton _ _
    refine ⟨?_, fun c hc => ?_⟩
    · rw [hall.nodup_iff]
      exact List.nodup_cons.2 ⟨fun hmem => lt_irrefl _ (hsub _ hmem), hnodup⟩
    · rw [hmade]
      rcases List.mem_cons.1 (hall.subset hc) with rfl | hmem
      · exact Nat.lt_succ_self _
      · exact Nat.lt_succ_of_lt (hsub c hmem)
  | lose conn hpool hheld hmade he =>
    refine ⟨?_, fun c hc => ?_⟩
    · have := hd.nodup
      rw [hpool, ← hheld] at this
      exact this.of_cons
    · rw [hmade]
      exact hd.lt_made c (by rw [hpool, ← hheld]; exact List.mem_cons_of_mem _ hc)
  | giveBack conn hpool hheld hmade he =>
    refine hd.of_perm ?_ hmade.ge
    rw [hpool, List.append_assoc]
    exact hheld.append_left _

/-- **One step** keeps the number of connections exactly if it does not fail to reconnect. -/
lemma Flow.count_iff {db db' : Database ρ} {e : PoolEvent ρ} {n : ℕ} (h : Flow db e db')
    (hn : db.connections.length + db.held.length = n) :
    db'.connections.length + db'.held.length = n ↔ db.Reconnects e := by
  cases h with
  | keep hpool hheld hmade he =>
    rw [hpool, hheld]
    exact iff_of_true hn he
  | take conn hpool hheld hmade he =>
    rw [hpool, List.length_cons] at hn
    refine iff_of_true ?_ he
    rw [hheld, List.length_append, List.length_singleton]
    omega
  | renew conn hpool hheld hmade he =>
    rw [hpool, List.length_cons] at hn
    refine iff_of_true ?_ he
    rw [hheld, List.length_append, List.length_singleton]
    omega
  | lose conn hpool hheld hmade he =>
    rw [hpool, List.length_cons] at hn
    refine iff_of_false ?_ he
    rw [hheld]
    omega
  | giveBack conn hpool hheld hmade he =>
    have hlen := hheld.length_eq
    rw [List.length_cons] at hlen
    refine iff_of_true ?_ he
    rw [hpool, List.length_append, List.length_singleton]
    omega

/-- With different connections, conservation is a matter of their number. -/
lemma conserved_iff_count {db : Database ρ} {n : ℕ} (h : Distinct db) :
    Conserved n db ↔ db.connections.length + db.held.length = n := by
  rw [length_held]
  refine ⟨fun hc => hc.count, fun hn => ⟨hn, (List.nodup_append.1 h.nodup).2.1, ?_⟩⟩
  intro _ hrun
  rw [hrun, List.length_nil, Nat.add_zero] at hn
  exact hn

/-- **Connection-pool conservation.** Along every run of calls on a pool of `n` connections, with
any outcome of each query and each reconnect, the pool is always conserved if and only if every
call that finds a closed connection at the front of the queue succeeds in reconnecting.

**Proof sketch.** `Flow.count_iff` is the exact step condition; the invariant is that all
connections are different. -/
theorem conserved_iff_reconnects (n : ℕ) (es : List (PoolEvent ρ)) :
    Run.Always step (Conserved n) (new n : Database ρ) es ↔
      Run.StepsMeet step Reconnects (new n : Database ρ) es := by
  have hstart : Distinct (new n : Database ρ) := by
    constructor
    · simpa [new, held] using List.nodup_range
    · simp [new, held]
  refine Run.always_iff_stepsMeet (I := Distinct) ?_ ?_ hstart ?_ es
  · intro db e db' hd hstep
    exact (step_flow hstep).distinct hd
  · intro db e db' hd hP hstep
    have hflow := step_flow hstep
    rw [conserved_iff_count (hflow.distinct hd)]
    exact hflow.count_iff ((conserved_iff_count hd).1 hP)
  · rw [conserved_iff_count hstart]
    simp [new, held]

/-- The database is down: the only connection of a pool of one is found closed and cannot be
replaced. The call throws, and the pool stays empty for good. -/
theorem connection_lost :
    ¬ Run.Always step (Conserved 1) (new 1 : Database Unit)
      [.call, .acquire 0 false (.error (.pqxx "connection refused"))] := by
  intro h
  have hrun : Run.exec step (new 1 : Database Unit)
      [.call, .acquire 0 false (.error (.pqxx "connection refused"))] =
      some { connections := [], made := 1, calls := 1,
             returned := [(0, .error (.pqxx "connection refused"))] } := rfl
  have hcount := (h.last hrun).count
  cases hcount

end Database

end Purity
