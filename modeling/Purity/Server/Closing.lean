import Purity.Server.ReadLoop

set_option relaxedAutoImplicit false
set_option autoImplicit false

/-!
# After the close

`close` leaves the operations outstanding and the tasks posted alone: each of them holds the session
by a `shared_ptr` and runs some time. None of them takes anything from the client or answers it any
more, and each of them is the last of its kind: a closed session starts no reads and no challenges,
a posted `do_send_packet` may still start a write, and a write that completes the next one, but only
as many as there are packets left. So a closed session comes to rest, and then nothing holds it.

## Main definitions

* `Purity.Session.load` — how many tasks a closed session can still run.
* `Purity.Session.Gone` — nothing holds the session any more.

## Main results

* `Purity.Session.closed_drains` — a closed session only drains, and can always be drained.
-/

namespace Purity

/-- The event is a task that holds the session, not a call from elsewhere. -/
def SessionEvent.isTask : SessionEvent → Bool
  | .post _ | .close => false
  | _ => true

namespace Session

/-- How many tasks a closed session can still run: its reads, its challenges, its writes, one for
each message in the queue, and for each packet posted the task, its message and its write. -/
def load (s : Session) : ℕ :=
  s.reads + s.spawned.length + 3 * s.posted.length + s.writeQueue.length + s.inFlight.length

/-- No task holds the session any more. -/
structure Gone (s : Session) : Prop where
  reads : s.reads = 0
  spawned : s.spawned = []
  posted : s.posted = []
  inFlight : s.inFlight = []

/-- The tasks that hold the session, and the writes that the packets posted may start. -/
def held (s : Session) : ℕ :=
  s.reads + s.spawned.length + 2 * s.posted.length + s.inFlight.length

/-- What a closed session keeps: it is not in `sessions_`, and what it has received, dispatched,
logged and answered, and its mode, stay as they were in `s`. -/
structure Stays (s t : Session) : Prop where
  closed : t.closed = true
  registered : t.registered = s.registered
  mode : t.sessionMode = s.sessionMode
  isAuth : t.isAuth = s.isAuth
  received : t.received = s.received
  dispatched : t.dispatched = s.dispatched
  messages : t.messages = s.messages
  replies : t.replies = s.replies

variable {sha1 : Sha1} {s t u : Session}

/-- One after the other. -/
lemma Stays.trans (h : Stays s t) (h' : Stays t u) : Stays s u :=
  ⟨h'.closed, h'.registered.trans h.registered, h'.mode.trans h.mode, h'.isAuth.trans h.isAuth,
    h'.received.trans h.received, h'.dispatched.trans h.dispatched, h'.messages.trans h.messages,
    h'.replies.trans h.replies⟩

/-- `send_packet` does nothing to a closed session. -/
lemma sendPacket_of_closed (hclosed : s.closed = true) (p : Packet) : s.sendPacket p = s := by
  simp [sendPacket, hclosed]

/-- A challenge of a closed session replies to nothing. -/
lemma replies_challenge (hclosed : s.closed = true) (p : AuthPacket) (env : ChallengeEnv) :
    (HandlersAuth.handleLogonChallenge s p env).2.replies = s.replies ∧
      (HandlersAuth.handleLogonChallenge s p env).2.posted = s.posted := by
  have hsend : ∀ (t : Session) (q : Packet), t.closed = true → t.replies = s.replies →
      t.posted = s.posted → (t.sendPacket q).replies = s.replies ∧
        (t.sendPacket q).posted = s.posted := by
    intro t q ht hreplies hposted
    rw [sendPacket_of_closed ht]
    exact ⟨hreplies, hposted⟩
  have hout := (HandlersAuth.handleLogonChallenge_outcome s p env).1
  generalize (HandlersAuth.handleLogonChallenge s p env).2 = t at hout ⊢
  cases hout with
  | invalid hvalid => exact hsend s _ hclosed rfl rfl
  | notFound error hvalid hacc => exact hsend (HandlersAuth.storeName s p) _ hclosed rfl rfl
  | found salt verifier reply hvalid hacc hreply =>
    exact hsend (HandlersAuth.loadFound s p salt verifier env.rand) _ hclosed rfl rfl
  | unanswered salt verifier e hvalid hacc hreply => exact ⟨rfl, rfl⟩
  | busy salt verifier e hvalid hacc hreply =>
    exact hsend (HandlersAuth.loadFound s p salt verifier env.rand) _ hclosed rfl rfl

/-- `do_write` starts at most one write. -/
lemma length_inFlight_doWrite (s : Session) :
    s.doWrite.inFlight.length ≤ s.inFlight.length + min 1 s.writeQueue.length := by
  unfold doWrite
  split
  · exact Nat.le_add_right _ _
  · rename_i hqueue
    rw [hqueue]
    simp

/-- The task of a packet starts at most one write. -/
lemma length_inFlight_doSendPacket (s : Session) (p : Packet) :
    (s.doSendPacket p).inFlight.length ≤ s.inFlight.length + 1 := by
  unfold doSendPacket
  dsimp only
  split_ifs
  · have hwrite := length_inFlight_doWrite { s with
      writeQueue := s.writeQueue ++ [p.buildPacket]
      executed := s.executed ++ [p] }
    dsimp only at hwrite
    omega
  · exact Nat.le_succ _

/-- It puts one message in the queue. -/
lemma load_doSendPacket (s : Session) (p : Packet) : (s.doSendPacket p).load ≤ s.load + 2 := by
  unfold doSendPacket
  dsimp only
  split_ifs
  · have hwrite := length_inFlight_doWrite { s with
      writeQueue := s.writeQueue ++ [p.buildPacket]
      executed := s.executed ++ [p] }
    simp only [load, doWrite_toReadState, doWrite_toAuthState, doWrite_posted, doWrite_writeQueue,
      List.length_append, List.length_singleton] at hwrite ⊢
    omega
  · simp only [load, List.length_append, List.length_singleton]
    omega

/-- The completion of a write takes a message from the queue, and starts at most one write. -/
lemma load_writeHandler (s : Session) (m : Bytes) : (s.writeHandler m).load ≤ s.load := by
  unfold writeHandler
  cases hqueue : s.writeQueue with
  | nil => simp [load, hqueue]
  | cons front rest =>
    have hwrite := length_inFlight_doWrite { s with
      writeQueue := rest
      completed := s.completed ++ [m] }
    simp only [load, doWrite_toReadState, doWrite_toAuthState, doWrite_posted, doWrite_writeQueue,
      hqueue, List.length_cons] at hwrite ⊢
    omega

/-- **One step** of a closed session: it stays as it is, and a task makes its load smaller.

**Proof sketch.** One case for each event. The task of a packet starts at most one write; a write
that completes takes the front from the queue before it starts another. -/
lemma step_closed {e : SessionEvent} (hclosed : s.closed = true) (h : s.step sha1 e = some t) :
    Stays s t ∧ t.load + (if e.isTask then 1 else 0) ≤ s.load := by
  have hsame : Stays s s := ⟨hclosed, rfl, rfl, rfl, rfl, rfl, rfl, rfl⟩
  cases step_transition h with
  | readClosed chunk hclosed' hreads =>
    refine ⟨⟨hclosed, rfl, rfl, rfl, rfl, rfl, rfl, rfl⟩, ?_⟩
    simp only [load, SessionEvent.isTask, if_true]
    omega
  | read chunk b t hopen hreads hchunk hact hout => simp [hclosed] at hopen
  | readError hreads =>
    have hclose : ({ s with reads := s.reads - 1 } : Session).close =
        { s with reads := s.reads - 1 } := close_of_closed hclosed
    rw [hclose]
    refine ⟨⟨hclosed, rfl, rfl, rfl, rfl, rfl, rfl, rfl⟩, ?_⟩
    simp only [load, SessionEvent.isTask, if_true]
    omega
  | challenge i env p hp =>
    obtain ⟨hi, -⟩ := List.getElem?_eq_some_iff.1 hp
    obtain ⟨hreplies, hposted⟩ := replies_challenge
      (s := { s with spawned := s.spawned.eraseIdx i }) hclosed p env
    have heff := HandlersAuth.handleLogonChallenge_effect
      { s with spawned := s.spawned.eraseIdx i } p env
    have hread := heff.read
    have hwrite := heff.write
    have hspawned := heff.spawned
    refine ⟨⟨heff.closed.trans hclosed, heff.registered, heff.mode, heff.isAuth,
      congrArg ReadState.received hread, congrArg ReadState.dispatched hread,
      congrArg ReadState.messages hread, hreplies⟩, ?_⟩
    simp only [load, SessionEvent.isTask, if_true, hread, hwrite, hspawned, hposted,
      List.length_eraseIdx_of_lt hi]
    omega
  | send i p hp =>
    obtain ⟨hi, -⟩ := List.getElem?_eq_some_iff.1 hp
    have hload := load_doSendPacket { s with posted := s.posted.eraseIdx i } p
    refine ⟨⟨by simpa using hclosed, by simp, by simp, by simp, by simp, by simp, by simp, by simp⟩,
      hload.trans_lt ?_⟩
    simp only [load, List.length_eraseIdx_of_lt hi]
    omega
  | writeDone i m hm =>
    obtain ⟨hi, -⟩ := List.getElem?_eq_some_iff.1 hm
    have hload := load_writeHandler { s with inFlight := s.inFlight.eraseIdx i } m
    refine ⟨⟨by simpa using hclosed, ?_, by simp, by simp, by simp, by simp, by simp, by simp⟩,
      hload.trans_lt ?_⟩
    · unfold writeHandler
      split <;> simp
    · simp only [load, List.length_eraseIdx_of_lt hi]
      omega
  | writeError i m hm =>
    obtain ⟨hi, -⟩ := List.getElem?_eq_some_iff.1 hm
    have hclose : ({ s with inFlight := s.inFlight.eraseIdx i } : Session).close =
        { s with inFlight := s.inFlight.eraseIdx i } := close_of_closed hclosed
    rw [hclose]
    refine ⟨⟨hclosed, rfl, rfl, rfl, rfl, rfl, rfl, rfl⟩, ?_⟩
    simp only [load, SessionEvent.isTask, if_true, List.length_eraseIdx_of_lt hi]
    omega
  | post p =>
    rw [sendPacket_of_closed hclosed]
    exact ⟨hsame, le_rfl⟩
  | close =>
    rw [close_of_closed hclosed]
    exact ⟨hsame, le_rfl⟩

/-- While a task holds a closed session, some task can run that leaves fewer. -/
lemma exists_task (sha1 : Sha1) (hclosed : s.closed = true) (hfault : s.fault = none)
    (hheld : s.held ≠ 0) : ∃ e t,
      e.isTask = true ∧ s.step sha1 e = some t ∧ t.fault = none ∧ t.held < s.held := by
  have hnot : ¬ s.fault.isSome = true := by simp [hfault]
  by_cases hreads : s.reads = 0
  swap
  · have hclose : ({ s with reads := s.reads - 1 } : Session).close =
        { s with reads := s.reads - 1 } := close_of_closed hclosed
    refine ⟨.readError, { s with reads := s.reads - 1 }, rfl, ?_, hfault, ?_⟩
    · rw [step, if_neg hnot]
      exact (if_pos (Nat.pos_of_ne_zero hreads)).trans (congrArg some hclose)
    · simp only [held]
      omega
  cases hspawned : s.spawned with
  | cons p spawned =>
    -- whatever the challenge finds, it replies to nothing
    set env : ChallengeEnv := ⟨{ ttl := 0 }, 0, 0, .ok none, sampleRand⟩
    have heff := HandlersAuth.handleLogonChallenge_effect { s with spawned := spawned } p env
    obtain ⟨-, hposted⟩ := replies_challenge (s := { s with spawned := spawned }) hclosed p env
    refine ⟨.challenge 0 env, _, rfl, ?_, heff.fault.trans hfault, ?_⟩
    · rw [step, if_neg hnot]
      simp only [hspawned, List.getElem?_cons_zero, Option.map_some, List.eraseIdx_cons_zero]
    · simp only [held, heff.read, heff.write, heff.spawned, hposted, hspawned, List.length_cons]
      omega
  | nil =>
    cases hposted : s.posted with
    | cons p posted =>
      have hload := length_inFlight_doSendPacket { s with posted := posted } p
      refine ⟨.send 0, Session.doSendPacket { s with posted := posted } p, rfl, ?_,
        by simp [hfault], ?_⟩
      · rw [step, if_neg hnot]
        simp only [hposted, List.getElem?_cons_zero, Option.map_some, List.eraseIdx_cons_zero]
      · simp only [held, doSendPacket_toReadState, doSendPacket_toAuthState, doSendPacket_posted,
          hposted, List.length_cons] at hload ⊢
        omega
    | nil =>
      cases hinFlight : s.inFlight with
      | cons m inFlight =>
        have hclose : ({ s with inFlight := inFlight } : Session).close =
            { s with inFlight := inFlight } := close_of_closed hclosed
        refine ⟨.writeError 0, { s with inFlight := inFlight }, rfl, ?_, hfault, ?_⟩
        · rw [step, if_neg hnot]
          simp only [hinFlight, List.getElem?_cons_zero, Option.map_some, List.eraseIdx_cons_zero,
            hclose]
        · simp only [held, hinFlight, List.length_cons]
          omega
      | nil =>
        simp only [held, hreads, hspawned, hposted, hinFlight, List.length_nil] at hheld
        exact absurd rfl hheld

/-- **A closed session drains.** In every run from a closed session, with any interleaving of what
was outstanding: the session stays closed, keeps its mode, and receives, dispatches, logs and
answers nothing more; its tasks are at most as many as its load was; and from the state reached,
unless something undefined has happened, tasks alone can run until none holds it.

**Proof sketch.** Every task makes the load smaller; as long as one is left, it can end without
starting as many. -/
theorem closed_drains (sha1 : Sha1) (s : Session) (hclosed : s.closed = true)
    (fs : List SessionEvent) (t : Session) (hrest : Run.exec (step sha1) s fs = some t) :
    Stays s t ∧ fs.countP SessionEvent.isTask + t.load ≤ s.load ∧
      (t.fault = none → ∃ gs u, (∀ g ∈ gs, g.isTask = true) ∧
        Run.exec (step sha1) t gs = some u ∧ Stays s u ∧ u.Gone) := by
  have hrefl : Stays s s := ⟨hclosed, rfl, rfl, rfl, rfl, rfl, rfl, rfl⟩
  obtain ⟨hstays, hload⟩ : Stays s t ∧ fs.countP SessionEvent.isTask + t.load ≤ s.load := by
    refine Run.exec_induction (P := fun fs t => Stays s t ∧
      fs.countP SessionEvent.isTask + t.load ≤ s.load) ⟨hrefl, by simp⟩ ?_ hrest
    rintro fs f t t' ⟨hstays, hload⟩ hstep
    obtain ⟨hstays', hload'⟩ := step_closed hstays.closed hstep
    refine ⟨hstays.trans hstays', ?_⟩
    rw [List.countP_append, List.countP_singleton]
    omega
  refine ⟨hstays, hload, fun hfault => ?_⟩
  have hmove : ∀ u : Session, Stays s u ∧ u.fault = none → u.held ≠ 0 → ∃ e u', e.isTask = true ∧
      u.step sha1 e = some u' ∧ (Stays s u' ∧ u'.fault = none) ∧ u'.held < u.held := by
    intro u hu hne
    obtain ⟨e, u', he, hstep, hfault', hless⟩ := exists_task sha1 hu.1.closed hu.2 hne
    exact ⟨e, u', he, hstep, ⟨hu.1.trans (step_closed hu.1.closed hstep).1, hfault'⟩, hless⟩
  obtain ⟨gs, u, hgs, hrun, ⟨hstays', -⟩, hheld⟩ :=
    Run.exists_exec_of_decreasing hmove ⟨hstays, hfault⟩
  refine ⟨gs, u, hgs, hrun, hstays', ?_⟩
  simp only [held, Nat.add_eq_zero_iff, Nat.mul_eq_zero, List.length_eq_zero_iff] at hheld
  exact ⟨hheld.1.1.1, hheld.1.1.2, by simpa using hheld.1.2, hheld.2⟩

/-- A session that is closed with a ping's reply posted and its read outstanding. -/
def closingEvents : List SessionEvent := [.read [1, 0, 4, 1, 2, 3, 4], .close]

/-- The reply is still written to the socket, in vain, and the session comes to rest. -/
theorem closed_drains_reply :
    ∃ s t, Run.exec (step SRP6.sampleSha1) (start SRP6.sampleSha1) closingEvents = some s ∧
      Run.exec (step SRP6.sampleSha1) s [.send 0] = some t ∧ Stays s t ∧
      ∃ gs u, (∀ g ∈ gs, g.isTask = true) ∧ Run.exec (step SRP6.sampleSha1) t gs = some u ∧
        Stays s u ∧ u.Gone := by
  have hrun : ((Run.exec (step SRP6.sampleSha1) (start SRP6.sampleSha1) closingEvents).any fun s =>
      s.closed && (Run.exec (step SRP6.sampleSha1) s [.send 0]).any fun t => t.fault.isNone) =
        true := by
    decide +kernel
  obtain ⟨s, hs, hres⟩ := (Option.any_eq_true _ _).1 hrun
  obtain ⟨hclosed, hres⟩ := Bool.and_eq_true_iff.1 hres
  obtain ⟨t, ht, hfault⟩ := (Option.any_eq_true _ _).1 hres
  obtain ⟨hstays, -, hgone⟩ := closed_drains SRP6.sampleSha1 s hclosed [.send 0] t ht
  exact ⟨s, t, hs, ht, hstays, hgone (Option.isNone_iff_eq_none.1 hfault)⟩

end Session

end Purity
