import Purity.Base.Simulation
import Purity.Server.Server

set_option relaxedAutoImplicit false
set_option autoImplicit false

/-!
# One session among many

The sessions of a server run in any interleaving and share the account cache, and while a challenge
waits for the database, others go on, in the same session too. Yet each session does only what it
could do alone, with challenges that run in one piece: nothing that another session does can be seen
in it, but for what its challenges find. So what holds of every run of a session holds of every
session of a server.

## Main definitions

* `Purity.Session.withLogin` — a session with another `SRP6` object and other challenges spawned.
* `Purity.Session.Alike` — two sessions agree, but for the name stored and the challenges waiting.
* `Purity.ServerEvent.own` — what an event of the server is to a session.
* `Purity.Server.Twin` — a session alone that agrees with one of the server.

## Main results

* `Purity.Session.step_blind` — a step other than a challenge does not look at the login.
* `Purity.Server.Twin.step` — a step of the server is nothing to a session alone, or a step.
* `Purity.Server.session_alone` — every session of a server makes a run of its own.

## Design

A server's challenge stores the name when it looks in the cache, and loads the account when the
database has answered. A session alone makes both at once, at the later time. In between, the name
stored may be that of another challenge; `username_` is only ever logged, so the sessions are
compared without it.
-/

namespace Purity

open HandlersAuth Utf8

namespace Session

/-- A session with another `SRP6` object and other challenges spawned. -/
def withLogin (s : Session) (srp : SRP6) (spawned : List AuthPacket) : Session :=
  { s with srp := srp, spawned := spawned }

/-! ## What does not look at the login -/

/-- From `s`, the method `f` neither looks at the `SRP6` object nor at the challenges spawned, and
only adds to these. -/
def Blind (f : Session → Session) (s : Session) : Prop :=
  ∃ (s' : Session) (new : List AuthPacket), ∀ srp spawned,
    f (s.withLogin srp spawned) = s'.withLogin srp (spawned ++ new)

section Methods

variable (s : Session) (srp : SRP6) (spawned : List AuthPacket)

/-- `close` does not look at the login. -/
lemma close_withLogin : (s.withLogin srp spawned).close = s.close.withLogin srp spawned := by
  have hclosed : (s.withLogin srp spawned).closed = s.closed := rfl
  unfold close
  rw [hclosed]
  split_ifs <;> rfl

/-- Neither does `send_packet`. -/
lemma sendPacket_withLogin (p : Packet) :
    (s.withLogin srp spawned).sendPacket p = (s.sendPacket p).withLogin srp spawned := by
  have hclosed : (s.withLogin srp spawned).closed = s.closed := rfl
  unfold sendPacket
  rw [hclosed]
  split_ifs <;> rfl

/-- Nor `do_write`. -/
lemma doWrite_withLogin : (s.withLogin srp spawned).doWrite = s.doWrite.withLogin srp spawned := by
  have hqueue : (s.withLogin srp spawned).writeQueue = s.writeQueue := rfl
  unfold doWrite
  rw [hqueue]
  cases s.writeQueue <;> rfl

/-- Nor `do_send_packet`. -/
lemma doSendPacket_withLogin (p : Packet) :
    (s.withLogin srp spawned).doSendPacket p = (s.doSendPacket p).withLogin srp spawned := by
  have hwriting : (s.withLogin srp spawned).writing = s.writing := rfl
  unfold doSendPacket
  dsimp only
  rw [hwriting]
  split_ifs
  · exact doWrite_withLogin { s with
      writeQueue := s.writeQueue ++ [p.buildPacket]
      executed := s.executed ++ [p] } srp spawned
  · rfl

/-- Nor the completion of an `async_write`. -/
lemma writeHandler_withLogin (m : Bytes) :
    (s.withLogin srp spawned).writeHandler m = (s.writeHandler m).withLogin srp spawned := by
  have hqueue : (s.withLogin srp spawned).writeQueue = s.writeQueue := rfl
  unfold writeHandler
  rw [hqueue]
  cases s.writeQueue with
  | nil => rfl
  | cons front rest =>
    exact doWrite_withLogin { s with
      writeQueue := rest
      completed := s.completed ++ [m] } srp spawned

end Methods

variable {sha1 : Sha1} {s t s' : Session}

/-- What neither looks at the login nor spawns a challenge. -/
lemma Blind.of_eq {f : Session → Session} (h : ∀ srp spawned, f (s.withLogin srp spawned) =
    (f s).withLogin srp spawned) : Blind f s :=
  ⟨f s, [], fun srp spawned => by rw [h, List.append_nil]⟩

/-- The dispatch of an Auth packet, in the reader's `try`. -/
lemma blind_tryAuth (s : Session) (p : AuthPacket) :
    Blind (fun t => tryWith (HandlersAuth.dispatch sha1) t p) s := by
  unfold tryWith HandlersAuth.dispatch
  by_cases hping : p.opcode = AuthOpcodes.cmsgPing
  · simp only [if_pos hping, HandlersAuth.handlePing]
    cases p.buffer.readUint32Le with
    | error e => exact .of_eq fun srp spawned => close_withLogin s srp spawned
    | ok r => exact .of_eq fun srp spawned => sendPacket_withLogin s srp spawned _
  by_cases hchallenge : p.opcode = AuthOpcodes.cmsgAuthLogonChallenge
  · simp only [if_neg hping, if_pos hchallenge]
    exact ⟨s, [p], fun srp spawned => rfl⟩
  by_cases hproof : p.opcode = AuthOpcodes.cmsgAuthLogonProof
  · simp only [if_neg hping, if_neg hchallenge, if_pos hproof, handleLogonProof]
    cases readProof p with
    | error e => exact .of_eq fun srp spawned => sendPacket_withLogin s srp spawned _
    | ok r =>
      exact .of_eq fun srp spawned =>
        sendPacket_withLogin { s with sessionMode := .workSession, isAuth := true } srp spawned _
  · simp only [if_neg hping, if_neg hchallenge, if_neg hproof]
    exact .of_eq fun srp spawned => rfl

/-- The dispatch of a Work packet, in the reader's `try`. -/
lemma blind_tryWork (s : Session) (p : WorkPacket) :
    Blind (fun t => tryWith HandlersWork.dispatch t p) s := by
  unfold tryWith HandlersWork.dispatch
  by_cases hping : p.opcode = WorkOpcodes.cmsgPing
  · simp only [if_pos hping, HandlersWork.handlePing]
    cases p.buffer.readUint32Le with
    | error e => exact .of_eq fun srp spawned => close_withLogin s srp spawned
    | ok r => exact .of_eq fun srp spawned => sendPacket_withLogin s srp spawned _
  by_cases hmessage : p.opcode = WorkOpcodes.cmsgMessage
  · simp only [if_neg hping, if_pos hmessage]
    exact .of_eq fun srp spawned => rfl
  · simp only [if_neg hping, if_neg hmessage]
    exact .of_eq fun srp spawned => rfl

/-- **A reader** does not look at the login: it throws whatever the login is, or it does not. -/
lemma blind_processReadBufferWith {ω : Type} (fmt : HeaderFormat ω)
    (toPacket : PacketOf ω → Packet) (emptyStage : ω)
    (dispatch : Session → PacketOf ω → Except Exn Session)
    (hdispatch : ∀ s p, Blind (fun t => tryWith dispatch t p) s) (s : Session) :
    (∃ e, ∀ srp spawned, processReadBufferWith fmt toPacket emptyStage dispatch
      (s.withLogin srp spawned) = .error e) ∨
    ∃ (s' : Session) (new : List AuthPacket), ∀ srp spawned,
      processReadBufferWith fmt toPacket emptyStage dispatch (s.withLogin srp spawned) =
        .ok (s'.withLogin srp (spawned ++ new)) := by
  have hbuffer : ∀ srp spawned, (s.withLogin srp spawned).readBuffer = s.readBuffer :=
    fun _ _ => rfl
  have hsame : ∀ f : Session → Session, Blind f s → ∃ (s' : Session) (new : List AuthPacket),
      ∀ srp spawned, (Except.ok (f (s.withLogin srp spawned)) : Except Exn Session) =
        .ok (s'.withLogin srp (spawned ++ new)) := fun f ⟨s', new, h⟩ =>
    ⟨s', new, fun srp spawned => congrArg Except.ok (h srp spawned)⟩
  simp only [processReadBufferWith, hbuffer]
  split_ifs with hshort hwait hbig
  · exact .inr (hsame id (.of_eq fun _ _ => rfl))
  · exact .inr (hsame id (.of_eq fun _ _ => rfl))
  · exact .inr (hsame close (.of_eq fun srp spawned => close_withLogin s srp spawned))
  · generalize fmt.headerSize + _ = n
    cases s.readBuffer.readCompleted n with
    | error e => exact .inl ⟨e, fun _ _ => rfl⟩
    | ok b =>
      dsimp only
      generalize PacketOf.deserializeWith fmt _ _ = res
      obtain ⟨_ | _, packet⟩ := res
      · exact .inr ⟨_, [], fun srp spawned => by
          rw [List.append_nil]
          exact congrArg Except.ok (close_withLogin { s with readBuffer := b } srp spawned)⟩
      · obtain ⟨s', new, h⟩ := hdispatch (s.consume b _ (toPacket packet)) packet
        exact .inr ⟨s', new, fun srp spawned => congrArg Except.ok (h srp spawned)⟩

/-- Nor the reader of the current mode. -/
lemma blind_processReadBuffer (sha1 : Sha1) (s : Session) :
    (∃ e, ∀ srp spawned, processReadBuffer sha1 (s.withLogin srp spawned) = .error e) ∨
    ∃ (s' : Session) (new : List AuthPacket), ∀ srp spawned,
      processReadBuffer sha1 (s.withLogin srp spawned) =
        .ok (s'.withLogin srp (spawned ++ new)) := by
  have hmode : ∀ srp spawned, (s.withLogin srp spawned).sessionMode = s.sessionMode :=
    fun _ _ => rfl
  unfold processReadBuffer
  simp only [hmode]
  cases s.sessionMode with
  | authSession => exact blind_processReadBufferWith _ _ _ _ blind_tryAuth s
  | workSession => exact blind_processReadBufferWith _ _ _ _ blind_tryWork s

/-- The completion of a read of an open session, once the bytes are in the buffer. -/
lemma readHandler_open (sha1 : Sha1) {b : MessageBuffer} {chunk : Bytes} (hopen : s.closed = false)
    (hb : s.readBuffer.receive chunk = .ok b) : s.readHandler sha1 chunk =
      match processReadBuffer sha1 (s.arrive b chunk) with
      | .error e => { s.arrive b chunk with fault := some (.uncaught e) }
      | .ok s' => if s'.closed then s' else s'.doRead := by
  have hnot : ¬ s.closed = true := by simp [hopen]
  unfold readHandler
  dsimp only
  rw [if_neg hnot, hb]
  rfl

/-- Nor the completion of a read. -/
lemma blind_readHandler (sha1 : Sha1) (s : Session) (chunk : Bytes) :
    Blind (fun t => t.readHandler sha1 chunk) s := by
  have hclosed : ∀ srp spawned, (s.withLogin srp spawned).closed = s.closed := fun _ _ => rfl
  cases hc : s.closed with
  | true =>
    have hres : ∀ t : Session, t.closed = true →
        t.readHandler sha1 chunk = { t with reads := t.reads - 1 } := fun t ht => by
      simp [readHandler, ht]
    refine ⟨{ s with reads := s.reads - 1 }, [], fun srp spawned => ?_⟩
    rw [List.append_nil]
    exact hres _ ((hclosed srp spawned).trans hc)
  | false =>
    obtain ⟨b, hb, -⟩ := s.readBuffer.active_receive chunk
    have hres : ∀ srp spawned, (s.withLogin srp spawned).readHandler sha1 chunk = _ :=
      fun srp spawned => readHandler_open sha1 ((hclosed srp spawned).trans hc) hb
    have harrive : ∀ srp spawned, (s.withLogin srp spawned).arrive b chunk =
        (s.arrive b chunk).withLogin srp spawned := fun _ _ => rfl
    simp only [harrive] at hres
    rcases blind_processReadBuffer sha1 (s.arrive b chunk) with ⟨e, h⟩ | ⟨s', new, h⟩
    · refine ⟨{ s.arrive b chunk with fault := some (.uncaught e) }, [], fun srp spawned => ?_⟩
      rw [List.append_nil]
      refine (hres srp spawned).trans ?_
      rw [h]
      rfl
    · have hclosed' : ∀ srp spawned, (s'.withLogin srp spawned).closed = s'.closed :=
        fun _ _ => rfl
      refine ⟨if s'.closed then s' else s'.doRead, new, fun srp spawned => ?_⟩
      refine (hres srp spawned).trans ?_
      rw [h]
      dsimp only
      rw [hclosed']
      split_ifs <;> rfl

/-- **A step** other than a challenge does not look at the login. -/
lemma step_blind {e : SessionEvent} (he : e.isChallenge = false)
    (h : s.step sha1 e = some s') : ∃ new, ∀ srp spawned,
      (s.withLogin srp spawned).step sha1 e = some (s'.withLogin srp (spawned ++ new)) := by
  have hsame : ∀ f : SRP6 → List AuthPacket → Option Session,
      (∀ srp spawned, f srp spawned = some (s'.withLogin srp spawned)) →
      ∃ new, ∀ srp spawned, f srp spawned = some (s'.withLogin srp (spawned ++ new)) :=
    fun f hf => ⟨[], fun srp spawned => by rw [hf, List.append_nil]⟩
  have hfault : ∀ srp spawned, (s.withLogin srp spawned).fault.isSome = s.fault.isSome :=
    fun _ _ => rfl
  have hf : ¬ s.fault.isSome = true := by simp [fault_of_step h]
  simp only [step, if_neg hf] at h
  simp only [step, hfault, if_neg hf]
  cases e with
  | read chunk =>
    simp only [Option.ite_none_right_eq_some, Option.some.injEq] at h
    obtain ⟨hmay, rfl⟩ := h
    obtain ⟨s', new, hs'⟩ := blind_readHandler sha1 s chunk
    refine ⟨new, fun srp spawned => ?_⟩
    have hown : s.readHandler sha1 chunk = s'.withLogin s.srp (s.spawned ++ new) :=
      hs' s.srp s.spawned
    rw [hown]
    exact (if_pos hmay).trans (congrArg some (hs' srp spawned))
  | readError =>
    simp only [Option.ite_none_right_eq_some, Option.some.injEq] at h
    obtain ⟨hmay, rfl⟩ := h
    exact hsame _ fun srp spawned => (if_pos hmay).trans
      (congrArg some (close_withLogin { s with reads := s.reads - 1 } srp spawned))
  | challenge i env => cases he
  | send i =>
    simp only [Option.map_eq_some_iff] at h
    obtain ⟨p, hp, rfl⟩ := h
    refine hsame _ fun srp spawned => Option.map_eq_some_iff.2 ⟨p, hp, ?_⟩
    exact doSendPacket_withLogin { s with posted := s.posted.eraseIdx i } srp spawned p
  | writeDone i =>
    simp only [Option.map_eq_some_iff] at h
    obtain ⟨m, hm, rfl⟩ := h
    refine hsame _ fun srp spawned => Option.map_eq_some_iff.2 ⟨m, hm, ?_⟩
    exact writeHandler_withLogin { s with inFlight := s.inFlight.eraseIdx i } srp spawned m
  | writeError i =>
    simp only [Option.map_eq_some_iff] at h
    obtain ⟨m, hm, rfl⟩ := h
    refine hsame _ fun srp spawned => Option.map_eq_some_iff.2 ⟨m, hm, ?_⟩
    exact close_withLogin { s with inFlight := s.inFlight.eraseIdx i } srp spawned
  | post packet =>
    cases h
    exact hsame _ fun srp spawned => congrArg some (sendPacket_withLogin s srp spawned packet)
  | close =>
    cases h
    exact hsame _ fun srp spawned => congrArg some (close_withLogin s srp spawned)

/-! ## Sessions that agree -/

/-- The sessions `s` and `t` agree: everything is the same, but that the names stored may differ,
and that `t` has still to run all of the challenges that `s` has spawned, in some order, and those
in `waiting`, which `s` has begun. -/
structure Alike (waiting : List AuthPacket) (s t : Session) : Prop where
  rest : t = s.withLogin t.srp t.spawned
  srp : t.srp.setOnlyUsername [] = s.srp.setOnlyUsername []
  spawned : t.spawned.Perm (s.spawned ++ waiting)

namespace Alike

variable {waiting : List AuthPacket} {p : AuthPacket}

/-- A session agrees with itself. -/
lemma refl (s : Session) : Alike [] s s := ⟨rfl, rfl, by rw [List.append_nil]⟩

/-- Whatever does not depend on the login is the same. -/
lemma field_eq {α : Type} (h : Alike waiting s t) (f : Session → α)
    (hf : ∀ srp spawned, f (s.withLogin srp spawned) = f s) : f t = f s := by
  rw [h.rest]
  exact hf _ _

/-- The fault is the same. -/
lemma fault (h : Alike waiting s t) : t.fault = s.fault := h.field_eq (·.fault) fun _ _ => rfl

/-- The order of the challenges does not matter. -/
lemma perm {waiting' : List AuthPacket} (h : Alike waiting s t) (hw : waiting.Perm waiting') :
    Alike waiting' s t :=
  ⟨h.rest, h.srp, h.spawned.trans (hw.append_left _)⟩

/-- **A step** of the one other than a challenge is one of the other. -/
lemma step {e : SessionEvent} (h : Alike waiting s t) (he : e.isChallenge = false)
    (hstep : s.step sha1 e = some s') : ∃ t', t.step sha1 e = some t' ∧ Alike waiting s' t' := by
  obtain ⟨new, hnew⟩ := step_blind he hstep
  have hown : s' = s'.withLogin s.srp (s.spawned ++ new) :=
    Option.some.inj (hstep.symm.trans (hnew s.srp s.spawned))
  refine ⟨s'.withLogin t.srp (t.spawned ++ new), ?_, rfl, ?_, ?_⟩
  · rw [h.rest]
    exact hnew t.srp t.spawned
  · rw [hown]
    exact h.srp
  · rw [hown]
    change (t.spawned ++ new).Perm (s.spawned ++ new ++ waiting)
    refine (h.spawned.append_right new).trans ?_
    rw [List.append_assoc, List.append_assoc]
    exact List.perm_append_comm.append_left _

/-- A reply is sent by both. -/
lemma sendPacket (h : Alike waiting s t) (reply : Packet) :
    Alike waiting (s.sendPacket reply) (t.sendPacket reply) := by
  refine ⟨?_, ?_, ?_⟩
  · conv_lhs => rw [h.rest]
    rw [sendPacket_withLogin]
    simp
  · simpa using h.srp
  · simpa using h.spawned

/-- Storing a name, in either, changes nothing. -/
lemma storeName_left (h : Alike waiting s t) (p : AuthPacket) : Alike waiting (storeName s p) t :=
  ⟨h.rest, h.srp, h.spawned⟩

lemma storeName_right (h : Alike waiting s t) (p : AuthPacket) :
    Alike waiting s (storeName t p) := by
  refine ⟨?_, h.srp, h.spawned⟩
  conv_lhs => rw [h.rest]
  rfl

/-- Both load the same account. -/
lemma loadAccount (h : Alike waiting s t) (username salt verifier : Bytes) (rand : Rand32) :
    Alike waiting (loadAccount s username salt verifier rand)
      (loadAccount t username salt verifier rand) := by
  refine ⟨?_, ?_, h.spawned⟩
  · conv_lhs => rw [h.rest]
    rfl
  · exact congrArg (fun srp : SRP6 => (srp.loadVerifier salt verifier).generateServerEphemeral rand)
      h.srp

/-- The reply does not depend on the name stored. -/
lemma challengeReply_eq (h : Alike waiting s t) (salt : Bytes) :
    challengeReply t.srp salt = challengeReply s.srp salt := by
  change challengeReply (t.srp.setOnlyUsername []) salt =
    challengeReply (s.srp.setOnlyUsername []) salt
  rw [h.srp]

/-- A challenge that `s` begins is one that it waits for. -/
lemma begin_challenge {i : ℕ} (h : Alike waiting s t) (hp : s.spawned[i]? = some p) :
    Alike (p :: waiting) { s with spawned := s.spawned.eraseIdx i } t := by
  obtain ⟨hi, rfl⟩ := List.getElem?_eq_some_iff.1 hp
  refine ⟨h.rest, h.srp, h.spawned.trans ?_⟩
  exact ((List.getElem_cons_eraseIdx_perm hi).symm.append_right waiting).trans List.perm_middle.symm

/-- A challenge that `s` has begun is still to be run by `t`. -/
lemma exists_challenge (h : Alike (p :: waiting) s t) :
    ∃ j, t.spawned[j]? = some p ∧ Alike waiting s { t with spawned := t.spawned.eraseIdx j } := by
  obtain ⟨j, hj, hrest⟩ := Run.exists_getElem?_of_perm (h.spawned.trans List.perm_middle)
  refine ⟨j, hj, ?_, h.srp, hrest⟩
  conv_lhs => rw [h.rest]
  rfl

/-- Both find the same in the cache. -/
lemma challengeLookup (h : Alike waiting s t) (p : AuthPacket) (c : AccountCache) (now : ℕ)
    (rand : Rand32) :
    (challengeLookup t p c now rand).2.2 = (challengeLookup s p c now rand).2.2 ∧
      Alike waiting (challengeLookup s p c now rand).2.1 (challengeLookup t p c now rand).2.1 := by
  have hname := (h.storeName_left p).storeName_right p
  unfold HandlersAuth.challengeLookup
  dsimp only
  split_ifs
  · exact ⟨rfl, h.sendPacket _⟩
  · rcases c.get (toUppercase p.buffer.readStringNtLe.1) now with ⟨_ | e, c'⟩
    · exact ⟨rfl, hname⟩
    · have hload := hname.loadAccount (toUppercase p.buffer.readStringNtLe.1) e.salt e.verifier rand
      have hreply := hload.challengeReply_eq e.salt
      simp only [storeName, accountName, challengeName] at hload hreply
      dsimp only
      rw [hreply]
      split
      · exact ⟨rfl, hload.sendPacket _⟩
      · exact ⟨rfl, hload⟩

/-- Both do the same with the answer of the database. -/
lemma challengeQuery (h : Alike waiting s t) (p : AuthPacket) (c c' : AccountCache) (now now' : ℕ)
    (db : Except Exn (Option AccountsRow)) (rand : Rand32) :
    Alike waiting (challengeQuery s p c now db rand).2 (challengeQuery t p c' now' db rand).2 := by
  rcases db with ex | _ | ⟨_ | salt, _ | verifier⟩
  · exact h.sendPacket _
  · exact h.sendPacket _
  · exact h.sendPacket _
  · exact h.sendPacket _
  · exact h.sendPacket _
  · have hload := h.loadAccount (toUppercase p.buffer.readStringNtLe.1) salt verifier rand
    simp only [HandlersAuth.challengeQuery]
    split_ifs
    · exact h.sendPacket _
    · rw [hload.challengeReply_eq salt]
      split <;> exact hload.sendPacket _

/-- **A challenge that the cache answers** is one that the session alone makes. -/
lemma challenge_hit {c : AccountCache} {now : ℕ} {rand : Rand32} (h : Alike (p :: waiting) s t)
    (hhit : (HandlersAuth.challengeLookup s p c now rand).2.2 = false) (hfault : s.fault = none) :
    ∃ j env t', env.cache = c ∧ t.step sha1 (.challenge j env) = some t' ∧
      Alike waiting (HandlersAuth.challengeLookup s p c now rand).2.1 t' := by
  obtain ⟨j, hj, hrest⟩ := h.exists_challenge
  obtain ⟨hasks, hlook⟩ := hrest.challengeLookup p c now rand
  rw [hhit] at hasks
  have hstep : t.step sha1 (.challenge j ⟨c, now, now, .ok none, rand⟩) =
      some (HandlersAuth.challengeLookup { t with spawned := t.spawned.eraseIdx j } p c now
        rand).2.1 := by
    have hnone : ¬ t.fault.isSome = true := by simp [h.fault, hfault]
    simp only [Session.step, if_neg hnone, hj, Option.map_some, handleLogonChallenge_eq]
    rcases hres : HandlersAuth.challengeLookup { t with spawned := t.spawned.eraseIdx j } p c now
      rand with ⟨c', t', asks⟩
    obtain rfl : asks = false := by simpa [hres] using hasks
    rfl
  exact ⟨j, _, _, rfl, hstep, hlook⟩

/-- **A challenge that the database answers** is one that the session alone makes in one piece. -/
lemma challenge_query {c : AccountCache} {now : ℕ} {db : Except Exn (Option AccountsRow)}
    {rand : Rand32} (h : Alike (p :: waiting) s t) (hvalid : isValidUtf8 (challengeName p) = true)
    (hfault : s.fault = none) :
    ∃ j env t', env.cache = { ttl := 0 } ∧ t.step sha1 (.challenge j env) = some t' ∧
      Alike waiting (HandlersAuth.challengeQuery s p c now db rand).2 t' := by
  obtain ⟨j, hj, hrest⟩ := h.exists_challenge
  have hquery := (hrest.storeName_right p).challengeQuery p c { ttl := 0 } now 0 db rand
  refine ⟨j, ⟨{ ttl := 0 }, 0, 0, db, rand⟩, _, rfl, ?_, hquery⟩
  have hnone : ¬ t.fault.isSome = true := by simp [h.fault, hfault]
  simp only [Session.step, if_neg hnone, hj, Option.map_some, handleLogonChallenge_eq,
    challengeLookup_empty, hvalid, if_true]
  rfl

end Alike

end Session

/-! ## The sessions of a server -/

/-- What an event of the server is to its `i`-th session: its own events, other than challenges, and
the `close` of `stop`. -/
def ServerEvent.own (i : ℕ) : ServerEvent → Option SessionEvent
  | .session j e => if j = i then some e else none
  | .stop => some .close
  | _ => none

namespace Server

/-- The challenges of the `i`-th session that wait for the database. -/
def waiting (σ : Server) (i : ℕ) : List AuthPacket :=
  (σ.queries.filter fun q => q.session == i).map (·.packet)

/-- The session `t`, alone, agrees with the `i`-th session of the server. Before that is accepted
nothing has happened to `t`, and if it never will be, `t` is closed. -/
def Twin (sha1 : Sha1) (σ : Server) (i : ℕ) (t : Session) : Prop :=
  match σ.sessions[i]? with
  | some s => Session.Alike (σ.waiting i) s t
  | none => (σ.stopped = false → t = Session.start sha1 ∧ σ.waiting i = []) ∧
      (σ.stopped = true → t.closed = true)

/-- What an event of the server is to a session alone that agrees with the `i`-th one: nothing, an
event of its own, or a challenge, in a well-formed cache if that of the server is. -/
inductive TwinStep (sha1 : Sha1) (σ : Server) (i : ℕ) (e : ServerEvent) (t t' : Session) : Prop
  | same (hown : e.own i = none) (ht : t' = t)
  | own (f : SessionEvent) (hown : e.own i = some f) (hf : f.isChallenge = false)
    (hstep : t.step sha1 f = some t')
  | challenge (j : ℕ) (env : ChallengeEnv) (hown : e.own i = none)
    (hcache : σ.cache.WellFormed → env.cache.WellFormed)
    (hstep : t.step sha1 (.challenge j env) = some t')

/-- The challenges that wait for the database have valid names. -/
def ValidQueries (σ : Server) : Prop :=
  ∀ q ∈ σ.queries, isValidUtf8 (challengeName q.packet) = true

variable {sha1 : Sha1} {σ σ' : Server} {i j : ℕ} {t : Session}

/-- A challenge that waits for the database and one that does not. -/
lemma waiting_eraseIdx {k : ℕ} {q : Query} (hq : σ.queries[k]? = some q) (i : ℕ) :
    if q.session = i then (σ.waiting i).Perm
        (q.packet :: waiting { σ with queries := σ.queries.eraseIdx k } i)
      else (σ.waiting i).Perm (waiting { σ with queries := σ.queries.eraseIdx k } i) := by
  obtain ⟨hk, rfl⟩ := List.getElem?_eq_some_iff.1 hq
  have hperm := ((List.getElem_cons_eraseIdx_perm hk).symm.filter fun q => q.session == i).map
    Query.packet
  unfold waiting
  split_ifs with hi
  · rwa [List.filter_cons_of_pos (by simp [hi]), List.map_cons] at hperm
  · rwa [List.filter_cons_of_neg (by simp [hi])] at hperm

/-- At the start no session has been accepted. -/
lemma twin_start (sha1 : Sha1) (ttl i : ℕ) : Twin sha1 (start ttl) i (Session.start sha1) := by
  have hnone : (start ttl).sessions[i]? = none := by simp [start, startAccept]
  unfold Twin
  rw [hnone]
  exact ⟨fun _ => ⟨rfl, rfl⟩, fun hstop => by simp [start, startAccept] at hstop⟩

namespace Twin

/-- Until `stop`, it is about the session and the queries. -/
lemma of_eq (h : Twin sha1 σ i t) (hsession : σ'.sessions[i]? = σ.sessions[i]?)
    (hwaiting : (σ'.waiting i).Perm (σ.waiting i)) (hrun : σ.stopped = false)
    (hrun' : σ'.stopped = false) : Twin sha1 σ' i t := by
  unfold Twin at h ⊢
  rw [hsession]
  cases hs : σ.sessions[i]? with
  | some s =>
    rw [hs] at h
    exact h.perm hwaiting.symm
  | none =>
    rw [hs] at h
    obtain ⟨ht, hnil⟩ := h.1 hrun
    rw [hnil] at hwaiting
    exact ⟨fun _ => ⟨ht, hwaiting.eq_nil⟩, fun hstop => by simp [hrun'] at hstop⟩

/-- The session accepted is one just started. -/
lemma accepted (h : Twin sha1 σ i t) (hsessions : σ'.sessions = σ.sessions ++ [Session.start sha1])
    (hqueries : σ'.queries = σ.queries) (hrun : σ.stopped = false) (hrun' : σ'.stopped = false) :
    Twin sha1 σ' i t := by
  have hwaiting : σ'.waiting i = σ.waiting i := by rw [waiting, waiting, hqueries]
  rcases lt_trichotomy i σ.sessions.length with hlt | rfl | hgt
  · exact h.of_eq (by rw [hsessions, List.getElem?_append_left hlt]) (hwaiting ▸ .rfl) hrun hrun'
  · unfold Twin at h ⊢
    rw [List.getElem?_eq_none le_rfl] at h
    obtain ⟨rfl, hnil⟩ := h.1 hrun
    rw [hsessions, List.getElem?_concat_length, hwaiting, hnil]
    exact .refl _
  · refine h.of_eq ?_ (hwaiting ▸ .rfl) hrun hrun'
    rw [List.getElem?_eq_none hgt.le, hsessions, List.getElem?_eq_none (by simp; omega)]

/-- The state of a session that the twin agrees with. -/
lemma alike {s : Session} (h : Twin sha1 σ i t) (hs : σ.sessions[i]? = some s) :
    Session.Alike (σ.waiting i) s t := by
  unfold Twin at h
  rwa [hs] at h

/-- The session that made a step. -/
lemma set {s s' : Session} (hs : σ.sessions[j]? = some s)
    (hsessions : σ'.sessions = σ.sessions.set j s') (h : Session.Alike (σ'.waiting j) s' t) :
    Twin sha1 σ' j t := by
  unfold Twin
  rw [hsessions, List.getElem?_set_self (List.getElem?_eq_some_iff.1 hs).1]
  exact h

/-- The other sessions. -/
lemma set_ne {s' : Session} (h : Twin sha1 σ i t) (hij : j ≠ i)
    (hsessions : σ'.sessions = σ.sessions.set j s')
    (hwaiting : (σ'.waiting i).Perm (σ.waiting i)) (hrun : σ.stopped = false)
    (hrun' : σ'.stopped = false) : Twin sha1 σ' i t :=
  h.of_eq (by rw [hsessions, List.getElem?_set_ne hij]) hwaiting hrun hrun'

/-- `stop` closes every session. -/
lemma stop (h : Twin sha1 σ i t) (hhealthy : Healthy σ) (hnone : σ.fault = none)
    (hfault : ∀ s ∈ σ.sessions, s.fault = none) (hrun : σ.stopped = false) :
    ∃ t', t.step sha1 .close = some t' ∧ Twin sha1 σ.stop i t' := by
  have hclose : ∀ {s : Session}, s.fault = none → s.step sha1 .close = some s.close := by
    intro s hs
    have hnot : ¬ s.fault.isSome = true := by simp [hs]
    rw [Session.step, if_neg hnot]
  cases hs : σ.sessions[i]? with
  | none =>
    unfold Twin at h ⊢
    rw [hs] at h
    obtain ⟨rfl, -⟩ := h.1 hrun
    have hstop : σ.stop.sessions[i]? = none := by simp [Server.stop, hs]
    rw [hstop]
    exact ⟨_, hclose rfl, fun hrun' => by simp [Server.stop] at hrun', fun _ => by simp⟩
  | some s =>
    have hmem := List.mem_of_getElem? hs
    have hloop := hhealthy.sessions hnone s hmem
    have hreg : s.close.registered = false := by
      rw [(ReadLoop.close hloop.reads_le hloop.registered hloop.caught).registered]
      simp
    have hstop : σ.stop.sessions[i]? = some s.close := by
      simp only [Server.stop, List.getElem?_map, hs, Option.map_some, ← hreg]
    obtain ⟨t', ht', halike⟩ := (h.alike hs).step rfl (hclose (hfault s hmem))
    refine ⟨t', ht', ?_⟩
    unfold Twin
    rw [hstop]
    exact halike

/-- **One step of the server** is nothing to a session alone, or a step.

**Proof sketch.** An event of the session is one of its twin. A lookup that asks the database is
nothing yet; one that does not, and the answer of the database, are a challenge of the twin. `stop`
closes every session. -/
lemma step {e : ServerEvent} (h : Twin sha1 σ i t) (hhealthy : Healthy σ)
    (hvalid : ValidQueries σ) (hstep : σ.step sha1 e = some σ') (hfault' : σ'.fault = none) :
    ∃ t', TwinStep sha1 σ i e t t' ∧ Twin sha1 σ' i t' := by
  obtain ⟨hnone, hrun⟩ := running_of_step hstep
  have hhalt := halted_of_step hstep
  have hfault : ∀ s ∈ σ.sessions, s.fault = none := by
    simp only [halted, Bool.or_eq_false_iff, List.any_eq_false] at hhalt
    exact fun s hs => Option.isNone_iff_eq_none.1 (by simpa using hhalt.2 s hs)
  cases step_transition hstep with
  | accepted haccepts =>
    refine ⟨t, .same rfl rfl, h.accepted (by simp) ?_ hrun ?_⟩
    · unfold startAccept
      split_ifs <;> rfl
    · unfold startAccept
      split_ifs <;> exact hrun
  | reset haccepts ex => cases hfault'
  | acceptError haccepts => exact ⟨t, .same rfl rfl, h.of_eq rfl .rfl hrun hrun⟩
  | tick ticks => exact ⟨t, .same rfl rfl, h.of_eq rfl .rfl hrun hrun⟩
  | cleanup => exact ⟨t, .same rfl rfl, h.of_eq rfl .rfl hrun hrun⟩
  | stop =>
    obtain ⟨t', ht', htwin⟩ := h.stop hhealthy hnone hfault hrun
    exact ⟨t', .own .close rfl rfl ht', htwin⟩
  | session j f s s' hs hf hs' =>
    by_cases hij : j = i
    · subst hij
      obtain ⟨t', ht', halike⟩ := (h.alike hs).step hf hs'
      exact ⟨t', .own f (by simp [ServerEvent.own]) hf ht', .set hs rfl halike⟩
    · exact ⟨t, .same (by simp [ServerEvent.own, hij]) rfl, h.set_ne hij rfl .rfl hrun hrun⟩
  | lookup j k rand s p cache s' asks hs hp hres =>
    have hlook := congrArg (fun r => r.2.1) hres
    have hasks := congrArg (fun r => r.2.2) hres
    dsimp only at hlook hasks
    subst hlook
    by_cases hij : j = i
    · subst hij
      have hbegun := (h.alike hs).begin_challenge hp
      cases asks with
      | true =>
        refine ⟨t, .same rfl rfl, .set hs rfl ?_⟩
        rw [(challengeLookup_asks hasks).2]
        refine (hbegun.storeName_left p).perm ?_
        simpa [waiting] using (List.perm_append_singleton p (σ.waiting j)).symm
      | false =>
        obtain ⟨m, env, t', henv, ht', halike⟩ :=
          hbegun.challenge_hit hasks (hfault s (List.mem_of_getElem? hs))
        exact ⟨t', .challenge m env rfl (fun hcache => henv ▸ hcache) ht', .set hs rfl halike⟩
    · refine ⟨t, .same rfl rfl, h.set_ne hij rfl ?_ hrun hrun⟩
      cases asks <;> simp [waiting, hij]
  | query k db rand q s cache s' hq hs hres =>
    have hquery := congrArg Prod.snd hres
    dsimp only at hquery
    subst hquery
    have hperm := waiting_eraseIdx hq i
    by_cases hij : q.session = i
    · subst hij
      rw [if_pos rfl] at hperm
      obtain ⟨m, env, t', henv, ht', halike⟩ := ((h.alike hs).perm hperm).challenge_query
        (hvalid q (List.mem_of_getElem? hq)) (hfault s (List.mem_of_getElem? hs))
      have hempty : env.cache.WellFormed := by
        rw [henv]
        intro name e he
        cases he
      exact ⟨t', .challenge m env rfl (fun _ => hempty) ht', .set hs rfl halike⟩
    · rw [if_neg hij] at hperm
      exact ⟨t, .same rfl rfl, h.set_ne hij rfl hperm.symm hrun hrun⟩

end Twin

/-- A challenge asks the database for a valid name only. -/
lemma ValidQueries.step {e : ServerEvent} (h : ValidQueries σ)
    (hstep : σ.step sha1 e = some σ') : ValidQueries σ' := by
  cases step_transition hstep with
  | accepted haccepts =>
    unfold startAccept
    split_ifs <;> exact h
  | lookup j k rand s p cache s' asks hs hp hres =>
    intro q hq
    cases asks with
    | false => exact h q hq
    | true =>
      rcases List.mem_append.1 hq with hq | hq
      · exact h q hq
      · obtain rfl := List.mem_singleton.1 hq
        exact (challengeLookup_asks (congrArg (fun r => r.2.2) hres)).1
  | query k db rand q s cache s' hq hs hres =>
    exact fun q' hq' => h q' (List.mem_of_mem_eraseIdx hq')
  | _ => exact h

/-- A session alone, after events that are `own` but for challenges, agrees with the `i`-th session
of the server. -/
def RunsAlone (sha1 : Sha1) (own : List SessionEvent) (σ : Server) (i : ℕ) : Prop :=
  ∃ fs t, Run.exec (Session.step sha1) (Session.start sha1) fs = some t ∧
    fs.filter (fun e => !e.isChallenge) = own ∧ Twin sha1 σ i t

/-- One step more. -/
lemma RunsAlone.step {own : List SessionEvent} {e : ServerEvent} (h : RunsAlone sha1 own σ i)
    (hhealthy : Healthy σ) (hvalid : ValidQueries σ) (hstep : σ.step sha1 e = some σ')
    (hfault' : σ'.fault = none) : RunsAlone sha1 (own ++ (e.own i).toList) σ' i := by
  obtain ⟨fs, t, hexec, hfs, htwin⟩ := h
  obtain ⟨t', hmove, htwin'⟩ := htwin.step hhealthy hvalid hstep hfault'
  have hone : ∀ f, t.step sha1 f = some t' →
      Run.exec (Session.step sha1) (Session.start sha1) (fs ++ [f]) = some t' := by
    intro f hf
    rw [Run.exec_append, hexec]
    exact Run.exec_cons_eq_some.2 ⟨t', hf, rfl⟩
  cases hmove with
  | same hown ht => exact ⟨fs, t', ht ▸ hexec, by simp [hfs, hown], htwin'⟩
  | own f hown hf hf' => exact ⟨fs ++ [f], t', hone f hf', by simp [hfs, hown, hf], htwin'⟩
  | challenge j env hown hcache hf' =>
    have hchallenge : (SessionEvent.challenge j env).isChallenge = true := rfl
    exact ⟨fs ++ [.challenge j env], t', hone _ hf', by simp [hfs, hown, hchallenge], htwin'⟩

/-- **Each session is on its own.** In every run of a server, with any number of sessions and any
interleaving, in which no accept has thrown: the state of each session is one that a session alone
reaches, by the same reads, writes, sends and closes in the same order and challenges that run in
one piece, up to the name stored and the order of the challenges that have still to run. So what
holds of every run of a session alone holds of every session of a server.

**Proof sketch.** A lookup that asks the database does nothing that matters; the answer, or a lookup
that finds the account, is the challenge. -/
theorem session_alone (sha1 : Sha1) (ttl : ℕ) (es : List ServerEvent) (σ : Server)
    (hrun : Run.exec (step sha1) (start ttl) es = some σ) (hfault : σ.fault = none) (i : ℕ)
    (s : Session) (hs : σ.sessions[i]? = some s) :
    ∃ fs t, Run.exec (Session.step sha1) (Session.start sha1) fs = some t ∧
      fs.filter (fun e => !e.isChallenge) = es.filterMap (ServerEvent.own i) ∧
      Session.Alike (σ.waiting i) s t := by
  have hkept : Healthy σ ∧ ValidQueries σ ∧
      (σ.fault = none → RunsAlone sha1 (es.filterMap (ServerEvent.own i)) σ i) := by
    refine Run.exec_induction (P := fun es σ => Healthy σ ∧ ValidQueries σ ∧
      (σ.fault = none → RunsAlone sha1 (es.filterMap (ServerEvent.own i)) σ i)) ?_ ?_ hrun
    · exact ⟨healthy_start ttl, nofun, fun _ => ⟨[], _, rfl, rfl, twin_start sha1 ttl i⟩⟩
    · rintro es e τ τ' ⟨hhealthy, hvalid, halone⟩ hstep
      refine ⟨hhealthy.step hstep, hvalid.step hstep, fun hfault' => ?_⟩
      have hown : (es ++ [e]).filterMap (ServerEvent.own i) =
          es.filterMap (ServerEvent.own i) ++ (e.own i).toList := by
        cases he : e.own i <;> simp [he]
      rw [hown]
      exact (halone (running_of_step hstep).1).step hhealthy hvalid hstep hfault'
  obtain ⟨fs, t, hexec, hfs, htwin⟩ := hkept.2.2 hfault
  exact ⟨fs, t, hexec, hfs, htwin.alike hs⟩

/-- Two clients ask for an account; the first is answered last. -/
def crossingEvents : List ServerEvent :=
  [.accepted true, .accepted true, .session 0 (.read [3, 0, 2, 97, 0]),
    .session 1 (.read [3, 0, 2, 98, 0]), .lookup 0 0 sampleRand, .lookup 1 0 sampleRand,
    .query 1 (.ok none) sampleRand, .session 1 (.send 0), .query 0 (.ok none) sampleRand]

/-- What the first client's session has done, it could have done alone. -/
theorem session_alone_crossing :
    ∃ σ s fs t, Run.exec (step SRP6.sampleSha1) (start 300) crossingEvents = some σ ∧
      σ.sessions[0]? = some s ∧
      Run.exec (Session.step SRP6.sampleSha1) (Session.start SRP6.sampleSha1) fs = some t ∧
      fs.filter (fun e => !e.isChallenge) = crossingEvents.filterMap (ServerEvent.own 0) ∧
      Session.Alike (σ.waiting 0) s t := by
  have hrun : ((Run.exec (step SRP6.sampleSha1) (start 300) crossingEvents).any fun σ =>
      σ.fault.isNone && σ.sessions[0]?.isSome) = true := by
    decide +kernel
  obtain ⟨σ, hσ, hok⟩ := (Option.any_eq_true _ _).1 hrun
  obtain ⟨hfault, hs⟩ := Bool.and_eq_true_iff.1 hok
  obtain ⟨s, hs⟩ := Option.isSome_iff_exists.1 hs
  obtain ⟨fs, t, halone⟩ := session_alone SRP6.sampleSha1 300 crossingEvents σ hσ
    (Option.isNone_iff_eq_none.1 hfault) 0 s hs
  exact ⟨σ, s, fs, t, hσ, hs, halone⟩

end Server

end Purity
