import Mathlib.Data.List.Perm.Basic
import Purity.Protocol.Framing

set_option relaxedAutoImplicit false
set_option autoImplicit false

/-!
# What a session does for its client

To its client a session is a service: it takes packets one after another, and each of them has its
answer. A ping and a proof are answered by their handler, in the order of the packets; a challenge
is answered when its coroutine has run, at any later time, and with one reply whatever it finds; a
message is logged. No packet is answered twice, and none is left out as long as the session is open.

## Main definitions

* `Purity.Packet.isChallengeReply` — a reply to a challenge.
* `Purity.Served` — what a session has done for the packets it has taken.
* `Purity.Session.AllAnswered` — nothing is left to answer or to write.

## Main results

* `Purity.requests_served` — an open session has served the packets dispatched.
* `Purity.requests_answered` — and what is outstanding can always be answered and written.
* `Purity.Net.sent_served` — these are the first ones that its client has sent, if it sends in turn.
-/

namespace Purity

/-! ## Replies to challenges -/

/-- A reply to a challenge: a `SMSG_AUTH_LOGON_CHALLENGE`, or a `SMSG_AUTH_RESPONSE` other than that
to a short proof. -/
def Packet.isChallengeReply : Packet → Bool
  | .auth p => p.opcode == AuthOpcodes.smsgAuthLogonChallenge ||
      (p.opcode == AuthOpcodes.smsgAuthResponse &&
        p.buffer.buffer != [AuthStatusCode.authFailed.toUInt8, AuthErrorCode.internalError.toUInt8])
  | .work _ => false

/-- The answers of the handlers of a ping and a proof are not replies to a challenge. -/
lemma Packet.isChallengeReply_answers (sha1 : Sha1) {p q : Packet} (hq : q ∈ p.answers sha1) :
    q.isChallengeReply = false := by
  cases p with
  | work p =>
    unfold answers at hq
    dsimp only at hq
    split_ifs at hq
    · obtain rfl := List.mem_singleton.1 hq
      rfl
    · cases hq
  | auth p =>
    unfold answers at hq
    dsimp only at hq
    split_ifs at hq
    · obtain rfl := List.mem_singleton.1 hq
      simp [isChallengeReply, AuthOpcodes.smsgPong, AuthOpcodes.smsgAuthLogonChallenge,
        AuthOpcodes.smsgAuthResponse]
    · obtain rfl := List.mem_singleton.1 hq
      simp [isChallengeReply, AuthOpcodes.smsgAuthLogonProof, AuthOpcodes.smsgAuthLogonChallenge,
        AuthOpcodes.smsgAuthResponse]
    · obtain rfl := List.mem_singleton.1 hq
      decide
    · cases hq

namespace HandlersAuth

/-- **A challenge of an open session sends exactly one reply**, whatever the cache and the database
have for it. -/
lemma handleLogonChallenge_replies {s : Session} (p : AuthPacket) (env : ChallengeEnv)
    (hN : s.srp.N = SRP6.modulus) (hopen : s.closed = false) :
    ∃ q : Packet, q.isChallengeReply = true ∧
      (handleLogonChallenge s p env).2.replies = s.replies ++ [q] ∧
      (handleLogonChallenge s p env).2.posted = s.posted ++ [q] := by
  have hsend : ∀ (t : Session) {q : Packet}, q.isChallengeReply = true → t.closed = false →
      t.replies = s.replies → t.posted = s.posted → ∃ q' : Packet, q'.isChallengeReply = true ∧
        (t.sendPacket q).replies = s.replies ++ [q'] ∧
          (t.sendPacket q).posted = s.posted ++ [q'] := by
    intro t q hq ht hreplies hposted
    exact ⟨q, hq, by rw [Session.sendPacket_replies ht, hreplies],
      by rw [Session.sendPacket_posted ht, hposted]⟩
  have hreply : ∀ {q : AuthPacket}, q.opcode = AuthOpcodes.smsgAuthLogonChallenge →
      (Packet.auth q).isChallengeReply = true := fun hq => by simp [Packet.isChallengeReply, hq]
  have hN' : (s.srp.setOnlyUsername (Utf8.toUppercase p.buffer.readStringNtLe.1)).N =
      SRP6.modulus := hN
  simp only [handleLogonChallenge]
  split_ifs with hvalid
  · exact hsend s (by decide) hopen rfl rfl
  rcases env.cache.get (Utf8.toUppercase p.buffer.readStringNtLe.1) env.getTime with ⟨_ | e, cache⟩
  · rcases env.db with ex | _ | ⟨_ | salt, _ | verifier⟩
    · exact hsend _ (by decide) hopen rfl rfl
    · exact hsend _ (by decide) hopen rfl rfl
    · exact hsend _ (by decide) hopen rfl rfl
    · exact hsend _ (by decide) hopen rfl rfl
    · exact hsend _ (by decide) hopen rfl rfl
    · dsimp only
      split_ifs with hsizes
      · exact hsend _ (by decide) hopen rfl rfl
      · obtain ⟨reply, hok, hop⟩ := challengeReply_ok hN' salt verifier env.rand
        simp only [loadAccount, hok]
        exact hsend _ (hreply hop) hopen rfl rfl
  · obtain ⟨reply, hok, hop⟩ := challengeReply_ok hN' e.salt e.verifier env.rand
    simp only [loadAccount, hok]
    exact hsend _ (hreply hop) hopen rfl rfl

end HandlersAuth

/-! ## What has been served -/

/-- What the session `s` has done for the packets `ps`: the replies other than those to challenges
are the answers to the packets, in their order; each challenge among them has one reply or has still
to run; the texts of the messages are logged, in their order; and the replies are posted or have
been passed to `do_send_packet`, each once. -/
structure Served (sha1 : Sha1) (ps : List Packet) (s : Session) : Prop where
  answers : s.replies.filter (fun q => !q.isChallengeReply) = ps.flatMap (Packet.answers sha1)
  challenges : s.replies.countP Packet.isChallengeReply + s.spawned.length =
    (ps.flatMap Packet.spawns).length
  texts : s.messages = ps.flatMap Packet.texts
  sent : (s.posted ++ s.executed).Perm s.replies

namespace Served

variable {sha1 : Sha1} {ps : List Packet} {s s' : Session}

/-- What leaves all this alone. -/
lemma of_eq (h : Served sha1 ps s) (hreplies : s'.replies = s.replies)
    (hspawned : s'.spawned = s.spawned) (hmessages : s'.messages = s.messages)
    (hsent : (s'.posted ++ s'.executed).Perm (s.posted ++ s.executed)) : Served sha1 ps s' := by
  refine ⟨?_, ?_, ?_, ?_⟩
  · rw [hreplies, h.answers]
  · rw [hreplies, hspawned, h.challenges]
  · rw [hmessages, h.texts]
  · rw [hreplies]
    exact hsent.trans h.sent

/-- One more packet is taken, and handled. -/
lemma handled {p : Packet} (h : Served sha1 ps s) (hopen : s.closed = false)
    (heff : DispatchEffect sha1 s s' p) : Served sha1 (ps ++ [p]) s' := by
  have hall : ∀ q ∈ p.answers sha1, q.isChallengeReply = false := fun q hq =>
    p.isChallengeReply_answers sha1 hq
  have hexec : s'.executed = s.executed := congrArg WriteState.executed heff.write
  refine ⟨?_, ?_, ?_, ?_⟩
  · rw [heff.replies hopen, List.filter_append, h.answers, List.flatMap_append,
      List.flatMap_singleton]
    congr 1
    exact List.filter_eq_self.2 fun q hq => by simp [hall q hq]
  · have hnone : (p.answers sha1).countP Packet.isChallengeReply = 0 :=
      List.countP_eq_zero.2 fun q hq => by simp [hall q hq]
    have hold := h.challenges
    rw [heff.replies hopen, heff.spawned, List.countP_append, hnone, List.flatMap_append,
      List.flatMap_singleton, List.length_append, List.length_append]
    omega
  · rw [heff.messages, h.texts, List.flatMap_append, List.flatMap_singleton]
  · rw [heff.posted hopen, heff.replies hopen, hexec, List.append_assoc]
    refine (List.perm_append_comm.append_left s.posted).trans ?_
    rw [← List.append_assoc]
    exact h.sent.append_right _

/-- A challenge runs. -/
lemma challenge {i : ℕ} {p : AuthPacket} (h : Served sha1 ps s) (hopen : s.closed = false)
    (hN : s.srp.N = SRP6.modulus) (hp : s.spawned[i]? = some p) (env : ChallengeEnv) :
    Served sha1 ps (HandlersAuth.handleLogonChallenge
      { s with spawned := s.spawned.eraseIdx i } p env).2 := by
  obtain ⟨q, hq, hreplies, hposted⟩ := HandlersAuth.handleLogonChallenge_replies
    (s := { s with spawned := s.spawned.eraseIdx i }) p env hN hopen
  have heff := HandlersAuth.handleLogonChallenge_effect
    { s with spawned := s.spawned.eraseIdx i } p env
  have hexec : (HandlersAuth.handleLogonChallenge
      { s with spawned := s.spawned.eraseIdx i } p env).2.executed = s.executed :=
    congrArg WriteState.executed heff.write
  have hmessages : (HandlersAuth.handleLogonChallenge
      { s with spawned := s.spawned.eraseIdx i } p env).2.messages = s.messages :=
    congrArg ReadState.messages heff.read
  obtain ⟨hi, -⟩ := List.getElem?_eq_some_iff.1 hp
  refine ⟨?_, ?_, ?_, ?_⟩
  · rw [hreplies, List.filter_append, List.filter_cons_of_neg (by simp [hq]), List.filter_nil,
      List.append_nil]
    exact h.answers
  · have hold := h.challenges
    have hlen : (s.spawned.eraseIdx i).length = s.spawned.length - 1 :=
      List.length_eraseIdx_of_lt hi
    rw [hreplies, heff.spawned, List.countP_append, List.countP_singleton, if_pos hq]
    dsimp only
    omega
  · rw [hmessages, h.texts]
  · rw [hposted, hreplies, hexec, List.append_assoc]
    refine (List.perm_append_comm.append_left s.posted).trans ?_
    rw [← List.append_assoc]
    exact h.sent.append_right _

end Served

/-- A session serves: as long as it is open, it has served the packets it has dispatched; its group
is the built-in one. -/
structure Serves (sha1 : Sha1) (s : Session) : Prop where
  modulus : s.srp.N = SRP6.modulus
  served : s.closed = false → Served sha1 (s.dispatched.map (·.packet)) s

namespace Serves

variable {sha1 : Sha1} {s s' : Session}

/-- A session just started has served nothing yet. -/
lemma start (sha1 : Sha1) : Serves sha1 (Session.start sha1) :=
  ⟨rfl, fun _ => ⟨rfl, rfl, rfl, .refl _⟩⟩

/-- A closed session is not asked for anything. -/
lemma of_closed (h : Serves sha1 s) (hN : s'.srp.N = s.srp.N) (hclosed : s'.closed = true) :
    Serves sha1 s' :=
  ⟨hN.trans h.modulus, fun hopen => by rw [hclosed] at hopen; cases hopen⟩

/-- What leaves all this alone. -/
lemma of_eq (h : Serves sha1 s) (hclosed : s'.closed = s.closed)
    (hauth : s'.toAuthState = s.toAuthState) (hread : s'.dispatched = s.dispatched)
    (hmessages : s'.messages = s.messages) (hreplies : s'.replies = s.replies)
    (hsent : (s'.posted ++ s'.executed).Perm (s.posted ++ s.executed)) : Serves sha1 s' := by
  refine ⟨by rw [hauth]; exact h.modulus, fun hopen => ?_⟩
  rw [hread]
  exact (h.served (hclosed ▸ hopen)).of_eq hreplies (by rw [hauth]) hmessages hsent

/-- A read completion serves the packet it dispatches, or closes the session. -/
lemma read {t : Session} (h : Serves sha1 t) (hopen : t.closed = false)
    (hout : ReadOutcome sha1 t s') : Serves sha1 s' := by
  cases hout with
  | wait hwait => exact h.of_eq rfl rfl rfl rfl rfl .rfl
  | oversized hle hbig => exact h.of_closed (by simp) (by simp)
  | thrown p b' h0 hmode hsize hact hthrow =>
    exact h.of_closed (by simp [Session.consume]) (by simp)
  | handled p b' u h0 hmode hsize hact hthrow heff =>
    have hconsume : Served sha1 (t.dispatched.map (·.packet)) (t.consume b' p.buildPacket p) :=
      (h.served hopen).of_eq rfl rfl rfl .rfl
    refine ⟨?_, fun _ => ?_⟩
    · change u.srp.N = _
      rw [heff.srp]
      exact h.modulus
    · have hdisp : u.doRead.dispatched = t.dispatched ++ [⟨t.sessionMode, p.buildPacket, p⟩] :=
        heff.dispatched
      rw [hdisp, List.map_append]
      exact (hconsume.handled hopen heff).of_eq rfl rfl rfl .rfl

/-- **One step** other than a `send_packet` from elsewhere keeps it. -/
lemma step {e : SessionEvent} (h : Serves sha1 s) (he : ∀ q, e ≠ .post q)
    (hstep : Transition sha1 s e s') : Serves sha1 s' := by
  cases hstep with
  | readClosed chunk hclosed hreads => exact h.of_eq rfl rfl rfl rfl rfl .rfl
  | read chunk b s' hopen hreads hchunk hact hout =>
    have harrive : Serves sha1 (s.arrive b chunk) := h.of_eq rfl rfl rfl rfl rfl .rfl
    exact harrive.read hopen hout
  | readError hreads => exact h.of_closed (by simp) (by simp)
  | challenge i env p hp =>
    have heff := HandlersAuth.handleLogonChallenge_effect
      { s with spawned := s.spawned.eraseIdx i } p env
    refine ⟨heff.modulus.trans h.modulus, fun hopen => ?_⟩
    have hdisp : (HandlersAuth.handleLogonChallenge
        { s with spawned := s.spawned.eraseIdx i } p env).2.dispatched = s.dispatched :=
      congrArg ReadState.dispatched heff.read
    rw [hdisp]
    rw [heff.closed] at hopen
    exact (h.served hopen).challenge hopen h.modulus hp env
  | send i p hp =>
    refine h.of_eq (by simp) (by simp) (by simp) (by simp) (by simp) ?_
    obtain ⟨hi, rfl⟩ := List.getElem?_eq_some_iff.1 hp
    rw [Session.doSendPacket_posted, Session.doSendPacket_executed, ← List.append_assoc]
    exact (List.perm_append_singleton _ _).trans
      ((List.getElem_cons_eraseIdx_perm hi).append_right s.executed)
  | writeDone i m hm => exact h.of_eq (by simp) (by simp) (by simp) (by simp) (by simp) (by simp)
  | writeError i m hm => exact h.of_closed (by simp) (by simp)
  | post q => exact absurd rfl (he q)
  | close => exact h.of_closed (by simp) (by simp)

/-- It holds in every run in which `send_packet` is not called from elsewhere. -/
lemma of_exec {es : List SessionEvent}
    (hrun : Run.exec (Session.step sha1) (Session.start sha1) es = some s)
    (hpost : ∀ q, .post q ∉ es) : Serves sha1 s := by
  refine Run.exec_induction (P := fun es s => (∀ q, .post q ∉ es) → Serves sha1 s)
    (fun _ => .start sha1) ?_ hrun hpost
  intro es e t t' ht hstep hpost
  refine (ht fun q hq => hpost q (List.mem_append_left _ hq)).step ?_
    (Session.step_transition hstep)
  rintro q rfl
  exact hpost q (List.mem_append_right _ (List.mem_singleton_self _))

end Serves

/-- **Every request has its answer.** In every run of a session, in any interleaving of its
completion handlers and tasks, in which `send_packet` is called by its handlers alone, as long as
the session is open: the replies are those to challenges, and besides them exactly the answers to
the packets dispatched, in their order; each challenge dispatched has one reply, or has still to
run; the texts of the messages are logged in order; and each reply is posted or has been passed to
`do_send_packet`.

**Proof sketch.** Taking a packet adds its answers, or spawns the challenge; a challenge that runs
sends one reply, whatever the cache and the database have. -/
theorem requests_served (sha1 : Sha1) (es : List SessionEvent) (s : Session)
    (hrun : Run.exec (Session.step sha1) (Session.start sha1) es = some s)
    (hpost : ∀ q, .post q ∉ es) (hopen : s.closed = false) :
    Served sha1 (s.dispatched.map (·.packet)) s := by
  exact (Serves.of_exec hrun hpost).served hopen

/-- An Auth ping, a challenge that finds no account, and the ping's reply on its way. -/
def servedEvents : List SessionEvent :=
  [.read [1, 0, 4, 1, 2, 3, 4], .read [3, 0, 2, 97, 0], .challenge 0 (sampleEnv none), .send 0]

/-- Two requests, two replies. -/
theorem requests_served_two :
    ∃ s, Run.exec (Session.step SRP6.sampleSha1) (Session.start SRP6.sampleSha1) servedEvents =
        some s ∧ s.replies.length = 2 ∧
      Served SRP6.sampleSha1 (s.dispatched.map (·.packet)) s := by
  have hrun : (Run.exec (Session.step SRP6.sampleSha1) (Session.start SRP6.sampleSha1)
      servedEvents).map (fun s => (s.closed, s.replies.length)) = some (false, 2) := by
    decide +kernel
  obtain ⟨s, hs, hres⟩ := Option.map_eq_some_iff.1 hrun
  obtain ⟨hopen, hlen⟩ := Prod.mk.inj hres
  exact ⟨s, hs, hlen, requests_served SRP6.sampleSha1 servedEvents s hs
    (by simp [servedEvents]) hopen⟩

/-! ## The answers get out -/

/-- The event is a task by which an open session answers: a challenge, a posted `do_send_packet`, or
the completion of a write. -/
def SessionEvent.isAnswering : SessionEvent → Bool
  | .challenge _ _ | .send _ | .writeDone _ => true
  | _ => false

/-- The event is such a task, and a challenge finds what is in `env`. -/
def SessionEvent.AnswersIn (env : ChallengeEnv) (e : SessionEvent) : Prop :=
  e.isAnswering = true ∧ ∀ i env', e = .challenge i env' → env' = env

namespace Session

variable {sha1 : Sha1} {s t u : Session}

/-- The writer of an open session is in order. -/
lemma inOrder_of_exec {es : List SessionEvent}
    (hrun : Run.exec (Session.step sha1) (Session.start sha1) es = some s)
    (hopen : s.closed = false) : s.InOrder := by
  refine Run.exec_invariant (I := fun s => s.closed = false → s.InOrder) ?_ ?_ hrun hopen
  · intro s e s' hs hstep
    exact (Session.step_transition hstep).writer.inOrder hs
  · intro _
    constructor <;> simp [Session.start, Session.doRead]

/-- How many answering tasks can still run: a challenge, the task of its reply and the write of it;
the task of a packet and the write; a write. -/
def toAnswer (s : Session) : ℕ :=
  3 * s.spawned.length + 2 * s.posted.length + s.writeQueue.length

/-- An open session that goes on from `s` with answering only. -/
structure Answering (sha1 : Sha1) (s t : Session) : Prop where
  opened : t.closed = false
  fault : t.fault = none
  read : t.toReadState = s.toReadState
  writer : t.InOrder
  serves : Serves sha1 t

/-- Everything has been answered, and the answers have been written. -/
structure AllAnswered (sha1 : Sha1) (s t : Session) : Prop extends Answering sha1 s t where
  spawned : t.spawned = []
  posted : t.posted = []
  inFlight : t.inFlight = []
  written : t.completed = t.executed.map Packet.buildPacket
  served : Served sha1 (s.dispatched.map (·.packet)) t

namespace Answering

/-- **A task of answering** makes the rest smaller.

**Proof sketch.** A challenge posts one reply, the task of a packet puts one message in the queue,
and the write that completes is that of the front. -/
lemma step {e : SessionEvent} (h : Answering sha1 s t) (he : e.isAnswering = true)
    (hstep : t.step sha1 e = some u) : Answering sha1 s u ∧ u.toAnswer < t.toAnswer := by
  have htrans := step_transition hstep
  have hserves : Serves sha1 u := h.serves.step (by rintro q rfl; cases he) htrans
  have hwriter := htrans.writer.inOrder fun _ => h.writer
  cases htrans with
  | challenge i env p hp =>
    obtain ⟨hi, -⟩ := List.getElem?_eq_some_iff.1 hp
    have heff := HandlersAuth.handleLogonChallenge_effect
      { t with spawned := t.spawned.eraseIdx i } p env
    obtain ⟨q, -, -, hposted⟩ := HandlersAuth.handleLogonChallenge_replies
      (s := { t with spawned := t.spawned.eraseIdx i }) p env h.serves.modulus h.opened
    have hopen := heff.closed.trans h.opened
    refine ⟨⟨hopen, heff.fault.trans h.fault, heff.read.trans h.read, hwriter hopen, hserves⟩, ?_⟩
    simp only [toAnswer, heff.spawned, heff.write, hposted, List.length_eraseIdx_of_lt hi,
      List.length_append, List.length_singleton]
    omega
  | send i p hp =>
    obtain ⟨hi, -⟩ := List.getElem?_eq_some_iff.1 hp
    have hopen : (doSendPacket { t with posted := t.posted.eraseIdx i } p).closed = false := by
      simpa using h.opened
    refine ⟨⟨hopen, by simpa using h.fault, by simpa using h.read, hwriter hopen, hserves⟩, ?_⟩
    have hqueue : (doSendPacket { t with posted := t.posted.eraseIdx i } p).writeQueue.length =
        t.writeQueue.length + 1 := by
      unfold doSendPacket
      dsimp only
      split_ifs <;> simp
    simp only [toAnswer, hqueue, doSendPacket_toAuthState, doSendPacket_posted,
      List.length_eraseIdx_of_lt hi]
    omega
  | writeDone i m hm =>
    obtain ⟨-, rest, hqueue⟩ := inOrder_outstanding h.writer hm
    have hopen : (writeHandler { t with inFlight := t.inFlight.eraseIdx i } m).closed = false := by
      simpa using h.opened
    have hfault : (writeHandler { t with inFlight := t.inFlight.eraseIdx i } m).fault = none := by
      simpa [writeHandler, hqueue] using h.fault
    refine ⟨⟨hopen, hfault, by simpa using h.read, hwriter hopen, hserves⟩, ?_⟩
    simp [toAnswer, writeHandler, hqueue]
  | _ => cases he

/-- While something is left to answer, some task can run.

**Proof sketch.** A message in the queue is being written, if it is the front. -/
lemma exists_step (h : Answering sha1 s t) (env : ChallengeEnv) (hleft : t.toAnswer ≠ 0) :
    ∃ e u, e.AnswersIn env ∧ t.step sha1 e = some u := by
  have hnot : ¬ t.fault.isSome = true := by simp [h.fault]
  cases hspawned : t.spawned with
  | cons p spawned =>
    refine ⟨.challenge 0 env,
      (HandlersAuth.handleLogonChallenge { t with spawned := spawned } p env).2, ⟨rfl, ?_⟩, ?_⟩
    · rintro i env' heq
      cases heq
      rfl
    · rw [Session.step, if_neg hnot]
      simp only [hspawned, List.getElem?_cons_zero, Option.map_some, List.eraseIdx_cons_zero]
  | nil =>
    cases hposted : t.posted with
    | cons q posted =>
      refine ⟨.send 0, doSendPacket { t with posted := posted } q, ⟨rfl, by simp⟩, ?_⟩
      rw [Session.step, if_neg hnot]
      simp only [hposted, List.getElem?_cons_zero, Option.map_some, List.eraseIdx_cons_zero]
    | nil =>
      cases hqueue : t.writeQueue with
      | cons m rest =>
        have hinFlight : t.inFlight = [m] := by
          rw [h.writer.inFlight, hqueue]
          rfl
        refine ⟨.writeDone 0, writeHandler { t with inFlight := [] } m, ⟨rfl, by simp⟩, ?_⟩
        rw [Session.step, if_neg hnot]
        simp only [hinFlight, List.getElem?_cons_zero, Option.map_some, List.eraseIdx_cons_zero]
      | nil => exact absurd (by simp [toAnswer, hspawned, hposted, hqueue]) hleft

/-- When nothing is left, everything has been answered. -/
lemma allAnswered (h : Answering sha1 s t) (hnone : t.toAnswer = 0) : AllAnswered sha1 s t := by
  simp only [toAnswer, Nat.add_eq_zero_iff, Nat.mul_eq_zero, List.length_eq_zero_iff] at hnone
  obtain ⟨⟨hspawned, hposted⟩, hqueue⟩ := hnone
  have hwritten := h.writer.written
  have hinFlight := h.writer.inFlight
  rw [hqueue, List.append_nil] at hwritten
  rw [hqueue, List.take_nil] at hinFlight
  refine { toAnswering := h, spawned := by simpa using hspawned, posted := by simpa using hposted
           inFlight := hinFlight, written := hwritten, served := ?_ }
  have hserved := h.serves.served h.opened
  rwa [show t.dispatched = s.dispatched from congrArg ReadState.dispatched h.read] at hserved

end Answering

end Session

/-- **The answers get out.** In every state of every run of a session, in which it is open, nothing
undefined has happened and `send_packet` was called by its handlers alone: however its answering
tasks run from there, whatever the challenges find, they are at most as many as there are steps left
for what is outstanding, and from where they have got to they can go on, with challenges that find
what one likes, until every challenge has run, every reply has been sent and its write has
completed, and the session has served what it had dispatched.

**Proof sketch.** Every task makes what is left smaller, and as long as something is left, a task
can run, since the writer never forgets the front of its queue. -/
theorem requests_answered (sha1 : Sha1) (es : List SessionEvent) (s : Session)
    (hrun : Run.exec (Session.step sha1) (Session.start sha1) es = some s)
    (hpost : ∀ q, .post q ∉ es) (hopen : s.closed = false) (hfault : s.fault = none)
    (fs : List SessionEvent) (t : Session) (hfs : ∀ f ∈ fs, f.isAnswering = true)
    (hmore : Run.exec (Session.step sha1) s fs = some t) (env : ChallengeEnv) :
    fs.length + t.toAnswer ≤ s.toAnswer ∧ ∃ gs u, (∀ g ∈ gs, g.AnswersIn env) ∧
      Run.exec (Session.step sha1) t gs = some u ∧ Session.AllAnswered sha1 s u := by
  have hserves : Serves sha1 s := Serves.of_exec hrun hpost
  have hinOrder : s.InOrder := Session.inOrder_of_exec hrun hopen
  have hself : Session.Answering sha1 s s := ⟨hopen, hfault, rfl, hinOrder, hserves⟩
  obtain ⟨hanswering, hlength⟩ : Session.Answering sha1 s t ∧
      fs.length + t.toAnswer ≤ s.toAnswer := by
    refine Run.exec_induction (P := fun fs t => (∀ f ∈ fs, f.isAnswering = true) →
      Session.Answering sha1 s t ∧ fs.length + t.toAnswer ≤ s.toAnswer) (fun _ => ⟨hself, by simp⟩)
      ?_ hmore hfs
    intro fs f t t' ht hstep hfs
    obtain ⟨h, hlen⟩ := ht fun g hg => hfs g (List.mem_append_left _ hg)
    obtain ⟨h', hless⟩ := h.step (hfs f (List.mem_append_right _ (List.mem_singleton_self _))) hstep
    refine ⟨h', ?_⟩
    rw [List.length_append, List.length_singleton]
    omega
  refine ⟨hlength, ?_⟩
  obtain ⟨gs, u, hgs, hexec, hu, hnone⟩ := Run.exists_exec_of_decreasing
    (I := Session.Answering sha1 s) (E := SessionEvent.AnswersIn env)
    (fun u hu hleft => by
      obtain ⟨e, u', he, hstep⟩ := hu.exists_step env hleft
      obtain ⟨hu', hless⟩ := hu.step he.1 hstep
      exact ⟨e, u', he, hstep, hu', hless⟩) hanswering
  exact ⟨gs, u, hgs, hexec, hu.allAnswered hnone⟩

/-- The reply to the challenge is still to be sent when the pong has been written; it can be. -/
theorem requests_answered_two :
    ∃ s t gs u, Run.exec (Session.step SRP6.sampleSha1) (Session.start SRP6.sampleSha1)
        servedEvents = some s ∧
      Run.exec (Session.step SRP6.sampleSha1) s [.writeDone 0] = some t ∧ t.posted ≠ [] ∧
      Run.exec (Session.step SRP6.sampleSha1) t gs = some u ∧
      Session.AllAnswered SRP6.sampleSha1 s u := by
  have hrun : ((Run.exec (Session.step SRP6.sampleSha1) (Session.start SRP6.sampleSha1)
      servedEvents).any fun s => !s.closed && s.fault.isNone &&
        (Run.exec (Session.step SRP6.sampleSha1) s [.writeDone 0]).any fun t => t.posted != []) =
      true := by
    decide +kernel
  obtain ⟨s, hs, hres⟩ := (Option.any_eq_true _ _).1 hrun
  obtain ⟨hok, hres⟩ := Bool.and_eq_true_iff.1 hres
  obtain ⟨hopen, hfault⟩ := Bool.and_eq_true_iff.1 hok
  obtain ⟨t, ht, hposted⟩ := (Option.any_eq_true _ _).1 hres
  obtain ⟨-, gs, u, -, hu, hall⟩ := requests_answered SRP6.sampleSha1 servedEvents s hs
    (by simp [servedEvents]) (by simpa using hopen) (Option.isNone_iff_eq_none.1 hfault)
    [.writeDone 0] t (by simp [SessionEvent.isAnswering]) ht (sampleEnv none)
  exact ⟨s, t, gs, u, hs, ht, by simpa using hposted, hu, hall⟩

/-! ## The client's requests -/

namespace Net

variable {sha1 : Sha1} {n n' : Net} {e : NetEvent}

/-- A step of the two keeps the session serving. -/
lemma step_serves (h : Serves sha1 n.server) (hstep : n.step sha1 e = some n') :
    Serves sha1 n'.server := by
  cases e with
  | client e =>
    obtain ⟨-, c, -, rfl⟩ := step_client hstep
    exact h
  | server e he =>
    obtain ⟨-, s, hs, rfl⟩ := step_server hstep
    refine h.step ?_ (Session.step_transition hs)
    rintro q rfl
    exact he

/-- What the session has served, by the framing invariant. -/
lemma exists_served (hframing : FramingInvariant n) (hserves : Serves sha1 n.server)
    (hopen : n.server.closed = false) :
    ∃ k, Served sha1 (n.client.sent.take k) n.server ∧
      n.server.dispatched.map (·.packet) = n.client.sent.take k ∧
      n.server.readBuffer.active <+: streamOf (n.client.sent.drop k) := by
  have hagrees := hframing.agrees
  have htake : n.server.dispatched.map (·.packet) =
      n.client.sent.take n.server.dispatched.length := by
    simpa using List.prefix_iff_eq_take.1 hagrees.dispatched
  refine ⟨n.server.dispatched.length, ?_, htake, ?_⟩
  · rw [← htake]
    exact hserves.served hopen
  · by_cases hnil : n.server.readBuffer.active = []
    · rw [hnil]
      exact List.nil_prefix
    · obtain ⟨q, rest, hsent, -, hfront⟩ := hagrees.front hopen hnil
      rw [hsent, ← List.length_map (f := (·.packet)), List.drop_left]
      exact hfront

/-- **What a client asks for is done.** In every run of a client and its session, in any
interleaving, whose steps send in turn: as long as the session is open, it has served exactly the
first `k` packets that the client has passed to `send_packet`, for some `k`, each once and in their
order, and what waits in its receive buffer is a beginning of the frames of the others. In
particular the messages logged are those sent, in order, and none but the last ones is missing.

**Proof sketch.** The framing invariant says which packets are dispatched. -/
theorem sent_served (sha1 : Sha1) (es : List NetEvent) (n : Net)
    (hok : Run.StepsMeet (step sha1) SendsInTurn (start sha1) es)
    (hrun : Run.exec (step sha1) (start sha1) es = some n) (hopen : n.server.closed = false) :
    ∃ k, Served sha1 (n.client.sent.take k) n.server ∧
      n.server.dispatched.length = (n.client.sent.take k).length ∧
      n.server.readBuffer.active <+: streamOf (n.client.sent.drop k) := by
  have hinv : FramingInvariant n ∧ Serves sha1 n.server := by
    refine (Run.always_of_stepsMeet (P := fun n => FramingInvariant n ∧ Serves sha1 n.server)
      ?_ ⟨FramingInvariant.start sha1, Serves.start sha1⟩ hok).last hrun
    intro n e n' hn hok hstep
    exact ⟨hn.1.step hok hstep, step_serves hn.2 hstep⟩
  obtain ⟨k, hserved, hdisp, hactive⟩ := exists_served hinv.1 hinv.2 hopen
  refine ⟨k, hserved, ?_, hactive⟩
  rw [← hdisp, List.length_map]

/-- A login and a ping after it: three packets have been served. -/
theorem sent_served_ping :
    ∃ n k, Run.exec (step SRP6.sampleSha1) (start SRP6.sampleSha1) pingEvents = some n ∧
      n.server.dispatched.length = 3 ∧ Served SRP6.sampleSha1 (n.client.sent.take k) n.server ∧
      n.server.dispatched.length = (n.client.sent.take k).length ∧
      n.server.readBuffer.active <+: streamOf (n.client.sent.drop k) := by
  have hmeet : Run.StepsMeet (step SRP6.sampleSha1) SendsInTurn (start SRP6.sampleSha1)
      pingEvents := by
    decide +kernel
  have hrun : (Run.exec (step SRP6.sampleSha1) (start SRP6.sampleSha1) pingEvents).map
      (fun n => (n.server.closed, n.server.dispatched.length)) = some (false, 3) := by
    decide +kernel
  obtain ⟨n, hn, hres⟩ := Option.map_eq_some_iff.1 hrun
  obtain ⟨hopen, hlen⟩ := Prod.mk.inj hres
  obtain ⟨k, hserved⟩ := sent_served SRP6.sampleSha1 pingEvents n hmeet hn hopen
  exact ⟨n, k, hn, hlen, hserved⟩

end Net

end Purity
