import Mathlib.Data.List.Perm.Basic
import Purity.Client.Receive
import Purity.Protocol.Net

set_option relaxedAutoImplicit false
set_option autoImplicit false

/-!
# The framing of a session's replies

A client reads Auth frames until it has handled an `SMSG_AUTH_LOGON_PROOF`, and Work frames from
then on. The replies of a session are built in the framing of the packets they answer, but
`send_packet` only posts them: several threads run the posted tasks and the spawned challenges in
any order. The replies are in turn exactly if the tasks around the switch run in order.

## Main definitions

* `Purity.FramedFrom` — Auth frames up to and including `SMSG_AUTH_LOGON_PROOF`, Work frames after.
* `Purity.readFrames` — what the receive loop of a client makes of a stream.
* `Purity.FramedReplies` — the frames of a session are in turn, and the client reads them back.
* `Purity.TasksInOrder` — the condition on the order of the tasks.

## Main results

* `Purity.readFrames_streamOf` — frames in turn are read back in the framing they were built in.
* `Purity.Client.Ready.reads_readFrames` — this is what the receive loop of a client does.
* `Purity.framed_iff_tasksInOrder` — the frames of an open session are always in turn exactly when
  its tasks run in order.
-/

namespace Purity

/-! ## Frames in turn -/

/-- An `SMSG_AUTH_LOGON_PROOF`. -/
def Packet.isLogonProof : Packet → Bool
  | .auth p => p.opcode == AuthOpcodes.smsgAuthLogonProof
  | .work _ => false

/-- The framing a client expects after the packet, if it read it in `mode`. -/
def Packet.nextReplyMode (p : Packet) (mode : SessionMode) : SessionMode :=
  if p.isLogonProof then .workSession else mode

/-- The framing a client expects after the packets. -/
def replyMode (mode : SessionMode) (ps : List Packet) : SessionMode :=
  ps.foldl (fun m p => p.nextReplyMode m) mode

/-- Every packet has the framing the client expects: from `AUTH_SESSION` on, Auth frames up to and
including the `SMSG_AUTH_LOGON_PROOF`, and Work frames after it. -/
def FramedFrom : SessionMode → List Packet → Prop
  | _, [] => True
  | mode, p :: ps => p.mode = mode ∧ FramedFrom (p.nextReplyMode mode) ps

/-- A further packet is in turn if it has the framing expected then. -/
lemma framedFrom_concat {mode : SessionMode} {ps : List Packet} {p : Packet} :
    FramedFrom mode (ps ++ [p]) ↔ FramedFrom mode ps ∧ p.mode = replyMode mode ps := by
  induction ps generalizing mode with
  | nil => simp [FramedFrom, replyMode]
  | cons q ps ih =>
    simp only [List.cons_append, FramedFrom, ih, and_assoc]
    rfl

/-- The client expects Work frames once it has read an `SMSG_AUTH_LOGON_PROOF`. -/
lemma replyMode_eq_work_iff (mode : SessionMode) (ps : List Packet) :
    replyMode mode ps = .workSession ↔ mode = .workSession ∨ ∃ p ∈ ps, p.isLogonProof = true := by
  induction ps generalizing mode with
  | nil => simp [replyMode]
  | cons p ps ih =>
    have hcons : replyMode mode (p :: ps) = replyMode (p.nextReplyMode mode) ps := rfl
    rw [hcons, ih]
    cases hp : p.isLogonProof <;> simp [Packet.nextReplyMode, hp]

/-! ## Reading them back -/

/-- What the first `n` turns of the receive loop make of a stream, from the mode of the client on:
each turn reads a header of the mode and the payload it declares, and handles the frame; the
`SMSG_AUTH_LOGON_PROOF` changes the mode. A header that declares more than 2048 bytes ends the
loop. -/
def readFrames : ℕ → SessionMode → Bytes → List (SessionMode × Bytes)
  | 0, _, _ => []
  | n + 1, mode, stream =>
    let size := mode.headerSize + declaredSize mode stream
    if stream.length < size ∨ 2048 < declaredSize mode stream then []
    else
      let next := if mode = .authSession ∧
          stream.head? = some AuthOpcodes.smsgAuthLogonProof then .workSession else mode
      (mode, stream.take size) :: readFrames n next (stream.drop size)

/-- The mode of the client after a frame is the one expected after the packet. -/
lemma next_of_head {p : Packet} {mode : SessionMode} (hmode : p.mode = mode) (rest : Bytes) :
    (if mode = .authSession ∧ (p.buildPacket ++ rest).head? = some AuthOpcodes.smsgAuthLogonProof
      then .workSession else mode) = p.nextReplyMode mode := by
  subst hmode
  cases p with
  | work p => simp [Packet.mode, Packet.nextReplyMode, Packet.isLogonProof]
  | auth p =>
    have hhead : ((Packet.auth p).buildPacket ++ rest).head? = some p.opcode := rfl
    rw [hhead]
    simp [Packet.mode, Packet.nextReplyMode, Packet.isLogonProof]

/-- **Frames in turn are read back** one by one, each in the framing it was built in.

**Proof sketch.** Induction on the packets: a frame in the framing of the mode declares its own
length, and leaves the client in the mode expected after it. -/
lemma readFrames_streamOf {mode : SessionMode} {ps : List Packet} (h : FramedFrom mode ps)
    (hsize : ∀ p ∈ ps, p.payload.length ≤ 2048) :
    readFrames ps.length mode (streamOf ps) = ps.map fun p => (p.mode, p.buildPacket) := by
  induction ps generalizing mode with
  | nil => rfl
  | cons p ps ih =>
    obtain ⟨hmode, hrest⟩ := h
    have hp : p.payload.length ≤ 2048 := hsize p List.mem_cons_self
    have hdecl : declaredSize mode (streamOf (p :: ps)) = p.payload.length := by
      rw [← hmode, streamOf_cons]
      exact Packet.declaredSize_buildPacket (hp.trans (by decide)) _
    have hlen : mode.headerSize + p.payload.length = p.buildPacket.length := by
      rw [Packet.length_buildPacket, hmode]
    have hfits : ¬ ((streamOf (p :: ps)).length < p.buildPacket.length ∨
        2048 < p.payload.length) := by
      rw [streamOf_cons, List.length_append]
      omega
    rw [List.length_cons, readFrames]
    simp only [hdecl, hlen]
    rw [if_neg hfits, streamOf_cons, next_of_head hmode, List.take_left, List.drop_left,
      ih hrest fun q hq => hsize q (List.mem_cons_of_mem p hq), List.map_cons, hmode]

/-! ## The receive loop of a client -/

namespace Client

variable {sha1 : Sha1} {rand : Rand32}

/-- The frames a client handles, each with the mode it is in. -/
def handled (sha1 : Sha1) (rand : Rand32) : Client → List Bytes → List (SessionMode × Bytes)
  | _, [] => []
  | c, raw :: raws => (c.sessionMode, raw) :: handled sha1 rand (c.takeFrame sha1 rand raw) raws

/-- The client accepts every `SMSG_AUTH_LOGON_PROOF` among the frames, when it gets to it. -/
def AcceptsAll (sha1 : Sha1) (rand : Rand32) : Client → List Bytes → Prop
  | _, [] => True
  | c, raw :: raws =>
    (c.sessionMode = .authSession ∧ raw.head? = some AuthOpcodes.smsgAuthLogonProof →
      (c.takeFrame sha1 rand raw).sessionMode = .workSession) ∧
    AcceptsAll sha1 rand (c.takeFrame sha1 rand raw) raws

/-- **The receive loop of a client** makes of a stream what `readFrames` says, as long as the client
accepts every `SMSG_AUTH_LOGON_PROOF` in it.

**Proof sketch.** Induction on the turns. The frame at the front is read in one turn, and leaves the
client in the mode in which `readFrames` goes on. -/
lemma Ready.reads_readFrames {c : Client} (hc : c.Ready) (n : ℕ) (stream : Bytes)
    (hacc : c.AcceptsAll sha1 rand ((readFrames n c.sessionMode stream).map Prod.snd)) :
    c.handled sha1 rand ((readFrames n c.sessionMode stream).map Prod.snd) =
        readFrames n c.sessionMode stream ∧
      ∃ c', c.Reads sha1 rand ((readFrames n c.sessionMode stream).map Prod.snd).flatten c' ∧
        c'.Ready := by
  induction n generalizing c stream with
  | zero => exact ⟨rfl, c, ⟨[], rfl, rfl⟩, hc⟩
  | succ n ih =>
    set size := c.sessionMode.headerSize + declaredSize c.sessionMode stream with hsize
    by_cases hstop : stream.length < size ∨ 2048 < declaredSize c.sessionMode stream
    · have hnone : readFrames (n + 1) c.sessionMode stream = [] := if_pos hstop
      rw [hnone]
      exact ⟨rfl, c, ⟨[], rfl, rfl⟩, hc⟩
    have hlen : (stream.take size).length = size := by
      rw [List.length_take]
      omega
    have hdecl : declaredSize c.sessionMode (stream.take size) =
        declaredSize c.sessionMode stream := by
      conv_rhs => rw [← List.take_append_drop size stream]
      exact (declaredSize_append (by omega) _).symm
    have hframe : WholeFrame c.sessionMode (stream.take size) := by
      refine ⟨?_, ?_⟩
      · rw [hlen, hdecl]
      · omega
    have hhead : (stream.take size).head? = stream.head? := by
      have htwo := Packet.two_le_headerSize c.sessionMode
      rw [List.head?_take, if_neg (by omega)]
    set d := c.takeFrame sha1 rand (stream.take size) with hd
    have hsome : readFrames (n + 1) c.sessionMode stream = (c.sessionMode, stream.take size) ::
        readFrames n (if c.sessionMode = .authSession ∧
          stream.head? = some AuthOpcodes.smsgAuthLogonProof then .workSession
          else c.sessionMode) (stream.drop size) := if_neg hstop
    have hmode : (if c.sessionMode = .authSession ∧
        stream.head? = some AuthOpcodes.smsgAuthLogonProof then .workSession
        else c.sessionMode) = d.sessionMode := by
      rw [hsome, List.map_cons, AcceptsAll, hhead] at hacc
      split_ifs with hproof
      · exact (hacc.1 hproof).symm
      · exact (sessionMode_takeFrame (by rwa [hhead])).symm
    rw [hmode] at hsome
    rw [hsome, List.map_cons] at hacc ⊢
    obtain ⟨hhandled, c', hreads, hready⟩ := ih (hc.takeFrame _) (stream.drop size) hacc.2
    refine ⟨congrArg _ hhandled, c', ?_, hready⟩
    rw [List.flatten_cons]
    exact ((hc.reads_iff hframe).2 rfl).append hreads

end Client

/-! ## The property and the condition -/

/-- The frames given to `do_send_packet` are in turn, those written are the first of them, and a
client that changes its mode on the `SMSG_AUTH_LOGON_PROOF` reads each in the framing it was built
in. -/
structure FramedReplies (s : Session) : Prop where
  framed : FramedFrom .authSession s.executed
  written : s.started <+: s.executed.map Packet.buildPacket
  read : readFrames s.executed.length .authSession (streamOf s.executed) =
    s.executed.map fun p => (p.mode, p.buildPacket)

/-- A client at the beginning of such frames handles each in the framing it was built in, as long as
it accepts the `SMSG_AUTH_LOGON_PROOF`. -/
lemma FramedReplies.handled {s : Session} (h : FramedReplies s) {sha1 : Sha1} {rand : Rand32}
    {c : Client} (hc : c.Ready) (hmode : c.sessionMode = .authSession)
    (hacc : c.AcceptsAll sha1 rand (s.executed.map Packet.buildPacket)) :
    c.handled sha1 rand (s.executed.map Packet.buildPacket) =
      s.executed.map fun p => (p.mode, p.buildPacket) := by
  have hraws : (readFrames s.executed.length c.sessionMode (streamOf s.executed)).map Prod.snd =
      s.executed.map Packet.buildPacket := by
    rw [hmode, h.read, List.map_map]
    rfl
  rw [← hraws] at hacc
  have hhandled := (hc.reads_readFrames s.executed.length (streamOf s.executed) hacc).1
  rw [hraws, hmode, h.read] at hhandled
  exact hhandled

/-- The tasks of an open session around the switch run in order: the task of an Auth packet does not
run after that of the `SMSG_AUTH_LOGON_PROOF`, and the task of a Work packet does not run while that
of the `SMSG_AUTH_LOGON_PROOF` is still posted. -/
def TasksInOrder (s : Session) : SessionEvent → Prop
  | .send i => s.closed = false → ∀ p ∈ s.posted[i]?,
      (p.mode = .authSession → ∀ q ∈ s.executed, q.isLogonProof = false) ∧
        (p.mode = .workSession → ∀ q ∈ s.posted, q.isLogonProof = false)
  | _ => True

instance (s : Session) : ∀ e, Decidable (TasksInOrder s e)
  | .send i => inferInstanceAs (Decidable (s.closed = false → ∀ p ∈ s.posted[i]?, _ ∧ _))
  | .read _ | .readError | .challenge _ _ | .writeDone _ | .writeError _ | .post _ | .close =>
    isTrue trivial

/-! ## What a session posts -/

/-- How many `SMSG_AUTH_LOGON_PROOF`s a session in the mode has posted. -/
def SessionMode.proofs : SessionMode → ℕ
  | .authSession => 0
  | .workSession => 1

/-- What holds of the packets a session has passed to `send_packet`: they are those posted and those
passed to `do_send_packet`; one of them is an `SMSG_AUTH_LOGON_PROOF` if the session has switched,
and none before; there are Work packets only after the switch; and a client takes them all. -/
structure ReplyInvariant (s : Session) : Prop where
  perm : (s.posted ++ s.executed).Perm s.replies
  proofs : s.replies.countP Packet.isLogonProof = s.sessionMode.proofs
  work : ∀ q ∈ s.replies, q.mode = .workSession → s.sessionMode = .workSession
  size : ∀ q ∈ s.replies, q.payload.length ≤ 2048

/-- What a step other than the task of a packet does to the replies: it posts some, each of which a
client takes; a Work packet only in `WORK_SESSION`, and as many `SMSG_AUTH_LOGON_PROOF`s as it
switches the mode. -/
structure Posts (s s' : Session) : Prop where
  executed : s'.executed = s.executed
  posted : ∃ new, s'.posted = s.posted ++ new ∧ s'.replies = s.replies ++ new ∧
    new.countP Packet.isLogonProof + s.sessionMode.proofs = s'.sessionMode.proofs ∧
    (∀ q ∈ new, q.mode = .workSession → s'.sessionMode = .workSession) ∧
    ∀ q ∈ new, q.payload.length ≤ 2048
  mode : s.sessionMode = .workSession → s'.sessionMode = .workSession

/-- A step that posts nothing. -/
lemma Posts.of_eq {s s' : Session} (hexec : s'.executed = s.executed)
    (hposted : s'.posted = s.posted) (hreplies : s'.replies = s.replies)
    (hmode : s'.sessionMode = s.sessionMode) : Posts s s' := by
  refine ⟨hexec, ⟨[], ?_, ?_, ?_, nofun, nofun⟩, fun h => hmode.trans h⟩
  · rw [hposted, List.append_nil]
  · rw [hreplies, List.append_nil]
  · rw [List.countP_nil, Nat.zero_add, hmode]

/-- An early reply is not an `SMSG_AUTH_LOGON_PROOF`. -/
lemma Packet.EarlyReply.isLogonProof {q : Packet} (h : q.EarlyReply) : q.isLogonProof = false := by
  cases q with
  | work p => rfl
  | auth p =>
    have hhead : (Packet.auth p).buildPacket.head? = some p.opcode := rfl
    have hne := h.opcode
    rw [hhead] at hne
    simpa [Packet.isLogonProof] using hne

/-- `send_packet` of an early reply. -/
lemma Posts.of_sendPacket {s t : Session} {q : Packet} (h : Posts s t) (hq : q.EarlyReply) :
    Posts s (t.sendPacket q) := by
  obtain ⟨new, hposted, hreplies, hproofs, hwork, hsize⟩ := h.posted
  unfold Session.sendPacket
  split_ifs with hclosed
  · exact h
  · refine ⟨h.executed, ⟨new ++ [q], ?_, ?_, ?_, ?_, ?_⟩, h.mode⟩
    · rw [hposted, List.append_assoc]
    · rw [hreplies, List.append_assoc]
    · simpa [List.countP_append, hq.isLogonProof] using hproofs
    · intro r hr hmode
      rcases List.mem_append.1 hr with hold | hnew
      · exact hwork r hold hmode
      · obtain rfl := List.mem_singleton.1 hnew
        rw [hq.mode] at hmode
        cases hmode
    · intro r hr
      rcases List.mem_append.1 hr with hold | hnew
      · exact hsize r hold
      · obtain rfl := List.mem_singleton.1 hnew
        exact hq.size

/-- A challenge posts at most one reply, an early one. -/
lemma HandlersAuth.ChallengeOutcome.posts {s s' : Session} {p : AuthPacket} {env : ChallengeEnv}
    (h : ChallengeOutcome s p env s') (hcache : env.cache.WellFormed) : Posts s s' := by
  cases h with
  | invalid hvalid => exact (Posts.of_eq rfl rfl rfl rfl).of_sendPacket (authResponse_early _)
  | notFound error hvalid hacc =>
    have hstore : Posts s (storeName s p) := .of_eq rfl rfl rfl rfl
    exact hstore.of_sendPacket (authResponse_early _)
  | found salt verifier reply hvalid hacc hreply =>
    have hload : Posts s (loadFound s p salt verifier env.rand) := .of_eq rfl rfl rfl rfl
    exact hload.of_sendPacket (challengeReply_early (account_sizes hcache hacc).1 hreply)
  | unanswered salt verifier e hvalid hacc hreply => exact .of_eq rfl rfl rfl rfl
  | busy salt verifier e hvalid hacc hreply =>
    have hload : Posts s (loadFound s p salt verifier env.rand) := .of_eq rfl rfl rfl rfl
    exact hload.of_sendPacket (authResponse_early _)

/-- The answers to a packet: a proof with both fields is answered with an `SMSG_AUTH_LOGON_PROOF`
and switches the mode, and nothing else does either. -/
lemma Packet.answers_proofs (sha1 : Sha1) (p : Packet) :
    (p.answers sha1).countP isLogonProof + p.mode.proofs = (p.nextMode p.mode).proofs := by
  cases p with
  | work p =>
    unfold answers
    dsimp only
    split_ifs <;> simp [isLogonProof, mode, nextMode, switches, SessionMode.proofs]
  | auth p =>
    cases hsw : (Packet.auth p).switches with
    | false =>
      have hearly : ∀ q ∈ (Packet.auth p).answers sha1, q.isLogonProof = false := fun q hq =>
        (answers_early sha1 rfl hsw hq).isLogonProof
      have hnone : ((Packet.auth p).answers sha1).countP isLogonProof = 0 := by
        rw [List.countP_eq_zero]
        intro q hq
        simp [hearly q hq]
      rw [hnone, nextMode, hsw]
      rfl
    | true =>
      have hproof : p.opcode = AuthOpcodes.cmsgAuthLogonProof ∧ 52 ≤ p.buffer.size := by
        simpa [switches] using hsw
      have hping : p.opcode ≠ AuthOpcodes.cmsgPing := by rw [hproof.1]; decide
      simp only [answers, if_neg hping, if_pos hproof.1, if_pos hproof.2, nextMode, hsw]
      rfl

/-- The answers to a packet have its framing, and a client takes them. -/
lemma Packet.answers_mode (sha1 : Sha1) {p q : Packet} (hq : q ∈ p.answers sha1) :
    q.mode = p.mode ∧ q.payload.length ≤ 2048 := by
  cases p with
  | work p =>
    unfold answers at hq
    dsimp only at hq
    split_ifs at hq
    · obtain rfl := List.mem_singleton.1 hq
      exact ⟨rfl, (List.length_take_le 4 _).trans (by decide)⟩
    · cases hq
  | auth p =>
    unfold answers at hq
    dsimp only at hq
    split_ifs at hq
    · obtain rfl := List.mem_singleton.1 hq
      exact ⟨rfl, (List.length_take_le 4 _).trans (by decide)⟩
    · obtain rfl := List.mem_singleton.1 hq
      refine ⟨rfl, ?_⟩
      show (sha1.hash _).length ≤ 2048
      rw [sha1.length_hash]
      decide
    · obtain rfl := List.mem_singleton.1 hq
      exact ⟨rfl, by decide⟩
    · cases hq

/-- A read completion posts the answers to the packet it dispatches. -/
lemma ReadOutcome.posts {sha1 : Sha1} {t s' : Session} (h : ReadOutcome sha1 t s')
    (hopen : t.closed = false) : Posts t s' := by
  cases h with
  | wait h => exact .of_eq rfl rfl rfl rfl
  | oversized h hbig => exact .of_eq (by simp) (by simp) (by simp) (by simp)
  | thrown p b' h0 hmode hsize hact hthrow =>
    exact .of_eq (by simp [Session.consume]) (by simp [Session.consume])
      (by simp [Session.consume]) (by simp [Session.consume])
  | handled p b' u h0 hmode hsize hact hthrow heff =>
    have hmode' : u.doRead.sessionMode = p.nextMode t.sessionMode := heff.mode
    refine ⟨?_, ⟨p.answers sha1, heff.posted hopen, heff.replies hopen, ?_, ?_, ?_⟩, ?_⟩
    · show u.executed = t.executed
      rw [heff.write]
      rfl
    · rw [hmode', ← hmode]
      exact p.answers_proofs sha1
    · intro q hq hwork
      rw [hmode', ← hmode, ← (Packet.answers_mode sha1 hq).1, hwork, Packet.nextMode, ite_self]
    · intro q hq
      exact (Packet.answers_mode sha1 hq).2
    · intro hwork
      rw [hmode', hwork, Packet.nextMode, ite_self]

/-- **Every ordinary step** posts replies, but for the task of a packet. -/
lemma Transition.posts {sha1 : Sha1} {s s' : Session} {e : SessionEvent}
    (h : Transition sha1 s e s') (he : e.Ordinary) (hsend : ∀ i, e ≠ .send i) : Posts s s' := by
  cases h with
  | readClosed chunk hclosed hreads => exact .of_eq rfl rfl rfl rfl
  | read chunk b s' hopen hreads hchunk hact hout =>
    have hposts := hout.posts hopen
    exact ⟨hposts.executed, hposts.posted, hposts.mode⟩
  | readError hreads => exact .of_eq (by simp) (by simp) (by simp) (by simp)
  | challenge i env p hp =>
    have hposts := (HandlersAuth.handleLogonChallenge_outcome
      { s with spawned := s.spawned.eraseIdx i } p env).1.posts he
    exact ⟨hposts.executed, hposts.posted, hposts.mode⟩
  | send i p hp => exact absurd rfl (hsend i)
  | writeDone i m hm => exact .of_eq (by simp) (by simp) (by simp) (by simp)
  | writeError i m hm => exact .of_eq (by simp) (by simp) (by simp) (by simp)
  | post p => exact he.elim
  | close => exact .of_eq (by simp) (by simp) (by simp) (by simp)

namespace ReplyInvariant

variable {s s' : Session}

/-- It holds at the start. -/
lemma start (sha1 : Sha1) : ReplyInvariant (Session.start sha1) := ⟨.refl _, rfl, nofun, nofun⟩

/-- Posting replies keeps it. -/
lemma posts (hs : ReplyInvariant s) (h : Posts s s') : ReplyInvariant s' := by
  obtain ⟨new, hposted, hreplies, hproofs, hwork, hsize⟩ := h.posted
  refine ⟨?_, ?_, ?_, ?_⟩
  · have hswap : (s.posted ++ (new ++ s.executed)).Perm (s.posted ++ (s.executed ++ new)) :=
      List.perm_append_comm.append_left s.posted
    rw [hposted, hreplies, h.executed, List.append_assoc]
    refine hswap.trans ?_
    rw [← List.append_assoc]
    exact hs.perm.append_right new
  · rw [hreplies, List.countP_append, hs.proofs, Nat.add_comm, hproofs]
  · intro q hq hmode
    rw [hreplies] at hq
    rcases List.mem_append.1 hq with hold | hnew
    · exact h.mode (hs.work q hold hmode)
    · exact hwork q hnew hmode
  · intro q hq
    rw [hreplies] at hq
    rcases List.mem_append.1 hq with hold | hnew
    · exact hs.size q hold
    · exact hsize q hnew

/-- The task of a packet keeps it: the packet goes from those posted to those executed. -/
lemma send {i : ℕ} {p : Packet} (hs : ReplyInvariant s) (hp : s.posted[i]? = some p) :
    ReplyInvariant (Session.doSendPacket { s with posted := s.posted.eraseIdx i } p) := by
  obtain ⟨hi, hget⟩ := List.getElem?_eq_some_iff.1 hp
  refine ⟨?_, by simpa using hs.proofs, by simpa using hs.work, by simpa using hs.size⟩
  have hfront : (p :: (s.posted.eraseIdx i ++ s.executed)).Perm (s.posted ++ s.executed) := by
    rw [← hget]
    exact (List.getElem_cons_eraseIdx_perm hi).append_right s.executed
  have hperm : (s.posted.eraseIdx i ++ (s.executed ++ [p])).Perm s.replies := by
    rw [← List.append_assoc]
    exact (List.perm_append_singleton _ _).trans (hfront.trans hs.perm)
  simpa using hperm

/-- **One ordinary step** keeps it. -/
lemma step {sha1 : Sha1} {e : SessionEvent} (hs : ReplyInvariant s) (he : e.Ordinary)
    (h : Transition sha1 s e s') : ReplyInvariant s' := by
  by_cases hsend : ∀ i, e ≠ .send i
  · exact hs.posts (h.posts he hsend)
  · cases h with
    | send i p hp => exact hs.send hp
    | _ => exact absurd (fun i => by simp) hsend

/-- A Work packet is posted after the `SMSG_AUTH_LOGON_PROOF`, which is posted once: the one is
executed exactly if it is no longer posted. -/
lemma executed_iff {p : Packet} (hs : ReplyInvariant s) (hp : p ∈ s.posted)
    (hmode : p.mode = .workSession) :
    (∃ q ∈ s.executed, q.isLogonProof = true) ↔ ∀ q ∈ s.posted, q.isLogonProof = false := by
  have hwork : s.sessionMode = .workSession :=
    hs.work p (hs.perm.subset (List.mem_append_left _ hp)) hmode
  have hone : s.posted.countP Packet.isLogonProof + s.executed.countP Packet.isLogonProof = 1 := by
    rw [← List.countP_append, hs.perm.countP_eq, hs.proofs, hwork]
    rfl
  have hposted : (∀ q ∈ s.posted, q.isLogonProof = false) ↔
      s.posted.countP Packet.isLogonProof = 0 := by
    simp [List.countP_eq_zero]
  rw [← List.countP_pos_iff, hposted]
  omega

end ReplyInvariant

/-! ## Frames in turn, exactly -/

/-- The task of a packet is in turn exactly if it runs in order. -/
lemma framedFrom_send_iff {s : Session} {i : ℕ} {p : Packet} (hs : ReplyInvariant s)
    (hopen : s.closed = false) (hp : s.posted[i]? = some p) :
    p.mode = replyMode .authSession s.executed ↔ TasksInOrder s (.send i) := by
  have hcond : TasksInOrder s (.send i) ↔
      (p.mode = .authSession → ∀ q ∈ s.executed, q.isLogonProof = false) ∧
        (p.mode = .workSession → ∀ q ∈ s.posted, q.isLogonProof = false) := by
    simp [TasksInOrder, hopen, hp]
  rw [hcond]
  cases hmode : p.mode with
  | authSession =>
    simp only [true_imp_iff, reduceCtorEq, false_imp_iff, and_true]
    cases hreply : replyMode .authSession s.executed with
    | authSession =>
      have hnone : ¬ ∃ q ∈ s.executed, q.isLogonProof = true := fun h => by
        simp [(replyMode_eq_work_iff _ _).2 (.inr h)] at hreply
      simpa using hnone
    | workSession =>
      rcases (replyMode_eq_work_iff _ _).1 hreply with hstart | ⟨q, hq, hproof⟩
      · cases hstart
      · refine iff_of_false nofun fun h => ?_
        rw [h q hq] at hproof
        cases hproof
  | workSession =>
    rw [eq_comm, replyMode_eq_work_iff]
    simp only [reduceCtorEq, false_or, false_imp_iff, true_imp_iff, true_and]
    exact hs.executed_iff (List.mem_of_getElem? hp) hmode

/-- In an open session, frames in turn are written and read in turn. -/
lemma framedReplies_iff {s : Session} (hs : ReplyInvariant s) (hw : s.InOrder) :
    FramedReplies s ↔ FramedFrom .authSession s.executed := by
  refine ⟨fun h => h.framed, fun h => ⟨h, ?_, ?_⟩⟩
  · rw [← hw.written, hw.started, hw.inFlight, List.prefix_append_right_inj]
    exact List.take_prefix 1 _
  · refine readFrames_streamOf h fun q hq => hs.size q ?_
    exact hs.perm.subset (List.mem_append_right _ hq)

/-- A closed session stays closed. -/
lemma WriterStep.open_before {s s' : Session} {e : SessionEvent} (h : WriterStep s e s')
    (hopen : s'.closed = false) : s.closed = false := by
  cases h with
  | idle e s' hwrite hclosed he => exact hclosed.symm.trans hopen
  | close e s' he hclosed hwrite => simp [hclosed] at hopen
  | send i p hp => simpa using hopen
  | writeDone i m hm => simpa using hopen
  | writeError i m hm => simp at hopen

/-- **One ordinary step** of a session in turn leads to one in turn exactly if it is in order. -/
lemma Transition.framed_iff {sha1 : Sha1} {s s' : Session} {e : SessionEvent}
    (h : Transition sha1 s e s') (he : e.Ordinary) (hs : ReplyInvariant s)
    (hw : s.closed = false → s.InOrder) (hP : s.closed = false → FramedReplies s) :
    (s'.closed = false → FramedReplies s') ↔ TasksInOrder s e := by
  have hs' := hs.step he h
  have hw' := h.writer.inOrder hw
  have hbefore := h.writer.open_before
  by_cases hsend : ∀ i, e ≠ .send i
  · refine iff_of_true (fun hopen => ?_) ?_
    · rw [framedReplies_iff hs' (hw' hopen), (h.posts he hsend).executed]
      exact (hP (hbefore hopen)).framed
    · cases e with
      | send i => exact absurd rfl (hsend i)
      | _ => trivial
  · cases h with
    | send i p hp =>
      rcases Bool.eq_false_or_eq_true s.closed with hclosed | hclosed
      · refine iff_of_true (fun hopen => ?_) fun hopen => ?_
        · simp [hclosed] at hopen
        · simp [hclosed] at hopen
      · have hopen' : (Session.doSendPacket { s with posted := s.posted.eraseIdx i } p).closed =
            false := by
          simpa using hclosed
        rw [← framedFrom_send_iff hs hclosed hp]
        simp only [hopen', true_imp_iff, framedReplies_iff hs' (hw' hopen'),
          Session.doSendPacket_executed, framedFrom_concat, (hP hclosed).framed, true_and]
    | _ => exact absurd (fun i => by simp) hsend

/-- **The framing of the replies.** In every run of a session, in any interleaving of its completion
handlers, spawned challenges and posted tasks, the frames of the open session are Auth frames up to
and including the `SMSG_AUTH_LOGON_PROOF` and Work frames after it, written in that order and read
by a client that switches on that frame in the framing they were built in, exactly when the tasks
around the switch run in order.

**Proof sketch.** Only the task of a packet adds to the frames. It adds an Auth frame in turn if no
`SMSG_AUTH_LOGON_PROOF` is among them, and a Work frame in turn if one is. A Work packet is posted
after the one `SMSG_AUTH_LOGON_PROOF`, so that is so exactly if its task is no longer posted. -/
theorem framed_iff_tasksInOrder (sha1 : Sha1) (es : List SessionEvent)
    (hes : ∀ e ∈ es, e.Ordinary) :
    Run.Always (Session.step sha1) (fun s => s.closed = false → FramedReplies s)
        (Session.start sha1) es ↔
      Run.StepsMeet (Session.step sha1) TasksInOrder (Session.start sha1) es := by
  refine Run.always_iff_stepsMeet_of_mem
    (I := fun s => ReplyInvariant s ∧ (s.closed = false → s.InOrder)) ?_ ?_ ?_ ?_ hes
  · intro s e s' he hs hstep
    have htrans := Session.step_transition hstep
    exact ⟨hs.1.step he htrans, htrans.writer.inOrder hs.2⟩
  · intro s e s' he hs hP hstep
    exact (Session.step_transition hstep).framed_iff he hs.1 hs.2 hP
  · refine ⟨.start sha1, fun _ => ?_⟩
    constructor <;> simp [Session.start, Session.doRead]
  · intro _
    exact ⟨trivial, List.prefix_rfl, rfl⟩

/-- A ping, a proof and a Work ping, each answered before the next arrives. -/
def answeredEvents : List SessionEvent :=
  [.read [1, 0, 4, 1, 2, 3, 4], .send 0,
    .read ([5, 0, 52] ++ List.replicate 52 0), .send 0,
    .read [0, 1, 0, 4, 1, 2, 3, 4], .send 0]

/-- The replies are an Auth pong, the `SMSG_AUTH_LOGON_PROOF` and a Work pong. -/
theorem framed_answered :
    (∀ e ∈ answeredEvents, e.Ordinary) ∧
    ∃ s, Run.exec (Session.step SRP6.sampleSha1) (Session.start SRP6.sampleSha1) answeredEvents =
        some s ∧ s.closed = false ∧
      s.executed.map Packet.mode = [.authSession, .authSession, .workSession] ∧
      FramedReplies s := by
  have hes : ∀ e ∈ answeredEvents, e.Ordinary := by
    simp [answeredEvents, SessionEvent.Ordinary]
  have hmeet : Run.StepsMeet (Session.step SRP6.sampleSha1) TasksInOrder
      (Session.start SRP6.sampleSha1) answeredEvents := by
    decide +kernel
  have hrun : (Run.exec (Session.step SRP6.sampleSha1) (Session.start SRP6.sampleSha1)
      answeredEvents).map (fun s => (s.closed, s.executed.map Packet.mode)) =
        some (false, [.authSession, .authSession, .workSession]) := by
    decide +kernel
  obtain ⟨s, hs, hval⟩ := Option.map_eq_some_iff.1 hrun
  simp only [Prod.mk.injEq] at hval
  obtain ⟨hopen, hmodes⟩ := hval
  have halways := (framed_iff_tasksInOrder SRP6.sampleSha1 answeredEvents hes).2 hmeet
  exact ⟨hes, s, hs, hopen, hmodes, halways.last hs hopen⟩

/-- A ping and a proof arrive, and the task of the `SMSG_AUTH_LOGON_PROOF` runs before that of the
pong. -/
def overtakenEvents : List SessionEvent :=
  [.read [1, 0, 4, 1, 2, 3, 4], .read ([5, 0, 52] ++ List.replicate 52 0), .send 1, .send 0]

/-- The pong, an Auth frame, is written after the `SMSG_AUTH_LOGON_PROOF`: the client, which has
switched, reads its first four bytes as a Work header that declares 1025 bytes. -/
theorem pong_after_proof :
    (∀ e ∈ overtakenEvents, e.Ordinary) ∧
    ¬ Run.Always (Session.step SRP6.sampleSha1) (fun s => s.closed = false → FramedReplies s)
      (Session.start SRP6.sampleSha1) overtakenEvents := by
  refine ⟨by simp [overtakenEvents, SessionEvent.Ordinary], fun h => ?_⟩
  have hrun : (Run.exec (Session.step SRP6.sampleSha1) (Session.start SRP6.sampleSha1)
      overtakenEvents).map (fun s => (s.closed, s.executed.map Packet.buildPacket,
        (readFrames 2 .authSession (streamOf s.executed)).map Prod.snd)) =
      some (false,
        [[6, 0, 20] ++ SRP6.sampleSha1.hash (List.replicate 52 0), [2, 0, 4, 1, 2, 3, 4]],
        [[6, 0, 20] ++ SRP6.sampleSha1.hash (List.replicate 52 0)]) := by
    decide +kernel
  obtain ⟨s, hs, hval⟩ := Option.map_eq_some_iff.1 hrun
  simp only [Prod.mk.injEq] at hval
  obtain ⟨hopen, hframes, hread⟩ := hval
  have hframed := h.last hs hopen
  have hlen : s.executed.length = 2 := by
    rw [← List.length_map Packet.buildPacket, hframes]
    rfl
  -- the client gets one frame out of the two
  have hback := congrArg (fun fs => (fs.map Prod.snd).length) hframed.read
  rw [hlen] at hback
  simp only [hread, List.length_map, hlen] at hback
  exact absurd hback (by decide)

end Purity
