import Purity.Server.ReadPath

set_option relaxedAutoImplicit false
set_option autoImplicit false

/-!
# The login

A client logs in with a challenge, which loads its account into the session's `SRP6` object, and a
proof, which switches the session to `WORK_SESSION`. Challenges are coroutines and run in any order;
a proof is handled at once.

## Main definitions

* `Purity.LoginStep` — what a step does to the `SRP6` object and the record of accounts loaded.
* `Purity.Consistent` — the `SRP6` object is that of the account loaded last.
* `Purity.FailsInPlace` — a challenge that finds no account is for the name already stored.
* `Purity.AcceptedProof` — a proof with both fields, dispatched in `AUTH_SESSION`.

## Main results

* `Purity.work_iff_acceptedProof` — a session is in `WORK_SESSION`, and authenticated, exactly if it
  has dispatched such a proof. What the proof holds is not compared with anything.
* `Purity.consistent_iff_failsInPlace` — the name stored is that of the account loaded exactly as
  long as no challenge for another name fails: the name is stored before the account is looked up.
-/

namespace Purity

open HandlersAuth Utf8

/-! ## Authentication -/

/-- `d` is a proof with both fields, the packet `p`, dispatched in `AUTH_SESSION`. -/
structure AcceptedProof (d : Dispatched) (p : AuthPacket) : Prop where
  mode : d.mode = .authSession
  packet : d.packet = .auth p
  opcode : p.opcode = AuthOpcodes.cmsgAuthLogonProof
  size : 52 ≤ p.buffer.size

/-- The packets that switch the mode are the proofs with both fields. -/
lemma Packet.switches_iff (q : Packet) : q.switches = true ↔
    ∃ p : AuthPacket, q = .auth p ∧ p.opcode = AuthOpcodes.cmsgAuthLogonProof ∧
      52 ≤ p.buffer.size := by
  cases q with
  | auth p => simp [switches]
  | work p => simp [switches]

/-- The answer to a proof with both fields. -/
lemma Packet.answers_proof (sha1 : Sha1) {p : AuthPacket}
    (hop : p.opcode = AuthOpcodes.cmsgAuthLogonProof) (hsize : 52 ≤ p.buffer.size) :
    (Packet.auth p).throws = false ∧ (Packet.auth p).answers sha1 =
      [.auth { opcode := AuthOpcodes.smsgAuthLogonProof
               buffer := { buffer := sha1.hash (p.buffer.buffer.take 52) } }] := by
  have hping : p.opcode ≠ AuthOpcodes.cmsgPing := by rw [hop]; decide
  refine ⟨by simp [throws, hping], ?_⟩
  simp only [answers, if_neg hping, if_pos hop, if_pos hsize]

/-- Every packet dispatched whose handler did not throw has its answers among the replies. -/
def Answered (sha1 : Sha1) (s : Session) : Prop :=
  ∀ d ∈ s.dispatched, d.packet.throws = false → ∀ r ∈ d.packet.answers sha1, r ∈ s.replies

/-- A step that dispatches nothing and takes back no reply keeps the packets answered. -/
lemma Answered.of_prefix {sha1 : Sha1} {s s' : Session} (hs : Answered sha1 s)
    (hdisp : s'.dispatched = s.dispatched) (hrep : s.replies <+: s'.replies) :
    Answered sha1 s' := by
  intro d hd hthrow r hr
  rw [hdisp] at hd
  exact hrep.subset (hs d hd hthrow r hr)

/-- A read completion of an open session answers the packet it dispatches. -/
lemma ReadOutcome.answered {sha1 : Sha1} {t s' : Session} (h : ReadOutcome sha1 t s')
    (hopen : t.closed = false) (ht : Answered sha1 t) : Answered sha1 s' := by
  cases h with
  | wait h => exact ht.of_prefix rfl List.prefix_rfl
  | oversized h hbig => exact ht.of_prefix (by simp) (by simp)
  | thrown p b' h0 hmode hsize hact hthrow =>
    intro d hd hthrow' r hr
    rw [Session.close_dispatched] at hd
    rw [Session.close_replies]
    rcases List.mem_append.1 hd with hold | hnew
    · exact ht d hold hthrow' r hr
    · obtain rfl := List.mem_singleton.1 hnew
      simp [hthrow] at hthrow'
  | handled p b' u h0 hmode hsize hact hthrow heff =>
    have hrep : u.replies = t.replies ++ p.answers sha1 := heff.replies hopen
    have hdisp : u.dispatched = t.dispatched ++ [⟨t.sessionMode, p.buildPacket, p⟩] :=
      heff.dispatched
    intro d hd hthrow' r hr
    change d ∈ u.dispatched at hd
    change r ∈ u.replies
    rw [hdisp] at hd
    rw [hrep]
    rcases List.mem_append.1 hd with hold | hnew
    · exact List.mem_append_left _ (ht d hold hthrow' r hr)
    · obtain rfl := List.mem_singleton.1 hnew
      exact List.mem_append_right _ hr

/-- **One step** keeps the packets answered. -/
lemma Transition.answered {sha1 : Sha1} {s s' : Session} {e : SessionEvent}
    (h : Transition sha1 s e s') (hs : Answered sha1 s) : Answered sha1 s' := by
  cases h with
  | readClosed chunk hclosed hreads => exact hs.of_prefix rfl List.prefix_rfl
  | read chunk b s' hopen hreads hchunk hact hout =>
    exact hout.answered hopen (hs.of_prefix rfl List.prefix_rfl)
  | readError hreads => exact hs.of_prefix (by simp) (by simp)
  | challenge i env p hp =>
    have heff := handleLogonChallenge_effect { s with spawned := s.spawned.eraseIdx i } p env
    exact hs.of_prefix (by rw [heff.read]) heff.replies
  | send i p hp => exact hs.of_prefix (by simp) (by simp)
  | writeDone i m hm => exact hs.of_prefix (by simp) (by simp)
  | writeError i m hm => exact hs.of_prefix (by simp) (by simp)
  | post p => exact hs.of_prefix (by simp) (s.replies_prefix_sendPacket p)
  | close => exact hs.of_prefix (by simp) (by simp)

/-- The account is authenticated exactly in `WORK_SESSION`; one step keeps that. -/
lemma ReaderStep.isAuth_iff {s s' : Session} {e : SessionEvent} (h : ReaderStep s e s')
    (hs : s.isAuth = true ↔ s.sessionMode = .workSession) :
    s'.isAuth = true ↔ s'.sessionMode = .workSession := by
  cases h with
  | idle e s' hrecv hdisp hmode hauth hact he => rw [hauth, hmode, hs]
  | wait chunk s' hopen hwait hrecv hdisp hmode hauth hopen' hact => rw [hauth, hmode, hs]
  | oversized chunk s' hopen hsize hbig hdisp hmode hauth hclosed => rw [hauth, hmode, hs]
  | frame chunk s' p rest hopen h0 hframing hsize hdata hrecv hdisp hmode hauth hclosed hact =>
    rw [hauth, hmode, Packet.nextMode]
    cases p.switches with
    | true => simp
    | false => simpa using hs

/-- **Authentication of a session.** In every state of every run, the account is authenticated
exactly if the session is in `WORK_SESSION`, and this is so exactly if a proof with at least 52
payload bytes has been dispatched in `AUTH_SESSION`. Every such proof has been answered with the
hash of its two fields. What the fields hold, and whether a challenge was answered before, makes no
difference.

**Proof sketch.** The packets dispatched determine the mode (`ReadInvariant.mode`), and only a
proof with both fields changes it. -/
theorem work_iff_acceptedProof (sha1 : Sha1) (es : List SessionEvent) (s : Session)
    (h : Run.exec (Session.step sha1) (Session.start sha1) es = some s) :
    (s.isAuth = true ↔ s.sessionMode = .workSession) ∧
    (s.sessionMode = .workSession ↔ ∃ d ∈ s.dispatched, ∃ p, AcceptedProof d p) ∧
    ∀ d ∈ s.dispatched, ∀ p, AcceptedProof d p →
      .auth { opcode := AuthOpcodes.smsgAuthLogonProof
              buffer := { buffer := sha1.hash (p.buffer.buffer.take 52) } } ∈ s.replies := by
  have hinv : ReadInvariant s ∧ Answered sha1 s ∧
      (s.isAuth = true ↔ s.sessionMode = .workSession) := by
    refine Run.exec_invariant (I := fun s => ReadInvariant s ∧ Answered sha1 s ∧
      (s.isAuth = true ↔ s.sessionMode = .workSession)) ?_ ?_ h
    · rintro s e s' ⟨hread, hans, hauth⟩ hstep
      have htrans := Session.step_transition hstep
      exact ⟨hread.step htrans.reader, htrans.answered hans, htrans.reader.isAuth_iff hauth⟩
    · refine ⟨ReadInvariant.start sha1, ?_, ?_⟩
      · intro d hd
        cases hd
      · simp [Session.start, Session.doRead]
  obtain ⟨hread, hans, hauth⟩ := hinv
  refine ⟨hauth, ?_, ?_⟩
  · rw [hread.mode, modeAfter_eq_work_iff]
    constructor
    · rintro (habs | ⟨q, hq, hsw⟩)
      · cases habs
      obtain ⟨d, hd, rfl⟩ := List.mem_map.1 hq
      obtain ⟨p, hp, hop, hsize⟩ := (Packet.switches_iff _).1 hsw
      -- a packet of the Auth class was parsed in `AUTH_SESSION`
      obtain ⟨pre, post, hsplit⟩ := List.append_of_mem hd
      have hmode := (hread.exact pre d post hsplit).2.mode
      rw [hp] at hmode
      exact ⟨d, hd, p, hmode.symm, hp, hop, hsize⟩
    · rintro ⟨d, hd, p, hacc⟩
      exact .inr ⟨d.packet, List.mem_map_of_mem hd,
        (Packet.switches_iff _).2 ⟨p, hacc.packet, hacc.opcode, hacc.size⟩⟩
  · intro d hd p hacc
    obtain ⟨hthrow, hans'⟩ := Packet.answers_proof sha1 hacc.opcode hacc.size
    refine hans d hd (by rw [hacc.packet, hthrow]) _ ?_
    rw [hacc.packet, hans']
    exact List.mem_singleton_self _

/-- A proof of zeros, from a client that never asked for a challenge. -/
theorem work_iff_acceptedProof_zeros :
    ∃ s, Run.exec (Session.step SRP6.sampleSha1) (Session.start SRP6.sampleSha1)
        [.read ([5, 0, 52] ++ List.replicate 52 0)] = some s ∧
      s.sessionMode = .workSession ∧ ∃ d ∈ s.dispatched, ∃ p, AcceptedProof d p := by
  have hrun : (Run.exec (Session.step SRP6.sampleSha1) (Session.start SRP6.sampleSha1)
      [.read ([5, 0, 52] ++ List.replicate 52 0)]).map (·.sessionMode) =
      some .workSession := by
    decide +kernel
  obtain ⟨s, hs, hmode⟩ := Option.map_eq_some_iff.1 hrun
  exact ⟨s, hs, hmode, (work_iff_acceptedProof SRP6.sampleSha1 _ s hs).2.1.1 hmode⟩

/-- The session of such a client is authenticated, although no account was loaded and no
`SMSG_AUTH_LOGON_CHALLENGE` sent. -/
theorem work_without_challenge :
    ∃ s, Run.exec (Session.step SRP6.sampleSha1) (Session.start SRP6.sampleSha1)
        [.read ([5, 0, 52] ++ List.replicate 52 0)] = some s ∧
      s.sessionMode = .workSession ∧ s.isAuth = true ∧ s.loads = [] ∧
      ∀ r ∈ s.replies, r.opcodeBytes ≠ [AuthOpcodes.smsgAuthLogonChallenge] := by
  have hrun : (Run.exec (Session.step SRP6.sampleSha1) (Session.start SRP6.sampleSha1)
      [.read ([5, 0, 52] ++ List.replicate 52 0)]).map
        (fun s => (s.sessionMode, s.isAuth, s.loads, s.replies.map Packet.opcodeBytes)) =
      some (.workSession, true, [], [[AuthOpcodes.smsgAuthLogonProof]]) := by
    decide +kernel
  obtain ⟨s, hs, hval⟩ := Option.map_eq_some_iff.1 hrun
  simp only [Prod.mk.injEq] at hval
  obtain ⟨hmode, hauth, hloads, hops⟩ := hval
  refine ⟨s, hs, hmode, hauth, hloads, fun r hr heq => ?_⟩
  have hmem := List.mem_map_of_mem (f := Packet.opcodeBytes) hr
  rw [hops, heq] at hmem
  revert hmem
  decide

/-! ## The account loaded -/

/-- If the event is a challenge that stores its name and then finds no account, the name is the one
stored already. -/
def FailsInPlace (s : Session) : SessionEvent → Prop
  | .challenge i env => ∀ p, s.spawned[i]? = some p → isValidUtf8 (challengeName p) = true →
      env.account (accountName p) = none → accountName p = s.srp.username
  | _ => True

/-- What a step does to the `SRP6` object and the record of accounts loaded: nothing; a challenge
that finds no account stores its name; one that finds it stores all of it. -/
inductive LoginStep (s : Session) : SessionEvent → Session → Prop where
  | keep (e : SessionEvent) (s' : Session) (hsrp : s'.srp = s.srp) (hloads : s'.loads = s.loads)
    (he : FailsInPlace s e) : LoginStep s e s'
  | notFound (i : ℕ) (env : ChallengeEnv) (p : AuthPacket) (s' : Session)
    (hp : s.spawned[i]? = some p) (hvalid : isValidUtf8 (challengeName p) = true)
    (hacc : env.account (accountName p) = none)
    (hsrp : s'.srp = s.srp.setOnlyUsername (accountName p)) (hloads : s'.loads = s.loads) :
    LoginStep s (.challenge i env) s'
  | found (i : ℕ) (env : ChallengeEnv) (p : AuthPacket) (salt verifier : Bytes) (s' : Session)
    (hp : s.spawned[i]? = some p) (hacc : env.account (accountName p) = some (salt, verifier))
    (hsrp : s'.srp = (((s.srp.setOnlyUsername (accountName p)).loadVerifier salt
      verifier).generateServerEphemeral env.rand))
    (hloads : s'.loads = s.loads ++ [⟨accountName p, salt, verifier, env.rand⟩]) :
    LoginStep s (.challenge i env) s'

/-- A challenge is a login step, while the session has the built-in modulus.

**Proof sketch.** By what the challenge finds. The reply to a challenge that finds its account can
be built, as the modulus is the built-in one. -/
lemma loginStep_challenge {s : Session} {i : ℕ} (env : ChallengeEnv) {p : AuthPacket}
    (hN : s.srp.N = SRP6.modulus) (hp : s.spawned[i]? = some p) :
    LoginStep s (.challenge i env)
      (handleLogonChallenge { s with spawned := s.spawned.eraseIdx i } p env).2 := by
  have hok : ∀ salt verifier, ∃ reply, challengeReply
      (loadFound { s with spawned := s.spawned.eraseIdx i } p salt verifier env.rand).srp salt =
        .ok reply := by
    intro salt verifier
    have hN' : (s.srp.setOnlyUsername (accountName p)).N = SRP6.modulus := hN
    obtain ⟨reply, hreply, -⟩ := challengeReply_ok hN' salt verifier env.rand
    exact ⟨reply, hreply⟩
  have hout := (handleLogonChallenge_outcome { s with spawned := s.spawned.eraseIdx i } p env).1
  generalize
    (handleLogonChallenge { s with spawned := s.spawned.eraseIdx i } p env).2 = s' at hout ⊢
  cases hout with
  | invalid hvalid =>
    refine .keep _ _ (by simp) (by simp) fun q hq hvalid' => ?_
    obtain rfl : p = q := by simpa [hp] using hq
    simp [hvalid] at hvalid'
  | notFound error hvalid hacc =>
    exact .notFound i env p _ hp hvalid hacc (by simp [storeName]) (by simp [storeName])
  | found salt verifier reply hvalid hacc hreply =>
    exact .found i env p salt verifier _ hp hacc (by simp [loadFound, loadAccount, storeName])
      (by simp [loadFound, loadAccount, storeName])
  | unanswered salt verifier e hvalid hacc hreply =>
    obtain ⟨reply, hreply'⟩ := hok salt verifier
    rw [hreply] at hreply'
    cases hreply'
  | busy salt verifier e hvalid hacc hreply =>
    obtain ⟨reply, hreply'⟩ := hok salt verifier
    rw [hreply] at hreply'
    cases hreply'

/-- **Every step is a login step.** -/
lemma Transition.login {sha1 : Sha1} {s s' : Session} {e : SessionEvent}
    (h : Transition sha1 s e s') (hN : s.srp.N = SRP6.modulus) : LoginStep s e s' := by
  cases h with
  | readClosed chunk hclosed hreads => exact .keep _ _ rfl rfl trivial
  | read chunk b s' hopen hreads hchunk hact hout =>
    cases hout with
    | wait h => exact .keep _ _ rfl rfl trivial
    | oversized h hbig =>
      exact .keep _ _ (by simp [Session.arrive]) (by simp [Session.arrive]) trivial
    | thrown p b' h0 hmode hsize hact hthrow =>
      exact .keep _ _ (by simp [Session.arrive, Session.consume])
        (by simp [Session.arrive, Session.consume]) trivial
    | handled p b' t h0 hmode hsize hact hthrow heff =>
      exact .keep _ _ heff.srp heff.loads trivial
  | readError hreads => exact .keep _ _ (by simp) (by simp) trivial
  | challenge i env p hp => exact loginStep_challenge env hN hp
  | send i p hp => exact .keep _ _ (by simp) (by simp) trivial
  | writeDone i m hm => exact .keep _ _ (by simp) (by simp) trivial
  | writeError i m hm => exact .keep _ _ (by simp) (by simp) trivial
  | post p => exact .keep _ _ (by simp) (by simp) trivial
  | close => exact .keep _ _ (by simp) (by simp) trivial

/-- A login step keeps the modulus. -/
lemma LoginStep.modulus {s s' : Session} {e : SessionEvent} (h : LoginStep s e s')
    (hN : s.srp.N = SRP6.modulus) : s'.srp.N = SRP6.modulus := by
  cases h with
  | keep e s' hsrp hloads he => rw [hsrp, hN]
  | notFound i env p s' hp hvalid hacc hsrp hloads => rw [hsrp]; exact hN
  | found i env p salt verifier s' hp hacc hsrp hloads => rw [hsrp]; exact hN

/-- The object has the built-in group and the multiplier for it. -/
structure SRP6.BuiltIn (sha1 : Sha1) (srp : SRP6) : Prop where
  N : srp.N = SRP6.modulus
  g : srp.g = 7
  k : srp.k = SRP6.calculateK sha1 SRP6.modulus 7

/-- A login step keeps the group. -/
lemma LoginStep.builtIn {sha1 : Sha1} {s s' : Session} {e : SessionEvent} (h : LoginStep s e s')
    (hs : s.srp.BuiltIn sha1) : s'.srp.BuiltIn sha1 := by
  cases h with
  | keep e s' hsrp hloads he => rw [hsrp]; exact hs
  | notFound i env p s' hp hvalid hacc hsrp hloads => rw [hsrp]; exact ⟨hs.N, hs.g, hs.k⟩
  | found i env p salt verifier s' hp hacc hsrp hloads => rw [hsrp]; exact ⟨hs.N, hs.g, hs.k⟩

/-- In every state of every run the `SRP6` object has the built-in group. -/
lemma builtIn_of_exec {sha1 : Sha1} {es : List SessionEvent} {s : Session}
    (h : Run.exec (Session.step sha1) (Session.start sha1) es = some s) : s.srp.BuiltIn sha1 := by
  refine Run.exec_invariant (I := fun t : Session => t.srp.BuiltIn sha1) ?_ ⟨rfl, rfl, rfl⟩ h
  intro t e t' ht hstep
  exact ((Session.step_transition hstep).login ht.N).builtIn ht

/-- The `SRP6` object of an account just loaded, or one that was never used. -/
def loadedSrp (sha1 : Sha1) : Option Load → SRP6
  | none => SRP6.new sha1
  | some l => (((SRP6.new sha1).setOnlyUsername l.username).loadVerifier l.salt
      l.verifier).generateServerEphemeral l.rand

/-- The `SRP6` object is that of the account loaded last: its `username_` is the name under which
its `salt_` and `v_` were found and for which its `b_` and `B_` were drawn. If no account has been
loaded yet, no name is set. -/
def Consistent (sha1 : Sha1) (s : Session) : Prop := s.srp = loadedSrp sha1 s.loads.getLast?

/-- A step that loads no account leaves the whole `SRP6` object as it is. -/
def FailureKeeps (sha1 : Sha1) (s : Session) (e : SessionEvent) : Prop :=
  ∀ s', s.step sha1 e = some s' → s'.loads = s.loads → s'.srp = s.srp

/-- Storing a name changes the object exactly if it is another name. -/
lemma setOnlyUsername_eq_iff (srp : SRP6) (name : Bytes) :
    srp.setOnlyUsername name = srp ↔ name = srp.username := by
  constructor
  · intro h
    rw [← congrArg SRP6.username h]
    rfl
  · rintro rfl
    rfl

/-- Loading an account into a consistent object gives the object of that account. -/
lemma loadedSrp_load (sha1 : Sha1) (o : Option Load) (l : Load) :
    (((loadedSrp sha1 o).setOnlyUsername l.username).loadVerifier l.salt
      l.verifier).generateServerEphemeral l.rand = loadedSrp sha1 (some l) := by
  cases o <;> rfl

/-- **One step** from a consistent state leads to one exactly if it fails in place.

**Proof sketch.** Loading an account overwrites all that an earlier one left. A challenge that
fails overwrites the name only. -/
lemma LoginStep.consistent_iff {sha1 : Sha1} {s s' : Session} {e : SessionEvent}
    (h : LoginStep s e s') (hs : Consistent sha1 s) : Consistent sha1 s' ↔ FailsInPlace s e := by
  unfold Consistent at hs ⊢
  cases h with
  | keep e s' hsrp hloads he =>
    rw [hsrp, hloads]
    exact iff_of_true hs he
  | notFound i env p s' hp hvalid hacc hsrp hloads =>
    rw [hsrp, hloads, ← hs, setOnlyUsername_eq_iff]
    constructor
    · intro heq q hq _ _
      obtain rfl : p = q := by simpa [hp] using hq
      exact heq
    · intro hfail
      exact hfail p hp hvalid hacc
  | found i env p salt verifier s' hp hacc hsrp hloads =>
    refine iff_of_true ?_ fun q hq _ hnone => ?_
    · rw [hsrp, hloads, List.getLast?_concat, hs]
      exact loadedSrp_load sha1 _ ⟨accountName p, salt, verifier, env.rand⟩
    · obtain rfl : p = q := by simpa [hp] using hq
      simp [hacc] at hnone

/-- A step leaves the object alone unless it loads an account exactly if it fails in place. -/
lemma failureKeeps_iff {sha1 : Sha1} {s s' : Session} {e : SessionEvent}
    (hN : s.srp.N = SRP6.modulus) (hstep : s.step sha1 e = some s') :
    FailureKeeps sha1 s e ↔ FailsInPlace s e := by
  have hkeeps : FailureKeeps sha1 s e ↔ (s'.loads = s.loads → s'.srp = s.srp) := by
    refine ⟨fun h => h s' hstep, fun h t ht => ?_⟩
    obtain rfl : s' = t := by simpa [hstep] using ht
    exact h
  rw [hkeeps]
  cases (Session.step_transition hstep).login hN with
  | keep e s' hsrp hloads he => exact iff_of_true (fun _ => hsrp) he
  | notFound i env p s' hp hvalid hacc hsrp hloads =>
    rw [hsrp, hloads, setOnlyUsername_eq_iff]
    constructor
    · intro heq q hq _ _
      obtain rfl : p = q := by simpa [hp] using hq
      exact heq rfl
    · intro hfail _
      exact hfail p hp hvalid hacc
  | found i env p salt verifier s' hp hacc hsrp hloads =>
    refine iff_of_true (fun h => ?_) fun q hq _ hnone => ?_
    · rw [hloads] at h
      simp at h
    · obtain rfl : p = q := by simpa [hp] using hq
      simp [hacc] at hnone

/-- **Account identity.** Along every run, the following are the same: the `SRP6` object is always
that of the account loaded last; no step that loads no account changes it; and every challenge that
finds no account, other than for a name that is not valid UTF-8, is for the name already stored.

**Proof sketch.** `LoginStep.consistent_iff` and `failureKeeps_iff` are the exact step conditions;
the invariant is that the modulus is the built-in one. -/
theorem consistent_iff_failsInPlace (sha1 : Sha1) (es : List SessionEvent) :
    (Run.Always (Session.step sha1) (Consistent sha1) (Session.start sha1) es ↔
      Run.StepsMeet (Session.step sha1) FailsInPlace (Session.start sha1) es) ∧
    (Run.StepsMeet (Session.step sha1) (FailureKeeps sha1) (Session.start sha1) es ↔
      Run.StepsMeet (Session.step sha1) FailsInPlace (Session.start sha1) es) := by
  have hN : ∀ (s : Session) e s', s.srp.N = SRP6.modulus → Session.step sha1 s e = some s' →
      s'.srp.N = SRP6.modulus := by
    intro s e s' hs hstep
    exact ((Session.step_transition hstep).login hs).modulus hs
  have hstart : (Session.start sha1).srp.N = SRP6.modulus := rfl
  have hcons : Consistent sha1 (Session.start sha1) := rfl
  constructor
  · refine Run.always_iff_stepsMeet hN ?_ hstart hcons es
    intro s e s' hs hP hstep
    exact ((Session.step_transition hstep).login hs).consistent_iff hP
  · refine Run.stepsMeet_congr hN ?_ hstart es
    intro s e s' hs hstep
    exact failureKeeps_iff hs hstep

/-- What the challenge of a client finds: a row for its account, or nothing. -/
def sampleEnv (row : Option AccountsRow) : ChallengeEnv where
  cache := { ttl := 300 }
  getTime := 0
  putTime := 0
  db := .ok row
  rand := sampleRand

/-- The client logs in as `a`, which exists, and then asks for `b`, which does not: the object has
the name `B` with the salt and the verifier of `A`. -/
theorem name_without_account :
    ¬ Run.Always (Session.step SRP6.sampleSha1) (Consistent SRP6.sampleSha1)
      (Session.start SRP6.sampleSha1)
      [.read [3, 0, 2, 97, 0],
       .challenge 0 (sampleEnv (some ⟨some (List.replicate 32 1), some (List.replicate 32 2)⟩)),
       .read [3, 0, 2, 98, 0], .challenge 0 (sampleEnv none)] := by
  intro h
  have hrun : (Run.exec (Session.step SRP6.sampleSha1) (Session.start SRP6.sampleSha1)
      [.read [3, 0, 2, 97, 0],
       .challenge 0 (sampleEnv (some ⟨some (List.replicate 32 1), some (List.replicate 32 2)⟩)),
       .read [3, 0, 2, 98, 0], .challenge 0 (sampleEnv none)]).map
        (fun s => (s.srp.username, s.srp.salt, s.loads.map (·.username))) =
      some ([66], List.replicate 32 1, [[65]]) := by
    decide +kernel
  obtain ⟨s, hs, hval⟩ := Option.map_eq_some_iff.1 hrun
  simp only [Prod.mk.injEq] at hval
  obtain ⟨hname, -, hloads⟩ := hval
  obtain ⟨l, hl, huser⟩ := List.map_eq_singleton_iff.1 hloads
  have hcons : s.srp = loadedSrp SRP6.sampleSha1 s.loads.getLast? := h.last hs
  have hstored : s.srp.username = l.username := by
    rw [hcons, hl]
    rfl
  rw [hname, huser] at hstored
  revert hstored
  decide

end Purity
