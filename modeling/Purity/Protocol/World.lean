import Purity.Protocol.Service
import Purity.Server.Isolation

set_option relaxedAutoImplicit false
set_option autoImplicit false

/-!
# A server and its clients

The whole system: a server, and at the other end of each connection it accepts a client of this
program, or something else that may send anything. Each client and its session are joined by two
byte streams as in `Purity.Net`; the sessions share the server with its cache and its database, and
everything runs in any interleaving. No pair notices the others: what holds of a client and its
session alone holds of each pair.

## Main definitions

* `Purity.Link` — a client and the bytes on the stream to it.
* `Purity.World`, `Purity.WorldEvent`, `Purity.World.step` — the server and its peers.
* `Purity.World.Paired` — a pair that the two-party system could have made.

## Main results

* `Purity.World.paired_of_exec` — the rule: what the steps of the two-party system keep holds of
  every pair.
* `Purity.World.pair_alone` — every pair makes a run of its own.
* `Purity.World.each_client_served` — every client that sends in turn is served, whatever the other
  peers do.

## Implementation notes

Peers are numbered as their sessions, in the order of acceptance. As in `Purity.Net`, a client has
one connection, and `send_packet` is called by the handlers alone.
-/

namespace Purity

/-- A client of the program, and the bytes its session has put on the stream to it. -/
structure Link where
  client : Client
  toClient : Bytes := []

namespace Link

/-- Whether the streams allow an event of the client, as in `Net.clientMay`. -/
def clientMay (l : Link) : ClientEvent → Bool
  | .readDone _ bytes _ => decide (l.client.received ++ bytes <+: l.toClient)
  | .connectDone _ => l.client.connections == 0
  | _ => true

/-- What the session writes is put on the stream, as long as it has a socket to write to. -/
def follow (σ : Server) (i : ℕ) (l : Link) : Link :=
  match σ.sessions[i]? with
  | some s => if s.closed then l else { l with toClient := s.started.flatten }
  | none => l

/-- The client with a session as its peer. -/
def net (l : Link) (t : Session) : Net :=
  { client := l.client, server := t, toClient := l.toClient }

/-- The streams are the same. -/
lemma clientMay_net (l : Link) (t : Session) (e : ClientEvent) :
    (l.net t).clientMay e = l.clientMay e := by
  cases e <;> rfl

end Link

/-- A server and its peers: the `i`-th connection it accepts comes from the `i`-th peer, a client of
the program or (`none`) something else. -/
structure World where
  server : Server
  peers : List (Option Link)

/-- What can happen next: an event of a client, or of the server. -/
inductive WorldEvent where
  | client (i : ℕ) (e : ClientEvent)
  | server (e : ServerEvent)

namespace World

/-- A server just started, and peers some of which are new clients. -/
def start (sha1 : Sha1) (ttl : ℕ) (clients : List Bool) : World where
  server := Server.start ttl
  peers := clients.map fun isClient => if isClient then some { client := Client.new sha1 } else none

/-- The link to the `i`-th peer, if it is a client. -/
def link (w : World) (i : ℕ) : Option Link := w.peers[i]?.join

/-- Whether the streams allow an event of the server: a session reads the next bytes of the stream,
if its peer is a client, and `send_packet` is not called from elsewhere. -/
def serverMay (w : World) : ServerEvent → Bool
  | .session i (.read chunk) =>
    match w.link i, w.server.sessions[i]? with
    | some l, some s => decide (s.received ++ chunk <+: l.client.started.flatten)
    | _, _ => true
  | .session _ (.post _) => false
  | _ => true

/-- One step of the whole system; `none` if the event is not possible. -/
def step (sha1 : Sha1) (w : World) : WorldEvent → Option World
  | .client i e =>
    (w.link i).bind fun l =>
      if l.clientMay e then
        (l.client.step sha1 e).map fun c =>
          { w with peers := w.peers.set i (some { l with client := c }) }
      else none
  | .server e =>
    if w.serverMay e then
      (w.server.step sha1 e).map fun σ =>
        { server := σ, peers := w.peers.mapIdx fun i p => p.map (Link.follow σ i) }
    else none

variable {sha1 : Sha1} {w w' : World} {i j : ℕ} {l : Link}

/-! ## The links after a step -/

/-- A step of a client. -/
lemma step_client {e : ClientEvent} (h : w.step sha1 (.client j e) = some w') :
    ∃ l c, w.link j = some l ∧ l.clientMay e = true ∧ l.client.step sha1 e = some c ∧
      w'.server = w.server ∧
      w'.link = Function.update w.link j (some { l with client := c }) := by
  simp only [step, Option.bind_eq_some_iff, Option.ite_none_right_eq_some,
    Option.map_eq_some_iff] at h
  obtain ⟨l, hl, hmay, c, hc, rfl⟩ := h
  refine ⟨l, c, hl, hmay, hc, rfl, funext fun i => ?_⟩
  have hj : j < w.peers.length := by
    by_contra hle
    rw [link, List.getElem?_eq_none (not_lt.1 hle)] at hl
    cases hl
  by_cases hij : i = j
  · subst hij
    rw [Function.update_self, link, List.getElem?_set_self hj, Option.join_some]
  · rw [Function.update_of_ne hij, link, link, List.getElem?_set_ne (Ne.symm hij)]

/-- A step of the server. -/
lemma step_server {e : ServerEvent} (h : w.step sha1 (.server e) = some w') :
    w.serverMay e = true ∧ w.server.step sha1 e = some w'.server ∧
      ∀ i, w'.link i = (w.link i).map (Link.follow w'.server i) := by
  simp only [step, Option.ite_none_right_eq_some, Option.map_eq_some_iff] at h
  obtain ⟨hmay, σ, hσ, rfl⟩ := h
  refine ⟨hmay, hσ, fun i => ?_⟩
  simp only [link, List.getElem?_mapIdx]
  cases w.peers[i]? with
  | none => rfl
  | some p => rfl

end World

/-! ## The shared cache -/

namespace HandlersAuth

/-- A lookup keeps the cache well formed. -/
lemma challengeLookup_wellFormed (s : Session) (p : AuthPacket) {c : AccountCache} (now : ℕ)
    (rand : Rand32) (hc : c.WellFormed) : (challengeLookup s p c now rand).1.WellFormed := by
  unfold challengeLookup
  dsimp only
  split_ifs
  · exact hc
  · rcases hget : c.get (Utf8.toUppercase p.buffer.readStringNtLe.1) now with ⟨_ | e, c'⟩
    · exact (hc.get hget).1
    · dsimp only
      split <;> exact (hc.get hget).1

/-- So does the answer of the database: only a row with fields of 32 bytes is stored. -/
lemma challengeQuery_wellFormed (s : Session) (p : AuthPacket) {c : AccountCache} (now : ℕ)
    (db : Except Exn (Option AccountsRow)) (rand : Rand32) (hc : c.WellFormed) :
    (challengeQuery s p c now db rand).1.WellFormed := by
  rcases db with ex | _ | ⟨_ | salt, _ | verifier⟩
  · exact hc
  · exact hc
  · exact hc
  · exact hc
  · exact hc
  · simp only [challengeQuery]
    split_ifs with hsizes
    · exact hc
    · rw [not_or, not_not, not_not] at hsizes
      split <;> exact hc.update _ hsizes

end HandlersAuth

namespace Server

variable {sha1 : Sha1} {σ σ' : Server} {e : ServerEvent} {i : ℕ}

/-- **The cache of a server** is always well formed. -/
lemma wellFormed_step (hc : σ.cache.WellFormed) (h : σ.step sha1 e = some σ') :
    σ'.cache.WellFormed := by
  cases step_transition h with
  | accepted haccepts =>
    unfold startAccept
    split_ifs <;> exact hc
  | lookup j k rand s p cache s' asks hs hp hres =>
    have hkept := HandlersAuth.challengeLookup_wellFormed { s with
      spawned := s.spawned.eraseIdx k } p σ.now rand hc
    rwa [hres] at hkept
  | query k db rand q s cache s' hq hs hres =>
    have hkept := HandlersAuth.challengeQuery_wellFormed s q.packet σ.now db rand hc
    rwa [hres] at hkept
  | cleanup => exact fun u e hu => hc u e (Option.filter_eq_some_iff.1 hu).1
  | _ => exact hc

/-- A session once accepted stays in the list. -/
lemma sessions_none_of_step (h : σ.step sha1 e = some σ') (hnone : σ'.sessions[i]? = none) :
    σ.sessions[i]? = none := by
  have hlength : σ.sessions.length ≤ σ'.sessions.length := by
    cases step_transition h <;> simp [stop]
  rw [List.getElem?_eq_none_iff] at hnone ⊢
  exact hlength.trans hnone

/-- The server is what the sessions need: their read loops are in order, the names asked for are
valid, and the cache is well formed. -/
structure Keeps (σ : Server) : Prop where
  healthy : Healthy σ
  valid : ValidQueries σ
  cache : σ.cache.WellFormed

/-- It holds at the start. -/
lemma Keeps.start (ttl : ℕ) : Keeps (Server.start ttl) := by
  refine ⟨healthy_start ttl, fun q hq => ?_, fun u entry hu => ?_⟩
  · simp [Server.start, startAccept] at hq
  · simp [Server.start, startAccept] at hu

/-- **One step** keeps it. -/
lemma Keeps.step (hσ : Keeps σ) (h : σ.step sha1 e = some σ') : Keeps σ' :=
  ⟨hσ.healthy.step h, hσ.valid.step h, wellFormed_step hσ.cache h⟩

/-- What is an event of the session is an event of the server for it, or the `close` of `stop`. -/
lemma own_eq_some {f : SessionEvent} (h : e.own i = some f) :
    e = .session i f ∨ e = .stop ∧ f = .close := by
  cases e with
  | session j g =>
    simp only [ServerEvent.own, Option.ite_none_right_eq_some, Option.some.injEq] at h
    obtain ⟨rfl, rfl⟩ := h
    exact .inl rfl
  | stop =>
    cases h
    exact .inr ⟨rfl, rfl⟩
  | _ => cases h

end Server

/-- What a session alone has served, one that agrees with it has served too, if the challenges it
waits for count as still to run. -/
lemma Served.alike {sha1 : Sha1} {ps : List Packet} {s t : Session} {waiting : List AuthPacket}
    (h : Served sha1 ps t) (halike : Session.Alike waiting s t) :
    Served sha1 ps { s with spawned := s.spawned ++ waiting } := by
  have hreplies := halike.field_eq (·.replies) fun _ _ => rfl
  have hmessages := halike.field_eq (·.messages) fun _ _ => rfl
  have hposted := halike.field_eq (·.posted) fun _ _ => rfl
  have hexecuted := halike.field_eq (·.executed) fun _ _ => rfl
  refine ⟨?_, ?_, ?_, ?_⟩
  · exact hreplies ▸ h.answers
  · have hcount := h.challenges
    rwa [hreplies, halike.spawned.length_eq] at hcount
  · exact hmessages ▸ h.texts
  · have hsent := h.sent
    rwa [hreplies, hposted, hexecuted] at hsent

/-! ## A pair is the two-party system -/

/-- The client builds no Auth frame after a proof, and no frame whose length does not fit, as in
`SendsInTurn`. -/
def Client.SendsInTurn (c : Client) (e : ClientEvent) : Prop :=
  (c.buildsAuth e = true → c.proofSent = false) ∧ c.buildsLong e = false

instance (c : Client) (e : ClientEvent) : Decidable (c.SendsInTurn e) :=
  inferInstanceAs (Decidable (_ ∧ _))

namespace Link

/-- What the stream to the client is after a step of the server, in terms of a session alone that
agrees with that of the server. -/
lemma follow_eq {sha1 : Sha1} {σ : Server} {i : ℕ} {l : Link} {t : Session}
    (htwin : Server.Twin sha1 σ i t)
    (hnew : σ.sessions[i]? = none → t.closed = false → l.toClient = []) :
    l.follow σ i = { l with toClient := if t.closed then l.toClient else t.started.flatten } := by
  unfold follow
  cases hs : σ.sessions[i]? with
  | none =>
    dsimp only
    unfold Server.Twin at htwin
    rw [hs] at htwin
    cases hstop : σ.stopped with
    | true => rw [if_pos (htwin.2 hstop)]
    | false =>
      obtain ⟨rfl, -⟩ := htwin.1 hstop
      have hnil : (Session.start sha1).started.flatten = [] := rfl
      rw [if_neg (by simp [Session.start, Session.doRead]), hnil, ← hnew hs rfl]
  | some s =>
    have hclosed := (htwin.alike hs).field_eq (·.closed) fun _ _ => rfl
    have hstarted := (htwin.alike hs).field_eq (·.started) fun _ _ => rfl
    dsimp only
    rw [hclosed, hstarted]
    split_ifs <;> rfl

end Link

namespace World

/-- The client of a link and the `i`-th session of a server have `J`: a session alone agrees with
that of the server, and the two of them with the stream are a state with `J`. While the session is
open, the stream is what it has written. -/
def Paired (sha1 : Sha1) (J : Net → Prop) (σ : Server) (i : ℕ) (l : Link) : Prop :=
  ∃ t, Server.Twin sha1 σ i t ∧ J (l.net t) ∧ (t.closed = false → l.toClient = t.started.flatten)

/-- The steps of the `i`-th peer, if it is a client, meet `ok`. -/
def PeerMeets (ok : Client → ClientEvent → Prop) (i : ℕ) (w : World) : WorldEvent → Prop
  | .client j e => j = i → ∀ l ∈ w.link i, ok l.client e
  | .server _ => True

instance (ok : Client → ClientEvent → Prop) [∀ c e, Decidable (ok c e)] (i : ℕ) (w : World) :
    ∀ e, Decidable (PeerMeets ok i w e)
  | .client j e => inferInstanceAs (Decidable (j = i → ∀ l ∈ w.link i, ok l.client e))
  | .server _ => isTrue trivial

variable {sha1 : Sha1} {J : Net → Prop} {ok : Client → ClientEvent → Prop} {w w' : World}
  {σ : Server} {i : ℕ} {l : Link}

/-- The events that the streams and the sender allow a session are ordinary ones that they allow its
twin. -/
lemma serverMay_own {e : ServerEvent} {f : SessionEvent} {t : Session} (hmay : w.serverMay e = true)
    (hstep : w.server.step sha1 e = some σ) (hown : e.own i = some f)
    (hf : f.isChallenge = false) (hl : w.link i = some l)
    (htwin : Server.Twin sha1 w.server i t) : f.Ordinary ∧ (l.net t).serverMay f = true := by
  rcases Server.own_eq_some hown with rfl | ⟨rfl, rfl⟩
  · cases f with
    | read chunk =>
      refine ⟨trivial, ?_⟩
      cases Server.step_transition hstep with
      | session i f s s' hs hf' hs' =>
        have hreceived := (htwin.alike hs).field_eq (·.received) fun _ _ => rfl
        simp only [serverMay, hl, hs] at hmay
        simpa [Net.serverMay, Net.toServer, Link.net, hreceived] using hmay
    | challenge j env => cases hf
    | post q => cases hmay
    | _ => exact ⟨trivial, rfl⟩
  · exact ⟨trivial, rfl⟩

/-- **A step of the server** is nothing to a pair, or a step of the two-party system.

**Proof sketch.** It is nothing to the twin of the session, or a step. -/
lemma Paired.server {e : ServerEvent} (hJ : ∀ n f hf n', J n →
      Net.step sha1 n (.server f hf) = some n' → J n')
    (h : Paired sha1 J w.server i l) (hl : w.link i = some l) (hkeeps : w.server.Keeps)
    (hmay : w.serverMay e = true) (hstep : w.server.step sha1 e = some σ)
    (hfault : σ.fault = none) :
    Paired sha1 J σ i (l.follow σ i) := by
  obtain ⟨t, htwin, hJt, hstream⟩ := h
  obtain ⟨t', hmove, htwin'⟩ := htwin.step hkeeps.healthy hkeeps.valid hstep hfault
  have hfollow : l.follow σ i =
      { l with toClient := if t'.closed then l.toClient else t'.started.flatten } := by
    refine Link.follow_eq htwin' fun hnone _ => ?_
    unfold Server.Twin at htwin
    rw [Server.sessions_none_of_step hstep hnone] at htwin
    obtain ⟨rfl, -⟩ := htwin.1 (Server.running_of_step hstep).2
    exact hstream rfl
  refine ⟨t', htwin', ?_, fun hopen => by simp [hfollow, hopen]⟩
  rw [hfollow]
  have hnet : ∀ f (hf : f.Ordinary), (l.net t).serverMay f = true → t.step sha1 f = some t' →
      J (Link.net { l with
        toClient := if t'.closed then l.toClient else t'.started.flatten } t') := by
    intro f hf hmay' hf'
    refine hJ (l.net t) f hf _ hJt ?_
    rw [Net.step, if_pos hmay']
    exact Option.map_eq_some_iff.2 ⟨t', hf', rfl⟩
  cases hmove with
  | same hown ht =>
    subst ht
    have hsame : (if t'.closed then l.toClient else t'.started.flatten) = l.toClient := by
      split_ifs with hclosed
      · rfl
      · exact (hstream (by simpa using hclosed)).symm
    rw [hsame]
    exact hJt
  | own f hown hf hf' =>
    obtain ⟨hordinary, hmay'⟩ := serverMay_own hmay hstep hown hf hl htwin
    exact hnet f hordinary hmay' hf'
  | challenge j env hown henv hf' => exact hnet (.challenge j env) (henv hkeeps.cache) rfl hf'

/-- **A step of the client** is one of the two-party system. -/
lemma Paired.client {e : ClientEvent} {c : Client} (hJ : ∀ n e n', J n → ok n.client e →
      Net.step sha1 n (.client e) = some n' → J n')
    (h : Paired sha1 J σ i l) (hok : ok l.client e) (hmay : l.clientMay e = true)
    (hc : l.client.step sha1 e = some c) : Paired sha1 J σ i { l with client := c } := by
  obtain ⟨t, htwin, hJt, hstream⟩ := h
  refine ⟨t, htwin, ?_, hstream⟩
  refine hJ (l.net t) e _ hJt hok ?_
  rw [Net.step, if_pos ((l.clientMay_net t e).trans hmay)]
  exact Option.map_eq_some_iff.2 ⟨c, hc, rfl⟩

/-- At the start a link is that of a new client. -/
lemma link_start {ttl : ℕ} {clients : List Bool} (hl : (start sha1 ttl clients).link i = some l) :
    l = { client := Client.new sha1 } := by
  simp only [link, start, List.getElem?_map, Option.join_eq_some_iff, Option.map_eq_some_iff] at hl
  obtain ⟨isClient, -, hl⟩ := hl
  cases isClient with
  | true => exact (Option.some.inj hl).symm
  | false => cases hl

/-- **The rule for a pair**: what holds of a new client and its session, and is kept by the steps of
the session and by those of the client that meet `ok`, holds of every pair of a run in which the
steps of its client meet `ok`, whatever the other peers do.

**Proof sketch.** Induction on the run: the steps of the other clients are nothing to the pair. -/
lemma paired_of_exec (hstart : J (Net.start sha1))
    (hserver : ∀ n f hf n', J n → Net.step sha1 n (.server f hf) = some n' → J n')
    (hclient : ∀ n e n', J n → ok n.client e → Net.step sha1 n (.client e) = some n' → J n')
    {ttl : ℕ} {clients : List Bool} {es : List WorldEvent}
    (hok : Run.StepsMeet (step sha1) (PeerMeets ok i) (start sha1 ttl clients) es)
    (hrun : Run.exec (step sha1) (start sha1 ttl clients) es = some w)
    (hfault : w.server.fault = none) (hl : w.link i = some l) : Paired sha1 J w.server i l := by
  have hkept : w.server.Keeps ∧ (w.server.fault = none → ∀ l, w.link i = some l →
      Paired sha1 J w.server i l) := by
    refine (Run.always_of_stepsMeet (P := fun w => w.server.Keeps ∧ (w.server.fault = none →
      ∀ l, w.link i = some l → Paired sha1 J w.server i l)) ?_ ⟨.start ttl, ?_⟩ hok).last hrun
    · rintro w e w' ⟨hkeeps, hpaired⟩ hmeets hstep
      cases e with
      | client j e =>
        obtain ⟨l₀, c, hl₀, hmay, hc, hσ, hlink⟩ := step_client hstep
        rw [hσ, hlink]
        refine ⟨hkeeps, fun hfault l hl => ?_⟩
        by_cases hij : j = i
        · subst hij
          obtain rfl : { l₀ with client := c } = l := by
            simpa using hl
          exact (hpaired hfault l₀ hl₀).client hclient (hmeets rfl l₀ hl₀) hmay hc
        · rw [Function.update_of_ne (Ne.symm hij)] at hl
          exact hpaired hfault l hl
      | server e =>
        obtain ⟨hmay, hσ, hlink⟩ := step_server hstep
        refine ⟨hkeeps.step hσ, fun hfault l hl => ?_⟩
        rw [hlink, Option.map_eq_some_iff] at hl
        obtain ⟨l₀, hl₀, rfl⟩ := hl
        have hpair := hpaired (Server.running_of_step hσ).1 l₀ hl₀
        exact hpair.server hserver hl₀ hkeeps hmay hσ hfault
    · intro _ l hl
      rw [link_start hl]
      exact ⟨Session.start sha1, Server.twin_start sha1 ttl i, hstart, fun _ => rfl⟩
  exact hkept.2 hfault l hl

/-! ## What holds of every pair -/

/-- **Each pair is on its own.** In every run of a server and its peers, in any interleaving, in
which no accept has thrown: every client and the session of the server it talks to, with the streams
between them, are in a state that the two reach alone, up to the name stored and the order of the
challenges that have still to run. So what holds of every run of a client and its session holds of
every pair, whatever the other peers send.

**Proof sketch.** To be reached by the two alone is kept by each of their steps. -/
theorem pair_alone (sha1 : Sha1) (ttl : ℕ) (clients : List Bool) (es : List WorldEvent) (w : World)
    (hrun : Run.exec (step sha1) (start sha1 ttl clients) es = some w)
    (hfault : w.server.fault = none) (i : ℕ) (l : Link) (s : Session) (hl : w.link i = some l)
    (hs : w.server.sessions[i]? = some s) :
    ∃ fs n, Run.exec (Net.step sha1) (Net.start sha1) fs = some n ∧ n.client = l.client ∧
      n.toClient = l.toClient ∧ Session.Alike (w.server.waiting i) s n.server := by
  have hmore : ∀ n (e : NetEvent) n',
      (∃ fs, Run.exec (Net.step sha1) (Net.start sha1) fs = some n) →
      Net.step sha1 n e = some n' →
      ∃ fs, Run.exec (Net.step sha1) (Net.start sha1) fs = some n' := by
    rintro n e n' ⟨fs, hfs⟩ hstep
    refine ⟨fs ++ [e], ?_⟩
    rw [Run.exec_append, hfs]
    exact Run.exec_cons_eq_some.2 ⟨n', hstep, rfl⟩
  have hany : Run.StepsMeet (step sha1) (PeerMeets (fun _ _ => True) i) (start sha1 ttl clients)
      es := by
    refine Run.stepsMeet_of_forall (fun w e => ?_) _ _
    cases e <;> simp [PeerMeets]
  obtain ⟨t, htwin, ⟨fs, hfs⟩, -⟩ := paired_of_exec
    (J := fun n => ∃ fs, Run.exec (Net.step sha1) (Net.start sha1) fs = some n) ⟨[], rfl⟩
    (fun n f hf n' hn => hmore n (.server f hf) n' hn)
    (fun n e n' hn _ => hmore n (.client e) n' hn) hany hrun hfault hl
  exact ⟨fs, l.net t, hfs, rfl, rfl, htwin.alike hs⟩

/-- A client and something else log in at the same time; the client is answered first. -/
def crossedEvents : List WorldEvent :=
  [.server (.accepted true), .client 0 .connect, .server (.accepted true),
    .client 0 (.connectDone 0), .server (.session 1 (.read [3, 0, 2, 98, 0])),
    .client 0 (.logonChallenge [65] [66]), .server (.session 0 (.read [3, 0, 2, 65, 0])),
    .server (.lookup 1 0 sampleRand), .server (.lookup 0 0 sampleRand),
    .server (.query 1 (.ok none) sampleRand), .server (.session 0 (.send 0)),
    .client 0 (.readDone 0 [7, 0, 2] sampleRand), .server (.query 0 (.ok none) sampleRand)]

/-- The client and its session do not notice. -/
theorem pair_alone_crossed :
    ∃ w l s fs n, Run.exec (step SRP6.sampleSha1) (start SRP6.sampleSha1 300 [true, false])
        crossedEvents = some w ∧ w.link 0 = some l ∧ w.server.sessions[0]? = some s ∧
      s.executed.length = 1 ∧
      Run.exec (Net.step SRP6.sampleSha1) (Net.start SRP6.sampleSha1) fs = some n ∧
      n.client = l.client ∧ n.toClient = l.toClient ∧
      Session.Alike (w.server.waiting 0) s n.server := by
  have hrun : ((Run.exec (step SRP6.sampleSha1) (start SRP6.sampleSha1 300 [true, false])
      crossedEvents).any fun w => w.server.fault.isNone && (w.link 0).isSome &&
        (w.server.sessions[0]?).any fun s => s.executed.length == 1) = true := by
    decide +kernel
  obtain ⟨w, hw, hres⟩ := (Option.any_eq_true _ _).1 hrun
  obtain ⟨hres, hsession⟩ := Bool.and_eq_true_iff.1 hres
  obtain ⟨hfault, hlink⟩ := Bool.and_eq_true_iff.1 hres
  obtain ⟨l, hl⟩ := Option.isSome_iff_exists.1 hlink
  obtain ⟨s, hs, hlen⟩ := (Option.any_eq_true _ _).1 hsession
  obtain ⟨fs, n, hpair⟩ := pair_alone SRP6.sampleSha1 300 [true, false] crossedEvents w hw
    (Option.isNone_iff_eq_none.1 hfault) 0 l s hl hs
  exact ⟨w, l, s, fs, n, hw, hl, hs, by simpa using hlen, hpair⟩

/-- **Every client is served.** In every run of a server and its peers, in any interleaving, in
which no accept has thrown and the `i`-th peer is a client whose steps send in turn: as long as its
session is open, it has served exactly the first `k` packets that the client has passed to
`send_packet`, for some `k`, each once and in their order, the challenges that wait for the database
counted as still to run; and what waits in its receive buffer is a beginning of the frames of the
others. The other peers may send anything, and the account cache is shared.

**Proof sketch.** The framing invariant and the services done are kept by the steps of the pair. -/
theorem each_client_served (sha1 : Sha1) (ttl : ℕ) (clients : List Bool) (es : List WorldEvent)
    (w : World) (i : ℕ)
    (hok : Run.StepsMeet (step sha1) (PeerMeets Client.SendsInTurn i) (start sha1 ttl clients) es)
    (hrun : Run.exec (step sha1) (start sha1 ttl clients) es = some w)
    (hfault : w.server.fault = none) (l : Link) (s : Session) (hl : w.link i = some l)
    (hs : w.server.sessions[i]? = some s) (hopen : s.closed = false) :
    ∃ k, Served sha1 (l.client.sent.take k)
        { s with spawned := s.spawned ++ w.server.waiting i } ∧
      s.dispatched.map (·.packet) = l.client.sent.take k ∧
      s.readBuffer.active <+: streamOf (l.client.sent.drop k) := by
  have hstep : ∀ n e n', (FramingInvariant n ∧ Serves sha1 n.server) → SendsInTurn n e →
      Net.step sha1 n e = some n' → FramingInvariant n' ∧ Serves sha1 n'.server :=
    fun n e n' hn hok hstep => ⟨hn.1.step hok hstep, Net.step_serves hn.2 hstep⟩
  obtain ⟨t, htwin, ⟨hframing, hserves⟩, -⟩ := paired_of_exec
    (J := fun n => FramingInvariant n ∧ Serves sha1 n.server)
    ⟨FramingInvariant.start sha1, Serves.start sha1⟩
    (fun n f hf n' hn => hstep n (.server f hf) n' hn trivial)
    (fun n e n' hn hturn => hstep n (.client e) n' hn hturn) hok hrun hfault hl
  have halike := htwin.alike hs
  have hclosed := halike.field_eq (·.closed) fun _ _ => rfl
  have hdispatched := halike.field_eq (·.dispatched) fun _ _ => rfl
  have hbuffer := halike.field_eq (·.readBuffer) fun _ _ => rfl
  obtain ⟨k, hserved, hdisp, hactive⟩ := Net.exists_served hframing hserves (hclosed.trans hopen)
  refine ⟨k, hserved.alike halike, ?_, ?_⟩
  · rw [← hdispatched]
    exact hdisp
  · rw [← hbuffer]
    exact hactive

/-- The client's request is answered while that of the other peer is still being looked up. -/
theorem each_client_served_crossed :
    ∃ w l s k, Run.exec (step SRP6.sampleSha1) (start SRP6.sampleSha1 300 [true, false])
        crossedEvents = some w ∧ w.link 0 = some l ∧ w.server.sessions[0]? = some s ∧
      s.executed.length = 1 ∧
      Served SRP6.sampleSha1 (l.client.sent.take k)
        { s with spawned := s.spawned ++ w.server.waiting 0 } ∧
      s.dispatched.map (·.packet) = l.client.sent.take k ∧
      s.readBuffer.active <+: streamOf (l.client.sent.drop k) := by
  have hmeet : Run.StepsMeet (step SRP6.sampleSha1) (PeerMeets Client.SendsInTurn 0)
      (start SRP6.sampleSha1 300 [true, false]) crossedEvents := by
    decide +kernel
  have hrun : ((Run.exec (step SRP6.sampleSha1) (start SRP6.sampleSha1 300 [true, false])
      crossedEvents).any fun w => w.server.fault.isNone && (w.link 0).isSome &&
        (w.server.sessions[0]?).any fun s => s.executed.length == 1 && !s.closed) = true := by
    decide +kernel
  obtain ⟨w, hw, hres⟩ := (Option.any_eq_true _ _).1 hrun
  obtain ⟨hres, hsession⟩ := Bool.and_eq_true_iff.1 hres
  obtain ⟨hfault, hlink⟩ := Bool.and_eq_true_iff.1 hres
  obtain ⟨l, hl⟩ := Option.isSome_iff_exists.1 hlink
  obtain ⟨s, hs, hstate⟩ := (Option.any_eq_true _ _).1 hsession
  obtain ⟨hlen, hopen⟩ := Bool.and_eq_true_iff.1 hstate
  obtain ⟨k, hserved⟩ := each_client_served SRP6.sampleSha1 300 [true, false] crossedEvents w 0
    hmeet hw (Option.isNone_iff_eq_none.1 hfault) l s hl hs (by simpa using hopen)
  exact ⟨w, l, s, k, hw, hl, hs, by simpa using hlen, hserved⟩

end World

end Purity
