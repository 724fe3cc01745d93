import Purity.Base.Simulation
import Purity.Client.Unread
import Purity.Protocol.Net

set_option relaxedAutoImplicit false
set_option autoImplicit false

/-!
# The password of a login

`set_credentials` stores the name and the password given to `handle_logon_challenge`. The name goes
into the challenge; nothing reads the password: `compute_M1` hashes `A`, `B` and the salt, and
`verify_client_proof` accepts whatever it is given. So neither the bytes on the two streams nor what
either side does depends on the password, and a login with a wrong one goes as with the right one.

## Main definitions

* `Purity.Net.hidePassword` — a client and its session without the password stored.
* `Purity.NetEvent.hidePassword` — an event without the password given.

## Main results

* `Purity.Net.step_hidePassword` — a step does not look at the password.
* `Purity.Net.password_unused` — runs that differ in passwords only are the same, but for the
  password stored.
-/

namespace Purity

/-- `password_` cleared. -/
def SRP6.hidePassword (s : SRP6) : SRP6 := { s with password := [] }

namespace Client

/-- A client without the password stored. -/
def hidePassword (c : Client) : Client := { c with srp := c.srp.hidePassword }

/-- What hides the password and leaves the history alone. -/
def withoutPassword : Unread := { password := fun _ => [] }

end Client

/-- An event without the password given. -/
def ClientEvent.hidePassword : ClientEvent → ClientEvent
  | .logonChallenge username _ => .logonChallenge username []
  | e => e

/-- **A step of a client** does not look at the password: without it the client does the same. -/
lemma Client.step_hidePassword (sha1 : Sha1) (c : Client) (e : ClientEvent) :
    c.hidePassword.step sha1 e.hidePassword = (c.step sha1 e).map Client.hidePassword := by
  have hevent : e.hidePassword = e.recast Client.withoutPassword := by cases e <;> rfl
  rw [hevent]
  exact Client.step_recast Client.withoutPassword sha1 c e

/-- An event of the two without the password given. -/
def NetEvent.hidePassword : NetEvent → NetEvent
  | .client e => .client e.hidePassword
  | .server e h => .server e h

namespace Net

/-- A client and its session without the password stored. -/
def hidePassword (n : Net) : Net := { n with client := n.client.hidePassword }

/-- **A step of the two** does not look at the password. -/
lemma step_hidePassword (sha1 : Sha1) (n : Net) (e : NetEvent) :
    n.hidePassword.step sha1 e.hidePassword = (n.step sha1 e).map hidePassword := by
  cases e with
  | client e =>
    have hmay : n.hidePassword.clientMay e.hidePassword = n.clientMay e := by cases e <;> rfl
    simp only [step, NetEvent.hidePassword, hmay]
    split_ifs
    · have hstep := Client.step_hidePassword sha1 n.client e
      have hclient : n.hidePassword.client = n.client.hidePassword := rfl
      rw [hclient, hstep]
      cases n.client.step sha1 e <;> rfl
    · rfl
  | server e he =>
    have hmay : n.hidePassword.serverMay e = n.serverMay e := by cases e <;> rfl
    have hserver : n.hidePassword.server = n.server := rfl
    simp only [step, NetEvent.hidePassword, hmay, hserver]
    split_ifs
    · cases n.server.step sha1 e <;> rfl
    · rfl

/-- **The password is not used.** Two runs of a client and its session whose events differ in
nothing but the passwords given to `handle_logon_challenge` are both possible or both not, and lead
to states that differ in nothing but the password stored: the client has sent and written the same
bytes, the session has received, dispatched and answered the same, and both are in the same mode. In
particular the one is logged in exactly if the other is.

**Proof sketch.** Leaving out the password is a function of the states that every step respects. -/
theorem password_unused (sha1 : Sha1) (es es' : List NetEvent)
    (hsame : es.map NetEvent.hidePassword = es'.map NetEvent.hidePassword) :
    (Run.exec (step sha1) (start sha1) es).map hidePassword =
        (Run.exec (step sha1) (start sha1) es').map hidePassword ∧
      (∀ n n', Run.exec (step sha1) (start sha1) es = some n →
        Run.exec (step sha1) (start sha1) es' = some n' →
          n'.server = n.server ∧ n'.toClient = n.toClient ∧ n'.toServer = n.toServer ∧
            n'.client.sent = n.client.sent ∧ n'.client.sessionMode = n.client.sessionMode) := by
  have hrun : ∀ fs, (Run.exec (step sha1) (start sha1) fs).map hidePassword =
      Run.exec (step sha1) (start sha1) (fs.map NetEvent.hidePassword) := fun fs =>
    (Run.exec_map (step_hidePassword sha1) (start sha1) fs).symm
  have heq := (hrun es).trans ((congrArg _ hsame).trans (hrun es').symm)
  refine ⟨heq, fun n n' hn hn' => ?_⟩
  rw [hn, hn', Option.map_some, Option.map_some, Option.some.injEq] at heq
  have hserver := congrArg Net.server heq
  have htoClient := congrArg Net.toClient heq
  have htoServer := congrArg Net.toServer heq
  have hsent := congrArg (fun n : Net => n.client.sent) heq
  have hmode := congrArg (fun n : Net => n.client.sessionMode) heq
  exact ⟨hserver.symm, htoClient.symm, htoServer.symm, hsent.symm, hmode.symm⟩

/-- A challenge with the password `p`, given before the connection is there. -/
def passwordEvents (p : Bytes) : List NetEvent :=
  [.client .connect, .client (.logonChallenge [65] p), .client (.connectDone 0)]

/-- Two passwords, and the same bytes. -/
theorem password_unused_two :
    (Run.exec (step SRP6.sampleSha1) (start SRP6.sampleSha1)
        (passwordEvents [1])).map hidePassword =
      (Run.exec (step SRP6.sampleSha1) (start SRP6.sampleSha1)
        (passwordEvents [2, 3])).map hidePassword :=
  (password_unused SRP6.sampleSha1 (passwordEvents [1]) (passwordEvents [2, 3]) rfl).1

end Net

end Purity
