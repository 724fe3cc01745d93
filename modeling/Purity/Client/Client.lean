import Purity.Server.Reader

set_option relaxedAutoImplicit false
set_option autoImplicit false

/-!
# The client

`Client` (`Client/Client.cpp`) has one connection at a time: it sends pings on a timer, messages and
logins when the application asks for them, and answers the server's challenge with a proof. Packets
go through `outgoing_queue`; a loop reads one frame after another, first the header of the current
mode and then the payload. A failure closes the socket and connects again after a while.

## Main definitions

* `Purity.Client` — the members of the class, the operations it has outstanding, and a history of
  what happened, which no function reads.
* `Purity.Client.sendPacketImpl`, `flushQueue`, `startReceiveLoop`, `handlePacketAuth`,
  `scheduleReconnect` and the other methods.
* `Purity.ClientEvent`, `Purity.Client.step` — the completions, timers and calls, each atomic.
* `Purity.ClientTransition` — the inversion of `step`: one constructor for each event.

## Main results

* `Purity.Client.step_transition` — every step is one of the transitions.

## Implementation notes

Closing the socket or cancelling a timer marks the outstanding operations as aborted; their handlers
still run, with an error. The host name resolves, and closing a socket does not throw.
-/

namespace Purity

/-- An outstanding operation, and whether it has been aborted. -/
structure Pending (α : Type) where
  op : α
  aborted : Bool := false
  deriving DecidableEq, Repr

/-- All outstanding operations of a kind are aborted. -/
def abortAll {α : Type} (ops : List (Pending α)) : List (Pending α) :=
  ops.map fun p => { p with aborted := true }

/-- A read of the receive loop: a header in a mode, or the payload after a header. -/
inductive ReadOp where
  | header (mode : SessionMode)
  | payload (mode : SessionMode) (header : Bytes) (length : ℕ)
  deriving DecidableEq, Repr

/-- The number of bytes a read waits for. -/
def ReadOp.size : ReadOp → ℕ
  | header mode => mode.headerSize
  | payload _ _ length => length

/-- The sender's part: `outgoing_queue`, and (history) the packets passed to `send_packet`, the
messages given to `async_write` and those popped from the queue. -/
structure ClientSender where
  outgoingQueue : List Bytes := []
  sent : List Packet := []
  started : List Bytes := []
  popped : List Bytes := []
  deriving DecidableEq, Repr

/-- The receiver's part: the `async_read`s outstanding and (history) the bytes of those that
completed. -/
structure ClientReceiver where
  reads : List (Pending ReadOp) := []
  received : Bytes := []
  deriving DecidableEq, Repr

/-- A client: its two parts, `connected`, whether the socket is open, `session_mode_`, `srp_`, the
writes, connects and timer waits outstanding, the actions posted by `disconnect`, the fault if there
was one, and (history) the number of connections established. -/
structure Client extends ClientSender, ClientReceiver where
  connected : Bool := false
  socketOpen : Bool := false
  sessionMode : SessionMode := .authSession
  srp : SRP6
  writes : List (Pending Bytes) := []
  connects : List (Pending Unit) := []
  reconnectWaits : List (Pending Unit) := []
  heartbeatWaits : List (Pending Unit) := []
  disconnects : ℕ := 0
  fault : Option Fault := none
  connections : ℕ := 0
  deriving DecidableEq, Repr

namespace Client

/-- A client just constructed. -/
def new (sha1 : Sha1) : Client := { srp := SRP6.new sha1 }

/-! ## Connecting -/

/-- `socket.close()` aborts what is outstanding on the socket. -/
def closeSocket (c : Client) : Client :=
  { c with
    socketOpen := false
    connects := abortAll c.connects
    reads := abortAll c.reads
    writes := abortAll c.writes }

/-- `connect`: `async_connect` closes the socket before it opens it for an endpoint. -/
def connect (c : Client) : Client :=
  let c := c.closeSocket
  { c with socketOpen := true, connects := c.connects ++ [{ op := () }] }

/-- `schedule_reconnect` -/
def scheduleReconnect (c : Client) : Client :=
  let c := closeSocket { c with connected := false }
  { c with reconnectWaits := abortAll c.reconnectWaits ++ [{ op := () }] }

/-- `disconnect`: the action is posted. -/
def disconnect (c : Client) : Client := { c with disconnects := c.disconnects + 1 }

/-- The action posted by `disconnect`. -/
def runDisconnect (c : Client) : Client :=
  let c := { c with
    disconnects := c.disconnects - 1
    heartbeatWaits := abortAll c.heartbeatWaits
    reconnectWaits := abortAll c.reconnectWaits }
  let c := if c.socketOpen then c.closeSocket else c
  { c with connected := false }

/-- `start_heartbeat` -/
def startHeartbeat (c : Client) : Client :=
  { c with heartbeatWaits := abortAll c.heartbeatWaits ++ [{ op := () }] }

/-! ## Sending -/

/-- `flush_queue`: start an `async_write` of the front message. -/
def flushQueue (c : Client) : Client :=
  if !c.connected then c
  else
    match c.outgoingQueue with
    | [] => c
    | front :: _ => { c with
        writes := c.writes ++ [{ op := front }]
        started := c.started ++ [front] }

/-- `send_packet_impl` -/
def sendPacketImpl (c : Client) (fullPacket : Bytes) : Client :=
  let c := { c with outgoingQueue := c.outgoingQueue ++ [fullPacket] }
  if !c.connected then c
  else if c.outgoingQueue.length = 1 then c.flushQueue else c

/-- `send_packet`, for both packet classes. -/
def sendPacket (c : Client) (packet : Packet) : Client :=
  sendPacketImpl { c with sent := c.sent ++ [packet] } packet.buildPacket

/-- A `CMSG_PING` with the number `pingId`, in the format of the mode. -/
def pingPacket (mode : SessionMode) (pingId : UInt32) : Packet :=
  match mode with
  | .authSession => .auth
      { opcode := AuthOpcodes.cmsgPing, buffer := ({} : ByteBuffer).writeUint32Le pingId }
  | .workSession => .work
      { opcode := WorkOpcodes.cmsgPing, buffer := ({} : ByteBuffer).writeUint32Le pingId }

/-- `send_ping`, with the number drawn. -/
def sendPing (c : Client) (pingId : UInt32) : Client :=
  c.sendPacket (pingPacket c.sessionMode pingId)

/-- The `CMSG_MESSAGE` with a text. -/
def messagePacket (msg : Bytes) : Packet :=
  .work { opcode := WorkOpcodes.cmsgMessage, buffer := ({} : ByteBuffer).writeStringNtLe msg }

/-- `send_message` -/
def sendMessage (c : Client) (msg : Bytes) : Client :=
  match c.sessionMode with
  | .authSession => c
  | .workSession => c.sendPacket (messagePacket msg)

/-- The `CMSG_AUTH_LOGON_CHALLENGE` with a name. -/
def challengePacket (username : Bytes) : Packet :=
  .auth { opcode := AuthOpcodes.cmsgAuthLogonChallenge
          buffer := ({} : ByteBuffer).writeStringNtLe username }

/-- `handle_logon_challenge` -/
def handleLogonChallenge (c : Client) (username password : Bytes) : Client :=
  let c := { c with srp := c.srp.setCredentials username password }
  c.sendPacket (challengePacket username)

/-! ## Receiving -/

/-- `start_receive_loop` -/
def startReceiveLoop (c : Client) : Client :=
  { c with reads := c.reads ++ [{ op := .header c.sessionMode }] }

/-- The fields of a `SMSG_AUTH_LOGON_CHALLENGE`: `B`, `g`, `N` and the salt. -/
def readChallenge (p : AuthPacket) : Except Exn (Bytes × UInt8 × Bytes × Bytes) := do
  let (B, buffer) ← p.buffer.readBytes 32
  let (g, buffer) ← buffer.readUint8
  let (N, buffer) ← buffer.readBytes 32
  let (salt, _) ← buffer.readBytes 32
  return (B, g, N, salt)

/-- The `CMSG_AUTH_LOGON_PROOF` with `A` and `M1`. -/
def proofPacket (A M1 : Bytes) : Packet :=
  .auth { opcode := AuthOpcodes.cmsgAuthLogonProof
          buffer := (({} : ByteBuffer).writeBytes A).writeBytes M1 }

/-- The case `SMSG_AUTH_LOGON_CHALLENGE` of `handle_packet`. -/
def handleChallenge (sha1 : Sha1) (c : Client) (p : AuthPacket) (rand : Rand32) : Client :=
  match readChallenge p with
  | .error _ => c.disconnect
  | .ok (B, g, N, salt) =>
    let srp := ((c.srp.loadConstants sha1 N g).loadSalt salt).generateClientEphemeral rand
    let c := { c with srp := srp }
    match srp.getABytes with
    | .error _ => c.disconnect
    | .ok A =>
      match srp.computeM1 sha1 B with
      | .error _ => c.disconnect
      | .ok (M1, srp) => sendPacket { c with srp := srp } (proofPacket A M1)

/-- `handle_packet(AuthPacket &)` -/
def handlePacketAuth (sha1 : Sha1) (c : Client) (p : AuthPacket) (rand : Rand32) :
    Except Exn Client := do
  if p.opcode = AuthOpcodes.smsgPong then return c
  else if p.opcode = AuthOpcodes.smsgAuthLogonChallenge then return handleChallenge sha1 c p rand
  else if p.opcode = AuthOpcodes.smsgAuthLogonProof then
    let (M2, _) ← p.buffer.readBytes 20
    let ok ← c.srp.verifyServerProof sha1 c.srp.lastM1 M2
    if !ok then return c.disconnect
    else return { c with sessionMode := .workSession }
  else if p.opcode = AuthOpcodes.smsgAuthResponse then
    let (_, buffer) ← p.buffer.readUint8
    let _ ← buffer.readUint8
    return c.disconnect
  else return c

/-- `handle_packet(WorkPacket &)`: everything is only logged. -/
def handlePacketWork (c : Client) (_ : WorkPacket) : Client := c

/-- Parsing and handling a raw packet of a mode, in the `try` of `read_payload` and
`process_empty`. -/
def handleRaw (sha1 : Sha1) (c : Client) (mode : SessionMode) (raw : Bytes) (rand : Rand32) :
    Client :=
  match mode with
  | .authSession =>
    match AuthPacket.deserialize { opcode := AuthOpcodes.emptyStage } raw with
    | (.error _, _) => c
    | (.ok (), p) =>
      match handlePacketAuth sha1 c p rand with
      | .error _ => c
      | .ok c => c
  | .workSession =>
    match WorkPacket.deserialize { opcode := WorkOpcodes.emptyStage } raw with
    | (.error _, _) => c
    | (.ok (), p) => handlePacketWork c p

/-- The completion handlers of `start_receive_loop` and `read_payload` on success. -/
def readHandler (sha1 : Sha1) (c : Client) (op : ReadOp) (bytes : Bytes) (rand : Rand32) : Client :=
  match op with
  | .header mode =>
    let length : UInt16 := (bytes.getD (mode.headerSize - 2) 0).toUInt16 <<< 8 |||
      (bytes.getD (mode.headerSize - 1) 0).toUInt16
    if 2048 < length.toNat then c.scheduleReconnect
    else if length = 0 then (c.handleRaw sha1 mode bytes rand).startReceiveLoop
    else { c with reads := c.reads ++ [{ op := .payload mode bytes length.toNat }] }
  | .payload mode header _ => (c.handleRaw sha1 mode (header ++ bytes) rand).startReceiveLoop

/-- The completion handler of an `async_write` on success: `pop`, whose effect on an empty queue is
undefined, then `flush_queue`. -/
def writeHandler (c : Client) : Client :=
  match c.outgoingQueue with
  | [] => { c with fault := some .popEmpty }
  | front :: rest => flushQueue { c with outgoingQueue := rest, popped := c.popped ++ [front] }

/-- The completion handler of `async_connect` on success. -/
def connectHandler (c : Client) : Client :=
  let c := { c with connected := true, connections := c.connections + 1 }
  c.startReceiveLoop.flushQueue.startHeartbeat

/-- The handler of the heartbeat timer. -/
def heartbeatHandler (c : Client) (aborted : Bool) (pingId : UInt32) : Client :=
  if !aborted && c.connected then (c.sendPing pingId).startHeartbeat else c

end Client

/-- What can happen to a client next. -/
inductive ClientEvent where
  /-- the application calls `connect` -/
  | connect
  /-- the application calls `disconnect` -/
  | disconnect
  /-- the application calls `send_message` -/
  | sendMessage (msg : Bytes)
  /-- the application calls `handle_logon_challenge` -/
  | logonChallenge (username password : Bytes)
  /-- an action posted by `disconnect` runs -/
  | runDisconnect
  /-- the `i`-th `async_connect` completes -/
  | connectDone (i : ℕ)
  /-- the `i`-th `async_connect` completes with an error -/
  | connectError (i : ℕ)
  /-- the `i`-th wait of `reconnect_timer` ends, either way -/
  | reconnect (i : ℕ)
  /-- the `i`-th wait of `heartbeat_timer` ends; a ping would have the number `pingId` -/
  | heartbeat (i : ℕ) (pingId : UInt32)
  /-- the `i`-th `async_write` completes -/
  | writeDone (i : ℕ)
  /-- the `i`-th `async_write` completes with an error -/
  | writeError (i : ℕ)
  /-- the `i`-th `async_read` completes with these bytes; a proof would use the key `rand` -/
  | readDone (i : ℕ) (bytes : Bytes) (rand : Rand32)
  /-- the `i`-th `async_read` completes with an error -/
  | readError (i : ℕ)

/-- One step of a client; `none` if the event is not possible. -/
def Client.step (sha1 : Sha1) (c : Client) (e : ClientEvent) : Option Client :=
  if c.fault.isSome then none
  else
    match e with
    | .connect => some c.connect
    | .disconnect => some c.disconnect
    | .sendMessage msg => some (c.sendMessage msg)
    | .logonChallenge username password => some (c.handleLogonChallenge username password)
    | .runDisconnect => if 0 < c.disconnects then some c.runDisconnect else none
    | .connectDone i =>
      if c.connects[i]? = some { op := () } then
        some (connectHandler { c with connects := c.connects.eraseIdx i }) else none
    | .connectError i =>
      c.connects[i]?.map fun _ => scheduleReconnect { c with connects := c.connects.eraseIdx i }
    | .reconnect i =>
      c.reconnectWaits[i]?.map fun _ =>
        Client.connect { c with reconnectWaits := c.reconnectWaits.eraseIdx i }
    | .heartbeat i pingId =>
      c.heartbeatWaits[i]?.map fun p =>
        heartbeatHandler { c with heartbeatWaits := c.heartbeatWaits.eraseIdx i } p.aborted pingId
    | .writeDone i =>
      c.writes[i]?.bind fun p =>
        if p.aborted then none else some (writeHandler { c with writes := c.writes.eraseIdx i })
    | .writeError i =>
      c.writes[i]?.map fun _ => scheduleReconnect { c with writes := c.writes.eraseIdx i }
    | .readDone i bytes rand =>
      c.reads[i]?.bind fun p =>
        if p.aborted ∨ bytes.length ≠ p.op.size then none
        else some (readHandler sha1 { c with
          reads := c.reads.eraseIdx i
          received := c.received ++ bytes } p.op bytes rand)
    | .readError i =>
      c.reads[i]?.map fun _ => scheduleReconnect { c with reads := c.reads.eraseIdx i }

/-! ## Transitions -/

/-- The ways a step of a client can end. -/
inductive ClientTransition (sha1 : Sha1) (c : Client) : ClientEvent → Client → Prop where
  | connect : ClientTransition sha1 c .connect c.connect
  | disconnect : ClientTransition sha1 c .disconnect c.disconnect
  | sendMessage (msg : Bytes) : ClientTransition sha1 c (.sendMessage msg) (c.sendMessage msg)
  | logonChallenge (username password : Bytes) :
    ClientTransition sha1 c (.logonChallenge username password)
      (c.handleLogonChallenge username password)
  | runDisconnect (hposted : 0 < c.disconnects) :
    ClientTransition sha1 c .runDisconnect c.runDisconnect
  | connectDone (i : ℕ) (hconnect : c.connects[i]? = some { op := () }) :
    ClientTransition sha1 c (.connectDone i)
      (Client.connectHandler { c with connects := c.connects.eraseIdx i })
  | connectError (i : ℕ) (w : Pending Unit) (hconnect : c.connects[i]? = some w) :
    ClientTransition sha1 c (.connectError i)
      (Client.scheduleReconnect { c with connects := c.connects.eraseIdx i })
  | reconnect (i : ℕ) (w : Pending Unit) (hwait : c.reconnectWaits[i]? = some w) :
    ClientTransition sha1 c (.reconnect i)
      (Client.connect { c with reconnectWaits := c.reconnectWaits.eraseIdx i })
  | heartbeat (i : ℕ) (pingId : UInt32) (w : Pending Unit) (hwait : c.heartbeatWaits[i]? = some w) :
    ClientTransition sha1 c (.heartbeat i pingId) (Client.heartbeatHandler
      { c with heartbeatWaits := c.heartbeatWaits.eraseIdx i } w.aborted pingId)
  | writeDone (i : ℕ) (w : Pending Bytes) (hwrite : c.writes[i]? = some w)
    (hlive : w.aborted = false) :
    ClientTransition sha1 c (.writeDone i)
      (Client.writeHandler { c with writes := c.writes.eraseIdx i })
  | writeError (i : ℕ) (w : Pending Bytes) (hwrite : c.writes[i]? = some w) :
    ClientTransition sha1 c (.writeError i)
      (Client.scheduleReconnect { c with writes := c.writes.eraseIdx i })
  | readDone (i : ℕ) (bytes : Bytes) (rand : Rand32) (p : Pending ReadOp)
    (hread : c.reads[i]? = some p) (hlive : p.aborted = false)
    (hsize : bytes.length = p.op.size) :
    ClientTransition sha1 c (.readDone i bytes rand) (Client.readHandler sha1 { c with
      reads := c.reads.eraseIdx i
      received := c.received ++ bytes } p.op bytes rand)
  | readError (i : ℕ) (p : Pending ReadOp) (hread : c.reads[i]? = some p) :
    ClientTransition sha1 c (.readError i)
      (Client.scheduleReconnect { c with reads := c.reads.eraseIdx i })

/-- **Inversion**: every step of a client is one of the transitions. -/
lemma Client.step_transition {sha1 : Sha1} {c c' : Client} {e : ClientEvent}
    (h : c.step sha1 e = some c') : ClientTransition sha1 c e c' := by
  have hf : ¬ c.fault.isSome = true := by
    intro hf
    simp [Client.step, hf] at h
  simp only [Client.step, if_neg hf] at h
  cases e with
  | connect => cases h; exact .connect
  | disconnect => cases h; exact .disconnect
  | sendMessage msg => cases h; exact .sendMessage msg
  | logonChallenge username password => cases h; exact .logonChallenge username password
  | runDisconnect =>
    simp only [Option.ite_none_right_eq_some, Option.some.injEq] at h
    obtain ⟨hposted, rfl⟩ := h
    exact .runDisconnect hposted
  | connectDone i =>
    simp only [Option.ite_none_right_eq_some, Option.some.injEq] at h
    obtain ⟨hconnect, rfl⟩ := h
    exact .connectDone i hconnect
  | connectError i =>
    simp only [Option.map_eq_some_iff] at h
    obtain ⟨w, hconnect, rfl⟩ := h
    exact .connectError i w hconnect
  | reconnect i =>
    simp only [Option.map_eq_some_iff] at h
    obtain ⟨w, hwait, rfl⟩ := h
    exact .reconnect i w hwait
  | heartbeat i pingId =>
    simp only [Option.map_eq_some_iff] at h
    obtain ⟨w, hwait, rfl⟩ := h
    exact .heartbeat i pingId w hwait
  | writeDone i =>
    simp only [Option.bind_eq_some_iff, Option.ite_none_left_eq_some, Option.some.injEq] at h
    obtain ⟨w, hwrite, hlive, rfl⟩ := h
    exact .writeDone i w hwrite (by simpa using hlive)
  | writeError i =>
    simp only [Option.map_eq_some_iff] at h
    obtain ⟨w, hwrite, rfl⟩ := h
    exact .writeError i w hwrite
  | readDone i bytes rand =>
    simp only [Option.bind_eq_some_iff, Option.ite_none_left_eq_some, Option.some.injEq, not_or,
      ne_eq, not_not] at h
    obtain ⟨p, hread, ⟨hlive, hsize⟩, rfl⟩ := h
    exact .readDone i bytes rand p hread (by simpa using hlive) hsize
  | readError i =>
    simp only [Option.map_eq_some_iff] at h
    obtain ⟨p, hread, rfl⟩ := h
    exact .readError i p hread

end Purity
