import Purity.Packet.MessageBuffer
import Purity.Packet.Packet
import Purity.Auth.Srp6

set_option relaxedAutoImplicit false
set_option autoImplicit false

/-!
# The state of a server session

A `ClientSession` (`server/ClientSession/ClientSession.cpp`) owns one connection: a read loop that
fills `read_buffer_`, the account being authenticated, and a queue of frames to write. This file
has its state and the methods the handlers and completion handlers share.

## Main definitions

* `Purity.Session` — the members of the class and of its `AccountInfo`, together with what the
  socket and the executor hold for it (operations outstanding, tasks posted) and a history of what
  happened, which no function reads.
* `Purity.Session.close`, `sendPacket`, `doSendPacket`, `doWrite`, `doRead` — the methods.
* `Purity.Session.start` — a session that has been accepted and started.

## Design

The state is grouped by the path that touches it: `AuthState` belongs to the handlers, `ReadState`
to the reader and `WriteState` to the writer, so that "the reader leaves the write queue alone" is
an equation between two records. An operation that the source could execute with undefined effect,
or an exception that leaves a completion handler, is recorded in `fault`.
-/

namespace Purity

/-- `SessionMode` -/
inductive SessionMode where
  | authSession
  | workSession
  deriving DecidableEq, Repr

/-- What a challenge that found its account loaded into the `SRP6` object. -/
structure Load where
  username : Bytes
  salt : Bytes
  verifier : Bytes
  rand : Rand32
  deriving DecidableEq, Repr

/-- A packet handed to a `dispatch`: the mode it was parsed in, its bytes, and the packet. -/
structure Dispatched where
  mode : SessionMode
  raw : Bytes
  packet : Packet
  deriving DecidableEq, Repr

/-- What must not happen: `pop_front` on an empty deque, or an uncaught exception. -/
inductive Fault where
  | popEmpty
  | uncaught (e : Exn)
  deriving DecidableEq, Repr

/-- The handlers' part: `session_mode_`, the `SRP6` object and `isAuth` of the account, the
challenge coroutines spawned and not yet run, and (history) the accounts loaded. -/
structure AuthState where
  sessionMode : SessionMode := .authSession
  srp : SRP6
  isAuth : Bool := false
  spawned : List AuthPacket := []
  loads : List Load := []
  deriving DecidableEq, Repr

/-- The reader's part: `read_buffer_`, the number of `async_read_some` outstanding, and (history)
the bytes received, the packets dispatched and the texts of the chat messages. -/
structure ReadState where
  readBuffer : MessageBuffer := .new 4096
  reads : ℕ := 0
  received : Bytes := []
  dispatched : List Dispatched := []
  messages : List Bytes := []
  deriving DecidableEq, Repr

/-- The writer's part: `write_queue_`, `writing_`, the messages of the `async_write`s outstanding,
and (history) the packets given to `do_send_packet`, the messages given to `async_write` and those
whose write has completed. -/
structure WriteState where
  writeQueue : List Bytes := []
  writing : Bool := false
  inFlight : List Bytes := []
  executed : List Packet := []
  started : List Bytes := []
  completed : List Bytes := []
  deriving DecidableEq, Repr

/-- A session: its three parts, `closed_`, the `do_send_packet` tasks posted and not yet run,
whether it is in the server's `sessions_`, the fault if there was one, and (history) the packets
passed to `send_packet` while it was open. -/
structure Session extends AuthState, ReadState, WriteState where
  closed : Bool := false
  posted : List Packet := []
  registered : Bool := true
  fault : Option Fault := none
  replies : List Packet := []
  deriving DecidableEq, Repr

namespace Session

/-- `close`: only the first call does anything. It clears the receive buffer and the write queue
and leaves `writing_` and the operations outstanding alone. -/
def close (s : Session) : Session :=
  if s.closed then s
  else { s with
    closed := true
    readBuffer := s.readBuffer.clear
    writeQueue := []
    registered := false }

/-- `send_packet`: post a `do_send_packet` task, unless the session is closed. -/
def sendPacket (s : Session) (packet : Packet) : Session :=
  if s.closed then s
  else { s with posted := s.posted ++ [packet], replies := s.replies ++ [packet] }

/-- `do_write`: start an `async_write` of the front message. -/
def doWrite (s : Session) : Session :=
  match s.writeQueue with
  | [] => { s with writing := false }
  | front :: _ => { s with
      writing := true
      inFlight := s.inFlight ++ [front]
      started := s.started ++ [front] }

/-- `do_send_packet` -/
def doSendPacket (s : Session) (packet : Packet) : Session :=
  let s := { s with
    writeQueue := s.writeQueue ++ [packet.buildPacket]
    executed := s.executed ++ [packet] }
  if !s.writing then s.doWrite else s

/-- `do_read`: make room and start an `async_read_some`. -/
def doRead (s : Session) : Session :=
  { s with readBuffer := s.readBuffer.ensureFreeSpace 512, reads := s.reads + 1 }

/-- A session just constructed, registered and started. -/
def start (sha1 : Sha1) : Session := doRead { srp := SRP6.new sha1 }

/-! ## What the methods leave alone -/

section Frame

variable (s : Session) (p : Packet)

@[simp] lemma close_closed : s.close.closed = true := by
  unfold close; split_ifs with h <;> simp [h]

@[simp] lemma close_toAuthState : s.close.toAuthState = s.toAuthState := by
  unfold close; split_ifs <;> rfl

@[simp] lemma close_posted : s.close.posted = s.posted := by
  unfold close; split_ifs <;> rfl

@[simp] lemma close_replies : s.close.replies = s.replies := by
  unfold close; split_ifs <;> rfl

@[simp] lemma close_fault : s.close.fault = s.fault := by
  unfold close; split_ifs <;> rfl

@[simp] lemma close_reads : s.close.reads = s.reads := by
  unfold close; split_ifs <;> rfl

@[simp] lemma close_received : s.close.received = s.received := by
  unfold close; split_ifs <;> rfl

@[simp] lemma close_dispatched : s.close.dispatched = s.dispatched := by
  unfold close; split_ifs <;> rfl

@[simp] lemma close_messages : s.close.messages = s.messages := by
  unfold close; split_ifs <;> rfl

@[simp] lemma close_inFlight : s.close.inFlight = s.inFlight := by
  unfold close; split_ifs <;> rfl

@[simp] lemma close_writing : s.close.writing = s.writing := by
  unfold close; split_ifs <;> rfl

@[simp] lemma close_executed : s.close.executed = s.executed := by
  unfold close; split_ifs <;> rfl

/-- A close of a closed session does nothing. -/
lemma close_of_closed {s : Session} (h : s.closed = true) : s.close = s := by
  simp [close, h]

@[simp] lemma sendPacket_toAuthState : (s.sendPacket p).toAuthState = s.toAuthState := by
  unfold sendPacket; split_ifs <;> rfl

@[simp] lemma sendPacket_toReadState : (s.sendPacket p).toReadState = s.toReadState := by
  unfold sendPacket; split_ifs <;> rfl

@[simp] lemma sendPacket_toWriteState : (s.sendPacket p).toWriteState = s.toWriteState := by
  unfold sendPacket; split_ifs <;> rfl

@[simp] lemma sendPacket_closed : (s.sendPacket p).closed = s.closed := by
  unfold sendPacket; split_ifs <;> rfl

@[simp] lemma sendPacket_registered : (s.sendPacket p).registered = s.registered := by
  unfold sendPacket; split_ifs <;> rfl

@[simp] lemma sendPacket_fault : (s.sendPacket p).fault = s.fault := by
  unfold sendPacket; split_ifs <;> rfl

/-- What `send_packet` posts. -/
@[simp] lemma sendPacket_posted {s : Session} {p : Packet} (h : s.closed = false) :
    (s.sendPacket p).posted = s.posted ++ [p] := by
  simp [sendPacket, h]

@[simp] lemma sendPacket_replies {s : Session} {p : Packet} (h : s.closed = false) :
    (s.sendPacket p).replies = s.replies ++ [p] := by
  simp [sendPacket, h]

/-- `send_packet` only adds to the replies. -/
lemma replies_prefix_sendPacket : s.replies <+: (s.sendPacket p).replies := by
  unfold sendPacket
  split_ifs
  · exact List.prefix_rfl
  · exact List.prefix_append _ _

@[simp] lemma doWrite_toAuthState : s.doWrite.toAuthState = s.toAuthState := by
  unfold doWrite; split <;> rfl

@[simp] lemma doWrite_toReadState : s.doWrite.toReadState = s.toReadState := by
  unfold doWrite; split <;> rfl

@[simp] lemma doWrite_closed : s.doWrite.closed = s.closed := by
  unfold doWrite; split <;> rfl

@[simp] lemma doWrite_registered : s.doWrite.registered = s.registered := by
  unfold doWrite; split <;> rfl

@[simp] lemma doWrite_writeQueue : s.doWrite.writeQueue = s.writeQueue := by
  unfold doWrite; split <;> simp_all

@[simp] lemma doWrite_posted : s.doWrite.posted = s.posted := by
  unfold doWrite; split <;> rfl

@[simp] lemma doWrite_executed : s.doWrite.executed = s.executed := by
  unfold doWrite; split <;> rfl

@[simp] lemma doWrite_fault : s.doWrite.fault = s.fault := by
  unfold doWrite; split <;> rfl

@[simp] lemma doWrite_replies : s.doWrite.replies = s.replies := by
  unfold doWrite; split <;> rfl

@[simp] lemma doSendPacket_replies : (s.doSendPacket p).replies = s.replies := by
  unfold doSendPacket; dsimp only; split_ifs <;> simp

@[simp] lemma doSendPacket_toAuthState : (s.doSendPacket p).toAuthState = s.toAuthState := by
  unfold doSendPacket; dsimp only; split_ifs <;> simp

@[simp] lemma doSendPacket_toReadState : (s.doSendPacket p).toReadState = s.toReadState := by
  unfold doSendPacket; dsimp only; split_ifs <;> simp

@[simp] lemma doSendPacket_posted : (s.doSendPacket p).posted = s.posted := by
  unfold doSendPacket; dsimp only; split_ifs <;> simp

@[simp] lemma doSendPacket_executed : (s.doSendPacket p).executed = s.executed ++ [p] := by
  unfold doSendPacket; dsimp only; split_ifs <;> simp

@[simp] lemma doSendPacket_closed : (s.doSendPacket p).closed = s.closed := by
  unfold doSendPacket; dsimp only; split_ifs <;> simp

@[simp] lemma doSendPacket_registered : (s.doSendPacket p).registered = s.registered := by
  unfold doSendPacket; dsimp only; split_ifs <;> simp

@[simp] lemma doSendPacket_fault : (s.doSendPacket p).fault = s.fault := by
  unfold doSendPacket; dsimp only; split_ifs <;> simp

end Frame

end Session

end Purity
