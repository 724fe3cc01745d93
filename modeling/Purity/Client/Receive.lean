import Purity.Base.Run
import Purity.Client.Effect

set_option relaxedAutoImplicit false
set_option autoImplicit false

/-!
# The receive loop on whole frames

The client reads a header, decodes the length in it, and reads the payload; then it handles the
frame and starts again. Whatever the reads that complete, a frame is handled as a whole, once.

## Main definitions

* `Purity.Client.Ready` — the receive loop is at the beginning of a frame.
* `Purity.Client.Reads` — the reads outstanding complete with these bytes.
* `Purity.Client.takeFrame` — one turn of the loop.

## Main results

* `Purity.Client.Ready.reads_iff` — reading a frame is one turn of the loop.
-/

namespace Purity

/-- The bytes are one frame in the format of the mode, and not too big for a client. -/
structure WholeFrame (mode : SessionMode) (raw : Bytes) : Prop where
  length : raw.length = mode.headerSize + declaredSize mode raw
  size : declaredSize mode raw ≤ 2048

/-- The frame of a packet is one. -/
lemma Packet.wholeFrame {p : Packet} (h : p.payload.length ≤ 2048) :
    WholeFrame p.mode p.buildPacket := by
  have hdecl := declaredSize_buildPacket (p := p) (by omega) []
  rw [List.append_nil] at hdecl
  exact ⟨by rw [hdecl, length_buildPacket], by rw [hdecl]; exact h⟩

namespace Client

variable {sha1 : Sha1} {rand : Rand32} {c c' : Client}

/-- The receive loop is at the beginning of a frame: there was no fault, and the client waits for a
header in its mode. -/
structure Ready (c : Client) : Prop where
  fault : c.fault = none
  reads : c.reads = [{ op := .header c.sessionMode }]

/-- The client reads these bytes: the reads outstanding complete with them, one after another, and
nothing else happens. -/
def Reads (sha1 : Sha1) (rand : Rand32) (c : Client) (bytes : Bytes) (c' : Client) : Prop :=
  ∃ parts : List Bytes, parts.flatten = bytes ∧
    Run.exec (Client.step sha1) c (parts.map fun part => .readDone 0 part rand) = some c'

/-- The client after its read completed with these bytes. -/
def arrive (c : Client) (bytes : Bytes) : Client :=
  { c with reads := [], received := c.received ++ bytes }

/-- One turn of the receive loop: a frame has arrived and is handled, and the next header is waited
for. -/
def takeFrame (sha1 : Sha1) (rand : Rand32) (c : Client) (raw : Bytes) : Client :=
  ((c.arrive raw).handleRaw sha1 c.sessionMode raw rand).startReceiveLoop

/-- The client between a header and its payload. -/
def awaitPayload (c : Client) (header : Bytes) : Client :=
  { c with
    reads := [{ op := .payload c.sessionMode header (declaredSize c.sessionMode header) }]
    received := c.received ++ header }

@[simp] lemma flushQueue_fault (c : Client) : c.flushQueue.fault = c.fault := by
  unfold flushQueue; split_ifs
  · rfl
  · split <;> rfl

@[simp] lemma sendPacket_fault (c : Client) (p : Packet) :
    (c.sendPacket p).fault = c.fault := by
  unfold sendPacket sendPacketImpl; dsimp only; split_ifs <;> simp

/-- Handling a packet is no fault. -/
lemma fault_of_handleEffect {mode : SessionMode} {raw : Bytes} (h : HandleEffect c mode raw c') :
    c'.fault = c.fault := by
  cases h with
  | keep h hmode => exact h.fault
  | proof d A M1 hauth hopcode hpayload hA hM1 h hmode hsend =>
    rw [hsend, sendPacket_fault, h.fault]
  | switch hauth hopcode h hmode => exact h.fault

/-- A read completes only with as many bytes as it waits for. -/
lemma length_of_readDone {p : Pending ReadOp} {bytes : Bytes} (hreads : c.reads = [p])
    (h : c.step sha1 (.readDone 0 bytes rand) = some c') : bytes.length = p.op.size := by
  cases step_transition h with
  | readDone i bytes rand q hread hlive hsize =>
    obtain rfl : p = q := by simpa [hreads] using hread
    exact hsize

/-- What is read in two parts is read as a whole. -/
lemma Reads.append {d : Client} {bytes bytes' : Bytes} (h : c.Reads sha1 rand bytes d)
    (h' : d.Reads sha1 rand bytes' c') : c.Reads sha1 rand (bytes ++ bytes') c' := by
  obtain ⟨parts, rfl, hexec⟩ := h
  obtain ⟨parts', rfl, hexec'⟩ := h'
  refine ⟨parts ++ parts', List.flatten_append, ?_⟩
  rw [List.map_append, Run.exec_append, hexec, Option.bind_some, hexec']

/-- A frame that is no `SMSG_AUTH_LOGON_PROOF` leaves the mode alone. -/
lemma sessionMode_takeFrame {raw : Bytes}
    (h : ¬ (c.sessionMode = .authSession ∧ raw.head? = some AuthOpcodes.smsgAuthLogonProof)) :
    (c.takeFrame sha1 rand raw).sessionMode = c.sessionMode := by
  show ((c.arrive raw).handleRaw sha1 c.sessionMode raw rand).sessionMode = c.sessionMode
  cases handleRaw_effect sha1 (c.arrive raw) c.sessionMode raw rand with
  | keep hagree hmode => exact hmode
  | proof d A M1 hauth hopcode hpayload hA hM1 hagree hmode hsend =>
    rw [hsend, sendPacket_sessionMode]
    exact hmode
  | switch hauth hopcode hagree hmode => exact absurd ⟨hauth, hopcode⟩ h

namespace Ready

/-- The client is ready again after a turn. -/
lemma takeFrame (hc : c.Ready) (raw : Bytes) : (c.takeFrame sha1 rand raw).Ready := by
  have heff := handleRaw_effect sha1 (c.arrive raw) c.sessionMode raw rand
  refine ⟨(fault_of_handleEffect heff).trans hc.fault, ?_⟩
  have hreads : ((c.arrive raw).handleRaw sha1 c.sessionMode raw rand).reads = [] := by
    rw [heff.receiver]
    rfl
  simp only [Client.takeFrame, startReceiveLoop, hreads, List.nil_append]

/-- A header arrives. -/
lemma step_header (hc : c.Ready) {bytes : Bytes} (hlen : bytes.length = c.sessionMode.headerSize) :
    c.step sha1 (.readDone 0 bytes rand) =
      some ((c.arrive bytes).readHandler sha1 (.header c.sessionMode) bytes rand) := by
  simp [step, hc.fault, hc.reads, hlen, ReadOp.size, arrive]

/-- The header of a frame without a payload: the frame is handled. -/
lemma step_empty (hc : c.Ready) {bytes : Bytes} (hlen : bytes.length = c.sessionMode.headerSize)
    (hdecl : declaredSize c.sessionMode bytes = 0) :
    c.step sha1 (.readDone 0 bytes rand) = some (c.takeFrame sha1 rand bytes) := by
  have hfield := lengthField_header hlen
  rw [hc.step_header hlen]
  unfold readHandler
  dsimp only
  split_ifs with hbig hzero
  · omega
  · rfl
  · refine absurd ?_ hzero
    rw [← UInt16.toNat_inj, hfield, hdecl]
    rfl

/-- The header of a frame with a payload: the client waits for the payload. -/
lemma step_full (hc : c.Ready) {bytes : Bytes} (hlen : bytes.length = c.sessionMode.headerSize)
    (hdecl : declaredSize c.sessionMode bytes ≠ 0)
    (hsize : declaredSize c.sessionMode bytes ≤ 2048) :
    c.step sha1 (.readDone 0 bytes rand) = some (c.awaitPayload bytes) := by
  have hfield := lengthField_header hlen
  rw [hc.step_header hlen]
  unfold readHandler
  dsimp only
  split_ifs with hbig hzero
  · omega
  · rw [hzero] at hfield
    exact absurd hfield.symm hdecl
  · rw [hfield]
    rfl

/-- No bytes do not move it. -/
lemma exec_nil (hc : c.Ready) {parts : List Bytes} (hparts : parts.flatten = [])
    (h : Run.exec (Client.step sha1) c (parts.map fun part => .readDone 0 part rand) = some c') :
    c' = c := by
  cases parts with
  | nil => exact (Option.some.inj h).symm
  | cons part parts =>
    obtain ⟨t, hstep, -⟩ := Run.exec_cons_eq_some.1 h
    have hlen := length_of_readDone hc.reads hstep
    have htwo := Packet.two_le_headerSize c.sessionMode
    rw [List.flatten_cons, List.append_eq_nil_iff] at hparts
    rw [hparts.1, ReadOp.size, List.length_nil] at hlen
    omega

/-- The payload arrives after its header: the frame is handled. -/
lemma step_payload (hc : c.Ready) {header bytes : Bytes}
    (hlen : bytes.length = declaredSize c.sessionMode header) :
    (c.awaitPayload header).step sha1 (.readDone 0 bytes rand) =
      some (c.takeFrame sha1 rand (header ++ bytes)) := by
  simp [step, awaitPayload, hlen, ReadOp.size, readHandler, Client.takeFrame, hc.fault, arrive]

section Frame

variable {raw : Bytes}

/-- A header of a frame declares what the frame does. -/
lemma declaredSize_header {mode : SessionMode} {header rest : Bytes} (h : header ++ rest = raw)
    (hlen : header.length = mode.headerSize) :
    declaredSize mode header = declaredSize mode raw := by
  rw [← h, declaredSize_append hlen.ge]

/-- Whoever reads a frame takes it in one turn.

**Proof sketch.** The first read takes the header and decodes the length of the payload. If there is
a payload, the second read takes it. After that no bytes are left. -/
lemma eq_takeFrame (hc : c.Ready) (hraw : WholeFrame c.sessionMode raw)
    (h : c.Reads sha1 rand raw c') : c' = c.takeFrame sha1 rand raw := by
  have hlen := hraw.length
  have hsize := hraw.size
  have htwo := Packet.two_le_headerSize c.sessionMode
  obtain ⟨parts, hparts, hexec⟩ := h
  cases parts with
  | nil =>
    rw [← hparts, List.flatten_nil, List.length_nil] at hlen
    omega
  | cons header rest =>
    rw [List.flatten_cons] at hparts
    obtain ⟨t, hstep, hrest⟩ := Run.exec_cons_eq_some.1 hexec
    have hheader : header.length = c.sessionMode.headerSize := length_of_readDone hc.reads hstep
    have hdecl := declaredSize_header hparts hheader
    have htotal := congrArg List.length hparts
    rw [List.length_append] at htotal
    by_cases hzero : declaredSize c.sessionMode raw = 0
    · rw [hc.step_empty hheader (hdecl.trans hzero)] at hstep
      obtain rfl := Option.some.inj hstep
      have hnil : rest.flatten = [] := List.length_eq_zero_iff.1 (by omega)
      rw [hnil, List.append_nil] at hparts
      rw [(hc.takeFrame header).exec_nil hnil hrest, hparts]
    · rw [hc.step_full hheader (by rwa [hdecl]) (by omega)] at hstep
      obtain rfl := Option.some.inj hstep
      cases rest with
      | nil =>
        rw [List.flatten_nil, List.length_nil] at htotal
        omega
      | cons payload rest =>
        obtain ⟨t, hstep, hrest⟩ := Run.exec_cons_eq_some.1 hrest
        have hpayload : payload.length = declaredSize c.sessionMode header :=
          length_of_readDone (c := c.awaitPayload header) rfl hstep
        rw [hc.step_payload hpayload] at hstep
        obtain rfl := Option.some.inj hstep
        rw [List.flatten_cons, List.length_append] at htotal
        have hnil : rest.flatten = [] := List.length_eq_zero_iff.1 (by omega)
        rw [List.flatten_cons, hnil, List.append_nil] at hparts
        rw [(hc.takeFrame (header ++ payload)).exec_nil hnil hrest, hparts]

/-- And a frame can be read, by its header and its payload. -/
lemma reads_takeFrame (hc : c.Ready) (hraw : WholeFrame c.sessionMode raw) :
    c.Reads sha1 rand raw (c.takeFrame sha1 rand raw) := by
  have hlen := hraw.length
  have hsize := hraw.size
  by_cases hzero : declaredSize c.sessionMode raw = 0
  · refine ⟨[raw], by simp, ?_⟩
    simp [hc.step_empty (by omega) hzero]
  · have hsplit := List.take_append_drop c.sessionMode.headerSize raw
    have hheader : (raw.take c.sessionMode.headerSize).length = c.sessionMode.headerSize := by
      rw [List.length_take]
      omega
    have hdecl := declaredSize_header hsplit hheader
    have hpayload : (raw.drop c.sessionMode.headerSize).length =
        declaredSize c.sessionMode (raw.take c.sessionMode.headerSize) := by
      rw [hdecl, List.length_drop]
      omega
    refine ⟨[raw.take c.sessionMode.headerSize, raw.drop c.sessionMode.headerSize], by simp, ?_⟩
    rw [List.map_cons, List.map_singleton, Run.exec_cons,
      hc.step_full hheader (by rwa [hdecl]) (by omega), Option.bind_some, Run.exec_cons,
      hc.step_payload hpayload, Option.bind_some, hsplit, Run.exec_nil]

/-- **Reading a frame is one turn of the loop.** -/
lemma reads_iff (hc : c.Ready) (hraw : WholeFrame c.sessionMode raw) :
    c.Reads sha1 rand raw c' ↔ c' = c.takeFrame sha1 rand raw := by
  constructor
  · exact hc.eq_takeFrame hraw
  · rintro rfl
    exact hc.reads_takeFrame hraw

end Frame

end Ready

end Client

end Purity
