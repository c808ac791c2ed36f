import FK1.UartReceive

/-!
# FK1.UartLoopback

Two 8251s on one wire: the transmitter of the first clocks its frames out on TxD, the receiver of
the second samples them on RxD, and every character written comes out again.
-/

namespace FK1
namespace Uart8251

open Oversample

/-! ## Runs -/

/-- The first chip after programming: TxEN, no break, nothing to send and TxD at rest. -/
structure TransmitterIdle (mode : Byte) (u : Uart8251) : Prop where
  enabled : u.transmitterEnabled = true
  modeWord : u.modeWord = mode
  noBreak : hasBits u.commandWord 0x08#8 = false
  empty : u.transmitBuffer = none
  inactive : u.transmitActive = false
  high : u.txd = true
  clock : u.transmitClockCount < u.baudFactor

/-- One clock edge of the pair. -/
def clockLink (first second : Uart8251) : Uart8251 × Uart8251 :=
  let first := first.transmitClockEdge
  (first, (second.setRxd first.txd).receiveLineEdge)

/-- A run of the pair: the characters written to the first chip and those read from the second. -/
inductive LinkRun (mode : Byte) : Uart8251 → Uart8251 → List Byte → List Byte → Prop where
  | start {first second} (hfirst : TransmitterIdle mode first) (hsecond : ReceiverIdle mode second)
      (hqueue : second.queuedReceiveBytes = []) : LinkRun mode first second [] []
  | write {first second written received} (value : Byte)
      (h : LinkRun mode first second written received) (hready : first.txReady = true) :
      LinkRun mode (first.write 0#8 value) second (written ++ [value]) received
  | read {first second written received} (h : LinkRun mode first second written received)
      (hready : second.rxReady = true) :
      LinkRun mode first (second.read 0#8).2 written (received ++ [(second.read 0#8).1])
  | edge {first second written received} (h : LinkRun mode first second written received)
      (hserved : second.rxReady = true → ¬second.completesCharacter) :
      LinkRun mode (clockLink first second).1 (clockLink first second).2 written received
  | besideFirst {first second written received} (op : Op)
      (h : LinkRun mode first second written received) (hop : op.besideTransmitter = true) :
      LinkRun mode (first.apply op) second written received
  | besideSecond {first second written received} (op : Op)
      (h : LinkRun mode first second written received) (hop : op.aside = true) :
      LinkRun mode first (second.apply op) written received

/-- `edges` edges of the pair, with the second chip read after each. -/
def serveLink (first second : Uart8251) : Nat → List Byte × Uart8251 × Uart8251
  | 0 => (second.collect.1, first, second.collect.2)
  | edges + 1 =>
    let (head, second) := second.collect
    let (first, second) := clockLink first second
    let (rest, first, second) := serveLink first second edges
    (head ++ rest, first, second)

/-! ## The frame on the wire -/

/-- TxD carries the frame of `value`; the last edge was the one at `position`. -/
structure OnWire (u : Uart8251) (value : Byte) (position : Nat) : Prop where
  active : u.transmitActive = true
  frame : u.transmitFrame = u.frameBits value
  held : Holds u.baudFactor position (u.transmitFrameIndex - 1) u.transmitClockCount
  started : 1 ≤ u.transmitFrameIndex
  index : u.transmitFrameIndex ≤ u.firstStop + u.stopBits
  txd : u.txdHigh = (u.frameBits value).getD (position / u.baudFactor) true

/-- The edges of one frame. -/
def frameEdges (u : Uart8251) : Nat := u.baudFactor * (u.firstStop + u.stopBits)

/-- The edges until all that was written is on the wire and over, while CTS is active. -/
def wireEdges (u : Uart8251) : Nat :=
  (if u.transmitActive then
      u.frameEdges - (u.baudFactor * (u.transmitFrameIndex - 1) + u.transmitClockCount)
    else if u.transmitBuffer.isSome then u.baudFactor - u.transmitClockCount
    else 0)
  + if u.transmitBuffer.isSome then u.frameEdges else 0

/-- What the edge that ends a frame, or any edge at rest, leads to. -/
inductive NextFrame (u u' : Uart8251) : Prop where
  | load (value : Byte) (hbuffer : u.transmitBuffer = some value) (hempty : u'.transmitBuffer = none)
      (hwire : OnWire u' value 0)
  | rest (hbuffer : u'.transmitBuffer = u.transmitBuffer) (hactive : u'.transmitActive = false)
      (hhigh : u'.txdHigh = true) (hclock : u'.transmitClockCount < u'.baudFactor)

variable {u u' : Uart8251} {value mode : Byte} {position : Nat}

theorem transmitClockEdge_eq (hbreak : hasBits u.commandWord 0x08#8 = false) :
    u.transmitClockEdge = if u.transmitClockCount + 1 ≥ u.baudFactor then
        { u with transmitClockCount := 0 }.advanceTransmitter
      else { u with transmitClockCount := u.transmitClockCount + 1 } := by
  simp [transmitClockEdge, hbreak]

/-- The buffered character as the next frame, its start bit on the line. -/
def loaded (u : Uart8251) (value : Byte) : Uart8251 :=
  { u with
    transmitBuffer := none
    transmitFrame := u.frameBits value
    transmitFrameIndex := 1
    transmitCharacter := value
    transmitPayload := true
    transmitActive := true
    txdHigh := false }

theorem shiftOrLoad_buffered (hasync : u.synchronous = false) (hactive : u.transmitActive = false)
    (henabled : u.transmitterEnabled = true) (hcts : u.ctsActive = true)
    (hbuffer : u.transmitBuffer = some value) : u.shiftOrLoad = u.loaded value := by
  have hfirst : (u.frameBits value).getD 0 false = false := by
    rw [frameBits_async hasync]
    rfl
  have hshift : u.shiftOrLoad
      = { u.loaded value with txdHigh := (u.frameBits value).getD 0 false } := by
    unfold shiftOrLoad
    rw [if_neg (by simp [hactive]), if_neg (by simp [henabled, hcts]), hbuffer]
    rfl
  rw [hshift, hfirst]
  rfl

theorem shiftOrLoad_rest (hasync : u.synchronous = false) (hactive : u.transmitActive = false)
    (hnone : u.transmitterEnabled = false ∨ u.ctsActive = false ∨ u.transmitBuffer = none) :
    u.shiftOrLoad = { u with txdHigh := true } := by
  rcases hnone with h | h | h
  · simp [shiftOrLoad, hactive, h]
  · simp [shiftOrLoad, hactive, h]
  · simp [shiftOrLoad, hactive, h, hasync]

/-- An edge at which the shift register is free, the divider just reset. -/
theorem shiftOrLoad_next (hasync : u.synchronous = false) (hactive : u.transmitActive = false)
    (hclock : u.transmitClockCount = 0) :
    NextFrame u u.shiftOrLoad
      ∧ (u.transmitterEnabled = true → u.ctsActive = true →
        u.shiftOrLoad.wireEdges = if u.transmitBuffer.isSome then u.frameEdges else 0) := by
  have hcount : u.transmitClockCount < u.baudFactor := by
    rw [hclock]
    exact baudFactor_pos u
  cases hbuffer : u.transmitBuffer with
  | none =>
    rw [shiftOrLoad_rest hasync hactive (.inr (.inr hbuffer))]
    refine ⟨.rest rfl hactive rfl hcount, fun _ _ => ?_⟩
    simp [wireEdges, hactive, hbuffer]
  | some value =>
    by_cases hgo : u.transmitterEnabled = true ∧ u.ctsActive = true
    · rw [shiftOrLoad_buffered hasync hactive hgo.1 hgo.2 hbuffer]
      have hframe : 0 < u.firstStop + u.stopBits := Nat.lt_add_right _ (Nat.succ_pos _)
      have hstart : false = (u.frameBits value).getD (0 / u.baudFactor) true := by
        rw [Nat.zero_div, frameBits_start hasync]
      have hheld : Holds u.baudFactor 0 (1 - 1) u.transmitClockCount := by
        rw [hclock]
        exact Holds.zero (baudFactor_pos u)
      have hwire : OnWire (u.loaded value) value 0 :=
        ⟨rfl, rfl, hheld, Nat.le_refl _, hframe, hstart⟩
      refine ⟨.load value hbuffer rfl hwire, fun _ _ => ?_⟩
      have hedges : (u.loaded value).wireEdges
          = u.frameEdges - (u.baudFactor * (1 - 1) + u.transmitClockCount) + 0 := rfl
      rw [hedges, hclock]
      simp
    · have hwait : u.transmitterEnabled = false ∨ u.ctsActive = false := by
        cases henabled : u.transmitterEnabled with
        | false => exact .inl rfl
        | true =>
          refine .inr (Bool.eq_false_iff.mpr fun hcts => hgo ⟨henabled, hcts⟩)
      rw [shiftOrLoad_rest hasync hactive (by rcases hwait with h | h <;> simp [h])]
      refine ⟨.rest rfl hactive rfl hcount, fun henabled hcts => absurd ⟨henabled, hcts⟩ hgo⟩

theorem finishTransmitFrame_done (hactive : u.transmitActive = true)
    (hend : u.transmitFrame.length ≤ u.transmitFrameIndex) :
    ∃ bytes, u.finishTransmitFrame =
      { u with transmittedBytes := bytes, transmitActive := false } := by
  unfold finishTransmitFrame
  rw [if_pos (by simp [hactive, hend])]
  by_cases hpush : u.transmitPayload && u.transmittedBytes.length < hostTransmitQueueCapacity
  · exact ⟨u.transmittedBytes ++ [u.transmitCharacter], by simp only [hpush, if_true]⟩
  · exact ⟨u.transmittedBytes, by simp only [hpush, if_false, Bool.false_eq_true]⟩

theorem finishTransmitFrame_more (hmore : u.transmitFrameIndex < u.transmitFrame.length) :
    u.finishTransmitFrame = u := by
  unfold finishTransmitFrame
  rw [if_neg (by simp; omega)]

theorem OnWire.wireEdges_eq (h : OnWire u value position) :
    u.wireEdges = u.frameEdges - position + if u.transmitBuffer.isSome then u.frameEdges else 0 := by
  rw [wireEdges, if_pos h.active, ← h.held.eq]

theorem OnWire.position_lt (h : OnWire u value position) : position < u.frameEdges := by
  obtain ⟨hposition, hlt⟩ := h.held
  have hstarted := h.started
  have hbits : u.baudFactor * (u.transmitFrameIndex - 1 + 1) ≤ u.frameEdges :=
    Nat.mul_le_mul_left _ (by have := h.index; omega)
  rw [Nat.mul_succ] at hbits
  omega

/-- One edge with a frame on the wire. -/
theorem OnWire.edge (hasync : u.synchronous = false)
    (hbreak : hasBits u.commandWord 0x08#8 = false) (h : OnWire u value position) :
    (OnWire u.transmitClockEdge value (position + 1)
        ∧ u.transmitClockEdge.transmitBuffer = u.transmitBuffer ∨
      position + 1 = u.frameEdges ∧ NextFrame u u.transmitClockEdge)
    ∧ (u.transmitterEnabled = true → u.ctsActive = true →
        u.transmitClockEdge.wireEdges = u.wireEdges - 1) := by
  have hlength : u.transmitFrame.length = u.firstStop + u.stopBits := by
    rw [h.frame, frameBits_length hasync]
  have hlt := h.held.lt
  have hstarted := h.started
  have hindex := h.index
  have hposition := h.position_lt
  have hsame : ∀ {v : Uart8251}, OnWire v value (position + 1) →
      v.transmitBuffer = u.transmitBuffer → v.frameEdges = u.frameEdges →
      v.wireEdges = u.wireEdges - 1 := by
    intro v hv hbuffer hedges
    rw [hv.wireEdges_eq, h.wireEdges_eq, hbuffer, hedges]
    omega
  rw [transmitClockEdge_eq hbreak]
  by_cases hmore : u.transmitClockCount + 1 ≥ u.baudFactor
  · rw [if_pos hmore, advanceTransmitter_eq]
    have hshift := h.held.shift hmore
    rw [Nat.sub_add_cancel hstarted] at hshift
    by_cases hend : u.transmitFrameIndex < u.firstStop + u.stopBits
    · rw [finishTransmitFrame_more (by simpa [hlength] using hend)]
      have hbit : u.transmitFrame.getD u.transmitFrameIndex false
          = (u.frameBits value).getD ((position + 1) / u.baudFactor) true := by
        rw [hshift.div, ← h.frame, List.getD_eq_getElem?_getD, List.getD_eq_getElem?_getD,
          List.getElem?_eq_getElem (by omega), Option.getD_some, Option.getD_some]
      have hnext : shiftOrLoad { u with transmitClockCount := 0 } = { u with
          transmitClockCount := 0
          txdHigh := u.transmitFrame.getD u.transmitFrameIndex false
          transmitFrameIndex := u.transmitFrameIndex + 1 } := by
        unfold shiftOrLoad
        rw [if_pos (by exact h.active)]
        rfl
      have hwire : OnWire { u with
          transmitClockCount := 0
          txdHigh := u.transmitFrame.getD u.transmitFrameIndex false
          transmitFrameIndex := u.transmitFrameIndex + 1 } value (position + 1) :=
        ⟨h.active, h.frame, hshift, Nat.succ_pos _, hend, hbit⟩
      rw [hnext]
      exact ⟨.inl ⟨hwire, rfl⟩, fun _ _ => hsame hwire rfl rfl⟩
    · have hlast : position + 1 = u.frameEdges := by
        rw [hshift.eq, frameEdges, Nat.add_zero]
        congr 1
        omega
      have hpast : u.transmitFrame.length ≤ u.transmitFrameIndex := by omega
      obtain ⟨bytes, hbytes⟩ := @finishTransmitFrame_done { u with transmitClockCount := 0 }
        h.active hpast
      rw [hbytes]
      obtain ⟨hnext, hedges⟩ := @shiftOrLoad_next { u with
        transmitClockCount := 0, transmittedBytes := bytes, transmitActive := false } hasync rfl rfl
      refine ⟨.inr ⟨hlast, ?_⟩, fun henabled hcts => ?_⟩
      · cases hnext with
        | load value hbuffer hempty hwire => exact .load value hbuffer hempty hwire
        | rest hbuffer hactive hhigh hclock => exact .rest hbuffer hactive hhigh hclock
      · have hsub : u.frameEdges - position = 1 := by omega
        rw [h.wireEdges_eq, hsub, Nat.add_sub_cancel_left]
        exact hedges henabled hcts
  · rw [if_neg hmore]
    have hheld := h.held.tick (by omega)
    have htxd : u.txdHigh = (u.frameBits value).getD ((position + 1) / u.baudFactor) true := by
      rw [hheld.div, h.txd, h.held.div]
    have hwire : OnWire { u with transmitClockCount := u.transmitClockCount + 1 } value
        (position + 1) := ⟨h.active, h.frame, hheld, h.started, h.index, htxd⟩
    exact ⟨.inl ⟨hwire, rfl⟩, fun _ _ => hsame hwire rfl rfl⟩

/-- One edge with the wire at rest. -/
theorem rest_edge (hasync : u.synchronous = false) (hbreak : hasBits u.commandWord 0x08#8 = false)
    (hactive : u.transmitActive = false) (hhigh : u.txdHigh = true)
    (hclock : u.transmitClockCount < u.baudFactor) :
    NextFrame u u.transmitClockEdge
    ∧ (u.transmitterEnabled = true → u.ctsActive = true →
        u.transmitClockEdge.wireEdges = u.wireEdges - 1) := by
  rw [transmitClockEdge_eq hbreak]
  have hwait : u.wireEdges = (if u.transmitBuffer.isSome then u.baudFactor - u.transmitClockCount
      else 0) + if u.transmitBuffer.isSome then u.frameEdges else 0 := by
    rw [wireEdges, if_neg (by simp [hactive])]
  by_cases hmore : u.transmitClockCount + 1 ≥ u.baudFactor
  · rw [if_pos hmore, advanceTransmitter_eq]
    have hfinish : finishTransmitFrame { u with transmitClockCount := 0 }
        = { u with transmitClockCount := 0 } := by
      simp [finishTransmitFrame, hactive]
    rw [hfinish]
    obtain ⟨hnext, hedges⟩ := @shiftOrLoad_next { u with transmitClockCount := 0 } hasync hactive rfl
    refine ⟨?_, fun henabled hcts => ?_⟩
    · cases hnext with
      | load value hbuffer hempty hwire => exact .load value hbuffer hempty hwire
      | rest hbuffer hactive hhigh hclock => exact .rest hbuffer hactive hhigh hclock
    · have hframe : frameEdges { u with transmitClockCount := 0 } = u.frameEdges := rfl
      rw [hedges henabled hcts, hwait, hframe]
      split <;> omega
  · rw [if_neg hmore]
    refine ⟨.rest rfl hactive hhigh (Nat.lt_of_not_ge hmore), fun _ _ => ?_⟩
    have hedges : wireEdges { u with transmitClockCount := u.transmitClockCount + 1 }
        = (if u.transmitBuffer.isSome then u.baudFactor - (u.transmitClockCount + 1) else 0)
          + if u.transmitBuffer.isSome then u.frameEdges else 0 := by
      rw [wireEdges, if_neg (by simp [hactive])]
      rfl
    rw [hedges, hwait]
    split <;> omega

/-! ## The pair -/

variable {first second : Uart8251} {written received : List Byte}

/-- The byte on the wire that the second chip has not yet delivered. -/
inductive Wire (first second : Uart8251) : List Byte → Prop where
  | rest (hactive : first.transmitActive = false) (hhigh : first.txdHigh = true)
      (hclock : first.transmitClockCount < first.baudFactor)
      (hphase : second.receivePhase = .idle) : Wire first second []
  | frame (value : Byte) (position : Nat) (hwire : OnWire first value position)
      (hreceiving : Receiving second value (position + 1)) :
      Wire first second (second.pending value (position + 1))

/-- Every character written has been read, is unread, on the wire or in the transmit buffer. -/
structure Linked (mode : Byte) (first second : Uart8251) (written received : List Byte) : Prop where
  transmitter : first.transmitterEnabled = true
  transmitMode : first.modeWord = mode
  noBreak : hasBits first.commandWord 0x08#8 = false
  receiver : second.receiverEnabled = true
  receiveMode : second.modeWord = mode
  quiet : second.queuedReceiveBytes = [] ∧ second.queuedReceiveActive = false
  clean : second.errorFree
  bytes : ∃ wire, Wire first second wire ∧
    written.map second.character
      = received ++ (second.unread
        ++ (wire ++ first.transmitBuffer.toList).map second.character)

/-- The receiver at an edge of the wire, its host queue empty. -/
theorem receive_wire {high : Bool} (henabled : u.receiverEnabled = true)
    (hasync : u.synchronous = false) (hfactor : 2 ≤ u.baudFactor)
    (hquiet : u.queuedReceiveBytes = [] ∧ u.queuedReceiveActive = false)
    (h : Receiving u value position)
    (hline : high = (u.frameBits value).getD (position / u.baudFactor) true)
    (hserved : u.rxReady = true → ¬u.completesCharacter) :
    ∃ s buffer ready, (u.setRxd high).receiveLineEdge
        = ((u.setRxd high).withSample s).withBuffer buffer ready
      ∧ Receiving (((u.setRxd high).withSample s).withBuffer buffer ready) value (position + 1)
      ∧ (if ready then [buffer] else []) ++ (u.pending value (position + 1)).map u.character
        = u.unread ++ (u.pending value position).map u.character := by
  obtain ⟨hqueue, hactive⟩ := hquiet
  have hdrive : (u.setRxd high).driveQueuedLine = u.setRxd high := by
    simp [driveQueuedLine, setRxd, hqueue, hactive]
  obtain ⟨s, buffer, ready, hs, hnext, hbytes⟩ := @Receiving.follow (u.setRxd high) value position
    henabled hasync hfactor (h.transfer (by rfl) (by rfl)) hline hserved
  refine ⟨s, buffer, ready, ?_, hnext, hbytes⟩
  rw [receiveLineEdge_eq, hdrive, hs]
  simp [advanceQueuedReceiveLine, withBuffer, withSample, setRxd, hactive]

/-- What the second chip has when the first has moved to `first'` on an edge. -/
def Follows (first first' second : Uart8251) (before : List Byte) : Prop :=
  ∃ s buffer ready wire, (second.setRxd first'.txd).receiveLineEdge
      = ((second.setRxd first'.txd).withSample s).withBuffer buffer ready
    ∧ Wire first' (((second.setRxd first'.txd).withSample s).withBuffer buffer ready) wire
    ∧ (if ready then [buffer] else [])
        ++ (wire ++ first'.transmitBuffer.toList).map second.character
      = second.unread ++ (before ++ first.transmitBuffer.toList).map second.character

variable {first' : Uart8251}

theorem OnWire.follows (hmode : first'.modeWord = second.modeWord)
    (henabled : second.receiverEnabled = true) (hasync : second.synchronous = false)
    (hfactor : 2 ≤ second.baudFactor)
    (hquiet : second.queuedReceiveBytes = [] ∧ second.queuedReceiveActive = false)
    (hserved : second.rxReady = true → ¬second.completesCharacter)
    (hwire : OnWire first' value position) (hreceiving : Receiving second value position) :
    ∃ s buffer ready, (second.setRxd first'.txd).receiveLineEdge
        = ((second.setRxd first'.txd).withSample s).withBuffer buffer ready
      ∧ Wire first' (((second.setRxd first'.txd).withSample s).withBuffer buffer ready)
          (second.pending value (position + 1))
      ∧ (if ready then [buffer] else [])
          ++ (second.pending value (position + 1)).map second.character
        = second.unread ++ (second.pending value position).map second.character := by
  have hline : first'.txd = (second.frameBits value).getD (position / second.baudFactor) true := by
    have hframe : first'.frameBits value = second.frameBits value :=
      of_mode (frameBits · value) (fun _ => rfl) hmode
    have hbaud : first'.baudFactor = second.baudFactor := of_mode baudFactor (fun _ => rfl) hmode
    rw [← hframe, ← hbaud]
    exact hwire.txd
  obtain ⟨s, buffer, ready, hs, hnext, hbytes⟩ :=
    receive_wire henabled hasync hfactor hquiet hreceiving hline hserved
  exact ⟨s, buffer, ready, hs, .frame value position hwire hnext, hbytes⟩

/-- An edge that starts the next frame, or leaves the wire at rest. -/
theorem NextFrame.follows (hmode : first'.modeWord = second.modeWord)
    (henabled : second.receiverEnabled = true) (hasync : second.synchronous = false)
    (hfactor : 2 ≤ second.baudFactor)
    (hquiet : second.queuedReceiveBytes = [] ∧ second.queuedReceiveActive = false)
    (hserved : second.rxReady = true → ¬second.completesCharacter)
    (hnext : NextFrame first first') (hphase : second.receivePhase = .idle) :
    Follows first first' second [] := by
  cases hnext with
  | load value hbuffer hempty hwire =>
    obtain ⟨s, buffer, ready, hs, hwire', hbytes⟩ := hwire.follows hmode henabled hasync hfactor
      hquiet hserved (.waiting hphase rfl)
    refine ⟨s, buffer, ready, _, hs, hwire', ?_⟩
    have hpending : second.pending value 0 = [value] := if_pos (Nat.zero_le _)
    rw [hempty, hbuffer, Option.toList_none, List.append_nil, hbytes, hpending]
    rfl
  | rest hbuffer hactive hhigh hclock =>
    obtain ⟨hqueue, hidle⟩ := hquiet
    have hrest : (second.setRxd first'.txd).receiveLineEdge = second.setRxd first'.txd :=
      receiveLineEdge_rest hasync hidle hqueue hphase hhigh
    refine ⟨second.sampleState, second.receiveBuffer, second.receiveReady, [], hrest,
      .rest hactive hhigh hclock hphase, ?_⟩
    rw [hbuffer]
    rfl

theorem Linked.edge (hasync : first.synchronous = false) (hfactor : 2 ≤ first.baudFactor)
    (h : Linked mode first second written received)
    (hserved : second.rxReady = true → ¬second.completesCharacter) :
    Linked mode (clockLink first second).1 (clockLink first second).2 written received := by
  obtain ⟨t, ht⟩ : ∃ t, first.transmitClockEdge = first.withTransmit t :=
    ⟨_, transmitClockEdge_step first⟩
  obtain ⟨htransmitter, htransmitMode, hbreak, hreceiver, hreceiveMode, hquiet, hclean, wire, hwire,
    hbytes⟩ := h
  have hmode : second.modeWord = first.modeWord := by rw [hreceiveMode, htransmitMode]
  have hmode' : first.transmitClockEdge.modeWord = second.modeWord := by
    rw [hmode, ht]
    rfl
  have hasync' : second.synchronous = false :=
    (of_mode synchronous (fun _ => rfl) hmode).trans hasync
  have hbaud : second.baudFactor = first.baudFactor := of_mode baudFactor (fun _ => rfl) hmode
  have hfactor' : 2 ≤ second.baudFactor := hbaud ▸ hfactor
  have hfollows : Follows first first.transmitClockEdge second wire := by
    cases hwire with
    | rest hactive hhigh hclock hphase =>
      exact (rest_edge hasync hbreak hactive hhigh hclock).1.follows hmode' hreceiver hasync' hfactor'
        hquiet hserved hphase
    | frame value position hwire hreceiving =>
      rcases (hwire.edge hasync hbreak).1 with ⟨hmore, hbuffer⟩ | ⟨hend, hnext⟩
      · obtain ⟨s, buffer, ready, hs, hwire', hbytes'⟩ := hmore.follows hmode' hreceiver hasync'
          hfactor' hquiet hserved hreceiving
        refine ⟨s, buffer, ready, _, hs, hwire', ?_⟩
        rw [hbuffer, List.map_append, List.map_append, ← List.append_assoc, hbytes',
          List.append_assoc]
      · have hedges : second.frameEdges = first.frameEdges := of_mode frameEdges (fun _ => rfl) hmode
        have hlate : second.lastSample < position + 1 := by
          rw [hend, ← hedges]
          exact lastSample_lt second
        have hpending : second.pending value (position + 1) = [] := if_neg (by omega)
        rw [hpending]
        exact hnext.follows hmode' hreceiver hasync' hfactor' hquiet hserved
          (hreceiving.idle_of_late hlate)
  obtain ⟨s, buffer, ready, wire', hs, hwire', hbytes'⟩ := hfollows
  have hlink : clockLink first second = (first.transmitClockEdge,
      ((second.setRxd first.transmitClockEdge.txd).withSample s).withBuffer buffer ready) := by
    rw [clockLink, hs]
  rw [hlink]
  have hconfig : first.transmitClockEdge.transmitterEnabled = true
      ∧ first.transmitClockEdge.modeWord = mode
      ∧ hasBits first.transmitClockEdge.commandWord 0x08#8 = false := by
    rw [ht]
    exact ⟨htransmitter, htransmitMode, hbreak⟩
  refine ⟨hconfig.1, hconfig.2.1, hconfig.2.2, hreceiver, hreceiveMode, hquiet, hclean, wire',
    hwire', ?_⟩
  have hnew : written.map second.character = received ++ ((if ready then [buffer] else [])
      ++ (wire' ++ first.transmitClockEdge.transmitBuffer.toList).map second.character) := by
    rw [hbytes', hbytes]
  exact hnew

/-! ## Programming, and what a run keeps -/

theorem Linked.start (hfirst : TransmitterIdle mode first) (hsecond : ReceiverIdle mode second)
    (hqueue : second.queuedReceiveBytes = []) : Linked mode first second [] [] := by
  refine ⟨hfirst.enabled, hfirst.modeWord, hfirst.noBreak, hsecond.enabled, hsecond.modeWord,
    ⟨hqueue, hsecond.inactive⟩,
    ⟨hsecond.noParityError, hsecond.noFramingError, hsecond.noOverrunError⟩, [],
    .rest hfirst.inactive hfirst.high hfirst.clock hsecond.phase, ?_⟩
  simp [unread, hsecond.empty, hfirst.empty]

theorem Linked.write (h : Linked mode first second written received)
    (hready : first.txReady = true) (value : Byte) :
    Linked mode (first.write 0#8 value) second (written ++ [value]) received := by
  obtain ⟨htransmitter, htransmitMode, hbreak, hreceiver, hreceiveMode, hquiet, hclean, wire, hwire,
    hbytes⟩ := h
  have hmode : first.modeWord = second.modeWord := by rw [hreceiveMode, htransmitMode]
  have hwrite : first.write 0#8 value = { first with transmitBuffer := some (first.character value) } := by
    simp [Uart8251.write, hasBits, character]
  have hempty : first.transmitBuffer = none := by
    simp only [txReady, Bool.and_eq_true, Option.isNone_iff_eq_none] at hready
    exact hready.2
  rw [hwrite]
  refine ⟨htransmitter, htransmitMode, hbreak, hreceiver, hreceiveMode, hquiet, hclean, wire, ?_, ?_⟩
  · cases hwire with
    | rest hactive hhigh hclock hphase => exact .rest hactive hhigh hclock hphase
    | frame value position hwire hreceiving =>
      exact .frame value position
        ⟨hwire.active, hwire.frame, hwire.held, hwire.started, hwire.index, hwire.txd⟩ hreceiving
  · have hcharacter : second.character (first.character value) = second.character value := by
      have hsame : first.character value = second.character value :=
        of_mode (character · value) (fun _ => rfl) hmode
      rw [hsame]
      exact character_idem second value
    rw [hempty] at hbytes
    simp only [List.map_append, hbytes, Option.toList_none, Option.toList_some, List.map_nil,
      List.map_cons, hcharacter, List.append_nil, List.append_assoc]

theorem Linked.read (h : Linked mode first second written received)
    (hready : second.rxReady = true) :
    Linked mode first (second.read 0#8).2 written (received ++ [(second.read 0#8).1]) := by
  obtain ⟨htransmitter, htransmitMode, hbreak, hreceiver, hreceiveMode, hquiet, hclean, wire, hwire,
    hbytes⟩ := h
  have hread : second.read 0#8 = (second.receiveBuffer, { second with receiveReady := false }) := by
    simp [Uart8251.read, hasBits]
  rw [hread]
  refine ⟨htransmitter, htransmitMode, hbreak, hreceiver, hreceiveMode, hquiet, hclean, wire, ?_, ?_⟩
  · cases hwire with
    | rest hactive hhigh hclock hphase => exact .rest hactive hhigh hclock hphase
    | frame value position hwire hreceiving =>
      exact .frame value position hwire (hreceiving.transfer (by rfl) (by rfl))
  · have hunread : second.unread = [second.receiveBuffer] := if_pos hready
    have hnew : written.map second.character = received ++ [second.receiveBuffer]
        ++ ([] ++ (wire ++ first.transmitBuffer.toList).map second.character) := by
      rw [hbytes, hunread, List.nil_append, List.append_assoc]
    exact hnew

theorem Linked.besideFirst (h : Linked mode first second written received) (op : Op)
    (hop : op.besideTransmitter = true) : Linked mode (first.apply op) second written received := by
  obtain ⟨htransmitter, htransmitMode, hbreak, hreceiver, hreceiveMode, hquiet, hclean, wire, hwire,
    hbytes⟩ := h
  obtain ⟨r, bytes, cts, dsr, hr, -⟩ := @beside_step first op hop
  rw [hr]
  refine ⟨htransmitter, htransmitMode, hbreak, hreceiver, hreceiveMode, hquiet, hclean, wire, ?_,
    hbytes⟩
  cases hwire with
  | rest hactive hhigh hclock hphase => exact .rest hactive hhigh hclock hphase
  | frame value position hwire hreceiving =>
    exact .frame value position
      ⟨hwire.active, hwire.frame, hwire.held, hwire.started, hwire.index, hwire.txd⟩ hreceiving

theorem Linked.besideSecond (h : Linked mode first second written received) (op : Op)
    (hop : op.aside = true) : Linked mode first (second.apply op) written received := by
  obtain ⟨htransmitter, htransmitMode, hbreak, hreceiver, hreceiveMode, hquiet, hclean, wire, hwire,
    hbytes⟩ := h
  obtain ⟨t, ht⟩ : ∃ t, second.apply op = second.withTransmit t := ⟨_, aside_step op hop⟩
  rw [ht]
  refine ⟨htransmitter, htransmitMode, hbreak, hreceiver, hreceiveMode, hquiet, hclean, wire, ?_,
    hbytes⟩
  cases hwire with
  | rest hactive hhigh hclock hphase => exact .rest hactive hhigh hclock hphase
  | frame value position hwire hreceiving =>
    exact .frame value position hwire (hreceiving.transfer (by rfl) (by rfl))

theorem programmed_transmitterIdle {command : Byte} (hasync : mode &&& 0x03#8 ≠ 0#8)
    (hreset : hasBits command 0x40#8 = false) (henable : hasBits command 0x01#8 = true)
    (hbreak : hasBits command 0x08#8 = false) : TransmitterIdle mode (programmed mode command) := by
  rw [programmed_eq hasync hreset]
  exact ⟨by simpa [transmitterEnabled] using henable, rfl, hbreak, rfl, rfl, rfl, baudFactor_pos _⟩

/-- The asynchronous modes with a divisor of 16 or 64. -/
def OversampledMode (mode : Byte) : Prop := mode &&& 0x03#8 = 2#8 ∨ mode &&& 0x03#8 = 3#8

theorem OversampledMode.config (h : OversampledMode mode) (hmode : u.modeWord = mode) :
    u.synchronous = false ∧ 2 ≤ u.baudFactor := by
  rcases h with h | h <;> simp [synchronous, baudFactor, hmode, h]

theorem LinkRun.linked (hmode : OversampledMode mode)
    (h : LinkRun mode first second written received) : Linked mode first second written received := by
  induction h with
  | start hfirst hsecond hqueue => exact .start hfirst hsecond hqueue
  | write value _ hready ih => exact ih.write hready value
  | read _ hready ih => exact ih.read hready
  | edge _ hserved ih =>
    obtain ⟨hasync, hfactor⟩ := hmode.config ih.transmitMode
    exact ih.edge hasync hfactor hserved
  | besideFirst op _ hop ih => exact ih.besideFirst op hop
  | besideSecond op _ hop ih => exact ih.besideSecond op hop

/-! ## Every character arrives -/

/-- With CTS active every edge brings the end of transmission closer. -/
theorem Linked.wireEdges_edge (hmode : OversampledMode mode)
    (h : Linked mode first second written received) (hcts : first.ctsActive = true) :
    first.transmitClockEdge.wireEdges = first.wireEdges - 1 := by
  obtain ⟨hasync, hfactor⟩ := hmode.config h.transmitMode
  obtain ⟨wire, hwire, -⟩ := h.bytes
  cases hwire with
  | rest hactive hhigh hclock hphase =>
    exact (rest_edge hasync h.noBreak hactive hhigh hclock).2 h.transmitter hcts
  | frame value position hwire hreceiving => exact (hwire.edge hasync h.noBreak).2 h.transmitter hcts

/-- Nothing written is left in the transmit buffer, on the wire or unread. -/
def linkDone (first second : Uart8251) : Prop :=
  first.transmitBuffer = none ∧ first.transmitActive = false ∧ second.receiveReady = false

theorem Linked.done_of_wireEdges (h : Linked mode first second written received)
    (hedges : first.wireEdges = 0) (hread : second.receiveReady = false) :
    linkDone first second := by
  have hframe : 0 < first.frameEdges :=
    Nat.mul_pos (baudFactor_pos first) (Nat.lt_add_right _ (Nat.succ_pos _))
  have hbuffer : first.transmitBuffer = none := by
    cases hbuffer : first.transmitBuffer with
    | none => rfl
    | some value =>
      simp only [wireEdges, hbuffer, Option.isSome_some, if_true] at hedges
      omega
  obtain ⟨wire, hwire, -⟩ := h.bytes
  cases hwire with
  | rest hactive => exact ⟨hbuffer, hactive, hread⟩
  | frame value position hwire hreceiving =>
    rw [hwire.wireEdges_eq] at hedges
    have hlt := hwire.position_lt
    omega

theorem Linked.done (h : Linked mode first second written received)
    (hdone : linkDone first second) : received = written.map second.character := by
  obtain ⟨wire, hwire, hbytes⟩ := h.bytes
  obtain ⟨hbuffer, hactive, hread⟩ := hdone
  cases hwire with
  | rest => simpa [unread, hbuffer, hread] using hbytes.symm
  | frame value position hwire => simp [hwire.active] at hactive

theorem collect_link (h : LinkRun mode first second written received) :
    LinkRun mode first second.collect.2 written (received ++ second.collect.1) := by
  unfold collect
  split
  · exact .read h ‹_›
  · simpa using h

theorem serveLink_run (edges : Nat) (h : LinkRun mode first second written received) :
    LinkRun mode (serveLink first second edges).2.1 (serveLink first second edges).2.2 written
      (received ++ (serveLink first second edges).1) := by
  induction edges generalizing first second received with
  | zero => exact collect_link h
  | succ edges ih =>
    have hrest := ih (.edge (collect_link h) second.collect_served)
    rw [List.append_assoc] at hrest
    exact hrest

/-- Enough edges with CTS active clear the wire. -/
theorem serveLink_done {edges : Nat} (hmode : OversampledMode mode)
    (h : LinkRun mode first second written received) (hcts : first.ctsActive = true)
    (hedges : first.wireEdges ≤ edges) :
    linkDone (serveLink first second edges).2.1 (serveLink first second edges).2.2 := by
  induction edges generalizing first second received with
  | zero =>
    exact ((collect_link h).linked hmode).done_of_wireEdges (Nat.le_zero.mp hedges)
      (collect_empty second)
  | succ edges ih =>
    have hlinked := (collect_link h).linked hmode
    have hnext := hlinked.wireEdges_edge hmode hcts
    have hleft : first.transmitClockEdge.wireEdges ≤ edges := by
      rw [hnext]
      omega
    exact ih (.edge (collect_link h) second.collect_served)
      ((transmitClockEdge_cts first).trans hcts) hleft

/-- Two chips in one oversampled mode: the second is read exactly what the first was written. -/
theorem loopback_characters (mode : Byte) (hmode : OversampledMode mode)
    (first second : Uart8251) (written received : List Byte)
    (h : LinkRun mode first second written received) :
    second.errorFree ∧ received <+: written.map second.character
      ∧ (linkDone first second → received = written.map second.character)
      ∧ (first.ctsActive = true → ∀ edges, first.wireEdges ≤ edges →
          received ++ (serveLink first second edges).1 = written.map second.character) := by
  have hlinked := h.linked hmode
  refine ⟨hlinked.clean, ?_, hlinked.done, fun hcts edges hedges => ?_⟩
  · obtain ⟨wire, -, hbytes⟩ := hlinked.bytes
    exact ⟨_, hbytes.symm⟩
  · have hrun := (serveLink_run edges h).linked hmode
    have hall := hrun.done (serveLink_done hmode h hcts hedges)
    have hcharacter : (serveLink first second edges).2.2.character = second.character := by
      funext value
      exact of_mode (character · value) (fun _ => rfl) (hrun.receiveMode.trans hlinked.receiveMode.symm)
    rw [hall, hcharacter]

/-- A character is written, and CTS is away for a while. -/
theorem serveLink_paused (h : LinkRun mode first second written received) (value : Byte)
    (edges paused : Nat) (hready : (serveLink first second edges).2.1.txReady = true) :
    let begun := serveLink first second edges
    let r := serveLink ((begun.2.1.write 0#8 value).apply (.setCtsActive false)) begun.2.2 paused
    LinkRun mode (r.2.1.apply (.setCtsActive true)) r.2.2 (written ++ [value])
      (received ++ begun.1 ++ r.1) :=
  .besideFirst (.setCtsActive true)
    (serveLink_run paused
      (.besideFirst (.setCtsActive false) (.write value (serveLink_run edges h) hready) rfl)) rfl

/-- CTS goes away in the middle of one character, while another waits, and comes back later. -/
theorem loopback_two_characters :
    let first := (programmed 0x4E#8 0x01#8).write 0#8 0x41#8
    let begun := serveLink first (programmed 0x4E#8 0x04#8) 50
    let paused := serveLink ((begun.2.1.write 0#8 0x42#8).apply (.setCtsActive false)) begun.2.2 300
    paused.2.1.transmitBuffer = some 0x42#8 ∧ [] ++ begun.1 ++ paused.1 = [0x41#8] ∧
      [] ++ begun.1 ++ paused.1 ++
        (serveLink (paused.2.1.apply (.setCtsActive true)) paused.2.2 400).1 = [0x41#8, 0x42#8] := by
  dsimp only
  have hfirst : LinkRun 0x4E#8 ((programmed 0x4E#8 0x01#8).write 0#8 0x41#8) (programmed 0x4E#8 0x04#8)
      [0x41#8] [] :=
    .write 0x41#8 (.start
      (programmed_transmitterIdle (by decide) (by decide) (by decide) (by decide))
      (programmed_receiverIdle (by decide) (by decide) (by decide)) (by decide)) (by decide)
  have hresumed := serveLink_paused hfirst 0x42#8 50 300 (by decide +kernel)
  obtain ⟨-, -, -, hall⟩ := loopback_characters 0x4E#8 (.inl (by decide)) _ _ _ _ hresumed
  refine ⟨by decide +kernel, by decide +kernel, ?_⟩
  exact (hall (by decide +kernel) 400 (by decide +kernel)).trans (by decide +kernel)

end Uart8251
end FK1
