import FK1.UartFrame
import FK1.UartOps

/-!
# FK1.UartReceive

Bytes the host queues, from `queue_received_byte` over the serialized line into the receive buffer,
for every order of host, guest and clock. The guest reads each character before the next completes.
-/

namespace FK1
namespace Uart8251

open Oversample

/-! ## Runs -/

/-- The receiver has just been enabled in an asynchronous `mode`, on an idle line and with an empty
buffer. -/
structure ReceiverIdle (mode : Byte) (u : Uart8251) : Prop where
  enabled : u.receiverEnabled = true
  modeWord : u.modeWord = mode
  phase : u.receivePhase = .idle
  inactive : u.queuedReceiveActive = false
  high : u.rxdHigh = true
  empty : u.receiveReady = false
  noParityError : u.receiveParityError = false
  noFramingError : u.receiveFramingError = false
  noOverrunError : u.receiveOverrunError = false

/-- Operations of the guest and the host that are not about the receiver: no control write. -/
def Op.aside : Op → Bool
  | .read registerIndex => hasBits registerIndex 0x01#8
  | .write registerIndex _ => !hasBits registerIndex 0x01#8
  | .setCtsActive _ | .setDsrActive _ | .transmitClockEdge | .takeTransmittedByte => true
  | _ => false

/-- A run from `start`: the bytes accepted by the queue and the characters the guest has read. -/
inductive HostRun (start : Uart8251) : Uart8251 → List Byte → List Byte → Prop where
  | start : HostRun start start start.queuedReceiveBytes []
  | queue {u accepted received} (value : Byte) (h : HostRun start u accepted received) :
      HostRun start (u.queueReceivedByte value).2
        (accepted ++ if (u.queueReceivedByte value).1 then [value] else []) received
  | read {u accepted received} (h : HostRun start u accepted received)
      (hready : u.rxReady = true) :
      HostRun start (u.read 0#8).2 accepted (received ++ [(u.read 0#8).1])
  | edge {u accepted received} (h : HostRun start u accepted received)
      (hserved : u.rxReady = true → ¬u.completesCharacter) :
      HostRun start u.receiveLineEdge accepted received
  | aside {u accepted received} (op : Op) (h : HostRun start u accepted received)
      (haside : op.aside = true) : HostRun start (u.apply op) accepted received

/-- Nothing is queued, on the line or in the buffer. -/
def drained (u : Uart8251) : Prop :=
  u.queuedReceiveBytes = [] ∧ u.queuedReceiveActive = false ∧ u.receiveReady = false

/-- No parity, framing or overrun flag is set. -/
def errorFree (u : Uart8251) : Prop :=
  u.receiveParityError = false ∧ u.receiveFramingError = false ∧ u.receiveOverrunError = false

/-- The guest takes the character that is ready, if any. -/
def collect (u : Uart8251) : List Byte × Uart8251 :=
  if u.rxReady then ([(u.read 0#8).1], (u.read 0#8).2) else ([], u)

/-- `edges` receive edges, with the guest reading after each. -/
def serve (u : Uart8251) : Nat → List Byte × Uart8251
  | 0 => u.collect
  | edges + 1 =>
    let (first, u) := u.collect
    let (rest, u) := u.receiveLineEdge.serve edges
    (first ++ rest, u)

/-- The edges the line needs for the queue and the frame on it. -/
def remainingEdges (u : Uart8251) : Nat :=
  u.queuedReceiveBytes.length * (u.baudFactor * (u.firstStop + u.stopBits))
    + if u.queuedReceiveActive then
        u.queuedReceiveBitClocks
          + u.baudFactor * (u.queuedReceiveFrame.length - (u.queuedReceiveFrameIndex + 1))
      else 0

/-! ## The frame on the line -/

/-- The line carries the frame of `value`, `position` edges old. -/
structure OnLine (u : Uart8251) (value : Byte) (position : Nat) : Prop where
  active : u.queuedReceiveActive = true
  frame : u.queuedReceiveFrame = u.frameBits value
  held : Holds u.baudFactor position u.queuedReceiveFrameIndex
    (u.baudFactor - u.queuedReceiveBitClocks)
  clocks : 1 ≤ u.queuedReceiveBitClocks ∧ u.queuedReceiveBitClocks ≤ u.baudFactor
  index : u.queuedReceiveFrameIndex < u.firstStop + u.stopBits

/-- The bytes that have left the queue and not reached the buffer. -/
inductive InFlight (u : Uart8251) : List Byte → Prop where
  | none (hactive : u.queuedReceiveActive = false) (hphase : u.receivePhase = .idle)
      (hhigh : u.rxdHigh = true) : InFlight u []
  | frame (value : Byte) (position : Nat) (hline : OnLine u value position)
      (hreceiving : Receiving u value position) (hearly : position ≤ u.lastSample) :
      InFlight u [value]
  | tail (value : Byte) (position : Nat) (hline : OnLine u value position)
      (hreceiving : Receiving u value position) (hlate : u.lastSample < position) : InFlight u []

/-- Every accepted byte has been read, is in the buffer, on the line or in the queue. -/
structure Carried (mode : Byte) (u : Uart8251) (accepted received : List Byte) : Prop where
  enabled : u.receiverEnabled = true
  modeWord : u.modeWord = mode
  clean : u.errorFree
  bytes : ∃ inFlight, InFlight u inFlight ∧
    accepted.map u.character
      = received ++ (u.unread ++ (inFlight ++ u.queuedReceiveBytes).map u.character)

/-! ## One edge -/

/-- The serializer's registers. -/
structure LineState where
  frame : List Bool
  frameIndex : Nat
  bitClocks : Nat
  active : Bool
  high : Bool

def withLine (u : Uart8251) (l : LineState) : Uart8251 :=
  { u with
    queuedReceiveFrame := l.frame
    queuedReceiveFrameIndex := l.frameIndex
    queuedReceiveBitClocks := l.bitClocks
    queuedReceiveActive := l.active
    rxdHigh := l.high }

variable {u : Uart8251} {value : Byte} {position : Nat}

theorem withLine_remainingEdges (l : LineState) :
    (u.withLine l).remainingEdges
      = u.queuedReceiveBytes.length * (u.baudFactor * (u.firstStop + u.stopBits))
        + if l.active then l.bitClocks + u.baudFactor * (l.frame.length - (l.frameIndex + 1))
          else 0 := rfl

theorem OnLine.drive (hasync : u.synchronous = false) (h : OnLine u value position) :
    u.driveQueuedLine = u.setRxd ((u.frameBits value).getD (position / u.baudFactor) true) := by
  have hindex : u.queuedReceiveFrameIndex < (u.frameBits value).length := by
    rw [frameBits_length hasync]
    exact h.index
  have hbit : u.queuedReceiveFrame.getD u.queuedReceiveFrameIndex false
      = (u.frameBits value).getD (position / u.baudFactor) true := by
    rw [h.frame, h.held.div, List.getD_eq_getElem?_getD, List.getD_eq_getElem?_getD,
      List.getElem?_eq_getElem hindex, Option.getD_some, Option.getD_some]
  have hbusy : ¬(!u.queuedReceiveActive && !u.queuedReceiveBytes.isEmpty) = true := by
    simp [h.active]
  simp only [driveQueuedLine, if_neg hbusy, if_pos h.active, hbit]
  rfl

/-- The serializer's part of an edge: the next clock of the frame, or an idle line. -/
theorem OnLine.advance (hasync : u.synchronous = false) (h : OnLine u value position) :
    ∃ l, u.advanceQueuedReceiveLine = u.withLine l ∧
      (u.withLine l).remainingEdges + 1 = u.remainingEdges ∧
      (OnLine (u.withLine l) value (position + 1) ∨
        l.active = false ∧ l.high = true
          ∧ position + 1 = u.baudFactor * (u.firstStop + u.stopBits)) := by
  obtain ⟨hlow, hhigh⟩ := h.clocks
  have hindex := h.index
  have hlength : u.queuedReceiveFrame.length = u.firstStop + u.stopBits := by
    rw [h.frame, frameBits_length hasync]
  have hremaining : u.remainingEdges
      = u.queuedReceiveBytes.length * (u.baudFactor * (u.firstStop + u.stopBits))
        + (u.queuedReceiveBitClocks + u.baudFactor
          * (u.firstStop + u.stopBits - (u.queuedReceiveFrameIndex + 1))) := by
    rw [remainingEdges, if_pos h.active, hlength]
  rw [hremaining]
  by_cases hmore : u.queuedReceiveBitClocks > 1
  · refine ⟨⟨u.queuedReceiveFrame, u.queuedReceiveFrameIndex, u.queuedReceiveBitClocks - 1,
      u.queuedReceiveActive, u.rxdHigh⟩, ?_, ?_, .inl ⟨h.active, h.frame, ?_, ?_, hindex⟩⟩
    · simp [advanceQueuedReceiveLine, h.active, hmore, withLine]
    · rw [withLine_remainingEdges, if_pos h.active, hlength]
      dsimp only
      omega
    · have htick := h.held.tick (by omega)
      have hclocks : u.baudFactor - u.queuedReceiveBitClocks + 1
          = u.baudFactor - (u.queuedReceiveBitClocks - 1) := by omega
      rw [hclocks] at htick
      exact htick
    · exact ⟨Nat.le_sub_one_of_lt hmore, Nat.le_trans (Nat.sub_le _ _) hhigh⟩
  · have hshift := h.held.shift (by omega)
    have hclocks : u.queuedReceiveBitClocks = 1 := by omega
    by_cases hlast : u.queuedReceiveFrameIndex + 1 < u.firstStop + u.stopBits
    · refine ⟨⟨u.queuedReceiveFrame, u.queuedReceiveFrameIndex + 1, u.baudFactor,
        u.queuedReceiveActive, u.rxdHigh⟩, ?_, ?_, .inl ⟨h.active, h.frame, ?_, ?_, hlast⟩⟩
      · have hinside : ¬u.queuedReceiveFrameIndex + 1 ≥ u.queuedReceiveFrame.length := by omega
        simp only [advanceQueuedReceiveLine, h.active, hmore, hinside, Bool.not_true,
          Bool.false_eq_true, if_false, withLine]
      · have hbits : u.firstStop + u.stopBits - (u.queuedReceiveFrameIndex + 1)
            = u.firstStop + u.stopBits - (u.queuedReceiveFrameIndex + 1 + 1) + 1 := by omega
        rw [withLine_remainingEdges, if_pos h.active, hlength, hbits, Nat.mul_succ, hclocks]
        dsimp only
        omega
      · rw [← Nat.sub_self u.baudFactor] at hshift
        exact hshift
      · exact ⟨baudFactor_pos u, Nat.le_refl _⟩
    · have hend : u.queuedReceiveFrameIndex + 1 = u.firstStop + u.stopBits := by omega
      refine ⟨⟨[], 0, 0, false, true⟩, ?_, ?_, .inr ⟨rfl, rfl, ?_⟩⟩
      · have hpast : u.queuedReceiveFrameIndex + 1 ≥ u.queuedReceiveFrame.length := by omega
        simp only [advanceQueuedReceiveLine, h.active, hmore, hpast, Bool.not_true,
          Bool.false_eq_true, if_false, if_true, withLine]
      · rw [hend, Nat.sub_self, hclocks]
        rfl
      · rw [hshift.eq, hend, Nat.add_zero]

/-- What one edge does to the bytes under way: nothing is lost, no flag is set, and the line comes
one edge closer to its end. -/
structure Moves (u u' : Uart8251) (before after : List Byte) : Prop where
  inFlight : InFlight u' after
  bytes : u'.unread ++ (after ++ u'.queuedReceiveBytes).map u.character
    = u.unread ++ (before ++ u.queuedReceiveBytes).map u.character
  clean : u.errorFree → u'.errorFree
  remaining : u'.remainingEdges = u.remainingEdges - 1

theorem OnLine.inFlight (hline : OnLine u value position) (hreceiving : Receiving u value position) :
    InFlight u (u.pending value position) := by
  unfold pending
  split
  · exact .frame value position hline hreceiving ‹_›
  · exact .tail value position hline hreceiving (by omega)

/-- The serializer's part of an edge after the receiver's. -/
theorem OnLine.inFlight_advance (hasync : u.synchronous = false) (hline : OnLine u value position)
    (hreceiving : Receiving u value (position + 1)) :
    ∃ l, u.advanceQueuedReceiveLine = u.withLine l
      ∧ (u.withLine l).remainingEdges + 1 = u.remainingEdges
      ∧ InFlight (u.withLine l) (u.pending value (position + 1)) := by
  obtain ⟨l, hl, hremaining, hnext⟩ := hline.advance hasync
  refine ⟨l, hl, hremaining, ?_⟩
  rcases hnext with hnext | ⟨hactive, hhigh, hend⟩
  · exact hnext.inFlight (hreceiving.transfer (by rfl) (by rfl))
  · have hlate : u.lastSample < position + 1 := hend ▸ lastSample_lt u
    rw [pending, if_neg (by omega)]
    exact .none hactive (hreceiving.idle_of_late hlate) hhigh

/-- One edge with a frame on the line. -/
theorem OnLine.edge (henabled : u.receiverEnabled = true) (hasync : u.synchronous = false)
    (hfactor : 2 ≤ u.baudFactor) (hline : OnLine u value position)
    (hreceiving : Receiving u value position)
    (hserved : u.receiveReady = true → ¬u.completesCharacter) :
    ∃ after, Moves u (u.driveQueuedLine.receiveClockEdge.advanceQueuedReceiveLine)
      (u.pending value position) after := by
  rw [hline.drive hasync]
  generalize hbit : (u.frameBits value).getD (position / u.baudFactor) true = bit
  obtain ⟨s, buffer, ready, hs, hnext, hbytes⟩ := @Receiving.follow (u.setRxd bit) value position
    henabled hasync hfactor (hreceiving.transfer (by rfl) (by rfl)) hbit.symm hserved
  obtain ⟨l, hl, hremaining, hafter⟩ := @OnLine.inFlight_advance
    (((u.setRxd bit).withSample s).withBuffer buffer ready) value position hasync
    ⟨hline.active, hline.frame, hline.held, hline.clocks, hline.index⟩ hnext
  rw [hs, hl]
  refine ⟨_, hafter, ?_, id, Nat.eq_sub_of_add_eq hremaining⟩
  have hmoved : (if ready then [buffer] else [])
        ++ (u.pending value (position + 1) ++ u.queuedReceiveBytes).map u.character
      = u.unread ++ (u.pending value position ++ u.queuedReceiveBytes).map u.character := by
    rw [List.map_append, List.map_append, ← List.append_assoc, ← List.append_assoc]
    exact congrArg (· ++ u.queuedReceiveBytes.map u.character) hbytes
  exact hmoved

/-! ## The bytes of a run -/

variable {mode : Byte} {accepted received : List Byte}

/-- The first byte of the queue is laid out as a frame. -/
def beginFrame (u : Uart8251) (value : Byte) (rest : List Byte) : Uart8251 :=
  { u with
    queuedReceiveBytes := rest
    queuedReceiveFrame := u.frameBits value
    queuedReceiveFrameIndex := 0
    queuedReceiveBitClocks := u.baudFactor
    queuedReceiveActive := true }

variable {rest : List Byte}

theorem beginFrame_drive (hactive : u.queuedReceiveActive = false)
    (hqueue : u.queuedReceiveBytes = value :: rest) :
    u.driveQueuedLine = (u.beginFrame value rest).driveQueuedLine := by
  simp [driveQueuedLine, startQueuedReceiveFrame, beginFrame, hactive, hqueue]

theorem beginFrame_onLine (value : Byte) (rest : List Byte) :
    OnLine (u.beginFrame value rest) value 0 := by
  have hzero : Holds u.baudFactor 0 0 (u.baudFactor - u.baudFactor) := by
    rw [Nat.sub_self]
    exact Holds.zero (baudFactor_pos u)
  have hpos : 0 < u.firstStop + u.stopBits := Nat.lt_add_right _ (Nat.succ_pos _)
  exact ⟨rfl, rfl, hzero, ⟨baudFactor_pos u, Nat.le_refl _⟩, hpos⟩

theorem beginFrame_remaining (hasync : u.synchronous = false)
    (hactive : u.queuedReceiveActive = false) (hqueue : u.queuedReceiveBytes = value :: rest) :
    (u.beginFrame value rest).remainingEdges = u.remainingEdges := by
  have hlength : (u.frameBits value).length = (u.firstStop + u.stopBits - 1) + 1 := by
    rw [frameBits_length hasync, firstStop]
    omega
  have hbegun : (u.beginFrame value rest).remainingEdges
      = rest.length * (u.baudFactor * (u.firstStop + u.stopBits))
        + (u.baudFactor + u.baudFactor * ((u.frameBits value).length - (0 + 1))) := rfl
  have hframe : u.baudFactor + u.baudFactor * ((u.frameBits value).length - (0 + 1))
      = u.baudFactor * (u.firstStop + u.stopBits) := by
    rw [← frameBits_length hasync value, hlength, Nat.mul_succ, Nat.add_comm]
    rfl
  rw [hbegun, hframe, remainingEdges, hactive, hqueue, List.length_cons, Nat.succ_mul]
  rfl

theorem receiveLineEdge_rest (hasync : u.synchronous = false)
    (hactive : u.queuedReceiveActive = false) (hqueue : u.queuedReceiveBytes = [])
    (hphase : u.receivePhase = .idle) (hhigh : u.rxdHigh = true) : u.receiveLineEdge = u := by
  have hdrive : u.driveQueuedLine = u := by simp [driveQueuedLine, hactive, hqueue]
  rw [receiveLineEdge_eq, hdrive, receiveClockEdge_rest hasync hphase hhigh]
  simp [advanceQueuedReceiveLine, hactive]

/-- One edge, from any state in which nothing is lost. -/
theorem receiveLineEdge_moves {before : List Byte} (henabled : u.receiverEnabled = true)
    (hasync : u.synchronous = false) (hfactor : 2 ≤ u.baudFactor) (hflight : InFlight u before)
    (hserved : u.receiveReady = true → ¬u.completesCharacter) :
    ∃ after, Moves u u.receiveLineEdge before after := by
  cases hflight with
  | none hactive hphase hhigh =>
    cases hqueue : u.queuedReceiveBytes with
    | nil =>
      rw [receiveLineEdge_rest hasync hactive hqueue hphase hhigh]
      refine ⟨[], .none hactive hphase hhigh, rfl, id, ?_⟩
      simp [remainingEdges, hactive, hqueue]
    | cons value rest =>
      rw [receiveLineEdge_eq, beginFrame_drive hactive hqueue]
      have hpending : (u.beginFrame value rest).pending value 0 = [value] := if_pos (Nat.zero_le _)
      obtain ⟨after, hafter⟩ := @OnLine.edge (u.beginFrame value rest) value 0 henabled hasync hfactor
        (beginFrame_onLine value rest) (.waiting hphase rfl) hserved
      rw [hpending] at hafter
      refine ⟨after, hafter.inFlight, ?_, hafter.clean, ?_⟩
      · rw [hqueue]
        exact hafter.bytes
      · rw [hafter.remaining, beginFrame_remaining hasync hactive hqueue]
  | frame value position hline hreceiving hearly =>
    obtain ⟨after, hafter⟩ := hline.edge henabled hasync hfactor hreceiving hserved
    rw [pending, if_pos hearly] at hafter
    exact ⟨after, hafter⟩
  | tail value position hline hreceiving hlate =>
    obtain ⟨after, hafter⟩ := hline.edge henabled hasync hfactor hreceiving hserved
    rw [pending, if_neg (by omega)] at hafter
    exact ⟨after, hafter⟩

/-- What the transmitter, the queue's tail and the guest's reads leave alone. -/
theorem InFlight.aside {inFlight : List Byte} (h : InFlight u inFlight) (t : TransmitState)
    (queue : List Byte) (ready : Bool) :
    InFlight { u.withTransmit t with queuedReceiveBytes := queue, receiveReady := ready }
      inFlight := by
  cases h with
  | none hactive hphase hhigh => exact .none hactive hphase hhigh
  | frame value position hline hreceiving hearly =>
    exact .frame value position
      ⟨hline.active, hline.frame, hline.held, hline.clocks, hline.index⟩
      (hreceiving.transfer (by rfl) (by rfl)) hearly
  | tail value position hline hreceiving hlate =>
    exact .tail value position
      ⟨hline.active, hline.frame, hline.held, hline.clocks, hline.index⟩
      (hreceiving.transfer (by rfl) (by rfl)) hlate

theorem aside_step (op : Op) (haside : op.aside = true) : TransmitStep u (u.apply op) := by
  cases op with
  | read registerIndex =>
    have hstatus : hasBits registerIndex 0x01#8 = true := haside
    simp [apply, read, hstatus, TransmitStep.refl]
  | write registerIndex value =>
    have hdata : (!hasBits registerIndex 0x01#8) = true := haside
    rw [Bool.not_eq_true'] at hdata
    simp only [apply, write, hdata, Bool.false_eq_true, if_false]
    rfl
  | setCtsActive active => rfl
  | setDsrActive active => rfl
  | transmitClockEdge => exact transmitClockEdge_step u
  | takeTransmittedByte => exact takeTransmittedByte_step u
  | reset | setRxd | setSyncDetect | receiveClockEdge | queueReceivedByte
  | clearQueuedReceiveBytes => exact Bool.noConfusion haside

theorem Carried.start (h : ReceiverIdle mode u) : Carried mode u u.queuedReceiveBytes [] := by
  refine ⟨h.enabled, h.modeWord, ⟨h.noParityError, h.noFramingError, h.noOverrunError⟩, [],
    .none h.inactive h.phase h.high, ?_⟩
  simp [unread, h.empty]

theorem Carried.queue (h : Carried mode u accepted received) (value : Byte) :
    Carried mode (u.queueReceivedByte value).2
      (accepted ++ if (u.queueReceivedByte value).1 then [value] else []) received := by
  obtain ⟨henabled, hmode, hclean, inFlight, hflight, hbytes⟩ := h
  by_cases hfull : u.queuedReceiveBytes.length ≥ hostReceiveQueueCapacity
  · simp only [queueReceivedByte, if_pos hfull, Bool.false_eq_true, if_false, List.append_nil]
    exact ⟨henabled, hmode, hclean, inFlight, hflight, hbytes⟩
  · simp only [queueReceivedByte, if_neg hfull, if_true]
    refine ⟨henabled, hmode, hclean, inFlight,
      hflight.aside u.transmitState (u.queuedReceiveBytes ++ [value]) u.receiveReady, ?_⟩
    have hnew : (accepted ++ [value]).map u.character = received ++ (u.unread
        ++ (inFlight ++ (u.queuedReceiveBytes ++ [value])).map u.character) := by
      rw [List.map_append, hbytes]
      simp only [List.map_append, List.append_assoc]
    exact hnew

theorem Carried.read (h : Carried mode u accepted received) (hready : u.rxReady = true) :
    Carried mode (u.read 0#8).2 accepted (received ++ [(u.read 0#8).1]) := by
  obtain ⟨henabled, hmode, hclean, inFlight, hflight, hbytes⟩ := h
  have hread : u.read 0#8 = (u.receiveBuffer, { u with receiveReady := false }) := by
    simp [Uart8251.read, hasBits]
  rw [hread]
  refine ⟨henabled, hmode, hclean, inFlight,
    hflight.aside u.transmitState u.queuedReceiveBytes false, ?_⟩
  have hunread : u.unread = [u.receiveBuffer] := if_pos hready
  have hnew : accepted.map u.character = received ++ [u.receiveBuffer]
      ++ ([] ++ (inFlight ++ u.queuedReceiveBytes).map u.character) := by
    rw [hbytes, hunread, List.nil_append, List.append_assoc]
  exact hnew

theorem Carried.edge (hasync : u.synchronous = false) (hfactor : 2 ≤ u.baudFactor)
    (h : Carried mode u accepted received)
    (hserved : u.rxReady = true → ¬u.completesCharacter) :
    Carried mode u.receiveLineEdge accepted received := by
  obtain ⟨henabled, hmode, hclean, inFlight, hflight, hbytes⟩ := h
  obtain ⟨after, hmoves⟩ := receiveLineEdge_moves henabled hasync hfactor hflight hserved
  obtain ⟨r, hr⟩ : ∃ r, u.receiveLineEdge = u.withReceive r := ⟨_, receiveLineEdge_step u⟩
  rw [hr] at hmoves ⊢
  refine ⟨henabled, hmode, hmoves.clean hclean, after, hmoves.inFlight, ?_⟩
  have hnew : accepted.map u.character = received ++ ((u.withReceive r).unread
      ++ (after ++ (u.withReceive r).queuedReceiveBytes).map u.character) := by
    rw [hmoves.bytes, hbytes]
  exact hnew

theorem Carried.aside (h : Carried mode u accepted received) (op : Op) (haside : op.aside = true) :
    Carried mode (u.apply op) accepted received := by
  obtain ⟨henabled, hmode, hclean, inFlight, hflight, hbytes⟩ := h
  obtain ⟨t, ht⟩ : ∃ t, u.apply op = u.withTransmit t := ⟨_, aside_step op haside⟩
  rw [ht]
  exact ⟨henabled, hmode, hclean, inFlight,
    hflight.aside t u.queuedReceiveBytes u.receiveReady, hbytes⟩

theorem Carried.drained (h : Carried mode u accepted received) (hdrained : u.drained) :
    received = accepted.map u.character := by
  obtain ⟨-, -, -, inFlight, hflight, hbytes⟩ := h
  obtain ⟨hqueue, hactive, hready⟩ := hdrained
  cases hflight with
  | none => simpa [unread, hqueue, hready] using hbytes.symm
  | frame value position hline => simp [hline.active] at hactive
  | tail value position hline => simp [hline.active] at hactive

/-! ## Draining -/

theorem collect_run {start : Uart8251} (h : HostRun start u accepted received) :
    HostRun start u.collect.2 accepted (received ++ u.collect.1) := by
  unfold collect
  split
  · exact .read h ‹_›
  · simpa using h

theorem collect_empty (u : Uart8251) : u.collect.2.receiveReady = false := by
  unfold collect
  split
  · simp [Uart8251.read, hasBits]
  · exact Bool.eq_false_iff.mpr ‹_›

/-- The guest that has just collected is in time for the next character. -/
theorem collect_served (u : Uart8251) :
    u.collect.2.rxReady = true → ¬u.collect.2.completesCharacter := by
  intro hready
  rw [rxReady, collect_empty] at hready
  exact Bool.noConfusion hready

theorem collect_remaining (u : Uart8251) : u.collect.2.remainingEdges = u.remainingEdges := by
  unfold collect
  split
  · simp [Uart8251.read, hasBits]
    rfl
  · rfl

theorem serve_run {start : Uart8251} (edges : Nat) (h : HostRun start u accepted received) :
    HostRun start (u.serve edges).2 accepted (received ++ (u.serve edges).1) := by
  induction edges generalizing u received with
  | zero => exact collect_run h
  | succ edges ih =>
    have hrest := ih (.edge (collect_run h) u.collect_served)
    rw [List.append_assoc] at hrest
    exact hrest

/-- The divisor and the parity of the initial mode word hold throughout. -/
theorem Carried.config {start : Uart8251} (h : Carried mode u accepted received)
    (hidle : ReceiverIdle mode start) :
    u.synchronous = start.synchronous ∧ u.baudFactor = start.baudFactor := by
  simp [synchronous, baudFactor, h.modeWord, hidle.modeWord]

theorem HostRun.carried {start : Uart8251} (hasync : start.synchronous = false)
    (hfactor : 2 ≤ start.baudFactor) (hidle : ReceiverIdle mode start)
    (h : HostRun start u accepted received) : Carried mode u accepted received := by
  induction h with
  | start => exact .start hidle
  | queue value _ ih => exact ih.queue value
  | read _ hready ih => exact ih.read hready
  | edge _ hserved ih =>
    obtain ⟨hsync, hbaud⟩ := ih.config hidle
    exact ih.edge (hsync.trans hasync) (hbaud ▸ hfactor) hserved
  | aside op _ haside ih => exact ih.aside op haside

theorem Carried.edge_remaining (hasync : u.synchronous = false) (hfactor : 2 ≤ u.baudFactor)
    (h : Carried mode u accepted received) (hserved : u.rxReady = true → ¬u.completesCharacter) :
    u.receiveLineEdge.remainingEdges = u.remainingEdges - 1 := by
  obtain ⟨inFlight, hflight, -⟩ := h.bytes
  obtain ⟨after, hmoves⟩ := receiveLineEdge_moves h.enabled hasync hfactor hflight hserved
  exact hmoves.remaining

theorem Carried.drained_of_remaining (h : Carried mode u accepted received)
    (hremaining : u.remainingEdges = 0) (hempty : u.receiveReady = false) : u.drained := by
  obtain ⟨inFlight, hflight, -⟩ := h.bytes
  unfold remainingEdges at hremaining
  have hframe : 0 < u.baudFactor * (u.firstStop + u.stopBits) :=
    Nat.mul_pos (baudFactor_pos u) (Nat.lt_add_right _ (Nat.succ_pos _))
  have hqueue : u.queuedReceiveBytes.length = 0 := by
    rcases Nat.mul_eq_zero.mp (Nat.eq_zero_of_add_eq_zero hremaining).1 with h | h
    · exact h
    · omega
  have hactive : u.queuedReceiveActive = false := by
    cases hflight with
    | none hactive => exact hactive
    | frame value position hline =>
      rw [if_pos hline.active] at hremaining
      have hclocks := hline.clocks
      omega
    | tail value position hline =>
      rw [if_pos hline.active] at hremaining
      have hclocks := hline.clocks
      omega
  exact ⟨List.eq_nil_of_length_eq_zero hqueue, hactive, hempty⟩

/-- Enough edges empty the queue and the line. -/
theorem serve_drained {start : Uart8251} {edges : Nat} (hasync : start.synchronous = false)
    (hfactor : 2 ≤ start.baudFactor) (hidle : ReceiverIdle mode start)
    (h : HostRun start u accepted received) (hedges : u.remainingEdges ≤ edges) :
    (u.serve edges).2.drained := by
  induction edges generalizing u received with
  | zero =>
    have hcarried := (collect_run h).carried hasync hfactor hidle
    refine hcarried.drained_of_remaining ?_ (collect_empty u)
    rw [collect_remaining]
    omega
  | succ edges ih =>
    have hrun := collect_run h
    have hcarried := hrun.carried hasync hfactor hidle
    obtain ⟨hsync, hbaud⟩ := hcarried.config hidle
    have hremaining := hcarried.edge_remaining (hsync.trans hasync) (hbaud ▸ hfactor)
      u.collect_served
    rw [collect_remaining] at hremaining
    have hleft : u.collect.2.receiveLineEdge.remainingEdges ≤ edges := by
      rw [hremaining]
      omega
    exact ih (.edge hrun u.collect_served) hleft

/-! ## Every divisor but x1 -/

/-- Host bytes survive the receiver: in every run the error flags stay clear, what the guest has
read when all is drained is what the host queued, and enough edges drain it. -/
def HostBytesSurvive (start : Uart8251) : Prop :=
  ∀ u accepted received, HostRun start u accepted received →
    u.errorFree ∧ (u.drained → received = accepted.map u.character)
      ∧ ∀ edges, u.remainingEdges ≤ edges → (u.serve edges).2.drained

theorem survive_of_factor {start : Uart8251} (hasync : start.synchronous = false)
    (hfactor : 2 ≤ start.baudFactor) (hidle : ReceiverIdle mode start) : HostBytesSurvive start := by
  intro u accepted received h
  have hcarried := h.carried hasync hfactor hidle
  exact ⟨hcarried.clean, hcarried.drained, fun _ hedges =>
    serve_drained hasync hfactor hidle h hedges⟩

/-- After a reset: the mode word, then a command. -/
def programmed (mode command : Byte) : Uart8251 :=
  (({} : Uart8251).write 1#8 mode).write 1#8 command

theorem programmed_mode (hasync : mode &&& 0x03#8 ≠ 0#8) :
    ({} : Uart8251).write 1#8 mode = { modeWord := mode, initializationPhase := .command } := by
  simp [write, hasBits, writeControl, acceptMode, synchronous, hasync]

theorem programmed_eq {command : Byte} (hasync : mode &&& 0x03#8 ≠ 0#8)
    (hreset : hasBits command 0x40#8 = false) :
    programmed mode command =
      { modeWord := mode, initializationPhase := .command, commandWord := command } := by
  rw [programmed, programmed_mode hasync]
  simp [write, hasBits, writeControl] at hreset ⊢
  simp [acceptCommand, hasBits, hreset, synchronous, hasync]

theorem programmed_receiverIdle {command : Byte} (hasync : mode &&& 0x03#8 ≠ 0#8)
    (hreset : hasBits command 0x40#8 = false) (henable : hasBits command 0x04#8 = true) :
    ReceiverIdle mode (programmed mode command) := by
  rw [programmed_eq hasync hreset]
  exact ⟨by simpa [receiverEnabled] using henable, rfl, rfl, rfl, rfl, rfl, rfl, rfl, rfl⟩

/-- With the divisor x1 the receiver tests the start bit on the first data bit, and misses 0xFF. -/
theorem missed_byte (mode : Byte) (hone : mode &&& 0x03#8 = 1#8) :
    let queued := (programmed mode 0x04#8).queueReceivedByte 0xFF#8
    queued.1 = true ∧ (queued.2.serve 12).1 = [] ∧ (queued.2.serve 12).2.drained := by
  have hall : ∀ mode : Byte, mode &&& 0x03#8 = 1#8 →
      let queued := (programmed mode 0x04#8).queueReceivedByte 0xFF#8
      queued.1 = true ∧ (queued.2.serve 12).1 = []
        ∧ (queued.2.serve 12).2.queuedReceiveBytes = []
        ∧ (queued.2.serve 12).2.queuedReceiveActive = false
        ∧ (queued.2.serve 12).2.receiveReady = false := by
    decide +kernel
  exact hall mode hone

theorem not_survive_x1 (hone : mode &&& 0x03#8 = 1#8) :
    ¬HostBytesSurvive (programmed mode 0x04#8) := by
  intro hsurvive
  obtain ⟨haccepted, hread, hdrained⟩ := missed_byte mode hone
  have hrun := serve_run 12 (.queue 0xFF#8 (@HostRun.start (programmed mode 0x04#8)))
  obtain ⟨-, hall, -⟩ := hsurvive _ _ _ hrun
  have hlength := congrArg List.length (hall hdrained)
  rw [hread, haccepted] at hlength
  simp at hlength

theorem host_bytes_survive_iff (mode : Byte) (hasync : mode &&& 0x03#8 ≠ 0#8) :
    (∀ start, ReceiverIdle mode start → HostBytesSurvive start) ↔ mode &&& 0x03#8 ≠ 1#8 := by
  constructor
  · intro hsurvive hone
    exact not_survive_x1 hone (hsurvive _ (programmed_receiverIdle hasync (by decide) (by decide)))
  · intro hone start hidle
    have hdivisor : ∀ mode : Byte, mode &&& 0x03#8 ≠ 0#8 → mode &&& 0x03#8 ≠ 1#8 →
        2 ≤ baudFactor { modeWord := mode } := by decide +kernel
    have hsync : start.synchronous = false := by
      simpa [synchronous, hidle.modeWord] using hasync
    have hfactor : start.baudFactor = baudFactor { modeWord := mode } := by
      simp [baudFactor, hidle.modeWord]
    exact survive_of_factor hsync (hfactor ▸ hdivisor mode hasync hone) hidle

theorem host_bytes_survive_x16 :
    (0x4E#8 : Byte) &&& 0x03#8 ≠ 0#8 ∧ ∀ start, ReceiverIdle 0x4E#8 start → HostBytesSurvive start :=
  ⟨by decide, (host_bytes_survive_iff 0x4E#8 (by decide)).mpr (by decide)⟩

theorem host_byte_missed : ¬∀ start, ReceiverIdle 0x4D#8 start → HostBytesSurvive start :=
  fun hsurvive => not_survive_x1 (by decide)
    (hsurvive _ (programmed_receiverIdle (by decide) (by decide) (by decide)))

end Uart8251
end FK1
