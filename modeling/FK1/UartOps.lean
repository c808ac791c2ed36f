import FK1.Uart8251

/-!
# FK1.UartOps

The public operations of `Uart8251` as one type, and the two halves of the chip: what the receiver
and the transmitter each leave alone.
-/

namespace FK1
namespace Uart8251

inductive Op where
  | reset
  | read (registerIndex : Byte)
  | write (registerIndex value : Byte)
  | setCtsActive (active : Bool)
  | setDsrActive (active : Bool)
  | setRxd (high : Bool)
  | setSyncDetect (active : Bool)
  | transmitClockEdge
  | receiveClockEdge
  | queueReceivedByte (value : Byte)
  | clearQueuedReceiveBytes
  | takeTransmittedByte
  deriving DecidableEq, Repr

def apply (u : Uart8251) : Op → Uart8251
  | .reset => u.reset
  | .read registerIndex => (u.read registerIndex).2
  | .write registerIndex value => u.write registerIndex value
  | .setCtsActive active => u.setCtsActive active
  | .setDsrActive active => u.setDsrActive active
  | .setRxd high => u.setRxd high
  | .setSyncDetect active => u.setSyncDetect active
  | .transmitClockEdge => u.transmitClockEdge
  | .receiveClockEdge => u.receiveLineEdge
  | .queueReceivedByte value => (u.queueReceivedByte value).2
  | .clearQueuedReceiveBytes => u.clearQueuedReceiveBytes
  | .takeTransmittedByte => u.takeTransmittedByte.2

/-! ## The receiver's half -/

structure ReceiveState where
  receivePhase : ReceivePhase
  syncHuntIndex : Nat
  receiveBuffer : Byte
  receiveShift : Byte
  receiveBitIndex : Nat
  receiveParityOnes : Nat
  receiveClockCount : Nat
  receiveReady : Bool
  receiveParityError : Bool
  receiveOverrunError : Bool
  receiveFramingError : Bool
  pendingReceiveParityError : Bool
  rxdHigh : Bool
  breakDetected : Bool
  syncDetected : Bool
  syncHunt : Bool
  queuedReceiveBytes : List Byte
  queuedReceiveFrame : List Bool
  queuedReceiveFrameIndex : Nat
  queuedReceiveBitClocks : Nat
  queuedReceiveActive : Bool

def receiveState (u : Uart8251) : ReceiveState :=
  { receivePhase := u.receivePhase
    syncHuntIndex := u.syncHuntIndex
    receiveBuffer := u.receiveBuffer
    receiveShift := u.receiveShift
    receiveBitIndex := u.receiveBitIndex
    receiveParityOnes := u.receiveParityOnes
    receiveClockCount := u.receiveClockCount
    receiveReady := u.receiveReady
    receiveParityError := u.receiveParityError
    receiveOverrunError := u.receiveOverrunError
    receiveFramingError := u.receiveFramingError
    pendingReceiveParityError := u.pendingReceiveParityError
    rxdHigh := u.rxdHigh
    breakDetected := u.breakDetected
    syncDetected := u.syncDetected
    syncHunt := u.syncHunt
    queuedReceiveBytes := u.queuedReceiveBytes
    queuedReceiveFrame := u.queuedReceiveFrame
    queuedReceiveFrameIndex := u.queuedReceiveFrameIndex
    queuedReceiveBitClocks := u.queuedReceiveBitClocks
    queuedReceiveActive := u.queuedReceiveActive }

def withReceive (u : Uart8251) (r : ReceiveState) : Uart8251 :=
  { u with
    receivePhase := r.receivePhase
    syncHuntIndex := r.syncHuntIndex
    receiveBuffer := r.receiveBuffer
    receiveShift := r.receiveShift
    receiveBitIndex := r.receiveBitIndex
    receiveParityOnes := r.receiveParityOnes
    receiveClockCount := r.receiveClockCount
    receiveReady := r.receiveReady
    receiveParityError := r.receiveParityError
    receiveOverrunError := r.receiveOverrunError
    receiveFramingError := r.receiveFramingError
    pendingReceiveParityError := r.pendingReceiveParityError
    rxdHigh := r.rxdHigh
    breakDetected := r.breakDetected
    syncDetected := r.syncDetected
    syncHunt := r.syncHunt
    queuedReceiveBytes := r.queuedReceiveBytes
    queuedReceiveFrame := r.queuedReceiveFrame
    queuedReceiveFrameIndex := r.queuedReceiveFrameIndex
    queuedReceiveBitClocks := r.queuedReceiveBitClocks
    queuedReceiveActive := r.queuedReceiveActive }

/-- From `u` to `u'` only the receiver has moved. -/
def ReceiveStep (u u' : Uart8251) : Prop := u' = u.withReceive u'.receiveState

variable {u u' u'' : Uart8251}

theorem ReceiveStep.refl (u : Uart8251) : ReceiveStep u u := rfl

theorem ReceiveStep.trans (h : ReceiveStep u u') (h' : ReceiveStep u' u'') : ReceiveStep u u'' := by
  obtain ⟨r, rfl⟩ : ∃ r, u' = u.withReceive r := ⟨_, h⟩
  exact h'

/-- The receiver's registers of `r`, the serializer and RxD as they are. -/
def withSampler (u : Uart8251) (r : ReceiveState) : Uart8251 :=
  u.withReceive { r with
    rxdHigh := u.rxdHigh
    queuedReceiveBytes := u.queuedReceiveBytes
    queuedReceiveFrame := u.queuedReceiveFrame
    queuedReceiveFrameIndex := u.queuedReceiveFrameIndex
    queuedReceiveBitClocks := u.queuedReceiveBitClocks
    queuedReceiveActive := u.queuedReceiveActive }

/-- From `u` to `u'` the receiver has sampled: the serializer and RxD have not moved. -/
def SampleStep (u u' : Uart8251) : Prop := u' = u.withSampler u'.receiveState

theorem SampleStep.refl (u : Uart8251) : SampleStep u u := rfl

theorem SampleStep.trans (h : SampleStep u u') (h' : SampleStep u' u'') : SampleStep u u'' := by
  obtain ⟨r, rfl⟩ : ∃ r, u' = u.withSampler r := ⟨_, h⟩
  exact h'

theorem SampleStep.receive (h : SampleStep u u') : ReceiveStep u u' := by
  obtain ⟨r, rfl⟩ : ∃ r, u' = u.withSampler r := ⟨_, h⟩
  rfl

theorem receiveByte_step (u : Uart8251) (value : Byte) (parityError framingError : Bool) :
    SampleStep u (u.receiveByte value parityError framingError) := by
  unfold receiveByte
  split
  · exact .refl u
  · split
    · rfl
    · dsimp only
      split <;> rfl

theorem shiftReceiveBit_step (u : Uart8251) : SampleStep u u.shiftReceiveBit := by
  unfold shiftReceiveBit
  dsimp only
  split <;> rfl

theorem sampleAsyncReceive_step (u : Uart8251) : SampleStep u u.sampleAsyncReceive := by
  unfold sampleAsyncReceive
  split
  · split <;> rfl
  · refine (shiftReceiveBit_step u).trans ?_
    dsimp only
    split <;> rfl
  · rfl
  · exact (receiveByte_step u _ _ _).trans rfl
  · rfl

theorem finishSyncCharacter_step (u : Uart8251) : SampleStep u u.finishSyncCharacter := by
  unfold finishSyncCharacter
  split
  · split
    · dsimp only
      split <;> rfl
    · rfl
  · exact (receiveByte_step u _ _ _).trans rfl

/-- The start of `sample_sync_receive`: outside a character the next one starts. -/
def startSyncCharacter (u : Uart8251) : Uart8251 :=
  if u.receivePhase != .syncData && u.receivePhase != .syncParity then
    { u with
      receivePhase := .syncData
      receiveShift := 0#8
      receiveBitIndex := 0
      receiveParityOnes := 0 }
  else u

/-- `sample_sync_receive` inside a character. -/
def takeSyncBit (u : Uart8251) : Uart8251 :=
  if u.receivePhase == .syncData then
    let u := u.shiftReceiveBit
    if u.receiveBitIndex ≥ u.characterBits then
      if u.parityEnabled then { u with receivePhase := .syncParity } else u.finishSyncCharacter
    else u
  else
    { u with
      pendingReceiveParityError := u.rxdHigh != u.parityHigh u.receiveParityOnes }.finishSyncCharacter

theorem sampleSyncReceive_eq (u : Uart8251) :
    u.sampleSyncReceive = u.startSyncCharacter.takeSyncBit := rfl

theorem takeSyncBit_step (u : Uart8251) : SampleStep u u.takeSyncBit := by
  unfold takeSyncBit
  split
  · refine (shiftReceiveBit_step u).trans ?_
    dsimp only
    split
    · split
      · rfl
      · exact finishSyncCharacter_step _
    · exact .refl _
  · exact @SampleStep.trans u { u with
      pendingReceiveParityError := u.rxdHigh != u.parityHigh u.receiveParityOnes } _ rfl
      (finishSyncCharacter_step _)

theorem sampleSyncReceive_step (u : Uart8251) : SampleStep u u.sampleSyncReceive := by
  have hstart : SampleStep u u.startSyncCharacter := by
    unfold startSyncCharacter
    split <;> rfl
  rw [sampleSyncReceive_eq]
  exact hstart.trans (takeSyncBit_step _)

theorem receiveClockEdge_step (u : Uart8251) : SampleStep u u.receiveClockEdge := by
  unfold receiveClockEdge
  split
  · exact .refl u
  · split
    · exact sampleSyncReceive_step u
    · split
      · split <;> rfl
      · split
        · rfl
        · exact @SampleStep.trans u { u with receiveClockCount := u.baudFactor } _ rfl
            (sampleAsyncReceive_step _)

theorem advanceQueuedReceiveLine_step (u : Uart8251) : ReceiveStep u u.advanceQueuedReceiveLine := by
  unfold advanceQueuedReceiveLine
  split
  · exact .refl u
  · split
    · rfl
    · split <;> rfl

theorem startQueuedReceiveFrame_step (u : Uart8251) : ReceiveStep u u.startQueuedReceiveFrame := by
  unfold startQueuedReceiveFrame
  split <;> rfl

/-- The line at the start of a turn of `clock_receive`. -/
def driveQueuedLine (u : Uart8251) : Uart8251 :=
  let u := if !u.queuedReceiveActive && !u.queuedReceiveBytes.isEmpty then u.startQueuedReceiveFrame
    else u
  if u.queuedReceiveActive then
    { u with rxdHigh := u.queuedReceiveFrame.getD u.queuedReceiveFrameIndex false }
  else u

theorem receiveLineEdge_eq (u : Uart8251) :
    u.receiveLineEdge = u.driveQueuedLine.receiveClockEdge.advanceQueuedReceiveLine := rfl

theorem driveQueuedLine_step (u : Uart8251) : ReceiveStep u u.driveQueuedLine := by
  have hdrive : ∀ v : Uart8251, ReceiveStep v (if v.queuedReceiveActive then
      { v with rxdHigh := v.queuedReceiveFrame.getD v.queuedReceiveFrameIndex false } else v) := by
    intro v
    split <;> rfl
  unfold driveQueuedLine
  refine ReceiveStep.trans ?_ (hdrive _)
  split
  · exact startQueuedReceiveFrame_step u
  · exact .refl u

theorem receiveLineEdge_step (u : Uart8251) : ReceiveStep u u.receiveLineEdge :=
  (driveQueuedLine_step u).trans
    ((receiveClockEdge_step _).receive.trans (advanceQueuedReceiveLine_step _))

theorem read_step (u : Uart8251) (registerIndex : Byte) :
    ReceiveStep u (u.read registerIndex).2 := by
  unfold read
  split <;> rfl

theorem queueReceivedByte_step (u : Uart8251) (value : Byte) :
    ReceiveStep u (u.queueReceivedByte value).2 := by
  unfold queueReceivedByte
  split <;> rfl

theorem setSyncDetect_step (u : Uart8251) (active : Bool) : ReceiveStep u (u.setSyncDetect active) := by
  unfold setSyncDetect
  dsimp only
  split <;> rfl

/-! ## The transmitter's half -/

structure TransmitState where
  syncTransmitIndex : Nat
  transmitBuffer : Option Byte
  transmitFrame : List Bool
  transmitFrameIndex : Nat
  transmitCharacter : Byte
  transmitActive : Bool
  transmitPayload : Bool
  txdHigh : Bool
  transmitClockCount : Nat
  transmittedBytes : List Byte
  ctsActive : Bool
  dsrActive : Bool

def transmitState (u : Uart8251) : TransmitState :=
  { syncTransmitIndex := u.syncTransmitIndex
    transmitBuffer := u.transmitBuffer
    transmitFrame := u.transmitFrame
    transmitFrameIndex := u.transmitFrameIndex
    transmitCharacter := u.transmitCharacter
    transmitActive := u.transmitActive
    transmitPayload := u.transmitPayload
    txdHigh := u.txdHigh
    transmitClockCount := u.transmitClockCount
    transmittedBytes := u.transmittedBytes
    ctsActive := u.ctsActive
    dsrActive := u.dsrActive }

def withTransmit (u : Uart8251) (t : TransmitState) : Uart8251 :=
  { u with
    syncTransmitIndex := t.syncTransmitIndex
    transmitBuffer := t.transmitBuffer
    transmitFrame := t.transmitFrame
    transmitFrameIndex := t.transmitFrameIndex
    transmitCharacter := t.transmitCharacter
    transmitActive := t.transmitActive
    transmitPayload := t.transmitPayload
    txdHigh := t.txdHigh
    transmitClockCount := t.transmitClockCount
    transmittedBytes := t.transmittedBytes
    ctsActive := t.ctsActive
    dsrActive := t.dsrActive }

/-- From `u` to `u'` only the transmitter and the modem lines have moved. -/
def TransmitStep (u u' : Uart8251) : Prop := u' = u.withTransmit u'.transmitState

theorem TransmitStep.refl (u : Uart8251) : TransmitStep u u := rfl

theorem TransmitStep.trans (h : TransmitStep u u') (h' : TransmitStep u' u'') :
    TransmitStep u u'' := by
  obtain ⟨t, rfl⟩ : ∃ t, u' = u.withTransmit t := ⟨_, h⟩
  exact h'

theorem finishTransmitFrame_step (u : Uart8251) : TransmitStep u u.finishTransmitFrame := by
  unfold finishTransmitFrame
  split
  · dsimp only
    split <;> rfl
  · exact .refl u

/-- `advance_transmitter` after the completed frame has left the shift register. -/
def shiftOrLoad (u : Uart8251) : Uart8251 :=
  if u.transmitActive then u.shiftTransmitBit
  else if !u.transmitterEnabled || !u.ctsActive then { u with txdHigh := true }
  else match u.transmitBuffer with
    | some value => ({ u with transmitBuffer := none }.buildTransmitFrame value true).shiftTransmitBit
    | none =>
      if u.synchronous && u.syncCharacterCount != 0 then
        let value := u.syncCharacter u.syncTransmitIndex
        let u := { u with syncTransmitIndex := (u.syncTransmitIndex + 1) % u.syncCharacterCount }
        (u.buildTransmitFrame value false).shiftTransmitBit
      else { u with txdHigh := true }

theorem advanceTransmitter_eq (u : Uart8251) :
    u.advanceTransmitter = u.finishTransmitFrame.shiftOrLoad := rfl

theorem shiftOrLoad_step (u : Uart8251) : TransmitStep u u.shiftOrLoad := by
  unfold shiftOrLoad
  split
  · rfl
  · split
    · rfl
    · split
      · rfl
      · split <;> rfl

theorem advanceTransmitter_step (u : Uart8251) : TransmitStep u u.advanceTransmitter :=
  (finishTransmitFrame_step u).trans (shiftOrLoad_step _)

theorem transmitClockEdge_step (u : Uart8251) : TransmitStep u u.transmitClockEdge := by
  unfold transmitClockEdge
  split
  · rfl
  · split
    · exact @TransmitStep.trans u { u with transmitClockCount := 0 } _ rfl
        (advanceTransmitter_step _)
    · rfl

theorem shiftOrLoad_cts (u : Uart8251) : u.shiftOrLoad.ctsActive = u.ctsActive := by
  unfold shiftOrLoad
  split
  · rfl
  · split
    · rfl
    · split
      · rfl
      · split <;> rfl

theorem transmitClockEdge_cts (u : Uart8251) : u.transmitClockEdge.ctsActive = u.ctsActive := by
  have hfinish : ∀ v : Uart8251, v.finishTransmitFrame.ctsActive = v.ctsActive := by
    intro v
    unfold finishTransmitFrame
    split
    · dsimp only
      split <;> rfl
    · rfl
  unfold transmitClockEdge
  split
  · rfl
  · split
    · rw [advanceTransmitter_eq, shiftOrLoad_cts, hfinish]
    · rfl

theorem takeTransmittedByte_eq (u : Uart8251) :
    u.takeTransmittedByte
      = (u.transmittedBytes.head?, { u with transmittedBytes := u.transmittedBytes.tail }) := by
  unfold takeTransmittedByte
  cases hbytes : u.transmittedBytes with
  | nil =>
    have hempty : u = { u with transmittedBytes := [] } := by rw [← hbytes]
    exact congrArg (Prod.mk none) hempty
  | cons byte rest => rfl

theorem takeTransmittedByte_step (u : Uart8251) : TransmitStep u u.takeTransmittedByte.2 := by
  unfold takeTransmittedByte
  split <;> rfl

/-! ## Beside the transmitter -/

/-- Operations that leave the transmitter, its enables and the mode alone; CTS may change. -/
def Op.besideTransmitter : Op → Bool
  | .reset | .write _ _ | .transmitClockEdge => false
  | _ => true

/-- What the host takes. -/
def Op.taken (u : Uart8251) : Op → List Byte
  | .takeTransmittedByte => u.takeTransmittedByte.1.toList
  | _ => []

/-- The host queue and the modem lines of a transmitter. -/
def withModem (u : Uart8251) (bytes : List Byte) (cts dsr : Bool) : Uart8251 :=
  { u with transmittedBytes := bytes, ctsActive := cts, dsrActive := dsr }

theorem beside_step (op : Op) (hop : op.besideTransmitter = true) :
    ∃ r bytes cts dsr, u.apply op = (u.withReceive r).withModem bytes cts dsr
      ∧ u.transmittedBytes = op.taken u ++ bytes := by
  have hreceive : ∀ {v : Uart8251}, ReceiveStep u v →
      ∃ r bytes cts dsr, v = (u.withReceive r).withModem bytes cts dsr
        ∧ u.transmittedBytes = [] ++ bytes :=
    fun {v} h => ⟨v.receiveState, u.transmittedBytes, u.ctsActive, u.dsrActive, h, rfl⟩
  cases op with
  | read registerIndex => exact hreceive (read_step u registerIndex)
  | setCtsActive active => exact ⟨u.receiveState, u.transmittedBytes, active, u.dsrActive, rfl, rfl⟩
  | setDsrActive active => exact ⟨u.receiveState, u.transmittedBytes, u.ctsActive, active, rfl, rfl⟩
  | setRxd high => exact hreceive rfl
  | setSyncDetect active => exact hreceive (setSyncDetect_step u active)
  | receiveClockEdge => exact hreceive (receiveLineEdge_step u)
  | queueReceivedByte value => exact hreceive (queueReceivedByte_step u value)
  | clearQueuedReceiveBytes => exact hreceive rfl
  | takeTransmittedByte =>
    refine ⟨u.receiveState, u.takeTransmittedByte.2.transmittedBytes, u.ctsActive, u.dsrActive, ?_, ?_⟩
    · simp only [apply, takeTransmittedByte]
      split <;> rfl
    · simp only [Op.taken, takeTransmittedByte]
      split <;> simp [*]
  | reset | write | transmitClockEdge => exact Bool.noConfusion hop

end Uart8251
end FK1
