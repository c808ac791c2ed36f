import FK1.Ppi8255

/-!
# FK1.Uart8251

The 8251 as `uart8251.cpp` computes it: initialization sequence, transmitter and receiver one clock
edge at a time, and the host queues that stand for the other end of the wire.

A frame array together with its size field is the list of its bits.
-/

namespace FK1

inductive InitializationPhase where
  | mode
  | sync1
  | sync2
  | command
  deriving DecidableEq, Repr

inductive ReceivePhase where
  | idle
  | start
  | data
  | parity
  | stop
  | syncData
  | syncParity
  deriving DecidableEq, Repr

structure Uart8251 where
  initializationPhase : InitializationPhase := .mode
  receivePhase : ReceivePhase := .idle
  modeWord : Byte := 0#8
  commandWord : Byte := 0#8
  syncCharacter0 : Byte := 0#8
  syncCharacter1 : Byte := 0#8
  syncCharacterCount : Nat := 0
  syncTransmitIndex : Nat := 0
  syncHuntIndex : Nat := 0
  transmitBuffer : Option Byte := none
  transmitFrame : List Bool := []
  transmitFrameIndex : Nat := 0
  transmitCharacter : Byte := 0#8
  transmitActive : Bool := false
  transmitPayload : Bool := false
  txdHigh : Bool := true
  transmitClockCount : Nat := 0
  transmittedBytes : List Byte := []
  receiveBuffer : Byte := 0#8
  receiveShift : Byte := 0#8
  receiveBitIndex : Nat := 0
  receiveParityOnes : Nat := 0
  receiveClockCount : Nat := 0
  receiveReady : Bool := false
  receiveParityError : Bool := false
  receiveOverrunError : Bool := false
  receiveFramingError : Bool := false
  pendingReceiveParityError : Bool := false
  rxdHigh : Bool := true
  breakDetected : Bool := false
  syncDetected : Bool := false
  syncHunt : Bool := false
  queuedReceiveBytes : List Byte := []
  queuedReceiveFrame : List Bool := []
  queuedReceiveFrameIndex : Nat := 0
  queuedReceiveBitClocks : Nat := 0
  queuedReceiveActive : Bool := false
  ctsActive : Bool := true
  dsrActive : Bool := false
  deriving DecidableEq, Repr

namespace Uart8251

def hostReceiveQueueCapacity : Nat := 4096

def hostTransmitQueueCapacity : Nat := 4096

def reset (_ : Uart8251) : Uart8251 := {}

def characterBits (u : Uart8251) : Nat := 5 + ((u.modeWord >>> 2) &&& 0x03#8).toNat

def baudFactor (u : Uart8251) : Nat :=
  match (u.modeWord &&& 0x03#8).toNat with
  | 2 => 16
  | 3 => 64
  | _ => 1

def synchronous (u : Uart8251) : Bool := u.modeWord &&& 0x03#8 == 0#8

def parityEnabled (u : Uart8251) : Bool := hasBits u.modeWord 0x10#8

def evenParity (u : Uart8251) : Bool := hasBits u.modeWord 0x20#8

def transmitterEnabled (u : Uart8251) : Bool :=
  u.initializationPhase == .command && hasBits u.commandWord 0x01#8

def receiverEnabled (u : Uart8251) : Bool :=
  u.initializationPhase == .command && hasBits u.commandWord 0x04#8

/-- `(1U << character_bits()) - 1U`. -/
def characterMask (u : Uart8251) : Byte := BitVec.ofNat 8 (2 ^ u.characterBits - 1)

def txReady (u : Uart8251) : Bool :=
  u.transmitterEnabled && u.ctsActive && u.transmitBuffer.isNone

def rxReady (u : Uart8251) : Bool := u.receiveReady

def txd (u : Uart8251) : Bool := u.txdHigh

def interruptRequested (u : Uart8251) : Bool := u.txReady || u.rxReady

/-- One status bit: `value |= mask` when the condition holds. -/
def statusBit (condition : Bool) (mask : Byte) : Byte := if condition then mask else 0#8

def status (u : Uart8251) : Byte :=
  statusBit u.txReady 0x01#8
    ||| statusBit u.receiveReady 0x02#8
    ||| statusBit (u.transmitBuffer.isNone && (!u.transmitActive || !u.transmitPayload)) 0x04#8
    ||| statusBit u.receiveParityError 0x08#8
    ||| statusBit u.receiveOverrunError 0x10#8
    ||| statusBit u.receiveFramingError 0x20#8
    ||| statusBit (if u.synchronous then u.syncDetected else u.breakDetected) 0x40#8
    ||| statusBit u.dsrActive 0x80#8

def read (u : Uart8251) (registerIndex : Byte) : Byte × Uart8251 :=
  if hasBits registerIndex 0x01#8 then (u.status, u)
  else (u.receiveBuffer, { u with receiveReady := false })

def acceptMode (u : Uart8251) (value : Byte) : Uart8251 :=
  let u := { u with
    modeWord := value
    commandWord := 0#8
    transmitBuffer := none
    transmitActive := false
    receiveReady := false
    receivePhase := .idle
    syncDetected := false
    syncHunt := false
    syncCharacterCount := 0 }
  { u with initializationPhase := if u.synchronous then .sync1 else .command }

def acceptCommand (u : Uart8251) (value : Byte) : Uart8251 :=
  if hasBits value 0x40#8 then
    -- Reset also clears the host serializer: an idle line, not a bit of the discarded frame.
    let rxd := if u.queuedReceiveActive then true else u.rxdHigh
    { u.reset with ctsActive := u.ctsActive, dsrActive := u.dsrActive, rxdHigh := rxd }
  else
    let u := { u with commandWord := value }
    let u := if hasBits value 0x10#8 then
        { u with
          receiveParityError := false
          receiveOverrunError := false
          receiveFramingError := false
          breakDetected := false }
      else u
    let u := if u.synchronous && hasBits value 0x80#8 then
        { u with
          syncHunt := true
          syncDetected := false
          syncHuntIndex := 0
          receivePhase := .syncData
          receiveBitIndex := 0
          receiveShift := 0#8 }
      else u
    let u := if !u.transmitterEnabled then { u with txdHigh := true } else u
    if !u.receiverEnabled then { u with receivePhase := .idle } else u

def writeControl (u : Uart8251) (value : Byte) : Uart8251 :=
  match u.initializationPhase with
  | .mode => u.acceptMode value
  | .sync1 =>
    { u with
      syncCharacter0 := value
      syncCharacterCount := 1
      initializationPhase := if hasBits u.modeWord 0x80#8 then .command else .sync2 }
  | .sync2 =>
    { u with syncCharacter1 := value, syncCharacterCount := 2, initializationPhase := .command }
  | .command => u.acceptCommand value

def write (u : Uart8251) (registerIndex value : Byte) : Uart8251 :=
  if hasBits registerIndex 0x01#8 then u.writeControl value
  else { u with transmitBuffer := some (value &&& u.characterMask) }

def setCtsActive (u : Uart8251) (active : Bool) : Uart8251 := { u with ctsActive := active }

def setDsrActive (u : Uart8251) (active : Bool) : Uart8251 := { u with dsrActive := active }

def setRxd (u : Uart8251) (high : Bool) : Uart8251 := { u with rxdHigh := high }

def setSyncDetect (u : Uart8251) (active : Bool) : Uart8251 :=
  let u := { u with syncDetected := active }
  if active then { u with syncHunt := false } else u

/-! ## Frames -/

/-- The data bits of `value`, least significant first. -/
def dataBits (u : Uart8251) (value : Byte) : List Bool :=
  (List.range u.characterBits).map fun bit => hasBits value (bitMask bit)

/-- The parity bit for a character with `ones` high data bits. -/
def parityHigh (u : Uart8251) (ones : Nat) : Bool :=
  if u.evenParity then ones % 2 != 0 else ones % 2 == 0

def stopBits (u : Uart8251) : Nat := if ((u.modeWord >>> 6) &&& 0x03#8).toNat ≤ 1 then 1 else 2

/-- The bits `build_transmit_frame` and `start_queued_receive_frame` both lay out. -/
def frameBits (u : Uart8251) (value : Byte) : List Bool :=
  (if u.synchronous then [] else [false])
    ++ u.dataBits value
    ++ (if u.parityEnabled then [u.parityHigh ((u.dataBits value).count true)] else [])
    ++ (if u.synchronous then [] else List.replicate u.stopBits true)

def buildTransmitFrame (u : Uart8251) (value : Byte) (payload : Bool) : Uart8251 :=
  { u with
    transmitFrame := u.frameBits value
    transmitFrameIndex := 0
    transmitCharacter := value
    transmitPayload := payload
    transmitActive := true }

/-- `sync_characters_[index]`. -/
def syncCharacter (u : Uart8251) (index : Nat) : Byte :=
  if index = 0 then u.syncCharacter0 else u.syncCharacter1

/-! ## Transmitter -/

/-- The completed frame, if any, leaves the shift register. -/
def finishTransmitFrame (u : Uart8251) : Uart8251 :=
  if u.transmitActive && u.transmitFrame.length ≤ u.transmitFrameIndex then
    let u := if u.transmitPayload && u.transmittedBytes.length < hostTransmitQueueCapacity then
        { u with transmittedBytes := u.transmittedBytes ++ [u.transmitCharacter] }
      else u
    { u with transmitActive := false }
  else u

/-- `txd_high_ = transmit_frame_[transmit_frame_index_]` and the increment. -/
def shiftTransmitBit (u : Uart8251) : Uart8251 :=
  { u with
    txdHigh := u.transmitFrame.getD u.transmitFrameIndex false
    transmitFrameIndex := u.transmitFrameIndex + 1 }

def advanceTransmitter (u : Uart8251) : Uart8251 :=
  let u := u.finishTransmitFrame
  if u.transmitActive then u.shiftTransmitBit
  else if !u.transmitterEnabled || !u.ctsActive then { u with txdHigh := true }
  else match u.transmitBuffer with
    | some value => ({ u with transmitBuffer := none }.buildTransmitFrame value true).shiftTransmitBit
    | none =>
      if u.synchronous && u.syncCharacterCount != 0 then
        let value := u.syncCharacter u.syncTransmitIndex
        let u := { u with syncTransmitIndex := (u.syncTransmitIndex + 1) % u.syncCharacterCount }
        (u.buildTransmitFrame value false).shiftTransmitBit
      else { u with txdHigh := true }

def transmitClockEdge (u : Uart8251) : Uart8251 :=
  if hasBits u.commandWord 0x08#8 then { u with txdHigh := false }
  else if u.transmitClockCount + 1 ≥ u.baudFactor then
    { u with transmitClockCount := 0 }.advanceTransmitter
  else { u with transmitClockCount := u.transmitClockCount + 1 }

def clockTransmit (u : Uart8251) : Nat → Uart8251
  | 0 => u
  | edges + 1 => clockTransmit u.transmitClockEdge edges

/-! ## Receiver -/

def receiveByte (u : Uart8251) (value : Byte) (parityError framingError : Bool) : Uart8251 :=
  if !u.receiverEnabled then u
  else if u.receiveReady then { u with receiveOverrunError := true }
  else
    let u := { u with
      receiveBuffer := value &&& u.characterMask
      receiveReady := true
      receiveParityError := u.receiveParityError || parityError
      receiveFramingError := u.receiveFramingError || framingError }
    if framingError && u.receiveBuffer == 0#8 then { u with breakDetected := true } else u

/-- One data bit of the line goes into the receive shift register. -/
def shiftReceiveBit (u : Uart8251) : Uart8251 :=
  let u := if u.rxdHigh then
      { u with
        receiveShift := u.receiveShift ||| bitMask u.receiveBitIndex
        receiveParityOnes := u.receiveParityOnes + 1 }
    else u
  { u with receiveBitIndex := u.receiveBitIndex + 1 }

def sampleAsyncReceive (u : Uart8251) : Uart8251 :=
  match u.receivePhase with
  | .start =>
    if u.rxdHigh then { u with receivePhase := .idle }
    else
      { u with
        receivePhase := .data
        receiveShift := 0#8
        receiveBitIndex := 0
        receiveParityOnes := 0
        pendingReceiveParityError := false }
  | .data =>
    let u := u.shiftReceiveBit
    if u.receiveBitIndex ≥ u.characterBits then
      { u with receivePhase := if u.parityEnabled then .parity else .stop }
    else u
  | .parity =>
    { u with
      pendingReceiveParityError := u.rxdHigh != u.parityHigh u.receiveParityOnes
      receivePhase := .stop }
  | .stop =>
    { u.receiveByte u.receiveShift u.pendingReceiveParityError (!u.rxdHigh) with receivePhase := .idle }
  | _ => { u with receivePhase := .idle }

def finishSyncCharacter (u : Uart8251) : Uart8251 :=
  let u :=
    if u.syncHunt && u.syncCharacterCount != 0 then
      if u.receiveShift == u.syncCharacter u.syncHuntIndex then
        let u := { u with syncHuntIndex := u.syncHuntIndex + 1 }
        if u.syncHuntIndex ≥ u.syncCharacterCount then
          { u with syncDetected := true, syncHunt := false, syncHuntIndex := 0 }
        else u
      else { u with syncHuntIndex := if u.receiveShift == u.syncCharacter 0 then 1 else 0 }
    else u.receiveByte u.receiveShift u.pendingReceiveParityError false
  { u with
    receivePhase := .syncData
    receiveShift := 0#8
    receiveBitIndex := 0
    receiveParityOnes := 0
    pendingReceiveParityError := false }

def sampleSyncReceive (u : Uart8251) : Uart8251 :=
  let u := if u.receivePhase != .syncData && u.receivePhase != .syncParity then
      { u with
        receivePhase := .syncData
        receiveShift := 0#8
        receiveBitIndex := 0
        receiveParityOnes := 0 }
    else u
  if u.receivePhase == .syncData then
    let u := u.shiftReceiveBit
    if u.receiveBitIndex ≥ u.characterBits then
      if u.parityEnabled then { u with receivePhase := .syncParity } else u.finishSyncCharacter
    else u
  else
    { u with
      pendingReceiveParityError := u.rxdHigh != u.parityHigh u.receiveParityOnes }.finishSyncCharacter

def receiveClockEdge (u : Uart8251) : Uart8251 :=
  if !u.receiverEnabled then u
  else if u.synchronous then u.sampleSyncReceive
  else if u.receivePhase == .idle then
    if !u.rxdHigh then
      { u with
        receivePhase := .start
        receiveClockCount := if u.baudFactor > 1 then u.baudFactor / 2 else 1 }
    else u
  else if u.receiveClockCount > 1 then { u with receiveClockCount := u.receiveClockCount - 1 }
  else { u with receiveClockCount := u.baudFactor }.sampleAsyncReceive

/-! ## The host side of the line -/

def startQueuedReceiveFrame (u : Uart8251) : Uart8251 :=
  match u.queuedReceiveBytes with
  | [] => u
  | value :: rest =>
    { u with
      queuedReceiveBytes := rest
      queuedReceiveFrame := u.frameBits value
      queuedReceiveFrameIndex := 0
      queuedReceiveBitClocks := u.baudFactor
      queuedReceiveActive := true }

def advanceQueuedReceiveLine (u : Uart8251) : Uart8251 :=
  if !u.queuedReceiveActive then u
  else if u.queuedReceiveBitClocks > 1 then
    { u with queuedReceiveBitClocks := u.queuedReceiveBitClocks - 1 }
  else if u.queuedReceiveFrameIndex + 1 ≥ u.queuedReceiveFrame.length then
    { u with
      queuedReceiveActive := false
      queuedReceiveFrame := []
      queuedReceiveFrameIndex := 0
      queuedReceiveBitClocks := 0
      rxdHigh := true }
  else
    { u with
      queuedReceiveFrameIndex := u.queuedReceiveFrameIndex + 1
      queuedReceiveBitClocks := u.baudFactor }

/-- One turn of the loop of `clock_receive`. -/
def receiveLineEdge (u : Uart8251) : Uart8251 :=
  let u := if !u.queuedReceiveActive && !u.queuedReceiveBytes.isEmpty then u.startQueuedReceiveFrame
    else u
  let u := if u.queuedReceiveActive then
      { u with rxdHigh := u.queuedReceiveFrame.getD u.queuedReceiveFrameIndex false }
    else u
  u.receiveClockEdge.advanceQueuedReceiveLine

def clockReceive (u : Uart8251) : Nat → Uart8251
  | 0 => u
  | edges + 1 => clockReceive u.receiveLineEdge edges

def queueReceivedByte (u : Uart8251) (value : Byte) : Bool × Uart8251 :=
  if u.queuedReceiveBytes.length ≥ hostReceiveQueueCapacity then (false, u)
  else (true, { u with queuedReceiveBytes := u.queuedReceiveBytes ++ [value] })

def clearQueuedReceiveBytes (u : Uart8251) : Uart8251 :=
  { u with
    queuedReceiveBytes := []
    queuedReceiveFrame := []
    queuedReceiveFrameIndex := 0
    queuedReceiveBitClocks := 0
    queuedReceiveActive := false
    receivePhase := .idle
    receiveClockCount := 0
    pendingReceiveParityError := false
    rxdHigh := true }

def takeTransmittedByte (u : Uart8251) : Option Byte × Uart8251 :=
  match u.transmittedBytes with
  | [] => (none, u)
  | value :: rest => (some value, { u with transmittedBytes := rest })

end Uart8251
end FK1
