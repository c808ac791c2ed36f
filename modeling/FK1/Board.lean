import FK1.Pit8253
import FK1.Uart8251
import FK1.Keyboard
import FK1.InterruptController3214
import FK1.Floppy

/-!
# FK1.Board

Everything of `Machine` except the CPU: memories, the peripheral state, and the functions of
`machine.cpp` that work on them. `FK1.Machine` adds the CPU and `run_cycles`.

`trace` is a ghost: the functions append to it what claims about whole runs count (edges and pulses
of counter 2, bytes strobed, clock pulses, cells written), and no function reads it.
-/

namespace FK1

inductive MemoryMap where
  | romVideo
  | ram
  deriving DecidableEq, Repr

inductive MouseButton where
  | button1
  | button2
  deriving DecidableEq, Repr

abbrev Pixel := BitVec 32

/-! ## Constants -/

def masterTicksPerCpuCycle : Nat := 3

def masterTicksPerFrame : Nat := 240000

def mouseEdgeIntervalTicks : Nat := 12000

/-- `std::numeric_limits<std::uint64_t>::max()`. -/
def maxUint64 : Nat := 2 ^ 64 - 1

/-! ## State -/

structure DiskAuxControl where
  readEnabled : Bool := false
  writeEnabled : Bool := false
  dataMarkSelected : Bool := false
  formatEnabled : Bool := false
  deriving DecidableEq, Repr

namespace DiskAuxControl

def reset (_ : DiskAuxControl) : DiskAuxControl := {}

def write (_ : DiskAuxControl) (value : Byte) : DiskAuxControl :=
  { readEnabled := hasBits value 0x01#8
    writeEnabled := hasBits value 0x02#8
    dataMarkSelected := hasBits value 0x04#8
    formatEnabled := hasBits value 0x10#8 }

end DiskAuxControl

/-- The disk controller's own flip-flops: the `disk_…` members of `PeripheralState`. -/
structure DiskState where
  aux : DiskAuxControl := {}
  timingEnabled : Bool := false
  syncLatch : Bool := false
  dataInterruptLevel : Bool := false
  suppressByteCounterOnce : Bool := false
  ordinaryWriteActive : Bool := false
  formatWriteActive : Bool := false
  lastByteTick : Nat := 0
  pendingWrites : List TimedFmByte := []
  deriving DecidableEq, Repr

/-- The `mouse_…` members of `PeripheralState`; a phase counter is kept modulo 4. -/
structure MouseState where
  signalsRaw : Byte := 0x30#8
  xPhase : Fin 4 := 0
  yPhase : Fin 4 := 0
  pendingX : Int := 0
  pendingY : Int := 0
  edgeTickAccumulator : Nat := mouseEdgeIntervalTicks
  yNext : Bool := false
  deriving DecidableEq, Repr

/-- Ghost events. -/
inductive Event where
  /-- `refresh_interrupt_sources` sampled a rising edge of INTR_A or INTR_B. -/
  | edge
  /-- Counter 2 was clocked. -/
  | counterPulse
  /-- The reader synchronized on the selected mark and is about to present it. -/
  | mark
  /-- The reader has presented a byte on port B, with RDM as it was. -/
  | strobe (byte : TimedFmByte) (dataMark : Bool)
  /-- Counter 1 was clocked this often. -/
  | clock1 (pulses : Nat)
  /-- A cell of the selected medium was written. -/
  | written (byte : TimedFmByte)
  | reset
  deriving DecidableEq, Repr

structure Board where
  videoRam : BitVec 14 → Byte := fun _ => 0#8
  mainRam : Word → Byte := fun _ => 0#8
  rom : BitVec 14 → Byte := fun _ => 0#8
  romSize : Nat := 0
  frameBuffer : Nat → Pixel := fun _ => 0#32
  memoryMap : MemoryMap := .romVideo
  cycleCount : Nat := 0
  masterTickCount : Nat := 0
  frameTickAccumulator : Nat := 0
  frameCount : Nat := 0
  verticalScroll : Byte := 0#8
  -- `PeripheralState`
  printerKeyboard : Ppi8255 := {}
  timer : Pit8253 := {}
  diskData : Ppi8255 := {}
  uart : Uart8251 := {}
  machineControl : Ppi8255 := {}
  interrupts : InterruptController3214 := {}
  keyboard : Keyboard := {}
  printerBytes : List Byte := []
  printerOnline : Bool := false
  serialConnectionManaged : Bool := false
  serialConnected : Bool := false
  serialClearToSend : Bool := true
  floppy : FloppySubsystem := {}
  timerClockAccumulator : Nat := 0
  mouse : MouseState := {}
  disk : DiskState := {}
  diskTimeoutLatch : Bool := false
  videoInterruptLatch : Bool := false
  mouseInterruptLatch : Bool := false
  /-- The level `z80_int` last drove on the CPU's INT pin. -/
  intPin : Bool := false
  trace : List Event := []

/-! ## Helpers of the anonymous namespace -/

def programsCounterOne (registerIndex value : Byte) : Bool :=
  registerIndex &&& 0x03#8 == 3#8
    && (value >>> 6) &&& 0x03#8 == 1#8 && (value >>> 4) &&& 0x03#8 != 0#8

def isIdAddressMark (byte : TimedFmByte) : Bool := byte.data == 0xFE#8 && byte.clocks == 0xC7#8

def isDataAddressMark (byte : TimedFmByte) : Bool :=
  (byte.data == 0xFB#8 || byte.data == 0xF8#8) && byte.clocks == 0xC7#8

def writtenClockMask (machineControlPortA : Byte) : Byte :=
  match (machineControlPortA &&& 0x03#8).toNat with
  | 1 => 0xD7#8
  | 2 => 0xEF#8
  | 3 => 0xC7#8
  | _ => 0xFF#8

def quadratureStates (phase : Fin 4) : Byte :=
  match phase with
  | 0 => 0x00#8
  | 1 => 0x01#8
  | 2 => 0x03#8
  | 3 => 0x02#8

def quadraturePhase (signals : Byte) (shift : Nat) : Fin 4 :=
  match ((signals >>> shift) &&& 0x03#8).toNat with
  | 1 => 1
  | 3 => 2
  | 2 => 3
  | _ => 0

def queueMouseDelta (pending delta : Int) : Int := max (-1000000) (min (pending + delta) 1000000)

/-- The peripheral group `port & 0x70` selects. -/
def ioGroup (port : Word) : Fin 8 := ⟨((port >>> 4) &&& 0x07#16).toNat, by
  rw [BitVec.toNat_and]; exact Nat.lt_of_le_of_lt Nat.and_le_right (by decide)⟩

/-- `static_cast<std::uint8_t>(port)`: the chips decode its low bits. -/
def registerOf (port : Word) : Byte := port.setWidth 8

namespace Board

def log (b : Board) (e : Event) : Board := { b with trace := b.trace ++ [e] }

/-! ## Interrupt sources -/

/-- The edge detector in `refresh_interrupt_sources`: a rising edge of INTR_A or INTR_B clocks
counter 2, unless its pulse is the suppressed one. -/
def sampleDiskData (b : Board) : Board :=
  let diskDataInterrupt := b.diskData.intrA || b.diskData.intrB
  let b :=
    if !b.disk.dataInterruptLevel && diskDataInterrupt then
      let b := b.log .edge
      if b.disk.suppressByteCounterOnce then
        { b with disk := { b.disk with suppressByteCounterOnce := false } }
      else { b with timer := (b.timer.clock 2 1).1 }.log .counterPulse
    else b
  { b with disk := { b.disk with dataInterruptLevel := diskDataInterrupt } }

/-- OUT2 as a level: the asynchronous reset of the auxiliary disk register. -/
def applyEndOfData (b : Board) : Board :=
  if b.timer.output 2 then
    let b := { b with
      disk := { b.disk with
        aux := b.disk.aux.reset
        syncLatch := false
        ordinaryWriteActive := false
        formatWriteActive := false } }
    if b.disk.timingEnabled then { b with timer := b.timer.setGate 1 false } else b
  else b

/-- The 3214 inputs and the CPU's INT pin. -/
def driveInterrupts (b : Board) : Board :=
  let interrupts := b.interrupts
    |>.setInput 7 (b.diskData.intrA || b.diskData.intrB)
    |>.setInput 6 b.diskTimeoutLatch
    |>.setInput 5 (b.timer.output 2)
    |>.setInput 4 b.videoInterruptLatch
    |>.setInput 3 b.mouseInterruptLatch
    |>.setInput 2 b.uart.interruptRequested
    |>.setInput 1 b.printerKeyboard.intrB
    |>.setInput 0 b.printerKeyboard.intrA
  { b with interrupts := interrupts, intPin := interrupts.pending }

def refreshInterruptSources (b : Board) : Board := b.sampleDiskData.applyEndOfData.driveInterrupts

/-! ## Disk bytes -/

def refreshFloppyInputs (b : Board) : Board :=
  { b with machineControl := b.machineControl.setPortCInput b.floppy.controlPortCInputs }

def transferFloppyWriteByte (b : Board) (tick : Nat) : TimedFmByte × Board :=
  let byte : TimedFmByte :=
    { tick := tick
      data := b.diskData.outputA
      clocks := writtenClockMask b.machineControl.outputA }
  let b := { b with disk := { b.disk with pendingWrites := b.disk.pendingWrites ++ [byte] } }
  -- The serializer has consumed PA and requests the following byte.
  (byte, { b with diskData := b.diskData.pulseAckA }.refreshInterruptSources)

/-- The detector's strobe: `pulse_strobe_b` and the refresh at the end of `process_floppy_byte`. -/
def presentFloppyByte (b : Board) (byte : TimedFmByte) : Board :=
  { b with diskData := b.diskData.pulseStrobeB byte.data }.refreshInterruptSources.log
    (.strobe byte b.disk.aux.dataMarkSelected)

/-- The mark RDM selects. -/
def selectedMark (b : Board) (byte : TimedFmByte) : Bool :=
  if b.disk.aux.dataMarkSelected then isDataAddressMark byte else isIdAddressMark byte

/-- The reading half of `process_floppy_byte`. -/
def readFloppyByte (b : Board) (byte : TimedFmByte) : Board :=
  if !b.disk.aux.readEnabled then b
  else if b.disk.syncLatch then b.presentFloppyByte byte
  else if b.selectedMark byte then
    -- The mark itself is presented, but counting begins with the following field byte.
    { b with
      disk := { b.disk with syncLatch := true, suppressByteCounterOnce := true }
      timer := b.timer.setGate 1 true }.log .mark |>.presentFloppyByte byte
  else b

/-- The second Index of a format cycle. -/
def endFormat (b : Board) : Board :=
  { b with
    disk := { b.disk with
      ordinaryWriteActive := false
      formatWriteActive := false
      aux := b.disk.aux.reset
      syncLatch := false }
    timer := b.timer.setGate 1 false }.refreshInterruptSources

def processFloppyByte (b : Board) (byte : TimedFmByte) : Board :=
  let b := { b with disk := { b.disk with lastByteTick := byte.tick } }
  if !b.disk.timingEnabled then b
  else
    let index := b.disk.aux.formatEnabled && byte.tick == 0
    if index && b.disk.formatWriteActive then b.endFormat
    else
      let b := if index then { b with disk := { b.disk with formatWriteActive := true } } else b
      if b.disk.formatWriteActive || b.disk.ordinaryWriteActive then
        let (transferred, b) := b.transferFloppyWriteByte byte.tick
        b.readFloppyByte transferred
      else b.readFloppyByte byte

def flushPendingDiskWrites (b : Board) : Board :=
  let b := b.disk.pendingWrites.foldl
    (fun b byte =>
      let result := b.floppy.writeSelectedByte byte
      let b := { b with floppy := result.2 }
      if result.1 then b.log (.written byte) else b) b
  { b with disk := { b.disk with pendingWrites := [] } }

/-! ## Keyboard, mouse, video -/

def deliverKeyboardCode (b : Board) (code : Byte) : Board :=
  -- The keyboard data bus is active-low.
  { b with printerKeyboard := b.printerKeyboard.pulseStrobeB (~~~code) }.refreshInterruptSources

def updateMouseSignals (b : Board) (signals : Byte) : Board :=
  let changed := (signals ^^^ b.mouse.signalsRaw) &&& 0x3F#8
  let b := { b with mouse := { b.mouse with signalsRaw := signals } }
  let enabled := b.machineControl.portAOutputEnabled && hasBits b.machineControl.outputA 0x08#8
  if changed != 0#8 && enabled then { b with mouseInterruptLatch := true } else b

/-- One motion edge: a round of the loop of `advance_mouse`. -/
def mouseEdge (b : Board) : Board :=
  let bothAxes := b.mouse.pendingX != 0 && b.mouse.pendingY != 0
  let useY := b.mouse.pendingX == 0 || (bothAxes && b.mouse.yNext)
  let mouse : MouseState := { b.mouse with
    edgeTickAccumulator := b.mouse.edgeTickAccumulator - mouseEdgeIntervalTicks
    yNext := if bothAxes then !b.mouse.yNext else b.mouse.yNext }
  if useY then
    let positive := decide (mouse.pendingY > 0)
    let yPhase := mouse.yPhase + (if positive then 1 else 3)
    { b with
      mouse := { mouse with
        pendingY := mouse.pendingY + (if positive then -1 else 1)
        yPhase := yPhase } }.updateMouseSignals
      ((mouse.signalsRaw &&& 0xF3#8) ||| (quadratureStates yPhase <<< 2))
  else
    let positive := decide (mouse.pendingX > 0)
    -- The X encoder is mirrored relative to host coordinates.
    let xPhase := mouse.xPhase + (if positive then 3 else 1)
    { b with
      mouse := { mouse with
        pendingX := mouse.pendingX + (if positive then -1 else 1)
        xPhase := xPhase } }.updateMouseSignals
      ((mouse.signalsRaw &&& 0xFC#8) ||| quadratureStates xPhase)

/-- The loop of `advance_mouse`; an edge uses up one interval, so `fuel` rounds are enough. -/
def mouseLoop : Nat → Board → Board
  | 0, b => b
  | fuel + 1, b =>
    if b.mouse.edgeTickAccumulator ≥ mouseEdgeIntervalTicks
        ∧ (b.mouse.pendingX ≠ 0 ∨ b.mouse.pendingY ≠ 0) then
      mouseLoop fuel b.mouseEdge
    else b

def advanceMouse (b : Board) (masterTicks : Nat) : Board :=
  let accumulator := b.mouse.edgeTickAccumulator
    + min masterTicks (maxUint64 - b.mouse.edgeTickAccumulator)
  let b := { b with mouse := { b.mouse with edgeTickAccumulator := accumulator } }
  let b := mouseLoop (accumulator / mouseEdgeIntervalTicks) b
  if b.mouse.pendingX = 0 ∧ b.mouse.pendingY = 0 then
    { b with
      mouse := { b.mouse with
        edgeTickAccumulator := min b.mouse.edgeTickAccumulator mouseEdgeIntervalTicks } }
  else b

def black : Pixel := 0xFF000000#32

def white : Pixel := 0xFFFFFFFF#32

def renderVideo (b : Board) : Board :=
  { b with
    frameBuffer := fun offset =>
      let x := offset % 512
      let sourceY : Byte := BitVec.ofNat 8 (offset / 512) + b.verticalScroll
      let videoByte := b.videoRam (BitVec.ofNat 14 (x / 8 * 256 + sourceY.toNat))
      if hasBits videoByte (0x80#8 >>> (x % 8)) then white else black }

/-! ## Time -/

def advanceFloppy (b : Board) (masterTicks : Nat) : Board :=
  -- The callbacks leave the drives alone: written cells wait in `pendingWrites`.
  let visited := (b.floppy.visitBytes masterTicks).foldl processFloppyByte b
  { visited with floppy := visited.floppy.advance masterTicks }

def advanceKeyboard (b : Board) (masterTicks : Nat) : Board :=
  let (repeats, keyboard) := b.keyboard.advance masterTicks
  deliver repeats { b with keyboard := keyboard }
where
  deliver : Nat → Board → Board
    | 0, b => b
    | repeats + 1, b => deliver repeats (b.deliverKeyboardCode b.keyboard.repeatCode)

/-- What the rising edges of OUT1 do beside clocking the 8251. -/
def applyTimerEdges (b : Board) (risingEdges : Nat) : Board :=
  let b :=
    if b.disk.timingEnabled && b.disk.aux.readEnabled && b.disk.aux.dataMarkSelected
        && risingEdges != 0 then
      { b with diskTimeoutLatch := true }
    else b
  if b.disk.timingEnabled && b.disk.aux.writeEnabled && !b.disk.ordinaryWriteActive
      && risingEdges != 0 then
    let b := { b with disk := { b.disk with ordinaryWriteActive := true } }
    (b.transferFloppyWriteByte b.disk.lastByteTick).2
  else b

def advanceTimer (b : Board) (masterTicks : Nat) : Board :=
  let accumulator := b.timerClockAccumulator + masterTicks
  let timerClocks := accumulator / 12
  let b := { b with timerClockAccumulator := accumulator % 12 }
  if timerClocks = 0 then b
  else
    let (timer, edges) := b.timer.clock 1 timerClocks
    { b with
      timer := timer
      uart := (b.uart.clockTransmit edges.risingEdges).clockReceive edges.risingEdges }.log
        (.clock1 timerClocks) |>.applyTimerEdges edges.risingEdges

def advanceFrame (b : Board) (masterTicks : Nat) : Board :=
  let accumulator := b.frameTickAccumulator + masterTicks
  let completedFrames := accumulator / masterTicksPerFrame
  if completedFrames = 0 then { b with frameTickAccumulator := accumulator }
  else
    let enabled := b.machineControl.portAOutputEnabled && hasBits b.machineControl.outputA 0x04#8
    { b with
      frameTickAccumulator := accumulator % masterTicksPerFrame
      frameCount := b.frameCount + completedFrames
      -- CLK0 is connected before the PA2 gate that controls I4.
      timer := (b.timer.clock 0 completedFrames).1
      videoInterruptLatch := b.videoInterruptLatch || enabled }.renderVideo

def advanceTime (b : Board) (cpuCycles : Nat) : Board :=
  let masterTicks := cpuCycles * masterTicksPerCpuCycle
  let b := { b with
    cycleCount := b.cycleCount + cpuCycles
    masterTickCount := b.masterTickCount + masterTicks }
  let b := (b.advanceFloppy masterTicks).refreshFloppyInputs
  let b := (b.advanceKeyboard masterTicks).advanceMouse masterTicks
  let b := (b.advanceTimer masterTicks).flushPendingDiskWrites
  (b.advanceFrame masterTicks).refreshInterruptSources

/-! ## Memory -/

def isSupportedRomSize (size : Nat) : Bool :=
  size == 2048 || size == 4096 || size == 8192 || size == 16384

def setRomImage (b : Board) (image : List Byte) : Bool × Board :=
  if !isSupportedRomSize image.length then (false, b)
  else (true, { b with rom := fun a => image.getD a.toNat 0xFF#8, romSize := image.length })

def readRom (b : Board) (address : Word) : Byte :=
  -- `rom_size_ - 1U` in the width of `std::size_t`
  b.rom (address.setWidth 14 &&& BitVec.ofNat 14 (b.romSize + maxUint64))

def readMemory (b : Board) (address : Word) : Byte :=
  match b.memoryMap with
  | .ram => b.mainRam address
  | .romVideo =>
    if address.toNat < 0x4000 then b.readRom address
    else if address.toNat < 0x8000 then b.videoRam (address.setWidth 14)
    else b.mainRam address

def writeMemory (b : Board) (address : Word) (value : Byte) : Board :=
  let toRam := { b with mainRam := fun a => if a = address then value else b.mainRam a }
  match b.memoryMap with
  | .ram => toRam
  | .romVideo =>
    if 0x4000 ≤ address.toNat ∧ address.toNat < 0x8000 then
      { b with videoRam := fun a => if a = address.setWidth 14 then value else b.videoRam a }
    else if 0x8000 ≤ address.toNat then toRam
    else b

def writeVideoRam (b : Board) (address : Word) (value : Byte) : Board :=
  { b with videoRam := fun a => if a = address.setWidth 14 then value else b.videoRam a }

def setVerticalScroll (b : Board) (value : Byte) : Board := { b with verticalScroll := value }

/-! ## Ports -/

def readIo (b : Board) (port : Word) : Byte × Board :=
  let (value, b) : Byte × Board :=
    match ioGroup port with
    | 0 =>
      ((b.printerKeyboard.read (registerOf port)).1,
        { b with printerKeyboard := (b.printerKeyboard.read (registerOf port)).2 })
    | 1 =>
      ((b.timer.read (registerOf port)).1, { b with timer := (b.timer.read (registerOf port)).2 })
    | 2 =>
      ((b.diskData.read (registerOf port)).1,
        { b with diskData := (b.diskData.read (registerOf port)).2 })
    | 3 => (0xFF#8, { b with memoryMap := .ram })
    | 4 => ((b.uart.read (registerOf port)).1, { b with uart := (b.uart.read (registerOf port)).2 })
    | 5 => (0xFF#8, { b with memoryMap := .romVideo })
    | 6 =>
      let b := b.refreshFloppyInputs
      ((b.machineControl.read (registerOf port)).1,
        { b with machineControl := (b.machineControl.read (registerOf port)).2 })
    | 7 => (b.mouse.signalsRaw, { b with mouseInterruptLatch := false })
  (value, b.refreshInterruptSources)

/-- The printer takes a byte written to PA at once when it is online. -/
def writePrinterKeyboard (b : Board) (registerIndex value : Byte) : Board :=
  let b := { b with printerKeyboard := b.printerKeyboard.write registerIndex value }
  if registerIndex &&& 0x03#8 == 0#8 && b.printerOnline
      && b.printerKeyboard.groupAMode == .mode1 && b.printerKeyboard.portAOutputEnabled then
    { b with
      printerBytes := b.printerBytes ++ [b.printerKeyboard.outputA]
      printerKeyboard := b.printerKeyboard.pulseAckA }
  else b

def writeTimer (b : Board) (registerIndex value : Byte) : Board :=
  -- Loading a new timeout interval acknowledges any previous I6 request.
  let b := if programsCounterOne registerIndex value then { b with diskTimeoutLatch := false } else b
  { b with timer := b.timer.write registerIndex value }

def synchronizeDiskSelection (b : Board) : Board :=
  let effectivePortC :=
    if b.diskData.portCUpperOutputEnabled then b.diskData.outputC else 0x20#8
  { b with floppy := b.floppy.selectFromDiskPpi effectivePortC }.refreshFloppyInputs

def writeDiskAux (b : Board) (value : Byte) : Board :=
  let b := { b with disk := { b.disk with aux := b.disk.aux.write value } }
  let b := if !b.disk.aux.writeEnabled then
      { b with disk := { b.disk with ordinaryWriteActive := false } }
    else b
  let b := if !b.disk.aux.formatEnabled then
      { b with disk := { b.disk with formatWriteActive := false } }
    else b
  -- The boot ROM's I6 handler acknowledges a timeout by clearing the auxiliary register.
  let b := if !b.disk.aux.readEnabled && !b.disk.aux.formatEnabled then
      { b with diskTimeoutLatch := false }
    else b
  if !b.disk.timingEnabled then { b with disk := { b.disk with aux := b.disk.aux.reset } } else b

def synchronizeControlOutputs (b : Board) : Board :=
  let control := b.machineControl
  let b := if control.portBOutputEnabled then b.setVerticalScroll control.outputB else b
  let b := { b with
    floppy := b.floppy.setControlPortC control.outputC control.portCLowerOutputEnabled
  }.refreshFloppyInputs
  let timingEnabled := control.portAOutputEnabled && !hasBits control.outputA 0x40#8
  let b := { b with disk := { b.disk with timingEnabled := timingEnabled } }
  let b := if !timingEnabled then
      { b with
        disk := { b.disk with
          syncLatch := false
          ordinaryWriteActive := false
          formatWriteActive := false
          aux := b.disk.aux.reset }
        diskTimeoutLatch := false }
    else b
  -- The synchronization latch stays reset until the FM subsystem detects the selected mark.
  { b with timer := b.timer.setGate 1 (!b.disk.timingEnabled || b.disk.syncLatch) }

def writeIo (b : Board) (port : Word) (value : Byte) : Board :=
  let b :=
    match ioGroup port with
    | 0 => b.writePrinterKeyboard (registerOf port) value
    | 1 => b.writeTimer (registerOf port) value
    | 2 => { b with diskData := b.diskData.write (registerOf port) value }.synchronizeDiskSelection
    | 3 => { b with interrupts := b.interrupts.setMask value }
    | 4 => { b with uart := b.uart.write (registerOf port) value }
    | 5 => b.writeDiskAux value
    | 6 =>
      { b with
        machineControl := b.machineControl.write (registerOf port) value }.synchronizeControlOutputs
    | 7 => { b with videoInterruptLatch := false }
  b.refreshInterruptSources

/-! ## Host operations -/

def keyboardKeyDown (b : Board) (keyId : Nat) (code : Byte) : Board :=
  let (emitted, keyboard) := b.keyboard.keyDown keyId code
  let b := { b with keyboard := keyboard }
  match emitted with
  | some code => b.deliverKeyboardCode code
  | none => b

def keyboardKeyUp (b : Board) (keyId : Nat) : Board :=
  { b with keyboard := b.keyboard.keyUp keyId }

def setPrinterOnline (b : Board) (online : Bool) : Board :=
  { b with
    printerOnline := online
    printerKeyboard := b.printerKeyboard.setPortCInput (if online then 0x20#8 else 0x00#8) }

def takePrinterByte (b : Board) : Option Byte × Board :=
  match b.printerBytes with
  | [] => (none, b)
  | byte :: rest => (some byte, { b with printerBytes := rest })

def setSerialConnected (b : Board) (connected : Bool) : Board :=
  let uart := (b.uart.setCtsActive connected).setDsrActive connected
  { b with
    serialConnectionManaged := true
    serialConnected := connected
    serialClearToSend := true
    -- On disconnect the completed bytes are taken until none is left.
    uart := if connected then uart else { uart.clearQueuedReceiveBytes with transmittedBytes := [] }
  }.refreshInterruptSources

def setSerialClearToSend (b : Board) (clear : Bool) : Board :=
  { b with
    serialClearToSend := clear
    uart := b.uart.setCtsActive (b.serialConnected && clear) }.refreshInterruptSources

def queueSerialReceivedByte (b : Board) (value : Byte) : Bool × Board :=
  if !b.serialConnected then (false, b)
  else
    let (accepted, uart) := b.uart.queueReceivedByte value
    (accepted, { b with uart := uart })

def takeSerialTransmittedByte (b : Board) : Option Byte × Board :=
  let (byte, uart) := b.uart.takeTransmittedByte
  (byte, { b with uart := uart })

def insertFloppy (b : Board) (drive : Nat) (image : FloppyDiskImage) (access : FloppyAccess) :
    Bool × Board :=
  let (inserted, floppy) := b.floppy.insert drive image access
  (inserted, { b with floppy := floppy }.refreshFloppyInputs)

def ejectFloppy (b : Board) (drive : Nat) : Option FloppyDiskImage × Board :=
  let (image, floppy) := b.floppy.eject drive
  (image, { b with floppy := floppy }.refreshFloppyInputs)

def setFloppyIndexPulseWidth (b : Board) (masterTicks : Nat) : Bool × Board :=
  let (accepted, floppy) := b.floppy.setIndexPulseWidth masterTicks
  (accepted, { b with floppy := floppy }.refreshFloppyInputs)

def setMouseSignals (b : Board) (signals : Byte) : Board :=
  { b with
    mouse := { b.mouse with
      xPhase := quadraturePhase signals 0
      yPhase := quadraturePhase signals 2
      pendingX := 0
      pendingY := 0
      edgeTickAccumulator := mouseEdgeIntervalTicks }
  }.updateMouseSignals signals |>.refreshInterruptSources

def mouseMotion (b : Board) (deltaX deltaY : Int) : Board :=
  { b with
    mouse := { b.mouse with
      pendingX := queueMouseDelta b.mouse.pendingX deltaX
      pendingY := queueMouseDelta b.mouse.pendingY deltaY }
  }.advanceMouse 0 |>.refreshInterruptSources

def setMouseButton (b : Board) (button : MouseButton) (pressed : Bool) : Board :=
  let mask : Byte := match button with
    | .button1 => 0x10#8
    | .button2 => 0x20#8
  let signals := b.mouse.signalsRaw
  (b.updateMouseSignals (if pressed then signals &&& ~~~mask else signals ||| mask)
    ).refreshInterruptSources

/-! ## Reset -/

def resetPeripherals (b : Board) : Board :=
  let floppy := b.floppy.resetController
  { b with
    printerKeyboard := b.printerKeyboard.reset.setPortCInput
      (if b.printerOnline then 0x20#8 else 0x00#8)
    timer := ((b.timer.reset.setGate 0 true).setGate 1 true).setGate 2 true
    -- Pull-ups and fixed inputs of the board.
    diskData := b.diskData.reset.setPortCInput 0x20#8
    uart := (b.uart.reset.setCtsActive
      (!b.serialConnectionManaged || (b.serialConnected && b.serialClearToSend))).setDsrActive
        (b.serialConnectionManaged && b.serialConnected)
    machineControl := (b.machineControl.reset.setPortAInput 0x40#8).setPortCInput
      floppy.controlPortCInputs
    interrupts := b.interrupts.reset
    keyboard := b.keyboard.reset
    floppy := floppy
    timerClockAccumulator := 0
    disk := {}
    diskTimeoutLatch := false
    videoInterruptLatch := false
    mouseInterruptLatch := false }

def reset (b : Board) : Board :=
  { b with
    videoRam := fun _ => 0#8
    mainRam := fun _ => 0#8
    memoryMap := .romVideo
    cycleCount := 0
    masterTickCount := 0
    frameTickAccumulator := 0
    frameCount := 0
    verticalScroll := 0#8 }.resetPeripherals.log .reset |>.refreshInterruptSources |>.renderVideo

/-- `Machine::Machine`: `bootRom` is the embedded boot ROM, a file the build generates. -/
def power (bootRom : List Byte) : Board := (setRomImage {} bootRom).2.reset

end Board
end FK1
