import FK1.Batching

/-!
# FK1.DiskController

The disk controller by itself: the same steps as in `FK1.Board`, on the disk side of a board only.

* `DiskSide.process`, `.timer`, `.flush`, `.advance`: what a time step does to the disk side.
* `advanceTime_diskSide`: the board's time step does exactly that, whatever the keyboard, the mouse
  and the frame clock do meanwhile.
-/

namespace FK1

namespace DiskSide

/-- INTR_A or INTR_B of the data 8255. -/
def dataInterrupt (s : DiskSide) : Bool := s.diskData.intrA || s.diskData.intrB

/-- OUT2. -/
def terminal (s : DiskSide) : Bool := s.counter2.output

def sample (s : DiskSide) : DiskSide :=
  let seen := { s.disk with dataInterruptLevel := s.dataInterrupt }
  if !s.disk.dataInterruptLevel && s.dataInterrupt then
    if s.disk.suppressByteCounterOnce then
      { s with disk := { seen with suppressByteCounterOnce := false }, trace := s.trace ++ [Event.edge] }
    else
      { s with
        disk := seen
        counter2 := (s.counter2.clockLoop 1 {}).1
        trace := s.trace ++ [Event.edge, .counterPulse] }
  else { s with disk := seen }

/-- The disk state after an operation has ended. -/
def ended (d : DiskState) : DiskState :=
  { d with aux := {}, syncLatch := false, ordinaryWriteActive := false, formatWriteActive := false }

def endOfData (s : DiskSide) : DiskSide :=
  if s.terminal then
    { s with
      disk := ended s.disk
      counter1 := if s.disk.timingEnabled then s.counter1.setGate false else s.counter1 }
  else s

def refresh (s : DiskSide) : DiskSide := s.sample.endOfData

/-- The byte the serializer takes for the cell at `tick`. -/
def written (s : DiskSide) (tick : Nat) : TimedFmByte :=
  { tick := tick, data := s.diskData.outputA, clocks := writtenClockMask s.controlA }

def transfer (s : DiskSide) (tick : Nat) : DiskSide :=
  { s with
    disk := { s.disk with pendingWrites := s.disk.pendingWrites ++ [s.written tick] }
    diskData := s.diskData.pulseAckA }.refresh

def present (s : DiskSide) (byte : TimedFmByte) : DiskSide :=
  let r := { s with diskData := s.diskData.pulseStrobeB byte.data }.refresh
  { r with trace := r.trace ++ [Event.strobe byte s.disk.aux.dataMarkSelected] }

def selectedMark (rdm : Bool) (byte : TimedFmByte) : Bool :=
  if rdm then isDataAddressMark byte else isIdAddressMark byte

/-- The reader on the selected mark. -/
def synchronize (s : DiskSide) : DiskSide :=
  { s with
    disk := { s.disk with syncLatch := true, suppressByteCounterOnce := true }
    counter1 := s.counter1.setGate true
    trace := s.trace ++ [Event.mark] }

def read (s : DiskSide) (byte : TimedFmByte) : DiskSide :=
  if !s.disk.aux.readEnabled then s
  else if s.disk.syncLatch then s.present byte
  else if selectedMark s.disk.aux.dataMarkSelected byte then s.synchronize.present byte
  else s

def endFormat (s : DiskSide) : DiskSide :=
  { s with disk := ended s.disk, counter1 := s.counter1.setGate false }.refresh

/-- A write is active: the cells passing the head are written. -/
def writing (s : DiskSide) : Bool := s.disk.formatWriteActive || s.disk.ordinaryWriteActive

/-- The cell at `tick` is under the head. -/
def reached (s : DiskSide) (tick : Nat) : DiskSide :=
  { s with disk := { s.disk with lastByteTick := tick } }

def process (s : DiskSide) (byte : TimedFmByte) : DiskSide :=
  let s := s.reached byte.tick
  if !s.disk.timingEnabled then s
  else
    let index := s.disk.aux.formatEnabled && byte.tick == 0
    if index && s.disk.formatWriteActive then s.endFormat
    else
      let s := if index then { s with disk := { s.disk with formatWriteActive := true } } else s
      if s.writing then (s.transfer byte.tick).read (s.written byte.tick)
      else s.read byte

/-- OUT1 starts an ordinary write with the last cell that has passed. -/
def startWrite (s : DiskSide) (risingEdges : Nat) : DiskSide :=
  if s.disk.timingEnabled && s.disk.aux.writeEnabled && !s.disk.ordinaryWriteActive
      && risingEdges != 0 then
    { s with disk := { s.disk with ordinaryWriteActive := true } }.transfer s.disk.lastByteTick
  else s

def timerEdges (s : DiskSide) (risingEdges : Nat) : DiskSide :=
  if s.disk.timingEnabled && s.disk.aux.readEnabled && s.disk.aux.dataMarkSelected
      && risingEdges != 0 then
    { s with diskTimeoutLatch := true }.startWrite risingEdges
  else s.startWrite risingEdges

def timer (s : DiskSide) (clocks : Nat) : DiskSide :=
  if clocks = 0 then s
  else
    { s with
      counter1 := (s.counter1.clockLoop clocks {}).1
      trace := s.trace ++ [Event.clock1 clocks] }.timerEdges (s.counter1.clockLoop clocks {}).2.risingEdges

def storeByte (s : DiskSide) (byte : TimedFmByte) : DiskSide :=
  { s with
    floppy := (s.floppy.writeSelectedByte byte).2
    trace := if (s.floppy.writeSelectedByte byte).1 then s.trace ++ [Event.written byte] else s.trace }

def flush (s : DiskSide) : DiskSide :=
  let s := s.disk.pendingWrites.foldl storeByte s
  { s with disk := { s.disk with pendingWrites := [] } }

/-- The cells the head passes within `ticks`. -/
def passing (s : DiskSide) (ticks : Nat) : List TimedFmByte := s.floppy.visitBytes ticks

def turn (s : DiskSide) (ticks : Nat) : DiskSide := { s with floppy := s.floppy.advance ticks }

/-- A write to the auxiliary register, before the refresh that follows. -/
def writeAux (s : DiskSide) (value : Byte) : DiskSide :=
  { s with
    disk := { s.disk with
      aux := if s.disk.timingEnabled then s.disk.aux.write value else {}
      ordinaryWriteActive := s.disk.ordinaryWriteActive && hasBits value 0x02#8
      formatWriteActive := s.disk.formatWriteActive && hasBits value 0x10#8 }
    diskTimeoutLatch := s.diskTimeoutLatch && (hasBits value 0x01#8 || hasBits value 0x10#8) }

/-- A write to the data 8255, before the refresh that follows. -/
def writeData (s : DiskSide) (registerIndex value : Byte) : DiskSide :=
  { s with
    diskData := s.diskData.write registerIndex value
    floppy := { s.floppy with
      selectedDriveIndex := selection (s.diskData.write registerIndex value) } }

/-- The controller's share of a time step in which CLK1 has `clocks` pulses. -/
def advance (s : DiskSide) (ticks clocks : Nat) : DiskSide :=
  (((s.passing ticks).foldl process s).turn ticks |>.timer clocks).flush

end DiskSide

namespace Board

variable {b : Board}

/-! ## The board's disk side follows the controller -/

theorem sampleDiskData_diskSide (b : Board) : b.sampleDiskData.diskSide = b.diskSide.sample := by
  unfold DiskSide.sample
  have hi : b.diskSide.dataInterrupt = (b.diskData.intrA || b.diskData.intrB) := rfl
  have hd : b.diskSide.disk = b.disk := rfl
  rw [hi, hd]
  rcases sampleDiskData_cases b with ⟨he, h⟩ | ⟨he, hl, hi, hs⟩ | ⟨he, hl, hi, hs⟩
  · rw [he, if_neg (by rw [Bool.or_eq_true] at h; rcases h with h | h <;> simp_all)]
    rfl
  · rw [he, if_pos (by simp [hl, hi]), if_pos hs]
    rfl
  · rw [he, if_pos (by simp [hl, hi]), if_neg (by simp [hs])]
    simp [diskSide, seen, Pit8253.clock]

theorem applyEndOfData_diskSide (b : Board) : b.applyEndOfData.diskSide = b.diskSide.endOfData := by
  have hterm : b.diskSide.terminal = b.timer.output 2 := rfl
  unfold applyEndOfData DiskSide.endOfData
  rw [hterm]
  split
  · dsimp only
    split
    · rename_i ht
      simp [diskSide, DiskSide.ended, DiskAuxControl.reset, ht, Pit8253.setGate]
    · rename_i ht
      simp [diskSide, DiskSide.ended, DiskAuxControl.reset, ht]
  · rfl

theorem refreshSources_diskSide (b : Board) :
    b.refreshInterruptSources.diskSide = b.diskSide.refresh := by
  unfold refreshInterruptSources DiskSide.refresh
  rw [driveInterrupts_diskSide, applyEndOfData_diskSide, sampleDiskData_diskSide]

theorem transfer_diskSide (b : Board) (tick : Nat) :
    (b.transferFloppyWriteByte tick).1 = b.diskSide.written tick ∧
      (b.transferFloppyWriteByte tick).2.diskSide = b.diskSide.transfer tick :=
  ⟨rfl, refreshSources_diskSide _⟩

theorem present_diskSide (b : Board) (byte : TimedFmByte) :
    (b.presentFloppyByte byte).diskSide = b.diskSide.present byte := by
  have h : { b with diskData := b.diskData.pulseStrobeB byte.data }.refreshInterruptSources.diskSide =
      { b.diskSide with diskData := b.diskSide.diskData.pulseStrobeB byte.data }.refresh :=
    refreshSources_diskSide _
  unfold presentFloppyByte DiskSide.present
  dsimp only
  rw [← h]
  rfl

theorem readFloppyByte_diskSide (b : Board) (byte : TimedFmByte) :
    (b.readFloppyByte byte).diskSide = b.diskSide.read byte := by
  have haux : b.diskSide.disk = b.disk := rfl
  have hmark : DiskSide.selectedMark b.diskSide.disk.aux.dataMarkSelected byte = b.selectedMark byte :=
    rfl
  unfold readFloppyByte DiskSide.read
  rw [hmark, haux]
  split
  · rfl
  split
  · exact present_diskSide b byte
  split
  · rw [present_diskSide]
    simp [diskSide, log, DiskSide.synchronize, Pit8253.setGate]
  · rfl

theorem endFormat_diskSide (b : Board) : b.endFormat.diskSide = b.diskSide.endFormat := by
  unfold endFormat DiskSide.endFormat
  rw [refreshSources_diskSide]
  simp [diskSide, DiskSide.ended, DiskAuxControl.reset, Pit8253.setGate]

theorem processFloppyByte_diskSide (b : Board) (byte : TimedFmByte) :
    (b.processFloppyByte byte).diskSide = b.diskSide.process byte := by
  have htransfer : ∀ (b : Board) (tick : Nat),
      ((b.transferFloppyWriteByte tick).2.readFloppyByte
        (b.transferFloppyWriteByte tick).1).diskSide =
        (b.diskSide.transfer tick).read (b.diskSide.written tick) := by
    intro b tick
    rw [readFloppyByte_diskSide, (transfer_diskSide b tick).2, (transfer_diskSide b tick).1]
  have haux : b.diskSide.disk = b.disk := rfl
  unfold processFloppyByte DiskSide.process DiskSide.reached DiskSide.writing
  dsimp only
  rw [haux]
  split
  · rfl
  split
  · exact endFormat_diskSide _
  split
  · exact htransfer _ _
  · split
    · exact htransfer _ _
    · exact readFloppyByte_diskSide _ _

theorem processFloppyBytes_diskSide (bytes : List TimedFmByte) (b : Board) :
    (bytes.foldl processFloppyByte b).diskSide = bytes.foldl DiskSide.process b.diskSide := by
  induction bytes generalizing b with
  | nil => rfl
  | cons byte bytes ih => rw [List.foldl_cons, ih, processFloppyByte_diskSide, List.foldl_cons]

theorem applyTimerEdges_diskSide (b : Board) (edges : Nat) :
    (b.applyTimerEdges edges).diskSide = b.diskSide.timerEdges edges := by
  have hstart : ∀ b : Board,
      (if b.disk.timingEnabled && b.disk.aux.writeEnabled && !b.disk.ordinaryWriteActive
          && edges != 0 then
        ({ b with disk := { b.disk with ordinaryWriteActive := true } }.transferFloppyWriteByte
          b.disk.lastByteTick).2
      else b).diskSide = b.diskSide.startWrite edges := by
    intro b
    have hd : b.diskSide.disk = b.disk := rfl
    unfold DiskSide.startWrite
    rw [hd]
    split
    · exact (transfer_diskSide _ _).2
    · rfl
  have hd : b.diskSide.disk = b.disk := rfl
  unfold applyTimerEdges DiskSide.timerEdges
  dsimp only
  rw [hd]
  split
  · exact hstart { b with diskTimeoutLatch := true }
  · exact hstart b

theorem advanceTimer_diskSide (b : Board) (masterTicks : Nat) :
    (b.advanceTimer masterTicks).diskSide =
      b.diskSide.timer ((b.timerClockAccumulator + masterTicks) / 12) := by
  unfold advanceTimer DiskSide.timer
  dsimp only
  split
  · rfl
  · rw [applyTimerEdges_diskSide]
    simp [diskSide, log, Pit8253.clock]

theorem flush_diskSide (b : Board) : b.flushPendingDiskWrites.diskSide = b.diskSide.flush := by
  have hstore : ∀ (bytes : List TimedFmByte) (b : Board), (bytes.foldl (fun b byte =>
      let result := b.floppy.writeSelectedByte byte
      let b := { b with floppy := result.2 }
      if result.1 then b.log (.written byte) else b) b).diskSide =
        bytes.foldl DiskSide.storeByte b.diskSide := by
    intro bytes
    induction bytes with
    | nil => exact fun _ => rfl
    | cons byte bytes ih =>
      intro b
      rw [List.foldl_cons, ih, List.foldl_cons]
      congr 1
      cases hw : (b.floppy.writeSelectedByte byte).1 <;> simp [DiskSide.storeByte, diskSide, log, hw]
  have h := hstore b.disk.pendingWrites b
  unfold flushPendingDiskWrites DiskSide.flush
  rw [show b.diskSide.disk.pendingWrites = b.disk.pendingWrites from rfl, ← h]
  rfl

/-- A time step of a steady board is the controller's on the disk side. -/
theorem advanceTime_diskSide (h : b.Steady) (cpuCycles : Nat) :
    (b.advanceTime cpuCycles).diskSide = b.diskSide.advance (cpuCycles * 3)
      ((b.timerClockAccumulator + cpuCycles * 3) / 12) := by
  unfold advanceTime
  extract_lets masterTicks b₀ b₁ b₂ b₃
  have h₀ : b₀.Steady := h.congr rfl
  have h₁ : b₁.Steady := (advanceFloppy_steady h₀ masterTicks).congr rfl
  have hfloppy : b₁.diskSide =
      ((b.diskSide.passing masterTicks).foldl DiskSide.process b.diskSide).turn masterTicks := by
    have hfold := processFloppyBytes_diskSide (b₀.floppy.visitBytes masterTicks) b₀
    rw [show b₀.diskSide = b.diskSide from rfl] at hfold
    rw [DiskSide.passing, ← show b₀.floppy = b.diskSide.floppy from rfl, ← hfold]
    rfl
  have hmouse : b₂.diskSide = b₁.diskSide :=
    (advanceMouse_diskSide _ _).trans (advanceKeyboard_diskSide h₁ _)
  have h₂ : b₂.Steady := h₁.congr hmouse
  have hclocks : b₂.clocks = b₀.clocks := by
    rw [show b₂.clocks = _ from advanceMouse_clocks _ _, advanceKeyboard_clocks]
    exact advanceFloppy_clocks b₀ masterTicks
  have haccumulator : b₂.timerClockAccumulator = b.timerClockAccumulator :=
    congrArg Clocks.timerClockAccumulator hclocks
  have h₃ : b₃.Steady := (flush_steady (advanceTimer_steady h₂ masterTicks)).1
  have h₄ : (b₃.advanceFrame masterTicks).Steady := h₃.congr (advanceFrame_diskSide _ _)
  rw [h₄.refresh_diskSide, advanceFrame_diskSide, flush_diskSide, advanceTimer_diskSide, haccumulator,
    hmouse, hfloppy]
  rfl

/-! ## Port accesses -/

theorem readData_diskSide {port : Word} (hp : ioGroup port = 2) :
    (b.readIo port).2.diskSide =
      { b.diskSide with diskData := (b.diskData.read (registerOf port)).2 }.refresh := by
  unfold readIo
  rw [hp]
  exact refreshSources_diskSide _

theorem writeAux_diskSide {port : Word} (hp : ioGroup port = 5) (value : Byte) :
    (b.writeIo port value).diskSide = (b.diskSide.writeAux value).refresh := by
  unfold writeIo
  rw [hp]
  refine (refreshSources_diskSide _).trans (congrArg DiskSide.refresh ?_)
  simp only [writeDiskAux_eq]
  rfl

theorem writeData_diskSide {port : Word} (hp : ioGroup port = 2) (value : Byte) :
    (b.writeIo port value).diskSide = (b.diskSide.writeData (registerOf port) value).refresh := by
  unfold writeIo
  rw [hp]
  refine (refreshSources_diskSide _).trans (congrArg DiskSide.refresh ?_)
  exact synchronizeDiskSelection_diskSide _

end Board
end FK1
