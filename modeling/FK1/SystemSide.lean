import FK1.OutputHandshake

/-!
# FK1.SystemSide

The members of `Machine` itself (memories, the map, the picture, the clocks), the printer queue and
the outputs of the control 8255. Disk bytes, keyboard, mouse, timer and serial line leave them alone:
`act_systemSide` says what each action does to them.
-/

namespace FK1

/-- The output lines of an 8255. -/
structure OutputLines where
  portAOutputEnabled : Bool
  outputA : Byte
  portBOutputEnabled : Bool
  outputB : Byte
  portCLowerOutputEnabled : Bool
  outputC : Byte
  deriving DecidableEq, Repr

namespace Ppi8255

def lines (p : Ppi8255) : OutputLines :=
  { portAOutputEnabled := p.portAOutputEnabled
    outputA := p.outputA
    portBOutputEnabled := p.portBOutputEnabled
    outputB := p.outputB
    portCLowerOutputEnabled := p.portCLowerOutputEnabled
    outputC := p.outputC }

theorem read_lines (p : Ppi8255) (registerIndex : Byte) : (p.read registerIndex).2.lines = p.lines := by
  unfold read readPortA readPortB
  repeat' split
  all_goals rfl

end Ppi8255

structure SystemSide where
  videoRam : BitVec 14 → Byte
  mainRam : Word → Byte
  rom : BitVec 14 → Byte
  romSize : Nat
  frameBuffer : Nat → Pixel
  memoryMap : MemoryMap
  cycleCount : Nat
  masterTickCount : Nat
  frameTickAccumulator : Nat
  frameCount : Nat
  verticalScroll : Byte
  printerBytes : List Byte
  printerOnline : Bool
  videoInterruptLatch : Bool
  control : OutputLines

/-- Whether the video interrupt is enabled: PA2 of the control 8255. -/
def OutputLines.videoInterruptEnabled (lines : OutputLines) : Bool :=
  lines.portAOutputEnabled && hasBits lines.outputA 0x04#8

/-- The picture of the video memory from a line on. -/
def picture (videoRam : BitVec 14 → Byte) (verticalScroll : Byte) (offset : Nat) : Pixel :=
  let x := offset % 512
  let sourceY : Byte := BitVec.ofNat 8 (offset / 512) + verticalScroll
  let videoByte := videoRam (BitVec.ofNat 14 (x / 8 * 256 + sourceY.toNat))
  if hasBits videoByte (0x80#8 >>> (x % 8)) then Board.white else Board.black

namespace SystemSide

/-- The frames that end within `masterTicks`. -/
def completedFrames (s : SystemSide) (masterTicks : Nat) : Nat :=
  (s.frameTickAccumulator + masterTicks) / masterTicksPerFrame

/-- The frame clock, and the picture and the interrupt of a frame that ends. -/
def frame (s : SystemSide) (masterTicks : Nat) : SystemSide :=
  { s with
    frameTickAccumulator := (s.frameTickAccumulator + masterTicks) % masterTicksPerFrame
    frameCount := s.frameCount + s.completedFrames masterTicks
    videoInterruptLatch := s.videoInterruptLatch
      || decide (s.completedFrames masterTicks ≠ 0) && s.control.videoInterruptEnabled
    frameBuffer :=
      if s.completedFrames masterTicks = 0 then s.frameBuffer
      else picture s.videoRam s.verticalScroll }

def advance (s : SystemSide) (cpuCycles : Nat) : SystemSide :=
  { s with
    cycleCount := s.cycleCount + cpuCycles
    masterTickCount := s.masterTickCount + cpuCycles * masterTicksPerCpuCycle }.frame
      (cpuCycles * masterTicksPerCpuCycle)

end SystemSide

namespace Board

def systemSide (b : Board) : SystemSide :=
  { videoRam := b.videoRam
    mainRam := b.mainRam
    rom := b.rom
    romSize := b.romSize
    frameBuffer := b.frameBuffer
    memoryMap := b.memoryMap
    cycleCount := b.cycleCount
    masterTickCount := b.masterTickCount
    frameTickAccumulator := b.frameTickAccumulator
    frameCount := b.frameCount
    verticalScroll := b.verticalScroll
    printerBytes := b.printerBytes
    printerOnline := b.printerOnline
    videoInterruptLatch := b.videoInterruptLatch
    control := b.machineControl.lines }

/-! ## What leaves it alone -/

variable {b b' : Board}

theorem DiskStep.systemSide (h : DiskStep b b') : b'.systemSide = b.systemSide := by
  obtain ⟨_, _, _, _, _, _, rfl, _⟩ := h
  rfl

@[simp] theorem refresh_systemSide (b : Board) :
    b.refreshInterruptSources.systemSide = b.systemSide := (refresh_diskStep b).systemSide

theorem deliverKeyboardCode_systemSide (b : Board) (code : Byte) :
    (b.deliverKeyboardCode code).systemSide = b.systemSide := refresh_systemSide _

theorem advanceKeyboard_systemSide (b : Board) (masterTicks : Nat) :
    (b.advanceKeyboard masterTicks).systemSide = b.systemSide :=
  advanceKeyboard_view DiskStep.systemSide (fun _ _ _ => rfl) b masterTicks

theorem advanceMouse_systemSide (b : Board) (masterTicks : Nat) :
    (b.advanceMouse masterTicks).systemSide = b.systemSide := by
  obtain ⟨_, _, h⟩ := advanceMouse_frame b masterTicks
  rw [h]
  rfl

theorem updateMouseSignals_systemSide (b : Board) (signals : Byte) :
    (b.updateMouseSignals signals).systemSide = b.systemSide := by
  obtain ⟨_, _, h⟩ := updateMouseSignals_frame b signals
  rw [h]
  rfl

theorem advanceFloppy_systemSide (b : Board) (masterTicks : Nat) :
    (b.advanceFloppy masterTicks).systemSide = b.systemSide :=
  (processFloppyBytes_diskStep (b.floppy.visitBytes masterTicks) b).systemSide

theorem advanceTimer_systemSide (b : Board) (masterTicks : Nat) :
    (b.advanceTimer masterTicks).systemSide = b.systemSide := by
  unfold advanceTimer
  dsimp only
  split
  · rfl
  · exact applyTimerEdges_view DiskStep.systemSide (fun _ _ => rfl) _ _

theorem flush_systemSide (b : Board) : b.flushPendingDiskWrites.systemSide = b.systemSide :=
  flush_view DiskStep.systemSide (fun _ _ => rfl) (fun _ _ => rfl) b

/-! ## Time -/

theorem advanceFrame_systemSide (b : Board) (masterTicks : Nat) :
    (b.advanceFrame masterTicks).systemSide = b.systemSide.frame masterTicks := by
  have hframes : b.systemSide.completedFrames masterTicks =
      (b.frameTickAccumulator + masterTicks) / masterTicksPerFrame := rfl
  unfold advanceFrame SystemSide.frame
  dsimp only
  rw [hframes]
  split
  next hnone =>
    have hrest : (b.frameTickAccumulator + masterTicks) % masterTicksPerFrame =
        b.frameTickAccumulator + masterTicks :=
      Nat.mod_eq_of_lt ((Nat.div_eq_zero_iff_lt (by decide)).mp hnone)
    simp [systemSide, hnone, hrest]
  next hsome =>
    rw [decide_eq_true hsome, Bool.true_and]
    rfl

/-- Frames are all that time does here. -/
theorem advanceTime_systemSide (b : Board) (cpuCycles : Nat) :
    (b.advanceTime cpuCycles).systemSide = b.systemSide.advance cpuCycles := by
  unfold advanceTime
  extract_lets masterTicks b₀ b₁ b₂ b₃
  have h₁ : b₁.systemSide = b₀.systemSide := advanceFloppy_systemSide b₀ masterTicks
  have h₂ : b₂.systemSide = b₀.systemSide :=
    (advanceMouse_systemSide _ _).trans ((advanceKeyboard_systemSide _ _).trans h₁)
  have h₃ : b₃.systemSide = b₀.systemSide :=
    (flush_systemSide _).trans ((advanceTimer_systemSide _ _).trans h₂)
  rw [refresh_systemSide, advanceFrame_systemSide, h₃]
  rfl

/-! ## Ports -/

/-- The bytes the printer takes of a write. -/
def printed (b : Board) (port : Word) (value : Byte) : List Byte :=
  if ioGroup port = 0 ∧ registerOf port &&& 0x03#8 = 0#8 ∧ b.printerOnline = true
      ∧ b.printerKeyboard.groupAMode = .mode1 ∧ b.printerKeyboard.portAOutputEnabled = true then [value]
  else []

/-- A write to port A leaves the modes as they are. -/
theorem write_portA {registerIndex : Byte} (hreg : registerIndex &&& 0x03#8 = 0#8) (p : Ppi8255)
    (value : Byte) :
    (p.write registerIndex value).outputA = value ∧
      (p.write registerIndex value).groupAMode = p.groupAMode ∧
      (p.write registerIndex value).portAOutputEnabled = p.portAOutputEnabled := by
  rw [writePa_eq hreg]
  split <;> exact ⟨rfl, rfl, rfl⟩

theorem writePrinterKeyboard_systemSide {port : Word} (hport : ioGroup port = 0) (value : Byte) :
    (b.writePrinterKeyboard (registerOf port) value).systemSide =
      { b.systemSide with printerBytes := b.printerBytes ++ b.printed port value } := by
  have hkeep : ∀ {v : Board}, v.systemSide = b.systemSide → b.printed port value = [] →
      v.systemSide = { b.systemSide with printerBytes := b.printerBytes ++ b.printed port value } := by
    intro v hv hnone
    rw [hnone, List.append_nil, hv]
    rfl
  unfold writePrinterKeyboard
  extract_lets b₁
  by_cases hreg : registerOf port &&& 0x03#8 = 0#8
  · obtain ⟨houtput, hmode, henabled⟩ := write_portA hreg b.printerKeyboard value
    split
    next htaken =>
      simp only [b₁, Bool.and_eq_true, beq_iff_eq, hmode, henabled] at htaken
      have hprinted : b.printed port value = [value] :=
        if_pos ⟨hport, hreg, htaken.1.1.2, htaken.1.2, htaken.2⟩
      rw [hprinted, ← houtput]
      rfl
    next htaken =>
      refine hkeep rfl (if_neg fun h => htaken ?_)
      simp [b₁, hmode, henabled, h.2.1, h.2.2.1, h.2.2.2.1, h.2.2.2.2]
  · rw [if_neg (by simp [hreg])]
    exact hkeep rfl (if_neg fun h => hreg h.2.1)

/-- The output lines of the control 8255 after a write. -/
def controlAfter (b : Board) (port : Word) (value : Byte) : OutputLines :=
  if ioGroup port = 6 then (b.machineControl.write (registerOf port) value).lines
  else b.machineControl.lines

theorem readIo_systemSide (b : Board) (port : Word) :
    (b.readIo port).2.systemSide = { b.systemSide with
      memoryMap :=
        if ioGroup port = 3 then .ram else if ioGroup port = 5 then .romVideo else b.memoryMap } := by
  unfold readIo
  dsimp only
  rw [refresh_systemSide]
  split
  next hport =>
    simp only [hport, systemSide]
    rfl
  next hport =>
    simp only [hport, systemSide]
    rfl
  next hport =>
    simp only [hport, systemSide]
    rfl
  next hport =>
    simp only [hport, systemSide]
    rfl
  next hport =>
    simp only [hport, systemSide]
    rfl
  next hport =>
    simp only [hport, systemSide]
    rfl
  next hport =>
    simp only [hport, systemSide, refreshFloppyInputs, Ppi8255.read_lines]
    rfl
  next hport =>
    simp only [hport, systemSide]
    rfl

theorem writeIo_systemSide (b : Board) (port : Word) (value : Byte) :
    (b.writeIo port value).systemSide = { b.systemSide with
      printerBytes := b.printerBytes ++ b.printed port value
      control := b.controlAfter port value
      verticalScroll :=
        if ioGroup port = 6 ∧ (b.controlAfter port value).portBOutputEnabled = true then
          (b.controlAfter port value).outputB
        else b.verticalScroll
      videoInterruptLatch := b.videoInterruptLatch && decide (ioGroup port ≠ 7) } := by
  -- the groups that change nothing of this
  have hother : ∀ v : Board, v.systemSide = b.systemSide → ioGroup port ≠ 0 → ioGroup port ≠ 6 →
      ioGroup port ≠ 7 → v.refreshInterruptSources.systemSide = { b.systemSide with
        printerBytes := b.printerBytes ++ b.printed port value
        control := b.controlAfter port value
        verticalScroll :=
          if ioGroup port = 6 ∧ (b.controlAfter port value).portBOutputEnabled = true then
            (b.controlAfter port value).outputB
          else b.verticalScroll
        videoInterruptLatch := b.videoInterruptLatch && decide (ioGroup port ≠ 7) } := by
    intro v hv h0 h6 h7
    have hprinted : b.printed port value = [] := if_neg fun h => h0 h.1
    have hcontrol : b.controlAfter port value = b.machineControl.lines := if_neg h6
    rw [refresh_systemSide, hv, hprinted, hcontrol, List.append_nil, decide_eq_true h7, Bool.and_true]
    simp [h6, systemSide]
  unfold writeIo
  dsimp only
  split
  next hport =>
    rw [refresh_systemSide, writePrinterKeyboard_systemSide hport, controlAfter, hport]
    simp [systemSide]
  next hport =>
    refine hother _ ?_ (by rw [hport]; decide) (by rw [hport]; decide) (by rw [hport]; decide)
    unfold writeTimer
    dsimp only
    split <;> rfl
  next hport => exact hother _ rfl (by rw [hport]; decide) (by rw [hport]; decide) (by rw [hport]; decide)
  next hport => exact hother _ rfl (by rw [hport]; decide) (by rw [hport]; decide) (by rw [hport]; decide)
  next hport => exact hother _ rfl (by rw [hport]; decide) (by rw [hport]; decide) (by rw [hport]; decide)
  next hport =>
    refine hother _ ?_ (by rw [hport]; decide) (by rw [hport]; decide) (by rw [hport]; decide)
    rw [writeDiskAux_eq]
    rfl
  next hport =>
    have hprinted : b.printed port value = [] := if_neg fun h => by rw [hport] at h; cases h.1
    rw [refresh_systemSide, synchronizeControlOutputs_eq, hprinted, controlAfter, hport]
    simp [systemSide, Ppi8255.lines, Ppi8255.setPortCInput, Ppi8255.portAOutputEnabled,
      Ppi8255.portBOutputEnabled, Ppi8255.portCLowerOutputEnabled, Ppi8255.outputA, Ppi8255.outputB,
      Ppi8255.outputC]
  next hport =>
    have hprinted : b.printed port value = [] := if_neg fun h => by rw [hport] at h; cases h.1
    rw [refresh_systemSide, hprinted, controlAfter, hport]
    simp [systemSide]

/-! ## Every action -/

def systemAfter (b : Board) : Action → SystemSide
  | .advance cpuCycles => b.systemSide.advance cpuCycles
  | .reset =>
    { b.systemSide with
      videoRam := fun _ => 0#8
      mainRam := fun _ => 0#8
      frameBuffer := picture (fun _ => 0#8) 0#8
      memoryMap := .romVideo
      cycleCount := 0
      masterTickCount := 0
      frameTickAccumulator := 0
      frameCount := 0
      verticalScroll := 0#8
      videoInterruptLatch := false
      control := Ppi8255.lines {} }
  | .host (.setPrinterOnline online) => { b.systemSide with printerOnline := online }
  | .host .takePrinterByte => { b.systemSide with printerBytes := b.printerBytes.tail }
  | .host (.setRomImage image) => (b.setRomImage image).2.systemSide
  | .host (.writeMemory address value) => (b.writeMemory address value).systemSide
  | .host (.writeVideoRam address value) => (b.writeVideoRam address value).systemSide
  | .host (.setVerticalScroll value) => { b.systemSide with verticalScroll := value }
  | .host (.readIo port) =>
    { b.systemSide with
      memoryMap :=
        if ioGroup port = 3 then .ram else if ioGroup port = 5 then .romVideo else b.memoryMap }
  | .host (.writeIo port value) =>
    { b.systemSide with
      printerBytes := b.printerBytes ++ b.printed port value
      control := b.controlAfter port value
      verticalScroll :=
        if ioGroup port = 6 ∧ (b.controlAfter port value).portBOutputEnabled = true then
          (b.controlAfter port value).outputB
        else b.verticalScroll
      videoInterruptLatch := b.videoInterruptLatch && decide (ioGroup port ≠ 7) }
  | .host _ => b.systemSide

theorem act_systemSide (b : Board) (a : Action) : (b.act a).systemSide = b.systemAfter a := by
  cases a with
  | advance cpuCycles => exact advanceTime_systemSide b cpuCycles
  | reset =>
    have hrender : ∀ v : Board, v.renderVideo.systemSide =
        { v.systemSide with
          frameBuffer := picture v.systemSide.videoRam v.systemSide.verticalScroll } := fun _ => rfl
    show b.reset.systemSide = _
    unfold reset
    rw [hrender, refresh_systemSide]
    rfl
  | host op =>
    cases op with
    | keyboardKeyDown keyId code =>
      simp only [act, Board.host, keyboardKeyDown]
      split
      · exact deliverKeyboardCode_systemSide _ _
      · rfl
    | takePrinterByte =>
      simp only [act, Board.host, takePrinterByte, systemAfter]
      split
      next hempty => simp [systemSide, hempty]
      next hfull => simp [systemSide, hfull]
    | queueSerialReceivedByte value =>
      simp only [act, Board.host, queueSerialReceivedByte]
      split <;> rfl
    | setSerialConnected connected => exact refresh_systemSide _
    | setSerialClearToSend clear => exact refresh_systemSide _
    | setMouseSignals signals =>
      exact (refresh_systemSide _).trans (updateMouseSignals_systemSide _ _)
    | mouseMotion deltaX deltaY => exact (refresh_systemSide _).trans (advanceMouse_systemSide _ _)
    | setMouseButton button pressed =>
      exact (refresh_systemSide _).trans (updateMouseSignals_systemSide _ _)
    | readIo port => exact readIo_systemSide b port
    | writeIo port value => exact writeIo_systemSide b port value
    | keyboardKeyUp | setPrinterOnline | takeSerialTransmittedByte | insertFloppy | ejectFloppy
    | setFloppyIndexPulseWidth | setRomImage | writeMemory | writeVideoRam | setVerticalScroll => rfl

end Board
end FK1
