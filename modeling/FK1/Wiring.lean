import FK1.Frame

/-!
# FK1.Wiring

The wiring of the disk controller and the coherence of the interrupt lines, over every run.

Inside an operation the board is `Steady` (wired and quiet) between the bytes, edges and pulses it
is made of; after an operation it is `Coherent`, which every action preserves (`act_coherent`).
-/

namespace FK1
namespace Board

structure Steady (b : Board) : Prop extends Wired b, Quiet b

structure Coherent (b : Board) : Prop extends Wired b, Settled b where
  flushed : b.disk.pendingWrites = []

variable {b b' : Board}

theorem Steady.congr (h : b.Steady) (hs : b'.diskSide = b.diskSide) : b'.Steady :=
  ⟨h.toWired.congr hs, h.toQuiet.congr hs⟩

theorem Coherent.steady (h : b.Coherent) : b.Steady := ⟨h.toWired, h.toQuiet⟩

theorem refresh_steady (h : b.Wired) : b.refreshInterruptSources.Steady :=
  ⟨refresh_wired h, (refresh_settled b).toQuiet⟩

theorem Steady.refresh_diskSide (h : b.Steady) : b.refreshInterruptSources.diskSide = b.diskSide :=
  Board.refresh_diskSide h.toWired h.toQuiet

/-! ## Disk bytes -/

theorem transfer_steady (h : b.Wired) (tick : Nat) : (b.transferFloppyWriteByte tick).2.Steady :=
  refresh_steady ⟨h.timing, h.gate1, h.idle, h.ordinary, h.format,
    h.selected.trans (by rw [Ppi8255.pulseAckA_eq h.atRest.ackA]; rfl), h.gateStops, h.counter2,
    h.atRest.pulseAckA⟩

theorem present_steady (h : b.Wired) (byte : TimedFmByte) : (b.presentFloppyByte byte).Steady := by
  have hrefresh : { b with diskData := b.diskData.pulseStrobeB byte.data
      }.refreshInterruptSources.Steady :=
    refresh_steady ⟨h.timing, h.gate1, h.idle, h.ordinary, h.format,
      h.selected.trans (by rw [Ppi8255.pulseStrobeB_eq h.atRest.strobeB]; rfl), h.gateStops,
      h.counter2, h.atRest.pulseStrobeB _⟩
  exact ⟨hrefresh.toWired.log _, hrefresh.toQuiet.log _⟩

/-- While an operation is enabled the timing logic is. -/
theorem Wired.timing_of_read (h : b.Wired) (hr : b.disk.aux.readEnabled = true) :
    b.disk.timingEnabled = true := by
  cases ht : b.disk.timingEnabled with
  | true => rfl
  | false => rw [(h.idle ht).1.1] at hr; cases hr

theorem readFloppyByte_steady (h : b.Steady) (byte : TimedFmByte) : (b.readFloppyByte byte).Steady := by
  unfold readFloppyByte
  split
  · exact h
  rename_i hr
  have ht := h.timing_of_read (by simpa using hr)
  split
  · exact present_steady h.toWired byte
  split
  · apply present_steady
    refine ⟨h.timing, ?_, fun hi => ?_, h.ordinary, h.format, h.selected,
      Pit8253.setGate_gateStops _ _ _, Pit8253.setGate_armed_other h.counter2 _ (by decide),
      h.atRest⟩
    · simp [log]
    · cases ht.symm.trans hi
  · exact h

theorem endFormat_steady (h : b.Wired) (ht : b.disk.timingEnabled = true) : b.endFormat.Steady :=
  refresh_steady ⟨h.timing, by simp [ht], fun hi => by simp [ht] at hi, nofun, nofun, h.selected,
    Pit8253.setGate_gateStops _ _ _, Pit8253.setGate_armed_other h.counter2 _ (by decide), h.atRest⟩

theorem processFloppyByte_steady (h : b.Steady) (byte : TimedFmByte) :
    (b.processFloppyByte byte).Steady := by
  obtain ⟨hw, hq⟩ := h
  have hlast : { b with disk := { b.disk with lastByteTick := byte.tick } }.Steady :=
    ⟨⟨hw.timing, hw.gate1, hw.idle, hw.ordinary, hw.format, hw.selected, hw.gateStops, hw.counter2,
      hw.atRest⟩, hq.level, hq.endOfData⟩
  unfold processFloppyByte
  dsimp only
  split
  · exact hlast
  rename_i ht
  have ht : b.disk.timingEnabled = true := by simpa using ht
  split
  · exact endFormat_steady hlast.toWired ht
  split
  · rename_i hindex
    simp only [Bool.and_eq_true] at hindex
    have hstart : { b with
        disk := { b.disk with lastByteTick := byte.tick, formatWriteActive := true } }.Wired :=
      ⟨hw.timing, hw.gate1, fun hi => by simp [ht] at hi, hw.ordinary, fun _ => hindex.1, hw.selected,
        hw.gateStops, hw.counter2, hw.atRest⟩
    exact readFloppyByte_steady (transfer_steady hstart _) _
  · split
    · exact readFloppyByte_steady (transfer_steady hlast.toWired _) _
    · exact readFloppyByte_steady hlast byte

theorem processFloppyBytes_steady (bytes : List TimedFmByte) (h : b.Steady) :
    (bytes.foldl processFloppyByte b).Steady := by
  induction bytes generalizing b with
  | nil => exact h
  | cons byte bytes ih => exact ih (processFloppyByte_steady h byte)

/-- Storing cells only touches the drives and the trace. -/
theorem storeBytes_steady (bytes : List TimedFmByte) (h : b.Steady) :
    (bytes.foldl (fun b byte =>
      let result := b.floppy.writeSelectedByte byte
      let b := { b with floppy := result.2 }
      if result.1 then b.log (.written byte) else b) b).Steady := by
  induction bytes generalizing b with
  | nil => exact h
  | cons byte bytes ih =>
    refine ih ?_
    obtain ⟨hw, hq⟩ := h
    have hsel := (b.floppy.writeSelectedByte_selected byte).trans hw.selected
    dsimp only
    split <;> exact ⟨⟨hw.timing, hw.gate1, hw.idle, hw.ordinary, hw.format, hsel, hw.gateStops,
      hw.counter2, hw.atRest⟩, hq.level, hq.endOfData⟩

theorem flush_steady (h : b.Steady) :
    b.flushPendingDiskWrites.Steady ∧ b.flushPendingDiskWrites.disk.pendingWrites = [] := by
  obtain ⟨hw, hq⟩ := storeBytes_steady b.disk.pendingWrites h
  exact ⟨⟨⟨hw.timing, hw.gate1, hw.idle, hw.ordinary, hw.format, hw.selected, hw.gateStops,
    hw.counter2, hw.atRest⟩, hq.level, hq.endOfData⟩, rfl⟩

/-! ## Keyboard, mouse, video -/

theorem deliverKeyboardCode_diskSide (h : b.Steady) (code : Byte) :
    (b.deliverKeyboardCode code).diskSide = b.diskSide := by
  have hstrobe : { b with printerKeyboard := b.printerKeyboard.pulseStrobeB (~~~code) }.Steady :=
    h.congr rfl
  exact hstrobe.refresh_diskSide

theorem advanceKeyboard_diskSide (h : b.Steady) (masterTicks : Nat) :
    (b.advanceKeyboard masterTicks).diskSide = b.diskSide := by
  have hdeliver : ∀ (repeats : Nat) (b' : Board), b'.diskSide = b.diskSide →
      (advanceKeyboard.deliver repeats b').diskSide = b.diskSide := by
    intro repeats
    induction repeats with
    | zero => exact fun _ hs => hs
    | succ repeats ih =>
      exact fun b' hs => ih _ ((deliverKeyboardCode_diskSide (h.congr hs) _).trans hs)
  exact hdeliver _ _ rfl

theorem updateMouseSignals_diskSide (b : Board) (signals : Byte) :
    (b.updateMouseSignals signals).diskSide = b.diskSide := by
  obtain ⟨_, _, he⟩ := updateMouseSignals_frame b signals
  rw [he]; rfl

theorem advanceMouse_diskSide (b : Board) (masterTicks : Nat) :
    (b.advanceMouse masterTicks).diskSide = b.diskSide := by
  obtain ⟨_, _, he⟩ := advanceMouse_frame b masterTicks
  rw [he]; rfl

theorem advanceFrame_diskSide (b : Board) (masterTicks : Nat) :
    (b.advanceFrame masterTicks).diskSide = b.diskSide := by
  unfold advanceFrame
  dsimp only
  split
  · rfl
  · simp [diskSide, renderVideo]

/-! ## Time -/

theorem advanceFloppy_steady (h : b.Steady) (masterTicks : Nat) :
    (b.advanceFloppy masterTicks).Steady := by
  obtain ⟨hw, hq⟩ := processFloppyBytes_steady (b.floppy.visitBytes masterTicks) h
  exact ⟨⟨hw.timing, hw.gate1, hw.idle, hw.ordinary, hw.format, hw.selected, hw.gateStops, hw.counter2,
    hw.atRest⟩, hq.level, hq.endOfData⟩

theorem applyTimerEdges_steady (h : b.Steady) (edges : Nat) : (b.applyTimerEdges edges).Steady := by
  unfold applyTimerEdges
  -- first the timeout latch, then the start of an ordinary write
  extract_lets b₁
  have h₁ : b₁.Steady ∧ b₁.disk = b.disk := by
    unfold b₁
    split
    · rename_i he
      simp only [Bool.and_eq_true] at he
      refine ⟨⟨⟨h.timing, h.gate1, fun hi => ?_, h.ordinary, h.format, h.selected, h.gateStops,
        h.counter2, h.atRest⟩, h.level, h.endOfData⟩, rfl⟩
      have := he.1.1.1; rw [this] at hi; cases hi
    · exact ⟨h, rfl⟩
  obtain ⟨⟨hw, hq⟩, hdisk⟩ := h₁
  split
  · rename_i he
    simp only [Bool.and_eq_true] at he
    apply transfer_steady
    exact ⟨hw.timing, hw.gate1, fun hi => (by cases he.1.1.1.symm.trans hi), fun _ => he.1.1.2,
      hw.format, hw.selected, hw.gateStops, hw.counter2, hw.atRest⟩
  · exact ⟨hw, hq⟩

theorem advanceTimer_steady (h : b.Steady) (masterTicks : Nat) :
    (b.advanceTimer masterTicks).Steady := by
  unfold advanceTimer
  dsimp only
  split
  · exact h.congr rfl
  · apply applyTimerEdges_steady
    refine ⟨⟨h.timing, ?_, h.idle, h.ordinary, h.format, h.selected, ?_, ?_, h.atRest⟩, h.level, ?_⟩
    · exact (Pit8253.clock_gate _ _ _ _).trans h.gate1
    · exact Pit8253.clock_gateStops h.gateStops _ _
    · exact Pit8253.clock_armed h.counter2 _ _
    · intro ho
      refine h.endOfData ?_
      simpa [log, Pit8253.output] using ho

theorem advanceTime_coherent (h : b.Steady) (cpuCycles : Nat) : (b.advanceTime cpuCycles).Coherent := by
  unfold advanceTime
  extract_lets masterTicks b₀ b₁ b₂ b₃
  have h₀ : b₀.Steady := h.congr rfl
  have h₁ : b₁.Steady := (advanceFloppy_steady h₀ masterTicks).congr rfl
  have h₂ : b₂.Steady :=
    h₁.congr ((advanceMouse_diskSide _ _).trans (advanceKeyboard_diskSide h₁ _))
  obtain ⟨h₃, hflushed⟩ := flush_steady (advanceTimer_steady h₂ masterTicks)
  have h₄ : (b₃.advanceFrame masterTicks).Steady := h₃.congr (advanceFrame_diskSide _ _)
  refine ⟨refresh_wired h₄.toWired, refresh_settled _, ?_⟩
  have hsame := h₄.refresh_diskSide.trans (advanceFrame_diskSide b₃ masterTicks)
  have hdisk := congrArg DiskSide.disk hsame
  exact (congrArg DiskState.pendingWrites hdisk).trans hflushed

/-! ## Operations -/

theorem refresh_pendingWrites (b : Board) :
    b.refreshInterruptSources.disk.pendingWrites = b.disk.pendingWrites := by
  have hsample : b.sampleDiskData.disk.pendingWrites = b.disk.pendingWrites := by
    rcases sampleDiskData_cases b with ⟨he, _⟩ | ⟨he, _⟩ | ⟨he, _⟩ <;> rw [he] <;> rfl
  have hend : b.sampleDiskData.applyEndOfData.disk.pendingWrites =
      b.sampleDiskData.disk.pendingWrites := by
    unfold applyEndOfData
    split
    · dsimp only; split <;> rfl
    · rfl
  exact hend.trans hsample

theorem refresh_coherent (hw : b.Wired) (hp : b.disk.pendingWrites = []) :
    b.refreshInterruptSources.Coherent :=
  ⟨refresh_wired hw, refresh_settled b, (refresh_pendingWrites b).trans hp⟩

/-- What changes neither the disk side nor the interrupt lines and their sources. -/
theorem Coherent.congr (h : b.Coherent) (hs : b'.diskSide = b.diskSide)
    (hsources : b'.sources = b.sources) (hi : b'.interrupts = b.interrupts)
    (hpin : b'.intPin = b.intPin) : b'.Coherent := by
  refine ⟨h.toWired.congr hs, ⟨h.toQuiet.congr hs, ?_, ?_⟩, ?_⟩
  · rw [hi, hsources]; exact h.inputs
  · rw [hi, hpin]; exact h.intPin
  · have hdisk : b'.disk = b.disk := congrArg DiskSide.disk hs
    rw [hdisk]; exact h.flushed

/-- The media and the step line of the drives may change, not the selected drive. -/
theorem Wired.withFloppy (h : b.Wired) {floppy : FloppySubsystem}
    (hs : floppy.selectedDriveIndex = b.floppy.selectedDriveIndex) :
    { b with floppy := floppy }.Wired :=
  ⟨h.timing, h.gate1, h.idle, h.ordinary, h.format, hs.trans h.selected, h.gateStops, h.counter2,
    h.atRest⟩

theorem Coherent.withFloppy (h : b.Coherent) {floppy : FloppySubsystem}
    (hs : floppy.selectedDriveIndex = b.floppy.selectedDriveIndex) :
    { b with floppy := floppy }.refreshFloppyInputs.Coherent :=
  ⟨(h.toWired.withFloppy hs).congr rfl, ⟨⟨h.level, h.endOfData⟩, h.inputs, h.intPin⟩, h.flushed⟩

/-! ### Reading ports -/

theorem read_outputs (p : Ppi8255) (registerIndex : Byte) :
    (p.read registerIndex).2.outputA = p.outputA ∧ (p.read registerIndex).2.outputC = p.outputC ∧
      (p.read registerIndex).2.portAOutputEnabled = p.portAOutputEnabled ∧
      (p.read registerIndex).2.portCUpperOutputEnabled = p.portCUpperOutputEnabled := by
  unfold Ppi8255.read Ppi8255.readPortA Ppi8255.readPortB
  repeat' split
  all_goals exact ⟨rfl, rfl, rfl, rfl⟩

theorem readIo_coherent (h : b.Coherent) (port : Word) : (b.readIo port).2.Coherent := by
  unfold readIo
  dsimp only
  split
  · exact refresh_coherent (h.toWired.congr rfl) h.flushed
  · refine refresh_coherent ⟨h.timing, ?_, h.idle, h.ordinary, h.format, h.selected, ?_, ?_, h.atRest⟩
      h.flushed
    · exact (Pit8253.read_gate _ _ _).trans h.gate1
    · exact Pit8253.read_gateStops h.gateStops _
    · exact Pit8253.read_armed h.counter2 _
  · obtain ⟨_, hc, _, hup⟩ := read_outputs b.diskData (registerOf port)
    refine refresh_coherent ⟨h.timing, h.gate1, h.idle, h.ordinary, h.format, ?_, h.gateStops,
      h.counter2, h.atRest.read _⟩ h.flushed
    rw [selection, hc, hup]; exact h.selected
  · exact refresh_coherent (h.toWired.congr rfl) h.flushed
  · exact refresh_coherent (h.toWired.congr rfl) h.flushed
  · exact refresh_coherent (h.toWired.congr rfl) h.flushed
  · obtain ⟨ha, _, hae, _⟩ := read_outputs b.refreshFloppyInputs.machineControl (registerOf port)
    refine refresh_coherent (h.toWired.congr ?_) h.flushed
    simp only [diskSide, ha, hae]; rfl
  · exact refresh_coherent (h.toWired.congr rfl) h.flushed

/-! ### Writing ports -/

theorem writePrinterKeyboard_diskSide (b : Board) (registerIndex value : Byte) :
    (b.writePrinterKeyboard registerIndex value).diskSide = b.diskSide := by
  unfold writePrinterKeyboard; dsimp only; split <;> rfl

theorem writeTimer_wired (h : b.Wired) (registerIndex value : Byte) :
    (b.writeTimer registerIndex value).Wired := by
  have hgate := Pit8253.write_gate b.timer registerIndex value 1
  unfold writeTimer
  split
  · exact ⟨h.timing, hgate.trans h.gate1, fun hi => ⟨(h.idle hi).1, rfl⟩, h.ordinary, h.format,
      h.selected, Pit8253.write_gateStops h.gateStops _ _, Pit8253.write_armed h.counter2 _ _, h.atRest⟩
  · exact ⟨h.timing, hgate.trans h.gate1, h.idle, h.ordinary, h.format, h.selected,
      Pit8253.write_gateStops h.gateStops _ _, Pit8253.write_armed h.counter2 _ _, h.atRest⟩

theorem synchronizeDiskSelection_diskSide (b : Board) :
    b.synchronizeDiskSelection.diskSide = { b.diskSide with
      floppy := { b.floppy with selectedDriveIndex := selection b.diskData } } := by
  unfold synchronizeDiskSelection selection FloppySubsystem.selectFromDiskPpi
  simp only [diskSide, refreshFloppyInputs, DiskSide.mk.injEq, true_and, and_true]
  refine ⟨rfl, rfl, ?_⟩
  cases hup : b.diskData.portCUpperOutputEnabled <;>
    cases hc : hasBits b.diskData.outputC 0x20#8 <;> simp [hc] <;> decide

theorem synchronizeDiskSelection_wired (h : b.Wired) (registerIndex value : Byte) :
    { b with diskData := b.diskData.write registerIndex value
      }.synchronizeDiskSelection.Wired := by
  refine Wired.congr (b := { b with
    diskData := b.diskData.write registerIndex value
    floppy := { b.floppy with
      selectedDriveIndex := selection (b.diskData.write registerIndex value) } }) ?_
    (synchronizeDiskSelection_diskSide _)
  exact ⟨h.timing, h.gate1, h.idle, h.ordinary, h.format, rfl, h.gateStops, h.counter2,
    h.atRest.write _ _⟩

theorem writeDiskAux_eq (b : Board) (value : Byte) :
    b.writeDiskAux value = { b with
      disk := { b.disk with
        aux := if b.disk.timingEnabled then b.disk.aux.write value else {}
        ordinaryWriteActive := b.disk.ordinaryWriteActive && hasBits value 0x02#8
        formatWriteActive := b.disk.formatWriteActive && hasBits value 0x10#8 }
      diskTimeoutLatch := b.diskTimeoutLatch && (hasBits value 0x01#8 || hasBits value 0x10#8) } := by
  unfold writeDiskAux DiskAuxControl.write DiskAuxControl.reset
  cases hasBits value 0x01#8 <;> cases hasBits value 0x02#8 <;> cases hasBits value 0x10#8 <;>
    cases ht : b.disk.timingEnabled <;> simp [ht]

theorem writeDiskAux_wired (h : b.Wired) (value : Byte) : (b.writeDiskAux value).Wired := by
  rw [writeDiskAux_eq]
  refine ⟨h.timing, h.gate1, fun hi => ?_, fun ho => ?_, fun hf => ?_, h.selected, h.gateStops,
    h.counter2, h.atRest⟩
  · obtain ⟨⟨_, hsync, hord, hfmt⟩, hlatch⟩ := h.idle hi
    simp only at hi
    simp [DiskState.Ended, hi, hsync, hord, hfmt, hlatch]
  · simp only [Bool.and_eq_true] at ho
    have ht : b.disk.timingEnabled = true := by
      cases ht : b.disk.timingEnabled with
      | true => rfl
      | false => cases (h.idle ht).1.2.2.1.symm.trans ho.1
    simp [ht, DiskAuxControl.write, ho.2]
  · simp only [Bool.and_eq_true] at hf
    have ht : b.disk.timingEnabled = true := by
      cases ht : b.disk.timingEnabled with
      | true => rfl
      | false => cases (h.idle ht).1.2.2.2.symm.trans hf.1
    simp [ht, DiskAuxControl.write, hf.2]

theorem synchronizeControlOutputs_eq (b : Board) :
    let floppy := b.floppy.setControlPortC b.machineControl.outputC
      b.machineControl.portCLowerOutputEnabled
    let timing := timingSelected b.machineControl
    b.synchronizeControlOutputs = { b with
      verticalScroll := if b.machineControl.portBOutputEnabled then b.machineControl.outputB
        else b.verticalScroll
      floppy := floppy
      machineControl := b.machineControl.setPortCInput floppy.controlPortCInputs
      disk := { b.disk with
        timingEnabled := timing
        syncLatch := b.disk.syncLatch && timing
        ordinaryWriteActive := b.disk.ordinaryWriteActive && timing
        formatWriteActive := b.disk.formatWriteActive && timing
        aux := if timing then b.disk.aux else {} }
      diskTimeoutLatch := b.diskTimeoutLatch && timing
      timer := b.timer.setGate 1 (!timing || b.disk.syncLatch && timing) } := by
  unfold synchronizeControlOutputs setVerticalScroll refreshFloppyInputs timingSelected
  cases hb : b.machineControl.portBOutputEnabled <;>
    cases ht : b.machineControl.portAOutputEnabled && !hasBits b.machineControl.outputA 0x40#8 <;>
    simp only [hb, ht, DiskAuxControl.reset, Bool.and_true, Bool.and_false, Bool.not_true,
      Bool.not_false, Bool.false_eq_true, if_true, if_false, Bool.or_false, Bool.false_or]

theorem synchronizeControlOutputs_wired (h : b.Wired) (registerIndex value : Byte) :
    { b with machineControl := b.machineControl.write registerIndex value
      }.synchronizeControlOutputs.Wired := by
  generalize b.machineControl.write registerIndex value = control
  rw [synchronizeControlOutputs_eq]
  refine ⟨rfl, Pit8253.setGate_gate_self _ _ _, fun hi => ?_, fun ho => ?_, fun hf => ?_,
    (b.floppy.setControlPortC_selected _ _).trans h.selected, Pit8253.setGate_gateStops _ _ _,
    Pit8253.setGate_armed_other h.counter2 _ (by decide), h.atRest⟩
  · simp only at hi
    simp [DiskState.Ended, hi]
  · simp only [Bool.and_eq_true] at ho
    rw [if_pos ho.2]; exact h.ordinary ho.1
  · simp only [Bool.and_eq_true] at hf
    rw [if_pos hf.2]; exact h.format hf.1

theorem writeIo_coherent (h : b.Coherent) (port : Word) (value : Byte) :
    (b.writeIo port value).Coherent := by
  unfold writeIo
  dsimp only
  split
  · have hs := writePrinterKeyboard_diskSide b (registerOf port) value
    refine refresh_coherent (h.toWired.congr hs) ?_
    exact (congrArg (fun s => s.disk.pendingWrites) hs).trans h.flushed
  · refine refresh_coherent (writeTimer_wired h.toWired _ _) ?_
    unfold writeTimer; split <;> exact h.flushed
  · exact refresh_coherent (synchronizeDiskSelection_wired h.toWired _ _) h.flushed
  · exact refresh_coherent (h.toWired.congr rfl) h.flushed
  · exact refresh_coherent (h.toWired.congr rfl) h.flushed
  · refine refresh_coherent (writeDiskAux_wired h.toWired _) ?_
    rw [writeDiskAux_eq]; exact h.flushed
  · refine refresh_coherent (synchronizeControlOutputs_wired h.toWired _ _) ?_
    rw [synchronizeControlOutputs_eq]; exact h.flushed
  · exact refresh_coherent (h.toWired.congr rfl) h.flushed

/-! ### Host operations -/

theorem queueReceivedByte_requested (u : Uart8251) (value : Byte) :
    (u.queueReceivedByte value).2.interruptRequested = u.interruptRequested := by
  unfold Uart8251.queueReceivedByte; split <;> rfl

theorem takeTransmittedByte_requested (u : Uart8251) :
    u.takeTransmittedByte.2.interruptRequested = u.interruptRequested := by
  unfold Uart8251.takeTransmittedByte; split <;> rfl

/-- The 8251's interrupt request is all that the sources see of it. -/
theorem Coherent.withUart (h : b.Coherent) {uart : Uart8251}
    (hu : uart.interruptRequested = b.uart.interruptRequested) : { b with uart := uart }.Coherent := by
  refine h.congr rfl ?_ rfl rfl
  funext i
  match i with
  | 2 => exact hu
  | 0 | 1 | 3 | 4 | 5 | 6 | 7 => rfl

theorem host_coherent (h : b.Coherent) (op : HostOp) : (b.host op).Coherent := by
  cases op with
  | keyboardKeyDown keyId code =>
    show (b.keyboardKeyDown keyId code).Coherent
    unfold keyboardKeyDown
    dsimp only
    split
    · exact refresh_coherent (h.toWired.congr rfl) h.flushed
    · exact h.congr rfl rfl rfl rfl
  | keyboardKeyUp keyId => exact h.congr rfl rfl rfl rfl
  | setPrinterOnline online => exact h.congr rfl rfl rfl rfl
  | takePrinterByte =>
    show b.takePrinterByte.2.Coherent
    unfold takePrinterByte
    split
    · exact h
    · exact h.congr rfl rfl rfl rfl
  | setSerialConnected connected => exact refresh_coherent (h.toWired.congr rfl) h.flushed
  | setSerialClearToSend clear => exact refresh_coherent (h.toWired.congr rfl) h.flushed
  | queueSerialReceivedByte value =>
    show (b.queueSerialReceivedByte value).2.Coherent
    unfold queueSerialReceivedByte
    split
    · exact h
    · exact h.withUart (queueReceivedByte_requested b.uart value)
  | takeSerialTransmittedByte => exact h.withUart (takeTransmittedByte_requested b.uart)
  | insertFloppy drive image access =>
    exact h.withFloppy (b.floppy.insert_selected drive image access)
  | ejectFloppy drive =>
    exact h.withFloppy (b.floppy.eject_selected drive)
  | setFloppyIndexPulseWidth masterTicks =>
    exact h.withFloppy (b.floppy.setIndexPulseWidth_selected masterTicks)
  | setMouseSignals signals =>
    have hs := updateMouseSignals_diskSide { b with
      mouse := { b.mouse with
        xPhase := quadraturePhase signals 0
        yPhase := quadraturePhase signals 2
        pendingX := 0
        pendingY := 0
        edgeTickAccumulator := mouseEdgeIntervalTicks } } signals
    exact refresh_coherent (h.toWired.congr hs)
      ((congrArg (fun s => s.disk.pendingWrites) hs).trans h.flushed)
  | mouseMotion deltaX deltaY =>
    have hs := advanceMouse_diskSide { b with
      mouse := { b.mouse with
        pendingX := queueMouseDelta b.mouse.pendingX deltaX
        pendingY := queueMouseDelta b.mouse.pendingY deltaY } } 0
    exact refresh_coherent (h.toWired.congr hs)
      ((congrArg (fun s => s.disk.pendingWrites) hs).trans h.flushed)
  | setMouseButton button pressed =>
    have hs := updateMouseSignals_diskSide b
    exact refresh_coherent (h.toWired.congr (hs _))
      ((congrArg (fun s => s.disk.pendingWrites) (hs _)).trans h.flushed)
  | setRomImage image =>
    show (b.setRomImage image).2.Coherent
    unfold setRomImage; split
    · exact h
    · exact h.congr rfl rfl rfl rfl
  | writeMemory address value =>
    show (b.writeMemory address value).Coherent
    unfold writeMemory
    dsimp only
    repeat' split
    all_goals first | exact h | exact h.congr rfl rfl rfl rfl
  | readIo port => exact readIo_coherent h port
  | writeIo port value => exact writeIo_coherent h port value
  | writeVideoRam address value => exact h.congr rfl rfl rfl rfl
  | setVerticalScroll value => exact h.congr rfl rfl rfl rfl

/-! ## Runs -/

theorem resetPeripherals_wired (b : Board) : b.resetPeripherals.Wired := by
  refine ⟨?_, ?_, fun _ => ⟨⟨rfl, rfl, rfl, rfl⟩, rfl⟩, nofun, nofun, ?_, ?_, ?_,
    (Ppi8255.atRest_reset _).setPortCInput _⟩
  · simp [resetPeripherals, timingSelected, Ppi8255.reset, Ppi8255.modeSet, Ppi8255.setPortAInput,
      Ppi8255.setPortCInput, Ppi8255.portAOutputEnabled, hasBits]
  · exact (Pit8253.setGate_gate_other _ _ (by decide)).trans (Pit8253.setGate_gate_self _ _ _)
  · simp [resetPeripherals, selection, Ppi8255.reset, Ppi8255.modeSet, Ppi8255.setPortCInput,
      Ppi8255.portCUpperOutputEnabled, hasBits, FloppySubsystem.resetController]
  · show ((_ : Pit8253).setGate 2 true |>.channels 1).GateStops
    rw [Pit8253.setGate_other _ _ (by decide)]
    exact Pit8253.setGate_gateStops _ _ _
  · show (((_ : Pit8253).setGate 2 true).channels 2).Armed
    rw [Pit8253.setGate, Pit8253.modify_self, Pit8253.setGate_other _ _ (by decide),
      Pit8253.setGate_other _ _ (by decide)]
    exact PitChannel.armed_setGate rfl

theorem Coherent.renderVideo (h : b.Coherent) : b.renderVideo.Coherent := h.congr rfl rfl rfl rfl

theorem reset_coherent (b : Board) : b.reset.Coherent := by
  unfold reset
  exact (refresh_coherent ((resetPeripherals_wired _).log .reset) rfl).renderVideo

theorem act_coherent (h : b.Coherent) (a : Action) : (b.act a).Coherent := by
  cases a with
  | host op => exact host_coherent h op
  | advance cpuCycles => exact advanceTime_coherent h.steady cpuCycles
  | reset => exact reset_coherent b

theorem Reachable.coherent (h : b.Reachable) : b.Coherent := by
  obtain ⟨bootRom, h⟩ := h
  exact h.invariant (reset_coherent _) fun _ a hb => act_coherent hb a

end Board

namespace Machine

variable {σ : Type}

/-- The disk controller is wired as the board has it after every operation of every run. -/
theorem disk_wiring (z : Z80 σ) (bootRom : List Byte) (ops : List Op) :
    let b := (Run.run (step z) (power z bootRom) ops).board
    (b.disk.timingEnabled = true ↔
      b.machineControl.portAOutputEnabled = true ∧ hasBits b.machineControl.outputA 0x40#8 = false) ∧
    (b.timer.gate 1 = true ↔ b.disk.timingEnabled = false ∨ b.disk.syncLatch = true) ∧
    (b.disk.timingEnabled = false → b.disk.Ended ∧ b.diskTimeoutLatch = false) ∧
    (b.timer.output 2 = true → b.disk.Ended) ∧
    (b.disk.ordinaryWriteActive = true → b.disk.aux.writeEnabled = true) ∧
    (b.disk.formatWriteActive = true → b.disk.aux.formatEnabled = true) ∧
    b.floppy.selectedDriveIndex =
      (if b.diskData.portCUpperOutputEnabled = true ∧ hasBits b.diskData.outputC 0x20#8 = false
        then driveA else driveB) ∧
    b.disk.pendingWrites = [] := by
  intro b
  have h : b.Coherent := (run_reachable z bootRom ops).coherent
  refine ⟨?_, ?_, h.idle, h.endOfData, h.ordinary, h.format, ?_, h.flushed⟩
  · simp [h.timing, timingSelected]
  · simp [h.gate1]
  · simp [h.selected, selection]

/-- The interrupt lines are coherent after every operation of every run, and at every acknowledge an
asserted INT has the vector of the highest request. -/
theorem interrupt_coherence (z : Z80 σ) (bootRom : List Byte) (ops : List Op) :
    let m := Run.run (step z) (power z bootRom) ops
    (∀ i, m.board.interrupts.inputs i = m.board.sources i) ∧
    (m.board.intPin = true ↔
      ∃ i : Fin 8, i.val ≥ 8 - m.board.interrupts.mask ∧ m.board.interrupts.inputs i = true) ∧
    (∀ b ∈ m.acknowledged, b.intPin = true →
      ∃ i, b.interrupts.Requests i ∧ (∀ j, b.interrupts.Requests j → j ≤ i) ∧
        b.interrupts.vector.toNat = 2 * (7 - i.val) ∧ b.interrupts.vector ≠ 0xFF#8) ∧
    m.board.refreshInterruptSources = m.board := by
  intro m
  obtain ⟨hnow, hacks⟩ := run_acknowledges z bootRom ops
  have h : m.board.Coherent := hnow.coherent
  refine ⟨fun i => congrFun h.inputs i, ?_, fun b hb hpin => ?_,
    Board.refresh_of_settled h.toWired h.toSettled⟩
  · rw [h.intPin]; exact m.board.interrupts.pending_iff
  · have hb := (hacks b hb).coherent
    exact InterruptController3214.vector_of_pending (hb.intPin.symm.trans hpin)

end Machine
end FK1
