import FK1.Machine

/-!
# FK1.Refresh

What `refresh_interrupt_sources` keeps and what it establishes.

* `DiskSide`: the part of a board the disk controller works on; most operations leave it alone.
* `Board.Wired`: what the controller's flip-flops, the control 8255, GATE1 and the drive selection
  agree on at every moment, also between two refreshes.
* `Board.Settled`: what a refresh adds: the edge detector has seen the present level, OUT2 has done
  its asynchronous reset, the 3214 inputs and the INT pin follow the present sources. The first two
  are `Board.Quiet`: on a quiet board a further refresh does nothing to the disk side.
-/

namespace FK1

/-- PC5 of the data 8255 selects the drive; its pull-up selects drive B. -/
def selection (diskData : Ppi8255) : Fin 2 :=
  if diskData.portCUpperOutputEnabled && !hasBits diskData.outputC 0x20#8 then driveA else driveB

/-- PA6 of the control 8255 as an active-low output. -/
def timingSelected (control : Ppi8255) : Bool :=
  control.portAOutputEnabled && !hasBits control.outputA 0x40#8

/-- The auxiliary register and everything a running operation sets are clear. -/
def DiskState.Ended (d : DiskState) : Prop :=
  d.aux = {} ∧ d.syncLatch = false ∧ d.ordinaryWriteActive = false ∧ d.formatWriteActive = false

theorem DiskState.Ended.eq {d : DiskState} (h : d.Ended) :
    { d with
      aux := d.aux.reset, syncLatch := false, ordinaryWriteActive := false
      formatWriteActive := false } = d := by
  obtain ⟨haux, hsync, hord, hfmt⟩ := h
  cases d
  simp only at haux hsync hord hfmt
  subst haux hsync hord hfmt
  rfl

/-- The disk controller's share of a board, with the ghost trace. -/
structure DiskSide where
  disk : DiskState
  diskData : Ppi8255
  counter1 : PitChannel
  counter2 : PitChannel
  diskTimeoutLatch : Bool
  controlA : Byte
  controlAEnabled : Bool
  floppy : FloppySubsystem
  trace : List Event

namespace Board

def diskSide (b : Board) : DiskSide where
  disk := b.disk
  diskData := b.diskData
  counter1 := b.timer.channels 1
  counter2 := b.timer.channels 2
  diskTimeoutLatch := b.diskTimeoutLatch
  controlA := b.machineControl.outputA
  controlAEnabled := b.machineControl.portAOutputEnabled
  floppy := b.floppy
  trace := b.trace

structure Wired (b : Board) : Prop where
  timing : b.disk.timingEnabled = timingSelected b.machineControl
  gate1 : b.timer.gate 1 = (!b.disk.timingEnabled || b.disk.syncLatch)
  idle : b.disk.timingEnabled = false → b.disk.Ended ∧ b.diskTimeoutLatch = false
  ordinary : b.disk.ordinaryWriteActive = true → b.disk.aux.writeEnabled = true
  format : b.disk.formatWriteActive = true → b.disk.aux.formatEnabled = true
  selected : b.floppy.selectedDriveIndex = selection b.diskData
  gateStops : (b.timer.channels 1).GateStops
  counter2 : (b.timer.channels 2).Armed
  atRest : b.diskData.AtRest

/-- The sources of the 3214's inputs. -/
def sources (b : Board) (i : Fin 8) : Bool :=
  match i with
  | 7 => b.diskData.intrA || b.diskData.intrB
  | 6 => b.diskTimeoutLatch
  | 5 => b.timer.output 2
  | 4 => b.videoInterruptLatch
  | 3 => b.mouseInterruptLatch
  | 2 => b.uart.interruptRequested
  | 1 => b.printerKeyboard.intrB
  | 0 => b.printerKeyboard.intrA

/-- Nothing on the disk side waits for a refresh. -/
structure Quiet (b : Board) : Prop where
  level : b.disk.dataInterruptLevel = (b.diskData.intrA || b.diskData.intrB)
  endOfData : b.timer.output 2 = true → b.disk.Ended

structure Settled (b : Board) : Prop extends Quiet b where
  inputs : b.interrupts.inputs = b.sources
  intPin : b.intPin = b.interrupts.pending

/-! ## Boards with the same disk side -/

variable {b b' : Board}

theorem Wired.congr (h : b.Wired) (hs : b'.diskSide = b.diskSide) : b'.Wired := by
  simp only [diskSide, DiskSide.mk.injEq] at hs
  obtain ⟨hdisk, hdata, h1, h2, hlatch, ha, hae, hfloppy, _⟩ := hs
  refine ⟨?_, ?_, ?_, ?_, ?_, ?_, ?_, ?_, ?_⟩
  · rw [hdisk, h.timing, timingSelected, timingSelected, ha, hae]
  · rw [hdisk, Pit8253.gate, h1]; exact h.gate1
  · rw [hdisk, hlatch]; exact h.idle
  · rw [hdisk]; exact h.ordinary
  · rw [hdisk]; exact h.format
  · rw [hfloppy, hdata]; exact h.selected
  · rw [h1]; exact h.gateStops
  · rw [h2]; exact h.counter2
  · rw [hdata]; exact h.atRest

theorem Wired.log (h : b.Wired) (e : Event) : (b.log e).Wired :=
  ⟨h.timing, h.gate1, h.idle, h.ordinary, h.format, h.selected, h.gateStops, h.counter2, h.atRest⟩

theorem Quiet.log (h : b.Quiet) (e : Event) : (b.log e).Quiet := ⟨h.level, h.endOfData⟩

theorem Quiet.congr (h : b.Quiet) (hs : b'.diskSide = b.diskSide) : b'.Quiet := by
  simp only [diskSide, DiskSide.mk.injEq] at hs
  obtain ⟨hdisk, hdata, _, h2, _⟩ := hs
  refine ⟨?_, ?_⟩
  · rw [hdisk, hdata]; exact h.level
  · rw [hdisk, Pit8253.output, h2]; exact h.endOfData

/-! ## The edge detector -/

/-- The board after `sampleDiskData` has looked. -/
def seen (b : Board) : DiskState :=
  { b.disk with dataInterruptLevel := b.diskData.intrA || b.diskData.intrB }

/-- The three things the edge detector does: nothing, swallow an edge, or pass one to counter 2. -/
theorem sampleDiskData_cases (b : Board) :
    (b.sampleDiskData = { b with disk := b.seen } ∧
        (b.disk.dataInterruptLevel || !(b.diskData.intrA || b.diskData.intrB)) = true) ∨
      (b.sampleDiskData = { b with
          disk := { b.seen with suppressByteCounterOnce := false }, trace := b.trace ++ [.edge] } ∧
        b.disk.dataInterruptLevel = false ∧ (b.diskData.intrA || b.diskData.intrB) = true ∧
        b.disk.suppressByteCounterOnce = true) ∨
      (b.sampleDiskData = { b with
          disk := b.seen, timer := (b.timer.clock 2 1).1
          trace := b.trace ++ [.edge, .counterPulse] } ∧
        b.disk.dataInterruptLevel = false ∧ (b.diskData.intrA || b.diskData.intrB) = true ∧
        b.disk.suppressByteCounterOnce = false) := by
  unfold sampleDiskData log seen
  cases hl : b.disk.dataInterruptLevel <;> cases hi : (b.diskData.intrA || b.diskData.intrB) <;>
    cases hs : b.disk.suppressByteCounterOnce <;> simp [hl, hs]

theorem sampleDiskData_wired (h : b.Wired) : b.sampleDiskData.Wired := by
  rcases sampleDiskData_cases b with ⟨he, _⟩ | ⟨he, _⟩ | ⟨he, _⟩
  · rw [he]
    exact ⟨h.timing, h.gate1, h.idle, h.ordinary, h.format, h.selected, h.gateStops, h.counter2,
      h.atRest⟩
  · rw [he]
    exact ⟨h.timing, h.gate1, h.idle, h.ordinary, h.format, h.selected, h.gateStops, h.counter2,
      h.atRest⟩
  · rw [he]
    refine ⟨h.timing, ?_, h.idle, h.ordinary, h.format, h.selected, ?_, ?_, h.atRest⟩
    · exact (Pit8253.clock_gate _ _ _ _).trans h.gate1
    · exact Pit8253.clock_gateStops h.gateStops _ _
    · exact Pit8253.clock_armed h.counter2 _ _

theorem sampleDiskData_level (b : Board) :
    b.sampleDiskData.disk.dataInterruptLevel = (b.diskData.intrA || b.diskData.intrB) ∧
      b.sampleDiskData.diskData = b.diskData := by
  rcases sampleDiskData_cases b with ⟨he, _⟩ | ⟨he, _⟩ | ⟨he, _⟩ <;> rw [he] <;> exact ⟨rfl, rfl⟩

theorem sampleDiskData_of_quiet (h : b.Quiet) : b.sampleDiskData = b := by
  rcases sampleDiskData_cases b with ⟨he, _⟩ | ⟨_, hl, hi, _⟩ | ⟨_, hl, hi, _⟩
  · rw [he, seen, ← h.level]
  · rw [h.level, hi] at hl; cases hl
  · rw [h.level, hi] at hl; cases hl

/-! ## The end of data -/

theorem applyEndOfData_wired (h : b.Wired) : b.applyEndOfData.Wired := by
  unfold applyEndOfData
  split
  · dsimp only
    split
    · rename_i ht
      refine ⟨h.timing, ?_, fun hi => ?_, nofun, nofun, h.selected, Pit8253.setGate_gateStops _ _ _,
        Pit8253.setGate_armed_other h.counter2 _ (by decide), h.atRest⟩
      · simp [ht]
      · rw [ht] at hi; cases hi
    · rename_i ht
      simp only [Bool.not_eq_true] at ht
      refine ⟨h.timing, ?_, fun hi => ⟨⟨rfl, rfl, rfl, rfl⟩, (h.idle hi).2⟩, nofun, nofun, h.selected,
        h.gateStops, h.counter2, h.atRest⟩
      rw [h.gate1, ht]; rfl
  · exact h

theorem applyEndOfData_output (b : Board) : b.applyEndOfData.timer.output 2 = b.timer.output 2 := by
  unfold applyEndOfData
  split
  · dsimp only
    split
    · simp [Pit8253.output]
    · rfl
  · rfl

theorem applyEndOfData_level (b : Board) :
    b.applyEndOfData.disk.dataInterruptLevel = b.disk.dataInterruptLevel ∧
      b.applyEndOfData.diskData = b.diskData := by
  unfold applyEndOfData
  split
  · dsimp only
    split <;> exact ⟨rfl, rfl⟩
  · exact ⟨rfl, rfl⟩

theorem applyEndOfData_ended (h : b.applyEndOfData.timer.output 2 = true) :
    b.applyEndOfData.disk.Ended := by
  rw [applyEndOfData_output] at h
  unfold applyEndOfData
  rw [if_pos h]
  dsimp only
  split <;> exact ⟨rfl, rfl, rfl, rfl⟩

theorem applyEndOfData_of_quiet (hw : b.Wired) (h : b.Quiet) : b.applyEndOfData = b := by
  unfold applyEndOfData
  split
  · rename_i hout
    have hend := h.endOfData hout
    rw [hend.eq]
    dsimp only
    split
    · rename_i ht
      have hgate := hw.gate1
      rw [ht, hend.2.1] at hgate
      rw [Pit8253.setGate, Pit8253.modify_eq_self (hw.gateStops.setGate_false hgate)]
    · rfl
  · rfl

/-! ## The interrupt lines -/

theorem driveInterrupts_interrupts (b : Board) :
    b.driveInterrupts.interrupts = { b.interrupts with inputs := b.sources } := by
  refine InterruptController3214.ext_inputs (fun i => ?_) ?_
  · unfold driveInterrupts
    simp only [InterruptController3214.setInput_inputs]
    match i with
    | 0 | 1 | 2 | 3 | 4 | 5 | 6 | 7 => simp [sources]
  · simp [driveInterrupts]

theorem driveInterrupts_eq (b : Board) :
    b.driveInterrupts = { b with
      interrupts := { b.interrupts with inputs := b.sources }
      intPin := ({ b.interrupts with inputs := b.sources } : InterruptController3214).pending } := by
  rw [← driveInterrupts_interrupts]; rfl

@[simp] theorem driveInterrupts_diskSide (b : Board) : b.driveInterrupts.diskSide = b.diskSide := rfl

@[simp] theorem renderVideo_diskSide (b : Board) : b.renderVideo.diskSide = b.diskSide := rfl

/-! ## The refresh -/

theorem refresh_wired (h : b.Wired) : b.refreshInterruptSources.Wired :=
  (applyEndOfData_wired (sampleDiskData_wired h)).congr (driveInterrupts_diskSide _)

theorem refresh_settled (b : Board) : b.refreshInterruptSources.Settled := by
  obtain ⟨hlevel, hsame⟩ := sampleDiskData_level b
  obtain ⟨hkeep, hdata⟩ := applyEndOfData_level b.sampleDiskData
  have hended := fun h => applyEndOfData_ended (b := b.sampleDiskData) h
  unfold refreshInterruptSources
  rw [driveInterrupts_eq]
  exact ⟨⟨by rw [hkeep, hlevel, hdata, hsame], hended⟩, rfl, rfl⟩

/-- On a quiet board a refresh only drives the interrupt lines. -/
theorem refresh_of_quiet (hw : b.Wired) (h : b.Quiet) :
    b.refreshInterruptSources = b.driveInterrupts := by
  unfold refreshInterruptSources
  rw [sampleDiskData_of_quiet h, applyEndOfData_of_quiet hw h]

theorem refresh_diskSide (hw : b.Wired) (h : b.Quiet) :
    b.refreshInterruptSources.diskSide = b.diskSide := by
  rw [refresh_of_quiet hw h, driveInterrupts_diskSide]

/-- A refresh of a settled board changes nothing. -/
theorem refresh_of_settled (hw : b.Wired) (h : b.Settled) : b.refreshInterruptSources = b := by
  have hinterrupts : ({ b.interrupts with inputs := b.sources } : InterruptController3214) =
      b.interrupts := by
    rw [← h.inputs]
  rw [refresh_of_quiet hw h.toQuiet, driveInterrupts_eq, hinterrupts, ← h.intPin]

end Board
end FK1
