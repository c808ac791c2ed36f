import FK1.DiskSteps
import Mathlib.Logic.Relation

/-!
# FK1.DiskTrace

Everything that can happen to the controller's flip-flops and to the trace, in any run.

* `DiskSide.Step`: the few things a step is made of. Every action is a sequence of them
  (`Board.act_steps`), so an invariant of the flip-flops and the trace needs one case for each.
* `Board.host_accesses`: a public operation changes the disk side by port accesses at most and then
  refreshes; other than a write to group 50h it leaves a running operation alone.
-/

namespace FK1

namespace DiskSide

/-- What a port access or a passing cell may do before the next refresh. -/
structure Prepares (s s' : DiskSide) : Prop where
  trace : s'.trace = s.trace
  level : s'.disk.dataInterruptLevel = s.disk.dataInterruptLevel
  suppress : s'.disk.suppressByteCounterOnce = s.disk.suppressByteCounterOnce
  sync : s'.disk.syncLatch = true → s.disk.syncLatch = true

/-- The running operation goes on as it is while the timing logic is enabled. -/
structure Keeps (s s' : DiskSide) : Prop where
  operation : s'.disk.timingEnabled = true →
    s'.disk.aux = s.disk.aux ∧ s'.disk.ordinaryWriteActive = s.disk.ordinaryWriteActive ∧
      s'.disk.formatWriteActive = s.disk.formatWriteActive
  latch : s'.diskTimeoutLatch = true → s.diskTimeoutLatch = true
  pending : s'.disk.pendingWrites = s.disk.pendingWrites
  position : s'.disk.lastByteTick = s.disk.lastByteTick
  trace : s'.trace = s.trace

inductive Step : DiskSide → DiskSide → Prop where
  | prepare {s s' : DiskSide} : s.Prepares s' → Step s s'
  | refresh {s : DiskSide} : Step s s.refresh
  | present {s : DiskSide} {byte : TimedFmByte} : s.disk.syncLatch = true → Step s (s.present byte)
  | mark {s : DiskSide} {byte : TimedFmByte} :
      selectedMark s.disk.aux.dataMarkSelected byte = true → Step s (s.synchronize.present byte)
  | clock {s : DiskSide} {clocks : Nat} :
      Step s { s with trace := s.trace ++ [Event.clock1 clocks] }
  | store {s : DiskSide} {byte : TimedFmByte} :
      Step s { s with trace := s.trace ++ [Event.written byte] }
  | reset {s s' : DiskSide} : s'.disk = {} → s'.trace = s.trace ++ [Event.reset] → Step s s'

abbrev Steps : DiskSide → DiskSide → Prop := Relation.ReflTransGen Step

variable {s s' : DiskSide}

theorem Prepares.refl (s : DiskSide) : s.Prepares s := ⟨rfl, rfl, rfl, id⟩

theorem Keeps.refl (s : DiskSide) : s.Keeps s := ⟨fun _ => ⟨rfl, rfl, rfl⟩, id, rfl, rfl, rfl⟩

theorem Prepares.steps (h : s.Prepares s') : Steps s s' := .single (.prepare h)

theorem refresh_steps (s : DiskSide) : Steps s s.refresh := .single .refresh

/-- What every step preserves, every sequence of steps preserves. -/
theorem Steps.invariant {I : DiskSide → Prop} (hstep : ∀ s s', Step s s' → I s → I s')
    (h : Steps s s') (hs : I s) : I s' := by
  induction h with
  | refl => exact hs
  | tail _ hlast ih => exact hstep _ _ hlast ih

/-- What a refresh adds to the trace, and the suppression before and after. -/
theorem refresh_trace (s : DiskSide) :
    (s.refresh.trace = s.trace ∧
        s.refresh.disk.suppressByteCounterOnce = s.disk.suppressByteCounterOnce) ∨
      (s.refresh.trace = s.trace ++ [Event.edge] ∧ s.disk.suppressByteCounterOnce = true ∧
        s.refresh.disk.suppressByteCounterOnce = false) ∨
      (s.refresh.trace = s.trace ++ [Event.edge, Event.counterPulse] ∧
        s.disk.suppressByteCounterOnce = false ∧
        s.refresh.disk.suppressByteCounterOnce = false) := by
  have hend : ∀ s : DiskSide, s.endOfData.trace = s.trace ∧
      s.endOfData.disk.suppressByteCounterOnce = s.disk.suppressByteCounterOnce := by
    intro s
    unfold endOfData
    split <;> exact ⟨rfl, rfl⟩
  obtain ⟨htrace, hsuppress⟩ := hend s.sample
  rw [refresh, htrace, hsuppress]
  unfold sample
  dsimp only
  split
  · split
    · rename_i hs; exact .inr (.inl ⟨rfl, hs, rfl⟩)
    · rename_i hs; exact .inr (.inr ⟨rfl, by simpa using hs, by simpa using hs⟩)
  · exact .inl ⟨rfl, rfl⟩

/-! ## Time -/

theorem transfer_steps (s : DiskSide) (tick : Nat) : Steps s (s.transfer tick) :=
  .tail (Prepares.steps ⟨by rfl, by rfl, by rfl, by exact id⟩) .refresh

theorem read_steps (s : DiskSide) (byte : TimedFmByte) : Steps s (s.read byte) := by
  unfold read
  split
  · exact .refl
  split
  · exact .single (.present (by assumption))
  split
  · exact .single (.mark (by assumption))
  · exact .refl

theorem process_steps (s : DiskSide) (byte : TimedFmByte) : Steps s (s.process byte) := by
  have hset : ∀ d : DiskState, d.dataInterruptLevel = s.disk.dataInterruptLevel →
      d.suppressByteCounterOnce = s.disk.suppressByteCounterOnce →
      d.syncLatch = s.disk.syncLatch → Steps s { s with disk := d } :=
    fun d hl hs hy => Prepares.steps ⟨rfl, hl, hs, fun h => hy ▸ h⟩
  have hreached : Steps s (s.reached byte.tick) := hset _ (by rfl) (by rfl) (by rfl)
  unfold process
  dsimp only
  split
  · exact hreached
  split
  · exact .tail (hreached.tail (.prepare ⟨by rfl, by rfl, by rfl, by exact nofun⟩)) .refresh
  split
  · have hstart : Steps s { s.reached byte.tick with
        disk := { (s.reached byte.tick).disk with formatWriteActive := true } } :=
      hset _ (by rfl) (by rfl) (by rfl)
    split
    · exact (hstart.trans (transfer_steps _ _)).trans (read_steps _ _)
    · exact hstart.trans (read_steps _ _)
  · split
    · exact (hreached.trans (transfer_steps _ _)).trans (read_steps _ _)
    · exact hreached.trans (read_steps _ _)

theorem processAll_steps (bytes : List TimedFmByte) (s : DiskSide) :
    Steps s (bytes.foldl process s) := by
  induction bytes generalizing s with
  | nil => exact .refl
  | cons byte bytes ih => exact (process_steps s byte).trans (ih _)

theorem startWrite_steps (s : DiskSide) (risingEdges : Nat) : Steps s (s.startWrite risingEdges) := by
  unfold startWrite
  split
  · exact (Prepares.steps ⟨by rfl, by rfl, by rfl, by exact id⟩).trans (transfer_steps _ _)
  · exact .refl

theorem timer_steps (s : DiskSide) (clocks : Nat) : Steps s (s.timer clocks) := by
  have hclock : Steps s { s with
      counter1 := (s.counter1.clockLoop clocks {}).1, trace := s.trace ++ [Event.clock1 clocks] } :=
    .tail (.single .clock) (.prepare ⟨by rfl, by rfl, by rfl, by exact id⟩)
  unfold timer
  split
  · exact .refl
  · unfold timerEdges
    split
    · exact (hclock.tail (.prepare ⟨by rfl, by rfl, by rfl, by exact id⟩)).trans (startWrite_steps _ _)
    · exact hclock.trans (startWrite_steps _ _)

theorem storeByte_steps (s : DiskSide) (byte : TimedFmByte) : Steps s (s.storeByte byte) := by
  unfold storeByte
  split
  · exact .tail (.single .store) (.prepare ⟨by rfl, by rfl, by rfl, by exact id⟩)
  · exact Prepares.steps ⟨by rfl, by rfl, by rfl, by exact id⟩

theorem flush_steps (s : DiskSide) : Steps s s.flush := by
  have hstore : ∀ (bytes : List TimedFmByte) (s : DiskSide), Steps s (bytes.foldl storeByte s) := by
    intro bytes
    induction bytes with
    | nil => exact fun _ => .refl
    | cons byte bytes ih => exact fun s => (storeByte_steps s byte).trans (ih _)
  exact (hstore _ s).tail (.prepare ⟨by rfl, by rfl, by rfl, by exact id⟩)

theorem advance_steps (s : DiskSide) (ticks clocks : Nat) : Steps s (s.advance ticks clocks) :=
  (((processAll_steps _ s).tail (.prepare ⟨by rfl, by rfl, by rfl, by exact id⟩)).trans
    (timer_steps _ clocks)).trans (flush_steps _)

end DiskSide

/-! ## Public operations -/

/-- A write to the auxiliary disk register. -/
def HostOp.writesAux : HostOp → Bool
  | .writeIo port _ => ioGroup port == 5
  | _ => false

/-- A medium is inserted or taken out. -/
def HostOp.changesMedium : HostOp → Bool
  | .insertFloppy .. | .ejectFloppy .. => true
  | _ => false

/-- Stepping and loading the head move no cell. -/
theorem FloppySubsystem.setControlPortC_cells (f : FloppySubsystem) (output : Byte) (enabled : Bool)
    (i : Fin 2) (j : Fin 77) : (f.setControlPortC output enabled).cells i j = f.cells i j := by
  have hstep : ∀ step : FloppyDrive → FloppyDrive, (∀ d, (step d).image = d.image) →
      (f.modify f.selectedDriveIndex step).cells i j = f.cells i j := by
    intro step hs
    unfold cells modify
    dsimp only
    split
    · rw [hs]
    · rfl
  unfold setControlPortC
  dsimp only
  repeat' split
  · rfl
  · exact hstep _ fun d => by unfold FloppyDrive.stepTowardHigherTrack; split <;> rfl
  · exact hstep _ fun d => by unfold FloppyDrive.stepTowardTrackZero; split <;> rfl
  · rfl

theorem FloppySubsystem.setIndexPulseWidth_cells (f : FloppySubsystem) (masterTicks : Nat) (i : Fin 2)
    (j : Fin 77) : (f.setIndexPulseWidth masterTicks).2.cells i j = f.cells i j := by
  unfold setIndexPulseWidth
  split <;> rfl

namespace Board

/-- From `b` to `b'` the disk side is at most prepared and then refreshed; unless the auxiliary
register has been written (`aux`), a running operation goes on, and unless a medium has changed
(`medium`), every cell is as it was. -/
def Accesses (b : Board) (aux medium : Bool) (b' : Board) : Prop :=
  ∃ s, b.diskSide.Prepares s ∧ (aux = false → b.diskSide.Keeps s) ∧
    (medium = false → ∀ i j, s.floppy.cells i j = b.floppy.cells i j) ∧
    (b'.diskSide = s ∨ b'.diskSide = s.refresh)

variable {b b₁ : Board} {aux medium : Bool}

theorem Accesses.same (h : b₁.diskSide = b.diskSide) : Accesses b aux medium b₁ :=
  ⟨_, .refl _, fun _ => .refl _, fun _ _ _ => rfl, .inl h⟩

theorem Accesses.refreshed (hp : b.diskSide.Prepares b₁.diskSide)
    (hk : aux = false → b.diskSide.Keeps b₁.diskSide)
    (hc : ∀ i j, b₁.floppy.cells i j = b.floppy.cells i j) :
    Accesses b aux medium b₁.refreshInterruptSources :=
  ⟨_, hp, hk, fun _ => hc, .inr (refreshSources_diskSide b₁)⟩

/-- A refresh after a change that the disk controller does not see. -/
theorem Accesses.refreshed_same (h : b₁.diskSide = b.diskSide) :
    Accesses b aux medium b₁.refreshInterruptSources :=
  .refreshed (h ▸ .refl _) (fun _ => h ▸ .refl _) fun _ _ => by
    rw [show b₁.floppy = b.floppy from congrArg DiskSide.floppy h]

theorem readIo_accesses (b : Board) (port : Word) : Accesses b aux medium (b.readIo port).2 := by
  unfold readIo
  dsimp only
  split <;>
    exact .refreshed ⟨rfl, rfl, rfl, id⟩ (fun _ => ⟨fun _ => ⟨rfl, rfl, rfl⟩, id, rfl, rfl, rfl⟩)
      fun _ _ => rfl

theorem writeIo_accesses (b : Board) (port : Word) (value : Byte) :
    Accesses b (ioGroup port == 5) medium (b.writeIo port value) := by
  unfold writeIo
  dsimp only
  split
  · exact .refreshed_same (writePrinterKeyboard_diskSide b (registerOf port) value)
  · unfold writeTimer
    split
    · exact .refreshed ⟨rfl, rfl, rfl, id⟩ (fun _ => ⟨fun _ => ⟨rfl, rfl, rfl⟩, nofun, rfl, rfl, rfl⟩)
        fun _ _ => rfl
    · exact .refreshed ⟨rfl, rfl, rfl, id⟩ (fun _ => ⟨fun _ => ⟨rfl, rfl, rfl⟩, id, rfl, rfl, rfl⟩)
        fun _ _ => rfl
  · exact .refreshed ⟨rfl, rfl, rfl, id⟩ (fun _ => ⟨fun _ => ⟨rfl, rfl, rfl⟩, id, rfl, rfl, rfl⟩)
      fun _ _ => rfl
  · exact .refreshed ⟨rfl, rfl, rfl, id⟩ (fun _ => ⟨fun _ => ⟨rfl, rfl, rfl⟩, id, rfl, rfl, rfl⟩)
      fun _ _ => rfl
  · exact .refreshed ⟨rfl, rfl, rfl, id⟩ (fun _ => ⟨fun _ => ⟨rfl, rfl, rfl⟩, id, rfl, rfl, rfl⟩)
      fun _ _ => rfl
  · rename_i hport
    rw [writeDiskAux_eq]
    exact .refreshed ⟨rfl, rfl, rfl, id⟩ (fun h => by rw [hport] at h; cases h) fun _ _ => rfl
  · rw [synchronizeControlOutputs_eq]
    refine .refreshed ⟨rfl, rfl, rfl, fun h => ?_⟩ (fun _ => ⟨fun ht => ?_, fun h => ?_, rfl, rfl, rfl⟩)
      fun i j => b.floppy.setControlPortC_cells _ _ i j
    · simp only [diskSide, Bool.and_eq_true] at h
      exact h.1
    · simp only [diskSide] at ht ⊢
      simp [ht]
    · simp only [diskSide, Bool.and_eq_true] at h
      exact h.1
  · exact .refreshed ⟨rfl, rfl, rfl, id⟩ (fun _ => ⟨fun _ => ⟨rfl, rfl, rfl⟩, id, rfl, rfl, rfl⟩)
      fun _ _ => rfl

/-- A public operation accesses the disk side through its ports at most. -/
theorem host_accesses (b : Board) (op : HostOp) :
    Accesses b op.writesAux op.changesMedium (b.host op) := by
  have hfloppy : ∀ floppy : FloppySubsystem,
      (op.changesMedium = false → ∀ i j, floppy.cells i j = b.floppy.cells i j) →
      Accesses b op.writesAux op.changesMedium { b with floppy := floppy }.refreshFloppyInputs :=
    fun floppy hc => ⟨{ b.diskSide with floppy := floppy }, ⟨rfl, rfl, rfl, id⟩,
      fun _ => ⟨fun _ => ⟨rfl, rfl, rfl⟩, id, rfl, rfl, rfl⟩, hc, .inl rfl⟩
  cases op with
  | keyboardKeyDown keyId code =>
    show Accesses b _ _ (b.keyboardKeyDown keyId code)
    unfold keyboardKeyDown
    dsimp only
    split
    · exact .refreshed_same rfl
    · exact .same rfl
  | keyboardKeyUp keyId => exact .same rfl
  | setPrinterOnline online => exact .same rfl
  | takePrinterByte =>
    show Accesses b _ _ b.takePrinterByte.2
    unfold takePrinterByte
    split <;> exact .same rfl
  | setSerialConnected connected => exact .refreshed_same rfl
  | setSerialClearToSend clear => exact .refreshed_same rfl
  | queueSerialReceivedByte value =>
    show Accesses b _ _ (b.queueSerialReceivedByte value).2
    unfold queueSerialReceivedByte
    split <;> exact .same rfl
  | takeSerialTransmittedByte => exact .same rfl
  | insertFloppy drive image access => exact hfloppy _ nofun
  | ejectFloppy drive => exact hfloppy _ nofun
  | setFloppyIndexPulseWidth masterTicks =>
    exact hfloppy _ fun _ => b.floppy.setIndexPulseWidth_cells masterTicks
  | setMouseSignals signals => exact .refreshed_same (updateMouseSignals_diskSide _ _)
  | mouseMotion deltaX deltaY => exact .refreshed_same (advanceMouse_diskSide _ _)
  | setMouseButton button pressed => exact .refreshed_same (updateMouseSignals_diskSide b _)
  | setRomImage image =>
    show Accesses b _ _ (b.setRomImage image).2
    unfold setRomImage
    split <;> exact .same rfl
  | writeMemory address value =>
    show Accesses b _ _ (b.writeMemory address value)
    unfold writeMemory
    dsimp only
    repeat' split
    all_goals exact .same rfl
  | readIo port => exact readIo_accesses b port
  | writeIo port value => exact writeIo_accesses b port value
  | writeVideoRam address value => exact .same rfl
  | setVerticalScroll value => exact .same rfl

theorem host_steps (b : Board) (op : HostOp) : DiskSide.Steps b.diskSide (b.host op).diskSide := by
  obtain ⟨s₁, hp, _, _, he | he⟩ := host_accesses b op
  · exact he ▸ hp.steps
  · exact he ▸ hp.steps.trans (DiskSide.refresh_steps s₁)

theorem reset_steps (b : Board) : DiskSide.Steps b.diskSide b.reset.diskSide := by
  unfold reset
  rw [renderVideo_diskSide, refreshSources_diskSide]
  exact .tail (.single (.reset rfl rfl)) .refresh

/-- Every action is a sequence of steps of the disk side. -/
theorem act_steps (h : b.Coherent) (a : Action) :
    DiskSide.Steps b.diskSide (b.act a).diskSide := by
  cases a with
  | host op => exact host_steps b op
  | advance cpuCycles =>
    show DiskSide.Steps b.diskSide (b.advanceTime cpuCycles).diskSide
    rw [advanceTime_diskSide h.steady]
    exact DiskSide.advance_steps _ _ _
  | reset => exact reset_steps b

/-- What every step of the disk side preserves holds after any run. -/
theorem run_invariant {I : DiskSide → Prop} (hstep : ∀ s s', DiskSide.Step s s' → I s → I s')
    (h : b.Coherent) (hb : I b.diskSide) (actions : List Action) :
    I (Run.run act b actions).diskSide := by
  induction actions generalizing b with
  | nil => exact hb
  | cons a as ih => exact ih (act_coherent h a) ((act_steps h a).invariant hstep hb)

end Board
end FK1
