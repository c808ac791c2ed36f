import FK1.Wiring

/-!
# FK1.Batching

Emulated time does not depend on how the host batches it.

* `runCycles_add`: a request for `a + b` cycles is a request for `a` and then one for `b`, because the
  overshoot of the last instruction is carried in `cpuCycleOverrun`.
* `Board.Clocked`: the cycle, tick, frame and CLK1 counters of a board agree; every action keeps it.
* `run_cycleCount`: the cycles executed are those requested and the overshoot.
-/

namespace FK1

/-! ## The library -/

/-- The run ends after at least one cycle, and no I/O access lies after its end; `used` is the latest
access so far. -/
def BusRun.Timed {σ : Type} : BusRun σ → Nat → Prop
  | .done executed _, used => 0 < executed ∧ used ≤ executed
  | .readMemory _ next, used => ∀ value, (next value).Timed used
  | .writeMemory _ _ next, used => next.Timed used
  | .readIo cycle _ next, used => ∀ value, (next value).Timed (max used cycle.toNat)
  | .writeIo cycle _ _ next, used => next.Timed (max used cycle.toNat)
  | .sampleInt next, used => ∀ level, (next level).Timed used
  | .interruptAcknowledge next, used => ∀ vector, (next vector).Timed used

/-- One call of `z80_run(&cpu, 1)` executes one instruction. -/
def Z80.Timed {σ : Type} (z : Z80 σ) : Prop := ∀ cpu, (z.run cpu).Timed 0

namespace Machine

variable {σ : Type}

/-- A turn of the loop of `run_cycles`: the cycles of the instruction and the machine after it. -/
def instruction (z : Z80 σ) (m : Machine σ) : Nat × Machine σ :=
  let (executed, m) := serve (z.run m.cpu) m.beginInstruction
  (executed, m.finishInstruction executed)

theorem synchronizeCpuIo_overrun (m : Machine σ) (cycle : Byte) :
    (m.synchronizeCpuIo cycle).cpuCycleOverrun = m.cpuCycleOverrun := by
  unfold synchronizeCpuIo; dsimp only; split <;> rfl

theorem serve_overrun (r : BusRun σ) (m : Machine σ) :
    (serve r m).2.cpuCycleOverrun = m.cpuCycleOverrun := by
  induction r generalizing m with
  | done executed cpu => rfl
  | readMemory address next ih => exact ih _ m
  | writeMemory address value next ih => exact ih _
  | readIo cycle port next ih => exact (ih _ _).trans (synchronizeCpuIo_overrun m cycle)
  | writeIo cycle port value next ih => exact (ih _).trans (synchronizeCpuIo_overrun m cycle)
  | sampleInt next ih => exact ih _ m
  | interruptAcknowledge next ih => exact ih _ _

theorem instruction_overrun (z : Z80 σ) (m : Machine σ) :
    (instruction z m).2.cpuCycleOverrun = m.cpuCycleOverrun := by
  unfold instruction finishInstruction
  dsimp only
  split <;> exact serve_overrun _ m.beginInstruction

theorem serve_executed_pos (r : BusRun σ) (m : Machine σ) {used : Nat} (h : r.Timed used) :
    0 < (serve r m).1 := by
  induction r generalizing m used with
  | done executed cpu => exact h.1
  | readMemory address next ih => exact ih _ m (h _)
  | writeMemory address value next ih => exact ih _ h
  | readIo cycle port next ih => exact ih _ _ (h _)
  | writeIo cycle port value next ih => exact ih _ h
  | sampleInt next ih => exact ih _ m (h _)
  | interruptAcknowledge next ih => exact ih _ _ (h _)

theorem instruction_pos {z : Z80 σ} (hz : z.Timed) (m : Machine σ) : 0 < (instruction z m).1 :=
  serve_executed_pos _ m.beginInstruction (hz m.cpu)

/-! ## Batches -/

theorem runLoop_succ {z : Z80 σ} (hz : z.Timed) (fuel remaining : Nat) (m : Machine σ)
    (hr : remaining ≠ 0) :
    runLoop z (fuel + 1) remaining m =
      if (instruction z m).1 ≥ remaining then
        { (instruction z m).2 with cpuCycleOverrun := (instruction z m).1 - remaining }
      else runLoop z fuel (remaining - (instruction z m).1) (instruction z m).2 := by
  have hpos := instruction_pos hz m
  rw [runLoop, if_neg hr]
  exact if_neg (by unfold instruction at hpos; dsimp only at hpos; omega)

/-- A round uses up at least one cycle, so fuel beyond the remaining cycles does nothing. -/
theorem runLoop_fuel {z : Z80 σ} (hz : z.Timed) {fuel fuel' remaining : Nat} (h : remaining ≤ fuel)
    (h' : remaining ≤ fuel') (m : Machine σ) :
    runLoop z fuel remaining m = runLoop z fuel' remaining m := by
  induction fuel generalizing fuel' remaining m with
  | zero =>
    rw [Nat.le_zero.mp h]
    cases fuel' <;> simp [runLoop]
  | succ fuel ih =>
    by_cases hr : remaining = 0
    · subst hr; cases fuel' <;> simp [runLoop]
    · obtain ⟨f, rfl⟩ : ∃ f, fuel' = f + 1 := ⟨fuel' - 1, by omega⟩
      have hpos := instruction_pos hz m
      rw [runLoop_succ hz fuel _ m hr, runLoop_succ hz f _ m hr]
      split
      · rfl
      · exact ih (by omega) (by omega) _

/-- The loop of a call that starts without overshoot. -/
theorem runCycles_of_zero (z : Z80 σ) (cycles : Nat) {m : Machine σ} (hm : m.cpuCycleOverrun = 0) :
    m.runCycles z cycles = runLoop z cycles cycles m := by
  have heta : { m with cpuCycleOverrun := 0 } = m := by cases m; subst hm; rfl
  unfold runCycles
  rw [hm, heta]
  split
  · rename_i hc
    rw [Nat.le_zero.mp hc, runLoop, heta]
  · rfl

/-- A call first uses up the overshoot of the call before. -/
theorem runCycles_overrun (z : Z80 σ) (m : Machine σ) (overrun cycles : Nat) :
    { m with cpuCycleOverrun := overrun }.runCycles z cycles =
      if cycles ≤ overrun then { m with cpuCycleOverrun := overrun - cycles }
      else { m with cpuCycleOverrun := 0 }.runCycles z (cycles - overrun) := by
  split
  · rename_i h; simp [runCycles, h]
  · rename_i h
    rw [runCycles_of_zero z (m := { m with cpuCycleOverrun := 0 }) _ rfl, runCycles, if_neg h]

/-- A loop of `a + b` cycles stops at the instruction boundary of `a` cycles and goes on from there. -/
theorem runLoop_add {z : Z80 σ} (hz : z.Timed) (a b : Nat) {m : Machine σ}
    (hm : m.cpuCycleOverrun = 0) :
    runLoop z (a + b) (a + b) m = (runLoop z a a m).runCycles z b := by
  induction a using Nat.strongRecOn generalizing m with
  | ind a ih =>
    cases a with
    | zero => rw [Nat.zero_add, runLoop, runCycles_of_zero z b hm]
    | succ a =>
      have hpos := instruction_pos hz m
      have hover := (instruction_overrun z m).trans hm
      have heta : { (instruction z m).2 with cpuCycleOverrun := 0 } = (instruction z m).2 := by
        generalize (instruction z m).2 = m' at hover
        cases m'; subst hover; rfl
      rw [show a + 1 + b = (a + b) + 1 by omega, runLoop_succ hz _ _ m (by omega),
        runLoop_succ hz a _ m (by omega)]
      generalize hexec : (instruction z m).1 = executed at hpos ⊢
      by_cases h₁ : executed ≥ a + b + 1
      · -- the instruction overshoots both requests
        rw [if_pos h₁, if_pos (by omega), runCycles_overrun, if_pos (by omega)]
        rw [show executed - (a + 1) - b = executed - (a + b + 1) by omega]
      by_cases h₂ : executed ≥ a + 1
      · -- it ends in the second one
        rw [if_neg h₁, if_pos h₂]
        by_cases hb : b ≤ executed - (a + 1)
        · omega
        rw [runCycles_overrun, if_neg hb, heta, runCycles_of_zero z _ hover,
          show a + b + 1 - executed = b - (executed - (a + 1)) by omega]
        exact runLoop_fuel hz (by omega) (Nat.le_refl _) _
      · have hrest := runLoop_fuel hz (by omega : a + 1 - executed + b ≤ a + b) (Nat.le_refl _)
          (instruction z m).2
        have hfirst := runLoop_fuel hz (by omega : a + 1 - executed ≤ a) (Nat.le_refl _)
          (instruction z m).2
        rw [if_neg h₁, if_neg h₂, show a + b + 1 - executed = a + 1 - executed + b by omega, hrest,
          ih (a + 1 - executed) (by omega) hover, hfirst]

theorem runCycles_add {z : Z80 σ} (hz : z.Timed) (m : Machine σ) (a b : Nat) :
    m.runCycles z (a + b) = (m.runCycles z a).runCycles z b := by
  have hsplit : m.runCycles z a = if a ≤ m.cpuCycleOverrun
      then { m with cpuCycleOverrun := m.cpuCycleOverrun - a }
      else runLoop z (a - m.cpuCycleOverrun) (a - m.cpuCycleOverrun) { m with cpuCycleOverrun := 0 } :=
    rfl
  rw [hsplit]
  split
  · rename_i h
    have hwhole := runCycles_overrun z m m.cpuCycleOverrun (a + b)
    refine hwhole.trans ?_
    rw [runCycles_overrun z m (m.cpuCycleOverrun - a) b]
    by_cases hb : b ≤ m.cpuCycleOverrun - a
    · rw [if_pos hb, if_pos (by omega), Nat.sub_sub]
    · rw [if_neg hb, if_neg (by omega), show a + b - m.cpuCycleOverrun =
        b - (m.cpuCycleOverrun - a) by omega]
  · rename_i h
    rw [← runLoop_add hz _ _ rfl, runCycles, if_neg (by omega)]
    dsimp only
    rw [show a + b - m.cpuCycleOverrun = a - m.cpuCycleOverrun + b by omega]

theorem runCycles_zero (z : Z80 σ) (m : Machine σ) : m.runCycles z 0 = m := by
  simp [runCycles]

/-- A list of requests is one request for their sum. -/
theorem run_requests {z : Z80 σ} (hz : z.Timed) (requests : List Nat) (m : Machine σ) :
    Run.run (step z) m (requests.map .runCycles) = m.runCycles z requests.sum := by
  induction requests generalizing m with
  | nil => rw [List.map_nil, Run.run_nil, List.sum_nil, runCycles_zero]
  | cons cycles requests ih =>
    rw [List.map_cons, Run.run_cons, ih, List.sum_cons, runCycles_add hz]; rfl

end Machine

/-- The host's operations on the mouse. -/
def HostOp.ofMouse : HostOp → Bool
  | .setMouseSignals _ | .mouseMotion _ _ | .setMouseButton _ _ => true
  | _ => false

/-! ## Counters -/

/-- The CLK1 pulses issued since the last reset in a trace. -/
def clock1Pulses (trace : List Event) : Nat :=
  trace.foldl (fun pulses e => match e with
    | .clock1 n => pulses + n
    | .reset => 0
    | _ => pulses) 0

theorem clock1Pulses_append (trace : List Event) {new : List Event}
    (h : ∀ e ∈ new, e.ofDisk = true ∨ ∃ byte, e = .written byte) :
    clock1Pulses (trace ++ new) = clock1Pulses trace := by
  unfold clock1Pulses
  rw [List.foldl_append]
  generalize trace.foldl _ 0 = pulses
  induction new with
  | nil => rfl
  | cons e new ih =>
    rw [List.foldl_cons]
    have ih := ih fun e he => h e (by simp [he])
    rcases h e (by simp) with he | ⟨byte, rfl⟩
    · cases e <;> first | exact ih | cases he
    · exact ih

namespace Board

/-- The counters of emulated time. -/
structure Clocks where
  cycleCount : Nat
  masterTickCount : Nat
  frameTickAccumulator : Nat
  frameCount : Nat
  timerClockAccumulator : Nat
  clock1Pulses : Nat

def clocks (b : Board) : Clocks where
  cycleCount := b.cycleCount
  masterTickCount := b.masterTickCount
  frameTickAccumulator := b.frameTickAccumulator
  frameCount := b.frameCount
  timerClockAccumulator := b.timerClockAccumulator
  clock1Pulses := FK1.clock1Pulses b.trace

variable {b b' : Board}

theorem DiskStep.clocks (h : DiskStep b b') : b'.clocks = b.clocks := by
  obtain ⟨_, _, _, _, _, new, rfl, hnew⟩ := h
  simp [Board.clocks, clock1Pulses_append b.trace fun e he => .inl (hnew e he)]

theorem refresh_clocks (b : Board) : b.refreshInterruptSources.clocks = b.clocks :=
  (refresh_diskStep b).clocks

theorem advanceFloppy_clocks (b : Board) (masterTicks : Nat) :
    (b.advanceFloppy masterTicks).clocks = b.clocks :=
  (processFloppyBytes_diskStep (b.floppy.visitBytes masterTicks) b).clocks

theorem advanceKeyboard_clocks (b : Board) (masterTicks : Nat) :
    (b.advanceKeyboard masterTicks).clocks = b.clocks :=
  advanceKeyboard_view DiskStep.clocks (fun _ _ _ => rfl) b masterTicks

theorem advanceMouse_clocks (b : Board) (masterTicks : Nat) :
    (b.advanceMouse masterTicks).clocks = b.clocks := by
  obtain ⟨_, _, he⟩ := advanceMouse_frame b masterTicks
  rw [he]; rfl

theorem updateMouseSignals_clocks (b : Board) (signals : Byte) :
    (b.updateMouseSignals signals).clocks = b.clocks := by
  obtain ⟨_, _, he⟩ := updateMouseSignals_frame b signals
  rw [he]; rfl

theorem applyTimerEdges_clocks (b : Board) (edges : Nat) :
    (b.applyTimerEdges edges).clocks = b.clocks :=
  applyTimerEdges_view DiskStep.clocks (fun _ _ => rfl) b edges

theorem flush_clocks (b : Board) : b.flushPendingDiskWrites.clocks = b.clocks := by
  refine flush_view DiskStep.clocks (fun _ _ => rfl) (fun b byte => ?_) b
  have hnew := clock1Pulses_append b.trace
    (show ∀ e ∈ [Event.written byte], e.ofDisk = true ∨ ∃ byte, e = .written byte by simp)
  simp [clocks, log, hnew]

theorem clock1Pulses_log (trace : List Event) (pulses : Nat) :
    FK1.clock1Pulses (trace ++ [.clock1 pulses]) = FK1.clock1Pulses trace + pulses := by
  simp [FK1.clock1Pulses]

/-- CLK1 gets one pulse for every twelve master ticks. -/
theorem advanceTimer_clocks (b : Board) (masterTicks : Nat) :
    (b.advanceTimer masterTicks).clocks = { b.clocks with
      timerClockAccumulator := (b.timerClockAccumulator + masterTicks) % 12
      clock1Pulses := FK1.clock1Pulses b.trace + (b.timerClockAccumulator + masterTicks) / 12 } := by
  unfold advanceTimer
  dsimp only
  split
  · rename_i h; rw [h]; rfl
  · rw [applyTimerEdges_clocks]
    simp [clocks, log, clock1Pulses_log]

/-- A frame is 240000 master ticks. -/
theorem advanceFrame_clocks (b : Board) (masterTicks : Nat) :
    (b.advanceFrame masterTicks).clocks = { b.clocks with
      frameTickAccumulator := (b.frameTickAccumulator + masterTicks) % masterTicksPerFrame
      frameCount := b.frameCount + (b.frameTickAccumulator + masterTicks) / masterTicksPerFrame } := by
  unfold advanceFrame
  dsimp only
  split
  · rename_i h
    have hmod := Nat.div_add_mod (b.frameTickAccumulator + masterTicks) masterTicksPerFrame
    rw [h, Nat.mul_zero, Nat.zero_add] at hmod
    rw [h, hmod]; rfl
  · rfl

theorem advanceTime_clocks (b : Board) (cpuCycles : Nat) :
    (b.advanceTime cpuCycles).clocks =
      { cycleCount := b.cycleCount + cpuCycles
        masterTickCount := b.masterTickCount + cpuCycles * 3
        frameTickAccumulator := (b.frameTickAccumulator + cpuCycles * 3) % 240000
        frameCount := b.frameCount + (b.frameTickAccumulator + cpuCycles * 3) / 240000
        timerClockAccumulator := (b.timerClockAccumulator + cpuCycles * 3) % 12
        clock1Pulses := FK1.clock1Pulses b.trace + (b.timerClockAccumulator + cpuCycles * 3) / 12 } := by
  unfold advanceTime
  extract_lets masterTicks b₀ b₁ b₂ b₃
  have h₂ : b₂.clocks = b₀.clocks := by
    rw [show b₂.clocks = _ from advanceMouse_clocks _ _, advanceKeyboard_clocks]
    exact advanceFloppy_clocks b₀ masterTicks
  have h₃ : b₃.clocks = _ := (flush_clocks _).trans (advanceTimer_clocks b₂ masterTicks)
  simp only [clocks, Clocks.mk.injEq] at h₂ h₃
  obtain ⟨hcycle, hmaster, hframe, hcount, htimer, hpulses⟩ := h₂
  obtain ⟨hcycle', hmaster', hframe', hcount', htimer', hpulses'⟩ := h₃
  rw [refresh_clocks, advanceFrame_clocks]
  simp only [clocks, hcycle', hmaster', hframe', hcount', htimer', hpulses', hcycle, hmaster, hframe,
    hcount, htimer, hpulses]
  rfl

/-- What the counters of a board agree on. -/
structure Clocked (b : Board) : Prop where
  master : b.masterTickCount = 3 * b.cycleCount
  frames : 240000 * b.frameCount + b.frameTickAccumulator = b.masterTickCount
  frameRest : b.frameTickAccumulator < 240000
  timer : FK1.clock1Pulses b.trace * 12 + b.timerClockAccumulator = b.masterTickCount
  timerRest : b.timerClockAccumulator < 12

theorem Clocked.congr (h : b.Clocked) (hs : b'.clocks = b.clocks) : b'.Clocked := by
  simp only [clocks, Clocks.mk.injEq] at hs
  obtain ⟨hcycle, hmaster, hframe, hcount, htimer, hpulses⟩ := hs
  refine ⟨?_, ?_, ?_, ?_, ?_⟩
  · rw [hmaster, hcycle]; exact h.master
  · rw [hcount, hframe, hmaster]; exact h.frames
  · rw [hframe]; exact h.frameRest
  · rw [hpulses, htimer, hmaster]; exact h.timer
  · rw [htimer]; exact h.timerRest

theorem Clocked.advanceTime (h : b.Clocked) (cpuCycles : Nat) : (b.advanceTime cpuCycles).Clocked := by
  have hs := advanceTime_clocks b cpuCycles
  simp only [clocks, Clocks.mk.injEq] at hs
  obtain ⟨hcycle, hmaster, hframe, hcount, htimer, hpulses⟩ := hs
  obtain ⟨h1, h2, h3, h4, h5⟩ := h
  refine ⟨?_, ?_, ?_, ?_, ?_⟩
  · rw [hmaster, hcycle]; omega
  · rw [hcount, hframe, hmaster]; omega
  · rw [hframe]; omega
  · rw [hpulses, htimer, hmaster]; omega
  · rw [htimer]; omega

/-! ## Operations take no time -/

/-- From `b` to `b'` no time has passed, and the mouse is as it was. -/
def Idle (b b' : Board) : Prop := b'.clocks = b.clocks ∧ b'.mouse = b.mouse

theorem Idle.refreshed (h : Idle b b') : Idle b b'.refreshInterruptSources := by
  obtain ⟨_, _, _, _, new, he, hnew⟩ := refresh_frame b'
  refine ⟨(refresh_clocks b').trans h.1, ?_⟩
  rw [he]
  exact h.2

theorem writeIo_idle (b : Board) (port : Word) (value : Byte) : Idle b (b.writeIo port value) := by
  unfold writeIo
  refine Idle.refreshed ?_
  split
  · unfold writePrinterKeyboard
    dsimp only
    split <;> exact ⟨rfl, rfl⟩
  · unfold writeTimer
    split <;> exact ⟨rfl, rfl⟩
  · exact ⟨rfl, rfl⟩
  · exact ⟨rfl, rfl⟩
  · exact ⟨rfl, rfl⟩
  · rw [writeDiskAux_eq]
    exact ⟨rfl, rfl⟩
  · rw [synchronizeControlOutputs_eq]
    exact ⟨rfl, rfl⟩
  · exact ⟨rfl, rfl⟩

theorem readIo_idle (b : Board) (port : Word) : Idle b (b.readIo port).2 := by
  unfold readIo
  refine Idle.refreshed ?_
  dsimp only
  split <;> exact ⟨rfl, rfl⟩

/-- Beside the host's operations on it the mouse is left alone. -/
theorem host_idle (b : Board) (op : HostOp) (hop : op.ofMouse = false) : Idle b (b.host op) := by
  cases op with
  | keyboardKeyDown keyId code =>
    show Idle b (b.keyboardKeyDown keyId code)
    unfold keyboardKeyDown
    dsimp only
    split
    · exact Idle.refreshed ⟨rfl, rfl⟩
    · exact ⟨rfl, rfl⟩
  | takePrinterByte =>
    show Idle b b.takePrinterByte.2
    unfold takePrinterByte
    split <;> exact ⟨rfl, rfl⟩
  | setSerialConnected connected => exact Idle.refreshed ⟨rfl, rfl⟩
  | setSerialClearToSend clear => exact Idle.refreshed ⟨rfl, rfl⟩
  | queueSerialReceivedByte value =>
    show Idle b (b.queueSerialReceivedByte value).2
    unfold queueSerialReceivedByte
    split <;> exact ⟨rfl, rfl⟩
  | setMouseSignals signals => cases hop
  | mouseMotion deltaX deltaY => cases hop
  | setMouseButton button pressed => cases hop
  | setRomImage image =>
    show Idle b (b.setRomImage image).2
    unfold setRomImage
    split <;> exact ⟨rfl, rfl⟩
  | writeMemory address value =>
    show Idle b (b.writeMemory address value)
    unfold writeMemory
    dsimp only
    repeat' split
    all_goals exact ⟨rfl, rfl⟩
  | readIo port => exact readIo_idle b port
  | writeIo port value => exact writeIo_idle b port value
  | _ => exact ⟨rfl, rfl⟩

theorem host_clocks (b : Board) (op : HostOp) : (b.host op).clocks = b.clocks := by
  cases hop : op.ofMouse with
  | false => exact (host_idle b op hop).1
  | true =>
    cases op with
    | setMouseSignals signals => exact (refresh_clocks _).trans (updateMouseSignals_clocks _ _)
    | mouseMotion deltaX deltaY => exact (refresh_clocks _).trans (advanceMouse_clocks _ _)
    | setMouseButton button pressed => exact (refresh_clocks _).trans (updateMouseSignals_clocks _ _)
    | _ => cases hop

theorem clock1Pulses_reset (trace : List Event) : FK1.clock1Pulses (trace ++ [.reset]) = 0 := by
  simp [FK1.clock1Pulses]

theorem renderVideo_clocks (b : Board) : b.renderVideo.clocks = b.clocks := rfl

theorem reset_clocks (b : Board) :
    b.reset.clocks = ⟨0, 0, 0, 0, 0, 0⟩ := by
  unfold reset
  rw [renderVideo_clocks, refresh_clocks]
  simp [clocks, resetPeripherals, log, clock1Pulses_reset]

theorem clocked_of_zero (h : b.clocks = ⟨0, 0, 0, 0, 0, 0⟩) : b.Clocked := by
  simp only [clocks, Clocks.mk.injEq] at h
  obtain ⟨h1, h2, h3, h4, h5, h6⟩ := h
  constructor <;> omega

theorem act_clocked (h : b.Clocked) (a : Action) : (b.act a).Clocked := by
  cases a with
  | host op => exact h.congr (host_clocks b op)
  | advance cpuCycles => exact h.advanceTime cpuCycles
  | reset => exact clocked_of_zero (reset_clocks b)

theorem Reachable.clocked (h : b.Reachable) : b.Clocked := by
  obtain ⟨bootRom, h⟩ := h
  exact h.invariant (clocked_of_zero (reset_clocks _)) fun _ a hb => act_clocked hb a

end Board

namespace Machine

variable {σ : Type}

/-! ## Cycles -/

theorem synchronizeCpuIo_cycles (m : Machine σ) (cycle : Byte) :
    (m.synchronizeCpuIo cycle).synchronizedInstructionCycles =
        max m.synchronizedInstructionCycles cycle.toNat ∧
      (m.synchronizeCpuIo cycle).board.cycleCount + m.synchronizedInstructionCycles =
        m.board.cycleCount + (m.synchronizeCpuIo cycle).synchronizedInstructionCycles := by
  unfold synchronizeCpuIo
  dsimp only
  split
  · rename_i h
    have hcycle := congrArg Board.Clocks.cycleCount (Board.advanceTime_clocks m.board
      (cycle.toNat - m.synchronizedInstructionCycles))
    simp only [Board.clocks] at hcycle
    simp only [hcycle]
    omega
  · omega

/-- While an instruction runs, the cycles advanced are those up to its latest I/O access. -/
theorem serve_cycles (r : BusRun σ) (m : Machine σ) {used : Nat} (h : r.Timed used)
    (hu : m.synchronizedInstructionCycles ≤ used) :
    (serve r m).2.synchronizedInstructionCycles ≤ (serve r m).1 ∧
      (serve r m).2.board.cycleCount + m.synchronizedInstructionCycles =
        m.board.cycleCount + (serve r m).2.synchronizedInstructionCycles := by
  induction r generalizing m used with
  | done executed cpu => exact ⟨Nat.le_trans hu h.2, rfl⟩
  | readMemory address next ih => exact ih _ m (h _) hu
  | writeMemory address value next ih =>
    have hc : (m.board.writeMemory address value).cycleCount = m.board.cycleCount :=
      congrArg Board.Clocks.cycleCount (Board.host_clocks m.board (.writeMemory address value))
    have ih := ih { m with board := m.board.writeMemory address value } h hu
    simp only [hc] at ih
    exact ih
  | readIo cycle port next ih =>
    obtain ⟨hs, hsum⟩ := synchronizeCpuIo_cycles m cycle
    simp only [serve]
    generalize m.synchronizeCpuIo cycle = m' at hs hsum ⊢
    have hc : (m'.board.readIo port).2.cycleCount = m'.board.cycleCount :=
      congrArg Board.Clocks.cycleCount (Board.readIo_idle m'.board port).1
    have ih := ih (m'.board.readIo port).1 { m' with board := (m'.board.readIo port).2 } (h _)
      (by simp only; omega)
    simp only [hc] at ih
    exact ⟨ih.1, by omega⟩
  | writeIo cycle port value next ih =>
    obtain ⟨hs, hsum⟩ := synchronizeCpuIo_cycles m cycle
    simp only [serve]
    generalize m.synchronizeCpuIo cycle = m' at hs hsum ⊢
    have hc : (m'.board.writeIo port value).cycleCount = m'.board.cycleCount :=
      congrArg Board.Clocks.cycleCount (Board.writeIo_idle m'.board port value).1
    have ih := ih { m' with board := m'.board.writeIo port value } h (by simp only; omega)
    simp only [hc] at ih
    exact ⟨ih.1, by omega⟩
  | sampleInt next ih => exact ih _ m (h _) hu
  | interruptAcknowledge next ih => exact ih _ { m with acknowledged := _ } (h _) hu

theorem instruction_cycles {z : Z80 σ} (hz : z.Timed) (m : Machine σ) :
    (instruction z m).2.board.cycleCount = m.board.cycleCount + (instruction z m).1 := by
  obtain ⟨hle, hsum⟩ := serve_cycles (z.run m.cpu) m.beginInstruction (hz m.cpu) (Nat.le_refl 0)
  have hzero : m.beginInstruction.synchronizedInstructionCycles = 0 := rfl
  have hboard : m.beginInstruction.board = m.board := rfl
  rw [hzero, hboard] at hsum
  unfold instruction finishInstruction
  dsimp only
  split
  · have hcycle := congrArg Board.Clocks.cycleCount (Board.advanceTime_clocks
      (serve (z.run m.cpu) m.beginInstruction).2.board
      ((serve (z.run m.cpu) m.beginInstruction).1 -
        (serve (z.run m.cpu) m.beginInstruction).2.synchronizedInstructionCycles))
    simp only [Board.clocks] at hcycle
    rw [hcycle]; omega
  · omega

theorem runLoop_cycles {z : Z80 σ} (hz : z.Timed) {fuel remaining : Nat} (h : remaining ≤ fuel)
    {m : Machine σ} (hm : m.cpuCycleOverrun = 0) :
    (runLoop z fuel remaining m).board.cycleCount =
      m.board.cycleCount + remaining + (runLoop z fuel remaining m).cpuCycleOverrun := by
  induction fuel generalizing remaining m with
  | zero => rw [Nat.le_zero.mp h, runLoop, hm, Nat.add_zero]
  | succ fuel ih =>
    by_cases hr : remaining = 0
    · subst hr; simp [runLoop, hm]
    · have hpos := instruction_pos hz m
      have hcycles := instruction_cycles hz m
      have hover := (instruction_overrun z m).trans hm
      rw [runLoop_succ hz _ _ m hr]
      split
      · simp only; omega
      · rw [ih (by omega) hover]; omega

/-- The cycles executed are those requested and what the last instruction overshoots. -/
theorem runCycles_cycles {z : Z80 σ} (hz : z.Timed) (m : Machine σ) (cycles : Nat) :
    (m.runCycles z cycles).board.cycleCount + m.cpuCycleOverrun =
      m.board.cycleCount + cycles + (m.runCycles z cycles).cpuCycleOverrun := by
  unfold runCycles
  split
  · simp only; omega
  · have := runLoop_cycles hz (Nat.le_refl (cycles - m.cpuCycleOverrun))
      (m := { m with cpuCycleOverrun := 0 }) rfl
    simp only at this ⊢
    omega

/-- The cycles requested since the last reset. -/
def requested (ops : List Op) : Nat :=
  ops.foldl (fun total op => match op with
    | .host _ => total
    | .runCycles cycles => total + cycles
    | .reset => 0) 0

theorem run_cycleCount {z : Z80 σ} (hz : z.Timed) (bootRom : List Byte) (ops : List Op) :
    (Run.run (step z) (power z bootRom) ops).board.cycleCount =
      requested ops + (Run.run (step z) (power z bootRom) ops).cpuCycleOverrun := by
  have hgeneral : ∀ (ops : List Op) (m : Machine σ) (total : Nat),
      m.board.cycleCount = total + m.cpuCycleOverrun →
      (Run.run (step z) m ops).board.cycleCount =
        ops.foldl (fun total op => match op with
          | .host _ => total
          | .runCycles cycles => total + cycles
          | .reset => 0) total + (Run.run (step z) m ops).cpuCycleOverrun := by
    intro ops
    induction ops with
    | nil => exact fun _ _ h => h
    | cons op ops ih =>
      intro m total h
      refine ih _ _ ?_
      cases op with
      | host op =>
        exact (congrArg Board.Clocks.cycleCount (Board.host_clocks m.board op)).trans h
      | runCycles cycles =>
        have := runCycles_cycles hz m cycles
        simp only [step]; omega
      | reset => exact congrArg Board.Clocks.cycleCount (Board.reset_clocks m.board)
  have hpower : (power z bootRom).board.cycleCount = 0 :=
    congrArg Board.Clocks.cycleCount (Board.reset_clocks (Board.setRomImage {} bootRom).2)
  exact hgeneral ops _ 0 hpower

/-- Host batching never shows: two batchings of one number of cycles end in the same machine, and the
counters of every reachable machine follow from the cycles requested since its last reset. -/
theorem batching_invisible (z : Z80 σ) (hz : z.Timed) (bootRom : List Byte) (ops : List Op) :
    let m := Run.run (step z) (power z bootRom) ops
    (∀ requests requests' : List Nat, requests.sum = requests'.sum →
      Run.run (step z) m (requests.map .runCycles) = Run.run (step z) m (requests'.map .runCycles)) ∧
    m.board.cycleCount = requested ops + m.cpuCycleOverrun ∧
    m.board.masterTickCount = 3 * m.board.cycleCount ∧
    240000 * m.board.frameCount + m.board.frameTickAccumulator = m.board.masterTickCount ∧
    m.board.frameTickAccumulator < 240000 ∧
    clock1Pulses m.board.trace * 12 + m.board.timerClockAccumulator = m.board.masterTickCount ∧
    m.board.timerClockAccumulator < 12 := by
  intro m
  have h : m.board.Clocked := (run_reachable z bootRom ops).clocked
  refine ⟨fun requests requests' hsum => ?_, run_cycleCount hz bootRom ops, h.master, h.frames,
    h.frameRest, h.timer, h.timerRest⟩
  rw [run_requests hz, run_requests hz, hsum]

/-- A library whose instructions read the port their cycle numbers. -/
theorem batching_invisible_reader :
    let z : Z80 Byte :=
      { power := 11#8
        instantReset := id
        run := fun cpu => .readIo cpu 0x30#16 fun value => .done (cpu.toNat + 1) (value &&& 0x0F#8) }
    let m := Run.run (step z) (power z []) [.runCycles 7]
    Run.run (step z) m [.runCycles 5, .runCycles 9] = Run.run (step z) m [.runCycles 14] := by
  intro z m
  exact (batching_invisible z (fun cpu value => ⟨Nat.succ_pos _, by simp⟩) []
    [.runCycles 7]).1 [5, 9] [14] rfl

end Machine
end FK1
