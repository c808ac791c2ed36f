import FK1.Board
import FK1.Lib.Run

/-!
# FK1.Machine

The whole machine: the board with a CPU, `run_cycles`, and the public operations in any order.

The Z80 library is a parameter (`Z80`): what it keeps of its own is a value of any type `σ`, and one
call of `z80_run` is a `BusRun`, the tree of what it may ask of the bus next.
-/

namespace FK1

/-! ## The board under its clients -/

/-- The public operations of `Machine` other than `reset` and `run_cycles`. -/
inductive HostOp where
  | keyboardKeyDown (keyId : Nat) (code : Byte)
  | keyboardKeyUp (keyId : Nat)
  | setPrinterOnline (online : Bool)
  | takePrinterByte
  | setSerialConnected (connected : Bool)
  | setSerialClearToSend (clear : Bool)
  | queueSerialReceivedByte (value : Byte)
  | takeSerialTransmittedByte
  | insertFloppy (drive : Nat) (image : FloppyDiskImage) (access : FloppyAccess)
  | ejectFloppy (drive : Nat)
  | setFloppyIndexPulseWidth (masterTicks : Nat)
  | setMouseSignals (signals : Byte)
  | mouseMotion (deltaX deltaY : Int)
  | setMouseButton (button : MouseButton) (pressed : Bool)
  | setRomImage (image : List Byte)
  | writeMemory (address : Word) (value : Byte)
  | readIo (port : Word)
  | writeIo (port : Word) (value : Byte)
  | writeVideoRam (address : Word) (value : Byte)
  | setVerticalScroll (value : Byte)

def Board.host (b : Board) : HostOp → Board
  | .keyboardKeyDown keyId code => b.keyboardKeyDown keyId code
  | .keyboardKeyUp keyId => b.keyboardKeyUp keyId
  | .setPrinterOnline online => b.setPrinterOnline online
  | .takePrinterByte => b.takePrinterByte.2
  | .setSerialConnected connected => b.setSerialConnected connected
  | .setSerialClearToSend clear => b.setSerialClearToSend clear
  | .queueSerialReceivedByte value => (b.queueSerialReceivedByte value).2
  | .takeSerialTransmittedByte => b.takeSerialTransmittedByte.2
  | .insertFloppy drive image access => (b.insertFloppy drive image access).2
  | .ejectFloppy drive => (b.ejectFloppy drive).2
  | .setFloppyIndexPulseWidth masterTicks => (b.setFloppyIndexPulseWidth masterTicks).2
  | .setMouseSignals signals => b.setMouseSignals signals
  | .mouseMotion deltaX deltaY => b.mouseMotion deltaX deltaY
  | .setMouseButton button pressed => b.setMouseButton button pressed
  | .setRomImage image => (b.setRomImage image).2
  | .writeMemory address value => b.writeMemory address value
  | .readIo port => (b.readIo port).2
  | .writeIo port value => b.writeIo port value
  | .writeVideoRam address value => b.writeVideoRam address value
  | .setVerticalScroll value => b.setVerticalScroll value

/-- What happens to a board: a public operation, time, or a reset. `run_cycles` is a sequence of
these (`Machine.runCycles_board`). -/
inductive Action where
  | host (op : HostOp)
  | advance (cpuCycles : Nat)
  | reset

def Board.act (b : Board) : Action → Board
  | .host op => b.host op
  | .advance cpuCycles => b.advanceTime cpuCycles
  | .reset => b.reset

/-- A board reached from power-up by any run. -/
def Board.Reachable (b : Board) : Prop := ∃ bootRom, Run.Reachable Board.act (Board.power bootRom) b

/-! ## The CPU -/

/-- One call of `z80_run(&cpu, 1)`: the bus accesses the library makes, each with what it does with
the answer, and at the end the cycles executed and the library's new state. -/
inductive BusRun (σ : Type) where
  | done (executed : Nat) (cpu : σ)
  | readMemory (address : Word) (next : Byte → BusRun σ)
  | writeMemory (address : Word) (value : Byte) (next : BusRun σ)
  | readIo (cycle : Byte) (port : Word) (next : Byte → BusRun σ)
  | writeIo (cycle : Byte) (port : Word) (value : Byte) (next : BusRun σ)
  | sampleInt (next : Bool → BusRun σ)
  | interruptAcknowledge (next : Byte → BusRun σ)

structure Z80 (σ : Type) where
  power : σ
  instantReset : σ → σ
  run : σ → BusRun σ

structure Machine (σ : Type) where
  board : Board
  cpu : σ
  synchronizedInstructionCycles : Nat := 0
  cpuCycleOverrun : Nat := 0
  /-- Ghost: the boards at which the library has acknowledged an interrupt. -/
  acknowledged : List Board := []

namespace Machine

variable {σ : Type}

def reset (z : Z80 σ) (m : Machine σ) : Machine σ :=
  { m with board := m.board.reset, cpu := z.instantReset m.cpu, cpuCycleOverrun := 0 }

def power (z : Z80 σ) (bootRom : List Byte) : Machine σ :=
  { board := Board.power bootRom, cpu := z.instantReset z.power }

/-- Time up to the cycle of an I/O access inside the running instruction. -/
def synchronizeCpuIo (m : Machine σ) (relativeCycle : Byte) : Machine σ :=
  let target := relativeCycle.toNat
  if target > m.synchronizedInstructionCycles then
    { m with
      board := m.board.advanceTime (target - m.synchronizedInstructionCycles)
      synchronizedInstructionCycles := target }
  else m

/-- `z80_run` with the callbacks of `CpuState`: the executed cycles and the machine after them. -/
def serve : BusRun σ → Machine σ → Nat × Machine σ
  | .done executed cpu, m => (executed, { m with cpu := cpu })
  | .readMemory address next, m => serve (next (m.board.readMemory address)) m
  | .writeMemory address value next, m =>
    serve next { m with board := m.board.writeMemory address value }
  | .readIo cycle port next, m =>
    let m := m.synchronizeCpuIo cycle
    serve (next (m.board.readIo port).1) { m with board := (m.board.readIo port).2 }
  | .writeIo cycle port value next, m =>
    let m := m.synchronizeCpuIo cycle
    serve next { m with board := m.board.writeIo port value }
  | .sampleInt next, m => serve (next m.board.intPin) m
  | .interruptAcknowledge next, m =>
    serve (next m.board.interrupts.vector) { m with acknowledged := m.acknowledged ++ [m.board] }

/-- The machine at the start of an instruction. -/
def beginInstruction (m : Machine σ) : Machine σ := { m with synchronizedInstructionCycles := 0 }

/-- The rest of the executed cycles, after those the I/O accesses have advanced already. -/
def finishInstruction (m : Machine σ) (executed : Nat) : Machine σ :=
  if m.synchronizedInstructionCycles < executed then
    { m with board := m.board.advanceTime (executed - m.synchronizedInstructionCycles) }
  else m

/-- The loop of `run_cycles`; a round executes at least one cycle, so `fuel` rounds are enough. -/
def runLoop (z : Z80 σ) : Nat → Nat → Machine σ → Machine σ
  | 0, _, m => m
  | fuel + 1, remaining, m =>
    if remaining = 0 then m
    else
      let (executed, m) := serve (z.run m.cpu) m.beginInstruction
      if executed = 0 then m
      else
        let m := m.finishInstruction executed
        if executed ≥ remaining then { m with cpuCycleOverrun := executed - remaining }
        else runLoop z fuel (remaining - executed) m

def runCycles (z : Z80 σ) (m : Machine σ) (cycles : Nat) : Machine σ :=
  if cycles ≤ m.cpuCycleOverrun then { m with cpuCycleOverrun := m.cpuCycleOverrun - cycles }
  else
    let remaining := cycles - m.cpuCycleOverrun
    runLoop z remaining remaining { m with cpuCycleOverrun := 0 }

/-- A public operation of the machine. -/
inductive Op where
  | host (op : HostOp)
  | runCycles (cycles : Nat)
  | reset

def step (z : Z80 σ) (m : Machine σ) : Op → Machine σ
  | .host op => { m with board := m.board.host op }
  | .runCycles cycles => m.runCycles z cycles
  | .reset => m.reset z

/-! ## A machine run is a board run -/

/-- The board of `m'` is reached from that of `m`. -/
def BoardRun (m m' : Machine σ) : Prop := Run.Reachable Board.act m.board m'.board

theorem BoardRun.trans {m₁ m₂ m₃ : Machine σ} (h₁ : BoardRun m₁ m₂) (h₂ : BoardRun m₂ m₃) :
    BoardRun m₁ m₃ := by
  obtain ⟨as, has⟩ := h₁
  obtain ⟨bs, hbs⟩ := h₂
  exact ⟨as ++ bs, by rw [Run.run_append, has, hbs]⟩

theorem BoardRun.single {m m' : Machine σ} (a : Action) (h : m.board.act a = m'.board) :
    BoardRun m m' := ⟨[a], h⟩

theorem synchronizeCpuIo_board (m : Machine σ) (cycle : Byte) : BoardRun m (m.synchronizeCpuIo cycle) := by
  unfold synchronizeCpuIo
  dsimp only
  split
  · exact .single (.advance _) rfl
  · exact Run.Reachable.refl

theorem serve_board (r : BusRun σ) (m : Machine σ) : BoardRun m (serve r m).2 := by
  induction r generalizing m with
  | done executed cpu => exact Run.Reachable.refl
  | readMemory address next ih => exact ih _ m
  | writeMemory address value next ih =>
    exact .trans (.single (.host (.writeMemory address value)) rfl) (ih _)
  | readIo cycle port next ih =>
    exact (synchronizeCpuIo_board m cycle).trans (.trans (.single (.host (.readIo port)) rfl) (ih _ _))
  | writeIo cycle port value next ih =>
    exact (synchronizeCpuIo_board m cycle).trans
      (.trans (.single (.host (.writeIo port value)) rfl) (ih _))
  | sampleInt next ih => exact ih _ m
  | interruptAcknowledge next ih => exact ih _ { m with acknowledged := m.acknowledged ++ [m.board] }

theorem finishInstruction_board (m : Machine σ) (executed : Nat) :
    BoardRun m (m.finishInstruction executed) := by
  unfold finishInstruction
  split
  · exact .single (.advance _) rfl
  · exact Run.Reachable.refl

theorem runLoop_board (z : Z80 σ) (fuel remaining : Nat) (m : Machine σ) :
    BoardRun m (runLoop z fuel remaining m) := by
  induction fuel generalizing remaining m with
  | zero => exact Run.Reachable.refl
  | succ fuel ih =>
    simp only [runLoop]
    have hserve := serve_board (z.run m.cpu) m.beginInstruction
    split
    · exact Run.Reachable.refl
    split
    · exact hserve
    have hfinish := hserve.trans (finishInstruction_board _ (serve (z.run m.cpu) m.beginInstruction).1)
    split
    · exact hfinish
    · exact hfinish.trans (ih _ _)

theorem runCycles_board (z : Z80 σ) (m : Machine σ) (cycles : Nat) :
    BoardRun m (m.runCycles z cycles) := by
  unfold runCycles
  split
  · exact Run.Reachable.refl
  · exact runLoop_board z _ _ { m with cpuCycleOverrun := 0 }

theorem step_board (z : Z80 σ) (m : Machine σ) (op : Op) : BoardRun m (m.step z op) := by
  cases op with
  | host op => exact .single (.host op) rfl
  | runCycles cycles => exact runCycles_board z m cycles
  | reset => exact .single .reset rfl

/-- The board after any run of the machine is reached by a run of the board. -/
theorem run_reachable (z : Z80 σ) (bootRom : List Byte) (ops : List Op) :
    (Run.run (step z) (power z bootRom) ops).board.Reachable := by
  have hinv := Run.run_invariant (I := fun m => BoardRun (power z bootRom) m)
    (fun m op h => h.trans (step_board z m op)) Run.Reachable.refl ops
  exact ⟨bootRom, hinv⟩

/-! ## Acknowledged interrupts -/

/-- Every board the library has acknowledged an interrupt at is reached from power-up, and so is the
present one. -/
def Acknowledges (m : Machine σ) : Prop :=
  m.board.Reachable ∧ ∀ b ∈ m.acknowledged, b.Reachable

theorem Acknowledges.run {m m' : Machine σ} (h : m.Acknowledges) (hrun : BoardRun m m')
    (hsame : m'.acknowledged = m.acknowledged) : m'.Acknowledges := by
  obtain ⟨⟨bootRom, hb⟩, ha⟩ := h
  obtain ⟨as, has⟩ := hrun
  exact ⟨⟨bootRom, has ▸ hb.runs as⟩, hsame ▸ ha⟩

theorem synchronizeCpuIo_acknowledged (m : Machine σ) (cycle : Byte) :
    (m.synchronizeCpuIo cycle).acknowledged = m.acknowledged := by
  unfold synchronizeCpuIo; dsimp only; split <;> rfl

theorem finishInstruction_acknowledged (m : Machine σ) (executed : Nat) :
    (m.finishInstruction executed).acknowledged = m.acknowledged := by
  unfold finishInstruction; split <;> rfl

theorem serve_acknowledges (r : BusRun σ) {m : Machine σ} (h : m.Acknowledges) :
    (serve r m).2.Acknowledges := by
  induction r generalizing m with
  | done executed cpu => exact h
  | readMemory address next ih => exact ih _ h
  | writeMemory address value next ih =>
    exact ih (h.run (.single (.host (.writeMemory address value)) rfl) rfl)
  | readIo cycle port next ih =>
    have hsync := h.run (synchronizeCpuIo_board m cycle) (synchronizeCpuIo_acknowledged m cycle)
    exact ih _ (hsync.run (.single (.host (.readIo port)) rfl) rfl)
  | writeIo cycle port value next ih =>
    have hsync := h.run (synchronizeCpuIo_board m cycle) (synchronizeCpuIo_acknowledged m cycle)
    exact ih (hsync.run (.single (.host (.writeIo port value)) rfl) rfl)
  | sampleInt next ih => exact ih _ h
  | interruptAcknowledge next ih =>
    refine ih _ ⟨h.1, fun b hb => ?_⟩
    rcases List.mem_append.mp hb with hb | hb
    · exact h.2 b hb
    · rw [List.mem_singleton.mp hb]; exact h.1

theorem runLoop_acknowledges (z : Z80 σ) (fuel remaining : Nat) {m : Machine σ}
    (h : m.Acknowledges) : (runLoop z fuel remaining m).Acknowledges := by
  induction fuel generalizing remaining m with
  | zero => exact h
  | succ fuel ih =>
    simp only [runLoop]
    have hserve : (serve (z.run m.cpu) m.beginInstruction).2.Acknowledges := serve_acknowledges _ h
    have hfinish := hserve.run (finishInstruction_board _ (serve (z.run m.cpu) m.beginInstruction).1)
      (finishInstruction_acknowledged _ _)
    split
    · exact h
    split
    · exact hserve
    split
    · exact hfinish
    · exact ih _ hfinish

theorem step_acknowledges (z : Z80 σ) {m : Machine σ} (h : m.Acknowledges) (op : Op) :
    (m.step z op).Acknowledges := by
  cases op with
  | host op => exact h.run (step_board z m (.host op)) rfl
  | runCycles cycles =>
    show (m.runCycles z cycles).Acknowledges
    unfold runCycles
    split
    · exact h
    · exact runLoop_acknowledges z _ _ h
  | reset => exact h.run (step_board z m .reset) rfl

theorem run_acknowledges (z : Z80 σ) (bootRom : List Byte) (ops : List Op) :
    (Run.run (step z) (power z bootRom) ops).Acknowledges := by
  have hpower : (power z bootRom).Acknowledges :=
    ⟨⟨bootRom, .refl⟩, fun _ hb => absurd hb List.not_mem_nil⟩
  exact Run.run_invariant (I := Acknowledges) (fun _ op h => step_acknowledges z h op) hpower ops

end Machine
end FK1
