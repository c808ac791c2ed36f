import FK1.SerialPort

/-!
# FK1.GuestRun

What the guest does to the board in `run_cycles`: the actions in their order. None of them is one of
the host's serial operations.
-/

namespace FK1

/-- The host's serial operations. -/
def HostOp.serial : HostOp → Bool
  | .setSerialConnected _ | .setSerialClearToSend _ | .queueSerialReceivedByte _
  | .takeSerialTransmittedByte => true
  | _ => false

/-- An access to a register. -/
def Uart8251.Op.access : Uart8251.Op → Bool
  | .read _ | .write _ _ => true
  | _ => false

/-- The actions of a running instruction. -/
def Action.byGuest : Action → Bool
  | .advance _ => true
  | .host (.writeMemory _ _) | .host (.readIo _) | .host (.writeIo _ _) => true
  | _ => false

namespace Machine

variable {σ : Type}

/-! ## The actions -/

def synchronizeActions (m : Machine σ) (relativeCycle : Byte) : List Action :=
  if relativeCycle.toNat > m.synchronizedInstructionCycles then
    [.advance (relativeCycle.toNat - m.synchronizedInstructionCycles)]
  else []

def serveActions : BusRun σ → Machine σ → List Action
  | .done _ _, _ => []
  | .readMemory address next, m => serveActions (next (m.board.readMemory address)) m
  | .writeMemory address value next, m =>
    .host (.writeMemory address value)
      :: serveActions next { m with board := m.board.writeMemory address value }
  | .readIo cycle port next, m =>
    let synchronized := m.synchronizeCpuIo cycle
    m.synchronizeActions cycle ++ .host (.readIo port)
      :: serveActions (next (synchronized.board.readIo port).1)
        { synchronized with board := (synchronized.board.readIo port).2 }
  | .writeIo cycle port value next, m =>
    let synchronized := m.synchronizeCpuIo cycle
    m.synchronizeActions cycle ++ .host (.writeIo port value)
      :: serveActions next { synchronized with board := synchronized.board.writeIo port value }
  | .sampleInt next, m => serveActions (next m.board.intPin) m
  | .interruptAcknowledge next, m =>
    serveActions (next m.board.interrupts.vector)
      { m with acknowledged := m.acknowledged ++ [m.board] }

def finishActions (m : Machine σ) (executed : Nat) : List Action :=
  if m.synchronizedInstructionCycles < executed then
    [.advance (executed - m.synchronizedInstructionCycles)]
  else []

def runLoopActions (z : Z80 σ) : Nat → Nat → Machine σ → List Action
  | 0, _, _ => []
  | fuel + 1, remaining, m =>
    if remaining = 0 then []
    else
      let actions := serveActions (z.run m.cpu) m.beginInstruction
      let (executed, m) := serve (z.run m.cpu) m.beginInstruction
      if executed = 0 then actions
      else
        let actions := actions ++ m.finishActions executed
        let m := m.finishInstruction executed
        if executed ≥ remaining then actions
        else actions ++ runLoopActions z fuel (remaining - executed) m

def runCyclesActions (z : Z80 σ) (m : Machine σ) (cycles : Nat) : List Action :=
  if cycles ≤ m.cpuCycleOverrun then []
  else
    let remaining := cycles - m.cpuCycleOverrun
    runLoopActions z remaining remaining { m with cpuCycleOverrun := 0 }

/-! ## They are the run -/

theorem synchronizeActions_run (m : Machine σ) (cycle : Byte) :
    Run.run Board.act m.board (m.synchronizeActions cycle) = (m.synchronizeCpuIo cycle).board := by
  unfold synchronizeActions synchronizeCpuIo
  dsimp only
  split <;> rfl

theorem serveActions_run (r : BusRun σ) (m : Machine σ) :
    Run.run Board.act m.board (serveActions r m) = (serve r m).2.board := by
  induction r generalizing m with
  | done executed cpu => rfl
  | readMemory address next ih => exact ih _ m
  | writeMemory address value next ih =>
    exact ih { m with board := m.board.writeMemory address value }
  | readIo cycle port next ih =>
    unfold serveActions
    rw [Run.run_append, synchronizeActions_run, Run.run_cons]
    exact ih _ { m.synchronizeCpuIo cycle with
      board := ((m.synchronizeCpuIo cycle).board.readIo port).2 }
  | writeIo cycle port value next ih =>
    unfold serveActions
    rw [Run.run_append, synchronizeActions_run, Run.run_cons]
    exact ih { m.synchronizeCpuIo cycle with
      board := (m.synchronizeCpuIo cycle).board.writeIo port value }
  | sampleInt next ih => exact ih _ m
  | interruptAcknowledge next ih => exact ih _ { m with acknowledged := m.acknowledged ++ [m.board] }

theorem finishActions_run (m : Machine σ) (executed : Nat) :
    Run.run Board.act m.board (m.finishActions executed) = (m.finishInstruction executed).board := by
  unfold finishActions finishInstruction
  split <;> rfl

theorem runLoopActions_run (z : Z80 σ) (fuel remaining : Nat) (m : Machine σ) :
    Run.run Board.act m.board (runLoopActions z fuel remaining m) = (runLoop z fuel remaining m).board := by
  induction fuel generalizing remaining m with
  | zero => rfl
  | succ fuel ih =>
    have hserve := serveActions_run (z.run m.cpu) m.beginInstruction
    unfold runLoopActions runLoop
    dsimp only
    split
    · rfl
    split
    · exact hserve
    have hfinish : Run.run Board.act m.board (serveActions (z.run m.cpu) m.beginInstruction
        ++ (serve (z.run m.cpu) m.beginInstruction).2.finishActions
          (serve (z.run m.cpu) m.beginInstruction).1)
        = ((serve (z.run m.cpu) m.beginInstruction).2.finishInstruction
          (serve (z.run m.cpu) m.beginInstruction).1).board := by
      rw [Run.run_append, ← finishActions_run]
      exact congrArg (Run.run Board.act · _) hserve
    split
    · exact hfinish
    · rw [Run.run_append, hfinish]
      exact ih _ _

theorem runCyclesActions_run (z : Z80 σ) (m : Machine σ) (cycles : Nat) :
    Run.run Board.act m.board (m.runCyclesActions z cycles) = (m.runCycles z cycles).board := by
  unfold runCyclesActions runCycles
  split
  · rfl
  · exact runLoopActions_run z _ _ { m with cpuCycleOverrun := 0 }

/-! ## They are the guest's -/

theorem serveActions_guest (r : BusRun σ) (m : Machine σ) :
    ∀ a ∈ serveActions r m, a.byGuest = true := by
  have hsynchronize : ∀ (m : Machine σ) (cycle : Byte),
      ∀ a ∈ m.synchronizeActions cycle, a.byGuest = true := by
    intro m cycle a ha
    unfold synchronizeActions at ha
    split at ha
    · rw [List.mem_singleton.mp ha]
      rfl
    · exact absurd ha List.not_mem_nil
  induction r generalizing m with
  | done executed cpu => exact fun a ha => absurd ha List.not_mem_nil
  | readMemory address next ih => exact ih _ m
  | writeMemory address value next ih =>
    intro a ha
    rcases List.mem_cons.mp ha with rfl | ha
    · rfl
    · exact ih _ a ha
  | readIo cycle port next ih =>
    intro a ha
    rcases List.mem_append.mp ha with ha | ha
    · exact hsynchronize m cycle a ha
    · rcases List.mem_cons.mp ha with rfl | ha
      · rfl
      · exact ih _ _ a ha
  | writeIo cycle port value next ih =>
    intro a ha
    rcases List.mem_append.mp ha with ha | ha
    · exact hsynchronize m cycle a ha
    · rcases List.mem_cons.mp ha with rfl | ha
      · rfl
      · exact ih _ a ha
  | sampleInt next ih => exact ih _ m
  | interruptAcknowledge next ih => exact ih _ _

theorem runLoopActions_guest (z : Z80 σ) (fuel remaining : Nat) (m : Machine σ) :
    ∀ a ∈ runLoopActions z fuel remaining m, a.byGuest = true := by
  induction fuel generalizing remaining m with
  | zero => exact fun a ha => absurd ha List.not_mem_nil
  | succ fuel ih =>
    have hserve := serveActions_guest (z.run m.cpu) m.beginInstruction
    have hfinish : ∀ (v : Machine σ) (executed : Nat), ∀ a ∈ v.finishActions executed,
        a.byGuest = true := by
      intro v executed a ha
      unfold finishActions at ha
      split at ha
      · rw [List.mem_singleton.mp ha]
        rfl
      · exact absurd ha List.not_mem_nil
    unfold runLoopActions
    dsimp only
    split
    · exact fun a ha => absurd ha List.not_mem_nil
    split
    · exact hserve
    split
    · intro a ha
      exact (List.mem_append.mp ha).elim (hserve a) (hfinish _ _ a)
    · intro a ha
      rcases List.mem_append.mp ha with ha | ha
      · exact (List.mem_append.mp ha).elim (hserve a) (hfinish _ _ a)
      · exact ih _ _ a ha

theorem runCyclesActions_guest (z : Z80 σ) (m : Machine σ) (cycles : Nat) :
    ∀ a ∈ m.runCyclesActions z cycles, a.byGuest = true := by
  unfold runCyclesActions
  split
  · exact fun a ha => absurd ha List.not_mem_nil
  · exact runLoopActions_guest z _ _ _

/-! ## The actions of any operation -/

def opActions (z : Z80 σ) (m : Machine σ) : Op → List Action
  | .host op => [.host op]
  | .runCycles cycles => m.runCyclesActions z cycles
  | .reset => [.reset]

theorem opActions_run (z : Z80 σ) (m : Machine σ) (op : Op) :
    Run.run Board.act m.board (m.opActions z op) = (m.step z op).board := by
  cases op with
  | host op => rfl
  | runCycles cycles => exact runCyclesActions_run z m cycles
  | reset => rfl

def Op.serial : Op → Bool
  | .host op => op.serial
  | _ => false

end Machine

namespace Board

/-- Beside the serial operations the host reaches the 8251 through its registers alone. -/
theorem uartOps_access (b : Board) {op : HostOp} (hop : op.serial = false) :
    ∀ o ∈ b.uartOps (.host op), o.access = true := by
  have hports : ∀ {port : Word} {access : Uart8251.Op}, access.access = true →
      ∀ o ∈ if ioGroup port = 4 then [access] else [], o.access = true := by
    intro port access haccess o ho
    split at ho
    · rwa [List.mem_singleton.mp ho]
    · exact absurd ho List.not_mem_nil
  cases op with
  | readIo port => exact @hports port (.read (registerOf port)) rfl
  | writeIo port value => exact @hports port (.write (registerOf port) value) rfl
  | setSerialConnected | setSerialClearToSend | queueSerialReceivedByte
  | takeSerialTransmittedByte => exact Bool.noConfusion hop
  | _ => exact fun o ho => absurd ho List.not_mem_nil

/-- Only the host's serial operations change its settings. -/
theorem serialSettings_kept (b : Board) {a : Action} (ha : ∀ op, a = .host op → op.serial = false) :
    b.serialSettings a = (b.serialConnectionManaged, b.serialConnected, b.serialClearToSend) := by
  cases a with
  | advance cpuCycles => rfl
  | reset => rfl
  | host op =>
    have hop := ha op rfl
    cases op with
    | setSerialConnected | setSerialClearToSend => exact Bool.noConfusion hop
    | _ => rfl

end Board

namespace Machine

variable {σ : Type}

theorem byGuest_serial {a : Action} (ha : a.byGuest = true) :
    ∀ op, a = .host op → op.serial = false := by
  rintro op rfl
  cases op with
  | setSerialConnected | setSerialClearToSend | queueSerialReceivedByte
  | takeSerialTransmittedByte => exact Bool.noConfusion ha
  | _ => rfl

/-- Beside the serial operations no operation of the machine changes the serial settings. -/
theorem step_serialSettings (z : Z80 σ) (m : Machine σ) {op : Op} (hop : op.serial = false) :
    (m.step z op).board.serialConnectionManaged = m.board.serialConnectionManaged
      ∧ (m.step z op).board.serialConnected = m.board.serialConnected
      ∧ (m.step z op).board.serialClearToSend = m.board.serialClearToSend := by
  have hactions : ∀ a ∈ m.opActions z op, ∀ op', a = .host op' → op'.serial = false := by
    intro a ha
    cases op with
    | host op =>
      rw [List.mem_singleton.mp ha]
      rintro op' ⟨⟩
      exact hop
    | runCycles cycles => exact byGuest_serial (runCyclesActions_guest z m cycles a ha)
    | reset =>
      rw [List.mem_singleton.mp ha]
      rintro op' ⟨⟩
  rw [← opActions_run]
  generalize m.opActions z op = actions at hactions
  generalize m.board = b
  induction actions generalizing b with
  | nil => exact ⟨rfl, rfl, rfl⟩
  | cons a as ih =>
    have hside := Board.act_serialSide b a
    rw [Board.serialSettings_kept b (hactions a List.mem_cons_self)] at hside
    obtain ⟨hmanaged, hconnected, hclear⟩ :=
      ih (fun a' ha' => hactions a' (List.mem_cons_of_mem _ ha')) (b.act a)
    rw [Run.run_cons]
    exact ⟨hmanaged.trans (congrArg Board.SerialSide.managed hside),
      hconnected.trans (congrArg Board.SerialSide.connected hside),
      hclear.trans (congrArg Board.SerialSide.clearToSend hside)⟩

end Machine
end FK1
