import FK1.Batching
import FK1.SerialBridge
import FK1.TransmitLoad

/-!
# FK1.Backpressure

Backpressure keeps the queue of completed bytes below its capacity in the main loop. With CTS the
queue is empty when `run_cycles` begins, and the edges of OUT1 in 80000 cycles are too few for 4096
frames; without CTS only the frame under way can complete.
-/

namespace FK1

/-- `Machine::cycles_per_frame`. -/
def cyclesPerFrame : Nat := 80000

/-! ## Edges and cycles -/

theorem PitChannel.clockLoop_risingEdges (c : PitChannel) (pulses : Nat) (result : ClockResult) :
    (c.clockLoop pulses result).2.risingEdges ≤ result.risingEdges + pulses := by
  induction pulses generalizing c result with
  | zero => exact Nat.le_refl _
  | succ pulses ih =>
    unfold PitChannel.clockLoop
    refine Nat.le_trans (ih _ _) ?_
    split
    · simp only
      omega
    · split
      · simp only
        omega
      · omega

theorem Uart8251.access_keepsCts {op : Uart8251.Op} (h : op.access = true) : op.keepsCts = true := by
  cases op with
  | read | write => rfl
  | _ => exact Bool.noConfusion h

namespace Board

theorem serialEdges_le (b : Board) (cpuCycles : Nat) :
    b.serialEdges cpuCycles ≤ (b.timerClockAccumulator + cpuCycles * 3) / 12 := by
  unfold serialEdges
  dsimp only
  split
  · exact Nat.zero_le _
  · exact Nat.le_trans (PitChannel.clockLoop_risingEdges _ _ {}) (Nat.le_of_eq (Nat.zero_add _))

/-- The operations of the 8251 along a run of the board. -/
def opsAlong (b : Board) : List Action → List Uart8251.Op
  | [] => []
  | a :: as => b.uartOps a ++ (b.act a).opsAlong as

theorem opsAlong_run (b : Board) (actions : List Action) :
    (Run.run act b actions).uart = Run.run Uart8251.apply b.uart (b.opsAlong actions) := by
  induction actions generalizing b with
  | nil => rfl
  | cons a as ih => rw [Run.run_cons, ih, act_uart, opsAlong, Run.run_append]

/-- The guest advances time, or accesses registers and leaves the counters alone. -/
theorem guest_cases (b : Board) {a : Action} (ha : a.byGuest = true) :
    (∃ cpuCycles, a = .advance cpuCycles)
      ∨ ((b.act a).clocks = b.clocks ∧ ∀ op ∈ b.uartOps a, op.access = true) := by
  cases a with
  | advance cpuCycles => exact .inl ⟨cpuCycles, rfl⟩
  | reset => exact Bool.noConfusion ha
  | host op => exact .inr ⟨host_clocks b op, b.uartOps_access (Machine.byGuest_serial ha op rfl)⟩

/-- Twelve master ticks for each edge. -/
theorem guest_edges (b : Board) {actions : List Action} (hactions : ∀ a ∈ actions, a.byGuest = true) :
    12 * (b.opsAlong actions).count .transmitClockEdge
        + (Run.run act b actions).timerClockAccumulator + 3 * b.cycleCount
      ≤ b.timerClockAccumulator + 3 * (Run.run act b actions).cycleCount := by
  induction actions generalizing b with
  | nil =>
    simp only [opsAlong, List.count_nil, Run.run_nil]
    omega
  | cons a as ih =>
    have hrest := ih (b.act a) fun a' ha' => hactions a' (List.mem_cons_of_mem a ha')
    rw [Run.run_cons, opsAlong, List.count_append]
    rcases guest_cases b (hactions a List.mem_cons_self) with ⟨cpuCycles, rfl⟩ | ⟨hclocks, haccess⟩
    · have hclocks := advanceTime_clocks b cpuCycles
      simp only [clocks, Clocks.mk.injEq] at hclocks
      obtain ⟨hcycle, -, -, -, htimer, -⟩ := hclocks
      have hedges := serialEdges_le b cpuCycles
      have hcount : (b.uartOps (.advance cpuCycles)).count .transmitClockEdge
          = b.serialEdges cpuCycles := by
        simp [uartOps, List.count_append, List.count_replicate]
      rw [hcount]
      simp only [act] at hrest ⊢
      omega
    · simp only [clocks, Clocks.mk.injEq] at hclocks
      obtain ⟨hcycle, -, -, -, htimer, -⟩ := hclocks
      have hnone : .transmitClockEdge ∉ b.uartOps a := fun h => Bool.noConfusion (haccess _ h)
      rw [List.count_eq_zero.mpr hnone]
      omega

theorem guest_keepsCts (b : Board) {actions : List Action}
    (hactions : ∀ a ∈ actions, a.byGuest = true) : ∀ op ∈ b.opsAlong actions, op.keepsCts = true := by
  induction actions generalizing b with
  | nil => exact fun op hop => absurd hop List.not_mem_nil
  | cons a as ih =>
    intro op hop
    rw [opsAlong] at hop
    rcases List.mem_append.mp hop with hop | hop
    · rcases guest_cases b (hactions a List.mem_cons_self) with ⟨cpuCycles, rfl⟩ | ⟨-, haccess⟩
      · rcases List.mem_append.mp hop with hop | hop
        · rw [List.eq_of_mem_replicate hop]
          rfl
        · rw [List.eq_of_mem_replicate hop]
          rfl
      · exact Uart8251.access_keepsCts (haccess op hop)
    · exact ih (b.act a) (fun a' ha' => hactions a' (List.mem_cons_of_mem a ha')) op hop

end Board

/-- No instruction executes more than `limit` cycles. -/
def BusRun.AtMost {σ : Type} (limit : Nat) : BusRun σ → Prop
  | .done executed _ => executed ≤ limit
  | .readMemory _ next => ∀ value, (next value).AtMost limit
  | .writeMemory _ _ next => next.AtMost limit
  | .readIo _ _ next => ∀ value, (next value).AtMost limit
  | .writeIo _ _ _ next => next.AtMost limit
  | .sampleInt next => ∀ level, (next level).AtMost limit
  | .interruptAcknowledge next => ∀ vector, (next vector).AtMost limit

def Z80.AtMost {σ : Type} (z : Z80 σ) (limit : Nat) : Prop := ∀ cpu, (z.run cpu).AtMost limit

namespace Machine

variable {σ : Type}

theorem serve_atMost (r : BusRun σ) (m : Machine σ) {limit : Nat} (h : r.AtMost limit) :
    (serve r m).1 ≤ limit := by
  induction r generalizing m with
  | done executed cpu => exact h
  | readMemory address next ih => exact ih _ m (h _)
  | writeMemory address value next ih => exact ih _ h
  | readIo cycle port next ih => exact ih _ _ (h _)
  | writeIo cycle port value next ih => exact ih _ h
  | sampleInt next ih => exact ih _ m (h _)
  | interruptAcknowledge next ih => exact ih _ _ (h _)

/-- The last instruction of a call overshoots by less than its own length. -/
theorem runLoop_overrun {z : Z80 σ} (hz : z.Timed) {limit : Nat} (hlimit : z.AtMost limit)
    (fuel remaining : Nat) {m : Machine σ} (hm : m.cpuCycleOverrun = 0) :
    (runLoop z fuel remaining m).cpuCycleOverrun ≤ limit - 1 := by
  induction fuel generalizing remaining m with
  | zero => exact Nat.le_trans (Nat.le_of_eq hm) (Nat.zero_le _)
  | succ fuel ih =>
    by_cases hr : remaining = 0
    · subst hr
      rw [runLoop, if_pos rfl, hm]
      exact Nat.zero_le _
    · have hexecuted : (instruction z m).1 ≤ limit :=
        serve_atMost _ m.beginInstruction (hlimit m.cpu)
      rw [runLoop_succ hz _ _ m hr]
      split
      · simp only
        omega
      · exact ih _ ((instruction_overrun z m).trans hm)

theorem runCycles_atMost {z : Z80 σ} (hz : z.Timed) {limit : Nat} (hlimit : z.AtMost limit)
    (m : Machine σ) (cycles : Nat) :
    (m.runCycles z cycles).board.cycleCount ≤ m.board.cycleCount + cycles + (limit - 1) := by
  unfold runCycles
  split
  · simp only
    omega
  · have hcycles := @runLoop_cycles σ z hz (cycles - m.cpuCycleOverrun) (cycles - m.cpuCycleOverrun)
      (Nat.le_refl _) { m with cpuCycleOverrun := 0 } rfl
    have hoverrun := @runLoop_overrun σ z hz limit hlimit (cycles - m.cpuCycleOverrun)
      (cycles - m.cpuCycleOverrun) { m with cpuCycleOverrun := 0 } rfl
    simp only at hcycles hoverrun ⊢
    omega

end Machine

/-! ## The board between two edges -/

namespace Board

/-- The bound on the bytes completed and the frame under way. -/
def frameBound : Nat := 4014

/-- A managed serial port within the bound. -/
structure Paced (b : Board) : Prop where
  managed : b.serialConnectionManaged = true
  cts : b.uart.ctsActive = (b.serialConnected && b.serialClearToSend)
  frame : b.uart.LongFrame
  pending : b.uart.pendingFrames ≤ frameBound
  accumulator : b.timerClockAccumulator < 12

/-- With CTS every completed byte has been taken. -/
def Drained (b : Board) : Prop := b.uart.ctsActive = true → b.uart.transmittedBytes = []

variable {b : Board}

theorem host_noEdge (b : Board) (op : HostOp) : .transmitClockEdge ∉ b.uartOps (.host op) := by
  cases hserial : op.serial with
  | false => exact fun h => Bool.noConfusion (b.uartOps_access hserial _ h)
  | true =>
    cases op with
    | setSerialConnected connected =>
      cases connected with
      | true => simp [uartOps]
      | false => simp [uartOps, List.mem_replicate]
    | setSerialClearToSend clear => simp [uartOps]
    | queueSerialReceivedByte value =>
      intro h
      have hops : .transmitClockEdge ∈ if b.serialConnected then
          [Uart8251.Op.queueReceivedByte value] else [] := h
      split at hops <;> simp at hops
    | takeSerialTransmittedByte => simp [uartOps]
    | _ => exact Bool.noConfusion hserial

theorem host_eases (b : Board) (op : HostOp) : Uart8251.Eases b.uart (b.host op).uart := by
  have heases := @Uart8251.run_eases b.uart (b.uartOps (.host op)) (host_noEdge b op)
  rw [← act_uart] at heases
  exact heases

theorem access_run_cts {u : Uart8251} {ops : List Uart8251.Op}
    (hops : ∀ op ∈ ops, op.keepsCts = true) :
    (Run.run Uart8251.apply u ops).ctsActive = u.ctsActive := by
  induction ops generalizing u with
  | nil => rfl
  | cons op ops ih =>
    rw [Run.run_cons, ih fun op' hop' => hops op' (List.mem_cons_of_mem op hop')]
    exact Uart8251.apply_cts op (hops op List.mem_cons_self)

theorem setSerialConnected_cts (b : Board) (connected : Bool) :
    (b.setSerialConnected connected).uart.ctsActive
      = ((b.setSerialConnected connected).serialConnected
        && (b.setSerialConnected connected).serialClearToSend) := by
  have hside := act_serialSide b (.host (.setSerialConnected connected))
  have hconnected : (b.setSerialConnected connected).serialConnected = connected :=
    congrArg SerialSide.connected hside
  have hclear : (b.setSerialConnected connected).serialClearToSend = true :=
    congrArg SerialSide.clearToSend hside
  rw [hconnected, hclear]
  cases connected with
  | true => exact congrArg Uart8251.ctsActive (connect_uart b)
  | false => exact congrArg Uart8251.ctsActive (disconnect_uart b)

/-- CTS follows the host's settings whatever the host does. -/
theorem host_cts (op : HostOp) (hcts : b.uart.ctsActive = (b.serialConnected && b.serialClearToSend)) :
    (b.host op).uart.ctsActive = ((b.host op).serialConnected && (b.host op).serialClearToSend) := by
  have hside := act_serialSide b (.host op)
  have huart : (b.host op).uart = Run.run Uart8251.apply b.uart (b.uartOps (.host op)) :=
    congrArg SerialSide.uart hside
  have hconnected : (b.host op).serialConnected = (b.serialSettings (.host op)).2.1 :=
    congrArg SerialSide.connected hside
  have hclear : (b.host op).serialClearToSend = (b.serialSettings (.host op)).2.2 :=
    congrArg SerialSide.clearToSend hside
  have hkept : (∀ o ∈ b.uartOps (.host op), o.keepsCts = true) →
      b.serialSettings (.host op)
        = (b.serialConnectionManaged, b.serialConnected, b.serialClearToSend) →
      (b.host op).uart.ctsActive = ((b.host op).serialConnected && (b.host op).serialClearToSend) := by
    intro hops hsettings
    rw [huart, access_run_cts hops, hcts, hconnected, hclear, hsettings]
  cases hserial : op.serial with
  | false =>
    refine hkept (fun o ho => ?_) (b.serialSettings_kept ?_)
    · exact Uart8251.access_keepsCts (b.uartOps_access hserial o ho)
    · rintro op' ⟨⟩
      exact hserial
  | true =>
    cases op with
    | setSerialConnected connected => exact setSerialConnected_cts b connected
    | setSerialClearToSend clear =>
      rw [huart, hconnected, hclear]
      rfl
    | queueSerialReceivedByte value =>
      refine hkept (fun o ho => ?_) rfl
      have hops : o ∈ if b.serialConnected then [Uart8251.Op.queueReceivedByte value] else [] := ho
      split at hops
      · rw [List.mem_singleton.mp hops]
        rfl
      · exact absurd hops List.not_mem_nil
    | takeSerialTransmittedByte =>
      refine hkept (fun o ho => ?_) rfl
      rw [List.mem_singleton.mp ho]
      rfl
    | _ => exact Bool.noConfusion hserial

/-- Every operation of the host keeps the port paced. -/
theorem Paced.host (h : b.Paced) (op : HostOp) : (b.host op).Paced := by
  have heases := host_eases b op
  have hside := act_serialSide b (.host op)
  refine ⟨?_, host_cts op h.cts, heases.longFrame h.frame,
    Nat.le_trans heases.pendingFrames h.pending, ?_⟩
  · have hmanaged : (b.host op).serialConnectionManaged = (b.serialSettings (.host op)).1 :=
      congrArg SerialSide.managed hside
    rw [hmanaged]
    cases op with
    | setSerialConnected connected => rfl
    | _ => exact h.managed
  · have haccumulator : (b.host op).timerClockAccumulator = b.timerClockAccumulator :=
      congrArg SerialSide.accumulator hside
    rw [haccumulator]
    exact h.accumulator

/-- The chip after a system reset. -/
theorem reset_uart (b : Board) : b.reset.uart =
    { ctsActive := !b.serialConnectionManaged || (b.serialConnected && b.serialClearToSend)
      dsrActive := b.serialConnectionManaged && b.serialConnected } :=
  act_uart b .reset

theorem Paced.reset (h : b.Paced) : b.reset.Paced := by
  have hside := act_serialSide b .reset
  have hconnected : b.reset.serialConnected = b.serialConnected := congrArg SerialSide.connected hside
  have hclear : b.reset.serialClearToSend = b.serialClearToSend :=
    congrArg SerialSide.clearToSend hside
  refine ⟨(congrArg SerialSide.managed hside).trans h.managed, ?_, ?_, ?_, ?_⟩
  · rw [reset_uart, hconnected, hclear, h.managed]
    rfl
  · rw [reset_uart]
    exact fun hactive => Bool.noConfusion hactive
  · rw [reset_uart]
    exact Nat.zero_le _
  · have haccumulator : b.reset.timerClockAccumulator = 0 := congrArg SerialSide.accumulator hside
    omega

theorem act_accumulator (h : b.timerClockAccumulator < 12) (a : Action) :
    (b.act a).timerClockAccumulator < 12 := by
  have haccumulator : (b.act a).timerClockAccumulator = b.accumulatorAfter a :=
    congrArg SerialSide.accumulator (act_serialSide b a)
  rw [haccumulator]
  cases a with
  | advance cpuCycles => exact Nat.mod_lt _ (by decide)
  | reset => exact Nat.zero_lt_succ _
  | host op => exact h

/-! ## One call of `run_cycles` -/

/-- Within `run_cycles` the bound holds after any of the operations on the chip. -/
theorem paced_along (h : b.Paced) (hdrained : b.Drained) {actions : List Action}
    (hactions : ∀ a ∈ actions, a.byGuest = true)
    (hcycles : (Run.run act b actions).cycleCount ≤ b.cycleCount + 80254)
    {ops : List Uart8251.Op} (hops : ops <+: b.opsAlong actions) :
    (Run.run Uart8251.apply b.uart ops).LongFrame
      ∧ (Run.run Uart8251.apply b.uart ops).pendingFrames ≤ frameBound := by
  obtain ⟨hframe, hload⟩ := Uart8251.run_load ops h.frame
  refine ⟨hframe, ?_⟩
  cases hcts : b.uart.ctsActive with
  | false =>
    refine Nat.le_trans (Uart8251.run_blocked ops h.frame hcts fun op hop => ?_) h.pending
    exact guest_keepsCts b hactions op (hops.subset hop)
  | true =>
    have hempty : b.uart.load ≤ 5 := by
      have hframeLoad := Uart8251.frameLoad_le b.uart
      rw [Uart8251.load, hdrained hcts, List.length_nil]
      omega
    have hedges := guest_edges b hactions
    have hcount := hops.sublist.count_le Uart8251.Op.transmitClockEdge
    have haccumulator := h.accumulator
    have hpending := Uart8251.pendingFrames_le (Run.run Uart8251.apply b.uart ops)
    -- 3 · 80254 master ticks and 11 left over make 20064 edges, those 4013 frames of five bits
    have hlength : (Run.run Uart8251.apply b.uart ops).transmittedBytes.length ≤ 4013 := by
      rw [Uart8251.load] at hload
      omega
    unfold frameBound
    omega

end Board

namespace Machine

variable {σ : Type}

theorem runCycles_paced {z : Z80 σ} (hz : z.Timed) (hlimit : z.AtMost 255) {m : Machine σ}
    (h : m.board.Paced) (hdrained : m.board.Drained) : (m.runCycles z cyclesPerFrame).board.Paced := by
  have hactions := runCyclesActions_guest z m cyclesPerFrame
  have hrun := runCyclesActions_run z m cyclesPerFrame
  have hsettings := @step_serialSettings σ z m (.runCycles cyclesPerFrame) rfl
  have hcycles : (Run.run Board.act m.board (m.runCyclesActions z cyclesPerFrame)).cycleCount
      ≤ m.board.cycleCount + 80254 := by
    rw [hrun]
    exact runCycles_atMost hz hlimit m cyclesPerFrame
  have hops := Board.opsAlong_run m.board (m.runCyclesActions z cyclesPerFrame)
  obtain ⟨hframe, hpending⟩ :=
    Board.paced_along h hdrained hactions hcycles (List.prefix_refl _)
  rw [← hops, hrun] at hframe hpending
  obtain ⟨hmanaged, hconnected, hclear⟩ := hsettings
  refine ⟨hmanaged.trans h.managed, ?_, hframe, hpending, ?_⟩
  · have hcts := @Board.access_run_cts m.board.uart _ (Board.guest_keepsCts m.board hactions)
    rw [← hops, hrun] at hcts
    rw [hcts, h.cts]
    exact (congrArg₂ (· && ·) hconnected hclear).symm
  · rw [← hrun]
    exact @Run.run_invariant Board Action Board.act m.board
      (fun b => b.timerClockAccumulator < 12) (fun _ a h => Board.act_accumulator h a) h.accumulator _

/-- What happens to the machine outside `run_cycles` and `synchronize_serial`. -/
def Op.beside : Op → Bool
  | .host op => !op.serial
  | .reset => true
  | .runCycles _ => false

theorem Paced.beside {z : Z80 σ} {m : Machine σ} (h : m.board.Paced) (op : Op)
    (hop : op.beside = true) : (m.step z op).board.Paced := by
  cases op with
  | host op => exact h.host op
  | reset => exact h.reset
  | runCycles cycles => exact Bool.noConfusion hop

theorem beside_drained {z : Z80 σ} {m : Machine σ} (h : m.board.Drained) (op : Op)
    (hop : op.beside = true) : (m.step z op).board.Drained := by
  cases op with
  | host op =>
    have hserial : op.serial = false := by simpa [Op.beside] using hop
    have huart := Board.act_uart m.board (.host op)
    have hcts := @Board.access_run_cts m.board.uart _ fun o ho =>
      Uart8251.access_keepsCts (m.board.uartOps_access hserial o ho)
    rw [← huart] at hcts
    intro hactive
    have hempty := h (hcts.symm.trans hactive)
    have hbytes := (Board.host_eases m.board op).bytes
    rw [hempty] at hbytes
    exact List.eq_nil_of_length_eq_zero (Nat.le_zero.mp hbytes)
  | reset => exact fun _ => congrArg Uart8251.transmittedBytes (Board.reset_uart m.board)
  | runCycles cycles => exact Bool.noConfusion hop

end Machine

/-! ## One call of `synchronize_serial` -/

/-- The operations between the two polls. -/
def HostOp.exchange : HostOp → Bool
  | .queueSerialReceivedByte _ | .takeSerialTransmittedByte | .setSerialClearToSend _ => true
  | _ => false

namespace SerialBridge

variable {σ : Type} {s : SerialBridge σ} {P : Board → Prop}

theorem retryInput_keeps (hP : ∀ b (op : HostOp), op.exchange = true → P b → P (b.host op))
    (h : P s.board) : P s.retryInput.board := by
  unfold retryInput
  split
  · exact h
  next value hvalue =>
    have hqueue : P (s.board.queueSerialReceivedByte value).2 :=
      hP s.board (.queueSerialReceivedByte value) rfl h
    dsimp only
    split <;> exact hqueue

theorem inputLoop_keeps (hP : ∀ b (op : HostOp), op.exchange = true → P b → P (b.host op))
    (fuel : Nat) (h : P s.board) : P (inputLoop fuel s).board := by
  induction fuel generalizing s with
  | zero => exact h
  | succ fuel ih =>
    unfold inputLoop
    split
    · exact h
    · split
      · exact h
      next byte link hbyte =>
        have hqueue : P (s.board.queueSerialReceivedByte byte).2 :=
          hP s.board (.queueSerialReceivedByte byte) rfl h
        dsimp only
        split <;> exact ih hqueue

theorem retryOutput_board (s : SerialBridge σ) : s.retryOutput.board = s.board := by
  unfold retryOutput
  split
  · rfl
  · dsimp only
    split <;> rfl

theorem outputLoop_keeps (hP : ∀ b (op : HostOp), op.exchange = true → P b → P (b.host op))
    (fuel : Nat) (h : P s.board) : P (outputLoop fuel s).board := by
  induction fuel generalizing s with
  | zero => exact h
  | succ fuel ih =>
    have htake : P s.board.takeSerialTransmittedByte.2 :=
      hP s.board .takeSerialTransmittedByte rfl h
    unfold outputLoop
    split
    · exact h
    · split
      · exact h
      next byte board hbyte =>
        rw [hbyte] at htake
        dsimp only
        split <;> exact ih htake

theorem transfer_keeps (hP : ∀ b (op : HostOp), op.exchange = true → P b → P (b.host op))
    (h : P s.board) : P s.transfer.board := by
  unfold transfer
  refine hP _ (.setSerialClearToSend _) rfl (outputLoop_keeps hP _ ?_)
  rw [retryOutput_board]
  exact inputLoop_keeps hP _ (retryInput_keeps hP h)

/-- A round of the output loop that takes a byte. -/
theorem outputLoop_taken (fuel : Nat) (hpending : ¬s.pendingSerialOutput.isSome = true) {byte : Byte}
    {board : Board} (htake : s.board.takeSerialTransmittedByte = (some byte, board)) :
    ∃ s' : SerialBridge σ, outputLoop (fuel + 1) s = outputLoop fuel s' ∧ s'.board = board := by
  refine ⟨_, by rw [outputLoop, if_neg hpending, htake], ?_⟩
  split <;> rfl

/-- The output loop ends with a byte the link has refused, or with nothing left in the chip. -/
theorem outputLoop_end (fuel : Nat) (hfuel : s.board.uart.transmittedBytes.length < fuel)
    (hnone : (outputLoop fuel s).pendingSerialOutput = none) :
    (outputLoop fuel s).board.uart.transmittedBytes = [] := by
  induction fuel generalizing s with
  | zero => exact absurd hfuel (Nat.not_lt_zero _)
  | succ fuel ih =>
    have heq := Uart8251.takeTransmittedByte_eq s.board.uart
    by_cases hpending : s.pendingSerialOutput.isSome = true
    · rw [outputLoop, if_pos hpending] at hnone
      rw [hnone] at hpending
      exact Bool.noConfusion hpending
    · cases hbytes : s.board.uart.transmittedBytes with
      | nil =>
        have htake : s.board.takeSerialTransmittedByte.1 = none := by
          rw [Board.takeSerialTransmittedByte, heq, hbytes]
          rfl
        have hsame : outputLoop (fuel + 1) s = s := by
          rw [outputLoop, if_neg hpending]
          split
          · rfl
          next byte board hbyte =>
            rw [hbyte] at htake
            cases htake
        rw [hsame]
        exact hbytes
      | cons byte rest =>
        have htake : s.board.takeSerialTransmittedByte
            = (some byte, { s.board with uart := { s.board.uart with transmittedBytes := rest } }) := by
          rw [Board.takeSerialTransmittedByte, heq, hbytes]
          rfl
        obtain ⟨s', hloop, hboard⟩ := outputLoop_taken fuel hpending htake
        rw [hloop] at hnone ⊢
        refine ih ?_ hnone
        have hlength : s'.board.uart.transmittedBytes = rest :=
          congrArg (fun b : Board => b.uart.transmittedBytes) hboard
        rw [hlength]
        rw [hbytes, List.length_cons] at hfuel
        omega

/-- CTS is on at the end of the exchange only when every completed byte has been taken. -/
theorem transfer_drained (s : SerialBridge σ) : s.transfer.board.Drained := by
  unfold transfer
  dsimp only
  generalize (inputLoop (s.retryInput.link.incoming.length + 1) s.retryInput).retryOutput = mid
  have hend := @outputLoop_end σ mid (mid.board.uart.transmittedBytes.length + 1) (Nat.lt_succ_self _)
  generalize outputLoop (mid.board.uart.transmittedBytes.length + 1) mid = last at hend ⊢
  intro hactive
  have hside := Board.act_serialSide last.board
    (.host (.setSerialClearToSend last.pendingSerialOutput.isNone))
  have hcts : (last.board.serialConnected && last.pendingSerialOutput.isNone) = true :=
    (congrArg (fun side => side.uart.ctsActive) hside).symm.trans hactive
  rw [Bool.and_eq_true, Option.isNone_iff_eq_none] at hcts
  have hempty := hend hcts.2
  have hbytes := (Board.host_eases last.board
    (.setSerialClearToSend last.pendingSerialOutput.isNone)).bytes
  rw [hempty] at hbytes
  exact List.eq_nil_of_length_eq_zero (Nat.le_zero.mp hbytes)

theorem exchange_connected (b : Board) (op : HostOp) (hop : op.exchange = true)
    (h : b.serialConnected = true) : (b.host op).serialConnected = true := by
  have hside := Board.act_serialSide b (.host op)
  refine (congrArg Board.SerialSide.connected hside).trans ?_
  cases op with
  | queueSerialReceivedByte | takeSerialTransmittedByte | setSerialClearToSend => exact h
  | _ => exact Bool.noConfusion hop

/-- Without a connection CTS is off. -/
theorem drained_of_disconnected {b : Board} (h : b.Paced) (hconnected : b.serialConnected = false) :
    b.Drained := by
  intro hactive
  rw [h.cts, hconnected] at hactive
  exact Bool.noConfusion hactive

theorem followLink_paced (h : s.board.Paced) :
    s.followLink.board.Paced ∧ s.followLink.board.serialConnected = s.followLink.link.connected := by
  have hset : ∀ connected, (s.board.setSerialConnected connected).Paced :=
    fun connected => h.host (.setSerialConnected connected)
  have hconnected := setSerialConnected_connected s.board
  unfold followLink
  by_cases hsame : (s.board.serialConnected != s.link.connected) = true
  · rw [if_pos hsame]
    dsimp only
    split
    · exact ⟨hset _, hconnected _⟩
    · exact ⟨hset _, hconnected _⟩
  · rw [if_neg hsame]
    exact ⟨h, by simpa using hsame⟩

theorem synchronizeSerial_paced (h : s.board.Paced) (first second : PollAnswers) :
    (s.synchronizeSerial first second).board.Paced
      ∧ (s.synchronizeSerial first second).board.Drained := by
  have hpolled : (s.pollLink first).board.Paced := h
  obtain ⟨hpaced, hfollows⟩ := followLink_paced hpolled
  unfold synchronizeSerial
  generalize (s.pollLink first).followLink = s at hpaced hfollows ⊢
  dsimp only
  by_cases hdown : (!s.link.connected) = true
  · rw [if_pos hdown]
    exact ⟨hpaced, drained_of_disconnected hpaced (hfollows.trans (by simpa using hdown))⟩
  · rw [if_neg hdown]
    have hup : s.board.serialConnected = true := hfollows.trans (by simpa using hdown)
    have htransfer : s.transfer.board.Paced :=
      @transfer_keeps σ s Board.Paced (fun _ op _ hb => hb.host op) hpaced
    have hconnected : s.transfer.board.serialConnected = true :=
      @transfer_keeps σ s (fun b => b.serialConnected = true) exchange_connected hup
    by_cases hsame : ((s.transfer.pollLink second).board.serialConnected
        != (s.transfer.pollLink second).link.connected) = true
    · rw [if_pos hsame]
      have hlink : (s.transfer.pollLink second).link.connected = false := by
        have hmachine : (s.transfer.pollLink second).board.serialConnected = true := hconnected
        simpa [hmachine] using hsame
      rw [hlink]
      have hset : (s.transfer.board.setSerialConnected false).Paced :=
        htransfer.host (.setSerialConnected false)
      exact ⟨hset, drained_of_disconnected hset (setSerialConnected_connected _ _)⟩
    · rw [if_neg hsame]
      exact ⟨htransfer, transfer_drained s⟩

/-! ## The main loop -/

/-- A turn of the main loop: what the user and the menus do to the machine, and the answers of the
polls on both sides of `run_cycles`. -/
structure Turn where
  events : List { op : Machine.Op // op.beside = true }
  before : PollAnswers × PollAnswers
  paused : Bool
  after : PollAnswers × PollAnswers

def hostEvents (z : Z80 σ) (m : Machine σ) (events : List { op : Machine.Op // op.beside = true }) :
    Machine σ := events.foldl (fun m op => m.step z op.val) m

/-- The bridge at `run_cycles`. -/
def beforeRun (z : Z80 σ) (s : SerialBridge σ) (turn : Turn) : SerialBridge σ :=
  { s with machine := hostEvents z s.machine turn.events
  }.synchronizeSerial turn.before.1 turn.before.2

def runGuest (z : Z80 σ) (s : SerialBridge σ) (paused : Bool) : SerialBridge σ :=
  if paused then s else { s with machine := s.machine.runCycles z cyclesPerFrame }

def turn (z : Z80 σ) (s : SerialBridge σ) (turn : Turn) : SerialBridge σ :=
  ((s.beforeRun z turn).runGuest z turn.paused).synchronizeSerial turn.after.1 turn.after.2

/-- What every turn keeps. -/
structure Steady (s : SerialBridge σ) : Prop where
  paced : s.board.Paced
  drained : s.board.Drained

theorem Steady.hostEvents {z : Z80 σ} {m : Machine σ} (h : m.board.Paced) (hd : m.board.Drained)
    (events : List { op : Machine.Op // op.beside = true }) :
    (SerialBridge.hostEvents z m events).board.Paced
      ∧ (SerialBridge.hostEvents z m events).board.Drained := by
  induction events generalizing m with
  | nil => exact ⟨h, hd⟩
  | cons op ops ih =>
    exact ih (Machine.Paced.beside h op.val op.property) (Machine.beside_drained hd op.val op.property)

theorem Steady.beforeRun {z : Z80 σ} (h : s.Steady) (turn : Turn) : (s.beforeRun z turn).Steady := by
  obtain ⟨hpaced, -⟩ := @Steady.hostEvents σ z s.machine h.paced h.drained turn.events
  obtain ⟨hpaced', hdrained'⟩ := @synchronizeSerial_paced σ
    { s with machine := SerialBridge.hostEvents z s.machine turn.events } hpaced
    turn.before.1 turn.before.2
  exact ⟨hpaced', hdrained'⟩

theorem Steady.turn {z : Z80 σ} (hz : z.Timed) (hlimit : z.AtMost 255) (h : s.Steady)
    (turn : Turn) : (s.turn z turn).Steady := by
  have hbefore := @Steady.beforeRun σ s z h turn
  have hrun : ((s.beforeRun z turn).runGuest z turn.paused).board.Paced := by
    unfold runGuest
    split
    · exact hbefore.paced
    · exact Machine.runCycles_paced hz hlimit hbefore.paced hbefore.drained
  obtain ⟨hpaced, hdrained⟩ := synchronizeSerial_paced hrun turn.after.1 turn.after.2
  exact ⟨hpaced, hdrained⟩

/-! ## From startup -/

/-- A machine that has transmitted nothing. -/
structure Quiet (b : Board) : Prop where
  frame : b.uart.LongFrame
  pending : b.uart.pendingFrames = 0
  accumulator : b.timerClockAccumulator < 12

theorem Quiet.host {b : Board} (h : Quiet b) (op : HostOp) : Quiet (b.host op) := by
  have heases := Board.host_eases b op
  refine ⟨heases.longFrame h.frame, ?_, Board.act_accumulator h.accumulator (.host op)⟩
  have hpending := heases.pendingFrames
  rw [h.pending] at hpending
  exact Nat.le_zero.mp hpending

/-- So is any machine that has just been reset. -/
theorem Quiet.reset (b : Board) : Quiet b.reset := by
  have haccumulator : b.reset.timerClockAccumulator = 0 :=
    congrArg Board.SerialSide.accumulator (Board.act_serialSide b .reset)
  refine ⟨?_, ?_, by omega⟩
  · rw [Board.reset_uart]
    exact fun hactive => Bool.noConfusion hactive
  · rw [Board.reset_uart]
    rfl

theorem Quiet.hostEvents {z : Z80 σ} {m : Machine σ} (h : Quiet m.board)
    (events : List { op : Machine.Op // op.beside = true }) :
    Quiet (SerialBridge.hostEvents z m events).board := by
  induction events generalizing m with
  | nil => exact h
  | cons op ops ih =>
    obtain ⟨op, hop⟩ := op
    cases op with
    | host op => exact ih (h.host op)
    | reset => exact ih (.reset m.board)
    | runCycles cycles => exact Bool.noConfusion hop

theorem Steady.startup {machine : Machine σ} (h : Quiet machine.board) {mode : TcpSerialMode}
    {endpoint : TcpEndpoint} {listener : ListenerAnswer} {answers : PollAnswers}
    (hstart : SerialBridge.startup machine mode endpoint listener answers = .ok s) : s.Steady := by
  unfold SerialBridge.startup at hstart
  cases hlink : TcpSerialLink.start {} mode endpoint listener answers with
  | error error =>
    rw [hlink] at hstart
    cases hstart
  | ok link =>
    rw [hlink] at hstart
    cases hstart
    have hquiet := h.host (.setSerialConnected link.connected)
    have hmanaged := congrArg Board.SerialSide.managed
      (Board.act_serialSide machine.board (.host (.setSerialConnected link.connected)))
    refine ⟨⟨hmanaged, Board.setSerialConnected_cts _ _, hquiet.frame, ?_, hquiet.accumulator⟩,
      fun _ => ?_⟩
    · exact Nat.le_trans (Nat.le_of_eq hquiet.pending) (Nat.zero_le _)
    · have hzero : (machine.board.setSerialConnected link.connected).uart.transmittedBytes.length
          + (machine.board.setSerialConnected link.connected).uart.shiftPayload.length = 0 :=
        hquiet.pending
      exact List.eq_nil_of_length_eq_zero (Nat.eq_zero_of_add_eq_zero_right hzero)

/-- In the main loop, whatever the guest and the peer do, the queue of completed bytes has room at
every point of `run_cycles`, and an edge keeps the byte it completes. -/
theorem queue_never_full (z : Z80 σ) (hz : z.Timed) (hlimit : z.AtMost 255) (bootRom : List Byte)
    (setup : List { op : Machine.Op // op.beside = true }) (mode : TcpSerialMode)
    (endpoint : TcpEndpoint) (listener : ListenerAnswer) (answers : PollAnswers)
    (s₀ : SerialBridge σ)
    (hstart : startup (hostEvents z (Machine.power z bootRom) setup) mode endpoint listener answers
      = .ok s₀)
    (turns : List Turn) (next : Turn) (k : Nat) :
    let s := (Run.run (turn z) s₀ turns).beforeRun z next
    let ops := s.board.opsAlong (s.machine.runCyclesActions z cyclesPerFrame)
    let u := Run.run Uart8251.apply s.board.uart (ops.take k)
    (s.machine.runCycles z cyclesPerFrame).board.uart = Run.run Uart8251.apply s.board.uart ops
      ∧ u.transmittedBytes.length < Uart8251.hostTransmitQueueCapacity
      ∧ u.transmitClockEdge.transmittedBytes = u.transmittedBytes ++ u.completedCharacter := by
  have hquiet : Quiet (hostEvents z (Machine.power z bootRom) setup).board :=
    Quiet.hostEvents (.reset _) setup
  have hsteady : (Run.run (turn z) s₀ turns).Steady :=
    @Run.run_invariant (SerialBridge σ) Turn (turn z) s₀ Steady
      (fun _ next h => Steady.turn hz hlimit h next) (Steady.startup hquiet hstart) turns
  have hbefore := @Steady.beforeRun σ _ z hsteady next
  intro s ops u
  have hrun := Machine.runCyclesActions_run z s.machine cyclesPerFrame
  have hcycles : (Run.run Board.act s.board (s.machine.runCyclesActions z cyclesPerFrame)).cycleCount
      ≤ s.board.cycleCount + 80254 := by
    have hmost := Machine.runCycles_atMost hz hlimit s.machine cyclesPerFrame
    rw [← hrun] at hmost
    exact hmost
  obtain ⟨-, hpending⟩ := Board.paced_along hbefore.paced hbefore.drained
    (Machine.runCyclesActions_guest z s.machine cyclesPerFrame) hcycles (ops.take_prefix k)
  have hroom : u.transmittedBytes.length < Uart8251.hostTransmitQueueCapacity := by
    have hbound : u.transmittedBytes.length + u.shiftPayload.length ≤ 4014 := hpending
    have hcapacity : Uart8251.hostTransmitQueueCapacity = 4096 := rfl
    omega
  refine ⟨?_, hroom, Uart8251.transmitClockEdge_room (by simp [hroom])⟩
  rw [← hrun]
  exact Board.opsAlong_run s.board _

/-- A guest that programs the 8251 and then writes a character in every instruction of 255 cycles, and a
peer that never reads. -/
theorem queue_never_full_writing :
    let z : Z80 Nat :=
      { power := 0
        instantReset := id
        run := fun n =>
          if n < 2 then .writeIo 11#8 0x41#16 (if n = 0 then 0x4E#8 else 0x01#8) (.done 255 (n + 1))
          else .writeIo 11#8 0x40#16 (BitVec.ofNat 8 n) (.done 255 (n + 1)) }
    let next : Turn :=
      { events := [], before := ({ accepting := .peer }, {}), paused := false, after := ({}, {}) }
    ∃ s₀, startup (hostEvents z (Machine.power z []) []) .listen { host := "localhost", port := 7000 }
        .listening {} = .ok s₀
      ∧ (s₀.beforeRun z next).link.connected = true
      ∧ (Run.run Uart8251.apply (s₀.beforeRun z next).board.uart
          (((s₀.beforeRun z next).board.opsAlong
            ((s₀.beforeRun z next).machine.runCyclesActions z cyclesPerFrame)).take 1000)
          ).transmittedBytes.length < Uart8251.hostTransmitQueueCapacity := by
  intro z next
  refine ⟨_, rfl, by decide +kernel, ?_⟩
  have htimed : z.Timed := by
    intro n
    show BusRun.Timed (if n < 2 then _ else _) 0
    split <;> exact ⟨by decide, by decide⟩
  have hmost : z.AtMost 255 := by
    intro n
    show BusRun.AtMost 255 (if n < 2 then _ else _)
    split <;> exact Nat.le_refl 255
  exact (queue_never_full z htimed hmost [] []
    .listen { host := "localhost", port := 7000 } .listening {} _ rfl [] next 1000).2.1

end SerialBridge
end FK1
