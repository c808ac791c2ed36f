import FK1.Machine
import FK1.Wiring
import FK1.UartOps

/-!
# FK1.SerialPort

The 8251 inside the board: which of its operations each action of a board run performs. Everything
else of the board leaves the chip alone.
-/

namespace FK1

namespace Uart8251

theorem clockTransmit_run (u : Uart8251) (edges : Nat) :
    u.clockTransmit edges = Run.run apply u (List.replicate edges .transmitClockEdge) := by
  induction edges generalizing u with
  | zero => rfl
  | succ edges ih => exact ih u.transmitClockEdge

theorem clockReceive_run (u : Uart8251) (edges : Nat) :
    u.clockReceive edges = Run.run apply u (List.replicate edges .receiveClockEdge) := by
  induction edges generalizing u with
  | zero => rfl
  | succ edges ih => exact ih u.receiveLineEdge

/-- Taking until nothing is left: the loop of `set_serial_connected`. -/
theorem takeAll_run (u : Uart8251) :
    Run.run apply u (List.replicate u.transmittedBytes.length .takeTransmittedByte)
      = { u with transmittedBytes := [] } := by
  generalize hbytes : u.transmittedBytes = bytes
  induction bytes generalizing u with
  | nil =>
    have hempty : u = { u with transmittedBytes := [] } := by rw [← hbytes]
    exact hempty
  | cons byte rest ih =>
    have htake : u.apply .takeTransmittedByte = { u with transmittedBytes := rest } := by
      simp [apply, takeTransmittedByte, hbytes]
    rw [List.length_cons, List.replicate_succ, Run.run_cons, htake, ih _ rfl]

end Uart8251

namespace Board

/-! ## The rising edges of OUT1 -/

/-- The board at the moment `advance_time` clocks the timer. -/
def beforeTimer (b : Board) (cpuCycles : Nat) : Board :=
  let masterTicks := cpuCycles * masterTicksPerCpuCycle
  let b := { b with
    cycleCount := b.cycleCount + cpuCycles
    masterTickCount := b.masterTickCount + masterTicks }
  ((b.advanceFloppy masterTicks).refreshFloppyInputs.advanceKeyboard masterTicks).advanceMouse
    masterTicks

/-- The rising edges of OUT1 in `advance_time`. -/
def serialEdges (b : Board) (cpuCycles : Nat) : Nat :=
  let timerClocks := (b.timerClockAccumulator + cpuCycles * masterTicksPerCpuCycle) / 12
  if timerClocks = 0 then 0
  else ((b.beforeTimer cpuCycles).timer.clock 1 timerClocks).2.risingEdges

/-- What an action does to the 8251. -/
def uartOps (b : Board) : Action → List Uart8251.Op
  | .host (.setSerialConnected connected) =>
    [.setCtsActive connected, .setDsrActive connected]
      ++ if connected then [] else
          .clearQueuedReceiveBytes :: List.replicate b.uart.transmittedBytes.length .takeTransmittedByte
  | .host (.setSerialClearToSend clear) => [.setCtsActive (b.serialConnected && clear)]
  | .host (.queueSerialReceivedByte value) =>
    if b.serialConnected then [.queueReceivedByte value] else []
  | .host .takeSerialTransmittedByte => [.takeTransmittedByte]
  | .host (.readIo port) => if ioGroup port = 4 then [.read (registerOf port)] else []
  | .host (.writeIo port value) => if ioGroup port = 4 then [.write (registerOf port) value] else []
  | .host _ => []
  | .advance cpuCycles =>
    List.replicate (b.serialEdges cpuCycles) .transmitClockEdge
      ++ List.replicate (b.serialEdges cpuCycles) .receiveClockEdge
  | .reset =>
    [.reset,
      .setCtsActive (!b.serialConnectionManaged || (b.serialConnected && b.serialClearToSend)),
      .setDsrActive (b.serialConnectionManaged && b.serialConnected)]

/-! ## The rest of the board -/

/-- The serial side of a board: the 8251, the host's settings and the timer accumulator. -/
structure SerialSide where
  uart : Uart8251
  managed : Bool
  connected : Bool
  clearToSend : Bool
  accumulator : Nat

def serialSide (b : Board) : SerialSide :=
  { uart := b.uart
    managed := b.serialConnectionManaged
    connected := b.serialConnected
    clearToSend := b.serialClearToSend
    accumulator := b.timerClockAccumulator }

variable {b b' : Board}

theorem DiskStep.serialSide (h : DiskStep b b') : b'.serialSide = b.serialSide := by
  obtain ⟨_, _, _, _, _, _, rfl, _⟩ := h
  rfl

@[simp] theorem refresh_serialSide (b : Board) :
    b.refreshInterruptSources.serialSide = b.serialSide := (refresh_diskStep b).serialSide

theorem deliverKeyboardCode_serialSide (b : Board) (code : Byte) :
    (b.deliverKeyboardCode code).serialSide = b.serialSide := refresh_serialSide _

theorem advanceKeyboard_serialSide (b : Board) (masterTicks : Nat) :
    (b.advanceKeyboard masterTicks).serialSide = b.serialSide :=
  advanceKeyboard_view DiskStep.serialSide (fun _ _ _ => rfl) b masterTicks

theorem advanceMouse_serialSide (b : Board) (masterTicks : Nat) :
    (b.advanceMouse masterTicks).serialSide = b.serialSide := by
  obtain ⟨mouse, latch, h⟩ := advanceMouse_frame b masterTicks
  rw [h]
  rfl

theorem updateMouseSignals_serialSide (b : Board) (signals : Byte) :
    (b.updateMouseSignals signals).serialSide = b.serialSide := by
  obtain ⟨mouse, latch, h⟩ := updateMouseSignals_frame b signals
  rw [h]
  rfl

theorem advanceFloppy_serialSide (b : Board) (masterTicks : Nat) :
    (b.advanceFloppy masterTicks).serialSide = b.serialSide :=
  (processFloppyBytes_diskStep (b.floppy.visitBytes masterTicks) b).serialSide

theorem beforeTimer_serialSide (b : Board) (cpuCycles : Nat) :
    (b.beforeTimer cpuCycles).serialSide = b.serialSide := by
  unfold beforeTimer
  dsimp only
  rw [advanceMouse_serialSide, advanceKeyboard_serialSide]
  exact advanceFloppy_serialSide _ _

theorem applyTimerEdges_serialSide (b : Board) (edges : Nat) :
    (b.applyTimerEdges edges).serialSide = b.serialSide :=
  applyTimerEdges_view DiskStep.serialSide (fun _ _ => rfl) b edges

theorem flush_serialSide (b : Board) : b.flushPendingDiskWrites.serialSide = b.serialSide :=
  flush_view DiskStep.serialSide (fun _ _ => rfl) (fun _ _ => rfl) b

theorem advanceFrame_serialSide (b : Board) (masterTicks : Nat) :
    (b.advanceFrame masterTicks).serialSide = b.serialSide := by
  unfold advanceFrame
  dsimp only
  split <;> rfl

/-- Time on the serial side: the accumulator, and the edges of OUT1 on TxC and then on RxC. -/
theorem advanceTime_serialSide (b : Board) (cpuCycles : Nat) :
    (b.advanceTime cpuCycles).serialSide = { b.serialSide with
      uart := (b.uart.clockTransmit (b.serialEdges cpuCycles)).clockReceive (b.serialEdges cpuCycles)
      accumulator := (b.timerClockAccumulator + cpuCycles * masterTicksPerCpuCycle) % 12 } := by
  have hbefore := beforeTimer_serialSide b cpuCycles
  have htime : b.advanceTime cpuCycles = ((((b.beforeTimer cpuCycles).advanceTimer
      (cpuCycles * masterTicksPerCpuCycle)).flushPendingDiskWrites).advanceFrame
        (cpuCycles * masterTicksPerCpuCycle)).refreshInterruptSources := rfl
  rw [htime, refresh_serialSide, advanceFrame_serialSide, flush_serialSide]
  unfold serialEdges
  generalize b.beforeTimer cpuCycles = v at hbefore
  have haccumulator : v.timerClockAccumulator = b.timerClockAccumulator :=
    congrArg SerialSide.accumulator hbefore
  have huart : v.uart = b.uart := congrArg SerialSide.uart hbefore
  unfold advanceTimer
  dsimp only
  rw [haccumulator]
  by_cases hnone : (b.timerClockAccumulator + cpuCycles * masterTicksPerCpuCycle) / 12 = 0
  · rw [if_pos hnone, if_pos hnone, ← hbefore, ← huart]
    rfl
  · rw [if_neg hnone, if_neg hnone, applyTimerEdges_serialSide, ← hbefore, ← huart]
    rfl

theorem readIo_serialSide (b : Board) (port : Word) :
    (b.readIo port).2.serialSide = { b.serialSide with
      uart := if ioGroup port = 4 then (b.uart.read (registerOf port)).2 else b.uart } := by
  unfold readIo
  dsimp only
  rw [refresh_serialSide]
  split <;> simp_all [serialSide, refreshFloppyInputs]

theorem writePrinterKeyboard_serialSide (b : Board) (registerIndex value : Byte) :
    (b.writePrinterKeyboard registerIndex value).serialSide = b.serialSide := by
  unfold writePrinterKeyboard
  dsimp only
  split <;> rfl

theorem writeTimer_serialSide (b : Board) (registerIndex value : Byte) :
    (b.writeTimer registerIndex value).serialSide = b.serialSide := by
  unfold writeTimer
  dsimp only
  split <;> rfl

theorem writeDiskAux_serialSide (b : Board) (value : Byte) :
    (b.writeDiskAux value).serialSide = b.serialSide := by
  rw [writeDiskAux_eq]
  rfl

theorem synchronizeControlOutputs_serialSide (b : Board) :
    b.synchronizeControlOutputs.serialSide = b.serialSide := by
  rw [synchronizeControlOutputs_eq]
  rfl

theorem writeIo_serialSide (b : Board) (port : Word) (value : Byte) :
    (b.writeIo port value).serialSide = { b.serialSide with
      uart := if ioGroup port = 4 then b.uart.write (registerOf port) value else b.uart } := by
  have hother : ∀ v : Board, v.serialSide = b.serialSide → ioGroup port ≠ 4 →
      v.refreshInterruptSources.serialSide = { b.serialSide with
        uart := if ioGroup port = 4 then b.uart.write (registerOf port) value else b.uart } := by
    intro v hv hport
    rw [refresh_serialSide, hv, if_neg hport]
    rfl
  unfold writeIo
  dsimp only
  split
  next hport =>
    exact hother _ (writePrinterKeyboard_serialSide b _ value) (by rw [hport]; decide)
  next hport => exact hother _ (writeTimer_serialSide b _ value) (by rw [hport]; decide)
  next hport => exact hother _ rfl (by rw [hport]; decide)
  next hport => exact hother _ rfl (by rw [hport]; decide)
  next hport =>
    rw [refresh_serialSide, if_pos hport]
    rfl
  next hport => exact hother _ (writeDiskAux_serialSide b value) (by rw [hport]; decide)
  next hport =>
    exact hother _ (synchronizeControlOutputs_serialSide _) (by rw [hport]; decide)
  next hport => exact hother _ rfl (by rw [hport]; decide)

/-- The chip after a disconnect. -/
theorem disconnect_uart (b : Board) :
    (b.setSerialConnected false).uart =
      { ((b.uart.setCtsActive false).setDsrActive false).clearQueuedReceiveBytes with
        transmittedBytes := [] } :=
  congrArg SerialSide.uart (refresh_serialSide _)

theorem connect_uart (b : Board) :
    (b.setSerialConnected true).uart = (b.uart.setCtsActive true).setDsrActive true :=
  congrArg SerialSide.uart (refresh_serialSide _)

/-! ## Every action -/

/-- The host's serial settings after an action. -/
def serialSettings (b : Board) : Action → Bool × Bool × Bool
  | .host (.setSerialConnected connected) => (true, connected, true)
  | .host (.setSerialClearToSend clear) => (b.serialConnectionManaged, b.serialConnected, clear)
  | _ => (b.serialConnectionManaged, b.serialConnected, b.serialClearToSend)

/-- The timer accumulator after an action. -/
def accumulatorAfter (b : Board) : Action → Nat
  | .advance cpuCycles => (b.timerClockAccumulator + cpuCycles * masterTicksPerCpuCycle) % 12
  | .reset => 0
  | _ => b.timerClockAccumulator

/-- An action reaches the 8251 through its operations, and the settings through the host alone. -/
theorem act_serialSide (b : Board) (a : Action) :
    (b.act a).serialSide =
      { uart := Run.run Uart8251.apply b.uart (b.uartOps a)
        managed := (b.serialSettings a).1
        connected := (b.serialSettings a).2.1
        clearToSend := (b.serialSettings a).2.2
        accumulator := b.accumulatorAfter a } := by
  cases a with
  | advance cpuCycles =>
    rw [uartOps, Run.run_append, ← Uart8251.clockTransmit_run, ← Uart8251.clockReceive_run]
    exact advanceTime_serialSide b cpuCycles
  | reset => exact refresh_serialSide _
  | host op =>
    have hsame : ∀ v : Board, v.serialSide = b.serialSide → b.uartOps (.host op) = [] →
        b.serialSettings (.host op)
          = (b.serialConnectionManaged, b.serialConnected, b.serialClearToSend) →
        v.serialSide =
          { uart := Run.run Uart8251.apply b.uart (b.uartOps (.host op))
            managed := (b.serialSettings (.host op)).1
            connected := (b.serialSettings (.host op)).2.1
            clearToSend := (b.serialSettings (.host op)).2.2
            accumulator := b.accumulatorAfter (.host op) } := by
      intro v hv hops hsettings
      rw [hv, hops, hsettings]
      rfl
    cases op with
    | keyboardKeyDown keyId code =>
      refine hsame _ ?_ rfl rfl
      simp only [act, Board.host, keyboardKeyDown]
      split
      · exact deliverKeyboardCode_serialSide _ _
      · rfl
    | keyboardKeyUp keyId => exact hsame _ rfl rfl rfl
    | setPrinterOnline online => exact hsame _ rfl rfl rfl
    | takePrinterByte =>
      refine hsame _ ?_ rfl rfl
      simp only [act, Board.host, takePrinterByte]
      split <;> rfl
    | setSerialConnected connected =>
      refine (refresh_serialSide _).trans ?_
      cases connected with
      | true => rfl
      | false =>
        have htake := Uart8251.takeAll_run
          ((b.uart.setCtsActive false).setDsrActive false).clearQueuedReceiveBytes
        have hops : b.uartOps (.host (.setSerialConnected false))
            = [.setCtsActive false, .setDsrActive false, .clearQueuedReceiveBytes]
              ++ List.replicate b.uart.transmittedBytes.length .takeTransmittedByte := rfl
        rw [hops, Run.run_append]
        exact congrArg (SerialSide.mk · true false true b.timerClockAccumulator) htake.symm
    | setSerialClearToSend clear => exact refresh_serialSide _
    | queueSerialReceivedByte value =>
      simp only [act, Board.host, queueSerialReceivedByte, uartOps]
      cases hconnected : b.serialConnected with
      | false => simp [serialSide, serialSettings, accumulatorAfter, hconnected]
      | true => simp [serialSide, serialSettings, accumulatorAfter, hconnected, Uart8251.apply]
    | takeSerialTransmittedByte => rfl
    | insertFloppy drive image access => exact hsame _ rfl rfl rfl
    | ejectFloppy drive => exact hsame _ rfl rfl rfl
    | setFloppyIndexPulseWidth masterTicks => exact hsame _ rfl rfl rfl
    | setMouseSignals signals =>
      exact hsame _ ((refresh_serialSide _).trans (updateMouseSignals_serialSide _ _)) rfl rfl
    | mouseMotion deltaX deltaY =>
      exact hsame _ ((refresh_serialSide _).trans (advanceMouse_serialSide _ _)) rfl rfl
    | setMouseButton button pressed =>
      exact hsame _ ((refresh_serialSide _).trans (updateMouseSignals_serialSide _ _)) rfl rfl
    | setRomImage image =>
      refine hsame _ ?_ rfl rfl
      simp only [act, Board.host, setRomImage]
      split <;> rfl
    | writeMemory address value =>
      refine hsame _ ?_ rfl rfl
      simp only [act, Board.host, writeMemory]
      repeat' split
      all_goals rfl
    | readIo port =>
      refine (readIo_serialSide b port).trans ?_
      by_cases hport : ioGroup port = 4
      · simp only [uartOps, if_pos hport]
        rfl
      · simp only [uartOps, if_neg hport]
        rfl
    | writeIo port value =>
      refine (writeIo_serialSide b port value).trans ?_
      by_cases hport : ioGroup port = 4
      · simp only [uartOps, if_pos hport]
        rfl
      · simp only [uartOps, if_neg hport]
        rfl
    | writeVideoRam address value => exact hsame _ rfl rfl rfl
    | setVerticalScroll value => exact hsame _ rfl rfl rfl

theorem act_uart (b : Board) (a : Action) :
    (b.act a).uart = Run.run Uart8251.apply b.uart (b.uartOps a) :=
  congrArg SerialSide.uart (act_serialSide b a)

end Board
end FK1
