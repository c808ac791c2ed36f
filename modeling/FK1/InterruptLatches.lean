import FK1.Picture
import FK1.MouseQuadrature

/-!
# FK1.InterruptLatches

The latched requests I4 (video) and I3 (mouse) over whole runs: each is there exactly when something
has requested it since it was last acknowledged (`latched_requests`).
-/

namespace FK1
namespace Board

variable {b : Board}

/-! ## I4 -/

/-- A frame ends while PA2 enables the video interrupt. -/
def videoRequested : Board × Action → Bool
  | (b, .advance cpuCycles) =>
    b.machineControl.lines.videoInterruptEnabled
      && decide (b.masterTickCount / masterTicksPerFrame <
        (b.masterTickCount + cpuCycles * masterTicksPerCpuCycle) / masterTicksPerFrame)
  | _ => false

/-- A write to group 70h, or a reset. -/
def videoAcknowledged : Action → Bool
  | .host (.writeIo port _) => ioGroup port == 7
  | .reset => true
  | _ => false

theorem act_videoLatch (h : Framed b.systemSide) (a : Action) :
    (b.act a).videoInterruptLatch =
      (videoRequested (b, a) || (!videoAcknowledged a && b.videoInterruptLatch)) := by
  have hview : (b.act a).videoInterruptLatch = (b.systemAfter a).videoInterruptLatch :=
    congrArg SystemSide.videoInterruptLatch (act_systemSide b a)
  rw [hview]
  cases a with
  | reset => rfl
  | advance cpuCycles =>
    have hcompleted := h.completed (cpuCycles * masterTicksPerCpuCycle)
    rw [show b.systemSide.masterTickCount = b.masterTickCount from rfl] at hcompleted
    have hlatch : (b.systemAfter (.advance cpuCycles)).videoInterruptLatch =
        (b.videoInterruptLatch
          || decide (b.systemSide.completedFrames (cpuCycles * masterTicksPerCpuCycle) ≠ 0)
            && b.machineControl.lines.videoInterruptEnabled) := rfl
    have hends : decide (b.systemSide.completedFrames (cpuCycles * masterTicksPerCpuCycle) ≠ 0) =
        decide (b.masterTickCount / masterTicksPerFrame <
          (b.masterTickCount + cpuCycles * masterTicksPerCpuCycle) / masterTicksPerFrame) := by
      rw [hcompleted, decide_eq_decide]
      omega
    rw [hlatch, hends, Bool.or_comm, Bool.and_comm]
    rfl
  | host op =>
    cases op with
    | writeIo port value =>
      show (b.videoInterruptLatch && decide (ioGroup port ≠ 7)) = _
      simp only [videoRequested, videoAcknowledged, Bool.false_or]
      by_cases hport : ioGroup port = 7 <;> simp [hport]
    | writeMemory address value =>
      simp only [systemAfter, writeMemory]
      repeat' split
      all_goals rfl
    | setRomImage image =>
      simp only [systemAfter, setRomImage]
      split <;> rfl
    | _ => rfl

/-! ## I3 -/

/-- The six lines of the mouse change while PA3 enables its interrupt. -/
def mouseRequested : Board × Action → Bool
  | (b, .host (.setMouseSignals signals)) =>
    b.mouseInterruptEnabled && (signals ^^^ b.mouse.signalsRaw) &&& 0x3F#8 != 0#8
  | (b, .host (.setMouseButton button down)) =>
    b.mouseInterruptEnabled
      && ((b.mouse.pressed button down).signalsRaw ^^^ b.mouse.signalsRaw) &&& 0x3F#8 != 0#8
  | (b, a) => b.mouseInterruptEnabled && !(b.mouse.moved a).isEmpty

/-- A read of group 70h, or a reset. -/
def mouseAcknowledged : Action → Bool
  | .host (.readIo port) => ioGroup port == 7
  | .reset => true
  | _ => false

theorem refresh_mouseLatch (b : Board) :
    b.refreshInterruptSources.mouseInterruptLatch = b.mouseInterruptLatch :=
  congrArg MouseSide.latch (refresh_mouseSide b)

theorem updateMouseSignals_mouseLatch (b : Board) (signals : Byte) :
    (b.updateMouseSignals signals).mouseInterruptLatch =
      ((b.mouseInterruptEnabled && (signals ^^^ b.mouse.signalsRaw) &&& 0x3F#8 != 0#8)
        || b.mouseInterruptLatch) := by
  unfold updateMouseSignals mouseInterruptEnabled
  dsimp only
  cases ((signals ^^^ b.mouse.signalsRaw) &&& 0x3F#8 != 0#8) <;>
    cases (b.machineControl.portAOutputEnabled && hasBits b.machineControl.outputA 0x08#8) <;> simp

theorem writeIo_mouseLatch (b : Board) (port : Word) (value : Byte) :
    (b.writeIo port value).mouseInterruptLatch = b.mouseInterruptLatch := by
  unfold writeIo
  dsimp only
  rw [refresh_mouseLatch]
  split
  · unfold writePrinterKeyboard
    dsimp only
    split <;> rfl
  · unfold writeTimer
    dsimp only
    split <;> rfl
  · rfl
  · rfl
  · rfl
  · rw [writeDiskAux_eq]
  · rw [synchronizeControlOutputs_eq]
  · rfl

theorem readIo_mouseLatch (b : Board) (port : Word) :
    (b.readIo port).2.mouseInterruptLatch =
      (!(ioGroup port == 7) && b.mouseInterruptLatch) := by
  unfold readIo
  dsimp only
  rw [refresh_mouseLatch]
  split
  all_goals
    next hport =>
      rw [hport]
      simp only [refreshFloppyInputs, beq_self_eq_true, Bool.not_true, Bool.false_and]
      try rfl

theorem act_mouseLatch (h : b.mouse.Sound) (a : Action) :
    (b.act a).mouseInterruptLatch =
      (mouseRequested (b, a) || (!mouseAcknowledged a && b.mouseInterruptLatch)) := by
  have hidle : ∀ v : Board, v.mouseInterruptLatch = b.mouseInterruptLatch →
      v.mouseInterruptLatch = (b.mouseInterruptEnabled && !([] : List MouseState).isEmpty
        || (!false && b.mouseInterruptLatch)) := by
    intro v hv
    rw [hv]
    simp
  cases a with
  | reset =>
    show b.reset.mouseInterruptLatch = _
    unfold reset renderVideo
    dsimp only
    rw [refresh_mouseLatch]
    simp [mouseRequested, MouseState.moved, mouseAcknowledged, log, resetPeripherals]
  | advance cpuCycles =>
    refine (advanceTime_latch h.lined cpuCycles).trans ?_
    simp only [mouseRequested, mouseAcknowledged, Bool.not_false, Bool.true_and, Bool.or_comm]
  | host op =>
    cases op with
    | setMouseSignals signals =>
      refine (refresh_mouseLatch _).trans ((updateMouseSignals_mouseLatch _ _).trans ?_)
      simp only [mouseRequested, mouseAcknowledged, Bool.not_false, Bool.true_and]
      rfl
    | setMouseButton button down =>
      refine (refresh_mouseLatch _).trans ((updateMouseSignals_mouseLatch _ _).trans ?_)
      simp only [mouseRequested, mouseAcknowledged, Bool.not_false, Bool.true_and]
      rfl
    | mouseMotion deltaX deltaY =>
      have hlatch := advanceMouse_latch (b := b.queueMotion deltaX deltaY) ⟨h.lined.x, h.lined.y⟩ 0
      refine (refresh_mouseLatch _).trans (hlatch.trans ?_)
      simp only [mouseRequested, mouseAcknowledged, Bool.not_false, Bool.true_and, Bool.or_comm]
      rfl
    | readIo port =>
      refine (readIo_mouseLatch b port).trans ?_
      simp [mouseRequested, mouseAcknowledged, MouseState.moved]
    | writeIo port value => exact hidle _ (writeIo_mouseLatch b port value)
    | keyboardKeyDown keyId code =>
      refine hidle _ ?_
      simp only [act, Board.host, keyboardKeyDown]
      split
      · exact refresh_mouseLatch _
      · rfl
    | takePrinterByte =>
      refine hidle _ ?_
      simp only [act, Board.host, takePrinterByte]
      split <;> rfl
    | setSerialConnected | setSerialClearToSend => exact hidle _ (refresh_mouseLatch _)
    | queueSerialReceivedByte value =>
      refine hidle _ ?_
      simp only [act, Board.host, queueSerialReceivedByte]
      split <;> rfl
    | writeMemory address value =>
      refine hidle _ ?_
      simp only [act, Board.host, writeMemory]
      repeat' split
      all_goals rfl
    | setRomImage image =>
      refine hidle _ ?_
      simp only [act, Board.host, setRomImage]
      split <;> rfl
    | _ => exact hidle _ rfl

/-! ## Runs -/

/-- At every moment of every run the 3214 has the video request exactly if a frame has ended while
PA2 was an active 1, with no write to group 70h and no reset since, and the mouse request exactly if
one of the six lines has changed while PA3 was an active 1, with no read of group 70h and no reset
since. -/
theorem latched_requests (bootRom : List Byte) (actions : List Action) :
    let b := Run.run act (power bootRom) actions
    let history := Run.record act (power bootRom) actions
    (b.interrupts.inputs 4 = true ↔ Run.Since (fun entry => videoRequested entry = true)
        (fun entry => videoAcknowledged entry.2 = true) history) ∧
      (b.interrupts.inputs 3 = true ↔ Run.Since (fun entry => mouseRequested entry = true)
        (fun entry => mouseAcknowledged entry.2 = true) history) := by
  intro b history
  have hreachable : b.Reachable := ⟨bootRom, actions, rfl⟩
  have hpower : (power bootRom).Reachable := ⟨bootRom, .refl⟩
  have hinputs := hreachable.coherent.inputs
  have hkeep : ∀ (v : Board) (a : Action), v.Reachable ∧ Framed v.systemSide →
      (v.act a).Reachable ∧ Framed (v.act a).systemSide := fun v a hv =>
    ⟨hv.1.imp fun _ h => h.next a, act_framed hv.2 a⟩
  have hclear : (power bootRom).videoInterruptLatch = false ∧
      (power bootRom).mouseInterruptLatch = false :=
    ⟨congrArg SystemSide.videoInterruptLatch (act_systemSide (setRomImage {} bootRom).2 .reset), by
      unfold power reset renderVideo
      dsimp only
      rw [refresh_mouseLatch]
      rfl⟩
  have hvideo := Run.clear_flag_of_record (I := fun v : Board => v.Reachable ∧ Framed v.systemSide)
    (P := fun entry => videoRequested entry = true)
    (Q := fun entry => videoAcknowledged entry.2 = true)
    (fun v : Board => v.videoInterruptLatch = true) hkeep
    (fun v a hv => by rw [act_videoLatch hv.2]; simp) ⟨hpower, power_framed bootRom⟩
    (Bool.eq_false_iff.mp hclear.1) actions
  have hmouse := Run.clear_flag_of_record (I := fun v : Board => v.Reachable ∧ Framed v.systemSide)
    (P := fun entry => mouseRequested entry = true)
    (Q := fun entry => mouseAcknowledged entry.2 = true)
    (fun v : Board => v.mouseInterruptLatch = true) hkeep
    (fun v a hv => by rw [act_mouseLatch hv.1.mouse]; simp) ⟨hpower, power_framed bootRom⟩
    (Bool.eq_false_iff.mp hclear.2) actions
  refine ⟨?_, ?_⟩
  · rw [hinputs]
    exact hvideo
  · rw [hinputs]
    exact hmouse

end Board
end FK1
