import FK1.MouseMotion
import FK1.Batching

/-!
# FK1.MouseQuadrature

The mouse of a running machine. `Action` leaves the mouse alone, or does to it what the mouse by itself
does (`act_mouse`); so a queued motion appears on the lines count by count, at the pace of the edge
budget, however the time is cut.
-/

namespace FK1

open Quadrature Observe

/-! ## What an action asks of the mouse -/

namespace Action

def setsMouseSignals : Action → Bool
  | .host (.setMouseSignals _) => true
  | _ => false

def deltaX : Action → Int
  | .host (.mouseMotion deltaX _) => deltaX
  | _ => 0

def deltaY : Action → Int
  | .host (.mouseMotion _ deltaY) => deltaY
  | _ => 0

def masterTicks : Action → Nat
  | .advance cpuCycles => cpuCycles * masterTicksPerCpuCycle
  | _ => 0

end Action

namespace MouseState

def queued (m : MouseState) (deltaX deltaY : Int) : MouseState :=
  { m with
    pendingX := queueMouseDelta m.pendingX deltaX
    pendingY := queueMouseDelta m.pendingY deltaY }

def pressed (m : MouseState) (button : MouseButton) (down : Bool) : MouseState :=
  let mask : Byte := match button with
    | .button1 => 0x10#8
    | .button2 => 0x20#8
  { m with signalsRaw := if down then m.signalsRaw &&& ~~~mask else m.signalsRaw ||| mask }

def placed (m : MouseState) (signals : Byte) : MouseState :=
  { m with
    signalsRaw := signals
    xPhase := quadraturePhase signals 0
    yPhase := quadraturePhase signals 2
    pendingX := 0
    pendingY := 0
    edgeTickAccumulator := mouseEdgeIntervalTicks }

/-- The mouse under an action. -/
def act (m : MouseState) : Action → MouseState
  | .host (.mouseMotion deltaX deltaY) => (m.queued deltaX deltaY).advance 0
  | .host (.setMouseButton button down) => m.pressed button down
  | .host (.setMouseSignals signals) => m.placed signals
  | .advance cpuCycles => m.advance (cpuCycles * masterTicksPerCpuCycle)
  | _ => m

/-- The states after each motion edge of an action. -/
def moved (m : MouseState) : Action → List MouseState
  | .host (.mouseMotion deltaX deltaY) => ((m.queued deltaX deltaY).credited 0).moves
  | .advance cpuCycles => (m.credited (cpuCycles * masterTicksPerCpuCycle)).moves
  | _ => []

/-- What holds of the mouse between two actions. -/
structure Sound (m : MouseState) : Prop where
  lined : m.Lined
  limited : m.Limited
  paced : m.Paced

variable {m : MouseState}

theorem queued_limited (m : MouseState) (deltaX deltaY : Int) : (m.queued deltaX deltaY).Limited := by
  constructor
  · simp only [queued, queueMouseDelta]
    omega
  · simp only [queued, queueMouseDelta]
    omega

/-- The buttons leave the lines of motion alone. -/
theorem pressed_lines (m : MouseState) (button : MouseButton) (down : Bool) :
    xLines (m.pressed button down).signalsRaw = xLines m.signalsRaw ∧
      yLines (m.pressed button down).signalsRaw = yLines m.signalsRaw := by
  have hmasks : ∀ raw : Byte, ∀ mask, mask = 0x10#8 ∨ mask = 0x20#8 →
      (xLines (raw &&& ~~~mask) = xLines raw ∧ yLines (raw &&& ~~~mask) = yLines raw) ∧
        xLines (raw ||| mask) = xLines raw ∧ yLines (raw ||| mask) = yLines raw := by
    intro raw mask hmask
    have hoff : xLines mask = 0#2 ∧ yLines mask = 0#2 ∧ xLines (~~~mask) = BitVec.allOnes 2 ∧
        yLines (~~~mask) = BitVec.allOnes 2 := by
      rcases hmask with rfl | rfl <;> decide
    obtain ⟨hx, hy, hx', hy'⟩ := hoff
    rw [xLines_and, yLines_and, xLines_or, yLines_or, hx, hy, hx', hy', BitVec.and_allOnes,
      BitVec.and_allOnes, BitVec.or_zero, BitVec.or_zero]
    exact ⟨⟨rfl, rfl⟩, rfl, rfl⟩
  cases button with
  | button1 =>
    obtain ⟨hdown, hup⟩ := hmasks m.signalsRaw 0x10#8 (.inl rfl)
    cases down with
    | true => exact hdown
    | false => exact hup
  | button2 =>
    obtain ⟨hdown, hup⟩ := hmasks m.signalsRaw 0x20#8 (.inr rfl)
    cases down with
    | true => exact hdown
    | false => exact hup

theorem quadraturePhase_lines (signals : Byte) :
    xLines signals = phaseLines (quadraturePhase signals 0) ∧
      yLines signals = phaseLines (quadraturePhase signals 2) := by
  revert signals; decide +kernel

theorem act_sound (h : m.Sound) (a : Action) : (m.act a).Sound := by
  obtain ⟨hlined, hlimited, hpaced⟩ := h
  unfold act
  split
  · rename_i deltaX deltaY
    exact ⟨advance_lined (m := m.queued deltaX deltaY) ⟨hlined.x, hlined.y⟩ 0,
      advance_limited (queued_limited m deltaX deltaY) 0, advance_paced _ 0⟩
  · rename_i button down
    obtain ⟨hx, hy⟩ := pressed_lines m button down
    exact ⟨⟨hx.trans hlined.x, hy.trans hlined.y⟩, ⟨hlimited.x, hlimited.y⟩,
      ⟨hpaced.budget, hpaced.idle⟩⟩
  · rename_i signals
    obtain ⟨hx, hy⟩ := quadraturePhase_lines signals
    exact ⟨⟨hx, hy⟩, ⟨Nat.zero_le _, Nat.zero_le _⟩, ⟨Nat.le_refl _, idle_of_work rfl⟩⟩
  · exact ⟨advance_lined hlined _, advance_limited hlimited _, advance_paced _ _⟩
  · exact ⟨hlined, hlimited, hpaced⟩

end MouseState

/-! ## The mouse on the board -/

/-- What the functions of the mouse work on: the mouse, I3's latch, and PA3 as an active output. -/
structure MouseSide where
  mouse : MouseState
  latch : Bool
  enabled : Bool

namespace Board

/-- PA3 of the control 8255 is an active output and 1. -/
def mouseInterruptEnabled (b : Board) : Bool :=
  b.machineControl.portAOutputEnabled && hasBits b.machineControl.outputA 0x08#8

def mouseSide (b : Board) : MouseSide where
  mouse := b.mouse
  latch := b.mouseInterruptLatch
  enabled := b.mouseInterruptEnabled

variable {b b' : Board}

theorem DiskStep.mouseSide (h : DiskStep b b') : b'.mouseSide = b.mouseSide := by
  obtain ⟨_, _, _, _, _, new, rfl, hnew⟩ := h
  rfl

theorem refresh_mouseSide (b : Board) : b.refreshInterruptSources.mouseSide = b.mouseSide :=
  (refresh_diskStep b).mouseSide

theorem advanceFloppy_mouseSide (b : Board) (masterTicks : Nat) :
    (b.advanceFloppy masterTicks).mouseSide = b.mouseSide :=
  (processFloppyBytes_diskStep (b.floppy.visitBytes masterTicks) b).mouseSide

theorem advanceKeyboard_mouseSide (b : Board) (masterTicks : Nat) :
    (b.advanceKeyboard masterTicks).mouseSide = b.mouseSide :=
  advanceKeyboard_view DiskStep.mouseSide (fun _ _ _ => rfl) b masterTicks

theorem advanceTimer_mouseSide (b : Board) (masterTicks : Nat) :
    (b.advanceTimer masterTicks).mouseSide = b.mouseSide := by
  unfold advanceTimer
  dsimp only
  split
  · rfl
  · exact applyTimerEdges_view DiskStep.mouseSide (fun _ _ => rfl) _ _

theorem flush_mouseSide (b : Board) : b.flushPendingDiskWrites.mouseSide = b.mouseSide :=
  flush_view DiskStep.mouseSide (fun _ _ => rfl) (fun _ _ => rfl) b

theorem advanceFrame_mouseSide (b : Board) (masterTicks : Nat) :
    (b.advanceFrame masterTicks).mouseSide = b.mouseSide := by
  unfold advanceFrame
  dsimp only
  split <;> rfl

/-! ## Motion edges -/

/-- The boards before and after each round of `mouseLoop`. -/
def mouseRounds : Nat → Board → List (Board × Board)
  | 0, _ => []
  | fuel + 1, b => if b.mouse.Due then (b, b.mouseEdge) :: mouseRounds fuel b.mouseEdge else []

/-- `advance_mouse` up to its loop. -/
def creditMouse (b : Board) (masterTicks : Nat) : Board :=
  { b with mouse := b.mouse.credited masterTicks }

/-- The rounds in a call of `advance_mouse`. -/
def advanceMouseRounds (b : Board) (masterTicks : Nat) : List (Board × Board) :=
  let b := b.creditMouse masterTicks
  mouseRounds (b.mouse.edgeTickAccumulator / mouseEdgeIntervalTicks) b

/-- `mouse_motion` up to its call of `advance_mouse`. -/
def queueMotion (b : Board) (deltaX deltaY : Int) : Board :=
  { b with mouse := b.mouse.queued deltaX deltaY }

/-- `advance_time` up to its call of `advance_mouse`. -/
def beforeMouse (b : Board) (cpuCycles : Nat) : Board :=
  let masterTicks := cpuCycles * masterTicksPerCpuCycle
  let b := { b with
    cycleCount := b.cycleCount + cpuCycles
    masterTickCount := b.masterTickCount + masterTicks }
  (b.advanceFloppy masterTicks).refreshFloppyInputs.advanceKeyboard masterTicks

/-- The motion edges of an action, each with the boards before and after it. -/
def motionEdges (b : Board) : Action → List (Board × Board)
  | .host (.mouseMotion deltaX deltaY) => (b.queueMotion deltaX deltaY).advanceMouseRounds 0
  | .advance cpuCycles =>
    (b.beforeMouse cpuCycles).advanceMouseRounds (cpuCycles * masterTicksPerCpuCycle)
  | _ => []

/-- The values an action gives the raw mouse byte, one after the other. -/
def mouseBytes (b : Board) (a : Action) : List Byte :=
  match a with
  | .host (.setMouseButton _ _) | .host (.setMouseSignals _) => [(b.act a).mouse.signalsRaw]
  | a => (b.motionEdges a).map fun e => e.2.mouse.signalsRaw

theorem mouseEdge_mouse (b : Board) : b.mouseEdge.mouse = b.mouse.edge := by
  unfold MouseState.edge mouseEdge
  dsimp only
  split <;> simp

theorem mouseEdge_enabled (b : Board) : b.mouseEdge.mouseInterruptEnabled = b.mouseInterruptEnabled := by
  obtain ⟨_, _, he⟩ := mouseEdge_frame b
  rw [he]
  rfl

theorem updateMouseSignals_latch (b : Board) {signals : Byte} (h : OneLine b.mouse.signalsRaw signals) :
    (b.updateMouseSignals signals).mouseInterruptLatch =
      (b.mouseInterruptLatch || b.mouseInterruptEnabled) := by
  have hchanged : ((signals ^^^ b.mouse.signalsRaw) &&& 0x3F#8 != 0#8) = true := bne_iff_ne.mpr h.detected
  unfold updateMouseSignals mouseInterruptEnabled
  dsimp only
  rw [hchanged, Bool.true_and]
  split
  · rename_i henabled
    rw [henabled, Bool.or_true]
  · rename_i henabled
    rw [Bool.not_eq_true] at henabled
    rw [henabled, Bool.or_false]

/-- An edge latches I3 if PA3 allows it. -/
theorem mouseEdge_latch (h : b.mouse.Lined) :
    b.mouseEdge.mouseInterruptLatch = (b.mouseInterruptLatch || b.mouseInterruptEnabled) := by
  have hline := MouseState.edge_oneLine h
  rw [← mouseEdge_mouse] at hline
  unfold mouseEdge at hline ⊢
  dsimp only at hline ⊢
  split
  · rename_i haxis
    rw [if_pos haxis, updateMouseSignals_mouse] at hline
    exact updateMouseSignals_latch _ hline
  · rename_i haxis
    rw [if_neg haxis, updateMouseSignals_mouse] at hline
    exact updateMouseSignals_latch _ hline

theorem mouseLoop_succ (fuel : Nat) (b : Board) :
    mouseLoop (fuel + 1) b = if b.mouse.Due then mouseLoop fuel b.mouseEdge else b := rfl

theorem mouseLoop_mouse (fuel : Nat) (b : Board) :
    (mouseLoop fuel b).mouse = ((MouseState.movesFrom fuel b.mouse).getLast?).getD b.mouse := by
  induction fuel generalizing b with
  | zero => rfl
  | succ fuel ih =>
    rw [mouseLoop_succ, MouseState.movesFrom]
    by_cases h : b.mouse.Due
    · rw [if_pos h, if_pos h, ih, mouseEdge_mouse, List.getLast?_cons, Option.getD_some]
    · rw [if_neg h, if_neg h]
      rfl

theorem mouseRounds_mouse (fuel : Nat) (b : Board) :
    (mouseRounds fuel b).map (fun e => e.2.mouse) = MouseState.movesFrom fuel b.mouse := by
  induction fuel generalizing b with
  | zero => rfl
  | succ fuel ih =>
    rw [mouseRounds, MouseState.movesFrom]
    by_cases h : b.mouse.Due
    · rw [if_pos h, if_pos h, List.map_cons, ih, mouseEdge_mouse]
    · rw [if_neg h, if_neg h]
      rfl

/-- Every round changes one line and latches I3 if PA3 allows it. -/
theorem mouseRounds_edge (fuel : Nat) (h : b.mouse.Lined) :
    ∀ e ∈ mouseRounds fuel b, OneLine e.1.mouse.signalsRaw e.2.mouse.signalsRaw ∧
      (e.1.mouseInterruptEnabled = true → e.2.mouseInterruptLatch = true) := by
  induction fuel generalizing b with
  | zero => exact fun e he => absurd he List.not_mem_nil
  | succ fuel ih =>
    have hedge : b.mouseEdge.mouse.Lined := mouseEdge_mouse b ▸ MouseState.edge_lined h
    intro e he
    rw [mouseRounds] at he
    split at he
    · rcases List.mem_cons.mp he with rfl | he
      · refine ⟨?_, fun henabled => ?_⟩
        · rw [mouseEdge_mouse]
          exact MouseState.edge_oneLine h
        · rw [mouseEdge_latch h, henabled, Bool.or_true]
      · exact ih hedge e he
    · exact absurd he List.not_mem_nil

/-- The latch after the loop. -/
theorem mouseLoop_latch (fuel : Nat) (h : b.mouse.Lined) :
    (mouseLoop fuel b).mouseInterruptLatch =
      (b.mouseInterruptLatch || (b.mouseInterruptEnabled && !(mouseRounds fuel b).isEmpty)) := by
  induction fuel generalizing b with
  | zero => simp [mouseLoop, mouseRounds]
  | succ fuel ih =>
    rw [mouseLoop_succ, mouseRounds]
    split
    · have hedge : b.mouseEdge.mouse.Lined := mouseEdge_mouse b ▸ MouseState.edge_lined h
      rw [ih hedge, mouseEdge_latch h, mouseEdge_enabled]
      cases b.mouseInterruptEnabled <;> simp
    · simp

theorem advanceMouse_eq (b : Board) (masterTicks : Nat) :
    let c := b.creditMouse masterTicks
    let r := mouseLoop (c.mouse.edgeTickAccumulator / mouseEdgeIntervalTicks) c
    b.advanceMouse masterTicks = { r with mouse := r.mouse.settled } := by
  intro c r
  show (if r.mouse.pendingX = 0 ∧ r.mouse.pendingY = 0 then _ else r) = _
  unfold MouseState.settled
  split <;> rfl

theorem advanceMouse_mouse (b : Board) (masterTicks : Nat) :
    (b.advanceMouse masterTicks).mouse = b.mouse.advance masterTicks := by
  rw [advanceMouse_eq]
  exact congrArg MouseState.settled (mouseLoop_mouse _ _)

theorem advanceMouseRounds_mouse (b : Board) (masterTicks : Nat) :
    (b.advanceMouseRounds masterTicks).map (fun e => e.2.mouse) = (b.mouse.credited masterTicks).moves :=
  mouseRounds_mouse _ _

theorem advanceMouse_latch (h : b.mouse.Lined) (masterTicks : Nat) :
    (b.advanceMouse masterTicks).mouseInterruptLatch = (b.mouseInterruptLatch ||
      (b.mouseInterruptEnabled && !(b.mouse.credited masterTicks).moves.isEmpty)) := by
  rw [advanceMouse_eq, ← advanceMouseRounds_mouse, List.isEmpty_map]
  exact mouseLoop_latch (b := b.creditMouse masterTicks) _ ⟨h.x, h.y⟩

/-! ## Actions -/

theorem beforeMouse_mouseSide (b : Board) (cpuCycles : Nat) :
    (b.beforeMouse cpuCycles).mouseSide = b.mouseSide := by
  unfold beforeMouse
  dsimp only
  rw [advanceKeyboard_mouseSide]
  exact advanceFloppy_mouseSide _ _

theorem advanceTime_mouseSide (b : Board) (cpuCycles : Nat) :
    (b.advanceTime cpuCycles).mouseSide =
      ((b.beforeMouse cpuCycles).advanceMouse (cpuCycles * masterTicksPerCpuCycle)).mouseSide := by
  unfold advanceTime beforeMouse
  dsimp only
  rw [refresh_mouseSide, advanceFrame_mouseSide, flush_mouseSide, advanceTimer_mouseSide]

theorem refresh_mouse (b : Board) : b.refreshInterruptSources.mouse = b.mouse :=
  congrArg MouseSide.mouse (refresh_mouseSide b)

theorem host_mouse (b : Board) (op : HostOp) : (b.host op).mouse = b.mouse.act (.host op) := by
  cases op with
  | setMouseSignals signals => exact (refresh_mouse _).trans (updateMouseSignals_mouse _ _)
  | mouseMotion deltaX deltaY =>
    exact (refresh_mouse _).trans (advanceMouse_mouse (b.queueMotion deltaX deltaY) 0)
  | setMouseButton button down => exact (refresh_mouse _).trans (updateMouseSignals_mouse _ _)
  | _ => exact (host_idle b _ rfl).2

theorem reset_mouse (b : Board) : b.reset.mouse = b.mouse :=
  congrArg MouseSide.mouse (refresh_mouseSide _)

/-- The machine's mouse is the mouse by itself. -/
theorem act_mouse (b : Board) (a : Action) : (b.act a).mouse = b.mouse.act a := by
  cases a with
  | host op => exact host_mouse b op
  | advance cpuCycles =>
    have hbefore := congrArg MouseSide.mouse (beforeMouse_mouseSide b cpuCycles)
    refine (congrArg MouseSide.mouse (advanceTime_mouseSide b cpuCycles)).trans ?_
    refine (advanceMouse_mouse _ _).trans ?_
    exact congrArg (fun m => m.advance (cpuCycles * masterTicksPerCpuCycle)) hbefore
  | reset => exact reset_mouse b

theorem act_mouse_sound (h : b.mouse.Sound) (a : Action) : (b.act a).mouse.Sound :=
  act_mouse b a ▸ MouseState.act_sound h a

theorem Reachable.mouse (h : b.Reachable) : b.mouse.Sound := by
  obtain ⟨bootRom, h⟩ := h
  refine h.invariant (I := fun b => b.mouse.Sound) ?_ fun _ a hb => act_mouse_sound hb a
  have hpower : (power bootRom).mouse = {} := by
    unfold power setRomImage
    rw [reset_mouse]
    split <;> rfl
  rw [hpower]
  exact ⟨⟨rfl, rfl⟩, ⟨Nat.zero_le _, Nat.zero_le _⟩, ⟨Nat.le_refl _, MouseState.idle_of_work rfl⟩⟩

/-! ## Lines, edges and time -/

theorem motionEdges_mouse (b : Board) (a : Action) :
    (b.motionEdges a).map (fun e => e.2.mouse) = b.mouse.moved a := by
  cases a with
  | host op =>
    cases op with
    | mouseMotion deltaX deltaY => exact advanceMouseRounds_mouse (b.queueMotion deltaX deltaY) 0
    | _ => rfl
  | advance cpuCycles =>
    have hbefore := congrArg MouseSide.mouse (beforeMouse_mouseSide b cpuCycles)
    refine (advanceMouseRounds_mouse _ _).trans ?_
    exact congrArg (fun m => (m.credited (cpuCycles * masterTicksPerCpuCycle)).moves) hbefore
  | reset => rfl

/-- Bytes of motion edges. -/
theorem motionEdges_bytes (b : Board) (a : Action) :
    (b.motionEdges a).map (fun e => e.2.mouse.signalsRaw) =
      (b.mouse.moved a).map fun m => m.signalsRaw := by
  rw [← motionEdges_mouse, List.map_map]
  rfl

/-- The queue takes the motion of an action in full. -/
def Unclamped (b : Board) : Action → Prop
  | .host (.mouseMotion deltaX deltaY) =>
    (b.mouse.pendingX + deltaX).natAbs ≤ 1000000 ∧ (b.mouse.pendingY + deltaY).natAbs ≤ 1000000
  | _ => True

theorem queueMouseDelta_unclamped {pending delta : Int} (h : (pending + delta).natAbs ≤ 1000000) :
    queueMouseDelta pending delta = pending + delta := by
  unfold queueMouseDelta
  omega

/-- Without `set_mouse_signals` the decoders count what an action takes from the queues. -/
theorem mouseBytes_shown (h : b.mouse.Lined) {a : Action} (ha : a.setsMouseSignals = false)
    (hclamp : b.Unclamped a) :
    Shown rightCode (xLines b.mouse.signalsRaw) ((b.mouseBytes a).map xLines)
        (xLines (b.act a).mouse.signalsRaw) b.mouse.pendingX a.deltaX (b.act a).mouse.pendingX ∧
      Shown downCode (yLines b.mouse.signalsRaw) ((b.mouseBytes a).map yLines)
        (yLines (b.act a).mouse.signalsRaw) b.mouse.pendingY a.deltaY (b.act a).mouse.pendingY := by
  rw [act_mouse]
  cases a with
  | host op =>
    cases op with
    | mouseMotion deltaX deltaY =>
      obtain ⟨hx, hy⟩ := hclamp
      obtain ⟨hright, hdown⟩ :=
        MouseState.advance_turned (m := b.mouse.queued deltaX deltaY) ⟨h.x, h.y⟩ 0
      have hbytes : b.mouseBytes (.host (.mouseMotion deltaX deltaY)) = _ := motionEdges_bytes b _
      rw [hbytes, List.map_map, List.map_map]
      refine ⟨⟨_, hright, ?_⟩, _, hdown, ?_⟩
      · exact (Int.sub_add_cancel ..).trans (queueMouseDelta_unclamped hx)
      · exact (Int.sub_add_cancel ..).trans (queueMouseDelta_unclamped hy)
    | setMouseButton button down =>
      obtain ⟨hx, hy⟩ := MouseState.pressed_lines b.mouse button down
      have hbytes : b.mouseBytes (.host (.setMouseButton button down)) =
          [(b.mouse.pressed button down).signalsRaw] :=
        congrArg (fun m : MouseState => [m.signalsRaw]) (act_mouse b _)
      rw [hbytes, List.map_singleton, List.map_singleton]
      have hsame : ∀ n : Int, 0 + n = n + 0 := fun n => Int.add_comm 0 n
      refine ⟨⟨0, .single ?_, hsame _⟩, 0, .single ?_, hsame _⟩
      · rw [hx]
        exact turn_same _ _
      · rw [hy]
        exact turn_same _ _
    | setMouseSignals signals => cases ha
    | _ => exact ⟨.nil _ _ _, .nil _ _ _⟩
  | advance cpuCycles =>
    obtain ⟨hright, hdown⟩ := MouseState.advance_turned h (cpuCycles * masterTicksPerCpuCycle)
    have hbytes : b.mouseBytes (.advance cpuCycles) = _ := motionEdges_bytes b _
    rw [hbytes, List.map_map, List.map_map]
    refine ⟨⟨_, hright, ?_⟩, _, hdown, ?_⟩
    · exact (Int.sub_add_cancel ..).trans (Int.add_zero _).symm
    · exact (Int.sub_add_cancel ..).trans (Int.add_zero _).symm
  | reset => exact ⟨.nil _ _ _, .nil _ _ _⟩

/-- The raw byte ends as its last value. -/
theorem mouseBytes_last (b : Board) (a : Action) :
    (b.act a).mouse.signalsRaw = ((b.mouseBytes a).getLast?).getD b.mouse.signalsRaw := by
  cases a with
  | host op =>
    cases op with
    | mouseMotion deltaX deltaY =>
      have hbytes : b.mouseBytes (.host (.mouseMotion deltaX deltaY)) = _ := motionEdges_bytes b _
      rw [act_mouse, hbytes]
      exact MouseState.advance_signals (b.mouse.queued deltaX deltaY) 0
    | setMouseButton button down => rfl
    | setMouseSignals signals => rfl
    | _ => exact congrArg MouseState.signalsRaw (act_mouse b _)
  | advance cpuCycles =>
    have hbytes : b.mouseBytes (.advance cpuCycles) = _ := motionEdges_bytes b _
    rw [act_mouse, hbytes]
    exact MouseState.advance_signals b.mouse _
  | reset => exact congrArg MouseState.signalsRaw (act_mouse b _)

theorem advanceMouseRounds_edge (h : b.mouse.Lined) (masterTicks : Nat) :
    ∀ e ∈ b.advanceMouseRounds masterTicks, OneLine e.1.mouse.signalsRaw e.2.mouse.signalsRaw ∧
      (e.1.mouseInterruptEnabled = true → e.2.mouseInterruptLatch = true) :=
  mouseRounds_edge (b := b.creditMouse masterTicks) _ ⟨h.x, h.y⟩

theorem motionEdges_edge (h : b.mouse.Lined) (a : Action) :
    ∀ e ∈ b.motionEdges a, OneLine e.1.mouse.signalsRaw e.2.mouse.signalsRaw ∧
      (e.1.mouseInterruptEnabled = true → e.2.mouseInterruptLatch = true) := by
  cases a with
  | host op =>
    cases op with
    | mouseMotion deltaX deltaY =>
      exact advanceMouseRounds_edge (b := b.queueMotion deltaX deltaY) ⟨h.x, h.y⟩ 0
    | _ => exact fun e he => absurd he List.not_mem_nil
  | advance cpuCycles =>
    have hbefore : (b.beforeMouse cpuCycles).mouse = b.mouse :=
      congrArg MouseSide.mouse (beforeMouse_mouseSide b cpuCycles)
    exact advanceMouseRounds_edge (hbefore ▸ h) _
  | reset => exact fun e he => absurd he List.not_mem_nil

theorem advanceTime_latch (h : b.mouse.Lined) (cpuCycles : Nat) :
    (b.advanceTime cpuCycles).mouseInterruptLatch = (b.mouseInterruptLatch ||
      (b.mouseInterruptEnabled && !(b.mouse.moved (.advance cpuCycles)).isEmpty)) := by
  have hbefore := beforeMouse_mouseSide b cpuCycles
  simp only [mouseSide, MouseSide.mk.injEq] at hbefore
  obtain ⟨hmouse, hlatch, henabled⟩ := hbefore
  refine (congrArg MouseSide.latch (advanceTime_mouseSide b cpuCycles)).trans ?_
  refine (advanceMouse_latch (hmouse ▸ h) _).trans ?_
  rw [hmouse, hlatch, henabled]
  rfl

theorem advanceTime_enabled (b : Board) (cpuCycles : Nat) :
    (b.advanceTime cpuCycles).mouseInterruptEnabled = b.mouseInterruptEnabled := by
  refine (congrArg MouseSide.enabled (advanceTime_mouseSide b cpuCycles)).trans ?_
  obtain ⟨_, _, he⟩ := advanceMouse_frame (b.beforeMouse cpuCycles) (cpuCycles * masterTicksPerCpuCycle)
  rw [he]
  exact congrArg MouseSide.enabled (beforeMouse_mouseSide b cpuCycles)

/-- After an action with a motion edge I3 is latched if PA3 allows it. -/
theorem act_latch (h : b.mouse.Lined) {a : Action} (hedges : b.motionEdges a ≠ [])
    (henabled : b.mouseInterruptEnabled = true) : (b.act a).mouseInterruptLatch = true := by
  have hmoved : (b.mouse.moved a).isEmpty = false := by
    rw [← motionEdges_mouse, List.isEmpty_map]
    exact List.isEmpty_eq_false_iff.mpr hedges
  cases a with
  | host op =>
    cases op with
    | mouseMotion deltaX deltaY =>
      have hlatch := advanceMouse_latch (b := b.queueMotion deltaX deltaY) ⟨h.x, h.y⟩ 0
      have hempty : ((b.queueMotion deltaX deltaY).mouse.credited 0).moves.isEmpty = false := hmoved
      refine (congrArg MouseSide.latch (refresh_mouseSide _)).trans (hlatch.trans ?_)
      rw [hempty, show (b.queueMotion deltaX deltaY).mouseInterruptEnabled = true from henabled]
      simp
    | _ => exact absurd rfl hedges
  | advance cpuCycles =>
    refine (advanceTime_latch h cpuCycles).trans ?_
    rw [hmoved, henabled]
    simp
  | reset => exact absurd rfl hedges

/-! ## Time in parts -/

theorem advanceTime_mouse (b : Board) (cpuCycles : Nat) :
    (b.advanceTime cpuCycles).mouse = b.mouse.advance (cpuCycles * masterTicksPerCpuCycle) :=
  act_mouse b (.advance cpuCycles)

theorem moved_length (m : MouseState) (cpuCycles : Nat) :
    (m.moved (.advance cpuCycles)).length + (m.advance (cpuCycles * masterTicksPerCpuCycle)).work =
      m.work :=
  MouseState.moves_length m _

theorem advanceTime_sound (h : b.mouse.Sound) (cpuCycles : Nat) :
    (b.advanceTime cpuCycles).mouse.Sound :=
  act_mouse_sound h (.advance cpuCycles)

theorem advanceTime_zero (h : b.mouse.Sound) : (b.advanceTime 0).mouseSide = b.mouseSide := by
  have hmouse : (b.advanceTime 0).mouse = b.mouse := by
    rw [advanceTime_mouse]
    exact MouseState.advance_zero h.paced h.limited
  have hmoved : (b.mouse.moved (.advance 0)).isEmpty = true := by
    have hlength := moved_length b.mouse 0
    rw [← advanceTime_mouse, hmouse] at hlength
    exact List.isEmpty_iff_length_eq_zero.mpr (by omega)
  simp only [mouseSide, MouseSide.mk.injEq]
  refine ⟨hmouse, ?_, advanceTime_enabled b 0⟩
  rw [advanceTime_latch h.lined, hmoved]
  simp

theorem advanceTime_add (h : b.mouse.Sound) (s t : Nat) :
    ((b.advanceTime s).advanceTime t).mouseSide = (b.advanceTime (s + t)).mouseSide := by
  have hfirst := advanceTime_sound h s
  have hmouse : ((b.advanceTime s).advanceTime t).mouse = (b.advanceTime (s + t)).mouse := by
    rw [advanceTime_mouse, advanceTime_mouse, advanceTime_mouse,
      MouseState.advance_add h.paced h.limited, Nat.add_mul]
  -- the edges of the parts are those of the whole
  have hlength : (b.mouse.moved (.advance s)).length +
      ((b.advanceTime s).mouse.moved (.advance t)).length =
        (b.mouse.moved (.advance (s + t))).length := by
    have h₁ := moved_length b.mouse s
    have h₂ := moved_length (b.advanceTime s).mouse t
    have h₃ := moved_length b.mouse (s + t)
    rw [← advanceTime_mouse] at h₁ h₂ h₃
    rw [hmouse] at h₂
    omega
  simp only [mouseSide, MouseSide.mk.injEq]
  refine ⟨hmouse, ?_, ?_⟩
  · rw [advanceTime_latch hfirst.lined, advanceTime_latch h.lined, advanceTime_latch h.lined,
      advanceTime_enabled, Bool.or_assoc, ← Bool.and_or_distrib_left]
    congr 2
    rw [Bool.eq_iff_iff]
    simp only [Bool.or_eq_true, Bool.not_eq_true', List.isEmpty_eq_false_iff,
      ← List.length_pos_iff]
    omega
  · rw [advanceTime_enabled, advanceTime_enabled, advanceTime_enabled]

/-- Time that comes in parts leaves the mouse and its latch as time in one piece does. -/
theorem advanceTime_parts (h : b.mouse.Sound) (parts : List Nat) :
    (Run.run advanceTime b parts).mouseSide = (b.advanceTime parts.sum).mouseSide := by
  induction parts generalizing b with
  | nil => exact (advanceTime_zero h).symm
  | cons part parts ih =>
    rw [Run.run_cons, ih (advanceTime_sound h part), advanceTime_add h, List.sum_cons]

/-! ## Runs -/

/-- Each motion edge is paid for with an interval of time, or with the one in hand. -/
theorem motionEdges_paid (b : Board) {a : Action} (ha : a.setsMouseSignals = false) :
    12000 * (b.motionEdges a).length + (b.act a).mouse.edgeTickAccumulator ≤
      b.mouse.edgeTickAccumulator + a.masterTicks := by
  have hlength : (b.motionEdges a).length = (b.mouse.moved a).length := by
    rw [← motionEdges_mouse, List.length_map]
  rw [hlength, act_mouse]
  cases a with
  | host op =>
    cases op with
    | mouseMotion deltaX deltaY => exact MouseState.moves_paid (b.mouse.queued deltaX deltaY) 0
    | setMouseSignals signals => cases ha
    | setMouseButton button down => exact Nat.le_of_eq (Nat.zero_add _)
    | _ => exact Nat.le_of_eq (Nat.zero_add _)
  | advance cpuCycles => exact MouseState.moves_paid b.mouse _
  | reset => exact Nat.le_of_eq (Nat.zero_add _)

theorem edges_le (h : b.mouse.Sound) {actions : List Action}
    (hactions : ∀ a ∈ actions, a.setsMouseSignals = false) :
    (Observe.trace act motionEdges b actions).flatten.length ≤
      1 + (actions.map Action.masterTicks).sum / mouseEdgeIntervalTicks := by
  have hkeep : ∀ (b : Board) a, b.mouse.Sound → (b.act a).mouse.Sound := fun _ a hb =>
    act_mouse_sound hb a
  have hpaid : ∀ (b : Board) (a : Action), b.mouse.Sound → a.setsMouseSignals = false →
      12000 * (b.motionEdges a).length + (b.act a).mouse.edgeTickAccumulator ≤
        b.mouse.edgeTickAccumulator + a.masterTicks :=
    fun b a _ ha => motionEdges_paid b ha
  have haccount := account_le (fun b : Board => b.mouse.edgeTickAccumulator) hkeep hpaid h hactions
  have hbudget := h.paced.budget
  simp only [mouseEdgeIntervalTicks]
  omega

theorem run_edge (h : b.mouse.Sound) (actions : List Action) :
    ∀ e ∈ (Observe.trace act motionEdges b actions).flatten,
      OneLine e.1.mouse.signalsRaw e.2.mouse.signalsRaw ∧
        (e.1.mouseInterruptEnabled = true → e.2.mouseInterruptLatch = true) := by
  induction actions generalizing b with
  | nil => exact fun e he => absurd he List.not_mem_nil
  | cons a as ih =>
    intro e he
    rw [Observe.trace, List.flatten_cons, List.mem_append] at he
    rcases he with he | he
    · exact motionEdges_edge h.lined a e he
    · exact ih (act_mouse_sound h a) e he

/-- What the decoders count in a run that queues no more than the limit. -/
theorem run_decoded (h : b.mouse.Sound) {actions : List Action}
    (hactions : ∀ a ∈ actions, a.setsMouseSignals = false) (hclamp : Along act Unclamped b actions) :
    let b' := Run.run act b actions
    let bytes := (Observe.trace act mouseBytes b actions).flatten
    ∃ x y, decode rightCode (xLines b.mouse.signalsRaw) (bytes.map xLines) = some x ∧
      decode downCode (yLines b.mouse.signalsRaw) (bytes.map yLines) = some y ∧
      x + b'.mouse.pendingX = b.mouse.pendingX + (actions.map Action.deltaX).sum ∧
      y + b'.mouse.pendingY = b.mouse.pendingY + (actions.map Action.deltaY).sum := by
  intro b' bytes
  have hkeep : ∀ (b : Board) a, b.mouse.Sound → (b.act a).mouse.Sound := fun _ a hb =>
    act_mouse_sound hb a
  have hx := run_shown (fun b : Board => xLines b.mouse.signalsRaw) (fun b => b.mouse.pendingX) hkeep
    (fun b a hb ha hfree => (mouseBytes_shown hb.lined ha hfree).1) h hactions hclamp
  have hy := run_shown (fun b : Board => yLines b.mouse.signalsRaw) (fun b => b.mouse.pendingY) hkeep
    (fun b a hb ha hfree => (mouseBytes_shown hb.lined ha hfree).2) h hactions hclamp
  obtain ⟨x, hxs, hxsum⟩ := hx.decode
  obtain ⟨y, hys, hysum⟩ := hy.decode
  have hright : bytes.map xLines =
      (Observe.trace act (fun b a => (b.mouseBytes a).map xLines) b actions).flatten := by
    rw [List.map_flatten, trace_map]
  have hdown : bytes.map yLines =
      (Observe.trace act (fun b a => (b.mouseBytes a).map yLines) b actions).flatten := by
    rw [List.map_flatten, trace_map]
  rw [hright, hdown]
  exact ⟨x, y, hxs, hys, hxsum, hysum⟩

/-- Motion on the lines of the mouse: the decoders of the documented codes count, with what is still
queued, all that was queued; each edge changes one line and latches I3 if PA3 allows it; edges keep
the pace of one an interval; and time in parts is time in one piece. -/
theorem motion_conserved (hb : b.Reachable) (actions : List Action)
    (hsignals : ∀ a ∈ actions, a.setsMouseSignals = false) :
    let b' := Run.run act b actions
    let bytes := (Observe.trace act mouseBytes b actions).flatten
    let edges := (Observe.trace act motionEdges b actions).flatten
    b'.mouse.signalsRaw = (bytes.getLast?).getD b.mouse.signalsRaw ∧
      (Along act Unclamped b actions → ∃ x y,
        decode rightCode (xLines b.mouse.signalsRaw) (bytes.map xLines) = some x ∧
        decode downCode (yLines b.mouse.signalsRaw) (bytes.map yLines) = some y ∧
        x + b'.mouse.pendingX = b.mouse.pendingX + (actions.map Action.deltaX).sum ∧
        y + b'.mouse.pendingY = b.mouse.pendingY + (actions.map Action.deltaY).sum) ∧
      (∀ e ∈ edges, OneLine e.1.mouse.signalsRaw e.2.mouse.signalsRaw ∧
        (e.1.mouseInterruptEnabled = true → e.2.mouseInterruptLatch = true)) ∧
      (∀ a, b.motionEdges a ≠ [] → b.mouseInterruptEnabled = true →
        (b.act a).mouseInterruptLatch = true ∧ (b.act a).interrupts.inputs 3 = true) ∧
      edges.length ≤ 1 + (actions.map Action.masterTicks).sum / mouseEdgeIntervalTicks ∧
      ∀ parts, (Run.run advanceTime b parts).mouseSide = (b.advanceTime parts.sum).mouseSide := by
  intro b' bytes edges
  have hsound := hb.mouse
  have hlast : b'.mouse.signalsRaw = (bytes.getLast?).getD b.mouse.signalsRaw :=
    trace_last (fun b : Board => b.mouse.signalsRaw) mouseBytes_last b actions
  refine ⟨hlast, run_decoded hsound hsignals, run_edge hsound actions, ?_, edges_le hsound hsignals,
    advanceTime_parts hsound⟩
  intro a hedges henabled
  have hlatch := act_latch hsound.lined hedges henabled
  have hinputs := (act_coherent hb.coherent a).inputs
  exact ⟨hlatch, (congrFun hinputs 3).trans hlatch⟩

/-- Two counts to the right and one up, with a button and I3 in between. -/
theorem motion_conserved_diagonal :
    let actions : List Action :=
      [.host (.writeIo 0x63#16 0x88#8), .host (.writeIo 0x60#16 0x08#8), .host (.mouseMotion 2 (-1)),
        .host (.setMouseButton .button1 true), .host (.readIo 0x70#16), .advance 8000]
    let b' := Run.run act (power []) actions
    let bytes := (Observe.trace act mouseBytes (power []) actions).flatten
    ∃ x y, decode rightCode (xLines (power []).mouse.signalsRaw) (bytes.map xLines) = some x ∧
      decode downCode (yLines (power []).mouse.signalsRaw) (bytes.map yLines) = some y ∧
      x + b'.mouse.pendingX = 2 ∧ y + b'.mouse.pendingY = -1 := by
  intro actions b' bytes
  obtain ⟨-, hdecode, -⟩ := motion_conserved (b := power []) ⟨[], .refl⟩ actions (by decide)
  have hclamp : Along act Unclamped (power []) actions :=
    ⟨trivial, trivial, ⟨by decide +kernel, by decide +kernel⟩, trivial, trivial, trivial, trivial⟩
  exact hdecode hclamp

end Board
end FK1
