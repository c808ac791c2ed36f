import FK1.Lib.Record
import FK1.PortMailboxes
import FK1.SystemSide

/-!
# FK1.PrinterKeyboard

The printer and the keyboard over whole runs, on the 8255 of group 00h.

* `OneWay`: port A only gives bytes there and port B only takes them.
* `Board.act_printerKeyboard`: what each action does to this 8255.
* `Board.printed_in_order`: the bytes the host gets, and the interrupt I0.
* `Board.keys_arrive`: the byte software reads from port B, and the interrupt I1.
-/

namespace FK1
namespace Ppi8255

/-! ## One 8255 -/

/-- At rest, never strobed on port A and never acknowledged on port B. -/
structure OneWay (p : Ppi8255) : Prop extends AtRest p where
  noStrobeA : p.ibfA = false
  noAckB : p.outputBAcknowledged = false
  filled : p.ibfB = true → p.strobedInputB = true
  acked : p.outputAAcknowledged = true → p.strobedOutputA = true ∧ p.obfAHigh = true

variable {p : Ppi8255}

theorem OneWay.intrA (h : p.OneWay) : p.intrA = (p.inteAOutput && p.outputAAcknowledged) := by
  have hflags := congrArg Ppi8255.intrA h.updated
  have hacked := h.acked
  simp only [updateInterrupts, h.noStrobeA, h.ackA, Bool.and_false, Bool.false_and, Bool.false_or,
    Bool.and_true] at hflags
  rw [← hflags]
  cases hack : p.outputAAcknowledged with
  | false => simp
  | true =>
    obtain ⟨hstrobed, hhigh⟩ := hacked hack
    simp [hstrobed, hhigh]

theorem OneWay.intrB (h : p.OneWay) : p.intrB = (p.inteB && p.ibfB) := by
  have hflags := congrArg Ppi8255.intrB h.updated
  have hfilled := h.filled
  simp only [updateInterrupts, h.noAckB, h.strobeB, Bool.and_false, Bool.false_and, Bool.and_true] at hflags
  rw [← hflags]
  cases hfull : p.ibfB with
  | false => simp
  | true =>
    have hstrobed := hfilled hfull
    rw [strobedInputB, Bool.and_eq_true, beq_iff_eq] at hstrobed
    simp [hstrobed.1, hstrobed.2]

theorem oneWay_reset (p : Ppi8255) (value : Byte) : (p.reset.setPortCInput value).OneWay :=
  ⟨(atRest_reset p).setPortCInput value, rfl, rfl, nofun, nofun⟩

theorem OneWay.setPortCInput (h : p.OneWay) (value : Byte) : (p.setPortCInput value).OneWay :=
  ⟨h.toAtRest.setPortCInput value, h.noStrobeA, h.noAckB, h.filled, h.acked⟩

theorem OneWay.pulseStrobeB (h : p.OneWay) (value : Byte) : (p.pulseStrobeB value).OneWay := by
  have hrest := h.toAtRest.pulseStrobeB value
  rw [pulseStrobeB_eq h.strobeB] at hrest ⊢
  refine ⟨hrest, h.noStrobeA, h.noAckB, fun hfull => ?_, h.acked⟩
  exact (Bool.or_eq_true_iff.mp hfull).elim h.filled id

theorem OneWay.pulseAckA (h : p.OneWay) (hstrobed : p.strobedOutputA = true) : p.pulseAckA.OneWay := by
  have hrest := h.toAtRest.pulseAckA
  rw [pulseAckA_eq h.ackA] at hrest ⊢
  refine ⟨hrest, h.noStrobeA, h.noAckB, h.filled, fun _ => ⟨hstrobed, ?_⟩⟩
  show (p.obfAHigh || p.strobedOutputA) = true
  rw [hstrobed, Bool.or_true]

/-! ## What the two devices see -/

/-- The byte and the flag of port B, the flags of port A, and the two interrupt enables. -/
structure Mailboxes where
  latchB : Byte := 0#8
  fullB : Bool := false
  enabledB : Bool := false
  freeA : Bool := true
  takenA : Bool := false
  enabledA : Bool := false
  deriving DecidableEq, Repr

def mailboxState (p : Ppi8255) : Mailboxes :=
  { latchB := p.portBInputLatch
    fullB := p.ibfB
    enabledB := p.inteB
    freeA := p.obfAHigh
    takenA := p.outputAAcknowledged
    enabledA := p.inteAOutput }

theorem pulseStrobeB_mailbox (h : p.OneWay) (value : Byte) :
    (p.pulseStrobeB value).mailboxState = { p.mailboxState with
      latchB := if p.strobedInputB then value else p.portBInputLatch
      fullB := p.ibfB || p.strobedInputB } := by
  rw [pulseStrobeB_eq h.strobeB]
  rfl

theorem pulseAckA_mailbox (h : p.OneWay) (hstrobed : p.strobedOutputA = true) :
    p.pulseAckA.mailboxState = { p.mailboxState with freeA := true, takenA := true } := by
  have hfree : (p.obfAHigh || p.strobedOutputA) = true := by rw [hstrobed, Bool.or_true]
  rw [pulseAckA_eq h.ackA, hfree]
  rfl

theorem read_eq (p : Ppi8255) (registerIndex : Byte) :
    p.read registerIndex =
      if register registerIndex = 0 then p.readPortA
      else if register registerIndex = 1 then p.readPortB
      else if register registerIndex = 2 then (p.readPortC, p)
      else (0xFF#8, p) := by
  unfold read register
  split
  next hr => rw [if_pos hr]
  next hr => rw [hr]; rfl
  next hr => rw [hr]; rfl
  next h0 h1 h2 => rw [if_neg h0, if_neg h1, if_neg h2]

theorem read_oneWay (h : p.OneWay) (registerIndex : Byte) :
    (p.read registerIndex).2.OneWay ∧
      (p.read registerIndex).2.mailboxState = { p.mailboxState with
        fullB := decide (register registerIndex ≠ 1) && p.ibfB } := by
  have hrest := h.toAtRest.read registerIndex
  rw [read_eq] at hrest ⊢
  rcases register_cases registerIndex with hr | hr | hr | hr <;> rw [hr] at hrest ⊢
  · rw [if_pos rfl] at hrest ⊢
    unfold readPortA at hrest ⊢
    split
    next hin =>
      rw [if_pos hin] at hrest
      exact ⟨⟨hrest, rfl, h.noAckB, h.filled, h.acked⟩, rfl⟩
    next hin => exact ⟨h, rfl⟩
  · rw [if_neg (by decide), if_pos rfl] at hrest ⊢
    unfold readPortB at hrest ⊢
    split
    next hin =>
      rw [if_pos hin] at hrest
      exact ⟨⟨hrest, h.noStrobeA, h.noAckB, nofun, h.acked⟩, rfl⟩
    next hin =>
      have hempty : p.ibfB = false := Bool.eq_false_iff.mpr fun hfull => hin (h.filled hfull)
      exact ⟨h, by simp [mailboxState, hempty]⟩
  · exact ⟨h, rfl⟩
  · exact ⟨h, rfl⟩

theorem bitSetReset_oneWay (h : p.OneWay) (value : Byte) :
    (p.bitSetReset value).updateInterrupts.OneWay ∧
      (p.bitSetReset value).updateInterrupts.mailboxState = { p.mailboxState with
        enabledB := if p.groupBMode = .mode1 ∧ bitOf value = 2 then hasBits value 0x01#8 else p.inteB
        enabledA :=
          if p.strobedOutputA = true ∧ bitOf value = 6 then hasBits value 0x01#8
          else p.inteAOutput } := by
  obtain ⟨hstrobeA, hstrobeB, hackA, hackB⟩ := bitSetReset_lines p value
  have hrest := atRest_updateInterrupts (hstrobeA.trans h.strobeA) (hstrobeB.trans h.strobeB)
    (hackA.trans h.ackA) (hackB.trans h.ackB)
  unfold bitOf
  unfold bitSetReset at hrest ⊢
  dsimp only at hrest ⊢
  generalize (value >>> 1 &&& 0x07#8).toNat = bit at hrest ⊢
  split
  next hbit =>
    rw [if_pos hbit] at hrest
    refine ⟨⟨hrest, h.noStrobeA, h.noAckB, h.filled, h.acked⟩, ?_⟩
    simp [hbit.1, mailboxState, updateInterrupts]
  next hbit4 =>
    rw [if_neg hbit4] at hrest
    split
    next hbit =>
      rw [if_pos hbit] at hrest
      refine ⟨⟨hrest, h.noStrobeA, h.noAckB, h.filled, h.acked⟩, ?_⟩
      simp [hbit.1, hbit.2, mailboxState, updateInterrupts]
    next hbit6 =>
      rw [if_neg hbit6] at hrest
      split
      next hbit =>
        rw [if_pos hbit] at hrest
        refine ⟨⟨hrest, h.noStrobeA, h.noAckB, h.filled, h.acked⟩, ?_⟩
        simp [hbit.1, hbit.2, mailboxState, updateInterrupts]
      next hbit2 =>
        rw [if_neg hbit2] at hrest
        have hnot : ¬(p.groupBMode = .mode1 ∧ bit = 2) := fun hbit => hbit2 hbit.symm
        have hnot' : ¬(p.strobedOutputA = true ∧ bit = 6) := fun hbit => hbit6 hbit.symm
        rw [if_neg hnot, if_neg hnot']
        split
        next hset =>
          rw [if_pos hset] at hrest
          exact ⟨⟨hrest, h.noStrobeA, h.noAckB, h.filled, h.acked⟩, rfl⟩
        next hset =>
          rw [if_neg hset] at hrest
          exact ⟨⟨hrest, h.noStrobeA, h.noAckB, h.filled, h.acked⟩, rfl⟩

theorem write_eq (p : Ppi8255) (registerIndex value : Byte) :
    p.write registerIndex value =
      if register registerIndex = 0 then
        (if p.strobedOutputA then
          { p with
            portAOutput := value, obfAHigh := false, outputAAcknowledged := false, intrA := false }
        else { p with portAOutput := value }).updateInterrupts
      else if register registerIndex = 1 then
        (if p.strobedOutputB then
          { p with
            portBOutput := value, obfBHigh := false, outputBAcknowledged := false, intrB := false }
        else { p with portBOutput := value }).updateInterrupts
      else if register registerIndex = 2 then { p with portCOutput := value }.updateInterrupts
      else if hasBits value 0x80#8 then (p.modeSet value).updateInterrupts
      else (p.bitSetReset value).updateInterrupts := by
  unfold write register
  split
  next hr => rw [if_pos hr]; rfl
  next hr => rw [hr]; rfl
  next hr => rw [hr]; rfl
  next h0 h1 h2 =>
    rw [if_neg h0, if_neg h1, if_neg h2]
    split <;> rfl

/-- A write, before the printer answers. -/
theorem write_oneWay (h : p.OneWay) (registerIndex value : Byte) :
    (p.write registerIndex value).OneWay ∧
      (p.write registerIndex value).mailboxState =
        if Op.isModeSet (.write registerIndex value) then {}
        else { p.mailboxState with
          enabledB :=
            if p.groupBMode = .mode1 then (Op.setsBit 2 (.write registerIndex value)).getD p.inteB
            else p.inteB
          freeA := p.obfAHigh && !(register registerIndex == 0 && p.strobedOutputA)
          takenA := p.outputAAcknowledged && !(register registerIndex == 0)
          enabledA :=
            if p.strobedOutputA then (Op.setsBit 6 (.write registerIndex value)).getD p.inteAOutput
            else p.inteAOutput } := by
  have hrest := h.toAtRest.write registerIndex value
  unfold Op.isModeSet Op.setsBit
  rw [write_eq] at hrest ⊢
  rcases register_cases registerIndex with hr | hr | hr | hr <;> rw [hr] at hrest ⊢
  · rw [if_pos rfl] at hrest ⊢
    split
    next hstrobed =>
      rw [if_pos hstrobed] at hrest
      exact ⟨⟨hrest, h.noStrobeA, h.noAckB, h.filled, fun hack => absurd hack Bool.false_ne_true⟩,
        by simp [mailboxState, updateInterrupts, hr, hstrobed]⟩
    next hstrobed =>
      rw [if_neg hstrobed] at hrest
      have hidle : p.outputAAcknowledged = false :=
        Bool.eq_false_iff.mpr fun hack => hstrobed (h.acked hack).1
      exact ⟨⟨hrest, h.noStrobeA, h.noAckB, h.filled, h.acked⟩,
        by simp [mailboxState, updateInterrupts, hr, hstrobed, hidle]⟩
  · rw [if_neg (by decide), if_pos rfl] at hrest ⊢
    split
    next hstrobed =>
      rw [if_pos hstrobed] at hrest
      exact ⟨⟨hrest, h.noStrobeA, rfl, h.filled, h.acked⟩,
        by simp [mailboxState, updateInterrupts, hr]⟩
    next hstrobed =>
      rw [if_neg hstrobed] at hrest
      exact ⟨⟨hrest, h.noStrobeA, h.noAckB, h.filled, h.acked⟩,
        by simp [mailboxState, updateInterrupts, hr]⟩
  · rw [if_neg (by decide), if_neg (by decide), if_pos rfl] at hrest ⊢
    exact ⟨⟨hrest, h.noStrobeA, h.noAckB, h.filled, h.acked⟩,
      by simp [mailboxState, updateInterrupts, hr]⟩
  · rw [if_neg (by decide), if_neg (by decide), if_neg (by decide)] at hrest ⊢
    split
    next hmode =>
      rw [if_pos hmode] at hrest
      refine ⟨⟨hrest, rfl, rfl, fun hfull => absurd hfull Bool.false_ne_true,
        fun hack => absurd hack Bool.false_ne_true⟩, ?_⟩
      simp [mailboxState, updateInterrupts, modeSet, hr, hmode]
    next hmode =>
      obtain ⟨honeWay, hstate⟩ := bitSetReset_oneWay h value
      refine ⟨honeWay, hstate.trans ?_⟩
      rw [Bool.not_eq_true] at hmode
      by_cases h2 : bitOf value = 2 <;> by_cases h6 : bitOf value = 6 <;>
        simp [mailboxState, hr, hmode, h2, h6]

end Ppi8255

namespace Board

open Ppi8255

variable {b b' : Board}

/-! ## What each action does to it -/

/-- The codes the keyboard sends. -/
def typed : Board × Action → List Byte
  | (b, .advance cpuCycles) =>
    List.replicate (b.keyboard.advance (cpuCycles * masterTicksPerCpuCycle)).1 b.keyboard.repeatCode
  | (b, .host (.keyboardKeyDown keyId code)) => (b.keyboard.keyDown keyId code).1.toList
  | _ => []

/-- What software does to this 8255. -/
def portOp : Action → Option Op
  | .host (.readIo port) => if ioGroup port = 0 then some (.read (registerOf port)) else none
  | .host (.writeIo port value) =>
    if ioGroup port = 0 then some (.write (registerOf port) value) else none
  | _ => none

/-- The bytes the printer takes. -/
def printedBy : Board × Action → List Byte
  | (b, .host (.writeIo port value)) => b.printed port value
  | _ => []

def strobes (p : Ppi8255) (codes : List Byte) : Ppi8255 :=
  codes.foldl (fun p code => p.pulseStrobeB (~~~code)) p

def portAfter (b : Board) (a : Action) : Ppi8255 :=
  match a with
  | .reset => b.printerKeyboard.reset.setPortCInput (if b.printerOnline then 0x20#8 else 0x00#8)
  | .host (.setPrinterOnline online) =>
    b.printerKeyboard.setPortCInput (if online then 0x20#8 else 0x00#8)
  | a =>
    match portOp a with
    | some op =>
      if printedBy (b, a) = [] then b.printerKeyboard.apply op
      else (b.printerKeyboard.apply op).pulseAckA
    | none => strobes b.printerKeyboard (typed (b, a))

theorem DiskStep.printerKeyboard (h : DiskStep b b') :
    b'.printerKeyboard = b.printerKeyboard ∧ b'.keyboard = b.keyboard := by
  obtain ⟨_, _, _, _, _, _, rfl, _⟩ := h
  exact ⟨rfl, rfl⟩

theorem refresh_printerKeyboard (b : Board) :
    b.refreshInterruptSources.printerKeyboard = b.printerKeyboard :=
  (refresh_diskStep b).printerKeyboard.1

theorem deliver_printerKeyboard (repeats : Nat) (b : Board) :
    (advanceKeyboard.deliver repeats b).printerKeyboard =
      strobes b.printerKeyboard (List.replicate repeats b.keyboard.repeatCode) := by
  induction repeats generalizing b with
  | zero => rfl
  | succ repeats ih =>
    have hkept := (refresh_diskStep { b with
      printerKeyboard := b.printerKeyboard.pulseStrobeB (~~~b.keyboard.repeatCode) }).printerKeyboard
    have hdelivered : (b.deliverKeyboardCode b.keyboard.repeatCode).printerKeyboard = _ := hkept.1
    have hkeyboard : (b.deliverKeyboardCode b.keyboard.repeatCode).keyboard = b.keyboard := hkept.2
    rw [advanceKeyboard.deliver, ih, hdelivered, hkeyboard]
    rfl

theorem advanceKeyboard_printerKeyboard (b : Board) (masterTicks : Nat) :
    (b.advanceKeyboard masterTicks).printerKeyboard =
      strobes b.printerKeyboard
        (List.replicate (b.keyboard.advance masterTicks).1 b.keyboard.repeatCode) := by
  have hcode : (b.keyboard.advance masterTicks).2.repeatCode = b.keyboard.repeatCode := by
    unfold Keyboard.advance
    split
    · dsimp only
      split <;> rfl
    · rfl
  unfold advanceKeyboard
  rw [deliver_printerKeyboard, hcode]

theorem advanceTime_printerKeyboard (b : Board) (cpuCycles : Nat) :
    (b.advanceTime cpuCycles).printerKeyboard =
      strobes b.printerKeyboard (typed (b, .advance cpuCycles)) := by
  unfold advanceTime
  extract_lets masterTicks b₀ b₁ b₂ b₃
  have hfloppy := (processFloppyBytes_diskStep (b₀.floppy.visitBytes masterTicks) b₀).printerKeyboard
  have hkeys : b₁.printerKeyboard = b.printerKeyboard ∧ b₁.keyboard = b.keyboard := hfloppy
  have htimer : ∀ v : Board, (v.advanceTimer masterTicks).printerKeyboard = v.printerKeyboard := by
    intro v
    unfold advanceTimer
    dsimp only
    split
    · rfl
    · exact applyTimerEdges_view (fun h => h.printerKeyboard.1) (fun _ _ => rfl) _ _
  have hflush : ∀ v : Board, v.flushPendingDiskWrites.printerKeyboard = v.printerKeyboard :=
    fun v => flush_view (fun h => h.printerKeyboard.1) (fun _ _ => rfl) (fun _ _ => rfl) v
  have hframe : ∀ v : Board, (v.advanceFrame masterTicks).printerKeyboard = v.printerKeyboard := by
    intro v
    unfold advanceFrame
    dsimp only
    split <;> rfl
  have hmouse : ∀ v : Board, (v.advanceMouse masterTicks).printerKeyboard = v.printerKeyboard := by
    intro v
    obtain ⟨_, _, h⟩ := advanceMouse_frame v masterTicks
    rw [h]
  rw [refresh_printerKeyboard, hframe]
  show ((b₂.advanceTimer masterTicks).flushPendingDiskWrites).printerKeyboard = _
  rw [hflush, htimer]
  show ((b₁.advanceKeyboard masterTicks).advanceMouse masterTicks).printerKeyboard = _
  rw [hmouse, advanceKeyboard_printerKeyboard, hkeys.1, hkeys.2]
  rfl

theorem writePrinterKeyboard_port {port : Word} (hport : ioGroup port = 0) (value : Byte) :
    (b.writePrinterKeyboard (registerOf port) value).printerKeyboard =
      if b.printed port value = [] then b.printerKeyboard.write (registerOf port) value
      else (b.printerKeyboard.write (registerOf port) value).pulseAckA := by
  unfold writePrinterKeyboard
  extract_lets b₁
  by_cases hreg : registerOf port &&& 0x03#8 = 0#8
  · obtain ⟨-, hmode, henabled⟩ := write_portA hreg b.printerKeyboard value
    split
    next htaken =>
      simp only [b₁, Bool.and_eq_true, beq_iff_eq, hmode, henabled] at htaken
      have hprinted : b.printed port value = [value] :=
        if_pos ⟨hport, hreg, htaken.1.1.2, htaken.1.2, htaken.2⟩
      rw [hprinted, if_neg (List.cons_ne_nil _ _)]
    next htaken =>
      have hprinted : b.printed port value = [] := if_neg fun h => htaken (by
        simp [b₁, hmode, henabled, h.2.1, h.2.2.1, h.2.2.2.1, h.2.2.2.2])
      rw [hprinted, if_pos rfl]
  · have hprinted : b.printed port value = [] := if_neg fun h => hreg h.2.1
    rw [if_neg (by simp [hreg]), hprinted, if_pos rfl]

theorem readIo_printerKeyboard (b : Board) (port : Word) :
    (b.readIo port).2.printerKeyboard = b.portAfter (.host (.readIo port)) := by
  unfold readIo
  dsimp only
  rw [refresh_printerKeyboard]
  unfold portAfter portOp
  split
  all_goals
    next hport =>
      simp only [hport]
      rfl

theorem writeIo_printerKeyboard (b : Board) (port : Word) (value : Byte) :
    (b.writeIo port value).printerKeyboard = b.portAfter (.host (.writeIo port value)) := by
  have hother : ∀ v : Board, v.printerKeyboard = b.printerKeyboard → ioGroup port ≠ 0 →
      v.refreshInterruptSources.printerKeyboard = b.portAfter (.host (.writeIo port value)) := by
    intro v hv hport
    rw [refresh_printerKeyboard, hv]
    unfold portAfter portOp
    simp only [if_neg hport]
    rfl
  unfold writeIo
  dsimp only
  split
  next hport =>
    rw [refresh_printerKeyboard, writePrinterKeyboard_port hport]
    unfold portAfter portOp
    simp only [hport, if_true]
    rfl
  next hport =>
    refine hother _ ?_ (by rw [hport]; decide)
    unfold writeTimer
    dsimp only
    split <;> rfl
  next hport => exact hother _ rfl (by rw [hport]; decide)
  next hport => exact hother _ rfl (by rw [hport]; decide)
  next hport => exact hother _ rfl (by rw [hport]; decide)
  next hport => exact hother _ (by rw [writeDiskAux_eq]) (by rw [hport]; decide)
  next hport => exact hother _ (by rw [synchronizeControlOutputs_eq]) (by rw [hport]; decide)
  next hport => exact hother _ rfl (by rw [hport]; decide)

theorem act_printerKeyboard (b : Board) (a : Action) :
    (b.act a).printerKeyboard = b.portAfter a := by
  cases a with
  | advance cpuCycles => exact advanceTime_printerKeyboard b cpuCycles
  | reset =>
    show b.reset.printerKeyboard = _
    unfold reset renderVideo
    dsimp only
    rw [refresh_printerKeyboard]
    rfl
  | host op =>
    cases op with
    | readIo port => exact readIo_printerKeyboard b port
    | writeIo port value => exact writeIo_printerKeyboard b port value
    | keyboardKeyDown keyId code =>
      simp only [act, Board.host, keyboardKeyDown, portAfter, portOp, typed]
      split
      next hsent =>
        rw [hsent]
        exact refresh_printerKeyboard _
      next hsent =>
        rw [hsent]
        rfl
    | takePrinterByte =>
      simp only [act, Board.host, takePrinterByte]
      split <;> rfl
    | queueSerialReceivedByte value =>
      simp only [act, Board.host, queueSerialReceivedByte]
      split <;> rfl
    | setSerialConnected connected => exact refresh_printerKeyboard _
    | setSerialClearToSend connected => exact refresh_printerKeyboard _
    | setMouseSignals signals =>
      refine (refresh_printerKeyboard _).trans ?_
      obtain ⟨_, _, h⟩ := updateMouseSignals_frame _ signals
      rw [h]
      rfl
    | mouseMotion deltaX deltaY =>
      refine (refresh_printerKeyboard _).trans ?_
      obtain ⟨_, _, h⟩ := advanceMouse_frame _ 0
      rw [h]
      rfl
    | setMouseButton button pressed =>
      refine (refresh_printerKeyboard _).trans ?_
      obtain ⟨_, _, h⟩ := updateMouseSignals_frame b _
      rw [h]
      rfl
    | writeMemory address value =>
      simp only [act, Board.host, writeMemory]
      repeat' split
      all_goals rfl
    | setRomImage image =>
      simp only [act, Board.host, setRomImage]
      split <;> rfl
    | _ => rfl

/-! ## The mailboxes -/

/-- A mode word for this 8255, or a reset. -/
def setsMode : Action → Bool
  | .reset => true
  | a => (portOp a).any Op.isModeSet

/-- A read of port B. -/
def readsKey (a : Action) : Bool :=
  match portOp a with
  | some (.read registerIndex) => register registerIndex == 1
  | _ => false

/-- A write to port A. -/
def writesPrinter (a : Action) : Bool :=
  match portOp a with
  | some (.write registerIndex _) => register registerIndex == 0
  | _ => false

/-- The keyboard strobes a code into port B. -/
def keyArrives (entry : Board × Action) : Bool :=
  entry.1.printerKeyboard.strobedInputB && !(typed entry).isEmpty

def keyTaken (a : Action) : Bool := setsMode a || readsKey a

/-- What is on port B afterwards, where that changes: the last code, complemented. -/
def keyOnPort (entry : Board × Action) : Option Byte :=
  if setsMode entry.2 then some 0#8
  else if entry.1.printerKeyboard.strobedInputB then (typed entry).getLast?.map (~~~·)
  else none

/-- The interrupt enable of port B, where it is set. -/
def keyEnable (entry : Board × Action) : Option Bool :=
  if setsMode entry.2 then some false
  else if entry.1.printerKeyboard.groupBMode = .mode1 then (portOp entry.2).bind (Op.setsBit 2)
  else none

/-- The interrupt enable of port A, where it is set. -/
def printerEnable (entry : Board × Action) : Option Bool :=
  if setsMode entry.2 then some false
  else if entry.1.printerKeyboard.strobedOutputA then (portOp entry.2).bind (Op.setsBit 6)
  else none

def printerTakes (entry : Board × Action) : Bool := !(printedBy entry).isEmpty

theorem strobes_oneWay {p : Ppi8255} (h : p.OneWay) (codes : List Byte) :
    (strobes p codes).OneWay ∧ (strobes p codes).mailboxState = { p.mailboxState with
      latchB :=
        if p.strobedInputB then (codes.getLast?.map (~~~·)).getD p.portBInputLatch
        else p.portBInputLatch
      fullB := (p.strobedInputB && !codes.isEmpty) || p.ibfB } := by
  induction codes generalizing p with
  | nil =>
    refine ⟨h, ?_⟩
    cases hin : p.strobedInputB <;> simp [strobes, mailboxState]
  | cons code codes ih =>
    obtain ⟨honeWay, hstate⟩ := ih (h.pulseStrobeB (~~~code))
    have hfirst := pulseStrobeB_mailbox h (~~~code)
    have hmode : (p.pulseStrobeB (~~~code)).strobedInputB = p.strobedInputB := by
      rw [pulseStrobeB_eq h.strobeB]
      rfl
    refine ⟨honeWay, hstate.trans ?_⟩
    have hlatch : (p.pulseStrobeB (~~~code)).portBInputLatch = _ := congrArg Mailboxes.latchB hfirst
    have hfull : (p.pulseStrobeB (~~~code)).ibfB = _ := congrArg Mailboxes.fullB hfirst
    rw [hfirst, hmode, hlatch, hfull]
    cases hin : p.strobedInputB with
    | false => simp [mailboxState]
    | true => cases codes <;> simp [mailboxState, List.getLast?_cons]

/-- The printer takes bytes of a strobed output only. -/
theorem printed_strobed {port : Word} {value : Byte} (h : b.printed port value ≠ []) :
    register (registerOf port) = 0 ∧ b.printerKeyboard.strobedOutputA = true := by
  have htakes := of_not_not fun hnot => h (if_neg hnot)
  obtain ⟨-, hreg, -, hmode, henabled⟩ := htakes
  refine ⟨by rw [register, hreg]; rfl, ?_⟩
  rw [portAOutputEnabled, hmode] at henabled
  simpa [strobedOutputA, hmode] using henabled

def mailboxesAfter (entry : Board × Action) : Mailboxes :=
  let p := entry.1.printerKeyboard
  { latchB := (keyOnPort entry).getD p.portBInputLatch
    fullB := keyArrives entry || (!keyTaken entry.2 && p.ibfB)
    enabledB := (keyEnable entry).getD p.inteB
    freeA :=
      printerTakes entry || setsMode entry.2 ||
        (!(writesPrinter entry.2 && p.strobedOutputA) && p.obfAHigh)
    takenA :=
      printerTakes entry || (!(setsMode entry.2 || writesPrinter entry.2) && p.outputAAcknowledged)
    enabledA := (printerEnable entry).getD p.inteAOutput }

/-- Without an access to this 8255, only the keyboard has been at work. -/
theorem strobes_mailboxes (h : b.printerKeyboard.OneWay) {a : Action} (hmode : setsMode a = false)
    (hop : portOp a = none) (hprinted : printedBy (b, a) = []) :
    (strobes b.printerKeyboard (typed (b, a))).OneWay ∧
      (strobes b.printerKeyboard (typed (b, a))).mailboxState = mailboxesAfter (b, a) := by
  obtain ⟨honeWay, hstate⟩ := strobes_oneWay h (typed (b, a))
  refine ⟨honeWay, hstate.trans ?_⟩
  unfold mailboxesAfter keyOnPort keyArrives keyTaken readsKey keyEnable printerTakes writesPrinter
    printerEnable
  cases b.printerKeyboard.strobedInputB <;> simp [hmode, hop, hprinted, mailboxState]

theorem portAfter_none {op : HostOp} (hop : portOp (.host op) = none)
    (hline : ∀ online, op ≠ .setPrinterOnline online) :
    setsMode (.host op) = false ∧
      b.portAfter (.host op) = strobes b.printerKeyboard (typed (b, .host op)) := by
  refine ⟨?_, ?_⟩
  · show (portOp (.host op)).any Op.isModeSet = false
    rw [hop]
    rfl
  · cases op with
    | setPrinterOnline online => exact absurd rfl (hline online)
    | _ =>
      unfold portAfter
      simp only [hop]

theorem readIo_mailboxes (h : b.printerKeyboard.OneWay) {port : Word} (hport : ioGroup port = 0) :
    (b.portAfter (.host (.readIo port))).OneWay ∧
      (b.portAfter (.host (.readIo port))).mailboxState =
        mailboxesAfter (b, .host (.readIo port)) := by
  have hop : portOp (.host (.readIo port)) = some (.read (registerOf port)) := if_pos hport
  have hmode : setsMode (.host (.readIo port)) = false := by
    show (portOp (.host (.readIo port))).any Op.isModeSet = false
    rw [hop]
    rfl
  have hafter : b.portAfter (.host (.readIo port)) = (b.printerKeyboard.read (registerOf port)).2 := by
    unfold portAfter
    simp only [hop]
    rfl
  obtain ⟨honeWay, hstate⟩ := read_oneWay h (registerOf port)
  rw [hafter]
  refine ⟨honeWay, hstate.trans ?_⟩
  have hreads : readsKey (.host (.readIo port)) = (register (registerOf port) == 1) := by
    unfold readsKey
    rw [hop]
  have hwrites : writesPrinter (.host (.readIo port)) = false := by
    unfold writesPrinter
    rw [hop]
  have hnot : decide (register (registerOf port) ≠ 1) = !(register (registerOf port) == 1) := by
    by_cases hr : register (registerOf port) = 1 <;> simp [hr]
  unfold mailboxesAfter keyOnPort keyArrives keyTaken keyEnable printerTakes printerEnable
  cases b.printerKeyboard.strobedInputB <;>
    simp [hmode, hop, hreads, hwrites, hnot, mailboxState, typed, printedBy, Op.setsBit]

theorem writeIo_mailboxes (h : b.printerKeyboard.OneWay) {port : Word} (hport : ioGroup port = 0)
    (value : Byte) :
    (b.portAfter (.host (.writeIo port value))).OneWay ∧
      (b.portAfter (.host (.writeIo port value))).mailboxState =
        mailboxesAfter (b, .host (.writeIo port value)) := by
  have hop : portOp (.host (.writeIo port value)) = some (.write (registerOf port) value) := if_pos hport
  have hmode : setsMode (.host (.writeIo port value)) =
      Op.isModeSet (.write (registerOf port) value) := by
    show (portOp (.host (.writeIo port value))).any Op.isModeSet = _
    rw [hop]
    rfl
  have hreads : readsKey (.host (.writeIo port value)) = false := by
    unfold readsKey
    rw [hop]
  have hwrites : writesPrinter (.host (.writeIo port value)) = (register (registerOf port) == 0) := by
    unfold writesPrinter
    rw [hop]
  obtain ⟨honeWay, hstate⟩ := write_oneWay h (registerOf port) value
  have hafter : b.portAfter (.host (.writeIo port value)) =
      if b.printed port value = [] then b.printerKeyboard.write (registerOf port) value
      else (b.printerKeyboard.write (registerOf port) value).pulseAckA := by
    unfold portAfter
    simp only [hop]
    rfl
  rw [hafter]
  by_cases hprinted : b.printed port value = []
  · rw [if_pos hprinted]
    refine ⟨honeWay, hstate.trans ?_⟩
    have htakes : printerTakes (b, .host (.writeIo port value)) = false := by
      rw [printerTakes, printedBy, hprinted]
      rfl
    unfold mailboxesAfter keyOnPort keyArrives keyTaken keyEnable printerEnable
    dsimp only
    rw [hmode, hop, hreads, hwrites, htakes]
    cases Op.isModeSet (.write (registerOf port) value) with
    | true => simp [typed]
    | false =>
      have hflags : (b.printerKeyboard.obfAHigh
          && !(register (registerOf port) == 0 && b.printerKeyboard.strobedOutputA)) =
          (!(register (registerOf port) == 0 && b.printerKeyboard.strobedOutputA)
            && b.printerKeyboard.obfAHigh) := Bool.and_comm ..
      have htaken : (b.printerKeyboard.outputAAcknowledged && !(register (registerOf port) == 0)) =
          (!(register (registerOf port) == 0) && b.printerKeyboard.outputAAcknowledged) :=
        Bool.and_comm ..
      rw [hflags, htaken]
      by_cases hgroup : b.printerKeyboard.groupBMode = .mode1 <;>
        cases b.printerKeyboard.strobedOutputA <;> cases b.printerKeyboard.strobedInputB <;>
          simp [hgroup, typed, mailboxState]
  · obtain ⟨hreg, hstrobed⟩ := printed_strobed hprinted
    have hmode' : Op.isModeSet (.write (registerOf port) value) = false := by
      rw [Op.isModeSet, hreg]
      rfl
    have hbit : ∀ bit, Op.setsBit bit (.write (registerOf port) value) = none := fun bit =>
      if_neg fun hset => by rw [hreg] at hset; cases hset.1
    have hstrobed' : (b.printerKeyboard.write (registerOf port) value).strobedOutputA = true := by
      rw [write_eq, if_pos hreg, if_pos hstrobed]
      exact hstrobed
    have htakes : printerTakes (b, .host (.writeIo port value)) = true := by
      rw [printerTakes, printedBy, Bool.not_eq_true', List.isEmpty_eq_false_iff]
      exact hprinted
    rw [if_neg hprinted]
    refine ⟨honeWay.pulseAckA hstrobed', ?_⟩
    rw [pulseAckA_mailbox honeWay hstrobed', hstate]
    unfold mailboxesAfter keyOnPort keyArrives keyTaken keyEnable printerEnable
    dsimp only
    rw [hmode, hop, hreads, hwrites, htakes, hmode']
    simp only [Option.bind_some, hbit]
    by_cases hgroup : b.printerKeyboard.groupBMode = .mode1 <;>
      cases b.printerKeyboard.strobedInputB <;> simp [hgroup, hstrobed, typed, mailboxState]

theorem act_mailboxes (h : b.printerKeyboard.OneWay) (a : Action) :
    (b.act a).printerKeyboard.OneWay ∧
      (b.act a).printerKeyboard.mailboxState = mailboxesAfter (b, a) := by
  rw [act_printerKeyboard]
  cases a with
  | advance cpuCycles => exact strobes_mailboxes h rfl rfl rfl
  | reset =>
    refine ⟨oneWay_reset _ _, ?_⟩
    simp [mailboxesAfter, keyOnPort, keyArrives, keyTaken, keyEnable, printerTakes, printerEnable,
      setsMode, typed, printedBy]
    rfl
  | host op =>
    cases op with
    | setPrinterOnline online =>
      obtain ⟨-, hstate⟩ := @strobes_mailboxes b h (.host (.setPrinterOnline online)) rfl rfl rfl
      exact ⟨h.setPortCInput _, hstate⟩
    | readIo port =>
      by_cases hport : ioGroup port = 0
      · exact readIo_mailboxes h hport
      · have hop : portOp (.host (.readIo port)) = none := if_neg hport
        obtain ⟨hmode, hafter⟩ := @portAfter_none b _ hop nofun
        rw [hafter]
        exact strobes_mailboxes h hmode hop rfl
    | writeIo port value =>
      by_cases hport : ioGroup port = 0
      · exact writeIo_mailboxes h hport value
      · have hop : portOp (.host (.writeIo port value)) = none := if_neg hport
        obtain ⟨hmode, hafter⟩ := @portAfter_none b _ hop nofun
        rw [hafter]
        exact strobes_mailboxes h hmode hop (if_neg fun h => hport h.1)
    | _ => exact strobes_mailboxes h rfl rfl rfl

theorem power_oneWay (bootRom : List Byte) : (power bootRom).printerKeyboard.OneWay ∧
    (power bootRom).printerKeyboard.mailboxState = {} ∧ (power bootRom).printerBytes = [] := by
  have hport : (power bootRom).printerKeyboard = _ :=
    act_printerKeyboard (setRomImage {} bootRom).2 .reset
  rw [hport]
  refine ⟨oneWay_reset _ _, rfl, ?_⟩
  have hbytes : (power bootRom).printerBytes = (setRomImage {} bootRom).2.printerBytes :=
    congrArg SystemSide.printerBytes (act_systemSide (setRomImage {} bootRom).2 .reset)
  rw [hbytes, setRomImage]
  split <;> rfl

theorem Reachable.oneWay (h : b.Reachable) : b.printerKeyboard.OneWay := by
  obtain ⟨bootRom, h⟩ := h
  exact h.invariant (I := fun v => v.printerKeyboard.OneWay) (power_oneWay bootRom).1
    fun _ a hv => (act_mailboxes hv a).1

/-! ## The printer -/

/-- The bytes the host gets. -/
def takenBy : Board × Action → List Byte
  | (b, .host .takePrinterByte) => b.printerBytes.head?.toList
  | _ => []

theorem act_printerBytes (b : Board) (a : Action) :
    b.printerBytes ++ printedBy (b, a) = takenBy (b, a) ++ (b.act a).printerBytes := by
  have hview : (b.act a).printerBytes = (b.systemAfter a).printerBytes :=
    congrArg SystemSide.printerBytes (act_systemSide b a)
  rw [hview]
  cases a with
  | advance | reset => exact List.append_nil _
  | host op =>
    cases op with
    | writeIo port value => rfl
    | takePrinterByte =>
      show b.printerBytes ++ [] = b.printerBytes.head?.toList ++ b.printerBytes.tail
      cases b.printerBytes <;> simp
    | writeMemory address value =>
      simp only [systemAfter, writeMemory, printedBy, takenBy, List.append_nil, List.nil_append]
      repeat' split
      all_goals rfl
    | setRomImage image =>
      simp only [systemAfter, setRomImage, printedBy, takenBy, List.append_nil, List.nil_append]
      split <;> rfl
    | _ => exact List.append_nil _

/-- A write that the printer leaves in port A. -/
def printerLeaves (entry : Board × Action) : Bool :=
  writesPrinter entry.2 && entry.1.printerKeyboard.strobedOutputA && !printerTakes entry

theorem writesPrinter_mode {a : Action} (h : writesPrinter a = true) : setsMode a = false := by
  have hop : ∃ registerIndex value, portOp a = some (.write registerIndex value) ∧
      register registerIndex = 0 := by
    unfold writesPrinter at h
    split at h
    next registerIndex value hop => exact ⟨registerIndex, value, hop, by simpa using h⟩
    next => cases h
  obtain ⟨registerIndex, value, hop, hreg⟩ := hop
  cases a with
  | host op =>
    show (portOp (.host op)).any Op.isModeSet = false
    rw [hop, Option.any_some, Op.isModeSet, hreg]
    rfl
  | _ => cases hop

/-- Over every run the host gets the bytes that software has written to port A in strobed output while
the printer was online, in order; none is lost or doubled, whatever is reset. I0 is requested exactly if
the printer has taken the last byte written since the mode was set and the interrupt of port A is
enabled, and port A is full exactly if the last one was left there. -/
theorem printed_in_order (bootRom : List Byte) (actions : List Action) :
    let b := Run.run act (power bootRom) actions
    let history := Run.record act (power bootRom) actions
    history.flatMap takenBy ++ b.printerBytes = history.flatMap printedBy ∧
      (b.interrupts.inputs 0 = true ↔ Run.last printerEnable false history = true ∧
        Run.Since (fun entry => printerTakes entry = true)
          (fun entry => (setsMode entry.2 || writesPrinter entry.2) = true) history) ∧
      (b.printerKeyboard.obfAHigh = false ↔
        Run.Since (fun entry => printerLeaves entry = true)
          (fun entry => (setsMode entry.2 || printerTakes entry) = true) history) := by
  intro b history
  have hreachable : b.Reachable := ⟨bootRom, actions, rfl⟩
  obtain ⟨hpower, hstate, hbytes⟩ := power_oneWay bootRom
  have hkeep : ∀ (v : Board) (a : Action), v.printerKeyboard.OneWay →
      (v.act a).printerKeyboard.OneWay := fun v a hv => (act_mailboxes hv a).1
  have hqueue := Run.queue_of_record (I := fun _ => True) (s := power bootRom)
    (fun v : Board => v.printerBytes) (fun _ _ _ => trivial)
    (fun v a _ (_ : True) => act_printerBytes v a) trivial actions fun _ _ => trivial
  rw [hbytes, List.nil_append] at hqueue
  have htaken₀ : (power bootRom).printerKeyboard.outputAAcknowledged = false :=
    congrArg Mailboxes.takenA hstate
  have hfree₀ : (power bootRom).printerKeyboard.obfAHigh = true := congrArg Mailboxes.freeA hstate
  have henabled₀ : (power bootRom).printerKeyboard.inteAOutput = false :=
    congrArg Mailboxes.enabledA hstate
  have htaken := Run.clear_flag_of_record (I := fun v : Board => v.printerKeyboard.OneWay)
    (P := fun entry => printerTakes entry = true)
    (Q := fun entry => (setsMode entry.2 || writesPrinter entry.2) = true)
    (fun v : Board => v.printerKeyboard.outputAAcknowledged = true) hkeep
    (fun v a hv => by
      rw [show (v.act a).printerKeyboard.outputAAcknowledged = _ from
        congrArg Mailboxes.takenA (act_mailboxes hv a).2, mailboxesAfter]
      simp) hpower (Bool.eq_false_iff.mp htaken₀) actions
  have henabled := Run.register_of_record (I := fun v : Board => v.printerKeyboard.OneWay)
    (fun v : Board => v.printerKeyboard.inteAOutput) printerEnable hkeep
    (fun v a hv => congrArg Mailboxes.enabledA (act_mailboxes hv a).2) hpower actions
  have hfull := Run.clear_flag_of_record (I := fun v : Board => v.printerKeyboard.OneWay)
    (P := fun entry => printerLeaves entry = true)
    (Q := fun entry => (setsMode entry.2 || printerTakes entry) = true)
    (fun v : Board => v.printerKeyboard.obfAHigh = false) hkeep
    (fun v a hv => by
      rw [show (v.act a).printerKeyboard.obfAHigh = _ from
        congrArg Mailboxes.freeA (act_mailboxes hv a).2, mailboxesAfter, printerLeaves]
      have hapart := @writesPrinter_mode a
      revert hapart
      cases writesPrinter a <;> cases setsMode a <;> cases printerTakes (v, a) <;>
        cases v.printerKeyboard.strobedOutputA <;> simp) hpower (ne_false_of_eq_true hfree₀)
    actions
  refine ⟨hqueue.symm, ?_, ?_⟩
  · have hrequest : b.interrupts.inputs 0 = b.printerKeyboard.intrA := by
      rw [hreachable.coherent.inputs]
      rfl
    rw [hrequest, hreachable.oneWay.intrA, Bool.and_eq_true]
    rw [henabled₀] at henabled
    exact and_congr (by rw [← henabled]) htaken
  · exact hfull

/-! ## The keyboard -/

theorem readIo_key (h : b.printerKeyboard.strobedInputB = true) {port : Word}
    (hport : ioGroup port = 0) (hreg : register (registerOf port) = 1) :
    (b.readIo port).1 = b.printerKeyboard.portBInputLatch := by
  have hread : (b.printerKeyboard.read (registerOf port)).1 = b.printerKeyboard.portBInputLatch := by
    rw [read_eq, if_neg (by rw [hreg]; decide), if_pos hreg, readPortB, if_pos h]
  unfold readIo
  simp only [hport]
  exact hread

/-- Over every run software in strobed input reads from port B the complement of the last code the
keyboard has sent since the mode was set, and I1 is requested exactly if a code has arrived that it has
not read since and the interrupt of port B is enabled. -/
theorem keys_arrive (bootRom : List Byte) (actions : List Action) :
    let b := Run.run act (power bootRom) actions
    let history := Run.record act (power bootRom) actions
    (b.interrupts.inputs 1 = true ↔ Run.last keyEnable false history = true ∧
      Run.Since (fun entry => keyArrives entry = true) (fun entry => keyTaken entry.2 = true) history) ∧
      ∀ port : Word, ioGroup port = 0 → register (registerOf port) = 1 →
        b.printerKeyboard.strobedInputB = true →
        (b.readIo port).1 = Run.last keyOnPort 0#8 history := by
  intro b history
  have hreachable : b.Reachable := ⟨bootRom, actions, rfl⟩
  obtain ⟨hpower, hstate, -⟩ := power_oneWay bootRom
  have hkeep : ∀ (v : Board) (a : Action), v.printerKeyboard.OneWay →
      (v.act a).printerKeyboard.OneWay := fun v a hv => (act_mailboxes hv a).1
  have hempty₀ : (power bootRom).printerKeyboard.ibfB = false := congrArg Mailboxes.fullB hstate
  have hfull := Run.clear_flag_of_record (I := fun v : Board => v.printerKeyboard.OneWay)
    (P := fun entry => keyArrives entry = true) (Q := fun entry => keyTaken entry.2 = true)
    (fun v : Board => v.printerKeyboard.ibfB = true) hkeep
    (fun v a hv => by
      rw [show (v.act a).printerKeyboard.ibfB = _ from
        congrArg Mailboxes.fullB (act_mailboxes hv a).2, mailboxesAfter]
      simp) hpower (Bool.eq_false_iff.mp hempty₀) actions
  have henabled := Run.register_of_record (I := fun v : Board => v.printerKeyboard.OneWay)
    (fun v : Board => v.printerKeyboard.inteB) keyEnable hkeep
    (fun v a hv => congrArg Mailboxes.enabledB (act_mailboxes hv a).2) hpower actions
  have hlatch := Run.register_of_record (I := fun v : Board => v.printerKeyboard.OneWay)
    (fun v : Board => v.printerKeyboard.portBInputLatch) keyOnPort hkeep
    (fun v a hv => congrArg Mailboxes.latchB (act_mailboxes hv a).2) hpower actions
  have henabled₀ : (power bootRom).printerKeyboard.inteB = false := congrArg Mailboxes.enabledB hstate
  have hlatch₀ : (power bootRom).printerKeyboard.portBInputLatch = 0#8 :=
    congrArg Mailboxes.latchB hstate
  refine ⟨?_, fun port hport hreg hin => ?_⟩
  · have hrequest : b.interrupts.inputs 1 = b.printerKeyboard.intrB := by
      rw [hreachable.coherent.inputs]
      rfl
    rw [hrequest, hreachable.oneWay.intrB, Bool.and_eq_true]
    rw [henabled₀] at henabled
    exact and_congr (by rw [← henabled]) hfull
  · rw [readIo_key hin hport hreg, ← hlatch₀]
    exact hlatch

/-- The codes software gets: the complement of what it reads while one waits. -/
def keyRead : Board × Action → List Byte
  | (b, .host (.readIo port)) =>
    if readsKey (.host (.readIo port)) && b.printerKeyboard.ibfB then [~~~(b.readIo port).1] else []
  | _ => []

/-- The code that waits. -/
def keyWaiting (b : Board) : List Byte :=
  if b.printerKeyboard.ibfB then [~~~b.printerKeyboard.portBInputLatch] else []

/-- A code that comes while another waits, or in another mode, or a waiting one that goes with its mode. -/
def keyLost (entry : Board × Action) : Bool :=
  (!(typed entry).isEmpty && !(entry.1.printerKeyboard.strobedInputB && !entry.1.printerKeyboard.ibfB
      && (typed entry).length == 1))
    || (setsMode entry.2 && entry.1.printerKeyboard.ibfB)

theorem readsKey_port {a : Action} (h : readsKey a = true) :
    ∃ port, a = .host (.readIo port) ∧ ioGroup port = 0 ∧ register (registerOf port) = 1 := by
  unfold readsKey at h
  split at h
  next registerIndex hop =>
    cases a with
    | host op =>
      cases op with
      | readIo port =>
        unfold portOp at hop
        dsimp only at hop
        split at hop
        next hport =>
          cases hop
          exact ⟨port, rfl, hport, by simpa using h⟩
        next => cases hop
      | writeIo port value =>
        unfold portOp at hop
        dsimp only at hop
        split at hop <;> cases hop
      | _ => cases hop
    | _ => cases hop
  next => cases h

theorem keyRead_none {a : Action} (h : readsKey a = false ∨ b.printerKeyboard.ibfB = false) :
    keyRead (b, a) = [] := by
  unfold keyRead
  split
  next port heq =>
    cases heq
    rcases h with h | h <;> simp [h]
  next => rfl

theorem typed_access {a : Action} (h : typed (b, a) ≠ []) : portOp a = none ∧ setsMode a = false := by
  cases a with
  | advance => exact ⟨rfl, rfl⟩
  | reset => exact absurd rfl h
  | host op =>
    cases op with
    | keyboardKeyDown => exact ⟨rfl, rfl⟩
    | _ => exact absurd rfl h

theorem act_keys (h : b.printerKeyboard.OneWay) {a : Action} (hkept : keyLost (b, a) = false) :
    keyWaiting b ++ typed (b, a) = keyRead (b, a) ++ keyWaiting (b.act a) := by
  have hfull : (b.act a).printerKeyboard.ibfB = _ := congrArg Mailboxes.fullB (act_mailboxes h a).2
  have hlatch : (b.act a).printerKeyboard.portBInputLatch = _ :=
    congrArg Mailboxes.latchB (act_mailboxes h a).2
  simp only [keyLost, Bool.or_eq_false_iff] at hkept
  obtain ⟨hsent, hmode⟩ := hkept
  unfold keyWaiting
  rw [hfull, hlatch]
  simp only [mailboxesAfter, keyArrives, keyTaken, keyOnPort]
  by_cases htyped : typed (b, a) = []
  · rw [htyped]
    cases hwaits : b.printerKeyboard.ibfB with
    | false =>
      rw [keyRead_none (.inr hwaits)]
      simp
    | true =>
      rw [hwaits, Bool.and_true] at hmode
      rw [hmode]
      cases hreads : readsKey a with
      | false =>
        rw [keyRead_none (.inl hreads)]
        cases b.printerKeyboard.strobedInputB <;> simp
      | true =>
        obtain ⟨port, rfl, hport, hreg⟩ := readsKey_port hreads
        have hread : keyRead (b, .host (.readIo port)) = [~~~(b.readIo port).1] :=
          if_pos (by rw [hreads, hwaits]; rfl)
        rw [hread, readIo_key (h.filled hwaits) hport hreg]
        simp
  · -- The keyboard sends one code, and nothing waits.
    obtain ⟨hop, hset⟩ := typed_access htyped
    have hreads : readsKey a = false := by
      unfold readsKey
      rw [hop]
    rw [keyRead_none (.inl hreads)]
    obtain ⟨⟨hin, hempty⟩, hone⟩ : (b.printerKeyboard.strobedInputB = true ∧
        b.printerKeyboard.ibfB = false) ∧ (typed (b, a)).length = 1 := by
      simpa [htyped] using hsent
    obtain ⟨code, hcode⟩ := List.length_eq_one_iff.mp hone
    rw [hcode, hin, hempty, hset]
    simp

/-- When each code is read before the next one comes, and the mode is kept while one waits, software gets
the codes the keyboard has sent, in order; none is lost or doubled. -/
theorem keys_read_in_order (bootRom : List Byte) (actions : List Action)
    (hkept : ∀ entry ∈ Run.record act (power bootRom) actions, keyLost entry = false) :
    let history := Run.record act (power bootRom) actions
    history.flatMap keyRead ++ keyWaiting (Run.run act (power bootRom) actions) =
      history.flatMap typed := by
  intro history
  obtain ⟨hpower, hstate, -⟩ := power_oneWay bootRom
  have hqueue := Run.queue_of_record (I := fun v : Board => v.printerKeyboard.OneWay)
    (s := power bootRom) keyWaiting (fun v a hv => (act_mailboxes hv a).1)
    (fun v a hv hentry => act_keys hv hentry) hpower actions hkept
  have hnone : keyWaiting (power bootRom) = [] := by
    unfold keyWaiting
    rw [show (power bootRom).printerKeyboard.ibfB = false from congrArg Mailboxes.fullB hstate]
    rfl
  rw [hnone, List.nil_append] at hqueue
  exact hqueue.symm

/-- Two keys, each read before the next. -/
theorem keys_read_in_order_two :
    let actions : List Action := [.host (.writeIo 0x03#16 0xA6#8), .host (.keyboardKeyDown 4 0x41#8),
      .host (.readIo 0x01#16), .host (.keyboardKeyDown 5 0x42#8), .host (.readIo 0x01#16)]
    (Run.record act (power []) actions).flatMap keyRead ++ keyWaiting (Run.run act (power []) actions) =
      [0x41#8, 0x42#8] := by
  intro actions
  exact (keys_read_in_order [] actions (by decide +kernel)).trans (by decide +kernel)

end Board
end FK1
