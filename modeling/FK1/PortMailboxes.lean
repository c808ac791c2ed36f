import FK1.Ppi8255
import FK1.Lib.Run

/-!
# FK1.PortMailboxes

The 8255 with group A in mode 1 output and group B in mode 1 input: two mailboxes. The guest writes port
A and the device acknowledges; the device strobes port B and the guest reads. The handshake lines, the
interrupts and the byte of port B are what the history of operations says, and neither group disturbs the
other.
-/

namespace FK1

open Run

namespace Ppi8255

/-! ## Operations -/

inductive Op where
  | read (registerIndex : Byte)
  | write (registerIndex value : Byte)
  | setPortAInput (value : Byte)
  | setPortBInput (value : Byte)
  | setPortCInput (value : Byte)
  | pulseStrobeA (value : Byte)
  | pulseStrobeB (value : Byte)
  | pulseAckA
  | pulseAckB
  deriving DecidableEq, Repr

def apply (p : Ppi8255) : Op → Ppi8255
  | .read registerIndex => (p.read registerIndex).2
  | .write registerIndex value => p.write registerIndex value
  | .setPortAInput value => p.setPortAInput value
  | .setPortBInput value => p.setPortBInput value
  | .setPortCInput value => p.setPortCInput value
  | .pulseStrobeA value => p.pulseStrobeA value
  | .pulseStrobeB value => p.pulseStrobeB value
  | .pulseAckA => p.pulseAckA
  | .pulseAckB => p.pulseAckB

/-- Register 0 to 3 of the two low address bits. -/
def register (registerIndex : Byte) : Nat := (registerIndex &&& 0x03#8).toNat

theorem register_cases (registerIndex : Byte) :
    register registerIndex = 0 ∨ register registerIndex = 1 ∨ register registerIndex = 2 ∨
      register registerIndex = 3 := by
  have hle : register registerIndex ≤ 3 := by
    rw [register, BitVec.toNat_and]
    exact Nat.and_le_right
  omega

/-- The bit that a bit set/reset word names. -/
def bitOf (value : Byte) : Nat := ((value >>> 1) &&& 0x07#8).toNat

namespace Op

def writesA : Op → Prop
  | .write registerIndex _ => register registerIndex = 0
  | _ => False

def readsB : Op → Prop
  | .read registerIndex => register registerIndex = 1
  | _ => False

def acksA : Op → Prop
  | .pulseAckA => True
  | _ => False

/-- The byte that a strobe of port B brings. -/
def strobedB : Op → Option Byte
  | .pulseStrobeB value => some value
  | _ => none

/-- The level to which the operation sets or resets bit `bit`. -/
def setsBit (bit : Nat) : Op → Option Bool
  | .write registerIndex value =>
    if register registerIndex = 3 ∧ hasBits value 0x80#8 = false ∧ bitOf value = bit then
      some (hasBits value 0x01#8)
    else none
  | _ => none

def isModeSet : Op → Bool
  | .write registerIndex value => register registerIndex == 3 && hasBits value 0x80#8
  | _ => false

end Op

/-! ## The mode -/

/-- A mode word for strobed output on port A and strobed input on port B. -/
structure MailboxWord (word : Byte) : Prop where
  modeSet : hasBits word 0x80#8 = true
  notMode2 : hasBits word 0x40#8 = false
  mode1A : hasBits word 0x20#8 = true
  outputA : hasBits word 0x10#8 = false
  mode1B : hasBits word 0x04#8 = true
  inputB : hasBits word 0x02#8 = true

structure InMode (p : Ppi8255) : Prop where
  modeA : p.groupAMode = .mode1
  outputA : p.portAInputMode = false
  modeB : p.groupBMode = .mode1
  inputB : p.portBInputMode = true
  strobeA : p.strobeAHigh = true
  strobeB : p.strobeBHigh = true
  ackA : p.ackAHigh = true
  ackB : p.ackBHigh = true
  acked : p.outputAAcknowledged = true → p.obfAHigh = true
  intrA : p.intrA = (p.inteAOutput && p.outputAAcknowledged)
  intrB : p.intrB = (p.inteB && p.ibfB)

namespace InMode

variable {p : Ppi8255}

theorem strobedInputA (h : p.InMode) : p.strobedInputA = false := by
  simp [Ppi8255.strobedInputA, h.modeA, h.outputA]

theorem strobedOutputA (h : p.InMode) : p.strobedOutputA = true := by
  simp [Ppi8255.strobedOutputA, h.modeA, h.outputA]

theorem strobedInputB (h : p.InMode) : p.strobedInputB = true := by
  simp [Ppi8255.strobedInputB, h.modeB, h.inputB]

theorem strobedOutputB (h : p.InMode) : p.strobedOutputB = false := by
  simp [Ppi8255.strobedOutputB, h.modeB, h.inputB]

end InMode

/-- What an operation does in this mode, apart from the interrupt outputs. -/
def effect (p : Ppi8255) : Op → Ppi8255
  | .read registerIndex => if register registerIndex = 1 then { p with ibfB := false } else p
  | .write registerIndex value =>
    if register registerIndex = 0 then
      { p with portAOutput := value, obfAHigh := false, outputAAcknowledged := false }
    else if register registerIndex = 1 then { p with portBOutput := value }
    else if register registerIndex = 2 then { p with portCOutput := value }
    else if bitOf value = 6 then { p with inteAOutput := hasBits value 0x01#8 }
    else if bitOf value = 2 then { p with inteB := hasBits value 0x01#8 }
    else if hasBits value 0x01#8 then { p with portCOutput := p.portCOutput ||| bitMask (bitOf value) }
    else { p with portCOutput := p.portCOutput &&& ~~~(bitMask (bitOf value)) }
  | .setPortAInput value => { p with portAInput := value }
  | .setPortBInput value => { p with portBInput := value }
  | .setPortCInput value => { p with portCInput := value }
  | .pulseStrobeA value => { p with portAInput := value }
  | .pulseStrobeB value => { p with portBInput := value, portBInputLatch := value, ibfB := true }
  | .pulseAckA => { p with obfAHigh := true, outputAAcknowledged := true }
  | .pulseAckB => { p with outputBAcknowledged := true }

theorem and_acked {enabled acked free : Bool} (h : acked = true → free = true) :
    (enabled && acked && free) = (enabled && acked) := by
  cases acked with
  | false => simp
  | true => simp [h rfl]

namespace InMode

variable {p : Ppi8255}

theorem updated (h : p.InMode) : p.updateInterrupts = p := by
  have hA : (p.strobedInputA && p.inteAInput && p.ibfA && p.strobeAHigh ||
      p.strobedOutputA && p.inteAOutput && p.outputAAcknowledged && p.obfAHigh && p.ackAHigh) =
      p.intrA := by
    simp [h.strobedInputA, h.strobedOutputA, h.ackA, h.intrA, and_acked h.acked]
  have hB : (if p.groupBMode != .mode1 then false
      else if p.portBInputMode then p.inteB && p.ibfB && p.strobeBHigh
      else p.inteB && p.outputBAcknowledged && p.obfBHigh && p.ackBHigh) = p.intrB := by
    rw [h.modeB, h.inputB, h.strobeB, h.intrB]
    simp
  rw [updateInterrupts, hA, hB]

/-- The interrupt outputs follow from the rest. -/
theorem of_effect (h : p.InMode) (op : Op) : (p.effect op).updateInterrupts.InMode := by
  have hsame : (p.effect op).groupAMode = p.groupAMode ∧
      (p.effect op).portAInputMode = p.portAInputMode ∧
      (p.effect op).groupBMode = p.groupBMode ∧ (p.effect op).portBInputMode = p.portBInputMode ∧
      (p.effect op).strobeAHigh = p.strobeAHigh ∧ (p.effect op).strobeBHigh = p.strobeBHigh ∧
      (p.effect op).ackAHigh = p.ackAHigh ∧ (p.effect op).ackBHigh = p.ackBHigh := by
    unfold effect
    split
    all_goals
      repeat' split
      all_goals exact ⟨rfl, rfl, rfl, rfl, rfl, rfl, rfl, rfl⟩
  have hacked : (p.effect op).outputAAcknowledged = true → (p.effect op).obfAHigh = true := by
    have hbefore := h.acked
    unfold effect
    split
    all_goals
      repeat' split
      all_goals first | exact hbefore | simp
  obtain ⟨hmodeA, houtputA, hmodeB, hinputB, hstrobeA, hstrobeB, hackA, hackB⟩ := hsame
  rw [h.modeA] at hmodeA
  rw [h.outputA] at houtputA
  rw [h.modeB] at hmodeB
  rw [h.inputB] at hinputB
  rw [h.strobeA] at hstrobeA
  rw [h.strobeB] at hstrobeB
  rw [h.ackA] at hackA
  rw [h.ackB] at hackB
  refine ⟨hmodeA, houtputA, hmodeB, hinputB, hstrobeA, hstrobeB, hackA, hackB, hacked, ?_, ?_⟩
  · have hinput : (p.effect op).strobedInputA = false := by
      simp [Ppi8255.strobedInputA, hmodeA, houtputA]
    have houtput : (p.effect op).strobedOutputA = true := by
      simp [Ppi8255.strobedOutputA, hmodeA, houtputA]
    simp [updateInterrupts, hinput, houtput, hackA, and_acked hacked]
  · simp [updateInterrupts, hmodeB, hinputB, hstrobeB]

theorem apply_eq (h : p.InMode) {op : Op} (hop : op.isModeSet = false) :
    p.apply op = (p.effect op).updateInterrupts := by
  cases op with
  | read registerIndex =>
    show (p.read registerIndex).2 = _
    by_cases hregister : register registerIndex = 1
    · have hread : p.read registerIndex = p.readPortB := by
        simp only [Ppi8255.read, show (registerIndex &&& 0x03#8).toNat = 1 from hregister]
      rw [hread, readPortB, if_pos h.strobedInputB, effect, if_pos hregister]
      rfl
    · have hidle : (p.read registerIndex).2 = p := by
        unfold Ppi8255.read readPortA
        split
        · simp [h.strobedInputA]
        · exact absurd ‹_› hregister
        · rfl
        · rfl
      rw [hidle, effect, if_neg hregister, h.updated]
  | write registerIndex value =>
    show p.write registerIndex value = _
    obtain hr | hr | hr | hr := register_cases registerIndex
    · simp only [Ppi8255.write, effect, show (registerIndex &&& 0x03#8).toNat = 0 from hr, hr, if_true]
      rw [if_pos (by exact h.strobedOutputA)]
      rfl
    · simp only [Ppi8255.write, effect, show (registerIndex &&& 0x03#8).toNat = 1 from hr, hr, if_true]
      rw [if_neg (by rw [Bool.not_eq_true]; exact h.strobedOutputB)]
      rfl
    · simp only [Ppi8255.write, effect, show (registerIndex &&& 0x03#8).toNat = 2 from hr, hr]
      rfl
    · have hbsr : hasBits value 0x80#8 = false := by simpa [Op.isModeSet, hr] using hop
      have heffect : p.effect (.write registerIndex value) = p.bitSetReset value := by
        simp [effect, bitSetReset, hr, bitOf, h.strobedInputA, h.strobedOutputA, h.modeB]
      simp only [Ppi8255.write, show (registerIndex &&& 0x03#8).toNat = 3 from hr, hbsr, heffect,
        Bool.false_eq_true, if_false]
  | setPortAInput value => exact congrArg (·.setPortAInput value) h.updated.symm
  | setPortBInput value => exact congrArg (·.setPortBInput value) h.updated.symm
  | setPortCInput value => exact congrArg (·.setPortCInput value) h.updated.symm
  | pulseStrobeA value =>
    -- Port A is an output: the strobe line moves and nothing is latched.
    show ((p.setPortAInput value).setStrobeA false).setStrobeA true = _
    simp [setStrobeA, setPortAInput, effect, updateInterrupts, Ppi8255.strobedInputA,
      Ppi8255.strobedOutputA, h.modeA, h.outputA, h.strobeA]
  | pulseStrobeB value =>
    show p.pulseStrobeB value = _
    rw [pulseStrobeB_eq h.strobeB, h.strobedInputB, Bool.or_true]
    rfl
  | pulseAckA =>
    show p.pulseAckA = _
    rw [pulseAckA_eq h.ackA, h.strobedOutputA, Bool.or_true]
    rfl
  | pulseAckB =>
    show (p.setAckB false).setAckB true = _
    simp [setAckB, effect, updateInterrupts, Ppi8255.strobedInputA, Ppi8255.strobedOutputA,
      Ppi8255.strobedOutputB, h.modeB, h.inputB, h.ackB]

theorem apply (h : p.InMode) {op : Op} (hop : op.isModeSet = false) : (p.apply op).InMode := by
  rw [h.apply_eq hop]
  exact h.of_effect op

theorem apply_ibfB (h : p.InMode) {op : Op} (hop : op.isModeSet = false) :
    (p.apply op).ibfB = true ↔ op.strobedB.isSome = true ∨ (¬op.readsB ∧ p.ibfB = true) := by
  rw [h.apply_eq hop]
  show (p.effect op).ibfB = true ↔ _
  unfold effect
  cases op <;> dsimp only [Op.strobedB, Op.readsB] <;> (repeat' split) <;> simp_all

/-- BSR sets the enables, each on a bit of its own. -/
theorem apply_inte (h : p.InMode) {op : Op} (hop : op.isModeSet = false) :
    (p.apply op).inteB = (op.setsBit 2).getD p.inteB ∧
      (p.apply op).inteAOutput = (op.setsBit 6).getD p.inteAOutput := by
  rw [h.apply_eq hop]
  show (p.effect op).inteB = _ ∧ (p.effect op).inteAOutput = _
  cases op with
  | write registerIndex value =>
    obtain hr | hr | hr | hr := register_cases registerIndex
    · simp [effect, Op.setsBit, hr]
    · simp [effect, Op.setsBit, hr]
    · simp [effect, Op.setsBit, hr]
    · have hbsr : hasBits value 0x80#8 = false := by simpa [Op.isModeSet, hr] using hop
      unfold effect
      repeat' split
      all_goals simp_all [Op.setsBit]
  | read registerIndex =>
    by_cases hr : register registerIndex = 1 <;> simp [effect, Op.setsBit, hr]
  | _ => simp [effect, Op.setsBit]

theorem apply_obfAHigh (h : p.InMode) {op : Op} (hop : op.isModeSet = false) :
    ¬(p.apply op).obfAHigh = true ↔ op.writesA ∨ (¬op.acksA ∧ ¬p.obfAHigh = true) := by
  rw [h.apply_eq hop]
  show ¬(p.effect op).obfAHigh = true ↔ _
  unfold effect
  cases op <;> dsimp only [Op.writesA, Op.acksA] <;> (repeat' split) <;> simp_all

theorem apply_acknowledged (h : p.InMode) {op : Op} (hop : op.isModeSet = false) :
    (p.apply op).outputAAcknowledged = true ↔
      op.acksA ∨ (¬op.writesA ∧ p.outputAAcknowledged = true) := by
  rw [h.apply_eq hop]
  show (p.effect op).outputAAcknowledged = true ↔ _
  unfold effect
  cases op <;> dsimp only [Op.writesA, Op.acksA] <;> (repeat' split) <;> simp_all

theorem apply_latchB (h : p.InMode) {op : Op} (hop : op.isModeSet = false) :
    (p.apply op).portBInputLatch = op.strobedB.getD p.portBInputLatch := by
  rw [h.apply_eq hop]
  show (p.effect op).portBInputLatch = _
  unfold effect
  cases op <;> dsimp only [Op.strobedB] <;> (repeat' split) <;> rfl

end InMode

/-! ## Port C -/

theorem bitMask_getLsbD {bit j : Nat} (hj : j < 8) : (bitMask bit).getLsbD j = decide (j = bit) := by
  rw [bitMask, BitVec.getLsbD_shiftLeft]
  by_cases h : j = bit
  · simp [h]
    omega
  · rcases Nat.lt_or_ge j bit with hlt | hge
    · simp [h, hlt]
    · have hne : j - bit ≠ 0 := by omega
      simp [h, hne, BitVec.getLsbD_one]

theorem setBit_getLsbD (value : Byte) {bit j : Nat} (high : Bool) (hj : j < 8) :
    (setBit value bit high).getLsbD j = if j = bit then high else value.getLsbD j := by
  unfold setBit
  cases high with
  | true =>
    rw [if_pos rfl, BitVec.getLsbD_or, bitMask_getLsbD hj]
    by_cases h : j = bit <;> simp [h]
  | false =>
    rw [if_neg (by decide), BitVec.getLsbD_and, BitVec.getLsbD_not, bitMask_getLsbD hj]
    by_cases h : j = bit <;> simp [h, hj]

namespace InMode

variable {p : Ppi8255}

/-- The handshake bits of port C, and the two that are plain inputs or outputs. -/
theorem readPortC_bits (h : p.InMode) :
    p.readPortC.getLsbD 0 = p.intrB ∧ p.readPortC.getLsbD 1 = p.ibfB ∧
      p.readPortC.getLsbD 2 = true ∧ p.readPortC.getLsbD 3 = p.intrA ∧
      p.readPortC.getLsbD 4 = (if p.portCUpperInput then p.portCInput else p.portCOutput).getLsbD 4 ∧
      p.readPortC.getLsbD 5 = (if p.portCUpperInput then p.portCInput else p.portCOutput).getLsbD 5 ∧
      p.readPortC.getLsbD 6 = true ∧ p.readPortC.getLsbD 7 = p.obfAHigh := by
  have hvalue : p.readPortC =
      setBit (setBit (setBit (setBit (setBit (setBit
        ((if p.portCUpperInput then p.portCInput else p.portCOutput) &&& 0xF0#8 |||
          (if p.portCLowerInput then p.portCInput else p.portCOutput) &&& 0x0F#8)
        7 p.obfAHigh) 6 true) 3 p.intrA) 2 true) 1 p.ibfB) 0 p.intrB := by
    simp [readPortC, h.modeA, h.outputA, h.modeB, h.inputB, h.strobeB, h.ackA]
  have hkept : ∀ {v w : Byte} {j : Nat}, (0xF0#8).getLsbD j = true → (0x0F#8).getLsbD j = false →
      (v &&& 0xF0#8 ||| w &&& 0x0F#8).getLsbD j = v.getLsbD j := by
    intro v w j hupper hlower
    rw [BitVec.getLsbD_or, BitVec.getLsbD_and, BitVec.getLsbD_and, hupper, hlower, Bool.and_true,
      Bool.and_false, Bool.or_false]
  -- bit 0 is set last
  have hbit : ∀ {j : Nat}, j < 8 → p.readPortC.getLsbD j =
      if j = 0 then p.intrB else if j = 1 then p.ibfB else if j = 2 then true
      else if j = 3 then p.intrA else if j = 6 then true else if j = 7 then p.obfAHigh
      else ((if p.portCUpperInput then p.portCInput else p.portCOutput) &&& 0xF0#8 |||
        (if p.portCLowerInput then p.portCInput else p.portCOutput) &&& 0x0F#8).getLsbD j := by
    intro j hj
    rw [hvalue, setBit_getLsbD _ _ hj, setBit_getLsbD _ _ hj, setBit_getLsbD _ _ hj,
      setBit_getLsbD _ _ hj, setBit_getLsbD _ _ hj, setBit_getLsbD _ _ hj]
  exact ⟨hbit (by decide), hbit (by decide), hbit (by decide), hbit (by decide),
    (hbit (by decide)).trans (hkept (by decide) (by decide)),
    (hbit (by decide)).trans (hkept (by decide) (by decide)), hbit (by decide), hbit (by decide)⟩

end InMode

/-! ## The groups -/

/-- What one group shows: the byte of its port, its output latch, its bits of port C and of the port C
latch, and its interrupt. -/
structure GroupView where
  data : Byte
  output : Byte
  lines : List Bool
  latch : List Bool
  interrupt : Bool
  deriving DecidableEq

def groupA (p : Ppi8255) : GroupView where
  data := (p.read 0x00#8).1
  output := p.outputA
  lines := [3, 4, 5, 6, 7].map (p.read 0x02#8).1.getLsbD
  latch := [3, 4, 5, 6, 7].map p.outputC.getLsbD
  interrupt := p.intrA

def groupB (p : Ppi8255) : GroupView where
  data := (p.read 0x01#8).1
  output := p.outputB
  lines := [0, 1, 2].map (p.read 0x02#8).1.getLsbD
  latch := [0, 1, 2].map p.outputC.getLsbD
  interrupt := p.intrB

/-- Operations of group A: port A, its lines, and bits 3 to 7 of port C. -/
def Op.inGroupA : Op → Prop
  | .read registerIndex => register registerIndex = 0
  | .write registerIndex value =>
    register registerIndex = 0 ∨ (register registerIndex = 3 ∧ 3 ≤ bitOf value)
  | .setPortAInput _ => True
  | .pulseStrobeA _ => True
  | .pulseAckA => True
  | _ => False

/-- Operations of group B: port B, its lines, and bits 0 to 2 of port C. -/
def Op.inGroupB : Op → Prop
  | .read registerIndex => register registerIndex = 1
  | .write registerIndex value =>
    register registerIndex = 1 ∨ (register registerIndex = 3 ∧ bitOf value < 3)
  | .setPortBInput _ => True
  | .pulseStrobeB _ => True
  | .pulseAckB => True
  | _ => False

/-- Setting or resetting one bit leaves the others. -/
theorem bitMask_other (value : Byte) {bit j : Nat} (hj : j < 8) (hne : j ≠ bit) :
    (value ||| bitMask bit).getLsbD j = value.getLsbD j ∧
      (value &&& ~~~(bitMask bit)).getLsbD j = value.getLsbD j := by
  rw [BitVec.getLsbD_or, BitVec.getLsbD_and, BitVec.getLsbD_not, bitMask_getLsbD hj]
  simp [hne, hj]

namespace InMode

variable {p q : Ppi8255}

theorem groupB_eq (h : p.InMode) :
    p.groupB =
      { data := p.portBInputLatch
        output := p.portBOutput
        lines := [p.inteB && p.ibfB, p.ibfB, true]
        latch := [0, 1, 2].map p.portCOutput.getLsbD
        interrupt := p.inteB && p.ibfB } := by
  obtain ⟨h0, h1, h2, -⟩ := h.readPortC_bits
  have hread : (p.read 0x01#8).1 = p.portBInputLatch := by
    show p.readPortB.1 = _
    rw [readPortB, if_pos h.strobedInputB]
  have hlines : (p.read 0x02#8).1 = p.readPortC := rfl
  rw [groupB, hread, hlines, List.map_cons, List.map_cons, List.map_cons, List.map_nil, h0, h1, h2,
    h.intrB]
  rfl

theorem groupA_eq (h : p.InMode) :
    p.groupA =
      { data := p.portAOutput
        output := p.portAOutput
        lines := [p.inteAOutput && p.outputAAcknowledged,
          (if p.portCUpperInput then p.portCInput else p.portCOutput).getLsbD 4,
          (if p.portCUpperInput then p.portCInput else p.portCOutput).getLsbD 5, true, p.obfAHigh]
        latch := [3, 4, 5, 6, 7].map p.portCOutput.getLsbD
        interrupt := p.inteAOutput && p.outputAAcknowledged } := by
  obtain ⟨-, -, -, h3, h4, h5, h6, h7⟩ := h.readPortC_bits
  have hread : (p.read 0x00#8).1 = p.portAOutput := by
    show p.readPortA.1 = _
    rw [readPortA, h.strobedInputA, h.outputA]
    rfl
  have hlines : (p.read 0x02#8).1 = p.readPortC := rfl
  rw [groupA, hread, hlines, List.map_cons, List.map_cons, List.map_cons, List.map_cons,
    List.map_cons, List.map_nil, h3, h4, h5, h6, h7, h.intrA]
  rfl

/-- Group A's operations leave all that group B shows. -/
theorem effect_groupA {op : Op} (hop : op.isModeSet = false) (hgroup : op.inGroupA) :
    (p.effect op).portBInputLatch = p.portBInputLatch ∧ (p.effect op).portBOutput = p.portBOutput ∧
      (p.effect op).inteB = p.inteB ∧ (p.effect op).ibfB = p.ibfB ∧
      ∀ j, j < 3 → (p.effect op).portCOutput.getLsbD j = p.portCOutput.getLsbD j := by
  cases op with
  | read registerIndex =>
    have hr : register registerIndex = 0 := hgroup
    simp [effect, hr]
  | write registerIndex value =>
    obtain hr | ⟨hr, hbit⟩ := hgroup
    · simp [effect, hr]
    · have htwo : bitOf value ≠ 2 := by omega
      have hother (j : Nat) (hj : j < 3) :=
        bitMask_other p.portCOutput (by omega : j < 8) (by omega : j ≠ bitOf value)
      simp only [effect, hr, htwo, if_false, Nat.reduceEqDiff]
      split
      · exact ⟨rfl, rfl, rfl, rfl, fun j hj => rfl⟩
      · split
        · exact ⟨rfl, rfl, rfl, rfl, fun j hj => (hother j hj).1⟩
        · exact ⟨rfl, rfl, rfl, rfl, fun j hj => (hother j hj).2⟩
  | setPortAInput value => simp [effect]
  | pulseStrobeA value => simp [effect]
  | pulseAckA => simp [effect]
  | _ => cases hgroup

/-- Group B's operations leave all that group A shows. -/
theorem effect_groupB {op : Op} (hop : op.isModeSet = false) (hgroup : op.inGroupB) :
    (p.effect op).portAOutput = p.portAOutput ∧ (p.effect op).inteAOutput = p.inteAOutput ∧
      (p.effect op).outputAAcknowledged = p.outputAAcknowledged ∧
      (p.effect op).obfAHigh = p.obfAHigh ∧ (p.effect op).portCUpperInput = p.portCUpperInput ∧
      (p.effect op).portCInput = p.portCInput ∧
      ∀ j, j < 8 → 3 ≤ j → (p.effect op).portCOutput.getLsbD j = p.portCOutput.getLsbD j := by
  cases op with
  | read registerIndex =>
    have hr : register registerIndex = 1 := hgroup
    simp [effect, hr]
  | write registerIndex value =>
    obtain hr | ⟨hr, hbit⟩ := hgroup
    · simp [effect, hr]
    · have hsix : bitOf value ≠ 6 := by omega
      have hother (j : Nat) (hj : j < 8) (hge : 3 ≤ j) :=
        bitMask_other p.portCOutput hj (by omega : j ≠ bitOf value)
      simp only [effect, hr, hsix, if_false, Nat.reduceEqDiff]
      split
      · exact ⟨rfl, rfl, rfl, rfl, rfl, rfl, fun j hj hge => rfl⟩
      · split
        · exact ⟨rfl, rfl, rfl, rfl, rfl, rfl, fun j hj hge => (hother j hj hge).1⟩
        · exact ⟨rfl, rfl, rfl, rfl, rfl, rfl, fun j hj hge => (hother j hj hge).2⟩
  | setPortBInput value => simp [effect]
  | pulseStrobeB value => simp [effect]
  | pulseAckB => simp [effect]
  | _ => cases hgroup

theorem groupA_keeps_groupB (h : p.InMode) {op : Op} (hop : op.isModeSet = false)
    (hgroup : op.inGroupA) : (p.apply op).groupB = p.groupB := by
  obtain ⟨hlatch, houtput, hinte, hibf, hbits⟩ := effect_groupA (p := p) hop hgroup
  rw [(h.apply hop).groupB_eq, h.groupB_eq, h.apply_eq hop]
  simp only [updateInterrupts, hlatch, houtput, hinte, hibf, List.map_cons, List.map_nil,
    hbits 0 (by decide), hbits 1 (by decide), hbits 2 (by decide)]

theorem groupB_keeps_groupA (h : p.InMode) {op : Op} (hop : op.isModeSet = false)
    (hgroup : op.inGroupB) : (p.apply op).groupA = p.groupA := by
  obtain ⟨houtput, hinte, hack, hobf, hupper, hinput, hbits⟩ := effect_groupB (p := p) hop hgroup
  rw [(h.apply hop).groupA_eq, h.groupA_eq, h.apply_eq hop]
  have hline : ∀ j, j < 8 → 3 ≤ j →
      (if p.portCUpperInput then p.portCInput else (p.effect op).portCOutput).getLsbD j =
        (if p.portCUpperInput then p.portCInput else p.portCOutput).getLsbD j := by
    intro j hj hge
    split
    · rfl
    · exact hbits j hj hge
  simp only [updateInterrupts, houtput, hinte, hack, hobf, hupper, hinput, List.map_cons,
    List.map_nil, hline 4 (by decide) (by decide), hline 5 (by decide) (by decide),
    hbits 3 (by decide) (by decide), hbits 4 (by decide) (by decide),
    hbits 5 (by decide) (by decide), hbits 6 (by decide) (by decide), hbits 7 (by decide) (by decide)]

end InMode

/-! ## The mailboxes -/

theorem MailboxWord.inMode {word : Byte} (h : MailboxWord word) (p : Ppi8255) :
    (p.write 0x03#8 word).InMode := by
  have hwrite : p.write 0x03#8 word = (p.modeSet word).updateInterrupts := by
    simp [write, h.modeSet]
  rw [hwrite, (atRest_modeSet p word).updated]
  exact ⟨by simp [Ppi8255.modeSet, h.notMode2, h.mode1A], h.outputA,
    by simp [Ppi8255.modeSet, h.mode1B], h.inputB, rfl, rfl, rfl, rfl, Bool.noConfusion, rfl, rfl⟩

theorem MailboxWord.fresh {word : Byte} (h : MailboxWord word) (p : Ppi8255) :
    (p.write 0x03#8 word).portBInputLatch = 0#8 ∧ (p.write 0x03#8 word).ibfB = false ∧
      (p.write 0x03#8 word).inteB = false ∧ (p.write 0x03#8 word).obfAHigh = true ∧
      (p.write 0x03#8 word).outputAAcknowledged = false ∧
      (p.write 0x03#8 word).inteAOutput = false := by
  have hwrite : p.write 0x03#8 word = (p.modeSet word).updateInterrupts := by
    simp [write, h.modeSet]
  rw [hwrite]
  exact ⟨rfl, rfl, rfl, rfl, rfl, rfl⟩

/-- After a mode word and any operations without another: the byte, the flags and the interrupts of
both mailboxes, from the history, and that neither group disturbs the other. -/
theorem mailboxes (p : Ppi8255) {word : Byte} (hword : MailboxWord word) (ops : List Op)
    (hops : ∀ op ∈ ops, op.isModeSet = false) :
    let q := run apply (p.write 0x03#8 word) ops
    (q.read 0x01#8).1 = last Op.strobedB 0#8 ops ∧
      ((q.read 0x02#8).1.getLsbD 1 = true ↔ Since (·.strobedB.isSome = true) Op.readsB ops) ∧
      ((q.read 0x02#8).1.getLsbD 0 = q.intrB ∧
        (q.intrB = true ↔
          Since (·.strobedB.isSome = true) Op.readsB ops ∧ last (Op.setsBit 2) false ops = true)) ∧
      ((q.read 0x02#8).1.getLsbD 7 = false ↔ Since Op.writesA Op.acksA ops) ∧
      ((q.read 0x02#8).1.getLsbD 3 = q.intrA ∧
        (q.intrA = true ↔
          last (Op.setsBit 6) false ops = true ∧ Since Op.acksA Op.writesA ops)) ∧
      ∀ op : Op, op.isModeSet = false →
        (op.inGroupA → (q.apply op).groupB = q.groupB) ∧
          (op.inGroupB → (q.apply op).groupA = q.groupA) := by
  intro q
  have hstart := hword.inMode p
  obtain ⟨hlatch, hibf, hinte, hobf, hack, hinteA⟩ := hword.fresh p
  have hkeep : ∀ (q : Ppi8255) (op : Op), q.InMode → op.isModeSet = false → (q.apply op).InMode :=
    fun q op h hop => h.apply hop
  have hmode : q.InMode := run_allowed hkeep hstart hops
  obtain ⟨hpc0, hpc1, -, hpc3, -, -, -, hpc7⟩ := hmode.readPortC_bits
  have hbuffer : q.ibfB = true ↔ Since (·.strobedB.isSome = true) Op.readsB ops :=
    flag_iff_since (fun q => q.ibfB = true) hkeep (fun q op h hop => h.apply_ibfB hop) hstart
      (by rw [hibf]; decide) hops
  have hfull : ¬q.obfAHigh = true ↔ Since Op.writesA Op.acksA ops :=
    flag_iff_since (fun q => ¬q.obfAHigh = true) hkeep (fun q op h hop => h.apply_obfAHigh hop)
      hstart (by rw [hobf]; decide) hops
  have hacked : q.outputAAcknowledged = true ↔ Since Op.acksA Op.writesA ops :=
    flag_iff_since (fun q => q.outputAAcknowledged = true) hkeep
      (fun q op h hop => h.apply_acknowledged hop) hstart (by rw [hack]; decide) hops
  have hinteB : q.inteB = last (Op.setsBit 2) false ops := by
    rw [← hinte]
    exact register_eq_last inteB hkeep (fun q op h hop => (h.apply_inte hop).1) hstart hops
  have hinteA : q.inteAOutput = last (Op.setsBit 6) false ops := by
    rw [← hinteA]
    exact register_eq_last inteAOutput hkeep (fun q op h hop => (h.apply_inte hop).2)
      hstart hops
  have hdata : q.portBInputLatch = last Op.strobedB 0#8 ops := by
    rw [← hlatch]
    exact register_eq_last portBInputLatch hkeep (fun q op h hop => h.apply_latchB hop)
      hstart hops
  refine ⟨?_, ?_, ⟨hpc0, ?_⟩, ?_, ⟨hpc3, ?_⟩, fun op hop => ⟨?_, ?_⟩⟩
  · show q.readPortB.1 = _
    rw [readPortB, if_pos hmode.strobedInputB]
    exact hdata
  · show q.readPortC.getLsbD 1 = true ↔ _
    rw [hpc1]
    exact hbuffer
  · rw [hmode.intrB, Bool.and_eq_true, hbuffer, hinteB, And.comm]
  · show q.readPortC.getLsbD 7 = false ↔ _
    rw [hpc7, ← hfull, Bool.not_eq_true]
  · rw [hmode.intrA, Bool.and_eq_true, hacked, hinteA]
  · exact hmode.groupA_keeps_groupB hop
  · exact hmode.groupB_keeps_groupA hop

/-- A byte strobed into port B while a byte waits in port A. -/
theorem mailboxes_both :
    let q := run apply (({} : Ppi8255).write 0x03#8 0xA6#8)
      [.write 0x03#8 0x05#8, .write 0x00#8 0x41#8, .pulseStrobeB 0x0D#8]
    (q.read 0x01#8).1 = 0x0D#8 ∧ (q.apply .pulseAckA).groupB = q.groupB := by
  have hword : MailboxWord 0xA6#8 := by constructor <;> decide
  obtain ⟨hdata, -, -, -, -, hgroups⟩ := mailboxes {} hword
    [.write 0x03#8 0x05#8, .write 0x00#8 0x41#8, .pulseStrobeB 0x0D#8] (by decide)
  exact ⟨hdata.trans rfl, (hgroups .pulseAckA rfl).1 trivial⟩

end Ppi8255
end FK1
