import Mathlib.Algebra.GroupWithZero.Nat

/-!
# FK1.Ppi8255

The 8255 parallel port as `ppi8255.cpp` computes it: three latches, the mode word, and the mode 1
and mode 2 handshake flags of both groups. The machine has three of them (printer and keyboard,
disk data, machine control).
-/

namespace FK1

abbrev Byte := BitVec 8
abbrev Word := BitVec 16

/-- The three counters of an 8253, and the eight interrupt inputs and port groups. -/
instance neZeroThree : NeZero 3 := Nat.instNeZeroSucc

instance neZeroEight : NeZero 8 := Nat.instNeZeroSucc

/-- `(value & mask) != 0`. -/
def hasBits (value mask : Byte) : Bool := value &&& mask != 0#8

/-- `static_cast<std::uint8_t>(1U << bit)`. -/
def bitMask (bit : Nat) : Byte := 1#8 <<< bit

inductive PpiMode where
  | mode0
  | mode1
  | mode2
  deriving DecidableEq, Repr

structure Ppi8255 where
  controlWord : Byte := 0x9B#8
  portAOutput : Byte := 0#8
  portBOutput : Byte := 0#8
  portCOutput : Byte := 0#8
  portAInput : Byte := 0#8
  portBInput : Byte := 0#8
  portCInput : Byte := 0#8
  portAInputLatch : Byte := 0#8
  portBInputLatch : Byte := 0#8
  groupAMode : PpiMode := .mode0
  groupBMode : PpiMode := .mode0
  portAInputMode : Bool := true
  portBInputMode : Bool := true
  portCUpperInput : Bool := true
  portCLowerInput : Bool := true
  strobeAHigh : Bool := true
  strobeBHigh : Bool := true
  ackAHigh : Bool := true
  ackBHigh : Bool := true
  ibfA : Bool := false
  ibfB : Bool := false
  obfAHigh : Bool := true
  obfBHigh : Bool := true
  outputAAcknowledged : Bool := false
  outputBAcknowledged : Bool := false
  inteAInput : Bool := false
  inteAOutput : Bool := false
  inteB : Bool := false
  intrA : Bool := false
  intrB : Bool := false
  deriving DecidableEq, Repr

namespace Ppi8255

/-- Group A takes strobed input: mode 1 with port A an input, or mode 2. -/
def strobedInputA (p : Ppi8255) : Bool :=
  (p.groupAMode == .mode1 && p.portAInputMode) || p.groupAMode == .mode2

/-- Group A gives handshaked output: mode 1 with port A an output, or mode 2. -/
def strobedOutputA (p : Ppi8255) : Bool :=
  (p.groupAMode == .mode1 && !p.portAInputMode) || p.groupAMode == .mode2

def strobedInputB (p : Ppi8255) : Bool := p.groupBMode == .mode1 && p.portBInputMode

def strobedOutputB (p : Ppi8255) : Bool := p.groupBMode == .mode1 && !p.portBInputMode

def updateInterrupts (p : Ppi8255) : Ppi8255 :=
  { p with
    intrA := (p.strobedInputA && p.inteAInput && p.ibfA && p.strobeAHigh)
      || (p.strobedOutputA && p.inteAOutput && p.outputAAcknowledged && p.obfAHigh && p.ackAHigh)
    intrB :=
      if p.groupBMode != .mode1 then false
      else if p.portBInputMode then p.inteB && p.ibfB && p.strobeBHigh
      else p.inteB && p.outputBAcknowledged && p.obfBHigh && p.ackBHigh }

def modeSet (p : Ppi8255) (value : Byte) : Ppi8255 :=
  { p with
    controlWord := value
    groupAMode :=
      if hasBits value 0x40#8 then .mode2 else if hasBits value 0x20#8 then .mode1 else .mode0
    groupBMode := if hasBits value 0x04#8 then .mode1 else .mode0
    portAInputMode := hasBits value 0x10#8
    portCUpperInput := hasBits value 0x08#8
    portBInputMode := hasBits value 0x02#8
    portCLowerInput := hasBits value 0x01#8
    portAOutput := 0#8
    portBOutput := 0#8
    portCOutput := 0#8
    portAInputLatch := 0#8
    portBInputLatch := 0#8
    strobeAHigh := true
    strobeBHigh := true
    ackAHigh := true
    ackBHigh := true
    ibfA := false
    ibfB := false
    obfAHigh := true
    obfBHigh := true
    outputAAcknowledged := false
    outputBAcknowledged := false
    inteAInput := false
    inteAOutput := false
    inteB := false
    intrA := false
    intrB := false }

def reset (p : Ppi8255) : Ppi8255 :=
  { p with
    controlWord := 0x9B#8
    portAOutput := 0#8
    portBOutput := 0#8
    portCOutput := 0#8
    portAInput := 0#8
    portBInput := 0#8
    portCInput := 0#8 }.modeSet 0x9B#8

def bitSetReset (p : Ppi8255) (value : Byte) : Ppi8255 :=
  let bit := ((value >>> 1) &&& 0x07#8).toNat
  let set := hasBits value 0x01#8
  if bit = 4 ∧ p.strobedInputA then { p with inteAInput := set }
  else if bit = 6 ∧ p.strobedOutputA then { p with inteAOutput := set }
  else if bit = 2 ∧ p.groupBMode = .mode1 then { p with inteB := set }
  else if set then { p with portCOutput := p.portCOutput ||| bitMask bit }
  else { p with portCOutput := p.portCOutput &&& ~~~(bitMask bit) }

def write (p : Ppi8255) (registerIndex value : Byte) : Ppi8255 :=
  match (registerIndex &&& 0x03#8).toNat with
  | 0 =>
    let p := { p with portAOutput := value }
    let p := if p.strobedOutputA then
        { p with obfAHigh := false, outputAAcknowledged := false, intrA := false }
      else p
    p.updateInterrupts
  | 1 =>
    let p := { p with portBOutput := value }
    let p := if p.strobedOutputB then
        { p with obfBHigh := false, outputBAcknowledged := false, intrB := false }
      else p
    p.updateInterrupts
  | 2 => { p with portCOutput := value }.updateInterrupts
  | _ => (if hasBits value 0x80#8 then p.modeSet value else p.bitSetReset value).updateInterrupts

def setPortAInput (p : Ppi8255) (value : Byte) : Ppi8255 := { p with portAInput := value }

def setPortBInput (p : Ppi8255) (value : Byte) : Ppi8255 := { p with portBInput := value }

def setPortCInput (p : Ppi8255) (value : Byte) : Ppi8255 := { p with portCInput := value }

def setStrobeA (p : Ppi8255) (high : Bool) : Ppi8255 :=
  let falling := p.strobeAHigh && !high
  let p := { p with strobeAHigh := high }
  let p := if falling && p.strobedInputA then
      { p with portAInputLatch := p.portAInput, ibfA := true, intrA := false }
    else p
  p.updateInterrupts

def setStrobeB (p : Ppi8255) (high : Bool) : Ppi8255 :=
  let falling := p.strobeBHigh && !high
  let p := { p with strobeBHigh := high }
  let p := if falling && p.strobedInputB then
      { p with portBInputLatch := p.portBInput, ibfB := true, intrB := false }
    else p
  p.updateInterrupts

def setAckA (p : Ppi8255) (high : Bool) : Ppi8255 :=
  let falling := p.ackAHigh && !high
  let rising := !p.ackAHigh && high
  let p := { p with ackAHigh := high }
  let p := if falling && p.strobedOutputA then { p with obfAHigh := true } else p
  let p := if rising then { p with outputAAcknowledged := true } else p
  p.updateInterrupts

def setAckB (p : Ppi8255) (high : Bool) : Ppi8255 :=
  let falling := p.ackBHigh && !high
  let rising := !p.ackBHigh && high
  let p := { p with ackBHigh := high }
  let p := if falling && p.strobedOutputB then { p with obfBHigh := true } else p
  let p := if rising then { p with outputBAcknowledged := true } else p
  p.updateInterrupts

def pulseStrobeA (p : Ppi8255) (value : Byte) : Ppi8255 :=
  ((p.setPortAInput value).setStrobeA false).setStrobeA true

def pulseStrobeB (p : Ppi8255) (value : Byte) : Ppi8255 :=
  ((p.setPortBInput value).setStrobeB false).setStrobeB true

def pulseAckA (p : Ppi8255) : Ppi8255 := (p.setAckA false).setAckA true

def pulseAckB (p : Ppi8255) : Ppi8255 := (p.setAckB false).setAckB true

def outputA (p : Ppi8255) : Byte := p.portAOutput

def outputB (p : Ppi8255) : Byte := p.portBOutput

def outputC (p : Ppi8255) : Byte := p.portCOutput

def portAOutputEnabled (p : Ppi8255) : Bool := !p.portAInputMode || p.groupAMode == .mode2

def portBOutputEnabled (p : Ppi8255) : Bool := !p.portBInputMode

def portCUpperOutputEnabled (p : Ppi8255) : Bool := !p.portCUpperInput

def portCLowerOutputEnabled (p : Ppi8255) : Bool := !p.portCLowerInput

def readPortA (p : Ppi8255) : Byte × Ppi8255 :=
  if p.strobedInputA then
    (p.portAInputLatch, { p with ibfA := false, intrA := false }.updateInterrupts)
  else (if p.portAInputMode then p.portAInput else p.portAOutput, p)

def readPortB (p : Ppi8255) : Byte × Ppi8255 :=
  if p.strobedInputB then
    (p.portBInputLatch, { p with ibfB := false, intrB := false }.updateInterrupts)
  else (if p.portBInputMode then p.portBInput else p.portBOutput, p)

/-- The `set_bit` lambda of `read_port_c`. -/
def setBit (value : Byte) (bit : Nat) (high : Bool) : Byte :=
  if high then value ||| bitMask bit else value &&& ~~~(bitMask bit)

def readPortC (p : Ppi8255) : Byte :=
  let value := (if p.portCUpperInput then p.portCInput else p.portCOutput) &&& 0xF0#8
  let value := value ||| ((if p.portCLowerInput then p.portCInput else p.portCOutput) &&& 0x0F#8)
  let value := match p.groupAMode with
    | .mode0 => value
    | .mode1 =>
      let value :=
        if p.portAInputMode then setBit (setBit value 4 p.strobeAHigh) 5 p.ibfA
        else setBit (setBit value 7 p.obfAHigh) 6 p.ackAHigh
      setBit value 3 p.intrA
    | .mode2 =>
      setBit (setBit (setBit (setBit (setBit value 7 p.obfAHigh) 6 p.ackAHigh) 5 p.ibfA)
        4 p.strobeAHigh) 3 p.intrA
  if p.groupBMode == .mode1 then
    let value := setBit value 2 (if p.portBInputMode then p.strobeBHigh else p.ackBHigh)
    let value := setBit value 1 (if p.portBInputMode then p.ibfB else p.obfBHigh)
    setBit value 0 p.intrB
  else value

def read (p : Ppi8255) (registerIndex : Byte) : Byte × Ppi8255 :=
  match (registerIndex &&& 0x03#8).toNat with
  | 0 => p.readPortA
  | 1 => p.readPortB
  | 2 => (p.readPortC, p)
  | _ => (0xFF#8, p)

/-! ## At rest

Between operations the strobe and acknowledge lines are high and the interrupt flags are up to date.
-/

structure AtRest (p : Ppi8255) : Prop where
  strobeA : p.strobeAHigh = true
  strobeB : p.strobeBHigh = true
  ackA : p.ackAHigh = true
  ackB : p.ackBHigh = true
  updated : p.updateInterrupts = p

theorem updateInterrupts_idem (p : Ppi8255) : p.updateInterrupts.updateInterrupts = p.updateInterrupts :=
  rfl

theorem atRest_updateInterrupts {p : Ppi8255} (ha : p.strobeAHigh = true) (hb : p.strobeBHigh = true)
    (hc : p.ackAHigh = true) (hd : p.ackBHigh = true) : p.updateInterrupts.AtRest :=
  ⟨ha, hb, hc, hd, updateInterrupts_idem p⟩

theorem atRest_modeSet (p : Ppi8255) (value : Byte) : (p.modeSet value).AtRest := by
  refine ⟨rfl, rfl, rfl, rfl, ?_⟩
  simp [updateInterrupts, modeSet]

theorem atRest_reset (p : Ppi8255) : p.reset.AtRest := atRest_modeSet _ _

theorem bitSetReset_lines (p : Ppi8255) (value : Byte) :
    (p.bitSetReset value).strobeAHigh = p.strobeAHigh ∧
      (p.bitSetReset value).strobeBHigh = p.strobeBHigh ∧
      (p.bitSetReset value).ackAHigh = p.ackAHigh ∧ (p.bitSetReset value).ackBHigh = p.ackBHigh := by
  unfold bitSetReset
  dsimp only
  repeat' split
  all_goals exact ⟨rfl, rfl, rfl, rfl⟩

theorem AtRest.setPortCInput {p : Ppi8255} (h : p.AtRest) (value : Byte) :
    (p.setPortCInput value).AtRest :=
  ⟨h.strobeA, h.strobeB, h.ackA, h.ackB, congrArg (·.setPortCInput value) h.updated⟩

theorem AtRest.write {p : Ppi8255} (h : p.AtRest) (registerIndex value : Byte) :
    (p.write registerIndex value).AtRest := by
  unfold Ppi8255.write
  split
  · dsimp only
    split <;> exact atRest_updateInterrupts h.strobeA h.strobeB h.ackA h.ackB
  · dsimp only
    split <;> exact atRest_updateInterrupts h.strobeA h.strobeB h.ackA h.ackB
  · exact atRest_updateInterrupts h.strobeA h.strobeB h.ackA h.ackB
  · split
    · rw [(atRest_modeSet p value).updated]; exact atRest_modeSet p value
    · obtain ⟨h1, h2, h3, h4⟩ := bitSetReset_lines p value
      exact atRest_updateInterrupts (h1.trans h.strobeA) (h2.trans h.strobeB) (h3.trans h.ackA)
        (h4.trans h.ackB)

theorem AtRest.read {p : Ppi8255} (h : p.AtRest) (registerIndex : Byte) :
    (p.read registerIndex).2.AtRest := by
  unfold Ppi8255.read readPortA readPortB
  split
  · split
    · exact atRest_updateInterrupts h.strobeA h.strobeB h.ackA h.ackB
    · exact h
  · split
    · exact atRest_updateInterrupts h.strobeA h.strobeB h.ackA h.ackB
    · exact h
  · exact h
  · exact h

/-- A strobe on port B: a strobed input latches the byte and fills the buffer. -/
theorem pulseStrobeB_eq {p : Ppi8255} (h : p.strobeBHigh = true) (value : Byte) :
    p.pulseStrobeB value =
      { p with
        portBInput := value
        portBInputLatch := if p.strobedInputB then value else p.portBInputLatch
        ibfB := p.ibfB || p.strobedInputB }.updateInterrupts := by
  unfold pulseStrobeB setStrobeB setPortBInput
  cases hin : p.strobedInputB <;> simp only [strobedInputB] at hin <;>
    simp [h, hin, updateInterrupts, strobedInputA, strobedOutputA, strobedInputB]

/-- An acknowledge on port A: a strobed output frees its buffer. -/
theorem pulseAckA_eq {p : Ppi8255} (h : p.ackAHigh = true) :
    p.pulseAckA =
      { p with
        obfAHigh := p.obfAHigh || p.strobedOutputA
        outputAAcknowledged := true }.updateInterrupts := by
  unfold pulseAckA setAckA
  cases hout : p.strobedOutputA <;> simp only [strobedOutputA] at hout <;>
    simp [h, hout, updateInterrupts, strobedInputA, strobedOutputA]

theorem AtRest.pulseStrobeB {p : Ppi8255} (h : p.AtRest) (value : Byte) :
    (p.pulseStrobeB value).AtRest := by
  rw [pulseStrobeB_eq h.strobeB]
  exact atRest_updateInterrupts h.strobeA h.strobeB h.ackA h.ackB

theorem AtRest.pulseAckA {p : Ppi8255} (h : p.AtRest) : p.pulseAckA.AtRest := by
  rw [pulseAckA_eq h.ackA]
  exact atRest_updateInterrupts h.strobeA h.strobeB h.ackA h.ackB

end Ppi8255
end FK1
