import FK1.Lib.Record
import FK1.PortMailboxes

/-!
# FK1.BidirectionalPort

The 8255 with group A in mode 2: port A carries bytes both ways, with the handshake lines driven level by
level, whatever group B does.

* `bidirectional_port`: the bytes, the flags and the interrupt of port A, from the history.
* `bidirectional_transfer`: in either direction the bytes leave in the order they came, but for those that
  the next one overwrites.
-/

namespace FK1
namespace Ppi8255

variable {p : Ppi8255}

/-! ## Operations -/

/-- The operations of the chip but a mode word, with the handshake lines by themselves. -/
inductive LineOp where
  | read (registerIndex : Byte)
  | write (registerIndex value : Byte) (hvalue : (Op.write registerIndex value).isModeSet = false)
  | setPortAInput (value : Byte)
  | setPortBInput (value : Byte)
  | setPortCInput (value : Byte)
  | setStrobeA (high : Bool)
  | setStrobeB (high : Bool)
  | setAckA (high : Bool)
  | setAckB (high : Bool)
  deriving DecidableEq, Repr

def drive (p : Ppi8255) : LineOp → Ppi8255
  | .read registerIndex => (p.read registerIndex).2
  | .write registerIndex value _ => p.write registerIndex value
  | .setPortAInput value => p.setPortAInput value
  | .setPortBInput value => p.setPortBInput value
  | .setPortCInput value => p.setPortCInput value
  | .setStrobeA high => p.setStrobeA high
  | .setStrobeB high => p.setStrobeB high
  | .setAckA high => p.setAckA high
  | .setAckB high => p.setAckB high

namespace LineOp

def readsA : LineOp → Bool
  | .read registerIndex => register registerIndex == 0
  | _ => false

/-- The byte that software gives to port A. -/
def written : LineOp → Option Byte
  | .write registerIndex value _ => if register registerIndex = 0 then some value else none
  | _ => none

def setsBit (bit : Nat) : LineOp → Option Bool
  | .write registerIndex value _ => (Op.write registerIndex value).setsBit bit
  | _ => none

def strobe : LineOp → Option Bool
  | .setStrobeA high => some high
  | _ => none

def ack : LineOp → Option Bool
  | .setAckA high => some high
  | _ => none

end LineOp

/-- The byte that the device gives to port A, as its strobe falls. -/
def strobed : Ppi8255 × LineOp → Option Byte
  | (p, .setStrobeA high) => if p.strobeAHigh && !high then some p.portAInput else none
  | _ => none

/-- The device takes the byte of port A. -/
def ackFalls : Ppi8255 × LineOp → Bool
  | (p, .setAckA high) => p.ackAHigh && !high
  | _ => false

/-- The device is done with it. -/
def ackRises : Ppi8255 × LineOp → Bool
  | (p, .setAckA high) => !p.ackAHigh && high
  | _ => false

/-! ## One operation -/

structure Bidirectional (p : Ppi8255) : Prop where
  mode2 : p.groupAMode = .mode2
  intrA : p.intrA = ((p.inteAInput && p.ibfA && p.strobeAHigh) ||
    (p.inteAOutput && p.outputAAcknowledged && p.obfAHigh && p.ackAHigh))

/-- The two mailboxes of port A, as a mode word leaves them. -/
structure Bus where
  latch : Byte := 0#8
  full : Bool := false
  output : Byte := 0#8
  free : Bool := true
  taken : Bool := false
  enabledInput : Bool := false
  enabledOutput : Bool := false
  strobe : Bool := true
  ack : Bool := true

def bus (p : Ppi8255) : Bus :=
  { latch := p.portAInputLatch
    full := p.ibfA
    output := p.portAOutput
    free := p.obfAHigh
    taken := p.outputAAcknowledged
    enabledInput := p.inteAInput
    enabledOutput := p.inteAOutput
    strobe := p.strobeAHigh
    ack := p.ackAHigh }

def busAfter (entry : Ppi8255 × LineOp) : Bus :=
  { latch := (strobed entry).getD entry.1.portAInputLatch
    full := (strobed entry).isSome || (!entry.2.readsA && entry.1.ibfA)
    output := entry.2.written.getD entry.1.portAOutput
    free := ackFalls entry || (!entry.2.written.isSome && entry.1.obfAHigh)
    taken := ackRises entry || (!entry.2.written.isSome && entry.1.outputAAcknowledged)
    enabledInput := (entry.2.setsBit 4).getD entry.1.inteAInput
    enabledOutput := (entry.2.setsBit 6).getD entry.1.inteAOutput
    strobe := entry.2.strobe.getD entry.1.strobeAHigh
    ack := entry.2.ack.getD entry.1.ackAHigh }

namespace Bidirectional

theorem strobedInputA (h : p.Bidirectional) : p.strobedInputA = true := by
  simp [Ppi8255.strobedInputA, h.mode2]

theorem strobedOutputA (h : p.Bidirectional) : p.strobedOutputA = true := by
  simp [Ppi8255.strobedOutputA, h.mode2]

theorem updated {q : Ppi8255} (hmode : q.groupAMode = .mode2) : q.updateInterrupts.Bidirectional := by
  refine ⟨hmode, ?_⟩
  simp [updateInterrupts, Ppi8255.strobedInputA, Ppi8255.strobedOutputA, hmode]

theorem read_data {registerIndex : Byte} (hr : register registerIndex = 0) (p : Ppi8255) :
    p.read registerIndex = p.readPortA := by
  simp only [Ppi8255.read, show (registerIndex &&& 0x03#8).toNat = 0 from hr]

theorem read (h : p.Bidirectional) (registerIndex : Byte) :
    (p.read registerIndex).2.Bidirectional ∧
      (p.read registerIndex).2.bus =
        { p.bus with full := !(register registerIndex == 0) && p.ibfA } := by
  obtain hr | hr | hr | hr := register_cases registerIndex
  · rw [read_data hr, readPortA, if_pos h.strobedInputA, hr]
    exact ⟨updated h.mode2, rfl⟩
  · have hread : p.read registerIndex = p.readPortB := by
      simp only [Ppi8255.read, show (registerIndex &&& 0x03#8).toNat = 1 from hr]
    rw [hread, readPortB, hr]
    split
    · exact ⟨updated h.mode2, rfl⟩
    · exact ⟨h, rfl⟩
  · have hread : p.read registerIndex = (p.readPortC, p) := by
      simp only [Ppi8255.read, show (registerIndex &&& 0x03#8).toNat = 2 from hr]
    rw [hread, hr]
    exact ⟨h, rfl⟩
  · have hread : p.read registerIndex = (0xFF#8, p) := by
      simp only [Ppi8255.read, show (registerIndex &&& 0x03#8).toNat = 3 from hr]
    rw [hread, hr]
    exact ⟨h, rfl⟩

theorem bitSetReset (h : p.Bidirectional) (value : Byte) :
    (p.bitSetReset value).groupAMode = .mode2 ∧ (p.bitSetReset value).bus =
      { p.bus with
        enabledInput := if bitOf value = 4 then hasBits value 0x01#8 else p.inteAInput
        enabledOutput := if bitOf value = 6 then hasBits value 0x01#8 else p.inteAOutput } := by
  have hbits : p.bitSetReset value =
      if bitOf value = 4 then { p with inteAInput := hasBits value 0x01#8 }
      else if bitOf value = 6 then { p with inteAOutput := hasBits value 0x01#8 }
      else if bitOf value = 2 ∧ p.groupBMode = .mode1 then { p with inteB := hasBits value 0x01#8 }
      else if hasBits value 0x01#8 then { p with portCOutput := p.portCOutput ||| bitMask (bitOf value) }
      else { p with portCOutput := p.portCOutput &&& ~~~(bitMask (bitOf value)) } := by
    simp [Ppi8255.bitSetReset, bitOf, h.strobedInputA, h.strobedOutputA]
  rw [hbits]
  split
  next h4 => exact ⟨h.mode2, by simp [bus, h4]⟩
  next h4 =>
    split
    next => exact ⟨h.mode2, by simp [bus]⟩
    next => (repeat' split) <;> exact ⟨h.mode2, rfl⟩

theorem write (h : p.Bidirectional) {registerIndex value : Byte}
    (hvalue : (Op.write registerIndex value).isModeSet = false) :
    (p.write registerIndex value).Bidirectional ∧
      (p.write registerIndex value).bus = busAfter (p, .write registerIndex value hvalue) := by
  have hother (h0 : register registerIndex ≠ 0) (h3 : register registerIndex ≠ 3) :
      busAfter (p, .write registerIndex value hvalue) = p.bus := by
    simp [busAfter, bus, strobed, ackFalls, ackRises, LineOp.readsA, LineOp.written, LineOp.setsBit,
      LineOp.strobe, LineOp.ack, Op.setsBit, h0, h3]
  obtain hr | hr | hr | hr := register_cases registerIndex
  · have hafter : busAfter (p, .write registerIndex value hvalue) =
        { p.bus with output := value, free := false, taken := false } := by
      simp [busAfter, bus, strobed, ackFalls, ackRises, LineOp.readsA, LineOp.written, LineOp.setsBit,
        LineOp.strobe, LineOp.ack, Op.setsBit, hr]
    have hwrite : p.write registerIndex value =
        { p with portAOutput := value, obfAHigh := false, outputAAcknowledged := false, intrA := false
        }.updateInterrupts := by
      simp only [Ppi8255.write, show (registerIndex &&& 0x03#8).toNat = 0 from hr]
      rw [if_pos (by exact h.strobedOutputA)]
    rw [hwrite, hafter]
    exact ⟨updated h.mode2, rfl⟩
  · rw [hother (by omega) (by omega)]
    simp only [Ppi8255.write, show (registerIndex &&& 0x03#8).toNat = 1 from hr]
    split <;> exact ⟨updated h.mode2, rfl⟩
  · rw [hother (by omega) (by omega)]
    simp only [Ppi8255.write, show (registerIndex &&& 0x03#8).toNat = 2 from hr]
    exact ⟨updated h.mode2, rfl⟩
  · have hbsr : hasBits value 0x80#8 = false := by simpa [Op.isModeSet, hr] using hvalue
    have hwrite : p.write registerIndex value = (p.bitSetReset value).updateInterrupts := by
      simp only [Ppi8255.write, show (registerIndex &&& 0x03#8).toNat = 3 from hr, hbsr,
        Bool.false_eq_true, if_false]
    have hafter : busAfter (p, .write registerIndex value hvalue) =
        { p.bus with
          enabledInput := if bitOf value = 4 then hasBits value 0x01#8 else p.inteAInput
          enabledOutput := if bitOf value = 6 then hasBits value 0x01#8 else p.inteAOutput } := by
      simp only [busAfter, bus, strobed, ackFalls, ackRises, LineOp.readsA, LineOp.written,
        LineOp.setsBit, LineOp.strobe, LineOp.ack, Op.setsBit, hr, hbsr, true_and]
      by_cases h4 : bitOf value = 4
      · simp [h4]
      · by_cases h6 : bitOf value = 6 <;> simp [h4, h6]
    obtain ⟨hmode, hbus⟩ := h.bitSetReset value
    rw [hwrite, hafter, ← hbus]
    exact ⟨updated hmode, rfl⟩

/-- The two mailboxes after any operation. -/
theorem drive (h : p.Bidirectional) (op : LineOp) :
    (p.drive op).Bidirectional ∧ (p.drive op).bus = busAfter (p, op) := by
  cases op with
  | read registerIndex => exact h.read registerIndex
  | write registerIndex value hvalue => exact h.write hvalue
  | setPortAInput value => exact ⟨⟨h.mode2, h.intrA⟩, rfl⟩
  | setPortBInput value => exact ⟨⟨h.mode2, h.intrA⟩, rfl⟩
  | setPortCInput value => exact ⟨⟨h.mode2, h.intrA⟩, rfl⟩
  | setStrobeA high =>
    show (p.setStrobeA high).Bidirectional ∧ (p.setStrobeA high).bus = _
    unfold setStrobeA
    dsimp only
    cases hfalls : p.strobeAHigh && !high with
    | true =>
      rw [if_pos (by rw [Bool.true_and]; exact h.strobedInputA)]
      refine ⟨updated h.mode2, ?_⟩
      simp [bus, busAfter, updateInterrupts, strobed, ackFalls, ackRises, LineOp.readsA,
        LineOp.written, LineOp.setsBit, LineOp.strobe, LineOp.ack, hfalls]
    | false =>
      rw [Bool.false_and, if_neg Bool.false_ne_true]
      refine ⟨updated h.mode2, ?_⟩
      simp [bus, busAfter, updateInterrupts, strobed, ackFalls, ackRises, LineOp.readsA,
        LineOp.written, LineOp.setsBit, LineOp.strobe, LineOp.ack, hfalls]
  | setStrobeB high =>
    show (p.setStrobeB high).Bidirectional ∧ (p.setStrobeB high).bus = _
    unfold setStrobeB
    dsimp only
    split <;> exact ⟨updated h.mode2, rfl⟩
  | setAckA high =>
    show (p.setAckA high).Bidirectional ∧ (p.setAckA high).bus = _
    have hset : p.setAckA high =
        { p with
          ackAHigh := high
          obfAHigh := (p.ackAHigh && !high) || p.obfAHigh
          outputAAcknowledged := (!p.ackAHigh && high) || p.outputAAcknowledged }.updateInterrupts := by
      unfold setAckA
      cases hack : p.ackAHigh <;> cases high <;>
        simp [Ppi8255.strobedOutputA, h.mode2, updateInterrupts]
    rw [hset]
    exact ⟨updated h.mode2, rfl⟩
  | setAckB high =>
    show (p.setAckB high).Bidirectional ∧ (p.setAckB high).bus = _
    unfold setAckB
    dsimp only
    (repeat' split) <;> exact ⟨updated h.mode2, rfl⟩

/-- The handshake of port A on port C, whatever group B puts below it. -/
theorem readPortC_bits (h : p.Bidirectional) :
    p.readPortC.getLsbD 3 = p.intrA ∧ p.readPortC.getLsbD 4 = p.strobeAHigh ∧
      p.readPortC.getLsbD 5 = p.ibfA ∧ p.readPortC.getLsbD 6 = p.ackAHigh ∧
      p.readPortC.getLsbD 7 = p.obfAHigh := by
  have hvalue : ∃ plain : Byte, ∀ j, 3 ≤ j → j < 8 → p.readPortC.getLsbD j =
      (setBit (setBit (setBit (setBit (setBit plain 7 p.obfAHigh) 6 p.ackAHigh) 5 p.ibfA)
        4 p.strobeAHigh) 3 p.intrA).getLsbD j := by
    refine ⟨(if p.portCUpperInput then p.portCInput else p.portCOutput) &&& 0xF0#8 |||
      (if p.portCLowerInput then p.portCInput else p.portCOutput) &&& 0x0F#8, fun j hlow hj => ?_⟩
    simp only [readPortC, h.mode2]
    split
    next =>
      rw [setBit_getLsbD _ _ hj, setBit_getLsbD _ _ hj, setBit_getLsbD _ _ hj, if_neg (by omega),
        if_neg (by omega), if_neg (by omega)]
    next => rfl
  obtain ⟨plain, hvalue⟩ := hvalue
  have hbit : ∀ {j : Nat}, 3 ≤ j → j < 8 → p.readPortC.getLsbD j =
      if j = 3 then p.intrA else if j = 4 then p.strobeAHigh else if j = 5 then p.ibfA
      else if j = 6 then p.ackAHigh else if j = 7 then p.obfAHigh else plain.getLsbD j := by
    intro j hlow hj
    rw [hvalue j hlow hj, setBit_getLsbD _ _ hj, setBit_getLsbD _ _ hj, setBit_getLsbD _ _ hj,
      setBit_getLsbD _ _ hj, setBit_getLsbD _ _ hj]
  exact ⟨hbit (by decide) (by decide), hbit (by decide) (by decide), hbit (by decide) (by decide),
    hbit (by decide) (by decide), hbit (by decide) (by decide)⟩

end Bidirectional

/-! ## The bytes -/

/-- The byte from the device that software has not read. -/
def unread (p : Ppi8255) : List Byte := if p.ibfA then [p.portAInputLatch] else []

/-- The byte from software that the device has not taken. -/
def waiting (p : Ppi8255) : List Byte := if p.obfAHigh then [] else [p.outputA]

def bytesRead : Ppi8255 × LineOp → List Byte
  | (p, .read registerIndex) =>
    if register registerIndex = 0 ∧ p.ibfA = true then [(p.read registerIndex).1] else []
  | _ => []

/-- The unread byte that a strobe overwrites. -/
def bytesOverrun (entry : Ppi8255 × LineOp) : List Byte :=
  if (strobed entry).isSome then entry.1.unread else []

def bytesTaken (entry : Ppi8255 × LineOp) : List Byte :=
  if ackFalls entry then entry.1.waiting else []

/-- The waiting byte that a write overwrites. -/
def bytesReplaced (entry : Ppi8255 × LineOp) : List Byte :=
  if entry.2.written.isSome then entry.1.waiting else []

/-- A strobe reads nothing. -/
theorem strobed_alone {op : LineOp} (h : (strobed (p, op)).isSome = true) : op.readsA = false := by
  cases op with
  | setStrobeA high => rfl
  | _ => simp [strobed] at h

/-- An acknowledge writes nothing. -/
theorem written_alone {op : LineOp} (h : op.written.isSome = true) : ackFalls (p, op) = false := by
  cases op with
  | write registerIndex value hvalue => rfl
  | _ => simp [LineOp.written] at h

namespace Bidirectional

theorem read_latch (h : p.Bidirectional) {registerIndex : Byte} (hr : register registerIndex = 0) :
    (p.read registerIndex).1 = p.portAInputLatch := by
  rw [read_data hr, readPortA, if_pos h.strobedInputA]

theorem bytesRead_eq (h : p.Bidirectional) (op : LineOp) :
    bytesRead (p, op) = if op.readsA then p.unread else [] := by
  cases op with
  | read registerIndex =>
    by_cases hr : register registerIndex = 0
    · simp [bytesRead, LineOp.readsA, unread, hr, h.read_latch hr]
    · simp [bytesRead, LineOp.readsA, hr]
  | _ => rfl

theorem drive_unread (h : p.Bidirectional) (op : LineOp) :
    p.unread ++ (strobed (p, op)).toList =
      (bytesRead (p, op) ++ bytesOverrun (p, op)) ++ (p.drive op).unread := by
  have hfull : (p.drive op).ibfA = ((strobed (p, op)).isSome || (!op.readsA && p.ibfA)) :=
    congrArg Bus.full (h.drive op).2
  have hlatch : (p.drive op).portAInputLatch = (strobed (p, op)).getD p.portAInputLatch :=
    congrArg Bus.latch (h.drive op).2
  have hnext : (p.drive op).unread =
      if (strobed (p, op)).isSome || (!op.readsA && p.ibfA) then
        [(strobed (p, op)).getD p.portAInputLatch] else [] := by
    rw [unread, hfull, hlatch]
  rw [hnext, h.bytesRead_eq op, bytesOverrun]
  cases hstrobed : strobed (p, op) with
  | some value =>
    have hsome : (strobed (p, op)).isSome = true := by rw [hstrobed]; rfl
    have hreads : op.readsA = false := strobed_alone hsome
    simp [hreads]
  | none => cases op.readsA <;> simp [unread]

theorem drive_waiting (h : p.Bidirectional) (op : LineOp) :
    p.waiting ++ op.written.toList =
      (bytesTaken (p, op) ++ bytesReplaced (p, op)) ++ (p.drive op).waiting := by
  have hfree : (p.drive op).obfAHigh =
      (ackFalls (p, op) || (!op.written.isSome && p.obfAHigh)) :=
    congrArg Bus.free (h.drive op).2
  have houtput : (p.drive op).outputA = op.written.getD p.outputA :=
    congrArg Bus.output (h.drive op).2
  have hnext : (p.drive op).waiting =
      if ackFalls (p, op) || (!op.written.isSome && p.obfAHigh) then []
      else [op.written.getD p.outputA] := by
    rw [waiting, hfree, houtput]
  rw [hnext, bytesTaken, bytesReplaced]
  cases hwritten : op.written with
  | some value =>
    have hsome : op.written.isSome = true := by rw [hwritten]; rfl
    have hfalls : ackFalls (p, op) = false := written_alone (p := p) hsome
    simp [hfalls]
  | none => cases ackFalls (p, op) <;> simp [waiting]

end Bidirectional

/-! ## Whole runs -/

/-- A mode word for mode 2, whatever it says of group B. -/
structure BidirectionalWord (word : Byte) : Prop where
  modeSet : hasBits word 0x80#8 = true
  mode2 : hasBits word 0x40#8 = true

namespace BidirectionalWord

variable {word : Byte}

theorem starts (h : BidirectionalWord word) (p : Ppi8255) :
    (p.write 0x03#8 word).Bidirectional ∧ (p.write 0x03#8 word).bus = {} := by
  have hwrite : p.write 0x03#8 word = (p.modeSet word).updateInterrupts := by
    simp [Ppi8255.write, h.modeSet]
  rw [hwrite]
  exact ⟨Bidirectional.updated (by simp [Ppi8255.modeSet, h.mode2]), rfl⟩

end BidirectionalWord

/-- The mode 2 port after a mode word and any operations without another: both bytes, the handshake bits
of port C and the interrupt, from the history. -/
theorem bidirectional_port (p : Ppi8255) {word : Byte} (hword : BidirectionalWord word)
    (ops : List LineOp) :
    let q := Run.run drive (p.write 0x03#8 word) ops
    let history := Run.record drive (p.write 0x03#8 word) ops
    let strobeHigh := Run.last (fun entry => entry.2.strobe) true history
    let ackHigh := Run.last (fun entry => entry.2.ack) true history
    let full := Run.Since (fun entry => (strobed entry).isSome = true)
      (fun entry => entry.2.readsA = true) history
    let occupied := Run.Since (fun entry => entry.2.written.isSome = true)
      (fun entry => ackFalls entry = true) history
    let acknowledged := Run.Since (fun entry => ackRises entry = true)
      (fun entry => entry.2.written.isSome = true) history
    (q.read 0x00#8).1 = Run.last strobed 0#8 history ∧
      q.outputA = Run.last (fun entry => entry.2.written) 0#8 history ∧
      ((q.read 0x02#8).1.getLsbD 5 = true ↔ full) ∧ (q.read 0x02#8).1.getLsbD 4 = strobeHigh ∧
      ((q.read 0x02#8).1.getLsbD 7 = false ↔ occupied) ∧ (q.read 0x02#8).1.getLsbD 6 = ackHigh ∧
      (q.read 0x02#8).1.getLsbD 3 = q.intrA ∧
      (q.intrA = true ↔
        (Run.last (fun entry => entry.2.setsBit 4) false history = true ∧ full ∧ strobeHigh = true) ∨
          (Run.last (fun entry => entry.2.setsBit 6) false history = true ∧ acknowledged ∧ ¬occupied ∧
            ackHigh = true)) := by
  intro q history strobeHigh ackHigh full occupied acknowledged
  obtain ⟨hstart, hfresh⟩ := hword.starts p
  have hkeep : ∀ (s : Ppi8255) (op : LineOp), s.Bidirectional → (s.drive op).Bidirectional :=
    fun s op h => (h.drive op).1
  have hmode : q.Bidirectional := Run.run_invariant hkeep hstart ops
  have hregister : ∀ {V : Type} (field : Bus → V) (value : Ppi8255 × LineOp → Option V),
      (∀ entry, field (busAfter entry) = (value entry).getD (field entry.1.bus)) →
      field q.bus = Run.last value (field {}) history := by
    intro V field value hafter
    rw [← hfresh]
    exact Run.register_of_record (fun s => field s.bus) value hkeep
      (fun s op h => by rw [(h.drive op).2, hafter (s, op)]) hstart ops
  have hflag : ∀ (flag : Bus → Prop) (P Q : Ppi8255 × LineOp → Prop),
      (∀ entry, flag (busAfter entry) ↔ P entry ∨ (¬Q entry ∧ flag entry.1.bus)) → ¬flag {} →
      (flag q.bus ↔ Run.Since P Q history) := by
    intro flag P Q hafter hclear
    exact Run.clear_flag_of_record (fun s : Ppi8255 => flag s.bus) hkeep
      (fun s op h => by rw [(h.drive op).2, hafter (s, op)]) hstart (by rw [hfresh]; exact hclear) ops
  have hstrobe : q.strobeAHigh = strobeHigh := hregister Bus.strobe _ fun _ => rfl
  have hack : q.ackAHigh = ackHigh := hregister Bus.ack _ fun _ => rfl
  have hfull : q.ibfA = true ↔ full :=
    hflag (fun b => b.full = true) _ _ (fun entry => by simp [busAfter, bus]) (by decide)
  have hacknowledged : q.outputAAcknowledged = true ↔ acknowledged :=
    hflag (fun b => b.taken = true) _ _ (fun entry => by simp [busAfter, bus]) (by decide)
  have hoccupied : ¬q.obfAHigh = true ↔ occupied := by
    refine hflag (fun b => ¬b.free = true) _ _ (fun entry => ?_) (by decide)
    cases hwritten : entry.2.written.isSome with
    | true => simp [busAfter, hwritten, written_alone (p := entry.1) hwritten]
    | false => simp [busAfter, bus, hwritten]
  obtain ⟨h3, h4, h5, h6, h7⟩ := hmode.readPortC_bits
  have hportC : (q.read 0x02#8).1 = q.readPortC := rfl
  rw [hportC]
  refine ⟨(hmode.read_latch rfl).trans (hregister Bus.latch _ fun _ => rfl),
    hregister Bus.output _ fun _ => rfl, ?_, h4.trans hstrobe, ?_, h6.trans hack, h3, ?_⟩
  · rw [h5]
    exact hfull
  · rw [h7, ← hoccupied, Bool.not_eq_true]
  · have hinput : q.inteAInput = _ := hregister Bus.enabledInput _ fun _ => rfl
    have houtput : q.inteAOutput = _ := hregister Bus.enabledOutput _ fun _ => rfl
    rw [hmode.intrA, Bool.or_eq_true, Bool.and_eq_true, Bool.and_eq_true, Bool.and_eq_true,
      Bool.and_eq_true, Bool.and_eq_true, hfull, hacknowledged, hstrobe, hack, hinput, houtput,
      ← hoccupied, Classical.not_not]
    simp only [and_assoc]

/-- The device strobes a byte in while one of software's still waits. -/
theorem bidirectional_port_both :
    BidirectionalWord 0xC0#8 ∧
      let q := Run.run drive (({} : Ppi8255).write 0x03#8 0xC0#8)
        [.write 0x00#8 0x41#8 rfl, .setPortAInput 0x0D#8, .setStrobeA false]
      (q.read 0x00#8).1 = 0x0D#8 ∧ q.outputA = 0x41#8 := by
  have hword : BidirectionalWord 0xC0#8 := by constructor <;> decide
  obtain ⟨hread, houtput, -⟩ := bidirectional_port {} hword
    [.write 0x00#8 0x41#8 rfl, .setPortAInput 0x0D#8, .setStrobeA false]
  exact ⟨hword, hread.trans (by decide), houtput.trans (by decide)⟩

/-- Over every such run and in either direction: the bytes given are those taken, in order, but for those
that the next one overwrites, and the one that waits. -/
theorem bidirectional_transfer (p : Ppi8255) {word : Byte} (hword : BidirectionalWord word)
    (ops : List LineOp) :
    let q := Run.run drive (p.write 0x03#8 word) ops
    let history := Run.record drive (p.write 0x03#8 word) ops
    (history.flatMap fun entry => (strobed entry).toList) =
        (history.flatMap fun entry => bytesRead entry ++ bytesOverrun entry) ++ q.unread ∧
      (history.flatMap fun entry => entry.2.written.toList) =
        (history.flatMap fun entry => bytesTaken entry ++ bytesReplaced entry) ++ q.waiting := by
  intro q history
  obtain ⟨hstart, hfresh⟩ := hword.starts p
  have hkeep : ∀ (s : Ppi8255) (op : LineOp), s.Bidirectional → (s.drive op).Bidirectional :=
    fun s op h => (h.drive op).1
  have hunread : (p.write 0x03#8 word).unread = [] := by
    rw [unread, show (p.write 0x03#8 word).ibfA = false from congrArg Bus.full hfresh]
    rfl
  have hwaiting : (p.write 0x03#8 word).waiting = [] := by
    rw [waiting, show (p.write 0x03#8 word).obfAHigh = true from congrArg Bus.free hfresh]
    rfl
  have hqueue : ∀ (queue : Ppi8255 → List Byte) (given taken : Ppi8255 × LineOp → List Byte),
      (∀ s op, s.Bidirectional →
        queue s ++ given (s, op) = taken (s, op) ++ queue (s.drive op)) →
      queue (p.write 0x03#8 word) = [] →
      history.flatMap given = history.flatMap taken ++ queue q := by
    intro queue given taken hstep hempty
    have hall : queue (p.write 0x03#8 word) ++ history.flatMap given =
        history.flatMap taken ++ queue q :=
      Run.queue_of_record queue hkeep (fun s op h (_ : True) => hstep s op h) hstart ops
        fun _ _ => trivial
    rwa [hempty, List.nil_append] at hall
  exact ⟨hqueue unread _ _ (fun s op h => h.drive_unread op) hunread,
    hqueue waiting _ _ (fun s op h => h.drive_waiting op) hwaiting⟩

/-- Software writes a second byte before the device has taken the first. -/
theorem bidirectional_transfer_replaced :
    BidirectionalWord 0xC0#8 ∧
      let history := Run.record drive (({} : Ppi8255).write 0x03#8 0xC0#8)
        [.write 0x00#8 0x41#8 rfl, .write 0x00#8 0x42#8 rfl]
      (history.flatMap fun entry => bytesTaken entry ++ bytesReplaced entry) ++ [0x42#8] =
        [0x41#8, 0x42#8] := by
  have hword : BidirectionalWord 0xC0#8 := by constructor <;> decide
  obtain ⟨-, houtput⟩ := bidirectional_transfer {} hword
    [.write 0x00#8 0x41#8 rfl, .write 0x00#8 0x42#8 rfl]
  exact ⟨hword, houtput.symm⟩

end Ppi8255
end FK1
