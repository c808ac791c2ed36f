import FK1.DiskSteps

/-!
# FK1.OutputHandshake

The requests for bytes that a writing controller makes through port A of the data 8255.

* `Asks`: group A interrupts for each byte and nothing else does. Neither an acknowledge nor a byte
  for PA changes that; where group A does not ask, neither changes an interrupt.
* `DiskSide.transfer_asks`, `transfer_quiet`: a transfer that counts, and one that does not.
-/

namespace FK1

/-- Group A asks for every byte through its output handshake, and nothing else interrupts. -/
structure Asks (p : Ppi8255) : Prop where
  strobed : p.strobedOutputA = true
  inteA : p.inteAOutput = true
  input : (p.strobedInputA && p.inteAInput && p.ibfA) = false
  intrB : p.intrB = false

/-- The level of INTR_A or INTR_B. -/
def interrupts (p : Ppi8255) : Bool := p.intrA || p.intrB

/-- What the interrupts of a chip at rest depend on besides the output handshake. -/
theorem interrupts_eq {p : Ppi8255} (h : p.AtRest) :
    p.intrA = ((p.strobedInputA && p.inteAInput && p.ibfA) ||
      (p.strobedOutputA && p.inteAOutput && p.outputAAcknowledged && p.obfAHigh)) := by
  have hupdated := congrArg Ppi8255.intrA h.updated
  simpa [Ppi8255.updateInterrupts, h.strobeA, h.ackA] using hupdated.symm

/-- After an acknowledge or a byte for PA. -/
structure Handshakes (p p' : Ppi8255) : Prop where
  strobedOutputA : p'.strobedOutputA = p.strobedOutputA
  inteAOutput : p'.inteAOutput = p.inteAOutput
  input : (p'.strobedInputA && p'.inteAInput && p'.ibfA) = (p.strobedInputA && p.inteAInput && p.ibfA)
  intrB : p'.intrB = p.intrB

theorem ack_handshakes {p : Ppi8255} (h : p.AtRest) : Handshakes p p.pulseAckA := by
  have hB : p.updateInterrupts.intrB = p.intrB := congrArg Ppi8255.intrB h.updated
  rw [Ppi8255.pulseAckA_eq h.ackA]
  exact ⟨rfl, rfl, rfl, hB⟩

theorem asks_iff {p p' : Ppi8255} (h : Handshakes p p') : Asks p' ↔ Asks p := by
  constructor
  · rintro ⟨h1, h2, h3, h4⟩
    exact ⟨h.strobedOutputA ▸ h1, h.inteAOutput ▸ h2, h.input ▸ h3, h.intrB ▸ h4⟩
  · rintro ⟨h1, h2, h3, h4⟩
    exact ⟨h.strobedOutputA.trans h1, h.inteAOutput.trans h2, h.input.trans h3, h.intrB.trans h4⟩

/-- Group A does not ask: its output handshake has no say in the interrupts. -/
theorem interrupts_of_not_asks {p : Ppi8255} (h : p.AtRest) (hn : ¬ Asks p) :
    interrupts p = ((p.strobedInputA && p.inteAInput && p.ibfA) || p.intrB) := by
  have hn' : ¬ (p.strobedOutputA = true ∧ p.inteAOutput = true ∧
      (p.strobedInputA && p.inteAInput && p.ibfA) = false ∧ p.intrB = false) :=
    fun ⟨h1, h2, h3, h4⟩ => hn ⟨h1, h2, h3, h4⟩
  rw [interrupts, interrupts_eq h]
  generalize (p.strobedInputA && p.inteAInput && p.ibfA) = input at *
  cases input <;> cases hB : p.intrB <;> simp_all

/-- An acknowledge asks for the next byte, if group A asks for bytes; else it changes no interrupt. -/
theorem ack_interrupts {p : Ppi8255} (h : p.AtRest) :
    (Asks p → p.pulseAckA.intrA = true) ∧ (¬ Asks p → interrupts p.pulseAckA = interrupts p) := by
  have hs := ack_handshakes h
  refine ⟨fun ha => ?_, fun hn => ?_⟩
  · have hfree : p.pulseAckA.outputAAcknowledged = true ∧
        p.pulseAckA.obfAHigh = (p.obfAHigh || p.strobedOutputA) := by
      rw [Ppi8255.pulseAckA_eq h.ackA]; exact ⟨rfl, rfl⟩
    rw [interrupts_eq h.pulseAckA, hs.strobedOutputA, hs.inteAOutput, hfree.1, hfree.2, ha.strobed,
      ha.inteA]
    simp
  · rw [interrupts_of_not_asks h hn, interrupts_of_not_asks h.pulseAckA (mt (asks_iff hs).mp hn), hs.input,
      hs.intrB]

/-- A byte for PA. -/
theorem writePa_eq {p : Ppi8255} {registerIndex : Byte} (hr : registerIndex &&& 0x03#8 = 0#8)
    (value : Byte) :
    p.write registerIndex value = (if p.strobedOutputA then
      { p with
        portAOutput := value, obfAHigh := false, outputAAcknowledged := false, intrA := false }
      else { p with portAOutput := value }).updateInterrupts := by
  unfold Ppi8255.write
  rw [hr]
  rfl

theorem writePa_handshakes {p : Ppi8255} (h : p.AtRest) {registerIndex : Byte}
    (hr : registerIndex &&& 0x03#8 = 0#8) (value : Byte) :
    Handshakes p (p.write registerIndex value) := by
  have hB : p.updateInterrupts.intrB = p.intrB := congrArg Ppi8255.intrB h.updated
  rw [writePa_eq hr]
  split <;> exact ⟨rfl, rfl, rfl, hB⟩

/-- It takes the request back, if group A asks for bytes; else it changes no interrupt. -/
theorem writePa_interrupts {p : Ppi8255} (h : p.AtRest) {registerIndex : Byte}
    (hr : registerIndex &&& 0x03#8 = 0#8) (value : Byte) :
    (Asks p → interrupts (p.write registerIndex value) = false) ∧
      (¬ Asks p → interrupts (p.write registerIndex value) = interrupts p) := by
  have hs := writePa_handshakes h hr value
  have hrest := h.write registerIndex value
  refine ⟨fun ha => ?_, fun hn => ?_⟩
  · have htaken : (p.write registerIndex value).outputAAcknowledged = false := by
      rw [writePa_eq hr, if_pos ha.strobed]; rfl
    rw [interrupts, interrupts_eq hrest, hs.input, hs.intrB, ha.input, ha.intrB, htaken]
    simp
  · rw [interrupts_of_not_asks h hn, interrupts_of_not_asks hrest (mt (asks_iff hs).mp hn), hs.input,
      hs.intrB]

/-! ## Transfers and the byte counter -/

namespace DiskSide

variable {s : DiskSide}

/-- The state in which the serializer takes the byte for `tick`. -/
def taking (s : DiskSide) (tick : Nat) : DiskSide :=
  { s with
    disk := { s.disk with pendingWrites := s.disk.pendingWrites ++ [s.written tick] }
    diskData := s.diskData.pulseAckA }

theorem taking_quiet (hr : s.diskData.AtRest) (hq : Asks s.diskData → s.dataInterrupt = true)
    (tick : Nat) : (s.taking tick).dataInterrupt = s.dataInterrupt := by
  obtain ⟨hasks, hnot⟩ := ack_interrupts hr
  by_cases ha : Asks s.diskData
  · rw [hq ha, dataInterrupt]
    show (s.diskData.pulseAckA.intrA || _) = true
    rw [hasks ha, Bool.true_or]
  · exact hnot ha

/-- An acknowledge that raises no interrupt. -/
theorem transfer_quiet (hr : s.diskData.AtRest) (hl : s.disk.dataInterruptLevel = s.dataInterrupt)
    (ht : s.terminal = false) (hq : Asks s.diskData → s.dataInterrupt = true) (tick : Nat) :
    s.transfer tick = s.taking tick :=
  refresh_of_level (s := s.taking tick) (hl.trans (taking_quiet hr hq tick).symm) ht

theorem taking_interrupts (hr : s.diskData.AtRest) (ha : Asks s.diskData) (tick : Nat) :
    (s.taking tick).dataInterrupt = true := by
  show (s.diskData.pulseAckA.intrA || _) = true
  rw [(ack_interrupts hr).1 ha, Bool.true_or]

/-- An acknowledge that asks for the next byte takes back the suppression. -/
theorem transfer_swallow (hr : s.diskData.AtRest) (ha : Asks s.diskData)
    (hl : s.disk.dataInterruptLevel = false) (hs : s.disk.suppressByteCounterOnce = true)
    (ht : s.terminal = false) (tick : Nat) :
    s.transfer tick = { s.taking tick with
      disk := { (s.taking tick).disk with dataInterruptLevel := true, suppressByteCounterOnce := false }
      trace := s.trace ++ [Event.edge] } :=
  refresh_swallow (s := s.taking tick) hl (taking_interrupts hr ha tick) hs ht

/-- Or it counts, if the counter has been loaded; the last byte ends the operation. -/
theorem transfer_count (hr : s.diskData.AtRest) (ha : Asks s.diskData)
    (hl : s.disk.dataInterruptLevel = false) (hs : s.disk.suppressByteCounterOnce = false)
    (ht : s.terminal = false) (hc : s.counter2.Armed) (hm : s.counter2.mode = 0)
    (hload : s.counter2.countLoaded = true) (tick : Nat) :
    s.transfer tick =
      if s.counter2.current = 1 then
        { s.taking tick with
          disk := ended { (s.taking tick).disk with dataInterruptLevel := true }
          counter1 := if s.disk.timingEnabled then s.counter1.setGate false else s.counter1
          counter2 := { s.counter2 with current := 0, output := true, running := false }
          trace := s.trace ++ [Event.edge, Event.counterPulse] }
      else
        { s.taking tick with
          disk := { (s.taking tick).disk with dataInterruptLevel := true }
          counter2 := { s.counter2 with current := s.counter2.current - 1 }
          trace := s.trace ++ [Event.edge, Event.counterPulse] } :=
  refresh_count (s := s.taking tick) hl (taking_interrupts hr ha tick) hs ht hc hm hload

/-- A byte for PA, before the refresh that follows. -/
def supplied (s : DiskSide) (registerIndex value : Byte) : DiskSide :=
  { s with diskData := s.diskData.write registerIndex value }

/-- A byte for PA raises no edge. -/
theorem supplied_refresh (hr : s.diskData.AtRest) (hl : s.disk.dataInterruptLevel = s.dataInterrupt)
    (ht : s.terminal = false) {registerIndex : Byte} (hreg : registerIndex &&& 0x03#8 = 0#8)
    (value : Byte) :
    (s.supplied registerIndex value).refresh = { s.supplied registerIndex value with
      disk := { s.disk with
        dataInterruptLevel := interrupts (s.diskData.write registerIndex value) } } := by
  obtain ⟨hasks, hnot⟩ := writePa_interrupts hr hreg value
  by_cases ha : Asks s.diskData
  · rw [refresh_of_low (s := s.supplied registerIndex value) (hasks ha) ht, hasks ha]
    rfl
  · have hsame : (s.supplied registerIndex value).disk.dataInterruptLevel =
        (s.supplied registerIndex value).dataInterrupt := hl.trans (hnot ha).symm
    have hlevel : interrupts (s.diskData.write registerIndex value) = s.disk.dataInterruptLevel :=
      (hnot ha).trans hl.symm
    rw [refresh_of_level (s := s.supplied registerIndex value) hsame ht, hlevel]
    rfl

end DiskSide
end FK1
