import FK1.DiskController
import FK1.FloppyStream

/-!
# FK1.DiskSteps

The parts of a controller step, each with what it does in the situations the transfers meet.

* `DiskSide.Ready`: what a coherent board says of its disk side.
* `refresh_of_ready`, `refresh_swallow`, `refresh_count`: the edge detector at rest, with the mark's
  suppression, and counting.
* `Handles`: handling a cell leaves the drives, the control 8255 and I6 alone.
-/

namespace FK1

namespace Ppi8255

/-- A byte strobed into an enabled input raises INTR_B. -/
theorem pulseStrobeB_input {p : Ppi8255} (h : p.AtRest) (hin : p.strobedInputB = true)
    (hinte : p.inteB = true) (value : Byte) :
    (p.pulseStrobeB value).intrB = true ∧ (p.pulseStrobeB value).portBInputLatch = value ∧
      (p.pulseStrobeB value).intrA = p.intrA ∧ (p.pulseStrobeB value).inteB = true ∧
      (p.pulseStrobeB value).strobedInputB = true := by
  have hmode : p.groupBMode = .mode1 ∧ p.portBInputMode = true := by
    simpa [strobedInputB] using hin
  have hintr : p.updateInterrupts.intrA = p.intrA := congrArg Ppi8255.intrA h.updated
  rw [pulseStrobeB_eq h.strobeB]
  refine ⟨?_, if_pos hin, hintr, hinte, hin⟩
  simp [updateInterrupts, hin, hmode, hinte, h.strobeB]

/-- Reading an input takes the latched byte and lowers INTR_B. -/
theorem readPortB_input {p : Ppi8255} (h : p.AtRest) (hin : p.strobedInputB = true) :
    p.readPortB.1 = p.portBInputLatch ∧ p.readPortB.2.intrB = false ∧
      p.readPortB.2.intrA = p.intrA ∧ p.readPortB.2.inteB = p.inteB ∧
      p.readPortB.2.strobedInputB = true := by
  have hmode : p.groupBMode = .mode1 ∧ p.portBInputMode = true := by
    simpa [strobedInputB] using hin
  have hintr : p.updateInterrupts.intrA = p.intrA := congrArg Ppi8255.intrA h.updated
  unfold readPortB
  rw [if_pos hin]
  refine ⟨rfl, ?_, hintr, rfl, hin⟩
  simp [updateInterrupts, hmode]

theorem setStrobeB_outputA (p : Ppi8255) (high : Bool) : (p.setStrobeB high).outputA = p.outputA := by
  unfold setStrobeB
  dsimp only
  split <;> rfl

theorem setAckA_outputA (p : Ppi8255) (high : Bool) : (p.setAckA high).outputA = p.outputA := by
  unfold setAckA
  dsimp only
  split <;> split <;> rfl

@[simp] theorem pulseStrobeB_outputA (p : Ppi8255) (value : Byte) :
    (p.pulseStrobeB value).outputA = p.outputA :=
  (setStrobeB_outputA _ true).trans (setStrobeB_outputA (p.setPortBInput value) false)

@[simp] theorem pulseAckA_outputA (p : Ppi8255) : p.pulseAckA.outputA = p.outputA :=
  (setAckA_outputA _ true).trans (setAckA_outputA p false)

end Ppi8255

/-- The cell an event stores on the medium. -/
def Event.stored : Event → Option TimedFmByte
  | .written byte => some byte
  | .edge | .counterPulse | .mark | .strobe _ _ | .clock1 _ | .reset => none

/-- The cells stored on the medium. -/
def stores (trace : List Event) : List TimedFmByte := trace.filterMap Event.stored

theorem stores_append (xs ys : List Event) : stores (xs ++ ys) = stores xs ++ stores ys :=
  List.filterMap_append

theorem stores_written (cells : List TimedFmByte) : stores (cells.map Event.written) = cells := by
  induction cells with
  | nil => rfl
  | cons c cells ih => rw [List.map_cons, stores, List.filterMap_cons]; exact congrArg (c :: ·) ih

namespace DiskSide

/-- A disk side between two actions: the edge detector and the end of data have settled, nothing
waits to be stored. -/
structure Ready (s : DiskSide) : Prop where
  level : s.disk.dataInterruptLevel = s.dataInterrupt
  endOfData : s.terminal = true → s.disk.Ended
  ordinary : s.disk.ordinaryWriteActive = true → s.disk.aux.writeEnabled = true
  format : s.disk.formatWriteActive = true → s.disk.aux.formatEnabled = true
  gate1 : s.counter1.gate = (!s.disk.timingEnabled || s.disk.syncLatch)
  gateStops : s.counter1.GateStops
  counter2 : s.counter2.Armed
  atRest : s.diskData.AtRest
  flushed : s.disk.pendingWrites = []

/-! ## The refresh -/

variable {s s' s'' : DiskSide}

/-- Nothing to see. -/
theorem sample_of_level (h : s.disk.dataInterruptLevel = s.dataInterrupt) : s.sample = s := by
  have hno : ¬ (!s.disk.dataInterruptLevel && s.dataInterrupt) = true := by rw [h]; simp
  unfold sample
  rw [if_neg hno, ← h]

/-- The level has fallen: only the detector takes note. -/
theorem sample_of_low (h : s.dataInterrupt = false) :
    s.sample = { s with disk := { s.disk with dataInterruptLevel := false } } := by
  unfold sample
  rw [h, Bool.and_false, if_neg (by decide)]

theorem endOfData_of_low (h : s.terminal = false) : s.endOfData = s := by
  unfold endOfData
  rw [h, if_neg (by decide)]

theorem endOfData_of_high (h : s.terminal = true) :
    s.endOfData = { s with
      disk := ended s.disk
      counter1 := if s.disk.timingEnabled then s.counter1.setGate false else s.counter1 } := by
  unfold endOfData
  rw [h, if_pos rfl]

theorem refresh_of_level (h : s.disk.dataInterruptLevel = s.dataInterrupt)
    (ht : s.terminal = false) : s.refresh = s := by
  rw [refresh, sample_of_level h, endOfData_of_low ht]

theorem refresh_of_low (hi : s.dataInterrupt = false) (ht : s.terminal = false) :
    s.refresh = { s with disk := { s.disk with dataInterruptLevel := false } } := by
  rw [refresh, sample_of_low hi]
  exact endOfData_of_low ht

theorem refresh_of_high (hi : s.dataInterrupt = false) (ht : s.terminal = true) :
    s.refresh = { s with
      disk := ended { s.disk with dataInterruptLevel := false }
      counter1 := if s.disk.timingEnabled then s.counter1.setGate false else s.counter1 } := by
  rw [refresh, sample_of_low hi]
  exact endOfData_of_high ht

/-- The edge of a mark's own presentation is not counted. -/
theorem refresh_swallow (hl : s.disk.dataInterruptLevel = false) (hi : s.dataInterrupt = true)
    (hs : s.disk.suppressByteCounterOnce = true) (ht : s.terminal = false) :
    s.refresh = { s with
      disk := { s.disk with dataInterruptLevel := true, suppressByteCounterOnce := false }
      trace := s.trace ++ [Event.edge] } := by
  have hsample : s.sample = { s with
      disk := { s.disk with dataInterruptLevel := true, suppressByteCounterOnce := false }
      trace := s.trace ++ [Event.edge] } := by
    unfold sample
    rw [if_pos (by simp [hl, hi]), if_pos hs, hi]
  rw [refresh, hsample]
  exact endOfData_of_low ht

/-- A counter that has not been loaded does not count the edge. -/
theorem refresh_unloaded (hl : s.disk.dataInterruptLevel = false) (hi : s.dataInterrupt = true)
    (hs : s.disk.suppressByteCounterOnce = false) (ht : s.terminal = false)
    (hload : s.counter2.countLoaded = false) :
    s.refresh = { s with
      disk := { s.disk with dataInterruptLevel := true }
      trace := s.trace ++ [Event.edge, Event.counterPulse] } := by
  have hcount : (s.counter2.clockLoop 1 {}).1 = s.counter2 := by
    simp [PitChannel.clockLoop, PitChannel.clockOnce, hload]
  have hsample : s.sample = { s with
      disk := { s.disk with dataInterruptLevel := true }
      trace := s.trace ++ [Event.edge, Event.counterPulse] } := by
    unfold sample
    rw [if_pos (by simp [hl, hi]), if_neg (by simp [hs]), hi, hcount]
  rw [refresh, hsample]
  exact endOfData_of_low ht

/-- An edge counts; the last one ends the operation. -/
theorem refresh_count (hl : s.disk.dataInterruptLevel = false) (hi : s.dataInterrupt = true)
    (hs : s.disk.suppressByteCounterOnce = false) (ht : s.terminal = false)
    (hc : s.counter2.Armed) (hm : s.counter2.mode = 0) (hload : s.counter2.countLoaded = true) :
    s.refresh =
      if s.counter2.current = 1 then
        { s with
          disk := ended { s.disk with dataInterruptLevel := true }
          counter1 := if s.disk.timingEnabled then s.counter1.setGate false else s.counter1
          counter2 := { s.counter2 with current := 0, output := true, running := false }
          trace := s.trace ++ [Event.edge, Event.counterPulse] }
      else
        { s with
          disk := { s.disk with dataInterruptLevel := true }
          counter2 := { s.counter2 with current := s.counter2.current - 1 }
          trace := s.trace ++ [Event.edge, Event.counterPulse] } := by
  have hsample : s.sample = { s with
      disk := { s.disk with dataInterruptLevel := true }
      counter2 := (s.counter2.clockLoop 1 {}).1
      trace := s.trace ++ [Event.edge, Event.counterPulse] } := by
    unfold sample
    rw [if_pos (by simp [hl, hi]), if_neg (by simp [hs]), hi]
  rw [refresh, hsample, hc.clockLoop_one hm hload ht]
  by_cases h1 : s.counter2.current = 1
  · rw [if_pos h1, if_pos h1]
    exact endOfData_of_high rfl
  · rw [if_neg h1, if_neg h1]
    exact endOfData_of_low ht

/-! ## Handling cells -/

/-- From `s` to `s'` only the controller's own parts have changed. -/
structure Handles (s s' : DiskSide) : Prop where
  floppy : s'.floppy = s.floppy
  controlA : s'.controlA = s.controlA
  controlAEnabled : s'.controlAEnabled = s.controlAEnabled
  diskTimeoutLatch : s'.diskTimeoutLatch = s.diskTimeoutLatch
  timing : s'.disk.timingEnabled = s.disk.timingEnabled
  outputA : s'.diskData.outputA = s.diskData.outputA
  ordinary : s'.disk.ordinaryWriteActive = true → s.disk.ordinaryWriteActive = true
  stored : stores s'.trace = stores s.trace

namespace Handles

theorem refl (s : DiskSide) : s.Handles s := ⟨rfl, rfl, rfl, rfl, rfl, rfl, id, rfl⟩

theorem trans (h : s.Handles s') (h' : s'.Handles s'') : s.Handles s'' :=
  ⟨h'.floppy.trans h.floppy, h'.controlA.trans h.controlA,
    h'.controlAEnabled.trans h.controlAEnabled, h'.diskTimeoutLatch.trans h.diskTimeoutLatch,
    h'.timing.trans h.timing, h'.outputA.trans h.outputA, fun ho => h.ordinary (h'.ordinary ho),
    h'.stored.trans h.stored⟩

end Handles

theorem sample_handles (s : DiskSide) : s.Handles s.sample := by
  unfold sample
  dsimp only
  repeat' split
  · exact ⟨rfl, rfl, rfl, rfl, rfl, rfl, id, (stores_append _ _).trans (List.append_nil _)⟩
  · exact ⟨rfl, rfl, rfl, rfl, rfl, rfl, id, (stores_append _ _).trans (List.append_nil _)⟩
  · exact ⟨rfl, rfl, rfl, rfl, rfl, rfl, id, rfl⟩

theorem endOfData_handles (s : DiskSide) : s.Handles s.endOfData := by
  unfold endOfData
  split
  · exact ⟨rfl, rfl, rfl, rfl, rfl, rfl, nofun, rfl⟩
  · exact .refl s

theorem refresh_handles (s : DiskSide) : s.Handles s.refresh :=
  (sample_handles s).trans (endOfData_handles _)

theorem transfer_handles (s : DiskSide) (tick : Nat) : s.Handles (s.transfer tick) := by
  obtain ⟨h1, h2, h3, h4, h5, h6, h7, h8⟩ := refresh_handles { s with
    disk := { s.disk with pendingWrites := s.disk.pendingWrites ++ [s.written tick] }
    diskData := s.diskData.pulseAckA }
  exact ⟨h1, h2, h3, h4, h5, h6.trans s.diskData.pulseAckA_outputA, h7, h8⟩

theorem present_handles (s : DiskSide) (byte : TimedFmByte) : s.Handles (s.present byte) := by
  obtain ⟨h1, h2, h3, h4, h5, h6, h7, h8⟩ :=
    refresh_handles { s with diskData := s.diskData.pulseStrobeB byte.data }
  exact ⟨h1, h2, h3, h4, h5, h6.trans (s.diskData.pulseStrobeB_outputA byte.data), h7,
    (stores_append _ _).trans ((List.append_nil _).trans h8)⟩

theorem read_handles (s : DiskSide) (byte : TimedFmByte) : s.Handles (s.read byte) := by
  unfold read
  split
  · exact .refl s
  split
  · exact present_handles s byte
  split
  · have hsync : s.Handles s.synchronize :=
      ⟨rfl, rfl, rfl, rfl, rfl, rfl, id, (stores_append _ _).trans (List.append_nil _)⟩
    exact hsync.trans (present_handles s.synchronize byte)
  · exact .refl s

theorem endFormat_handles (s : DiskSide) : s.Handles s.endFormat := by
  obtain ⟨h1, h2, h3, h4, h5, h6, h7, h8⟩ :=
    refresh_handles { s with disk := ended s.disk, counter1 := s.counter1.setGate false }
  exact ⟨h1, h2, h3, h4, h5, h6, fun h => absurd (h7 h) nofun, h8⟩

theorem process_handles (s : DiskSide) (byte : TimedFmByte) : s.Handles (s.process byte) := by
  have hset : ∀ d : DiskState, d.timingEnabled = s.disk.timingEnabled →
      d.ordinaryWriteActive = s.disk.ordinaryWriteActive → s.Handles { s with disk := d } :=
    fun _ ht ho => ⟨rfl, rfl, rfl, rfl, ht, rfl, fun h => ho.symm.trans h, rfl⟩
  unfold process
  dsimp only
  split
  · exact hset _ (by rfl) (by rfl)
  split
  · exact (hset _ (by rfl) (by rfl)).trans (endFormat_handles _)
  split
  · split
    · exact ((hset _ (by rfl) (by rfl)).trans (transfer_handles _ _)).trans (read_handles _ _)
    · exact (hset _ (by rfl) (by rfl)).trans (read_handles _ byte)
  · split
    · exact ((hset _ (by rfl) (by rfl)).trans (transfer_handles _ _)).trans (read_handles _ _)
    · exact (hset _ (by rfl) (by rfl)).trans (read_handles _ byte)

theorem processAll_handles (bytes : List TimedFmByte) (s : DiskSide) :
    s.Handles (bytes.foldl process s) := by
  induction bytes generalizing s with
  | nil => exact .refl s
  | cons byte bytes ih => exact (process_handles s byte).trans (ih _)

theorem read_disabled (h : s.disk.aux.readEnabled = false) (byte : TimedFmByte) : s.read byte = s := by
  unfold read
  rw [h, Bool.not_false, if_pos rfl]

/-- The reader passes a byte on. -/
theorem read_synced (h : s.disk.aux.readEnabled = true) (hs : s.disk.syncLatch = true)
    (byte : TimedFmByte) : s.read byte = s.present byte := by
  unfold read
  rw [h, hs, Bool.not_true, if_neg (by decide), if_pos rfl]

theorem read_mark (h : s.disk.aux.readEnabled = true) (hs : s.disk.syncLatch = false)
    {byte : TimedFmByte} (hm : selectedMark s.disk.aux.dataMarkSelected byte = true) :
    s.read byte = s.synchronize.present byte := by
  unfold read
  rw [h, hs, hm, Bool.not_true, if_neg (by decide), if_neg (by decide), if_pos rfl]

theorem read_no_mark (hs : s.disk.syncLatch = false) {byte : TimedFmByte}
    (hm : selectedMark s.disk.aux.dataMarkSelected byte = false) : s.read byte = s := by
  unfold read
  rw [hs, hm, if_neg (by decide : ¬ (false = true)), if_neg (by decide : ¬ (false = true)), ite_self]

/-- A cell under a controller that neither formats nor writes is at most read. -/
theorem process_reading (ht : s.disk.timingEnabled = true) (hf : s.disk.aux.formatEnabled = false)
    (hw : s.writing = false) (byte : TimedFmByte) :
    s.process byte = (s.reached byte.tick).read byte := by
  have hwriting : ¬ (s.reached byte.tick).writing = true := by
    rw [show (s.reached byte.tick).writing = s.writing from rfl, hw]; decide
  have htiming : (s.reached byte.tick).disk.timingEnabled = true := ht
  have hformat : (s.reached byte.tick).disk.aux.formatEnabled = false := hf
  unfold process
  simp only [htiming, hformat, Bool.not_true, Bool.false_and, Bool.false_eq_true, if_false]
  rw [if_neg hwriting]

/-- With the timing logic in reset only the position is noted. -/
theorem process_untimed (ht : s.disk.timingEnabled = false) (byte : TimedFmByte) :
    s.process byte = s.reached byte.tick := by
  have htiming : (s.reached byte.tick).disk.timingEnabled = false := ht
  unfold process
  simp only [htiming, Bool.not_false, if_true]

/-- A cell that is neither read nor written. -/
theorem process_passive (hr : s.disk.aux.readEnabled = false) (hf : s.disk.aux.formatEnabled = false)
    (hw : s.writing = false) (byte : TimedFmByte) : s.process byte = s.reached byte.tick := by
  cases ht : s.disk.timingEnabled with
  | false => exact process_untimed ht byte
  | true =>
    rw [process_reading ht hf hw]
    exact read_disabled (s := s.reached byte.tick) hr byte

/-! ## The timer and the store -/

/-- The rising edges of OUT1 within `clocks` pulses. -/
def risingEdges (s : DiskSide) (clocks : Nat) : Nat := (s.counter1.clockLoop clocks {}).2.risingEdges

/-- The timer changes counter 1 and, under RE, perhaps I6; then OUT1 may start a write. -/
theorem timer_start (s : DiskSide) (clocks : Nat) :
    ∃ counter1 latch new,
      s.timer clocks = startWrite { s with
        counter1 := counter1, diskTimeoutLatch := latch, trace := s.trace ++ new }
          (s.risingEdges clocks) ∧
      (s.disk.aux.readEnabled = false → latch = s.diskTimeoutLatch) ∧
      (new = [] ∨ new = [Event.clock1 clocks]) := by
  unfold timer
  split
  · rename_i h0
    refine ⟨s.counter1, s.diskTimeoutLatch, [], ?_, fun _ => rfl, .inl rfl⟩
    have hedges : s.risingEdges clocks = 0 := by rw [h0]; rfl
    unfold startWrite
    rw [hedges, List.append_nil, if_neg (by simp)]
  · unfold timerEdges
    split
    · rename_i he
      refine ⟨_, true, _, rfl, fun hr => ?_, .inr rfl⟩
      simp [hr] at he
    · exact ⟨_, s.diskTimeoutLatch, _, rfl, fun _ => rfl, .inr rfl⟩

theorem startWrite_floppy (s : DiskSide) (risingEdges : Nat) :
    (s.startWrite risingEdges).floppy = s.floppy := by
  unfold startWrite
  split
  · exact (transfer_handles _ _).floppy
  · rfl

/-- Unless OUT1 starts a write. -/
theorem timer_eq (clocks : Nat) (h : s.disk.aux.writeEnabled = false ∨
      s.disk.ordinaryWriteActive = true ∨ s.risingEdges clocks = 0) :
    ∃ counter1 latch new,
      s.timer clocks = { s with
        counter1 := counter1, diskTimeoutLatch := latch, trace := s.trace ++ new } ∧
      (s.disk.aux.readEnabled = false → latch = s.diskTimeoutLatch) ∧
      (new = [] ∨ new = [Event.clock1 clocks]) := by
  obtain ⟨counter1, latch, new, he, hrest⟩ := timer_start s clocks
  refine ⟨counter1, latch, new, ?_, hrest⟩
  rw [he, startWrite]
  rcases h with h | h | h <;> simp [h]

theorem flush_of_nil (h : s.disk.pendingWrites = []) : s.flush = s := by
  unfold flush
  rw [h, List.foldl_nil, ← h]

theorem passing_eq (s : DiskSide) (ticks : Nat) : s.passing ticks = s.floppy.stream ticks :=
  s.floppy.visitBytes_eq_stream ticks

/-- A time step in which OUT1 starts no write: the passing cells, the turn, counter 1, the store. -/
theorem advance_eq {ticks : Nat} {r : DiskSide} (clocks : Nat)
    (hr : (s.passing ticks).foldl process s = r)
    (hw : r.disk.aux.writeEnabled = false ∨ r.disk.ordinaryWriteActive = true ∨
      r.risingEdges clocks = 0) :
    ∃ counter1 latch new,
      s.advance ticks clocks = flush { r with
        floppy := s.floppy.advance ticks, counter1 := counter1, diskTimeoutLatch := latch
        trace := r.trace ++ new } ∧
      (r.disk.aux.readEnabled = false → latch = s.diskTimeoutLatch) ∧
      (new = [] ∨ new = [Event.clock1 clocks]) := by
  have hhandles : s.Handles r := hr ▸ processAll_handles _ s
  obtain ⟨counter1, latch, new, he, hlatch, hnew⟩ := timer_eq (s := r.turn ticks) clocks hw
  refine ⟨counter1, latch, new, ?_, fun h => (hlatch h).trans hhandles.diskTimeoutLatch, hnew⟩
  unfold advance
  rw [hr, he, turn, hhandles.floppy]

end DiskSide

/-- Every track of the image has the cells `bytes`, when they can be set. -/
def FloppyDiskImage.uniform (bytes : List TimedFmByte) : FloppyDiskImage :=
  { tracks := fun _ => (FloppyTrack.setBytes {} bytes).2 }

namespace Board

variable {b : Board}

theorem Coherent.ready (h : b.Coherent) : b.diskSide.Ready :=
  ⟨h.level, h.endOfData, h.ordinary, h.format, h.gate1, h.gateStops, h.counter2, h.atRest, h.flushed⟩

/-- A board from power-up with a medium in drive A, after these port writes. -/
def setUp (image : FloppyDiskImage) (writes : List (Word × Byte)) : Board :=
  Run.run act (power [])
    (.host (.insertFloppy 0 image .readWrite) :: writes.map fun w => .host (.writeIo w.1 w.2))

theorem setUp_reachable (image : FloppyDiskImage) (writes : List (Word × Byte)) :
    (setUp image writes).Reachable := ⟨[], _, rfl⟩

end Board
end FK1
