import FK1.DiskSteps

/-!
# FK1.DiskRead

The disk read end to end: the mark hunt, the bytes after the mark, and the end of data.

* `DiskSide.Reading`: the reader after `field`, the mark and the cells after it that have passed.
* `Reading.process`: what one more cell does to it.
* `Board.Polls`: time in short steps and a CPU that takes every byte before the next cell passes.
* `Board.read_transfers`: what such a CPU has read, at every moment of such a run.
-/

namespace FK1

/-- The cell an event strobes into port B. -/
def Event.strobed : Event → Option TimedFmByte
  | .strobe byte _ => some byte
  | .edge | .counterPulse | .mark | .clock1 _ | .written _ | .reset => none

/-- The cells the reader has strobed into port B. -/
def strobes (trace : List Event) : List TimedFmByte := trace.filterMap Event.strobed

theorem strobes_append (xs ys : List Event) : strobes (xs ++ ys) = strobes xs ++ strobes ys :=
  List.filterMap_append

/-- The passing cells from the first selected mark on. -/
def fieldOf (rdm : Bool) (cells : List TimedFmByte) : List TimedFmByte :=
  cells.dropWhile fun c => !DiskSide.selectedMark rdm c

/-- One more cell passes. -/
def extendField (rdm : Bool) (field : List TimedFmByte) (c : TimedFmByte) : List TimedFmByte :=
  if field = [] then (if DiskSide.selectedMark rdm c then [c] else []) else field ++ [c]

theorem fieldOf_snoc (rdm : Bool) (cells : List TimedFmByte) (c : TimedFmByte) :
    fieldOf rdm (cells ++ [c]) = extendField rdm (fieldOf rdm cells) c := by
  unfold fieldOf extendField
  rw [List.dropWhile_append]
  by_cases h : cells.dropWhile (fun c => !DiskSide.selectedMark rdm c) = []
  · rw [h]
    cases hm : DiskSide.selectedMark rdm c <;> simp [hm]
  · rw [if_neg (by simpa using h), if_neg h]

theorem extendField_ne_nil {rdm : Bool} {field : List TimedFmByte} (h : field ≠ [])
    (c : TimedFmByte) : extendField rdm field c = field ++ [c] := if_neg h

namespace DiskSide

/-- The data 8255 as the reader needs it: group B takes strobed input, INTE_B is set and group A
does not interrupt. -/
structure Listening (p : Ppi8255) : Prop where
  strobed : p.strobedInputB = true
  inteB : p.inteB = true
  intrA : p.intrA = false

theorem Listening.pulse {p : Ppi8255} (h : Listening p) (hr : p.AtRest) (value : Byte) :
    Listening (p.pulseStrobeB value) := by
  obtain ⟨_, _, hA, hB, hin⟩ := Ppi8255.pulseStrobeB_input hr h.strobed h.inteB value
  exact ⟨hin, hB, hA.trans h.intrA⟩

variable {s : DiskSide}

/-- A listening 8255 asks for an interrupt with every byte. -/
theorem strobe_interrupt (hp : Listening s.diskData) (hr : s.diskData.AtRest) (byte : TimedFmByte) :
    { s with diskData := s.diskData.pulseStrobeB byte.data }.dataInterrupt = true := by
  obtain ⟨hB, _⟩ := Ppi8255.pulseStrobeB_input hr hp.strobed hp.inteB byte.data
  rw [dataInterrupt]
  simp [hB]

/-- The mark's own byte raises an edge that is not counted. -/
theorem present_swallow (hp : Listening s.diskData) (hr : s.diskData.AtRest)
    (hl : s.disk.dataInterruptLevel = false) (hs : s.disk.suppressByteCounterOnce = true)
    (ht : s.terminal = false) (byte : TimedFmByte) :
    s.present byte = { s with
      disk := { s.disk with dataInterruptLevel := true, suppressByteCounterOnce := false }
      diskData := s.diskData.pulseStrobeB byte.data
      trace := s.trace ++ [Event.edge] ++ [Event.strobe byte s.disk.aux.dataMarkSelected] } := by
  have hi := strobe_interrupt hp hr byte
  unfold present
  dsimp only
  rw [refresh_swallow (s := { s with diskData := s.diskData.pulseStrobeB byte.data }) hl hi hs ht]

/-- Every further byte counts; the last one ends the operation. -/
theorem present_count (hp : Listening s.diskData) (hr : s.diskData.AtRest)
    (hl : s.disk.dataInterruptLevel = false) (hs : s.disk.suppressByteCounterOnce = false)
    (ht : s.terminal = false) (hc : s.counter2.Armed) (hm : s.counter2.mode = 0)
    (hload : s.counter2.countLoaded = true) (byte : TimedFmByte) :
    s.present byte =
      if s.counter2.current = 1 then
        { s with
          disk := ended { s.disk with dataInterruptLevel := true }
          diskData := s.diskData.pulseStrobeB byte.data
          counter1 := if s.disk.timingEnabled then s.counter1.setGate false else s.counter1
          counter2 := { s.counter2 with current := 0, output := true, running := false }
          trace := s.trace ++ [Event.edge, Event.counterPulse] ++
            [Event.strobe byte s.disk.aux.dataMarkSelected] }
      else
        { s with
          disk := { s.disk with dataInterruptLevel := true }
          diskData := s.diskData.pulseStrobeB byte.data
          counter2 := { s.counter2 with current := s.counter2.current - 1 }
          trace := s.trace ++ [Event.edge, Event.counterPulse] ++
            [Event.strobe byte s.disk.aux.dataMarkSelected] } := by
  have hi := strobe_interrupt hp hr byte
  unfold present
  dsimp only
  rw [refresh_count (s := { s with diskData := s.diskData.pulseStrobeB byte.data }) hl hi hs ht hc hm
    hload]
  by_cases h1 : s.counter2.current = 1
  · rw [if_pos h1, if_pos h1]
  · rw [if_neg h1, if_neg h1]

/-- The reader at the moment `field` has passed, of which it presents the mark and `n` cells.
`earlier` are the cells presented before the operation, `bytes` those the CPU has taken. -/
structure Reading (aux : DiskAuxControl) (n : Nat) (earlier field : List TimedFmByte)
    (bytes : List Byte) (s : DiskSide) : Prop where
  timing : s.disk.timingEnabled = true
  listening : Listening s.diskData
  aux : s.disk.aux = if n < field.length then {} else aux
  sync : s.disk.syncLatch = (!field.isEmpty && decide (field.length ≤ n))
  terminal : s.terminal = decide (n < field.length)
  mode : s.counter2.mode = 0
  loaded : s.counter2.countLoaded = true
  count : field.length ≤ n → s.counter2.current = n - (field.length - 1)
  counts : field ≠ [] → field.length ≤ n → s.disk.suppressByteCounterOnce = false
  idle : s.writing = false
  presented : strobes s.trace = earlier ++ field.take (n + 1)
  taken : bytes ++ (if s.diskData.intrB then [s.diskData.portBInputLatch] else []) =
    (field.take (n + 1)).map TimedFmByte.data

/-- An auxiliary register that reads and does not write. -/
structure ReadsOnly (aux : DiskAuxControl) : Prop where
  readEnabled : aux.readEnabled = true
  writeEnabled : aux.writeEnabled = false
  formatEnabled : aux.formatEnabled = false

variable {aux : DiskAuxControl} {n : Nat} {earlier field : List TimedFmByte} {bytes : List Byte}

theorem Reading.taken_eq (h : Reading aux n earlier field bytes s) (hfree : s.diskData.intrB = false) :
    bytes = (field.take (n + 1)).map TimedFmByte.data := by
  have := h.taken
  rwa [hfree, if_neg (by decide), List.append_nil] at this

/-- After the end of data a passing cell is not presented. -/
theorem Reading.process_done (h : Reading aux n earlier field bytes s) (hdone : n < field.length)
    (c : TimedFmByte) :
    Reading aux n earlier (field ++ [c]) bytes (s.process c) ∧
      (s.process c).disk.pendingWrites = s.disk.pendingWrites := by
  have haux : s.disk.aux = {} := h.aux.trans (if_pos hdone)
  have hdone' : n < (field ++ [c]).length := by simp; omega
  have htake : (field ++ [c]).take (n + 1) = field.take (n + 1) :=
    List.take_append_of_le_length hdone
  have hlong : decide (field.length ≤ n) = false ∧ decide ((field ++ [c]).length ≤ n) = false := by
    constructor <;> rw [decide_eq_false_iff_not] <;> omega
  rw [process_passive (by rw [haux]) (by rw [haux]) h.idle]
  refine ⟨⟨h.timing, h.listening, ?_, ?_, ?_, h.mode, h.loaded, fun hle => absurd hle (by omega),
    fun _ hle => absurd hle (by omega), h.idle, ?_, ?_⟩, rfl⟩
  · rw [if_pos hdone']; exact haux
  · rw [hlong.2, Bool.and_false]
    exact h.sync.trans (by rw [hlong.1, Bool.and_false])
  · rw [decide_eq_true hdone']
    exact h.terminal.trans (decide_eq_true hdone)
  · rw [htake]; exact h.presented
  · rw [htake]; exact h.taken

/-- During the hunt only the selected mark is presented. -/
theorem Reading.process_hunt (h : Reading aux n earlier [] bytes s) (ha : ReadsOnly aux) (hn : 0 < n)
    (hr : s.Ready) (hfree : s.diskData.intrB = false) (c : TimedFmByte) :
    Reading aux n earlier (if selectedMark aux.dataMarkSelected c then [c] else []) bytes (s.process c) ∧
      (s.process c).disk.pendingWrites = s.disk.pendingWrites := by
  have hlevel : s.disk.dataInterruptLevel = false := by
    rw [hr.level, dataInterrupt, h.listening.intrA, hfree]; rfl
  have hbytes : bytes = [] := h.taken_eq hfree
  have haux : s.disk.aux = aux := h.aux
  have hread : (s.reached c.tick).disk.aux.readEnabled = true := by
    rw [show (s.reached c.tick).disk.aux = aux from haux]; exact ha.readEnabled
  rw [process_reading h.timing (by rw [haux]; exact ha.formatEnabled) h.idle]
  cases hm : selectedMark aux.dataMarkSelected c with
  | true =>
    obtain ⟨hB, hlatch, _⟩ :=
      Ppi8255.pulseStrobeB_input hr.atRest h.listening.strobed h.listening.inteB c.data
    rw [read_mark hread h.sync (by rw [show (s.reached c.tick).disk.aux = aux from haux]; exact hm),
      present_swallow (s := (s.reached c.tick).synchronize) h.listening hr.atRest hlevel rfl h.terminal]
    refine ⟨⟨h.timing, h.listening.pulse hr.atRest c.data, ?_, ?_, ?_, h.mode, h.loaded,
      fun _ => h.count (Nat.zero_le n), fun _ _ => rfl, h.idle, ?_, ?_⟩, rfl⟩
    · exact haux.trans (if_neg (by simp; omega)).symm
    · simp [synchronize]; omega
    · exact h.terminal.trans (by simp; omega)
    · have hp := h.presented
      simp only [List.take_nil, List.append_nil] at hp
      simp [synchronize, reached, strobes_append, hp]
      rfl
    · simp [synchronize, reached, hB, hlatch, hbytes]
  | false =>
    have hreached : (s.reached c.tick).disk.aux = aux := haux
    rw [read_no_mark (s := s.reached c.tick) h.sync (by rw [hreached]; exact hm)]
    exact ⟨⟨h.timing, h.listening, haux, h.sync, h.terminal, h.mode, h.loaded, h.count, h.counts,
      h.idle, h.presented, h.taken⟩, rfl⟩

/-- After the mark every cell is presented, and the `n`-th one ends the operation. -/
theorem Reading.process_field (h : Reading aux n earlier field bytes s) (ha : ReadsOnly aux)
    (hne : field ≠ []) (hleft : field.length ≤ n) (hr : s.Ready) (hfree : s.diskData.intrB = false)
    (c : TimedFmByte) :
    Reading aux n earlier (field ++ [c]) bytes (s.process c) ∧
      (s.process c).disk.pendingWrites = s.disk.pendingWrites := by
  have hlevel : s.disk.dataInterruptLevel = false := by
    rw [hr.level, dataInterrupt, h.listening.intrA, hfree]; rfl
  have hbytes := h.taken_eq hfree
  have hpos : 0 < field.length := List.length_pos_iff.mpr hne
  have haux : s.disk.aux = aux := h.aux.trans (if_neg (by omega))
  have hsync : s.disk.syncLatch = true := h.sync.trans (by simp [hne, hleft])
  have hterminal : s.terminal = false := h.terminal.trans (by simpa using hleft)
  have hcurrent := h.count hleft
  have htake : (field ++ [c]).take (n + 1) = field ++ [c] := List.take_of_length_le (by simpa using hleft)
  have htake' : field.take (n + 1) = field := List.take_of_length_le (by omega)
  obtain ⟨hB, hlatch, _⟩ :=
    Ppi8255.pulseStrobeB_input hr.atRest h.listening.strobed h.listening.inteB c.data
  have hpresented := h.presented
  rw [htake'] at hpresented hbytes
  rw [process_reading h.timing (by rw [haux]; exact ha.formatEnabled) h.idle,
    read_synced (s := s.reached c.tick) (by
      rw [show (s.reached c.tick).disk.aux = aux from haux]; exact ha.readEnabled) hsync,
    present_count (s := s.reached c.tick) h.listening hr.atRest hlevel (h.counts hne hleft) hterminal
      hr.counter2 h.mode h.loaded]
  by_cases hlast : field.length = n
  · rw [if_pos (show (s.reached c.tick).counter2.current = 1 from hcurrent.trans (by omega))]
    refine ⟨⟨h.timing, h.listening.pulse hr.atRest c.data, ?_, ?_, ?_, h.mode, h.loaded,
      fun hle => absurd hle (by simp; omega), fun _ hle => absurd hle (by simp; omega), rfl, ?_, ?_⟩,
      rfl⟩
    · exact (if_pos (show n < (field ++ [c]).length by simp; omega)).symm
    · simp [ended, hlast]
    · exact (decide_eq_true (show n < (field ++ [c]).length by simp; omega)).symm
    · rw [htake]
      simp [reached, strobes_append, hpresented]
      rfl
    · rw [htake]; simp [reached, hB, hlatch, hbytes]
  · have hmore : s.counter2.current ≠ 1 := by omega
    rw [if_neg (show ¬ (s.reached c.tick).counter2.current = 1 from hmore)]
    refine ⟨⟨h.timing, h.listening.pulse hr.atRest c.data, ?_, ?_, ?_, h.mode, h.loaded, fun hle => ?_,
      fun _ _ => h.counts hne hleft, h.idle, ?_, ?_⟩, rfl⟩
    · exact haux.trans (if_neg (by simp; omega)).symm
    · exact hsync.trans (by simp; omega)
    · exact hterminal.trans (by simp; omega)
    · show s.counter2.current - 1 = n - ((field ++ [c]).length - 1)
      rw [List.length_append, List.length_singleton]; omega
    · rw [htake]
      simp [reached, strobes_append, hpresented]
      rfl
    · rw [htake]; simp [reached, hB, hlatch, hbytes]

/-- One cell passes a reader whose last byte has been taken. -/
theorem Reading.process (h : Reading aux n earlier field bytes s) (ha : ReadsOnly aux) (hn : 0 < n)
    (hr : s.Ready) (hfree : s.diskData.intrB = false) (c : TimedFmByte) :
    Reading aux n earlier (extendField aux.dataMarkSelected field c) bytes (s.process c) ∧
      (s.process c).disk.pendingWrites = [] := by
  rw [← hr.flushed]
  by_cases hne : field = []
  · subst hne
    exact h.process_hunt ha hn hr hfree c
  · rw [extendField_ne_nil hne]
    rcases Nat.lt_or_ge n field.length with hdone | hleft
    · exact h.process_done hdone c
    · exact h.process_field ha hne hleft hr hfree c

/-- The reader does not look at the rest. -/
theorem Reading.congr (h : Reading aux n earlier field bytes s) {s' : DiskSide}
    (hdisk : s'.disk = s.disk) (hdata : s'.diskData = s.diskData) (h2 : s'.counter2 = s.counter2)
    (htrace : strobes s'.trace = strobes s.trace) : Reading aux n earlier field bytes s' := by
  have hterminal : s'.terminal = s.terminal := by rw [DiskSide.terminal, h2]; rfl
  have hwriting : s'.writing = s.writing := by rw [writing, hdisk]; rfl
  refine ⟨?_, ?_, ?_, ?_, ?_, ?_, ?_, ?_, ?_, ?_, ?_, ?_⟩
  · rw [hdisk]; exact h.timing
  · rw [hdata]; exact h.listening
  · rw [hdisk]; exact h.aux
  · rw [hdisk]; exact h.sync
  · rw [hterminal]; exact h.terminal
  · rw [h2]; exact h.mode
  · rw [h2]; exact h.loaded
  · rw [h2]; exact h.count
  · rw [hdisk]; exact h.counts
  · rw [hwriting]; exact h.idle
  · rw [htrace]; exact h.presented
  · rw [hdata]; exact h.taken

/-- A time step too short for two cells. -/
theorem Reading.advance {cells : List TimedFmByte}
    (h : Reading aux n earlier (fieldOf aux.dataMarkSelected cells) bytes s) (ha : ReadsOnly aux)
    (hn : 0 < n) (hr : s.Ready) {ticks : Nat} (ht : ticks ≤ byteTicks)
    (hfree : s.diskData.intrB = true → s.floppy.stream ticks = []) (clocks : Nat) :
    Reading aux n earlier (fieldOf aux.dataMarkSelected (cells ++ s.floppy.stream ticks)) bytes
        (s.advance ticks clocks) ∧
      (s.advance ticks clocks).floppy = s.floppy.advance ticks := by
  obtain ⟨r, hfold, hreading, hflushed⟩ : ∃ r, (s.passing ticks).foldl DiskSide.process s = r ∧
      Reading aux n earlier (fieldOf aux.dataMarkSelected (cells ++ s.floppy.stream ticks)) bytes r ∧
      r.disk.pendingWrites = [] := by
    refine ⟨_, rfl, ?_⟩
    rw [passing_eq]
    have hshort := s.floppy.stream_length_le_one ht
    match hcells : s.floppy.stream ticks with
    | [] => rw [List.append_nil]; exact ⟨h, hr.flushed⟩
    | [c] =>
      have hempty : s.diskData.intrB = false := by
        cases hi : s.diskData.intrB with
        | false => rfl
        | true => rw [hfree hi] at hcells; cases hcells
      rw [fieldOf_snoc]
      exact h.process ha hn hr hempty c
    | c :: c' :: rest => rw [hcells] at hshort; simp at hshort
  have hwrite : r.disk.aux.writeEnabled = false := by
    rw [hreading.aux]; split
    · rfl
    · exact ha.writeEnabled
  obtain ⟨counter1, latch, new, he, _, hnew⟩ := advance_eq clocks hfold (.inl hwrite)
  rw [he.trans (flush_of_nil hflushed)]
  refine ⟨hreading.congr rfl rfl rfl ?_, rfl⟩
  rw [strobes_append]
  rcases hnew with rfl | rfl <;> exact List.append_nil _

/-- The CPU takes the byte. -/
theorem Reading.takeByte (h : Reading aux n earlier field bytes s) (hr : s.Ready)
    (hfull : s.diskData.intrB = true) :
    Reading aux n earlier field (bytes ++ [s.diskData.readPortB.1])
        { s with diskData := s.diskData.readPortB.2 }.refresh ∧
      ({ s with diskData := s.diskData.readPortB.2 }.refresh).floppy = s.floppy := by
  obtain ⟨hvalue, hB, hA, hinte, hin⟩ := Ppi8255.readPortB_input hr.atRest h.listening.strobed
  have hlow : dataInterrupt { s with diskData := s.diskData.readPortB.2 } = false := by
    rw [dataInterrupt]; simp only [hA, hB, h.listening.intrA, Bool.or_self]
  have hlistening : Listening s.diskData.readPortB.2 :=
    ⟨hin, hinte.trans h.listening.inteB, hA.trans h.listening.intrA⟩
  have htaken : bytes ++ [s.diskData.readPortB.1] ++
      (if s.diskData.readPortB.2.intrB then [s.diskData.readPortB.2.portBInputLatch] else []) =
        (field.take (n + 1)).map TimedFmByte.data := by
    rw [hB, if_neg (by decide), List.append_nil, hvalue, ← h.taken, hfull, if_pos rfl]
  refine ⟨?_, (refresh_handles _).floppy⟩
  cases hterminal : s.terminal with
  | false =>
    rw [refresh_of_low (s := { s with diskData := s.diskData.readPortB.2 }) hlow hterminal]
    exact ⟨h.timing, hlistening, h.aux, h.sync, h.terminal, h.mode, h.loaded, h.count, h.counts, h.idle,
      h.presented, htaken⟩
  | true =>
    have hdone : n < field.length := by simpa [h.terminal] using hterminal
    rw [refresh_of_high (s := { s with diskData := s.diskData.readPortB.2 }) hlow hterminal]
    refine ⟨h.timing, hlistening, (if_pos hdone).symm, ?_, h.terminal, h.mode, h.loaded, h.count,
      h.counts, rfl, h.presented, htaken⟩
    rw [show decide (field.length ≤ n) = false by rw [decide_eq_false_iff_not]; omega, Bool.and_false]
    rfl

end DiskSide

/-! ## Runs -/

namespace Board

/-- The action leaves the disk controller alone. -/
def Spares (b : Board) (a : Action) : Prop := (b.act a).diskSide = b.diskSide

/-- A read at this port takes a byte from port B of the data 8255, as at 21h. -/
def DataPort (port : Word) : Prop := ioGroup port = 2 ∧ registerOf port &&& 0x03#8 = 1#8

/-- From `b` time has advanced by `elapsed` master ticks in steps shorter than a byte time, and the
CPU has read `bytes` from the data 8255, each after INTR_B and before the next cell. -/
inductive Polls (b : Board) : Nat → List Byte → Board → Prop where
  | start : Polls b 0 [] b
  | advance {elapsed : Nat} {bytes : List Byte} {b' : Board} {cycles : Nat} :
      Polls b elapsed bytes b' → cycles * 3 < byteTicks →
      (b'.diskData.intrB = true → b'.floppy.visitBytes (cycles * 3) = []) →
      Polls b (elapsed + cycles * 3) bytes (b'.act (.advance cycles))
  | read {elapsed : Nat} {bytes : List Byte} {b' : Board} {port : Word} {value : Byte} :
      Polls b elapsed bytes b' → DataPort port → b'.diskData.intrB = true →
      (b'.readIo port).1 = value →
      Polls b elapsed (bytes ++ [value]) (b'.act (.host (.readIo port)))
  | other {elapsed : Nat} {bytes : List Byte} {b' : Board} {a : Action} :
      Polls b elapsed bytes b' → b'.Spares a → Polls b elapsed bytes (b'.act a)

/-- A disk read is about to start: `n` bytes are to follow the mark. -/
structure ReadStarts (b : Board) (n : Nat) : Prop where
  timing : b.disk.timingEnabled = true
  terminal : b.timer.output 2 = false
  mode : (b.timer.channels 2).mode = 0
  loaded : (b.timer.channels 2).countLoaded = true
  count : (b.timer.channels 2).current = n
  hunting : b.disk.syncLatch = false
  aux : DiskSide.ReadsOnly b.disk.aux
  listening : DiskSide.Listening b.diskData
  empty : b.diskData.ibfB = false

variable {b b' : Board} {n elapsed : Nat} {bytes : List Byte}

theorem Polls.coherent (h : Polls b elapsed bytes b') (hb : b.Coherent) : b'.Coherent := by
  induction h with
  | start => exact hb
  | advance _ _ _ ih => exact act_coherent ih _
  | read _ _ _ _ ih => exact act_coherent ih _
  | other _ _ ih => exact act_coherent ih _

theorem readData_eq {port : Word} (hp : DataPort port) :
    (b.readIo port).1 = b.diskData.readPortB.1 ∧
      (b.readIo port).2.diskSide =
        { b.diskSide with diskData := b.diskData.readPortB.2 }.refresh := by
  have hreg : b.diskData.read (registerOf port) = b.diskData.readPortB := by
    unfold Ppi8255.read
    rw [hp.2]
    rfl
  refine ⟨?_, ?_⟩
  · unfold readIo
    rw [hp.1]
    exact congrArg Prod.fst hreg
  · rw [readData_diskSide hp.1, hreg]

/-- An empty input buffer raises no interrupt. -/
theorem intrB_of_empty {p : Ppi8255} (h : p.AtRest) (hin : p.strobedInputB = true)
    (he : p.ibfB = false) : p.intrB = false := by
  have hmode : p.groupBMode = .mode1 ∧ p.portBInputMode = true := by
    simpa [Ppi8255.strobedInputB] using hin
  have hupdated := congrArg Ppi8255.intrB h.updated
  simpa [Ppi8255.updateInterrupts, hmode, he] using hupdated.symm

theorem ReadStarts.reading (h : b.ReadStarts n) (hb : b.Coherent) :
    DiskSide.Reading b.disk.aux n (strobes b.trace) [] [] b.diskSide := by
  have hlow := intrB_of_empty hb.atRest h.listening.strobed h.empty
  have hidle : b.diskSide.writing = false := by
    have hord := hb.ordinary
    have hfmt := hb.format
    rw [h.aux.writeEnabled] at hord
    rw [h.aux.formatEnabled] at hfmt
    show (b.disk.formatWriteActive || b.disk.ordinaryWriteActive) = false
    simp_all
  refine ⟨h.timing, h.listening, rfl, h.hunting, h.terminal, h.mode, h.loaded, fun _ => h.count, nofun,
    hidle, (List.append_nil _).symm, ?_⟩
  show [] ++ (if b.diskData.intrB then _ else _) = _
  rw [hlow]
  rfl

theorem Polls.reading (h : Polls b elapsed bytes b') (hb : b.Coherent) (hs : b.ReadStarts n) :
    DiskSide.Reading b.disk.aux n (strobes b.trace)
        (fieldOf b.disk.aux.dataMarkSelected (b.floppy.stream elapsed)) bytes b'.diskSide ∧
      ∀ ticks, b.floppy.stream (elapsed + ticks) =
        b.floppy.stream elapsed ++ b'.floppy.stream ticks := by
  have hn : 0 < n := by
    have hpos := (hb.counter2.runs hs.mode hs.loaded hs.terminal).2
    rwa [hs.count] at hpos
  induction h with
  | start => exact ⟨hs.reading hb, fun ticks => by rw [Nat.zero_add]; rfl⟩
  | @advance elapsed bytes b' cycles hrun hshort hfree ih =>
    obtain ⟨hreading, hstream⟩ := ih
    have hcoherent := hrun.coherent hb
    have hfree' : b'.diskSide.diskData.intrB = true → b'.diskSide.floppy.stream (cycles * 3) = [] :=
      fun hi => (b'.floppy.visitBytes_eq_stream _).symm.trans (hfree hi)
    obtain ⟨hnext, hfloppy⟩ := hreading.advance hs.aux hn hcoherent.ready (Nat.le_of_lt hshort) hfree'
      ((b'.timerClockAccumulator + cycles * 3) / 12)
    have hside := advanceTime_diskSide hcoherent.steady cycles
    rw [← hside] at hnext hfloppy
    refine ⟨by rw [hstream]; exact hnext, fun ticks => ?_⟩
    have hturned : (b'.act (.advance cycles)).floppy = b'.floppy.advance (cycles * 3) := hfloppy
    rw [hturned, Nat.add_assoc, hstream, hstream, FloppySubsystem.stream_add, List.append_assoc]
  | @read elapsed bytes b' port value hrun hp hfull hread ih =>
    obtain ⟨hreading, hstream⟩ := ih
    obtain ⟨hvalue, hside⟩ := readData_eq (b := b') hp
    obtain ⟨hnext, hfloppy⟩ := hreading.takeByte (hrun.coherent hb).ready hfull
    rw [show b'.diskSide.diskData = b'.diskData from rfl, ← hside] at hnext hfloppy
    have hsame : (b'.act (.host (.readIo port))).floppy = b'.floppy := hfloppy
    rw [← hread, hvalue, hsame]
    exact ⟨hnext, hstream⟩
  | @other elapsed bytes b' a hrun hspares ih =>
    have hsame : (b'.act a).floppy = b'.floppy := congrArg DiskSide.floppy hspares
    rw [hspares, hsame]
    exact ih

/-- At every moment of such a run the CPU has read the selected mark and the following cells in
rotational order, none lost or repeated, up to a last byte that still waits in port B; with the
`n`-th byte after the mark OUT2 rises, RE and the synchronization latch clear, and nothing more is
presented. -/
theorem read_transfers (hb : b.Reachable) (hs : b.ReadStarts n) (hrun : Polls b elapsed bytes b') :
    let field := fieldOf b.disk.aux.dataMarkSelected (b.floppy.stream elapsed)
    bytes ++ (if b'.diskData.intrB then [b'.diskData.portBInputLatch] else []) =
        (field.take (n + 1)).map TimedFmByte.data ∧
      strobes b'.trace = strobes b.trace ++ field.take (n + 1) ∧
      (b'.timer.output 2 = true ↔ n < field.length) ∧
      b'.disk.aux = (if n < field.length then {} else b.disk.aux) ∧
      (b'.disk.syncLatch = true ↔ field ≠ [] ∧ field.length ≤ n) := by
  intro field
  obtain ⟨hreading, _⟩ := hrun.reading hb.coherent hs
  refine ⟨hreading.taken, hreading.presented, ?_, hreading.aux, ?_⟩
  · rw [show b'.timer.output 2 = decide (n < field.length) from hreading.terminal, decide_eq_true_iff]
  · rw [show b'.disk.syncLatch = _ from hreading.sync]
    simp [field]

/-- From one byte taken to the next: a turn short of the next cell, and one past it. -/
theorem Polls.next (h : Polls b elapsed bytes b') {value : Byte} (hfree : b'.diskData.intrB = false)
    (hgap : (b'.act (.advance 127)).diskData.intrB = false)
    (hfull : ((b'.act (.advance 127)).act (.advance 1)).diskData.intrB = true)
    (hvalue : (((b'.act (.advance 127)).act (.advance 1)).readIo 0x21#16).1 = value) :
    Polls b (elapsed + 384) (bytes ++ [value])
      (Run.run act b' [.advance 127, .advance 1, .host (.readIo 0x21#16)]) := by
  have hshort : Polls b (elapsed + 127 * 3) bytes (b'.act (.advance 127)) :=
    h.advance (by decide) fun hi => absurd (hfree.symm.trans hi) (by decide)
  have hcell : Polls b (elapsed + 127 * 3 + 1 * 3) bytes ((b'.act (.advance 127)).act (.advance 1)) :=
    hshort.advance (by decide) fun hi => absurd (hgap.symm.trans hi) (by decide)
  exact hcell.read ⟨by decide, by decide⟩ hfull hvalue

/-- An identifier mark and the three bytes that are counted after it, read by a CPU that polls; the cell
behind them is not presented. -/
theorem read_transfers_three :
    let b := setUp (.uniform [⟨0, 0xFE#8, 0xC7#8⟩, ⟨384, 0x01#8, 0xFF#8⟩, ⟨768, 0x02#8, 0xFF#8⟩,
        ⟨1152, 0x03#8, 0xFF#8⟩, ⟨1536, 0x04#8, 0xFF#8⟩])
      [(0x63#16, 0x88#8), (0x23#16, 0xA6#8), (0x23#16, 0x05#8), (0x13#16, 0x90#8), (0x12#16, 0x03#8),
        (0x50#16, 0x01#8)]
    let turn := [Action.advance 127, .advance 1, .host (.readIo 0x21#16)]
    let b' := Run.run act b ([.advance 1, .host (.readIo 0x21#16)] ++ turn ++ turn ++ turn ++ [.advance 127])
    [0xFE#8, 0x01#8, 0x02#8, 0x03#8] ++ (if b'.diskData.intrB then [b'.diskData.portBInputLatch] else []) =
        ((fieldOf false (b.floppy.stream 1536)).take 4).map TimedFmByte.data ∧
      b'.disk.aux = (if 3 < (fieldOf false (b.floppy.stream 1536)).length then {} else b.disk.aux) := by
  intro b turn b'
  have hstarts : b.ReadStarts 3 :=
    ⟨by decide +kernel, by decide +kernel, by decide +kernel, by decide +kernel, by decide +kernel,
      by decide +kernel, ⟨by decide +kernel, by decide +kernel, by decide +kernel⟩,
      ⟨by decide +kernel, by decide +kernel, by decide +kernel⟩, by decide +kernel⟩
  have hmark : Polls b 3 [] (b.act (.advance 1)) :=
    Polls.advance .start (show 1 * 3 < byteTicks by decide) fun hi => absurd hi (by decide +kernel)
  have hread : Polls b 3 [0xFE#8] (Run.run act b [.advance 1, .host (.readIo 0x21#16)]) :=
    hmark.read ⟨by decide, by decide⟩ (by decide +kernel) (by decide +kernel)
  have hfirst := @Polls.next _ _ _ _ hread 0x01#8 (by decide +kernel) (by decide +kernel)
    (by decide +kernel) (by decide +kernel)
  have hsecond := @Polls.next _ _ _ _ hfirst 0x02#8 (by decide +kernel) (by decide +kernel)
    (by decide +kernel) (by decide +kernel)
  have hthird := @Polls.next _ _ _ _ hsecond 0x03#8 (by decide +kernel) (by decide +kernel)
    (by decide +kernel) (by decide +kernel)
  have hrun : Polls b 1536 [0xFE#8, 0x01#8, 0x02#8, 0x03#8] b' :=
    hthird.advance (show 127 * 3 < byteTicks by decide) fun hi => absurd hi (by decide +kernel)
  obtain ⟨hbytes, -, -, haux, -⟩ := read_transfers (setUp_reachable _ _) hstarts hrun
  exact ⟨hbytes, haux⟩

end Board
end FK1
