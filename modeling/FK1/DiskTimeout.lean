import FK1.DiskTrace

/-!
# FK1.DiskTimeout

The acknowledgement of the disk timeout by a clear auxiliary register.

`Stale` is the state that must not be: the register clear, the timeout still latched. The register is
cleared by OUT2 in a refresh and by the second Index of a format, and neither looks at the latch.
`clears` and its companions say, of the state before a step, that one of the two comes while a
timeout waits; every step leaves a stale state exactly then (`act_stale`), and so does a run
(`timeout_acknowledged_iff`).
-/

namespace FK1

namespace DiskSide

/-- The auxiliary register is clear and a timeout is still latched. -/
def Stale (s : DiskSide) : Prop := s.disk.aux = {} ∧ s.diskTimeoutLatch = true

/-- A refresh finds OUT2 high while a timeout waits. -/
def clears (s : DiskSide) : Bool := s.diskTimeoutLatch && s.sample.terminal

/-! ## Within a time step -/

/-- The data 8255 has asked for the next byte to write. -/
def requested (s : DiskSide) (tick : Nat) : DiskSide :=
  { s with
    disk := { s.disk with pendingWrites := s.disk.pendingWrites ++ [s.written tick] }
    diskData := s.diskData.pulseAckA }

/-- The data 8255 has been given a byte read. -/
def strobed (s : DiskSide) (byte : TimedFmByte) : DiskSide :=
  { s with diskData := s.diskData.pulseStrobeB byte.data }

def readClears (s : DiskSide) (byte : TimedFmByte) : Bool :=
  s.disk.aux.readEnabled &&
    (if s.disk.syncLatch then (s.strobed byte).clears
     else selectedMark s.disk.aux.dataMarkSelected byte && (s.synchronize.strobed byte).clears)

def processClears (s : DiskSide) (byte : TimedFmByte) : Bool :=
  let s := s.reached byte.tick
  let index := s.disk.aux.formatEnabled && byte.tick == 0
  s.disk.timingEnabled &&
    -- The second Index ends the format.
    (if index && s.disk.formatWriteActive then s.diskTimeoutLatch
     else
       let s := if index then { s with disk := { s.disk with formatWriteActive := true } } else s
       if s.writing then
         (s.requested byte.tick).clears || (s.transfer byte.tick).readClears (s.written byte.tick)
       else s.readClears byte)

def passClears (s : DiskSide) : List TimedFmByte → Bool
  | [] => false
  | byte :: bytes => s.processClears byte || (s.process byte).passClears bytes

def startClears (s : DiskSide) (risingEdges : Nat) : Bool :=
  s.disk.timingEnabled && s.disk.aux.writeEnabled && !s.disk.ordinaryWriteActive
    && risingEdges != 0
    && ({ s with disk := { s.disk with ordinaryWriteActive := true } }.requested
      s.disk.lastByteTick).clears

def timerClears (s : DiskSide) (clocks : Nat) : Bool :=
  let edges := (s.counter1.clockLoop clocks {}).2.risingEdges
  let latches := s.disk.timingEnabled && s.disk.aux.readEnabled && s.disk.aux.dataMarkSelected
    && edges != 0
  clocks != 0 &&
    { s with
      counter1 := (s.counter1.clockLoop clocks {}).1
      trace := s.trace ++ [Event.clock1 clocks]
      diskTimeoutLatch := s.diskTimeoutLatch || latches }.startClears edges

def advanceClears (s : DiskSide) (ticks clocks : Nat) : Bool :=
  s.passClears (s.passing ticks)
    || (((s.passing ticks).foldl process s).turn ticks).timerClears clocks

/-! ## Stale states -/

variable {s s' : DiskSide}

theorem stale_congr (haux : s'.disk.aux = s.disk.aux)
    (hlatch : s'.diskTimeoutLatch = s.diskTimeoutLatch) : s'.Stale ↔ s.Stale := by
  rw [Stale, Stale, haux, hlatch]

theorem sample_aux (s : DiskSide) :
    s.sample.disk.aux = s.disk.aux ∧ s.sample.diskTimeoutLatch = s.diskTimeoutLatch := by
  unfold sample
  dsimp only
  repeat' split
  all_goals exact ⟨rfl, rfl⟩

/-- A refresh clears the register when OUT2 is high, and leaves the latch alone. -/
theorem refresh_stale (s : DiskSide) : s.refresh.Stale ↔ s.Stale ∨ s.clears = true := by
  obtain ⟨haux, hlatch⟩ := sample_aux s
  unfold refresh clears
  cases hterminal : s.sample.terminal with
  | true =>
    rw [endOfData_of_high hterminal, Bool.and_true, Stale, Stale, hlatch]
    exact ⟨fun h => .inr h.2, fun h => ⟨rfl, h.elim And.right id⟩⟩
  | false =>
    rw [endOfData_of_low hterminal, Bool.and_false, stale_congr haux hlatch]
    exact ⟨.inl, fun h => h.resolve_right nofun⟩

theorem transfer_stale (s : DiskSide) (tick : Nat) :
    (s.transfer tick).Stale ↔ s.Stale ∨ (s.requested tick).clears = true :=
  refresh_stale (s.requested tick)

theorem present_stale (s : DiskSide) (byte : TimedFmByte) :
    (s.present byte).Stale ↔ s.Stale ∨ (s.strobed byte).clears = true :=
  refresh_stale (s.strobed byte)

theorem not_stale_of_read (h : s.disk.aux.readEnabled = true) : ¬s.Stale := by
  rintro ⟨haux, -⟩
  rw [haux] at h
  cases h

theorem read_stale (s : DiskSide) (byte : TimedFmByte) :
    (s.read byte).Stale ↔ s.Stale ∨ s.readClears byte = true := by
  unfold read readClears
  cases hread : s.disk.aux.readEnabled with
  | false => simp
  | true =>
    cases hsync : s.disk.syncLatch with
    | true =>
      simp only [Bool.not_true, Bool.false_eq_true, if_false, if_true, Bool.true_and]
      exact present_stale s byte
    | false =>
      cases hmark : selectedMark s.disk.aux.dataMarkSelected byte with
      | true =>
        simp only [Bool.not_true, Bool.false_eq_true, if_false, if_true, Bool.true_and]
        exact present_stale s.synchronize byte
      | false => simp

theorem endFormat_stale (s : DiskSide) : s.endFormat.Stale ↔ s.diskTimeoutLatch = true := by
  unfold endFormat
  rw [refresh_stale]
  constructor
  · rintro (h | h)
    · exact h.2
    · exact (Bool.and_eq_true_iff.mp h).1
  · intro hlatch
    exact .inl ⟨rfl, hlatch⟩

theorem process_stale (s : DiskSide) (byte : TimedFmByte) :
    (s.process byte).Stale ↔ s.Stale ∨ s.processClears byte = true := by
  have hwrite : ∀ s : DiskSide, ((s.transfer byte.tick).read (s.written byte.tick)).Stale ↔
      s.Stale ∨ ((s.requested byte.tick).clears
        || (s.transfer byte.tick).readClears (s.written byte.tick)) = true := by
    intro s
    rw [read_stale, transfer_stale, or_assoc, Bool.or_eq_true]
  have hreached : (s.reached byte.tick).Stale ↔ s.Stale := stale_congr rfl rfl
  rw [← hreached]
  unfold process processClears
  generalize s.reached byte.tick = s
  dsimp only
  cases htiming : s.disk.timingEnabled with
  | false => simp
  | true =>
    simp only [Bool.not_true, Bool.false_eq_true, if_false, Bool.true_and]
    split
    · rename_i hindex
      have hformat : s.disk.aux.formatEnabled = true := by
        simp only [Bool.and_eq_true] at hindex
        exact hindex.1.1
      have hfresh : ¬s.Stale := by
        rintro ⟨haux, -⟩
        rw [haux] at hformat
        cases hformat
      rw [endFormat_stale, or_iff_right hfresh]
    · split
      · split
        · exact hwrite _
        · exact read_stale _ byte
      · split
        · exact hwrite _
        · exact read_stale _ byte

theorem pass_stale (bytes : List TimedFmByte) (s : DiskSide) :
    (bytes.foldl process s).Stale ↔ s.Stale ∨ s.passClears bytes = true := by
  induction bytes generalizing s with
  | nil => exact ⟨.inl, fun h => h.resolve_right nofun⟩
  | cons byte bytes ih =>
    rw [List.foldl_cons, ih, process_stale, passClears, Bool.or_eq_true, or_assoc]

theorem startWrite_stale (s : DiskSide) (risingEdges : Nat) :
    (s.startWrite risingEdges).Stale ↔ s.Stale ∨ s.startClears risingEdges = true := by
  unfold startWrite startClears
  split
  · rename_i hstart
    rw [hstart, Bool.true_and]
    exact transfer_stale _ _
  · rename_i hstart
    rw [Bool.not_eq_true] at hstart
    rw [hstart, Bool.false_and]
    exact ⟨.inl, fun h => h.resolve_right nofun⟩

theorem timer_stale (s : DiskSide) (clocks : Nat) :
    (s.timer clocks).Stale ↔ s.Stale ∨ s.timerClears clocks = true := by
  unfold timer timerClears
  dsimp only
  by_cases hclocks : clocks = 0
  · simp [hclocks]
  · have hne : (clocks != 0) = true := bne_iff_ne.mpr hclocks
    rw [if_neg hclocks, hne, Bool.true_and]
    unfold timerEdges
    dsimp only
    split
    · rename_i hlatches
      have hread : s.disk.aux.readEnabled = true := by
        simp only [Bool.and_eq_true] at hlatches
        exact hlatches.1.1.2
      rw [startWrite_stale, hlatches, Bool.or_true, or_iff_right (not_stale_of_read hread),
        or_iff_right]
      exact not_stale_of_read hread
    · rename_i hlatches
      rw [Bool.not_eq_true] at hlatches
      rw [startWrite_stale, hlatches, Bool.or_false]
      exact Iff.rfl

theorem flush_stale (s : DiskSide) : s.flush.Stale ↔ s.Stale := by
  have hstore : ∀ (bytes : List TimedFmByte) (s : DiskSide),
      (bytes.foldl storeByte s).Stale ↔ s.Stale := by
    intro bytes
    induction bytes with
    | nil => exact fun _ => Iff.rfl
    | cons byte bytes ih => exact fun s => ih (s.storeByte byte)
  exact hstore s.disk.pendingWrites s

theorem advance_stale (s : DiskSide) (ticks clocks : Nat) :
    (s.advance ticks clocks).Stale ↔ s.Stale ∨ s.advanceClears ticks clocks = true := by
  have hturn : ∀ s : DiskSide, (s.turn ticks).Stale ↔ s.Stale := fun _ => Iff.rfl
  unfold advance advanceClears
  rw [flush_stale, timer_stale, hturn, pass_stale, Bool.or_eq_true, or_assoc]

end DiskSide

/-! ## Public operations -/

namespace Board

/-- The board as the refresh at the end of an operation finds it, where the operation concerns the
disk controller. -/
def accessed (b : Board) : HostOp → Board
  | .readIo port =>
    match ioGroup port with
    | 1 => { b with timer := (b.timer.read (registerOf port)).2 }
    | 2 => { b with diskData := (b.diskData.read (registerOf port)).2 }
    | _ => b
  | .writeIo port value =>
    match ioGroup port with
    | 1 => b.writeTimer (registerOf port) value
    | 2 => { b with diskData := b.diskData.write (registerOf port) value }.synchronizeDiskSelection
    | 5 => b.writeDiskAux value
    | 6 =>
      { b with
        machineControl := b.machineControl.write (registerOf port) value }.synchronizeControlOutputs
    | _ => b
  | _ => b

/-- The action clears the auxiliary register by OUT2 or by the second Index while a timeout waits. -/
def clears (b : Board) : Action → Bool
  | .host op => (b.accessed op).diskSide.clears
  | .advance cpuCycles =>
    b.diskSide.advanceClears (cpuCycles * 3) ((b.timerClockAccumulator + cpuCycles * 3) / 12)
  | .reset => false

/-- No action of the run does. -/
def NeverClears (b : Board) : List Action → Prop
  | [] => True
  | a :: as => b.clears a = false ∧ (b.act a).NeverClears as

/-- With RE, WRE, RDM and FOR clear there is no timeout, in the latch or at the 3214. -/
def TimeoutAcknowledged (b : Board) : Prop :=
  b.disk.aux.readEnabled = false → b.disk.aux.writeEnabled = false →
    b.disk.aux.dataMarkSelected = false → b.disk.aux.formatEnabled = false →
      b.diskTimeoutLatch = false ∧ b.interrupts.inputs 6 = false

variable {b b' : Board}

theorem acknowledged_iff (h : b.Coherent) : b.TimeoutAcknowledged ↔ ¬b.diskSide.Stale := by
  have hinput : b.interrupts.inputs 6 = b.diskTimeoutLatch := congrFun h.inputs 6
  have haux : b.disk.aux = {} ↔ b.disk.aux.readEnabled = false ∧ b.disk.aux.writeEnabled = false ∧
      b.disk.aux.dataMarkSelected = false ∧ b.disk.aux.formatEnabled = false := by
    obtain ⟨re, wre, rdm, for'⟩ := b.disk.aux
    exact DiskAuxControl.mk.injEq .. ▸ Iff.rfl
  have hstale : b.diskSide.Stale ↔ b.disk.aux = {} ∧ b.diskTimeoutLatch = true := Iff.rfl
  rw [TimeoutAcknowledged, hinput, hstale, haux, not_and, Bool.not_eq_true]
  constructor
  · rintro h ⟨hre, hwre, hrdm, hfor⟩
    exact (h hre hwre hrdm hfor).1
  · intro h hre hwre hrdm hfor
    exact ⟨h ⟨hre, hwre, hrdm, hfor⟩, h ⟨hre, hwre, hrdm, hfor⟩⟩

/-- On a quiet board a refresh by itself clears nothing under a timeout. -/
theorem stale_of_clears (h : b.Steady) (hclears : b.diskSide.clears = true) : b.diskSide.Stale := by
  have hrefresh := (DiskSide.refresh_stale b.diskSide).mpr (.inr hclears)
  rwa [← refreshSources_diskSide, h.refresh_diskSide] at hrefresh

theorem refreshed_stale (hs : b'.diskSide = b.diskSide) :
    b'.refreshInterruptSources.diskSide.Stale ↔ b.diskSide.Stale ∨ b.diskSide.clears = true := by
  rw [refreshSources_diskSide, hs, DiskSide.refresh_stale]

theorem same_stale (h : b.Steady) (hs : b'.diskSide.Stale ↔ b.diskSide.Stale) :
    b'.diskSide.Stale ↔ b.diskSide.Stale ∨ b.diskSide.clears = true :=
  hs.trans ⟨.inl, fun hor => hor.elim id (stale_of_clears h)⟩

theorem readIo_stale (b : Board) (port : Word) :
    (b.readIo port).2.diskSide.Stale ↔ (b.accessed (.readIo port)).diskSide.Stale ∨
      (b.accessed (.readIo port)).diskSide.clears = true := by
  unfold readIo accessed
  dsimp only
  generalize ioGroup port = group
  match group with
  | 0 | 1 | 2 | 3 | 4 | 5 | 7 => exact refreshed_stale rfl
  | 6 =>
    obtain ⟨ha, -, hae, -⟩ := read_outputs b.refreshFloppyInputs.machineControl (registerOf port)
    refine refreshed_stale ?_
    simp only [diskSide, ha, hae]
    rfl

theorem writeIo_stale (b : Board) (port : Word) (value : Byte) :
    (b.writeIo port value).diskSide.Stale ↔ (b.accessed (.writeIo port value)).diskSide.Stale ∨
      (b.accessed (.writeIo port value)).diskSide.clears = true := by
  unfold writeIo accessed
  dsimp only
  generalize ioGroup port = group
  match group with
  | 0 => exact refreshed_stale (writePrinterKeyboard_diskSide b (registerOf port) value)
  | 1 | 2 | 3 | 4 | 5 | 6 | 7 => exact refreshed_stale rfl

theorem host_stale (h : b.Coherent) (op : HostOp) :
    (b.host op).diskSide.Stale ↔
      (b.accessed op).diskSide.Stale ∨ (b.accessed op).diskSide.clears = true := by
  have hsame : ∀ {b' : Board}, (b'.diskSide.Stale ↔ b.diskSide.Stale) →
      (b'.diskSide.Stale ↔ b.diskSide.Stale ∨ b.diskSide.clears = true) := same_stale h.steady
  cases op with
  | readIo port => exact readIo_stale b port
  | writeIo port value => exact writeIo_stale b port value
  | keyboardKeyDown keyId code =>
    show (b.keyboardKeyDown keyId code).diskSide.Stale ↔ _
    unfold keyboardKeyDown
    dsimp only
    split
    · exact refreshed_stale rfl
    · exact hsame Iff.rfl
  | takePrinterByte =>
    show b.takePrinterByte.2.diskSide.Stale ↔ _
    unfold takePrinterByte
    split <;> exact hsame Iff.rfl
  | queueSerialReceivedByte value =>
    show (b.queueSerialReceivedByte value).2.diskSide.Stale ↔ _
    unfold queueSerialReceivedByte
    split <;> exact hsame Iff.rfl
  | setRomImage image =>
    show (b.setRomImage image).2.diskSide.Stale ↔ _
    unfold setRomImage
    split <;> exact hsame Iff.rfl
  | writeMemory address value =>
    show (b.writeMemory address value).diskSide.Stale ↔ _
    unfold writeMemory
    dsimp only
    repeat' split
    all_goals exact hsame Iff.rfl
  | setSerialConnected | setSerialClearToSend => exact refreshed_stale rfl
  | setMouseSignals signals => exact refreshed_stale (updateMouseSignals_diskSide _ _)
  | mouseMotion deltaX deltaY => exact refreshed_stale (advanceMouse_diskSide _ _)
  | setMouseButton button pressed => exact refreshed_stale (updateMouseSignals_diskSide b _)
  | keyboardKeyUp | setPrinterOnline | takeSerialTransmittedByte | insertFloppy | ejectFloppy
  | setFloppyIndexPulseWidth | writeVideoRam | setVerticalScroll => exact hsame Iff.rfl

/-- An access by itself leaves no timeout beside a clear register: writing zeroes and disabling the
timing take it away. -/
theorem accessed_fresh (h : b.Coherent) (op : HostOp) (hs : ¬b.diskSide.Stale) :
    ¬(b.accessed op).diskSide.Stale := by
  cases op with
  | readIo port =>
    unfold accessed
    dsimp only
    split <;> exact hs
  | writeIo port value =>
    unfold accessed
    dsimp only
    split
    · unfold writeTimer
      dsimp only
      split
      · rintro ⟨-, hlatch⟩
        cases hlatch
      · exact hs
    · exact hs
    · rw [writeDiskAux_eq]
      rintro ⟨haux, hlatch⟩
      simp only [diskSide, Bool.and_eq_true] at haux hlatch
      cases htiming : b.disk.timingEnabled with
      | false => exact Bool.noConfusion ((h.idle htiming).2.symm.trans hlatch.1)
      | true =>
        rw [htiming, if_pos rfl] at haux
        simp only [DiskAuxControl.write, DiskAuxControl.mk.injEq] at haux
        rw [haux.1, haux.2.2.2] at hlatch
        cases hlatch.2
    · rw [synchronizeControlOutputs_eq]
      rintro ⟨haux, hlatch⟩
      simp only [diskSide, Bool.and_eq_true] at haux hlatch
      rw [if_pos hlatch.2] at haux
      exact hs ⟨haux, hlatch.1⟩
    · exact hs
  | _ => exact hs

theorem reset_fresh (b : Board) : ¬b.reset.diskSide.Stale := by
  unfold reset
  rw [renderVideo_diskSide, refreshSources_diskSide, DiskSide.refresh_stale]
  rintro (⟨-, hlatch⟩ | hclears)
  · cases hlatch
  · cases (Bool.and_eq_true_iff.mp hclears).1

/-- An action leaves a timeout beside a clear register exactly when it clears the register under it. -/
theorem act_stale (h : b.Coherent) (hs : ¬b.diskSide.Stale) (a : Action) :
    (b.act a).diskSide.Stale ↔ b.clears a = true := by
  cases a with
  | host op => exact (host_stale h op).trans (or_iff_right (accessed_fresh h op hs))
  | advance cpuCycles =>
    show (b.advanceTime cpuCycles).diskSide.Stale ↔ _
    rw [advanceTime_diskSide h.steady, DiskSide.advance_stale, or_iff_right hs]
    exact Iff.rfl
  | reset => exact iff_of_false (reset_fresh b) nofun

theorem neverClears_iff (h : b.Coherent) (hs : ¬b.diskSide.Stale) (actions : List Action) :
    (∀ as, as <+: actions → (Run.run act b as).TimeoutAcknowledged) ↔ b.NeverClears actions := by
  induction actions generalizing b with
  | nil =>
    refine iff_of_true (fun as has => ?_) trivial
    rw [List.prefix_nil.mp has]
    exact (acknowledged_iff h).mpr hs
  | cons a as ih =>
    have hnext := act_coherent h a
    have hact := act_stale h hs a
    constructor
    · intro hall
      have hfresh : ¬(b.act a).diskSide.Stale :=
        (acknowledged_iff hnext).mp (hall [a] (List.prefix_append [a] as))
      refine ⟨Bool.eq_false_iff.mpr fun hclears => hfresh (hact.mpr hclears), ?_⟩
      refine (ih hnext hfresh).mp fun bs hbs => ?_
      exact hall (a :: bs) ((List.prefix_cons_inj a).mpr hbs)
    · rintro ⟨hkept, hrest⟩ bs hbs
      have hfresh : ¬(b.act a).diskSide.Stale := by
        rw [hact, hkept]
        nofun
      cases bs with
      | nil => exact (acknowledged_iff h).mpr hs
      | cons b' bs =>
        obtain ⟨rfl, hrun⟩ := List.cons_prefix_cons.mp hbs
        exact (ih hnext hfresh).mpr hrest bs hrun

/-- After every action of a run a clear auxiliary register means no timeout, if and only if OUT2 and
the second Index never clear the register while a timeout waits. -/
theorem timeout_acknowledged_iff (bootRom : List Byte) (actions : List Action) :
    (∀ as, as <+: actions → (Run.run act (power bootRom) as).TimeoutAcknowledged) ↔
      (power bootRom).NeverClears actions :=
  neverClears_iff (reset_coherent _) (reset_fresh _) actions

end Board

namespace Machine

/-- A data mark starts counter 1, and counter 2 ends the data after the timeout: it stays latched. -/
theorem timeout_outlives_data :
    let nop : Z80 Unit := { power := (), instantReset := id, run := fun _ => .done 4 () }
    let image := FloppyDiskImage.uniform [⟨0, 0xFB#8, 0xC7#8⟩, ⟨384, 0x01#8, 0xFF#8⟩]
    let b := (Run.run (step nop) (power nop [])
      [.host (.insertFloppy 0 image .readWrite), .host (.writeIo 0x63#16 0x88#8),
        .host (.writeIo 0x23#16 0xA6#8), .host (.writeIo 0x23#16 0x05#8),
        .host (.writeIo 0x13#16 0x50#8), .host (.writeIo 0x11#16 0x01#8),
        .host (.writeIo 0x13#16 0x90#8), .host (.writeIo 0x12#16 0x01#8),
        .host (.writeIo 0x50#16 0x05#8), .runCycles 4, .host (.readIo 0x21#16),
        .runCycles 128]).board
    ¬b.TimeoutAcknowledged := by
  intro nop image b hacknowledged
  have hlatch : b.diskTimeoutLatch = true := by decide +kernel
  have hclear := hacknowledged (by decide +kernel) (by decide +kernel) (by decide +kernel)
    (by decide +kernel)
  exact Bool.noConfusion (hclear.1.symm.trans hlatch)

end Machine
end FK1
