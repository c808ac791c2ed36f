import FK1.Refresh

/-!
# FK1.Frame

What the parts of a time step leave alone: the disk bytes (`DiskStep`), the keyboard and the mouse.
A view of the board that does not see disk bytes does not see the parts made of them either
(`advanceKeyboard_view`, `applyTimerEdges_view`, `flush_view`).
-/

namespace FK1

/-- The events of disk bytes, as opposed to clock pulses, stored cells and resets. -/
def Event.ofDisk : Event → Bool
  | .edge | .counterPulse | .mark | .strobe _ _ => true
  | .clock1 _ | .written _ | .reset => false

namespace Board

/-! ## Disk bytes -/

/-- The fields a refresh works on, and the events it may add. -/
theorem refresh_frame (b : Board) :
    ∃ disk timer interrupts intPin new,
      b.refreshInterruptSources = { b with
        disk := disk, timer := timer, interrupts := interrupts, intPin := intPin
        trace := b.trace ++ new } ∧
      (new = [] ∨ new = [.edge] ∨ new = [.edge, .counterPulse]) := by
  have hend : ∀ b : Board, ∃ disk timer, b.applyEndOfData = { b with disk := disk, timer := timer } := by
    intro b
    unfold applyEndOfData
    split
    · dsimp only
      split <;> exact ⟨_, _, rfl⟩
    · exact ⟨b.disk, b.timer, rfl⟩
  obtain ⟨disk, timer, he⟩ := hend b.sampleDiskData
  have hdrive : b.refreshInterruptSources = { b.sampleDiskData with
      disk := disk, timer := timer, interrupts := b.refreshInterruptSources.interrupts
      intPin := b.refreshInterruptSources.intPin } := by
    unfold refreshInterruptSources
    rw [he, driveInterrupts_eq]
  rcases sampleDiskData_cases b with ⟨hs, _⟩ | ⟨hs, _⟩ | ⟨hs, _⟩
  · exact ⟨_, _, _, _, [], hdrive.trans (by rw [hs, List.append_nil]), .inl rfl⟩
  · exact ⟨_, _, _, _, [.edge], hdrive.trans (by rw [hs]), .inr (.inl rfl)⟩
  · exact ⟨_, _, _, _, [.edge, .counterPulse], hdrive.trans (by rw [hs]), .inr (.inr rfl)⟩

/-- From `b` to `b'` only disk bytes have been handled. -/
def DiskStep (b b' : Board) : Prop :=
  ∃ disk diskData timer interrupts intPin new,
    b' = { b with
      disk := disk, diskData := diskData, timer := timer, interrupts := interrupts, intPin := intPin
      trace := b.trace ++ new } ∧ ∀ e ∈ new, e.ofDisk = true

variable {b b' b'' : Board}

theorem DiskStep.refl (b : Board) : DiskStep b b :=
  ⟨_, _, _, _, _, [], by rw [List.append_nil], nofun⟩

theorem DiskStep.trans (h : DiskStep b b') (h' : DiskStep b' b'') : DiskStep b b'' := by
  obtain ⟨_, _, _, _, _, new, rfl, hnew⟩ := h
  obtain ⟨_, _, _, _, _, new', rfl, hnew'⟩ := h'
  refine ⟨_, _, _, _, _, new ++ new', by rw [← List.append_assoc], fun e he => ?_⟩
  rcases List.mem_append.mp he with he | he
  · exact hnew e he
  · exact hnew' e he

/-- A change of the disk state, the data 8255 and the timer alone. -/
theorem DiskStep.set (b : Board) (disk : DiskState) (diskData : Ppi8255) (timer : Pit8253) :
    DiskStep b { b with disk := disk, diskData := diskData, timer := timer } :=
  ⟨_, _, _, _, _, [], by rw [List.append_nil], nofun⟩

theorem DiskStep.log (b : Board) {e : Event} (he : e.ofDisk = true) : DiskStep b (b.log e) :=
  ⟨_, _, _, _, _, [e], rfl, by simpa using he⟩

theorem refresh_diskStep (b : Board) : DiskStep b b.refreshInterruptSources := by
  obtain ⟨_, _, _, _, new, he, hnew⟩ := refresh_frame b
  refine ⟨_, _, _, _, _, new, he, ?_⟩
  rcases hnew with rfl | rfl | rfl <;> simp [Event.ofDisk]

theorem transfer_diskStep (b : Board) (tick : Nat) : DiskStep b (b.transferFloppyWriteByte tick).2 :=
  (DiskStep.set b _ b.diskData.pulseAckA b.timer).trans (refresh_diskStep _)

theorem present_diskStep (b : Board) (byte : TimedFmByte) : DiskStep b (b.presentFloppyByte byte) :=
  ((DiskStep.set b b.disk (b.diskData.pulseStrobeB byte.data) b.timer).trans
    (refresh_diskStep _)).trans (.log _ rfl)

theorem readFloppyByte_diskStep (b : Board) (byte : TimedFmByte) :
    DiskStep b (b.readFloppyByte byte) := by
  unfold readFloppyByte
  split
  · exact .refl b
  split
  · exact present_diskStep b byte
  split
  · exact ((DiskStep.set b _ b.diskData (b.timer.setGate 1 true)).trans (.log _ rfl)).trans
      (present_diskStep _ byte)
  · exact .refl b

theorem processFloppyByte_diskStep (b : Board) (byte : TimedFmByte) :
    DiskStep b (b.processFloppyByte byte) := by
  have hset : ∀ disk, DiskStep b { b with disk := disk } := fun disk => .set b disk b.diskData b.timer
  unfold processFloppyByte
  dsimp only
  split
  · exact hset _
  split
  · exact (DiskStep.set b _ b.diskData (b.timer.setGate 1 false)).trans (refresh_diskStep _)
  split
  · exact ((hset _).trans (transfer_diskStep _ _)).trans (readFloppyByte_diskStep _ _)
  · split
    · exact ((hset _).trans (transfer_diskStep _ _)).trans (readFloppyByte_diskStep _ _)
    · exact (hset _).trans (readFloppyByte_diskStep _ byte)

theorem processFloppyBytes_diskStep (bytes : List TimedFmByte) (b : Board) :
    DiskStep b (bytes.foldl processFloppyByte b) := by
  induction bytes generalizing b with
  | nil => exact .refl b
  | cons byte bytes ih => exact (processFloppyByte_diskStep b byte).trans (ih _)

/-! ## Views -/

section Views

variable {V : Type _} {view : Board → V}

theorem advanceKeyboard_view (hdisk : ∀ {b b'}, DiskStep b b' → view b' = view b)
    (hkeyboard : ∀ b keyboard printerKeyboard,
      view { b with keyboard := keyboard, printerKeyboard := printerKeyboard } = view b)
    (b : Board) (masterTicks : Nat) : view (b.advanceKeyboard masterTicks) = view b := by
  have hdeliver : ∀ (repeats : Nat) (b : Board),
      view (advanceKeyboard.deliver repeats b) = view b := by
    intro repeats
    induction repeats with
    | zero => exact fun _ => rfl
    | succ repeats ih =>
      intro b
      refine (ih _).trans ((hdisk (refresh_diskStep _)).trans ?_)
      exact hkeyboard b b.keyboard _
  exact (hdeliver _ _).trans (hkeyboard b _ b.printerKeyboard)

theorem applyTimerEdges_view (hdisk : ∀ {b b'}, DiskStep b b' → view b' = view b)
    (htimeout : ∀ b latch, view { b with diskTimeoutLatch := latch } = view b) (b : Board)
    (risingEdges : Nat) : view (b.applyTimerEdges risingEdges) = view b := by
  have hwrite : ∀ b : Board, view (if b.disk.timingEnabled && b.disk.aux.writeEnabled
      && !b.disk.ordinaryWriteActive && risingEdges != 0 then
        (transferFloppyWriteByte { b with disk := { b.disk with ordinaryWriteActive := true } }
          b.disk.lastByteTick).2 else b) = view b := by
    intro b
    split
    · exact (hdisk (transfer_diskStep _ _)).trans (hdisk (.set b _ b.diskData b.timer))
    · rfl
  unfold applyTimerEdges
  refine (hwrite _).trans ?_
  split
  · exact htimeout b true
  · rfl

theorem flush_view (hdisk : ∀ {b b'}, DiskStep b b' → view b' = view b)
    (hstored : ∀ b floppy, view { b with floppy := floppy } = view b)
    (hlog : ∀ b byte, view (log b (.written byte)) = view b) (b : Board) :
    view b.flushPendingDiskWrites = view b := by
  have hstore : ∀ (bytes : List TimedFmByte) (b : Board), view (bytes.foldl (fun b byte =>
      let result := b.floppy.writeSelectedByte byte
      let b := { b with floppy := result.2 }
      if result.1 then b.log (.written byte) else b) b) = view b := by
    intro bytes
    induction bytes with
    | nil => exact fun _ => rfl
    | cons byte bytes ih =>
      intro b
      refine (ih _).trans ?_
      dsimp only
      split
      · exact (hlog _ byte).trans (hstored b _)
      · exact hstored b _
  exact (hdisk (.set _ _ _ _)).trans (hstore b.disk.pendingWrites b)

end Views

/-! ## Mouse -/

/-- The mouse only changes its own state and its latch. -/
theorem updateMouseSignals_frame (b : Board) (signals : Byte) :
    ∃ mouse latch, b.updateMouseSignals signals =
      { b with mouse := mouse, mouseInterruptLatch := latch } := by
  unfold updateMouseSignals
  dsimp only
  split
  · exact ⟨_, _, rfl⟩
  · exact ⟨_, b.mouseInterruptLatch, rfl⟩

theorem mouseEdge_frame (b : Board) :
    ∃ mouse latch, b.mouseEdge = { b with mouse := mouse, mouseInterruptLatch := latch } := by
  unfold mouseEdge
  dsimp only
  split
  · obtain ⟨mouse, latch, he⟩ := updateMouseSignals_frame _ _
    exact ⟨mouse, latch, he⟩
  · obtain ⟨mouse, latch, he⟩ := updateMouseSignals_frame _ _
    exact ⟨mouse, latch, he⟩

theorem mouseLoop_frame (fuel : Nat) (b : Board) :
    ∃ mouse latch, mouseLoop fuel b = { b with mouse := mouse, mouseInterruptLatch := latch } := by
  induction fuel generalizing b with
  | zero => exact ⟨b.mouse, b.mouseInterruptLatch, rfl⟩
  | succ fuel ih =>
    rw [mouseLoop]
    split
    · obtain ⟨mouse, latch, he⟩ := mouseEdge_frame b
      obtain ⟨mouse', latch', hl⟩ := ih b.mouseEdge
      exact ⟨mouse', latch', by rw [hl, he]⟩
    · exact ⟨b.mouse, b.mouseInterruptLatch, rfl⟩

theorem advanceMouse_frame (b : Board) (masterTicks : Nat) :
    ∃ mouse latch, b.advanceMouse masterTicks =
      { b with mouse := mouse, mouseInterruptLatch := latch } := by
  unfold advanceMouse
  dsimp only
  generalize b.mouse.edgeTickAccumulator
    + min masterTicks (maxUint64 - b.mouse.edgeTickAccumulator) = accumulator
  obtain ⟨mouse, latch, he⟩ := mouseLoop_frame (accumulator / mouseEdgeIntervalTicks)
    { b with mouse := { b.mouse with edgeTickAccumulator := accumulator } }
  rw [he]
  split <;> exact ⟨_, _, rfl⟩

end Board
end FK1
