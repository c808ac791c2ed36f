import FK1.DiskTrace

/-!
# FK1.MarkHunt

The first byte the reader strobes after RE has been set.

* `DiskSide.MarkFirst`: since a moment of the run nothing has been strobed and the synchronization
  latch is clear, or the first byte strobed was a selected mark. Every step keeps it.
* `DiskSide.Deaf`: a reader left synchronized, over a data 8255 in mode 0; it strobes the next cell,
  whatever that is.
* `Board.mark_first_iff`: the first byte of every continuation is a mark exactly when the latch was
  clear as RE was set.
-/

namespace FK1

/-- The first byte strobed, with RDM as it was. -/
def firstStrobe (events : List Event) : Option (TimedFmByte × Bool) :=
  events.findSome? fun
    | .strobe byte rdm => some (byte, rdm)
    | _ => none

theorem firstStrobe_append (xs ys : List Event) :
    firstStrobe (xs ++ ys) = (firstStrobe xs).or (firstStrobe ys) := List.findSome?_append

namespace DiskSide

variable {s s' : DiskSide}

/-- The events and the latch of a refresh. -/
theorem refresh_quietly (s : DiskSide) :
    ∃ new, s.refresh.trace = s.trace ++ new ∧ firstStrobe new = none ∧
      (s.refresh.disk.syncLatch = true → s.disk.syncLatch = true) := by
  have hsync : s.refresh.disk.syncLatch = true → s.disk.syncLatch = true := by
    have hsample : s.sample.disk.syncLatch = s.disk.syncLatch := by
      unfold sample
      dsimp only
      repeat' split
      all_goals rfl
    rw [refresh, endOfData, ← hsample]
    split
    · exact fun h => Bool.noConfusion h
    · exact id
  rcases refresh_trace s with ⟨h, _⟩ | ⟨h, _⟩ | ⟨h, _⟩
  · exact ⟨[], by rw [h, List.append_nil], rfl, hsync⟩
  · exact ⟨_, h, rfl, hsync⟩
  · exact ⟨_, h, rfl, hsync⟩

/-- A byte presented is the last event. -/
theorem present_trace (s : DiskSide) (byte : TimedFmByte) :
    ∃ new, (s.present byte).trace =
        s.trace ++ new ++ [.strobe byte s.disk.aux.dataMarkSelected] ∧ firstStrobe new = none := by
  obtain ⟨new, ht, hnone, _⟩ := refresh_quietly { s with diskData := s.diskData.pulseStrobeB byte.data }
  exact ⟨new, by rw [present, ht], hnone⟩

/-! ## The first byte is a mark -/

/-- Since the trace was `start`: no byte and no synchronization, or a selected mark first. -/
def MarkFirst (start : List Event) (s : DiskSide) : Prop :=
  ∃ new, s.trace = start ++ new ∧
    match firstStrobe new with
    | none => s.disk.syncLatch = false
    | some (byte, rdm) => selectedMark rdm byte = true

variable {start : List Event}

/-- What strobes nothing and does not synchronize. -/
theorem MarkFirst.silent (h : MarkFirst start s) {more : List Event}
    (ht : s'.trace = s.trace ++ more) (hnone : firstStrobe more = none)
    (hsync : s'.disk.syncLatch = true → s.disk.syncLatch = true) : MarkFirst start s' := by
  obtain ⟨new, hnew, hfirst⟩ := h
  refine ⟨new ++ more, by rw [ht, hnew, List.append_assoc], ?_⟩
  rw [firstStrobe_append, hnone, Option.or_none]
  cases hstrobe : firstStrobe new with
  | none =>
    rw [hstrobe] at hfirst
    cases hs : s'.disk.syncLatch with
    | false => rfl
    | true => exact (hsync hs).symm.trans hfirst
  | some first => rw [hstrobe] at hfirst; exact hfirst

/-- What strobes bytes after a first one, or a mark as the first one. -/
theorem MarkFirst.strobe (h : MarkFirst start s) {more : List Event} {byte : TimedFmByte} {rdm : Bool}
    (ht : s'.trace = s.trace ++ more) (hsome : firstStrobe more = some (byte, rdm))
    (hmark : s.disk.syncLatch = false → selectedMark rdm byte = true) : MarkFirst start s' := by
  obtain ⟨new, hnew, hfirst⟩ := h
  refine ⟨new ++ more, by rw [ht, hnew, List.append_assoc], ?_⟩
  rw [firstStrobe_append, hsome]
  cases hstrobe : firstStrobe new with
  | none => rw [hstrobe] at hfirst; exact hmark hfirst
  | some first => rw [hstrobe] at hfirst; exact hfirst

theorem MarkFirst.step (hstep : Step s s') (h : MarkFirst start s) : MarkFirst start s' := by
  cases hstep with
  | prepare hp => exact h.silent (by rw [hp.trace, List.append_nil]) rfl hp.sync
  | refresh =>
    obtain ⟨new, ht, hnone, hsync⟩ := refresh_quietly s
    exact h.silent ht hnone hsync
  | @present byte hsync =>
    obtain ⟨new, ht, hnone⟩ := present_trace s byte
    rw [List.append_assoc] at ht
    exact h.strobe ht (by rw [firstStrobe_append, hnone]; rfl) fun hs => by rw [hs] at hsync; cases hsync
  | @mark byte hmark =>
    obtain ⟨new, ht, hnone⟩ := present_trace s.synchronize byte
    rw [List.append_assoc] at ht
    have hall : (s.synchronize.present byte).trace =
        s.trace ++ ([.mark] ++ (new ++ [.strobe byte s.disk.aux.dataMarkSelected])) := by
      rw [ht, synchronize, List.append_assoc]
    refine h.strobe hall ?_ fun _ => hmark
    rw [firstStrobe_append, firstStrobe_append, hnone]; rfl
  | clock => exact h.silent rfl rfl id
  | store => exact h.silent rfl rfl id
  | reset hd ht => exact h.silent ht rfl fun hs => by rw [hd] at hs; cases hs

/-- Steps only append to the trace. -/
theorem Steps.extends (h : Steps s s') : s.trace <+: s'.trace := by
  refine h.invariant (I := fun s' => s.trace <+: s'.trace) (fun s₁ s₂ hstep hs => hs.trans ?_)
    ( List.prefix_refl _)
  cases hstep with
  | prepare hp => exact hp.trace ▸ List.prefix_refl _
  | refresh =>
    obtain ⟨new, ht, _⟩ := refresh_quietly s₁
    exact ⟨new, ht.symm⟩
  | @present byte _ =>
    obtain ⟨new, ht, _⟩ := present_trace s₁ byte
    exact ⟨_, (ht.trans (List.append_assoc _ _ _)).symm⟩
  | @mark byte _ =>
    obtain ⟨new, ht, _⟩ := present_trace s₁.synchronize byte
    rw [synchronize, List.append_assoc, List.append_assoc] at ht
    exact ⟨_, ht.symm⟩
  | clock => exact ⟨_, rfl⟩
  | store => exact ⟨_, rfl⟩
  | reset _ ht => exact ⟨_, ht.symm⟩

/-! ## A reader left synchronized -/

/-- Synchronized, reading, and without interrupts from a data 8255 in mode 0 with PA clear. -/
structure Deaf (s : DiskSide) : Prop where
  timing : s.disk.timingEnabled = true
  reading : s.disk.aux.readEnabled = true
  sync : s.disk.syncLatch = true
  terminal : s.terminal = false
  groupA : s.diskData.groupAMode = .mode0
  groupB : s.diskData.groupBMode = .mode0
  outputA : s.diskData.outputA = 0#8
  atRest : s.diskData.AtRest

theorem intr_of_mode0 {p : Ppi8255} (ha : p.groupAMode = .mode0) (hb : p.groupBMode = .mode0)
    (h : p.AtRest) : p.intrA = false ∧ p.intrB = false := by
  rw [← h.updated]
  simp [Ppi8255.updateInterrupts, Ppi8255.strobedInputA, Ppi8255.strobedOutputA, ha, hb]

/-- In mode 0 a byte to be written is taken without any interrupt. -/
theorem Deaf.transfer (h : Deaf s) (tick : Nat) :
    Deaf (s.transfer tick) ∧ (s.transfer tick).trace = s.trace := by
  have hp := Ppi8255.pulseAckA_eq h.atRest.ackA
  have hA : s.diskData.pulseAckA.groupAMode = .mode0 := by rw [hp]; exact h.groupA
  have hB : s.diskData.pulseAckA.groupBMode = .mode0 := by rw [hp]; exact h.groupB
  have hO : s.diskData.pulseAckA.outputA = 0#8 := by rw [hp]; exact h.outputA
  have hrest := h.atRest.pulseAckA
  obtain ⟨hiA, hiB⟩ := intr_of_mode0 hA hB hrest
  have hlow : dataInterrupt { s with
      disk := { s.disk with pendingWrites := s.disk.pendingWrites ++ [s.written tick] }
      diskData := s.diskData.pulseAckA } = false := by
    rw [dataInterrupt]; simp only [hiA, hiB, Bool.or_self]
  unfold DiskSide.transfer
  rw [refresh_of_low hlow h.terminal]
  exact ⟨⟨h.timing, h.reading, h.sync, h.terminal, hA, hB, hO, hrest⟩, rfl⟩

/-- The next byte is strobed, mark or not. -/
theorem Deaf.read (h : Deaf s) (byte : TimedFmByte) :
    (s.read byte).trace = s.trace ++ [.strobe byte s.disk.aux.dataMarkSelected] := by
  have hp := Ppi8255.pulseStrobeB_eq h.atRest.strobeB byte.data
  have hA : (s.diskData.pulseStrobeB byte.data).groupAMode = .mode0 := by rw [hp]; exact h.groupA
  have hB : (s.diskData.pulseStrobeB byte.data).groupBMode = .mode0 := by rw [hp]; exact h.groupB
  obtain ⟨hiA, hiB⟩ := intr_of_mode0 hA hB (h.atRest.pulseStrobeB byte.data)
  have hlow : dataInterrupt { s with diskData := s.diskData.pulseStrobeB byte.data } = false := by
    rw [dataInterrupt]; simp only [hiA, hiB, Bool.or_self]
  rw [read_synced h.reading h.sync, present, refresh_of_low hlow h.terminal]

/-- A cell away from Index passes: a byte of zeros is strobed. -/
theorem Deaf.process (h : Deaf s) {c : TimedFmByte} (ht : c.tick ≠ 0) (hd : c.data = 0#8) :
    ∃ byte rdm, (s.process c).trace = s.trace ++ [.strobe byte rdm] ∧ byte.data = 0#8 := by
  have hreached : Deaf (s.reached c.tick) :=
    ⟨h.timing, h.reading, h.sync, h.terminal, h.groupA, h.groupB, h.outputA, h.atRest⟩
  have hindex : ((s.reached c.tick).disk.aux.formatEnabled && c.tick == 0) = false := by simp [ht]
  unfold DiskSide.process
  simp only [hindex, show (s.reached c.tick).disk.timingEnabled = true from h.timing, Bool.not_true,
    Bool.false_and, Bool.false_eq_true, if_false]
  split
  · obtain ⟨hdeaf, htrace⟩ := hreached.transfer c.tick
    exact ⟨_, _, by rw [hdeaf.read, htrace]; rfl, h.outputA⟩
  · exact ⟨_, _, hreached.read c, hd⟩

end DiskSide

/-! ## A stray cell -/

/-- A cell that no mark detector takes for a mark, within three ticks of `phase` and not at Index. -/
def strayCell (phase : Nat) : TimedFmByte := { tick := max phase 1 }

theorem strayCell_spaced {phase : Nat} (h : phase < revolutionTicks) :
    setBytesAccepts [strayCell phase] := by
  rw [setBytesAccepts_iff]
  refine Circle.Spaced.singleton ?_
  show max phase 1 < revolutionTicks
  rw [revolutionTicks] at *; omega

theorem passed_strayCell {phase : Nat} (h : phase < revolutionTicks) :
    Circle.passed TimedFmByte.tick revolutionTicks [strayCell phase] phase 3 = [strayCell phase] := by
  rw [revolutionTicks] at *
  have htick : ∀ i, ([strayCell phase].filter fun c => c.tick == (phase + i) % 2000000) =
      if max phase 1 = (phase + i) % 2000000 then [strayCell phase] else [] := by
    intro i
    simp [strayCell, List.filter_cons]
  have hrange : List.range 3 = [0, 1, 2] := rfl
  rw [Circle.passed, hrange]
  simp only [List.flatMap_cons, List.flatMap_nil, htick, List.append_nil]
  by_cases h0 : phase = 0
  · subst h0; rfl
  · rw [if_pos (by omega), if_neg (by omega), if_neg (by omega), List.append_nil, List.append_nil]

namespace Board

variable {b : Board}

/-- The first byte the reader strobes from `b` on in the run is the mark that RDM selects. -/
def MarkFirst (b : Board) (actions : List Action) : Prop :=
  ∀ byte rdm, firstStrobe (Run.added Board.trace b (Run.run act b actions)) = some (byte, rdm) →
    DiskSide.selectedMark rdm byte = true

theorem markFirst_of_clear (hb : b.Coherent) (hsync : b.disk.syncLatch = false)
    (actions : List Action) : b.MarkFirst actions := by
  have hstart : DiskSide.MarkFirst b.trace b.diskSide := ⟨[], (List.append_nil _).symm, hsync⟩
  obtain ⟨new, hnew, hfirst⟩ := run_invariant (fun _ _ hstep h => h.step hstep) hb hstart actions
  have hadded : Run.added Board.trace b (Run.run act b actions) = new := Run.added_of_eq hnew
  intro byte rdm hstrobe
  rw [hadded] at hstrobe
  rw [hstrobe] at hfirst
  exact hfirst

/-- A mode set of the data 8255 leaves the reader deaf and drive B selected. -/
theorem writeMode0_deaf (hb : b.Coherent) (hread : b.disk.aux.readEnabled = true)
    (htiming : b.disk.timingEnabled = true) (hsync : b.disk.syncLatch = true) :
    (b.writeIo 0x23#16 0x9B#8).diskSide.Deaf ∧
      (b.writeIo 0x23#16 0x9B#8).floppy = { b.floppy with selectedDriveIndex := driveB } ∧
      (b.writeIo 0x23#16 0x9B#8).trace = b.trace := by
  have hterminal : b.diskSide.terminal = false := by
    cases ht : b.diskSide.terminal with
    | false => rfl
    | true => exact absurd ((hb.endOfData ht).2.1.symm.trans hsync) (by decide)
  have hside : (b.writeIo 0x23#16 0x9B#8).diskSide = (b.diskSide.writeData 0x23#8 0x9B#8).refresh :=
    writeData_diskSide (by decide) _
  have hrest : (b.diskData.write 0x23#8 0x9B#8).AtRest := hb.atRest.write _ _
  have hA : (b.diskData.write 0x23#8 0x9B#8).groupAMode = .mode0 := rfl
  have hB : (b.diskData.write 0x23#8 0x9B#8).groupBMode = .mode0 := rfl
  obtain ⟨hiA, hiB⟩ := DiskSide.intr_of_mode0 hA hB hrest
  have hlow : (b.diskSide.writeData 0x23#8 0x9B#8).dataInterrupt = false := by
    show ((b.diskData.write 0x23#8 0x9B#8).intrA || (b.diskData.write 0x23#8 0x9B#8).intrB) = false
    rw [hiA, hiB]; rfl
  rw [DiskSide.refresh_of_low hlow hterminal] at hside
  refine ⟨?_, congrArg DiskSide.floppy hside, congrArg DiskSide.trace hside⟩
  rw [hside]
  exact ⟨htiming, hread, hsync, hterminal, hA, hB, rfl, hrest⟩

theorem insertFloppy_deaf (h : b.diskSide.Deaf) (drive : Nat) (image : FloppyDiskImage)
    (access : FloppyAccess) : (b.insertFloppy drive image access).2.diskSide.Deaf :=
  ⟨h.timing, h.reading, h.sync, h.terminal, h.groupA, h.groupB, h.outputA, h.atRest⟩

/-- A reader left synchronized strobes a stray cell of a medium inserted under it. -/
theorem not_markFirst_of_synchronized (hb : b.Coherent) (hread : b.disk.aux.readEnabled = true)
    (htiming : b.disk.timingEnabled = true) (hsync : b.disk.syncLatch = true) :
    ∃ actions, ¬ b.MarkFirst actions := by
  let phase := (b.floppy.drives driveB).rotationPhase
  let image := FloppyDiskImage.uniform [strayCell phase]
  let setup : List Action := [.host (.writeIo 0x23#16 0x9B#8), .host (.insertFloppy 1 image .readWrite)]
  let b₂ := Run.run act b setup
  obtain ⟨hdeaf, hfloppy, htrace⟩ := writeMode0_deaf hb hread htiming hsync
  have hcoherent : b₂.Coherent := Run.run_invariant (I := Coherent) (fun _ a h => act_coherent h a) hb setup
  have hdeaf₂ : b₂.diskSide.Deaf := insertFloppy_deaf hdeaf 1 image .readWrite
  have hinserted : b₂.floppy = (({ b.floppy with selectedDriveIndex := driveB } : FloppySubsystem).insert
      1 image .readWrite).2 := by
    rw [← hfloppy]; rfl
  have hpassing : b₂.diskSide.passing 3 = [strayCell phase] := by
    have htrack : b₂.floppy.currentTrack.bytes = [strayCell phase] := by
      rw [hinserted]
      show (FloppyTrack.setBytes {} [strayCell phase]).2.bytes = _
      rw [FloppyTrack.setBytes, dif_pos (strayCell_spaced phase.isLt)]
    have hphase : b₂.floppy.phase = phase := by rw [hinserted]; rfl
    rw [DiskSide.passing_eq]
    show Circle.passed _ _ b₂.floppy.currentTrack.bytes b₂.floppy.phase 3 = _
    rw [htrack, hphase]
    exact passed_strayCell phase.isLt
  obtain ⟨byte, rdm, hstrobe, hzero⟩ := hdeaf₂.process (c := strayCell phase)
    (by show max phase.val 1 ≠ 0; omega) rfl
  -- what follows in the time step comes after that byte
  obtain ⟨rest, hrest⟩ : (b₂.diskSide.process (strayCell phase)).trace <+:
      (b₂.advanceTime 1).diskSide.trace := by
    rw [advanceTime_diskSide hcoherent.steady, DiskSide.advance, hpassing]
    exact DiskSide.Steps.extends (((DiskSide.Prepares.steps ⟨by rfl, by rfl, by rfl, by exact id⟩).trans
      (DiskSide.timer_steps _ _)).trans (DiskSide.flush_steps _))
  refine ⟨setup ++ [.advance 1], fun hfirst => ?_⟩
  have hadded : Run.added Board.trace b (Run.run act b (setup ++ [.advance 1])) =
      .strobe byte rdm :: rest := by
    refine Run.added_of_eq ?_
    show (b₂.advanceTime 1).trace = _
    rw [show (b₂.advanceTime 1).trace = _ from hrest.symm, hstrobe,
      show b₂.diskSide.trace = b.trace from htrace, List.append_assoc]
    rfl
  have hmark := hfirst byte rdm (by rw [hadded]; rfl)
  unfold DiskSide.selectedMark isDataAddressMark isIdAddressMark at hmark
  rw [hzero] at hmark
  cases rdm <;> simp at hmark

/-- After a write to group 50h that sets RE, whether it was set before or not, the first byte strobed
in every run is the selected mark if and only if the synchronization latch was clear. -/
theorem mark_first_iff (hb : b.Reachable) {port : Word} (hp : ioGroup port = 5) {value : Byte}
    (hv : hasBits value 0x01#8 = true) (htiming : b.disk.timingEnabled = true) :
    (∀ actions, (b.act (.host (.writeIo port value))).MarkFirst actions) ↔
      b.disk.syncLatch = false := by
  have hcoherent := hb.coherent
  have hnext : (b.act (.host (.writeIo port value))).Coherent := act_coherent hcoherent _
  have hside : (b.act (.host (.writeIo port value))).diskSide =
      (b.diskSide.writeAux value).refresh := writeAux_diskSide hp value
  constructor
  · intro hall
    cases hsync : b.disk.syncLatch with
    | false => rfl
    | true =>
      have hterminal : b.diskSide.terminal = false := by
        cases ht : b.diskSide.terminal with
        | false => rfl
        | true => exact absurd ((hcoherent.endOfData ht).2.1.symm.trans hsync) (by decide)
      rw [DiskSide.refresh_of_level (s := b.diskSide.writeAux value) hcoherent.level hterminal] at hside
      have hread' : (b.act (.host (.writeIo port value))).disk.aux.readEnabled = true := by
        rw [show (b.act (.host (.writeIo port value))).disk.aux = _ from
          congrArg (fun s => s.disk.aux) hside]
        show (if b.disk.timingEnabled then b.disk.aux.write value else {}).readEnabled = true
        rw [htiming, if_pos rfl]; exact hv
      have htiming' : (b.act (.host (.writeIo port value))).disk.timingEnabled = true :=
        (congrArg (fun s => s.disk.timingEnabled) hside).trans htiming
      have hsync' : (b.act (.host (.writeIo port value))).disk.syncLatch = true :=
        (congrArg (fun s => s.disk.syncLatch) hside).trans hsync
      obtain ⟨actions, hnot⟩ := not_markFirst_of_synchronized hnext hread' htiming' hsync'
      exact absurd (hall actions) hnot
  · intro hsync
    obtain ⟨_, _, _, hkeep⟩ := DiskSide.refresh_quietly (b.diskSide.writeAux value)
    refine markFirst_of_clear hnext ?_
    cases hs : (b.act (.host (.writeIo port value))).disk.syncLatch with
    | false => rfl
    | true =>
      have hlatched := hkeep ((congrArg (fun s => s.disk.syncLatch) hside).symm.trans hs)
      exact absurd (hlatched.symm.trans hsync) (by decide)

/-- A field read for one byte after its mark, and ended by clearing the auxiliary register. -/
def abortedRead : Board :=
  Run.run act (setUp (.uniform [⟨0, 0xFE#8, 0xC7#8⟩, ⟨384, 0x01#8, 0xFF#8⟩])
    [(0x63#16, 0x88#8), (0x23#16, 0xA6#8), (0x50#16, 0x01#8)])
    [.advance 1, .host (.writeIo 0x50#16 0x00#8)]

theorem abortedRead_reachable : abortedRead.Reachable := by
  obtain ⟨bootRom, h⟩ := setUp_reachable (.uniform [⟨0, 0xFE#8, 0xC7#8⟩, ⟨384, 0x01#8, 0xFF#8⟩])
    [(0x63#16, 0x88#8), (0x23#16, 0xA6#8), (0x50#16, 0x01#8)]
  exact ⟨bootRom, h.runs _⟩

theorem mark_first_iff_aborted :
    (∀ actions, (abortedRead.act (.host (.writeIo 0x50#16 0x01#8))).MarkFirst actions) ↔
      abortedRead.disk.syncLatch = false :=
  mark_first_iff abortedRead_reachable (by decide) (by decide) (by decide +kernel)

/-- The byte after the mark of the aborted read is the first one of the next read. -/
theorem aborted_read_presents_field :
    abortedRead.disk.aux.readEnabled = false ∧ abortedRead.disk.timingEnabled = true ∧
      ¬ (abortedRead.act (.host (.writeIo 0x50#16 0x01#8))).MarkFirst [.advance 128] := by
  refine ⟨by decide +kernel, by decide +kernel, fun h => ?_⟩
  have hmark := h ⟨384, 0x01#8, 0xFF#8⟩ false (by decide +kernel)
  revert hmark
  decide

end Board
end FK1
