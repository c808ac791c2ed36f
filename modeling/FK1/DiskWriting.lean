import FK1.DiskTrace
import FK1.OutputHandshake

/-!
# FK1.DiskWriting

What the two writing operations have in common.

* `DiskSide.Continues`: a refresh, a transfer or a presented byte either lets the operation go on
  or is the moment at which OUT2 stops it.
* `DiskSide.process_pending`: the cells that wait for the end of the time step.
* `DiskSide.flush_eq`: at its end they overwrite cells of the track under the head.
-/

namespace FK1

namespace DiskSide

/-- OUT2 is high and has ended the operation. -/
structure Stopped (s : DiskSide) : Prop where
  terminal : s.terminal = true
  ended : s.disk.Ended

/-- OUT2 is low and the operation of `s` is that of `s'`. -/
structure GoesOn (s s' : DiskSide) : Prop where
  terminal : s'.terminal = false
  timing : s'.disk.timingEnabled = s.disk.timingEnabled
  aux : s'.disk.aux = s.disk.aux
  ordinary : s'.disk.ordinaryWriteActive = s.disk.ordinaryWriteActive
  format : s'.disk.formatWriteActive = s.disk.formatWriteActive

def Continues (s s' : DiskSide) : Prop := s.GoesOn s' ∨ s'.Stopped

variable {s s' s'' : DiskSide}

theorem GoesOn.refl (h : s.terminal = false) : s.GoesOn s := ⟨h, rfl, rfl, rfl, rfl⟩

theorem GoesOn.trans (h : s.GoesOn s') (h' : s'.GoesOn s'') : s.GoesOn s'' :=
  ⟨h'.terminal, h'.timing.trans h.timing, h'.aux.trans h.aux, h'.ordinary.trans h.ordinary,
    h'.format.trans h.format⟩

theorem Stopped.of_ready (h : s.Ready) (ht : s.terminal = true) : s.Stopped := ⟨ht, h.endOfData ht⟩

/-- The controller's state but for the edge detector. -/
theorem sample_disk (s : DiskSide) :
    ∃ level suppress, s.sample.disk =
      { s.disk with dataInterruptLevel := level, suppressByteCounterOnce := suppress } := by
  unfold sample
  dsimp only
  repeat' split
  · exact ⟨_, false, rfl⟩
  · exact ⟨_, s.disk.suppressByteCounterOnce, rfl⟩
  · exact ⟨_, s.disk.suppressByteCounterOnce, rfl⟩

theorem refresh_continues (s : DiskSide) : s.Continues s.refresh := by
  obtain ⟨level, suppress, hd⟩ := s.sample_disk
  cases ht : s.sample.terminal with
  | true =>
    refine .inr ⟨?_, ?_⟩
    · rw [refresh, endOfData_of_high ht]; exact ht
    · rw [refresh, endOfData_of_high ht]; exact ⟨rfl, rfl, rfl, rfl⟩
  | false =>
    rw [refresh, endOfData_of_low ht]
    exact .inl ⟨ht, by rw [hd], by rw [hd], by rw [hd], by rw [hd]⟩

/-- What a refresh does goes on from what it has been given. -/
theorem Continues.of_refresh {s₁ : DiskSide} (hd : s₁.disk.timingEnabled = s.disk.timingEnabled ∧
    s₁.disk.aux = s.disk.aux ∧ s₁.disk.ordinaryWriteActive = s.disk.ordinaryWriteActive ∧
      s₁.disk.formatWriteActive = s.disk.formatWriteActive) : s.Continues s₁.refresh := by
  obtain ⟨ht, ha, ho, hf⟩ := hd
  exact (refresh_continues s₁).imp_left fun h =>
    ⟨h.terminal, h.timing.trans ht, h.aux.trans ha, h.ordinary.trans ho, h.format.trans hf⟩

theorem transfer_continues (s : DiskSide) (tick : Nat) : s.Continues (s.transfer tick) :=
  .of_refresh ⟨rfl, rfl, rfl, rfl⟩

theorem present_continues (s : DiskSide) (byte : TimedFmByte) : s.Continues (s.present byte) := by
  have h : s.Continues { s with diskData := s.diskData.pulseStrobeB byte.data }.refresh :=
    .of_refresh ⟨rfl, rfl, rfl, rfl⟩
  exact h.imp (fun h => ⟨h.terminal, h.timing, h.aux, h.ordinary, h.format⟩)
    fun h => ⟨h.terminal, h.ended⟩

theorem read_continues (h : s.terminal = false) (byte : TimedFmByte) : s.Continues (s.read byte) := by
  unfold read
  split
  · exact .inl (.refl h)
  split
  · exact present_continues s byte
  split
  · exact (present_continues s.synchronize byte).imp_left fun h =>
      ⟨h.terminal, h.timing, h.aux, h.ordinary, h.format⟩
  · exact .inl (.refl h)

theorem Stopped.read (h : s.Stopped) (byte : TimedFmByte) : (s.read byte).Stopped := by
  rw [read_disabled (by rw [h.ended.1])]
  exact h

theorem Stopped.process (h : s.Stopped) (byte : TimedFmByte) : (s.process byte).Stopped := by
  obtain ⟨haux, _, hord, hfmt⟩ := h.ended
  rw [process_passive (by rw [haux]) (by rw [haux]) (by rw [writing, hfmt, hord]; rfl)]
  exact ⟨h.terminal, h.ended⟩

theorem Stopped.processAll (h : s.Stopped) (bytes : List TimedFmByte) :
    (bytes.foldl DiskSide.process s).Stopped := by
  induction bytes generalizing s with
  | nil => exact h
  | cons byte bytes ih => exact ih (h.process byte)

/-! ## A cell under a running operation -/

/-- The serializer and the reader on a cell. -/
def serve (s : DiskSide) (c : TimedFmByte) : DiskSide :=
  if s.writing then (s.transfer c.tick).read (s.written c.tick) else s.read c

theorem serve_continues (h : s.terminal = false) (c : TimedFmByte) : s.Continues (s.serve c) := by
  unfold serve
  split
  · rcases transfer_continues s c.tick with ht | ht
    · exact (read_continues ht.terminal _).imp_left ht.trans
    · exact .inr (ht.read _)
  · exact read_continues h c

/-- Without RE a cell is written or passes. -/
theorem serve_unread (h : s.disk.aux.readEnabled = false) (c : TimedFmByte) :
    s.serve c = if s.writing then s.transfer c.tick else s := by
  have hafter : (s.transfer c.tick).disk.aux.readEnabled = false := by
    rcases transfer_continues s c.tick with hg | hstop
    · rw [hg.aux]; exact h
    · rw [hstop.ended.1]
  unfold serve
  rw [read_disabled hafter, read_disabled h]

/-- Away from Index, or without FOR. -/
theorem process_cell (ht : s.disk.timingEnabled = true) {c : TimedFmByte}
    (h : s.disk.aux.formatEnabled = false ∨ c.tick ≠ 0) :
    s.process c = (s.reached c.tick).serve c := by
  have htiming : (s.reached c.tick).disk.timingEnabled = true := ht
  have hindex : ((s.reached c.tick).disk.aux.formatEnabled && c.tick == 0) = false := by
    rcases h with h | h
    · rw [show (s.reached c.tick).disk.aux.formatEnabled = false from h, Bool.false_and]
    · simp [h]
  unfold process serve
  simp only [htiming, hindex, Bool.not_true, Bool.false_and, Bool.false_eq_true, if_false]

/-- The first Index of a format starts the writing. -/
theorem process_first_index (ht : s.disk.timingEnabled = true) (hf : s.disk.aux.formatEnabled = true)
    (ha : s.disk.formatWriteActive = false) {c : TimedFmByte} (h0 : c.tick = 0) :
    s.process c = serve { s.reached c.tick with
      disk := { (s.reached c.tick).disk with formatWriteActive := true } } c := by
  have htiming : (s.reached c.tick).disk.timingEnabled = true := ht
  have hindex : ((s.reached c.tick).disk.aux.formatEnabled && c.tick == 0) = true := by
    rw [show (s.reached c.tick).disk.aux.formatEnabled = true from hf, h0]; rfl
  have hactive : (s.reached c.tick).disk.formatWriteActive = false := ha
  unfold process serve
  simp only [htiming, hindex, hactive, Bool.not_true, Bool.and_false, Bool.false_eq_true, if_false,
    if_true]

/-- The second Index of a format ends it. -/
theorem process_second_index (ht : s.disk.timingEnabled = true) (hf : s.disk.aux.formatEnabled = true)
    (ha : s.disk.formatWriteActive = true) {c : TimedFmByte} (h0 : c.tick = 0) :
    s.process c = (s.reached c.tick).endFormat := by
  have htiming : (s.reached c.tick).disk.timingEnabled = true := ht
  have hindex : ((s.reached c.tick).disk.aux.formatEnabled && c.tick == 0) = true := by
    rw [show (s.reached c.tick).disk.aux.formatEnabled = true from hf, h0]; rfl
  have hactive : (s.reached c.tick).disk.formatWriteActive = true := ha
  unfold process
  simp only [htiming, hindex, hactive, Bool.not_true, Bool.and_self, Bool.false_eq_true, if_false,
    if_true]

/-! ## The cells waiting to be stored -/

theorem refresh_pending (s : DiskSide) : s.refresh.disk.pendingWrites = s.disk.pendingWrites := by
  obtain ⟨_, _, hd⟩ := s.sample_disk
  unfold refresh endOfData
  split <;> simp [ended, hd]

theorem present_pending (s : DiskSide) (byte : TimedFmByte) :
    (s.present byte).disk.pendingWrites = s.disk.pendingWrites :=
  refresh_pending { s with diskData := s.diskData.pulseStrobeB byte.data }

theorem read_pending (s : DiskSide) (byte : TimedFmByte) :
    (s.read byte).disk.pendingWrites = s.disk.pendingWrites := by
  unfold read
  repeat' split
  · rfl
  · exact present_pending s byte
  · exact present_pending s.synchronize byte
  · rfl

theorem serve_pending (s : DiskSide) (c : TimedFmByte) :
    (s.serve c).disk.pendingWrites =
      s.disk.pendingWrites ++ if s.writing then [s.written c.tick] else [] := by
  unfold serve
  split
  · rw [read_pending]; exact refresh_pending _
  · rw [read_pending, List.append_nil]

theorem endFormat_pending (s : DiskSide) : s.endFormat.disk.pendingWrites = s.disk.pendingWrites :=
  refresh_pending _

/-- At most the passing cell joins the cells that wait. -/
theorem process_pending (s : DiskSide) (c : TimedFmByte) :
    (s.process c).disk.pendingWrites = s.disk.pendingWrites ∨
      (s.process c).disk.pendingWrites = s.disk.pendingWrites ++ [s.written c.tick] := by
  have hserve : ∀ t : DiskSide, t.disk.pendingWrites = s.disk.pendingWrites →
      t.written c.tick = s.written c.tick →
      (t.serve c).disk.pendingWrites = s.disk.pendingWrites ∨
        (t.serve c).disk.pendingWrites = s.disk.pendingWrites ++ [s.written c.tick] := by
    intro t hp hc
    rw [serve_pending, hp, hc]
    split
    · exact .inr rfl
    · exact .inl (List.append_nil _)
  cases ht : s.disk.timingEnabled with
  | false =>
    rw [process_untimed ht]
    exact .inl rfl
  | true =>
    by_cases hindex : s.disk.aux.formatEnabled = false ∨ c.tick ≠ 0
    · rw [process_cell ht hindex]; exact hserve _ rfl rfl
    · obtain ⟨hf, h0⟩ : s.disk.aux.formatEnabled = true ∧ c.tick = 0 := by simpa using hindex
      cases ha : s.disk.formatWriteActive with
      | false => rw [process_first_index ht hf ha h0]; exact hserve _ rfl rfl
      | true => rw [process_second_index ht hf ha h0]; exact .inl (endFormat_pending _)

/-- What waits after some cells is at their ticks. -/
theorem processAll_pending (cells : List TimedFmByte) (s : DiskSide) :
    ∀ w ∈ (cells.foldl process s).disk.pendingWrites,
      w ∈ s.disk.pendingWrites ∨ ∃ c ∈ cells, c.tick = w.tick := by
  induction cells generalizing s with
  | nil => exact fun w hw => .inl hw
  | cons c cells ih =>
    intro w hw
    rcases ih (s.process c) w hw with hw | ⟨c', hc', ht⟩
    · rcases process_pending s c with hp | hp
      · exact .inl (hp ▸ hw)
      · rw [hp, List.mem_append, List.mem_singleton] at hw
        rcases hw with hw | rfl
        · exact .inl hw
        · exact .inr ⟨c, by simp, rfl⟩
    · exact .inr ⟨c', by simp [hc'], ht⟩

/-! ## The store at the end of a time step -/

/-- Cells stored at ticks of the track under the head overwrite it in place. -/
theorem storeBytes_eq {bytes : List TimedFmByte} (hw : s.floppy.Writable)
    (hb : ∀ w ∈ bytes, ∃ c ∈ s.floppy.currentTrack.bytes, c.tick = w.tick) :
    bytes.foldl storeByte s = { s with
      floppy := s.floppy.setCurrentTrack (s.floppy.currentTrack.overwrite bytes)
      trace := s.trace ++ bytes.map Event.written } := by
  induction bytes generalizing s with
  | nil =>
    rw [FloppyTrack.overwrite_nil, FloppySubsystem.setCurrentTrack_self, List.map_nil, List.append_nil]
    rfl
  | cons w bytes ih =>
    obtain ⟨old, hold, ht⟩ := hb w (by simp)
    have hstore : s.storeByte w = { s with
        floppy := s.floppy.setCurrentTrack (s.floppy.currentTrack.overwrite [w])
        trace := s.trace ++ [.written w] } := by
      unfold storeByte
      rw [FloppySubsystem.writeSelectedByte_of_mem hw hold ht, if_pos rfl]
    have htrack := FloppySubsystem.setCurrentTrack_currentTrack hw.inserted
      (s.floppy.currentTrack.overwrite [w])
    have hticks : ∀ x ∈ bytes, ∃ c ∈ (s.floppy.setCurrentTrack
        (s.floppy.currentTrack.overwrite [w])).currentTrack.bytes, c.tick = x.tick := by
      intro x hx
      obtain ⟨c, hc, hcx⟩ := hb x (by simp [hx])
      rw [htrack]
      exact ⟨_, List.mem_map_of_mem hc, (rewritten_tick _ c).trans hcx⟩
    rw [List.foldl_cons, hstore, ih (hw.setCurrentTrack _) hticks, htrack,
      FloppySubsystem.setCurrentTrack_twice, ← FloppyTrack.overwrite_append, List.append_assoc]
    rfl

theorem flush_eq (hw : s.floppy.Writable)
    (hb : ∀ w ∈ s.disk.pendingWrites, ∃ c ∈ s.floppy.currentTrack.bytes, c.tick = w.tick) :
    s.flush = { s with
      disk := { s.disk with pendingWrites := [] }
      floppy := s.floppy.setCurrentTrack (s.floppy.currentTrack.overwrite s.disk.pendingWrites)
      trace := s.trace ++ s.disk.pendingWrites.map Event.written } := by
  unfold flush
  dsimp only
  rw [storeBytes_eq hw hb]

/-- The cells that wait join what has been written on the way from `f`. -/
theorem flush_follows {f : FloppySubsystem} {elapsed : Nat} {written : List TimedFmByte}
    (h : f.Follows s.floppy elapsed written)
    (hb : ∀ w ∈ s.disk.pendingWrites, w.tick ∈ f.currentTrack.bytes.map TimedFmByte.tick) :
    ∃ floppy trace, s.flush = { s with
      disk := { s.disk with pendingWrites := [] }, floppy := floppy, trace := trace } ∧
      f.Follows floppy elapsed (written ++ s.disk.pendingWrites) ∧
      stores trace = stores s.trace ++ s.disk.pendingWrites := by
  refine ⟨_, _, flush_eq h.writable fun w hw => ?_, h.store _, ?_⟩
  · exact List.mem_map.mp (h.turns.ticks ▸ hb w hw)
  · rw [stores_append, stores_written]

/-- What every store keeps of the drives, whatever cells wait. -/
theorem flush_keeps {P : FloppySubsystem → Prop}
    (hstep : ∀ f, ∀ byte ∈ s.disk.pendingWrites, P f → P (f.writeSelectedByte byte).2)
    (h : P s.floppy) :
    ∃ floppy trace, s.flush = { s with
      disk := { s.disk with pendingWrites := [] }, floppy := floppy, trace := trace } ∧ P floppy := by
  have hstore : ∀ (bytes : List TimedFmByte) (t : DiskSide), P t.floppy →
      (∀ f, ∀ byte ∈ bytes, P f → P (f.writeSelectedByte byte).2) →
      ∃ floppy trace, bytes.foldl storeByte t = { t with floppy := floppy, trace := trace } ∧
        P floppy := by
    intro bytes
    induction bytes with
    | nil => exact fun t ht _ => ⟨t.floppy, t.trace, rfl, ht⟩
    | cons byte bytes ih =>
      intro t ht hall
      obtain ⟨floppy, trace, he, hp⟩ := ih (t.storeByte byte) (hall _ byte (by simp) ht)
        fun f x hx => hall f x (by simp [hx])
      exact ⟨floppy, trace, he, hp⟩
  obtain ⟨floppy, trace, he, hp⟩ := hstore s.disk.pendingWrites s h hstep
  refine ⟨floppy, trace, ?_, hp⟩
  unfold flush
  dsimp only
  rw [he]

/-- A time step in which no write starts: what its cells leave, and what its stores keep of the drives. -/
theorem advance_keeps {P : FloppySubsystem → Prop} {ticks : Nat} {r : DiskSide} (clocks : Nat)
    (hr : (s.passing ticks).foldl process s = r) (hw : r.disk.aux.writeEnabled = false)
    (hstep : ∀ f, ∀ byte ∈ r.disk.pendingWrites, P f → P (f.writeSelectedByte byte).2)
    (h : P (s.floppy.advance ticks)) :
    ∃ floppy trace counter1 latch, s.advance ticks clocks = { r with
      disk := { r.disk with pendingWrites := [] }, floppy := floppy, trace := trace
      counter1 := counter1, diskTimeoutLatch := latch } ∧ P floppy := by
  obtain ⟨counter1, latch, new, he, _⟩ := advance_eq clocks hr (.inl hw)
  obtain ⟨floppy, trace, hflush, hkept⟩ := @flush_keeps { r with
    floppy := s.floppy.advance ticks
    counter1 := counter1
    diskTimeoutLatch := latch
    trace := r.trace ++ new } P hstep h
  exact ⟨floppy, trace, counter1, latch, he.trans hflush, hkept⟩

/-- What waits after the passing cells is at ticks of the track. -/
theorem passing_pending (hp : s.disk.pendingWrites = []) {f : FloppySubsystem} {elapsed : Nat}
    (h : f.Turns s.floppy elapsed) (ticks : Nat) :
    ∀ w ∈ ((s.passing ticks).foldl process s).disk.pendingWrites,
      w.tick ∈ f.currentTrack.bytes.map TimedFmByte.tick := by
  intro w hw
  rcases processAll_pending _ s w hw with hw | ⟨c, hc, ht⟩
  · rw [hp] at hw; cases hw
  · rw [passing_eq] at hc
    rw [← h.ticks, ← ht]
    exact List.mem_map_of_mem (FloppySubsystem.mem_of_stream hc)

/-- A time step in which OUT1 starts no write, on the way from `f`. -/
theorem advance_follows {f : FloppySubsystem} {elapsed : Nat} {written : List TimedFmByte}
    (hp : s.disk.pendingWrites = []) (h : f.Follows s.floppy elapsed written) {ticks : Nat}
    {r : DiskSide} (clocks : Nat) (hr : (s.passing ticks).foldl process s = r)
    (hw : r.disk.aux.writeEnabled = false ∨ r.disk.ordinaryWriteActive = true ∨
      r.risingEdges clocks = 0) :
    ∃ counter1 latch floppy trace,
      s.advance ticks clocks = { r with
        disk := { r.disk with pendingWrites := [] }
        floppy := floppy, counter1 := counter1, diskTimeoutLatch := latch, trace := trace } ∧
      f.Follows floppy (elapsed + ticks) (written ++ r.disk.pendingWrites) ∧
      stores trace = stores s.trace ++ r.disk.pendingWrites ∧
      (r.disk.aux.readEnabled = false → latch = s.diskTimeoutLatch) := by
  have hhandles : s.Handles r := hr ▸ processAll_handles _ s
  have hon := passing_pending hp h.turns ticks
  rw [hr] at hon
  obtain ⟨counter1, latch, new, he, hlatch, hnew⟩ := advance_eq clocks hr hw
  have hsilent : stores new = [] := by rcases hnew with rfl | rfl <;> rfl
  obtain ⟨floppy, trace, hflush, hfollows, hstored⟩ := flush_follows
    (s := { r with
      floppy := s.floppy.advance ticks
      counter1 := counter1
      diskTimeoutLatch := latch
      trace := r.trace ++ new }) (h.advance ticks) hon
  refine ⟨counter1, latch, floppy, trace, he.trans hflush, hfollows, ?_, hlatch⟩
  rw [hstored, stores_append, hsilent, hhandles.stored, List.append_nil]

/-! ## A controller that does not write -/

/-- Neither WRE nor FOR is set and no write is active. -/
structure Harmless (s : DiskSide) : Prop where
  writeEnabled : s.disk.aux.writeEnabled = false
  formatEnabled : s.disk.aux.formatEnabled = false
  idle : s.writing = false

theorem Harmless.of_ready (h : s.Ready) (hw : s.disk.aux.writeEnabled = false)
    (hf : s.disk.aux.formatEnabled = false) : s.Harmless := by
  refine ⟨hw, hf, ?_⟩
  have hord := h.ordinary
  have hfmt := h.format
  rw [hw] at hord
  rw [hf] at hfmt
  rw [writing]
  simp_all

theorem Harmless.refresh (h : s.Harmless) : s.refresh.Harmless := by
  obtain ⟨_, _, hd⟩ := s.sample_disk
  cases ht : s.sample.terminal with
  | true => rw [DiskSide.refresh, endOfData_of_high ht]; exact ⟨rfl, rfl, rfl⟩
  | false =>
    rw [DiskSide.refresh, endOfData_of_low ht]
    exact ⟨by rw [hd]; exact h.writeEnabled, by rw [hd]; exact h.formatEnabled,
      by rw [writing, hd]; exact h.idle⟩

theorem Harmless.present (h : s.Harmless) (byte : TimedFmByte) : (s.present byte).Harmless := by
  have hr : { s with diskData := s.diskData.pulseStrobeB byte.data }.refresh.Harmless :=
    Harmless.refresh ⟨h.writeEnabled, h.formatEnabled, h.idle⟩
  exact ⟨hr.writeEnabled, hr.formatEnabled, hr.idle⟩

theorem Harmless.process (h : s.Harmless) (c : TimedFmByte) :
    (s.process c).Harmless ∧ (s.process c).disk.pendingWrites = s.disk.pendingWrites := by
  have hreached : (s.reached c.tick).Harmless := ⟨h.writeEnabled, h.formatEnabled, h.idle⟩
  cases ht : s.disk.timingEnabled with
  | false => rw [process_untimed ht]; exact ⟨hreached, rfl⟩
  | true =>
    rw [process_reading ht h.formatEnabled h.idle]
    refine ⟨?_, read_pending _ c⟩
    unfold DiskSide.read
    repeat' split
    · exact hreached
    · exact hreached.present c
    · exact Harmless.present (s := (s.reached c.tick).synchronize)
        ⟨hreached.writeEnabled, hreached.formatEnabled, hreached.idle⟩ c
    · exact hreached

theorem Harmless.processAll (h : s.Harmless) (cells : List TimedFmByte) :
    (cells.foldl DiskSide.process s).Harmless ∧
      (cells.foldl DiskSide.process s).disk.pendingWrites = s.disk.pendingWrites := by
  induction cells generalizing s with
  | nil => exact ⟨h, rfl⟩
  | cons c cells ih =>
    obtain ⟨hnext, hpending⟩ := h.process c
    obtain ⟨hall, hsame⟩ := ih hnext
    exact ⟨hall, hsame.trans hpending⟩

theorem Harmless.advance (h : s.Harmless) (hp : s.disk.pendingWrites = []) (ticks clocks : Nat) :
    (s.advance ticks clocks).Harmless ∧ (s.advance ticks clocks).floppy = s.floppy.advance ticks := by
  obtain ⟨hall, hsame⟩ := h.processAll (s.passing ticks)
  obtain ⟨counter1, latch, new, he, _⟩ := advance_eq clocks rfl (.inl hall.writeEnabled)
  rw [he.trans (flush_of_nil (hsame.trans hp))]
  exact ⟨⟨hall.writeEnabled, hall.formatEnabled, hall.idle⟩, rfl⟩

end DiskSide

/-- A write to group 50h that sets WRE or FOR. -/
def HostOp.startsWrite : HostOp → Bool
  | .writeIo port value => ioGroup port == 5 && (hasBits value 0x02#8 || hasBits value 0x10#8)
  | _ => false

/-- An action after which nothing more is written than before it. -/
def Action.harmless : Action → Bool
  | .host op => !op.startsWrite && !op.changesMedium
  | .advance _ | .reset => true

namespace Board

variable {b : Board}

/-- A write to this port is a byte for PA of the data 8255, as to 20h. -/
def PaPort (port : Word) : Prop := ioGroup port = 2 ∧ registerOf port &&& 0x03#8 = 0#8

/-- A byte for PA does not select a drive. -/
theorem writePa_diskSide (hb : b.Coherent) {port : Word} (hp : PaPort port) (value : Byte) :
    (b.writeIo port value).diskSide = (b.diskSide.supplied (registerOf port) value).refresh := by
  have hselection : selection (b.diskData.write (registerOf port) value) = selection b.diskData := by
    rw [writePa_eq hp.2]
    split <;> rfl
  rw [writeData_diskSide hp.1]
  refine congrArg DiskSide.refresh ?_
  show { b.diskSide with
    diskData := b.diskData.write (registerOf port) value
    floppy := { b.floppy with
      selectedDriveIndex := selection (b.diskData.write (registerOf port) value) } } = _
  rw [hselection, ← hb.selected]
  rfl

theorem writePa_floppy (hb : b.Coherent) {port : Word} (hp : PaPort port) (value : Byte) :
    (b.writeIo port value).floppy = b.floppy :=
  (congrArg DiskSide.floppy (writePa_diskSide hb hp value)).trans (DiskSide.refresh_handles _).floppy

theorem writePa_still (hb : b.Coherent) {port : Word} (hp : PaPort port) (value : Byte) :
    b.floppy.Still (b.host (.writeIo port value)).floppy :=
  .of_eq (writePa_floppy hb hp value)

/-- A write to group 50h that sets neither WRE nor FOR. -/
theorem writeAux_harmless {value : Byte} (hw : hasBits value 0x02#8 = false)
    (hf : hasBits value 0x10#8 = false) : (b.diskSide.writeAux value).Harmless := by
  have haux : (b.diskSide.writeAux value).disk.aux.writeEnabled = false ∧
      (b.diskSide.writeAux value).disk.aux.formatEnabled = false := by
    unfold DiskSide.writeAux
    dsimp only
    split
    · exact ⟨hw, hf⟩
    · exact ⟨rfl, rfl⟩
  refine ⟨haux.1, haux.2, ?_⟩
  simp [DiskSide.writing, DiskSide.writeAux, hw, hf]

theorem host_writesAux_harmless {op : HostOp} (haux : op.writesAux = true)
    (hs : op.startsWrite = false) : (b.host op).diskSide.Harmless := by
  cases op with
  | writeIo port value =>
    have hport : ioGroup port = 5 := by simpa [HostOp.writesAux] using haux
    obtain ⟨hw, hf⟩ : hasBits value 0x02#8 = false ∧ hasBits value 0x10#8 = false := by
      simpa [HostOp.startsWrite, hport] using hs
    show (b.writeIo port value).diskSide.Harmless
    rw [writeAux_diskSide hport]
    exact (writeAux_harmless hw hf).refresh
  | _ => cases haux

/-- A cleared auxiliary register. -/
theorem harmless_of_cleared (hb : b.Coherent) (h : b.disk.aux = {}) : b.diskSide.Harmless :=
  .of_ready hb.ready (congrArg DiskAuxControl.writeEnabled h) (congrArg DiskAuxControl.formatEnabled h)

/-- While neither WRE nor FOR is set, no cell changes, and only a write to group 50h sets them. -/
theorem act_harmless (hb : b.Coherent) (h : b.diskSide.Harmless) {a : Action} (ha : a.harmless = true) :
    (b.act a).diskSide.Harmless ∧ ∀ i j, (b.act a).floppy.cells i j = b.floppy.cells i j := by
  cases a with
  | advance cycles =>
    obtain ⟨hnext, hfloppy⟩ := h.advance hb.flushed (cycles * 3)
      ((b.timerClockAccumulator + cycles * 3) / 12)
    rw [← advanceTime_diskSide hb.steady] at hnext hfloppy
    refine ⟨hnext, fun i j => ?_⟩
    rw [show (b.act (.advance cycles)).floppy = b.floppy.advance (cycles * 3) from hfloppy]
    exact b.floppy.advance_cells _ i j
  | reset => exact ⟨⟨rfl, rfl, rfl⟩, fun _ _ => rfl⟩
  | host op =>
    obtain ⟨hstarts, hmedium⟩ : op.startsWrite = false ∧ op.changesMedium = false := by
      simpa [Action.harmless] using ha
    obtain ⟨s, _, hk, hc, hs⟩ := host_accesses b op
    have hhandles : s.Handles (b.host op).diskSide := by
      rcases hs with hs | hs <;> rw [hs]
      · exact .refl s
      · exact DiskSide.refresh_handles s
    refine ⟨?_, fun i j => ?_⟩
    · cases haux : op.writesAux with
      | true => exact host_writesAux_harmless haux hstarts
      | false =>
        have hnext : (b.host op).Coherent := host_coherent hb op
        cases ht : (b.host op).disk.timingEnabled with
        | false =>
          obtain ⟨⟨h1, _, h3, h4⟩, _⟩ := hnext.idle ht
          exact .of_ready hnext.ready (congrArg DiskAuxControl.writeEnabled h1)
            (congrArg DiskAuxControl.formatEnabled h1)
        | true =>
          obtain ⟨h1, h2, h3⟩ := (hk haux).operation (hhandles.timing.symm.trans ht)
          have hharmless : s.Harmless :=
            ⟨by rw [h1]; exact h.writeEnabled, by rw [h1]; exact h.formatEnabled,
              by rw [DiskSide.writing, h2, h3]; exact h.idle⟩
          show (b.host op).diskSide.Harmless
          rcases hs with hs | hs <;> rw [hs]
          · exact hharmless
          · exact hharmless.refresh
    · rw [show (b.act (.host op)).floppy = s.floppy from hhandles.floppy]
      exact hc hmedium i j

/-- So does every run of such actions. -/
theorem run_harmless (hb : b.Coherent) (h : b.diskSide.Harmless) {actions : List Action}
    (ha : ∀ a ∈ actions, a.harmless = true) (i : Fin 2) (j : Fin 77) :
    (Run.run act b actions).floppy.cells i j = b.floppy.cells i j := by
  induction actions generalizing b with
  | nil => rfl
  | cons a as ih =>
    obtain ⟨hnext, hcells⟩ := act_harmless hb h (ha a (by simp))
    exact (ih (act_coherent hb a) hnext fun a' ha' => ha a' (by simp [ha'])).trans (hcells i j)

end Board
end FK1
