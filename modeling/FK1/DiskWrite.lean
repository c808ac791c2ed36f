import FK1.DiskWriting

/-!
# FK1.DiskWrite

An ordinary write end to end: OUT1 starts it with the last cell that has passed, the byte counter
ends it.

* `DiskSide.Counting`: the byte counter has `left` bytes to go and group A asks for them.
* `DiskSide.Waiting`, `DiskSide.Underway`: the write before and after OUT1, with what it has stored.
* `Board.Writes`: time in any steps while software keeps up with the requests.
* `Board.write_transfers`: which cells have been written at every moment of such a run.
-/

namespace FK1

namespace DiskSide

/-- WRE is set, `left` bytes are to be counted and group A asks for them; `active` is whether OUT1
has started the write. -/
structure Counting (aux : DiskAuxControl) (active : Bool) (left : Nat) (s : DiskSide) : Prop where
  timing : s.disk.timingEnabled = true
  aux : s.disk.aux = aux
  ordinary : s.disk.ordinaryWriteActive = active
  format : s.disk.formatWriteActive = false
  terminal : s.terminal = false
  mode : s.counter2.mode = 0
  loaded : s.counter2.countLoaded = true
  left : s.counter2.current = left
  suppress : s.disk.suppressByteCounterOnce = false
  asks : Asks s.diskData

/-- The auxiliary register of an ordinary write. -/
structure WritesOnly (aux : DiskAuxControl) : Prop where
  readEnabled : aux.readEnabled = false
  writeEnabled : aux.writeEnabled = true
  formatEnabled : aux.formatEnabled = false

variable {aux : DiskAuxControl} {active : Bool} {left : Nat} {s s' : DiskSide}

namespace Counting

/-- The rest of the state does not matter. -/
theorem congr (h : Counting aux active left s) (hd : s'.disk.timingEnabled = s.disk.timingEnabled ∧
    s'.disk.aux = s.disk.aux ∧ s'.disk.ordinaryWriteActive = s.disk.ordinaryWriteActive ∧
      s'.disk.formatWriteActive = s.disk.formatWriteActive ∧
        s'.disk.suppressByteCounterOnce = s.disk.suppressByteCounterOnce)
    (h2 : s'.counter2 = s.counter2) (hdata : Asks s'.diskData) : Counting aux active left s' := by
  obtain ⟨ht, ha, ho, hf, hs⟩ := hd
  exact ⟨ht.trans h.timing, ha.trans h.aux, ho.trans h.ordinary, hf.trans h.format,
    (congrArg PitChannel.output h2).trans h.terminal, by rw [h2]; exact h.mode, by rw [h2]; exact h.loaded,
    by rw [h2]; exact h.left, hs.trans h.suppress, hdata⟩

/-- A transfer after a byte for PA counts; the last one ends the operation. -/
theorem transfer (h : Counting aux active left s) (hr : s.diskData.AtRest) (hc : s.counter2.Armed)
    (hl : s.disk.dataInterruptLevel = false) (tick : Nat) :
    (left = 1 ∧ (s.transfer tick).Stopped ∨
        1 < left ∧ Counting aux active (left - 1) (s.transfer tick)) ∧
      (s.transfer tick).disk.pendingWrites = s.disk.pendingWrites ++ [s.written tick] := by
  refine ⟨?_, refresh_pending _⟩
  have hpos := (hc.runs h.mode h.loaded h.terminal).2
  have hasks : Asks s.diskData.pulseAckA := (asks_iff (ack_handshakes hr)).mpr h.asks
  rw [transfer_count hr h.asks hl h.suppress h.terminal hc h.mode h.loaded]
  by_cases hlast : s.counter2.current = 1
  · rw [if_pos hlast]
    exact .inl ⟨h.left.symm.trans hlast, rfl, rfl, rfl, rfl, rfl⟩
  · rw [if_neg hlast]
    refine .inr ⟨by rw [← h.left]; omega, h.timing, h.aux, h.ordinary, h.format, h.terminal, h.mode,
      h.loaded, ?_, h.suppress, hasks⟩
    show s.counter2.current - 1 = left - 1
    rw [h.left]

/-- A cell without an active write passes. -/
theorem passes (h : Counting aux false left s) (ha : WritesOnly aux) (cells : List TimedFmByte) :
    cells.foldl process s = s.reached (FloppySubsystem.lastTick s.disk.lastByteTick cells) := by
  induction cells generalizing s with
  | nil => rfl
  | cons c cells ih =>
    have hpassive : s.process c = s.reached c.tick :=
      process_passive (by rw [h.aux]; exact ha.readEnabled) (by rw [h.aux]; exact ha.formatEnabled)
        (by rw [writing, h.format, h.ordinary]; rfl) c
    have hreached : Counting aux false left (s.reached c.tick) :=
      h.congr ⟨rfl, rfl, rfl, rfl, rfl⟩ rfl h.asks
    rw [List.foldl_cons, hpassive, ih hreached]
    rfl

/-- A cell under an active write is written. -/
theorem process (h : Counting aux true left s) (ha : WritesOnly aux) (hr : s.diskData.AtRest)
    (hc : s.counter2.Armed) (hl : s.disk.dataInterruptLevel = false) (c : TimedFmByte) :
    (left = 1 ∧ (s.process c).Stopped ∨ 1 < left ∧ Counting aux true (left - 1) (s.process c)) ∧
      (s.process c).disk.pendingWrites = s.disk.pendingWrites ++ [s.written c.tick] := by
  have hreached : Counting aux true left (s.reached c.tick) :=
    h.congr ⟨rfl, rfl, rfl, rfl, rfl⟩ rfl h.asks
  have hread : (s.reached c.tick).disk.aux.readEnabled = false := by
    rw [hreached.aux]; exact ha.readEnabled
  have hwriting : (s.reached c.tick).writing = true := by
    rw [writing, hreached.ordinary, Bool.or_true]
  have hprocess : s.process c = (s.reached c.tick).transfer c.tick := by
    rw [process_cell h.timing (.inl (by rw [h.aux]; exact ha.formatEnabled)), serve_unread hread,
      if_pos hwriting]
  rw [hprocess]
  exact hreached.transfer hr hc hl c.tick

/-- A byte for PA takes an open request back. -/
theorem byte (h : Counting aux active left s) (hr : s.Ready) {registerIndex : Byte}
    (hreg : registerIndex &&& 0x03#8 = 0#8) (value : Byte) :
    Counting aux active left (s.supplied registerIndex value).refresh ∧
      (s.supplied registerIndex value).refresh.dataInterrupt = false ∧
      (s.supplied registerIndex value).refresh.disk.lastByteTick = s.disk.lastByteTick ∧
      (s.supplied registerIndex value).refresh.trace = s.trace := by
  have hasks := (asks_iff (writePa_handshakes hr.atRest hreg value)).mpr h.asks
  have hlow := (writePa_interrupts hr.atRest hreg value).1 h.asks
  rw [supplied_refresh hr.atRest hr.level h.terminal hreg]
  exact ⟨h.congr ⟨rfl, rfl, rfl, rfl, rfl⟩ rfl hasks, hlow, rfl, rfl⟩

end Counting

/-- Since `start` the cells `offered` have been offered to the serializer, and the first `count` of
them stored. -/
structure Wrote (start : DiskSide) (count elapsed : Nat) (offered : List TimedFmByte) (s : DiskSide) :
    Prop where
  follows : start.floppy.Follows s.floppy elapsed (offered.take count)
  stored : stores s.trace = stores start.trace ++ offered.take count
  trail : ∀ first ∈ offered.head?, s.floppy.Trail first.tick (offered.map TimedFmByte.tick)

/-- OUT1 has not started the write; the last cell that has passed is nearest behind the head. -/
structure Waiting (start : DiskSide) (count elapsed : Nat) (s : DiskSide) : Prop where
  counting : Counting start.disk.aux false count s
  low : s.dataInterrupt = false
  wrote : Wrote start count elapsed [] s
  last : s.floppy.Trail s.disk.lastByteTick [s.disk.lastByteTick]

/-- Bytes have been written and some are left. -/
structure Underway (start : DiskSide) (count elapsed : Nat) (offered : List TimedFmByte)
    (s : DiskSide) : Prop where
  counting : Counting start.disk.aux true (count - offered.length) s
  begun : offered ≠ []
  wrote : Wrote start count elapsed offered s

/-- OUT2 has ended the write. -/
structure Finished (start : DiskSide) (count elapsed : Nat) (offered : List TimedFmByte)
    (s : DiskSide) : Prop where
  stopped : s.Stopped
  enough : count ≤ offered.length
  wrote : Wrote start count elapsed offered s

variable {start : DiskSide} {count elapsed : Nat} {offered : List TimedFmByte}

/-- A time step in which OUT1 stays low or falls. -/
theorem Waiting.advance (h : Waiting start count elapsed s) (ha : WritesOnly start.disk.aux)
    (hr : s.Ready) {ticks clocks : Nat} (hlow : s.risingEdges clocks = 0) :
    Waiting start count (elapsed + ticks) (s.advance ticks clocks) := by
  have hinserted := h.wrote.follows.writable.inserted
  have hfold := h.counting.passes ha (s.passing ticks)
  obtain ⟨counter1, latch, floppy, trace, he, hfollows, hstored, _⟩ :=
    advance_follows hr.flushed h.wrote.follows clocks hfold (.inr (.inr hlow))
  have hnone : (s.reached (FloppySubsystem.lastTick s.disk.lastByteTick
      (s.passing ticks))).disk.pendingWrites = [] := hr.flushed
  rw [hnone, List.append_nil] at hfollows hstored
  have hlast := h.last.renew hinserted ticks
  have hturned := (h.wrote.follows.advance ticks).turns
  rw [← passing_eq] at hlast
  rw [he]
  refine ⟨h.counting.congr ⟨rfl, rfl, rfl, rfl, rfl⟩ rfl h.counting.asks, h.low,
    ⟨hfollows, hstored.trans h.wrote.stored, nofun⟩, ?_⟩
  exact hlast.congr (hfollows.turns.ticks.trans hturned.ticks.symm)
    (hfollows.phase.trans hturned.phase.symm)

/-- The first transfer, for the cell nearest behind the head. -/
theorem Counting.begins (h : Counting start.disk.aux true count s) (hr : s.diskData.AtRest)
    (hc : s.counter2.Armed) (hl : s.disk.dataInterruptLevel = false) (hp : s.disk.pendingWrites = [])
    (hf : start.floppy.Follows s.floppy elapsed []) (hs : stores s.trace = stores start.trace)
    {tick : Nat} (ht : s.floppy.Trail tick [tick]) :
    Underway start count elapsed [s.written tick] (s.transfer tick).flush ∨
      Finished start count elapsed [s.written tick] (s.transfer tick).flush := by
  have hpos := (hc.runs h.mode h.loaded h.terminal).2
  rw [h.left] at hpos
  obtain ⟨hnext, hpending⟩ := h.transfer hr hc hl tick
  rw [hp, List.nil_append] at hpending
  have hhandles := transfer_handles s tick
  have hon : tick ∈ start.floppy.currentTrack.bytes.map TimedFmByte.tick := by
    obtain ⟨since, _, hpassed⟩ := ht
    have hmem : tick ∈ (s.floppy.currentTrack.passed tick since).map TimedFmByte.tick := by
      rw [hpassed]; simp
    obtain ⟨c, hc, hct⟩ := List.mem_map.mp hmem
    rw [← hf.turns.ticks, ← hct]
    exact List.mem_map_of_mem (FloppyTrack.mem_of_passed hc)
  obtain ⟨floppy, trace, he, hfollows, hstored⟩ := flush_follows (s := s.transfer tick)
    (by rw [hhandles.floppy]; exact hf) (by rw [hpending]; simpa [DiskSide.written] using hon)
  rw [hpending, List.nil_append] at hfollows
  rw [hpending, hhandles.stored, hs] at hstored
  have htake : [s.written tick].take count = [s.written tick] := List.take_of_length_le hpos
  have hwrote : Wrote start count elapsed [s.written tick] { s.transfer tick with
      disk := { (s.transfer tick).disk with pendingWrites := [] }, floppy := floppy, trace := trace } := by
    refine ⟨by rw [htake]; exact hfollows, by rw [htake]; exact hstored, fun first hfirst => ?_⟩
    obtain rfl : s.written tick = first := by simpa using hfirst
    exact ht.congr (hfollows.turns.ticks.trans hf.turns.ticks.symm) (hfollows.phase.trans hf.phase.symm)
  rw [he]
  rcases hnext with ⟨hone, hstop⟩ | ⟨hmore, hcounting⟩
  · exact .inr ⟨⟨hstop.terminal, hstop.ended⟩, by rw [hone]; exact Nat.le_refl _, hwrote⟩
  · exact .inl ⟨hcounting.congr ⟨rfl, rfl, rfl, rfl, rfl⟩ rfl hcounting.asks, nofun, hwrote⟩

/-- The time step in which OUT1 rises. -/
theorem Waiting.edge (h : Waiting start count elapsed s) (ha : WritesOnly start.disk.aux)
    (hr : s.Ready) {ticks clocks : Nat} (hrise : s.risingEdges clocks ≠ 0) :
    let offered := [s.written (FloppySubsystem.lastTick s.disk.lastByteTick (s.passing ticks))]
    Underway start count (elapsed + ticks) offered (s.advance ticks clocks) ∨
      Finished start count (elapsed + ticks) offered (s.advance ticks clocks) := by
  intro offered
  have hlast := h.last.renew h.wrote.follows.writable.inserted ticks
  rw [← passing_eq] at hlast
  obtain ⟨tick, htick⟩ : ∃ tick,
    FloppySubsystem.lastTick s.disk.lastByteTick (s.passing ticks) = tick := ⟨_, rfl⟩
  have hfold := h.counting.passes ha (s.passing ticks)
  have hoffered : offered = [s.written tick] := by rw [← htick]
  rw [hoffered]
  rw [htick] at hlast hfold
  obtain ⟨counter1, latch, new, he, _, hnew⟩ := timer_start ((s.reached tick).turn ticks) clocks
  have hsilent : stores new = [] := by rcases hnew with rfl | rfl <;> rfl
  have hrising : ((s.reached tick).turn ticks).risingEdges clocks ≠ 0 := hrise
  -- the write becomes active and takes its first byte for the last cell that has passed
  obtain ⟨active, hactive⟩ : ∃ active : DiskSide, active =
      { (s.reached tick).turn ticks with
        disk := { (s.reached tick).disk with ordinaryWriteActive := true }
        counter1 := counter1
        diskTimeoutLatch := latch
        trace := s.trace ++ new } := ⟨_, rfl⟩
  have hstart : s.advance ticks clocks = (active.transfer tick).flush := by
    have htiming := h.counting.timing
    have haux := h.counting.aux
    have hord := h.counting.ordinary
    rw [DiskSide.advance, hfold, he, startWrite, if_pos, hactive]
    · rfl
    · simpa [turn, reached, htiming, haux, hord, ha.writeEnabled] using hrising
  have hcounting : Counting start.disk.aux true count active := by
    rw [hactive]
    exact ⟨h.counting.timing, h.counting.aux, rfl, h.counting.format, h.counting.terminal,
      h.counting.mode, h.counting.loaded, h.counting.left, h.counting.suppress, h.counting.asks⟩
  have hwritten : active.written tick = s.written tick := by rw [hactive]; rfl
  have hstored : stores active.trace = stores start.trace := by
    rw [hactive]
    show stores (s.trace ++ new) = _
    rw [stores_append, hsilent, h.wrote.stored, List.append_nil, List.take_nil, List.append_nil]
  have hfloppy : active.floppy = s.floppy.advance ticks := by rw [hactive]; rfl
  rw [hstart, ← hwritten]
  refine hcounting.begins (by rw [hactive]; exact hr.atRest) (by rw [hactive]; exact hr.counter2)
    (by rw [hactive]; exact hr.level.trans h.low) (by rw [hactive]; exact hr.flushed) ?_ hstored ?_
  · have hturned := h.wrote.follows.advance ticks
    rw [List.take_nil] at hturned
    rw [hfloppy]; exact hturned
  · rw [hfloppy]; exact hlast

/-- The rest of a time step in which a last byte has been written. -/
theorem Stopped.passes (h : s.Stopped) (cells : List TimedFmByte) :
    (cells.foldl DiskSide.process s).Stopped ∧
      (cells.foldl DiskSide.process s).disk.pendingWrites = s.disk.pendingWrites := by
  obtain ⟨haux, _, hord, hfmt⟩ := h.ended
  have hharmless : s.Harmless :=
    ⟨by rw [haux], by rw [haux], by rw [writing, hfmt, hord]; rfl⟩
  exact ⟨h.processAll cells, (hharmless.processAll cells).2⟩

/-- A time step of the running write. Software has supplied a byte before a cell passes, and but for
the last byte no second cell passes. -/
theorem Underway.advance (h : Underway start count elapsed offered s)
    (ha : WritesOnly start.disk.aux) (hr : s.Ready) {ticks clocks : Nat}
    (hasked : s.dataInterrupt = true → s.passing ticks = [])
    (hfew : count - offered.length ≠ 1 → (s.passing ticks).length ≤ 1) :
    let all := offered ++ (s.passing ticks).map fun c => s.written c.tick
    Underway start count (elapsed + ticks) all (s.advance ticks clocks) ∨
      Finished start count (elapsed + ticks) all (s.advance ticks clocks) := by
  intro all
  have hpos := (hr.counter2.runs h.counting.mode h.counting.loaded h.counting.terminal).2
  rw [h.counting.left] at hpos
  have hshort : offered.take count = offered := List.take_of_length_le (by omega)
  obtain ⟨r, hfold⟩ : ∃ r, (s.passing ticks).foldl DiskSide.process s = r := ⟨_, rfl⟩
  -- what a step does to the controller, with the cells that wait after it
  have hstep : ((Counting start.disk.aux true (count - all.length) r ∧ all.length ≤ count) ∨
      count ≤ all.length ∧ r.Stopped) ∧ offered.take count ++ r.disk.pendingWrites = all.take count := by
    rw [hshort]
    match hcells : s.passing ticks with
    | [] =>
      have hall : all = offered := by
        show offered ++ (s.passing ticks).map _ = offered
        rw [hcells, List.map_nil, List.append_nil]
      rw [hcells, List.foldl_nil] at hfold
      rw [hall, hshort, ← hfold, hr.flushed, List.append_nil]
      exact ⟨.inl ⟨h.counting, by omega⟩, rfl⟩
    | c :: rest =>
      have hlevel : s.disk.dataInterruptLevel = false := by
        rw [hr.level]
        cases hd : s.dataInterrupt with
        | false => rfl
        | true => rw [hasked hd] at hcells; cases hcells
      have hall : all = offered ++ s.written c.tick :: rest.map fun c => s.written c.tick := by
        show offered ++ (s.passing ticks).map _ = _
        rw [hcells, List.map_cons]
      obtain ⟨hnext, hpending⟩ := h.counting.process ha hr.atRest hr.counter2 hlevel c
      rw [hr.flushed, List.nil_append] at hpending
      rw [hcells, List.foldl_cons] at hfold
      rcases hnext with ⟨hone, hstop⟩ | ⟨hmore, hcounting⟩
      · obtain ⟨hstopped, hsame⟩ := hstop.passes rest
        have hlength : offered.length + 1 = count := by omega
        rw [hfold] at hstopped hsame
        refine ⟨.inr ⟨?_, hstopped⟩, ?_⟩
        · rw [hall, List.length_append, List.length_cons]; omega
        · have hcut : all.take count = offered ++ [s.written c.tick] := by
            rw [hall, List.append_cons]
            exact List.take_left' (by rw [List.length_append, List.length_singleton, hlength])
          rw [hsame, hpending, hcut]
      · have hlast : rest = [] := by
          have := hfew (by omega)
          rw [hcells, List.length_cons] at this
          exact List.eq_nil_of_length_eq_zero (by omega)
        rw [hlast, List.foldl_nil] at hfold
        rw [hlast, List.map_nil] at hall
        have hlength : all.length = offered.length + 1 := by rw [hall, List.length_append]; rfl
        rw [hfold] at hcounting hpending
        refine ⟨.inl ⟨?_, by omega⟩, ?_⟩
        · rw [hlength, ← Nat.sub_sub]; exact hcounting
        · rw [hpending, ← hall, List.take_of_length_le (by omega)]
  obtain ⟨hcase, hpending⟩ := hstep
  have hquiet : r.disk.aux.writeEnabled = false ∨ r.disk.ordinaryWriteActive = true ∨
      r.risingEdges clocks = 0 := by
    rcases hcase with ⟨hcounting, _⟩ | ⟨_, hstop⟩
    · exact .inr (.inl hcounting.ordinary)
    · exact .inl (by rw [hstop.ended.1])
  obtain ⟨counter1, latch, floppy, trace, he, hfollows, hstored, _⟩ :=
    advance_follows hr.flushed h.wrote.follows clocks hfold hquiet
  rw [hpending] at hfollows
  rw [h.wrote.stored, List.append_assoc, hpending] at hstored
  have hbegun : all ≠ [] := fun hnil => h.begun (List.append_eq_nil_iff.mp hnil).1
  have hwrote : Wrote start count (elapsed + ticks) all { r with
      disk := { r.disk with pendingWrites := [] }
      floppy := floppy, counter1 := counter1, diskTimeoutLatch := latch, trace := trace } := by
    refine ⟨hfollows, hstored, fun first hfirst => ?_⟩
    have hhead : first ∈ offered.head? := by
      obtain ⟨c, rest, rfl⟩ := List.exists_cons_of_ne_nil h.begun
      exact hfirst
    have hnext := (h.wrote.trail first hhead).advance h.wrote.follows.writable.inserted ticks
    rw [← passing_eq] at hnext
    have hturned := h.wrote.follows.advance ticks
    have hticks : all.map TimedFmByte.tick =
        offered.map TimedFmByte.tick ++ (s.passing ticks).map TimedFmByte.tick := by
      rw [List.map_append, List.map_map]
      rfl
    rw [hticks]
    exact hnext.congr (hfollows.turns.ticks.trans hturned.turns.ticks.symm)
      (hfollows.phase.trans hturned.phase.symm)
  rw [he]
  rcases hcase with ⟨hcounting, hle⟩ | ⟨hle, hstop⟩
  · exact .inl ⟨hcounting.congr ⟨rfl, rfl, rfl, rfl, rfl⟩ rfl hcounting.asks, hbegun, hwrote⟩
  · exact .inr ⟨⟨hstop.terminal, hstop.ended⟩, hle, hwrote⟩

/-! ## Between the time steps -/

theorem Wrote.still (h : Wrote start count elapsed offered s) (hf : s.floppy.Still s'.floppy)
    (hs : stores s'.trace = stores s.trace) : Wrote start count elapsed offered s' := by
  refine ⟨h.follows.still hf, hs.trans h.stored, fun first hfirst => ?_⟩
  exact (h.trail first hfirst).still hf

/-- What has been written on the way, if the track has as many cells. -/
theorem Wrote.inRotation (h : Wrote start count elapsed offered s) (hb : offered ≠ [])
    (hle : count ≤ start.floppy.currentTrack.bytes.length) :
    start.floppy.currentTrack.InRotation ((offered.take count).map TimedFmByte.tick) := by
  obtain ⟨w, ws, rfl⟩ := List.exists_cons_of_ne_nil hb
  have hrotation := (h.trail w rfl).rotation h.follows.turns.ticks.symm
  refine hrotation.shorten ?_
  rw [List.map_take]
  exact List.take_prefix_take_left hle

theorem refresh_lastByteTick (s : DiskSide) : s.refresh.disk.lastByteTick = s.disk.lastByteTick := by
  obtain ⟨_, _, hd⟩ := s.sample_disk
  unfold refresh endOfData
  split <;> simp [ended, hd]

/-- An access that changes neither the data 8255 nor counter 2. -/
theorem Counting.access (h : Counting aux active left s) {s₁ : DiskSide} (hp : s.Prepares s₁)
    (hk : s.Keeps s₁) (hs : s' = s₁ ∨ s' = s₁.refresh) (ht : s'.disk.timingEnabled = true)
    (hdata : s'.diskData = s.diskData) (h2 : s'.counter2 = s.counter2) :
    Counting aux active left s' ∧ s'.disk.lastByteTick = s.disk.lastByteTick ∧
      stores s'.trace = stores s.trace := by
  have hlow : s'.terminal = false := (congrArg PitChannel.output h2).trans h.terminal
  have hasks : Asks s'.diskData := hdata ▸ h.asks
  rcases hs with rfl | rfl
  · obtain ⟨haux, hord, hfmt⟩ := hk.operation ht
    refine ⟨h.congr ⟨ht.trans h.timing.symm, haux, hord, hfmt, hp.suppress⟩ h2 hasks, hk.position, ?_⟩
    rw [hp.trace]
  · obtain ⟨haux, hord, hfmt⟩ := hk.operation ((refresh_handles s₁).timing.symm.trans ht)
    have hg : s₁.GoesOn s₁.refresh := by
      rcases refresh_continues s₁ with hg | hstop
      · exact hg
      · have hhigh := hstop.terminal
        rw [hlow] at hhigh; cases hhigh
    have hsuppress : s₁.refresh.disk.suppressByteCounterOnce = false := by
      rcases refresh_trace s₁ with ⟨_, hsame⟩ | ⟨_, _, hclear⟩ | ⟨_, _, hclear⟩
      · rw [hsame, hp.suppress, h.suppress]
      · exact hclear
      · exact hclear
    refine ⟨h.congr ⟨ht.trans h.timing.symm, hg.aux.trans haux, hg.ordinary.trans hord,
      hg.format.trans hfmt, hsuppress.trans h.suppress.symm⟩ h2 hasks, ?_, ?_⟩
    · rw [refresh_lastByteTick, hk.position]
    · rw [(refresh_handles s₁).stored, hp.trace]

end DiskSide

namespace Board

/-- What an ordinary write of `count` bytes needs when OUT1 starts it. -/
structure WriteReady (b : Board) (count : Nat) : Prop where
  timing : b.disk.timingEnabled = true
  readEnabled : b.disk.aux.readEnabled = false
  writeEnabled : b.disk.aux.writeEnabled = true
  formatEnabled : b.disk.aux.formatEnabled = false
  idle : b.disk.ordinaryWriteActive = false
  mode : (b.timer.channels 2).mode = 0
  loaded : (b.timer.channels 2).countLoaded = true
  count : (b.timer.channels 2).current = count
  output : b.timer.output 2 = false
  suppress : b.disk.suppressByteCounterOnce = false
  strobed : b.diskData.strobedOutputA = true
  inteA : b.diskData.inteAOutput = true
  intrA : b.diskData.intrA = false
  intrB : b.diskData.intrB = false
  writable : b.floppy.Writable

/-- The rising edges of OUT1 within a time step. -/
def out1Edges (b : Board) (cycles : Nat) : Nat :=
  b.diskSide.risingEdges ((b.timerClockAccumulator + cycles * 3) / 12)

/-- The last cell that has passed when OUT1 rises within a time step. -/
def lastVisited (b : Board) (ticks : Nat) : Nat :=
  FloppySubsystem.lastTick b.disk.lastByteTick (b.floppy.visitBytes ticks)

/-- No cell passes while a request for a byte is open, and only one while more bytes are to come. -/
def KeepsUp (b : Board) (ticks : Nat) : Prop :=
  (b.diskData.intrA = true → b.floppy.visitBytes ticks = []) ∧
    ((b.timer.channels 2).current ≠ 1 → (b.floppy.visitBytes ticks).length ≤ 1)

/-- From `b` time has advanced by `elapsed` master ticks. OUT1 has started the write with the first
cell `offered` and the others have passed since, each with what the serializer takes for it at that
moment. Meanwhile software keeps up with the requests and otherwise leaves the drives, the data 8255,
counter 2, group 50h and the timing logic alone; the run ends with the step in which OUT2 rises. -/
inductive Writes (b : Board) : Nat → List TimedFmByte → Board → Prop where
  | start : Writes b 0 [] b
  | wait {elapsed : Nat} {b' : Board} {cycles : Nat} : Writes b elapsed [] b' →
      b'.out1Edges cycles = 0 →
      Writes b (elapsed + cycles * 3) [] (b'.act (.advance cycles))
  | edge {elapsed : Nat} {b' : Board} {cycles : Nat} : Writes b elapsed [] b' →
      b'.out1Edges cycles ≠ 0 →
      Writes b (elapsed + cycles * 3) [b'.diskSide.written (b'.lastVisited (cycles * 3))]
        (b'.act (.advance cycles))
  | cells {elapsed : Nat} {offered : List TimedFmByte} {b' : Board} {cycles : Nat} :
      Writes b elapsed offered b' → offered ≠ [] → b'.timer.output 2 = false →
      b'.KeepsUp (cycles * 3) →
      Writes b (elapsed + cycles * 3)
        (offered ++ (b'.floppy.visitBytes (cycles * 3)).map fun c => b'.diskSide.written c.tick)
        (b'.act (.advance cycles))
  | byte {elapsed : Nat} {offered : List TimedFmByte} {b' : Board} {port : Word} {value : Byte} :
      Writes b elapsed offered b' → b'.timer.output 2 = false → PaPort port →
      Writes b elapsed offered (b'.act (.host (.writeIo port value)))
  | other {elapsed : Nat} {offered : List TimedFmByte} {b' : Board} {op : HostOp} :
      Writes b elapsed offered b' → b'.timer.output 2 = false → op.writesAux = false →
      b'.floppy.Still (b'.host op).floppy → (b'.host op).diskData = b'.diskData →
      (b'.host op).timer.channels 2 = b'.timer.channels 2 →
      (b'.host op).disk.timingEnabled = true →
      Writes b elapsed offered (b'.act (.host op))

variable {b b' : Board} {count elapsed : Nat} {offered : List TimedFmByte}

theorem Writes.coherent (h : Writes b elapsed offered b') (hb : b.Coherent) : b'.Coherent := by
  induction h with
  | start => exact hb
  | wait _ _ ih => exact act_coherent ih _
  | edge _ _ ih => exact act_coherent ih _
  | cells _ _ _ _ ih => exact act_coherent ih _
  | byte _ _ _ ih => exact act_coherent ih _
  | other _ _ _ _ _ _ _ ih => exact act_coherent ih _

/-- Where a write stands between two actions. -/
def WriteStage (start : DiskSide) (count elapsed : Nat) (offered : List TimedFmByte) (s : DiskSide) :
    Prop :=
  (offered = [] ∧ DiskSide.Waiting start count elapsed s) ∨
    DiskSide.Underway start count elapsed offered s ∨
      DiskSide.Finished start count elapsed offered s

/-- While OUT2 is low the write has not ended. -/
theorem WriteStage.running {start s : DiskSide} (h : WriteStage start count elapsed offered s)
    (hlow : s.terminal = false) :
    (offered = [] ∧ DiskSide.Waiting start count elapsed s) ∨
      DiskSide.Underway start count elapsed offered s := by
  rcases h with h | h | h
  · exact .inl h
  · exact .inr h
  · have hhigh := h.stopped.terminal
    rw [hlow] at hhigh; cases hhigh

/-- Before OUT1 rises the write waits. -/
theorem WriteStage.waiting {start s : DiskSide} (h : WriteStage start count elapsed [] s)
    (hpos : 0 < count) : DiskSide.Waiting start count elapsed s := by
  rcases h with h | h | h
  · exact h.2
  · exact absurd rfl h.begun
  · exact absurd h.enough (Nat.not_le.mpr hpos)

theorem Writes.stage {start : DiskSide} (h : Writes b elapsed offered b') (hb : b.Coherent)
    (ha : DiskSide.WritesOnly start.disk.aux) (hpos : 0 < count)
    (hs : WriteStage start count 0 [] b.diskSide) :
    WriteStage start count elapsed offered b'.diskSide := by
  induction h with
  | start => exact hs
  | @wait elapsed b' cycles hrun hedges ih =>
    have hcoherent := hrun.coherent hb
    have hside : (b'.act (.advance cycles)).diskSide = _ := advanceTime_diskSide hcoherent.steady cycles
    rw [hside]
    exact .inl ⟨rfl, (ih.waiting hpos).advance ha hcoherent.ready hedges⟩
  | @edge elapsed b' cycles hrun hedges ih =>
    have hcoherent := hrun.coherent hb
    have hside : (b'.act (.advance cycles)).diskSide = _ := advanceTime_diskSide hcoherent.steady cycles
    rw [hside]
    exact .inr ((ih.waiting hpos).edge ha hcoherent.ready hedges)
  | @cells elapsed offered b' cycles hrun hbegun hlow hkeeps ih =>
    have hcoherent := hrun.coherent hb
    have hside : (b'.act (.advance cycles)).diskSide = _ := advanceTime_diskSide hcoherent.steady cycles
    obtain ⟨hasked, hfew⟩ := hkeeps
    have hunderway := (ih.running hlow).resolve_left fun h => hbegun h.1
    rw [hside]
    refine .inr (hunderway.advance ha hcoherent.ready (fun hd => hasked ?_) fun hmore => hfew ?_)
    · have hB : b'.diskData.intrB = false := hunderway.counting.asks.intrB
      simpa [DiskSide.dataInterrupt, diskSide, hB] using hd
    · have hleft : (b'.timer.channels 2).current = _ := hunderway.counting.left
      rwa [hleft]
  | @byte elapsed offered b' port value hrun hlow hp ih =>
    have hcoherent := hrun.coherent hb
    have hside : (b'.act (.host (.writeIo port value))).diskSide = _ :=
      writePa_diskSide hcoherent hp value
    have hstill : b'.diskSide.floppy.Still
        (b'.diskSide.supplied (registerOf port) value).refresh.floppy :=
      .of_eq (DiskSide.refresh_handles _).floppy
    rw [hside]
    rcases ih.running hlow with ⟨rfl, h⟩ | h
    · obtain ⟨hcounting, hrequest, hlast, htrace⟩ := h.counting.byte hcoherent.ready hp.2 value
      refine .inl ⟨rfl, hcounting, hrequest, h.wrote.still hstill (by rw [htrace]), ?_⟩
      rw [hlast, (DiskSide.refresh_handles _).floppy]
      exact h.last
    · obtain ⟨hcounting, _, _, htrace⟩ := h.counting.byte hcoherent.ready hp.2 value
      exact .inr (.inl ⟨hcounting, h.begun, h.wrote.still hstill (by rw [htrace])⟩)
  | @other elapsed offered b' op hrun hlow haux hstill hdata h2 ht ih =>
    obtain ⟨s, hp, hk, _, hs⟩ := host_accesses b' op
    show WriteStage start count elapsed offered (b'.host op).diskSide
    rcases ih.running hlow with ⟨rfl, h⟩ | h
    · obtain ⟨hcounting, hlast, hstored⟩ := h.counting.access hp (hk haux) hs ht hdata h2
      refine .inl ⟨rfl, hcounting, ?_, h.wrote.still hstill hstored, ?_⟩
      · have hlow := h.low
        rw [DiskSide.dataInterrupt] at hlow ⊢
        rwa [show (b'.host op).diskSide.diskData = b'.diskSide.diskData from hdata]
      · rw [hlast]
        exact h.last.still hstill
    · obtain ⟨hcounting, _, hstored⟩ := h.counting.access hp (hk haux) hs ht hdata h2
      exact .inr (.inl ⟨hcounting, h.begun, h.wrote.still hstill hstored⟩)

theorem WriteReady.waiting (hb : b.Coherent) (h : b.WriteReady count) (hlast : b.floppy.Trail
    b.disk.lastByteTick [b.disk.lastByteTick]) : DiskSide.Waiting b.diskSide count 0 b.diskSide := by
  have hinput : (b.diskData.strobedInputA && b.diskData.inteAInput && b.diskData.ibfA) = false := by
    have hA := h.intrA
    rw [interrupts_eq hb.atRest, Bool.or_eq_false_iff] at hA
    exact hA.1
  have hasks : Asks b.diskData := ⟨h.strobed, h.inteA, hinput, h.intrB⟩
  have hfmt : b.disk.formatWriteActive = false := by
    have := hb.format
    rw [h.formatEnabled] at this
    simpa using this
  refine ⟨⟨h.timing, rfl, h.idle, hfmt, h.output, h.mode, h.loaded, h.count, h.suppress, hasks⟩, ?_,
    ⟨?_, ?_, nofun⟩, hlast⟩
  · show (b.diskData.intrA || b.diskData.intrB) = false
    rw [h.intrA, h.intrB]; rfl
  · rw [List.take_nil]; exact .refl h.writable
  · rw [List.take_nil, List.append_nil]

/-- At every moment of such a run the first `count` of the cells that OUT1 has started the write
with, and that have passed since, are on the track as they were offered, each stored once, and
nothing else has changed on any medium. If the track has `count` cells they are consecutive in
rotational order. The last one makes OUT2 rise, which clears the auxiliary register and ends the
write; then nothing changes until WRE or FOR is set again. -/
theorem write_transfers (hb : b.Reachable) (hready : b.WriteReady count)
    (hlast : b.floppy.Trail b.disk.lastByteTick [b.disk.lastByteTick])
    (hrun : Writes b elapsed offered b') :
    let written := offered.take count
    b.floppy.Follows b'.floppy elapsed written ∧
      stores b'.trace = stores b.trace ++ written ∧
      (offered ≠ [] → count ≤ b.floppy.currentTrack.bytes.length →
        b.floppy.currentTrack.InRotation (written.map TimedFmByte.tick) ∧
        (∀ w ∈ written, w ∈ b'.floppy.currentTrack.bytes) ∧
        ∀ c ∈ b.floppy.currentTrack.bytes, (∀ w ∈ written, w.tick ≠ c.tick) →
          c ∈ b'.floppy.currentTrack.bytes) ∧
      (b'.timer.output 2 = true ↔ count ≤ offered.length) ∧
      b'.disk.aux = (if count ≤ offered.length then {} else b.disk.aux) ∧
      b'.disk.ordinaryWriteActive = (decide (offered ≠ []) && decide (offered.length < count)) ∧
      (count ≤ offered.length → b'.diskSide.writing = false ∧
        ∀ actions : List Action, (∀ a ∈ actions, a.harmless = true) →
          ∀ i j, (Run.run act b' actions).floppy.cells i j = b'.floppy.cells i j) := by
  intro written
  have hcoherent := hb.coherent
  have ha : DiskSide.WritesOnly b.diskSide.disk.aux :=
    ⟨hready.readEnabled, hready.writeEnabled, hready.formatEnabled⟩
  have hpos : 0 < count := by
    have := (hcoherent.counter2.runs hready.mode hready.loaded hready.output).2
    rwa [hready.count] at this
  have hstage := hrun.stage hcoherent ha hpos (.inl ⟨rfl, hready.waiting hcoherent hlast⟩)
  have hwrote : DiskSide.Wrote b.diskSide count elapsed offered b'.diskSide := by
    rcases hstage with ⟨rfl, h⟩ | h | h
    · exact h.wrote
    · exact h.wrote
    · exact h.wrote
  have hcells : offered ≠ [] → count ≤ b.floppy.currentTrack.bytes.length →
      b.floppy.currentTrack.InRotation (written.map TimedFmByte.tick) ∧
        (∀ w ∈ written, w ∈ b'.floppy.currentTrack.bytes) ∧
        ∀ c ∈ b.floppy.currentTrack.bytes, (∀ w ∈ written, w.tick ≠ c.tick) →
          c ∈ b'.floppy.currentTrack.bytes := by
    intro hbegun hle
    have hrotation := hwrote.inRotation hbegun hle
    obtain ⟨hnodup, hon⟩ := hrotation.nodup
    have htrack : b'.floppy.currentTrack = b.floppy.currentTrack.overwrite written :=
      hwrote.follows.track
    rw [htrack]
    exact ⟨hrotation,
      fun w hw => FloppyTrack.mem_overwrite hnodup hw (hon _ (List.mem_map_of_mem hw)),
      fun c hc hne => FloppyTrack.mem_overwrite_of_forall_ne hc hne⟩
  refine ⟨hwrote.follows, hwrote.stored, hcells, ?_⟩
  rcases hstage with ⟨rfl, h⟩ | h | h
  · have hfew : ¬ count ≤ ([] : List TimedFmByte).length := Nat.not_le.mpr hpos
    have hlow : b'.timer.output 2 = false := h.counting.terminal
    refine ⟨?_, h.counting.aux.trans (if_neg hfew).symm, h.counting.ordinary, fun hle => absurd hle hfew⟩
    rw [hlow]
    exact ⟨nofun, fun hle => absurd hle hfew⟩
  · have hleft := (hrun.coherent hcoherent).counter2.runs h.counting.mode h.counting.loaded
      h.counting.terminal
    have hfew : ¬ count ≤ offered.length := by
      have hcurrent : (b'.timer.channels 2).current = count - offered.length := h.counting.left
      omega
    have hlow : b'.timer.output 2 = false := h.counting.terminal
    refine ⟨?_, h.counting.aux.trans (if_neg hfew).symm, h.counting.ordinary.trans ?_,
      fun hle => absurd hle hfew⟩
    · rw [hlow]
      exact ⟨nofun, fun hle => absurd hle hfew⟩
    · rw [decide_eq_true h.begun, decide_eq_true (by omega)]; rfl
  · obtain ⟨haux, _, hord, _⟩ := h.stopped.ended
    have hharmless := harmless_of_cleared (hrun.coherent hcoherent) haux
    refine ⟨⟨fun _ => h.enough, fun _ => h.stopped.terminal⟩, haux.trans (if_pos h.enough).symm,
      hord.trans ?_, fun _ => ⟨hharmless.idle, fun _ hall i j =>
        run_harmless (hrun.coherent hcoherent) hharmless hall i j⟩⟩
    rw [decide_eq_false (Nat.not_lt.mpr h.enough), Bool.and_false]

/-- Two bytes, after an ID mark has been accepted. -/
theorem write_transfers_two :
    let image := FloppyDiskImage.uniform
      [⟨0, 0xFE#8, 0xC7#8⟩, ⟨384, 0x11#8, 0xFF#8⟩, ⟨768, 0x22#8, 0xFF#8⟩]
    let b := Run.run act (power []) [.host (.insertFloppy 0 image .readWrite),
      .host (.writeIo 0x63#16 0x88#8), .host (.writeIo 0x62#16 0x08#8),
      .host (.writeIo 0x23#16 0xA6#8), .host (.writeIo 0x23#16 0x05#8),
      .host (.writeIo 0x50#16 0x01#8), .advance 1, .host (.readIo 0x21#16),
      .host (.writeIo 0x50#16 0x02#8), .host (.writeIo 0x20#16 0xE5#8),
      .host (.writeIo 0x23#16 0x0D#8), .host (.writeIo 0x13#16 0x90#8),
      .host (.writeIo 0x12#16 0x02#8), .host (.writeIo 0x13#16 0x50#8),
      .host (.writeIo 0x11#16 0x01#8)]
    let b' := Run.run act b [.advance 3, .host (.writeIo 0x20#16 0xAA#8), .advance 125]
    b.floppy.Follows b'.floppy 384 [⟨0, 0xE5#8, 0xFF#8⟩, ⟨384, 0xAA#8, 0xFF#8⟩] ∧ b'.disk.aux = {} := by
  intro image b b'
  let b₁ := b.act (.advance 3)
  let b₂ := b₁.act (.host (.writeIo 0x20#16 0xAA#8))
  have hb : b.Reachable := ⟨[], _, rfl⟩
  have hready : b.WriteReady 2 := by
    refine ⟨?_, ?_, ?_, ?_, ?_, ?_, ?_, ?_, ?_, ?_, ?_, ?_, ?_, ?_, ⟨?_, ?_⟩⟩ <;> decide +kernel
  have hlast : b.floppy.Trail b.disk.lastByteTick [b.disk.lastByteTick] :=
    ⟨3, by decide +kernel, by decide +kernel⟩
  have hport : PaPort 0x20#16 := ⟨by decide, by decide⟩
  have hedge : Writes b 9 _ b₁ := @Writes.edge b 0 b 3 .start (by decide +kernel)
  have hbyte : Writes b 9 _ b₂ := @Writes.byte b 9 _ b₁ 0x20#16 0xAA#8 hedge (by decide +kernel) hport
  have hcells : Writes b 384 _ b' := @Writes.cells b 9 _ b₂ 125 hbyte (by simp) (by decide +kernel)
    ⟨by decide +kernel, by decide +kernel⟩
  obtain ⟨hfollows, _, _, _, haux, _⟩ := write_transfers hb hready hlast hcells
  have hwritten : List.take 2 ([b.diskSide.written (b.lastVisited (3 * 3))] ++
      (b₂.floppy.visitBytes (125 * 3)).map fun c => b₂.diskSide.written c.tick) =
        [⟨0, 0xE5#8, 0xFF#8⟩, ⟨384, 0xAA#8, 0xFF#8⟩] := by decide +kernel
  exact ⟨hwritten ▸ hfollows, haux.trans (by decide +kernel)⟩

/-- The head has been away while the cell at 384 passed: the cells written are those at 0 and 768. -/
theorem write_skips_cell :
    let cells : List TimedFmByte :=
      [⟨0, 0xFE#8, 0xC7#8⟩, ⟨384, 0x11#8, 0xFF#8⟩, ⟨768, 0x22#8, 0xFF#8⟩]
    let image : FloppyDiskImage :=
      { tracks := fun i => if i = 0 then (FloppyTrack.setBytes {} cells).2 else {} }
    let b := Run.run act (power []) [.host (.insertFloppy 0 image .readWrite),
      .host (.writeIo 0x63#16 0x88#8), .host (.writeIo 0x62#16 0x08#8),
      .host (.writeIo 0x23#16 0xA6#8), .host (.writeIo 0x23#16 0x05#8),
      .host (.writeIo 0x50#16 0x01#8), .advance 1, .host (.readIo 0x21#16),
      .host (.writeIo 0x50#16 0x02#8), .host (.writeIo 0x20#16 0xE5#8),
      .host (.writeIo 0x23#16 0x0D#8), .host (.writeIo 0x62#16 0x0B#8),
      .host (.writeIo 0x62#16 0x0A#8), .advance 128, .host (.writeIo 0x62#16 0x09#8),
      .host (.writeIo 0x62#16 0x08#8), .host (.writeIo 0x13#16 0x90#8),
      .host (.writeIo 0x12#16 0x02#8), .host (.writeIo 0x13#16 0x50#8),
      .host (.writeIo 0x11#16 0x01#8)]
    b.Reachable ∧ b.WriteReady 2 ∧ (∃ c ∈ b.floppy.currentTrack.bytes, c.tick = b.disk.lastByteTick) ∧
      2 ≤ b.floppy.currentTrack.bytes.length ∧
      ∃ elapsed offered b', Writes b elapsed offered b' ∧ 2 ≤ offered.length ∧
        ¬ b.floppy.currentTrack.InRotation ((offered.take 2).map TimedFmByte.tick) := by
  intro cells image b
  let b₁ := b.act (.advance 3)
  let b₂ := b₁.act (.host (.writeIo 0x20#16 0xAA#8))
  let b' := b₂.act (.advance 128)
  have hready : b.WriteReady 2 := by
    refine ⟨?_, ?_, ?_, ?_, ?_, ?_, ?_, ?_, ?_, ?_, ?_, ?_, ?_, ?_, ⟨?_, ?_⟩⟩ <;> decide +kernel
  have htrack : b.floppy.currentTrack.bytes = cells := by decide +kernel
  have hlast : b.disk.lastByteTick = 0 := by decide +kernel
  have hport : PaPort 0x20#16 := ⟨by decide, by decide⟩
  have hedge : Writes b 9 _ b₁ := @Writes.edge b 0 b 3 .start (by decide +kernel)
  have hbyte : Writes b 9 _ b₂ := @Writes.byte b 9 _ b₁ 0x20#16 0xAA#8 hedge (by decide +kernel) hport
  have hcells : Writes b 393 _ b' := @Writes.cells b 9 _ b₂ 128 hbyte (by simp) (by decide +kernel)
    ⟨by decide +kernel, by decide +kernel⟩
  have hticks : (List.take 2 ([b.diskSide.written (b.lastVisited (3 * 3))] ++
      (b₂.floppy.visitBytes (128 * 3)).map fun c => b₂.diskSide.written c.tick)).map TimedFmByte.tick =
        [0, 768] := by decide +kernel
  refine ⟨⟨[], _, rfl⟩, hready, ⟨⟨0, 0xFE#8, 0xC7#8⟩, by rw [htrack]; simp [cells], hlast.symm⟩,
    by rw [htrack]; decide, _, _, _, hcells, ?_, ?_⟩
  · have hlength := congrArg List.length hticks
    rw [List.length_map, List.length_take] at hlength
    exact Nat.le_trans (Nat.le_of_eq hlength.symm) (Nat.min_le_right _ _)
  · rw [hticks]
    rintro ⟨xs, c, ys, hbytes, hturn⟩
    rw [htrack] at hbytes
    -- the head is at the first, the second or the third cell
    rcases xs with _ | ⟨x, _ | ⟨y, _ | ⟨z, xs⟩⟩⟩ <;> simp [cells] at hbytes
    · obtain ⟨rfl, rfl⟩ := hbytes
      simp at hturn
    · obtain ⟨rfl, rfl, rfl⟩ := hbytes
      simp at hturn
    · obtain ⟨rfl, rfl, rfl, rfl⟩ := hbytes
      simp at hturn

end Board
end FK1
