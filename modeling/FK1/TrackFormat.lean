import FK1.DiskWriting

/-!
# FK1.TrackFormat

The track format end to end: FOR waits for Index, one turn is written, the second Index ends it.

* `DiskSide.Formatting`: the controller after Index has passed `z` times.
* `DiskSide.Formatted`: with it, what has been stored since FOR was set.
* `Board.Formats`: time in any steps, and anything that leaves the drives, group 50h and the timing
  logic alone.
* `Board.format_writes`: what a track holds at every moment of such a run and ever after.
-/

namespace FK1

namespace DiskSide

/-- A format under the auxiliary register `aux`, Index having passed `z` times since. -/
structure Formatting (aux : DiskAuxControl) (z : Nat) (s : DiskSide) : Prop where
  timing : s.disk.timingEnabled = true
  terminal : z < 2 → s.terminal = false
  aux : s.disk.aux = if z < 2 then aux else {}
  active : s.disk.formatWriteActive = decide (z = 1)
  ordinary : 2 ≤ z → s.disk.ordinaryWriteActive = false

variable {aux : DiskAuxControl} {z : Nat} {s s' : DiskSide}

namespace Formatting

theorem goesOn (h : Formatting aux z s) (hz : z < 2) (hg : s.GoesOn s') : Formatting aux z s' :=
  ⟨hg.timing.trans h.timing, fun _ => hg.terminal, hg.aux.trans h.aux, hg.format.trans h.active,
    fun hle => absurd hle (by omega)⟩

/-- A cell before the first Index, at it, within the turn, at the second Index, or after it. -/
theorem process_cases (h : Formatting aux z s) (hfor : aux.formatEnabled = true) (c : TimedFmByte) :
    (2 ≤ z ∧ s.process c = s.reached c.tick) ∨
      (z = 1 ∧ c.tick = 0 ∧ s.process c = (s.reached c.tick).endFormat) ∨
      (z = 0 ∧ c.tick = 0 ∧ s.process c = serve { s.reached c.tick with
        disk := { (s.reached c.tick).disk with formatWriteActive := true } } c) ∨
      (z < 2 ∧ c.tick ≠ 0 ∧ s.process c = (s.reached c.tick).serve c) := by
  rcases Nat.lt_or_ge z 2 with hz | hz
  · have hf : s.disk.aux.formatEnabled = true := by rw [h.aux, if_pos hz]; exact hfor
    by_cases h0 : c.tick = 0
    · by_cases h1 : z = 1
      · exact .inr (.inl ⟨h1, h0, process_second_index h.timing hf (by rw [h.active, h1]; rfl) h0⟩)
      · have hactive : s.disk.formatWriteActive = false := by rw [h.active, decide_eq_false h1]
        exact .inr (.inr (.inl ⟨by omega, h0, process_first_index h.timing hf hactive h0⟩))
    · exact .inr (.inr (.inr ⟨hz, h0, process_cell h.timing (.inr h0)⟩))
  · have haux : s.disk.aux = {} := h.aux.trans (if_neg (by omega))
    have hactive : s.disk.formatWriteActive = false := h.active.trans (decide_eq_false (by omega))
    refine .inl ⟨hz, process_passive (by rw [haux]) (by rw [haux]) ?_ c⟩
    rw [writing, hactive, h.ordinary hz]; rfl

/-- A running format is stopped by OUT2 or counts Index. -/
theorem process (h : Formatting aux z s) (hfor : aux.formatEnabled = true) (c : TimedFmByte) :
    Formatting aux (z + if c.tick = 0 then 1 else 0) (s.process c) ∨
      z < 2 ∧ (s.process c).Stopped := by
  have hserve : ∀ {z' : Nat} {t : DiskSide}, z < 2 → z' < 2 → Formatting aux z' t →
      Formatting aux z' (t.serve c) ∨ z < 2 ∧ (t.serve c).Stopped := fun hz hz' ht =>
    (serve_continues (ht.terminal hz') c).imp (ht.goesOn hz') fun hstop => ⟨hz, hstop⟩
  rcases h.process_cases hfor c with ⟨hz, he⟩ | ⟨rfl, h0, he⟩ | ⟨rfl, h0, he⟩ | ⟨hz, h0, he⟩
  · rw [he]
    refine .inl ⟨h.timing, fun hlt => absurd hlt (by omega), h.aux.trans ?_, h.active.trans ?_,
      fun _ => h.ordinary hz⟩
    · rw [if_neg (by omega), if_neg (by omega)]
    · rw [decide_eq_false (by omega), decide_eq_false (by omega)]
  · rw [he, if_pos h0]
    have hdone : (s.reached c.tick).endFormat.disk.timingEnabled = true :=
      (endFormat_handles _).timing.trans h.timing
    -- OUT2 may rise at this very edge; the operation is over either way
    rcases refresh_continues { s.reached c.tick with
      disk := ended (s.reached c.tick).disk
      counter1 := (s.reached c.tick).counter1.setGate false } with hg | hg
    · exact .inl ⟨hdone, fun hlt => absurd hlt (by omega), hg.aux, hg.format, fun _ => hg.ordinary⟩
    · exact .inl ⟨hdone, fun hlt => absurd hlt (by omega), hg.ended.1, hg.ended.2.2.2,
        fun _ => hg.ended.2.2.1⟩
  · rw [he, if_pos h0]
    exact hserve (by omega) (by omega) ⟨h.timing, fun _ => h.terminal (by omega), h.aux, by rfl,
      fun hle => absurd hle (by omega)⟩
  · rw [he, if_neg h0]
    exact hserve hz hz ⟨h.timing, h.terminal, h.aux, h.active, h.ordinary⟩

/-- With FOR alone, a cell waits to be stored when it passes between the two Indexes. -/
theorem process_pending (h : Formatting aux z s) (hfor : aux.formatEnabled = true)
    (halone : s.disk.ordinaryWriteActive = false) (c : TimedFmByte) :
    (s.process c).disk.pendingWrites = s.disk.pendingWrites ++
      if (z = 0 ∧ c.tick = 0) ∨ (z = 1 ∧ c.tick ≠ 0) then [s.written c.tick] else [] := by
  rcases h.process_cases hfor c with ⟨hz, he⟩ | ⟨rfl, h0, he⟩ | ⟨rfl, h0, he⟩ | ⟨hz, h0, he⟩
  · rw [he, if_neg (by omega), List.append_nil]; rfl
  · rw [he, if_neg (by omega), List.append_nil]; exact endFormat_pending _
  · rw [he, if_pos (.inl ⟨rfl, h0⟩), serve_pending, if_pos (by rfl)]; rfl
  · have hwriting : (s.reached c.tick).writing = decide (z = 1) := by
      rw [writing]
      show (s.disk.formatWriteActive || s.disk.ordinaryWriteActive) = _
      rw [h.active, halone, Bool.or_false]
    rw [he, serve_pending, hwriting]
    by_cases h1 : z = 1
    · rw [if_pos (by simpa using h1), if_pos (.inr ⟨h1, h0⟩)]; rfl
    · rw [if_neg (by simpa using h1), if_neg (by omega)]; rfl

end Formatting

/-- In a time step: `stored` was written before it, and the cells that wait make up the rest of what
has passed between the two Indexes of `offered`. -/
structure Serializing (aux : DiskAuxControl) (stored offered : List TimedFmByte) (s : DiskSide) :
    Prop where
  formatting : Formatting aux (Circle.indexes TimedFmByte.tick offered) s
  alone : s.disk.ordinaryWriteActive = false
  pending : stored ++ s.disk.pendingWrites = Circle.window TimedFmByte.tick offered

variable {stored offered : List TimedFmByte}

theorem Serializing.process (h : Serializing aux stored offered s) (hfor : aux.formatEnabled = true)
    (c : TimedFmByte) :
    Serializing aux stored (offered ++ [s.written c.tick]) (s.process c) ∨
      Circle.indexes TimedFmByte.tick offered < 2 ∧ (s.process c).Stopped := by
  have hkeep := (process_handles s c).ordinary
  refine (h.formatting.process hfor c).imp_left fun hnext => ⟨?_, ?_, ?_⟩
  · rw [Circle.indexes_snoc]; exact hnext
  · rw [h.alone] at hkeep
    simpa using hkeep
  · rw [Circle.window_concat, h.formatting.process_pending hfor h.alone, ← h.pending, List.append_assoc]
    rfl

/-- The serializer offers what PA and the clock mask are, all through a time step. -/
theorem Handles.written (h : s.Handles s') (tick : Nat) : s'.written tick = s.written tick := by
  rw [DiskSide.written, DiskSide.written, h.outputA, h.controlA]

theorem Serializing.processAll (h : Serializing aux stored offered s) (hfor : aux.formatEnabled = true)
    (cells : List TimedFmByte) :
    Serializing aux stored (offered ++ cells.map fun c => s.written c.tick)
        (cells.foldl DiskSide.process s) ∨
      Circle.indexes TimedFmByte.tick offered < 2 ∧ (cells.foldl DiskSide.process s).Stopped := by
  induction cells generalizing s offered with
  | nil => exact .inl (by rw [List.map_nil, List.append_nil]; exact h)
  | cons c cells ih =>
    rcases h.process hfor c with hnext | ⟨hlt, hstop⟩
    · have hwritten : ∀ c' : TimedFmByte, (s.process c).written c'.tick = s.written c'.tick :=
        fun c' => (process_handles s c).written c'.tick
      rcases ih hnext with hall | ⟨hlt, hstop⟩
      · simp only [hwritten] at hall
        rw [List.append_assoc] at hall
        exact .inl hall
      · rw [Circle.indexes_snoc] at hlt
        exact .inr ⟨by omega, hstop⟩
    · exact .inr ⟨hlt, hstop.processAll cells⟩

/-- Since FOR was set on the drives `f`, with the trace and I6 as they were: `offered` has passed the
head within `elapsed`, and what lies between its two Indexes is on the track. -/
structure Formatted (aux : DiskAuxControl) (f : FloppySubsystem) (before : List TimedFmByte)
    (latch : Bool) (elapsed : Nat) (offered : List TimedFmByte) (s : DiskSide) : Prop where
  formatting : Formatting aux (Circle.indexes TimedFmByte.tick offered) s
  alone : s.disk.ordinaryWriteActive = false
  follows : f.Follows s.floppy elapsed (Circle.window TimedFmByte.tick offered)
  stored : stores s.trace = before ++ Circle.window TimedFmByte.tick offered
  latch : s.diskTimeoutLatch = true → latch = true
  ticks : offered.map TimedFmByte.tick = (f.stream elapsed).map TimedFmByte.tick

/-- The auxiliary register a track format needs. -/
structure FormatsOnly (aux : DiskAuxControl) : Prop where
  readEnabled : aux.readEnabled = false
  writeEnabled : aux.writeEnabled = false
  formatEnabled : aux.formatEnabled = true

/-- With FOR alone nothing is read, and OUT1 starts nothing. -/
theorem formatsOnly_off (ha : FormatsOnly aux)
    (h : Serializing aux stored offered s ∨ s.Stopped) :
    s.disk.aux.readEnabled = false ∧ s.disk.aux.writeEnabled = false := by
  rcases h with h | h
  · rw [h.formatting.aux]
    split
    · exact ⟨ha.readEnabled, ha.writeEnabled⟩
    · exact ⟨rfl, rfl⟩
  · rw [h.ended.1]; exact ⟨rfl, rfl⟩

variable {f : FloppySubsystem} {before : List TimedFmByte} {latch : Bool} {elapsed : Nat}

/-- A time step, unless OUT2 stops the format in it. -/
theorem Formatted.advance (h : Formatted aux f before latch elapsed offered s)
    (ha : FormatsOnly aux) (hr : s.Ready) {ticks clocks : Nat}
    (hlow : Circle.indexes TimedFmByte.tick offered < 2 → (s.advance ticks clocks).terminal = false) :
    Formatted aux f before latch (elapsed + ticks)
      (offered ++ (s.passing ticks).map fun c => s.written c.tick) (s.advance ticks clocks) := by
  have hstart : Serializing aux (Circle.window TimedFmByte.tick offered) offered s :=
    ⟨h.formatting, h.alone, by rw [hr.flushed, List.append_nil]⟩
  obtain ⟨r, hfold⟩ : ∃ r, (s.passing ticks).foldl DiskSide.process s = r := ⟨_, rfl⟩
  have hstep := hstart.processAll ha.formatEnabled (s.passing ticks)
  rw [hfold] at hstep
  obtain ⟨hread, hwrite⟩ := formatsOnly_off ha (hstep.imp_right And.right)
  obtain ⟨counter1, latch₁, floppy, trace, he, hfollows, hstored, hlatch⟩ :=
    advance_follows hr.flushed h.follows clocks hfold (.inl hwrite)
  have hs : Serializing aux (Circle.window TimedFmByte.tick offered)
      (offered ++ (s.passing ticks).map fun c => s.written c.tick) r := by
    refine hstep.resolve_right fun hstop => ?_
    have hterminal : (s.advance ticks clocks).terminal = r.terminal := by rw [he]; rfl
    have hhigh := hterminal.trans hstop.2.terminal
    rw [hlow hstop.1] at hhigh
    cases hhigh
  rw [he]
  refine ⟨⟨hs.formatting.timing, hs.formatting.terminal, hs.formatting.aux, hs.formatting.active,
    hs.formatting.ordinary⟩, hs.alone, ?_, ?_, fun hl => ?_, ?_⟩
  · rw [← hs.pending]; exact hfollows
  · rw [hstored, h.stored, List.append_assoc, hs.pending]
  · exact h.latch ((hlatch hread).symm.trans hl)
  · rw [List.map_append, h.ticks, h.follows.turns.stream_ticks, List.map_map, passing_eq]
    rfl

/-- The rest of what happens between two time steps. -/
theorem Formatted.access (h : Formatted aux f before latch elapsed offered s) {s₁ : DiskSide}
    (hk : s.Keeps s₁) (hs : s' = s₁ ∨ s' = s₁.refresh) (ht : s'.disk.timingEnabled = true)
    (hf : s.floppy.Still s'.floppy)
    (hlow : Circle.indexes TimedFmByte.tick offered < 2 → s'.terminal = false) :
    Formatted aux f before latch elapsed offered s' := by
  have hhandles : s₁.Handles s' := by
    rcases hs with rfl | rfl
    · exact .refl _
    · exact refresh_handles s₁
  obtain ⟨haux, hord, hfmt⟩ := hk.operation (hhandles.timing.symm.trans ht)
  have h₁ : s₁.disk.aux = if Circle.indexes TimedFmByte.tick offered < 2 then aux else {} :=
    haux.trans h.formatting.aux
  have hcontrol : s'.disk.aux = (if Circle.indexes TimedFmByte.tick offered < 2 then aux else {}) ∧
      s'.disk.formatWriteActive = decide (Circle.indexes TimedFmByte.tick offered = 1) ∧
      s'.disk.ordinaryWriteActive = false := by
    rcases hs with rfl | rfl
    · exact ⟨h₁, hfmt.trans h.formatting.active, hord.trans h.alone⟩
    rcases refresh_continues s₁ with hg | hstop
    · exact ⟨hg.aux.trans h₁, hg.format.trans (hfmt.trans h.formatting.active),
        hg.ordinary.trans (hord.trans h.alone)⟩
    · have hdone : ¬ Circle.indexes TimedFmByte.tick offered < 2 := fun hlt => by
        have := hstop.terminal; rw [hlow hlt] at this; cases this
      obtain ⟨h1, _, h3, h4⟩ := hstop.ended
      exact ⟨h1.trans (if_neg hdone).symm, h4.trans (decide_eq_false (by omega)).symm, h3⟩
  refine ⟨⟨ht, hlow, hcontrol.1, hcontrol.2.1, fun _ => hcontrol.2.2⟩, hcontrol.2.2,
    h.follows.still hf, ?_, fun hl => ?_, h.ticks⟩
  · rw [hhandles.stored, hk.trace, h.stored]
  · exact h.latch (hk.latch (hhandles.diskTimeoutLatch.symm.trans hl))

/-- How often Index has passed, and which cells lie between two Indexes, is a matter of ticks. -/
theorem indexes_of_ticks {xs ys : List TimedFmByte}
    (h : xs.map TimedFmByte.tick = ys.map TimedFmByte.tick) :
    Circle.indexes TimedFmByte.tick xs = Circle.indexes TimedFmByte.tick ys := by
  have hid : ∀ c : TimedFmByte, id c.tick = c.tick := fun _ => rfl
  rw [← Circle.indexes_map TimedFmByte.tick hid xs, h, Circle.indexes_map TimedFmByte.tick hid]

theorem window_of_ticks {xs ys : List TimedFmByte}
    (h : xs.map TimedFmByte.tick = ys.map TimedFmByte.tick) :
    (Circle.window TimedFmByte.tick xs).map TimedFmByte.tick =
      (Circle.window TimedFmByte.tick ys).map TimedFmByte.tick := by
  have hid : ∀ c : TimedFmByte, id c.tick = c.tick := fun _ => rfl
  rw [← Circle.window_map TimedFmByte.tick hid xs, h, Circle.window_map TimedFmByte.tick hid]

theorem Formatted.indexes_eq (h : Formatted aux f before latch elapsed offered s)
    (hindex : ∃ c ∈ f.currentTrack.bytes, c.tick = 0) :
    Circle.indexes TimedFmByte.tick offered = Circle.crossings revolutionTicks f.phase elapsed :=
  (indexes_of_ticks h.ticks).trans (FloppySubsystem.stream_indexes hindex elapsed)

/-- After the second Index every cell has been offered once. -/
theorem Formatted.complete (h : Formatted aux f before latch elapsed offered s)
    (hindex : ∃ c ∈ f.currentTrack.bytes, c.tick = 0)
    (htwo : 2 ≤ Circle.crossings revolutionTicks f.phase elapsed) :
    s.floppy.currentTrack.bytes = Circle.window TimedFmByte.tick offered := by
  rw [← FloppySubsystem.stream_indexes hindex] at htwo
  rw [h.follows.track]
  exact FloppyTrack.overwrite_all ((window_of_ticks h.ticks).trans (congrArg (List.map TimedFmByte.tick)
    (Circle.window_passed f.currentTrack.sorted f.currentTrack.spaced.lt f.phase_lt htwo)))

/-! ## A counter without a count -/

/-- Counter 2 is `counter`, and has no count to run down. -/
structure Uncounted (counter : PitChannel) (s : DiskSide) : Prop where
  counter2 : s.counter2 = counter
  unloaded : counter.countLoaded = false

namespace Uncounted

variable {counter : PitChannel}

theorem refresh (h : Uncounted counter s) : Uncounted counter s.refresh := by
  have hcount : (s.counter2.clockLoop 1 {}).1 = s.counter2 := by
    simp [PitChannel.clockLoop, PitChannel.clockOnce, h.counter2, h.unloaded]
  have hsample : s.sample.counter2 = s.counter2 := by
    unfold sample
    split
    · split
      · rfl
      · exact hcount
    · rfl
  refine ⟨?_, h.unloaded⟩
  unfold DiskSide.refresh endOfData
  split <;> exact hsample.trans h.counter2

theorem present (h : Uncounted counter s) (byte : TimedFmByte) : Uncounted counter (s.present byte) := by
  have hr : Uncounted counter { s with diskData := s.diskData.pulseStrobeB byte.data }.refresh :=
    refresh ⟨h.counter2, h.unloaded⟩
  exact ⟨hr.counter2, h.unloaded⟩

theorem transfer (h : Uncounted counter s) (tick : Nat) : Uncounted counter (s.transfer tick) :=
  refresh ⟨h.counter2, h.unloaded⟩

theorem read (h : Uncounted counter s) (byte : TimedFmByte) : Uncounted counter (s.read byte) := by
  have hmark : Uncounted counter s.synchronize := ⟨h.counter2, h.unloaded⟩
  unfold DiskSide.read
  split
  · exact h
  · split
    · exact h.present byte
    · split
      · exact hmark.present byte
      · exact h

theorem process (h : Uncounted counter s) (byte : TimedFmByte) : Uncounted counter (s.process byte) := by
  unfold DiskSide.process
  extract_lets r index _ t
  have hr : Uncounted counter r := ⟨h.counter2, h.unloaded⟩
  have ht : Uncounted counter t := by
    unfold t
    split
    · exact ⟨hr.counter2, h.unloaded⟩
    · exact hr
  split
  · exact hr
  · split
    · exact refresh ⟨hr.counter2, h.unloaded⟩
    · split
      · exact (ht.transfer byte.tick).read _
      · exact ht.read byte

theorem processAll (bytes : List TimedFmByte) (h : Uncounted counter s) :
    Uncounted counter (bytes.foldl DiskSide.process s) := by
  induction bytes generalizing s with
  | nil => exact h
  | cons byte bytes ih => exact ih (h.process byte)

theorem startWrite (h : Uncounted counter s) (risingEdges : Nat) :
    Uncounted counter (s.startWrite risingEdges) := by
  have hopen : Uncounted counter { s with disk := { s.disk with ordinaryWriteActive := true } } :=
    ⟨h.counter2, h.unloaded⟩
  unfold DiskSide.startWrite
  split
  · exact hopen.transfer _
  · exact h

theorem timer (h : Uncounted counter s) (clocks : Nat) : Uncounted counter (s.timer clocks) := by
  obtain ⟨counter1, latch, new, he, _⟩ := timer_start s clocks
  have hclocked : Uncounted counter { s with
      counter1 := counter1, diskTimeoutLatch := latch, trace := s.trace ++ new } :=
    ⟨h.counter2, h.unloaded⟩
  rw [he]
  exact hclocked.startWrite _

/-- A time step moves no count. -/
theorem advance (h : Uncounted counter s) (ticks clocks : Nat) :
    Uncounted counter (s.advance ticks clocks) := by
  have hcells := h.processAll (s.passing ticks)
  have hturn : Uncounted counter (((s.passing ticks).foldl DiskSide.process s).turn ticks) :=
    ⟨hcells.counter2, h.unloaded⟩
  have htimer := hturn.timer clocks
  obtain ⟨floppy, trace, he, _⟩ := flush_keeps (P := fun _ => True)
    (s := (((s.passing ticks).foldl DiskSide.process s).turn ticks).timer clocks)
    (fun _ _ _ _ => trivial) trivial
  rw [DiskSide.advance, he]
  exact ⟨htimer.counter2, h.unloaded⟩

end Uncounted
end DiskSide

namespace Board

/-- What the serializer takes for a passing cell: PA of the data 8255 and the clock mask that
PA1:PA0 of the control 8255 selects. -/
def offers (b : Board) (c : TimedFmByte) : TimedFmByte :=
  { tick := c.tick, data := b.diskData.outputA, clocks := writtenClockMask b.machineControl.outputA }

/-- From `b` time has advanced by `elapsed` master ticks while the cells `offered` passed the head,
each with what the serializer takes for it at that moment. Meanwhile the drives stay as they are,
group 50h is not written, the timing logic stays enabled, and OUT2 stays low until Index has passed
twice. -/
inductive Formats (b : Board) : Nat → List TimedFmByte → Board → Prop where
  | start : Formats b 0 [] b
  | advance {elapsed : Nat} {offered : List TimedFmByte} {b' : Board} {cycles : Nat} :
      Formats b elapsed offered b' →
      (Circle.indexes TimedFmByte.tick offered < 2 →
        (b'.act (.advance cycles)).timer.output 2 = false) →
      Formats b (elapsed + cycles * 3)
        (offered ++ (b'.floppy.visitBytes (cycles * 3)).map b'.offers) (b'.act (.advance cycles))
  | host {elapsed : Nat} {offered : List TimedFmByte} {b' : Board} {op : HostOp} :
      Formats b elapsed offered b' → op.writesAux = false →
      b'.floppy.Still (b'.host op).floppy → (b'.host op).disk.timingEnabled = true →
      (Circle.indexes TimedFmByte.tick offered < 2 → (b'.host op).timer.output 2 = false) →
      Formats b elapsed offered (b'.act (.host op))

variable {b b' : Board} {elapsed : Nat} {offered : List TimedFmByte}

theorem Formats.coherent (h : Formats b elapsed offered b') (hb : b.Coherent) : b'.Coherent := by
  induction h with
  | start => exact hb
  | advance _ _ ih => exact act_coherent ih _
  | host _ _ _ _ _ ih => exact act_coherent ih _

theorem Formats.formatted {aux : DiskAuxControl} {f : FloppySubsystem} {before : List TimedFmByte}
    {latch : Bool} (h : Formats b elapsed offered b') (hb : b.Coherent) (ha : DiskSide.FormatsOnly aux)
    (hs : DiskSide.Formatted aux f before latch 0 [] b.diskSide) :
    DiskSide.Formatted aux f before latch elapsed offered b'.diskSide := by
  induction h with
  | start => exact hs
  | @advance elapsed offered b' cycles hrun hlow ih =>
    have hcoherent := hrun.coherent hb
    have hside : (b'.act (.advance cycles)).diskSide = _ := advanceTime_diskSide hcoherent.steady cycles
    have hlow' : Circle.indexes TimedFmByte.tick offered < 2 →
        (b'.act (.advance cycles)).diskSide.terminal = false := hlow
    rw [hside] at hlow' ⊢
    exact ih.advance ha hcoherent.ready hlow'
  | @host elapsed offered b' op hrun haux hstill ht hlow ih =>
    obtain ⟨s, _, hk, _, hs⟩ := host_accesses b' op
    exact ih.access (hk haux) hs ht hstill hlow

/-- Without a count in counter 2 a time step leaves OUT2 as it is. -/
theorem advance_output (hb : b.Coherent) (hload : b.diskSide.counter2.countLoaded = false)
    (cycles : Nat) : (b.act (.advance cycles)).timer.output 2 = b.timer.output 2 := by
  have hside : (b.act (.advance cycles)).diskSide = _ := advanceTime_diskSide hb.steady cycles
  have hkeeps : (b.act (.advance cycles)).diskSide.counter2 = b.diskSide.counter2 := by
    rw [hside]
    exact (DiskSide.Uncounted.advance ⟨rfl, hload⟩ _ _).counter2
  exact congrArg PitChannel.output hkeeps

/-- A write to group 50h that sets FOR starts a format and does nothing else. -/
theorem startFormat (hb : b.Coherent) {port : Word} (hp : ioGroup port = 5) (value : Byte)
    (htiming : b.disk.timingEnabled = true) (hfmt : b.disk.formatWriteActive = false)
    (hout : b.timer.output 2 = false) :
    (b.act (.host (.writeIo port value))).diskSide = b.diskSide.writeAux value ∧
      DiskSide.Formatting (DiskAuxControl.write {} value) 0
        (b.act (.host (.writeIo port value))).diskSide := by
  have hside : (b.act (.host (.writeIo port value))).diskSide = b.diskSide.writeAux value :=
    (writeAux_diskSide hp _).trans
      (DiskSide.refresh_of_level (s := b.diskSide.writeAux value) hb.level hout)
  refine ⟨hside, ?_⟩
  rw [hside]
  refine ⟨htiming, fun _ => hout, ?_, ?_, fun h => absurd h (by decide)⟩
  · show (if b.disk.timingEnabled then b.disk.aux.write value else {}) = _
    rw [htiming]; rfl
  · show (b.disk.formatWriteActive && _) = _
    rw [hfmt]; rfl

theorem startFormat_formatted (hb : b.Coherent) {port : Word} (hp : ioGroup port = 5)
    (htiming : b.disk.timingEnabled = true) (hidle : b.diskSide.writing = false)
    (hw : b.floppy.Writable) (hout : b.timer.output 2 = false) :
    DiskSide.Formatted { formatEnabled := true } b.floppy (stores b.trace) b.diskTimeoutLatch 0 []
      (b.act (.host (.writeIo port 0x10#8))).diskSide := by
  obtain ⟨hfmt, hord⟩ : b.disk.formatWriteActive = false ∧ b.disk.ordinaryWriteActive = false := by
    simpa [DiskSide.writing, diskSide] using hidle
  obtain ⟨hside, hformatting⟩ := startFormat hb hp 0x10#8 htiming hfmt hout
  refine ⟨hformatting, ?_, ?_, ?_, fun h => ?_, rfl⟩ <;> rw [hside] at *
  · show (b.disk.ordinaryWriteActive && _) = _
    rw [hord]; rfl
  · exact .refl hw
  · exact (List.append_nil _).symm
  · simp only [DiskSide.writeAux, Bool.and_eq_true] at h
    exact h.1

/-- At every moment of such a run the cells that have passed from the first Index to before the
second are on the track as they were offered, each stored once, and nothing else has changed on any
medium; I6 has not been raised. The second Index clears the auxiliary register; the track is then
what was offered within the turn, and stays so until WRE or FOR is set again. -/
theorem format_writes (hb : b.Reachable) {port : Word} (hp : ioGroup port = 5)
    (htiming : b.disk.timingEnabled = true) (hidle : b.diskSide.writing = false)
    (hw : b.floppy.Writable) (hindex : ∃ c ∈ b.floppy.currentTrack.bytes, c.tick = 0)
    (hout : b.timer.output 2 = false)
    (hrun : Formats (b.act (.host (.writeIo port 0x10#8))) elapsed offered b') :
    let passages := Circle.crossings revolutionTicks b.floppy.phase elapsed
    let written := Circle.window TimedFmByte.tick offered
    Circle.indexes TimedFmByte.tick offered = passages ∧
      b.floppy.Follows b'.floppy elapsed written ∧
      stores b'.trace = stores b.trace ++ written ∧
      b'.floppy.currentTrack.bytes.map TimedFmByte.tick =
        b.floppy.currentTrack.bytes.map TimedFmByte.tick ∧
      b'.disk.aux = (if passages < 2 then { formatEnabled := true } else {}) ∧
      (b'.diskTimeoutLatch = true → b.diskTimeoutLatch = true) ∧
      (2 ≤ passages →
        b'.floppy.currentTrack.bytes = written ∧ b'.diskSide.writing = false ∧
          ∀ actions : List Action, (∀ a ∈ actions, a.harmless = true) →
            ∀ i j, (Run.run act b' actions).floppy.cells i j = b'.floppy.cells i j) := by
  intro passages written
  have hstart := startFormat_formatted hb.coherent hp htiming hidle hw hout
  have hnext : (b.act (.host (.writeIo port 0x10#8))).Coherent := act_coherent hb.coherent _
  have h := hrun.formatted hnext ⟨rfl, rfl, rfl⟩ hstart
  have hpassages := h.indexes_eq hindex
  have haux := h.formatting.aux
  rw [hpassages] at haux
  refine ⟨hpassages, h.follows, h.stored, h.follows.turns.ticks, haux, h.latch, fun htwo => ?_⟩
  have hcleared : b'.disk.aux = {} := haux.trans (if_neg (Nat.not_lt.mpr htwo))
  have hharmless : b'.diskSide.Harmless :=
    harmless_of_cleared (hrun.coherent hnext) hcleared
  exact ⟨h.complete hindex htwo, hharmless.idle,
    fun _ ha i j => run_harmless (hrun.coherent hnext) hharmless ha i j⟩

/-- A track of two cells, formatted with different bytes from one Index to the next. -/
theorem format_writes_two :
    let b := setUp (.uniform [⟨0, 0x11#8, 0xFF#8⟩, ⟨384, 0x22#8, 0xFF#8⟩])
      [(0x63#16, 0x88#8), (0x62#16, 0x08#8), (0x23#16, 0xA6#8), (0x20#16, 0x4E#8)]
    let b' := Run.run act (b.act (.host (.writeIo 0x50#16 0x10#8)))
      [.advance 1, .host (.writeIo 0x20#16 0xE5#8), .advance 128, .advance 666538]
    b'.floppy.currentTrack.bytes = [⟨0, 0x4E#8, 0xFF#8⟩, ⟨384, 0xE5#8, 0xFF#8⟩] ∧ b'.disk.aux = {} := by
  intro b b'
  let b₁ := b.act (.host (.writeIo 0x50#16 0x10#8))
  let b₂ := b₁.act (.advance 1)
  let b₃ := b₂.act (.host (.writeIo 0x20#16 0xE5#8))
  let b₄ := b₃.act (.advance 128)
  have hb : b.Reachable := setUp_reachable _ _
  have hb₂ : b₂.Coherent := act_coherent (act_coherent hb.coherent _) _
  have hb₄ : b₄.Coherent := act_coherent (act_coherent hb₂ _) _
  have hfirst : Formats b₁ 3 _ b₂ := @Formats.advance b₁ 0 [] b₁ 1 .start fun _ => by decide +kernel
  have hsame : b₂.floppy.Still (b₂.host (.writeIo 0x20#16 0xE5#8)).floppy :=
    writePa_still hb₂ ⟨by decide, by decide⟩ _
  have hbyte : Formats b₁ 3 _ b₃ :=
    .host hfirst (by decide) hsame (by decide +kernel) fun _ => by decide +kernel
  have hsecond : Formats b₁ 387 _ b₄ :=
    @Formats.advance b₁ 3 _ b₃ 128 hbyte fun _ => by decide +kernel
  have hturn : Formats b₁ 2000001 _ b' :=
    @Formats.advance b₁ 387 _ b₄ 666538 hsecond fun _ =>
      (advance_output hb₄ (by decide +kernel) _).trans (by decide +kernel)
  obtain ⟨_, _, _, _, haux, _, hdone⟩ := format_writes hb (by decide)
    (by decide +kernel) (by decide +kernel) ⟨by decide +kernel, by decide +kernel⟩
    ⟨⟨0, 0x11#8, 0xFF#8⟩, by decide +kernel, rfl⟩ (by decide +kernel) hturn
  have hpassages : Circle.crossings revolutionTicks b.floppy.phase 2000001 = 2 := by
    have hphase : b.floppy.phase = 0 := by decide +kernel
    rw [hphase, show 2000001 = revolutionTicks + 1 from rfl, Circle.crossings_add,
      Circle.crossings_turn (by decide), Nat.zero_add, Nat.mod_self]
    decide
  rw [hpassages] at haux hdone
  have hwritten : Circle.window TimedFmByte.tick ((([] ++ (b₁.floppy.visitBytes (1 * 3)).map b₁.offers) ++
      (b₃.floppy.visitBytes (128 * 3)).map b₃.offers) ++
      (b₄.floppy.visitBytes (666538 * 3)).map b₄.offers) =
        [⟨0, 0x4E#8, 0xFF#8⟩, ⟨384, 0xE5#8, 0xFF#8⟩] := by decide +kernel
  exact ⟨(hdone (Nat.le_refl 2)).1.trans hwritten, haux⟩

end Board
end FK1
