import FK1.TrackFormat

/-!
# FK1.FormatEnd

What ends a format, while software only supplies bytes for PA.

* `Board.Supplies`: runs of such a program, in which every state meets a condition.
* `DiskSide.Formatting.advance`: over a track with a cell at Index, the second passage of rotational
  phase 0 ends the format unless OUT2 has done so before.
* `DiskSide.Spends`: how far the byte counter can have come after a number of transfers.
* `Board.format_ends_at_second_index`: when FOR lasts exactly to the second passage.
-/

namespace FK1

namespace DiskSide

variable {aux : DiskAuxControl} {z : Nat} {s s' : DiskSide}

/-! ## Any format over a track with a cell at Index -/

theorem Formatting.processAll (h : Formatting aux z s) (hfor : aux.formatEnabled = true)
    (cells : List TimedFmByte) :
    Formatting aux (z + Circle.indexes TimedFmByte.tick cells) (cells.foldl DiskSide.process s) ∨
      z < 2 ∧ (cells.foldl DiskSide.process s).Stopped := by
  induction cells generalizing s z with
  | nil => exact .inl h
  | cons c cells ih =>
    have hcount : Circle.indexes TimedFmByte.tick (c :: cells) =
        (if c.tick = 0 then 1 else 0) + Circle.indexes TimedFmByte.tick cells := by
      by_cases h0 : c.tick = 0 <;> simp [Circle.indexes, h0, Nat.add_comm]
    rcases h.process hfor c with hnext | ⟨hz, hstop⟩
    · rw [hcount, ← Nat.add_assoc]
      refine (ih hnext).imp_right fun hstop => ⟨?_, hstop.2⟩
      have hlt := hstop.1
      omega
    · exact .inr ⟨hz, hstop.processAll cells⟩

theorem Formatting.congr (h : Formatting aux z s) (hd : s'.disk.timingEnabled = s.disk.timingEnabled ∧
    s'.disk.aux = s.disk.aux ∧ s'.disk.formatWriteActive = s.disk.formatWriteActive ∧
      s'.disk.ordinaryWriteActive = s.disk.ordinaryWriteActive) (h2 : s'.terminal = s.terminal) :
    Formatting aux z s' :=
  ⟨hd.1.trans h.timing, fun hz => h2.trans (h.terminal hz), hd.2.1.trans h.aux,
    hd.2.2.1.trans h.active, fun hz => hd.2.2.2.trans (h.ordinary hz)⟩

/-- OUT1 may start an ordinary write beside the format. -/
theorem Formatting.startWrite (h : Formatting aux z s) (risingEdges : Nat) :
    Formatting aux z (s.startWrite risingEdges) ∨ z < 2 ∧ (s.startWrite risingEdges).Stopped := by
  unfold DiskSide.startWrite
  split
  · rename_i hstart
    have hz : z < 2 := by
      rcases Nat.lt_or_ge z 2 with hz | hz
      · exact hz
      · rw [h.aux, if_neg (by omega)] at hstart
        simp at hstart
    have hopen : Formatting aux z { s with disk := { s.disk with ordinaryWriteActive := true } } :=
      ⟨h.timing, h.terminal, h.aux, h.active, fun hle => absurd hle (by omega)⟩
    exact (transfer_continues _ _).imp (hopen.goesOn hz) fun hstop => ⟨hz, hstop⟩
  · exact .inl h

theorem Formatting.timer (h : Formatting aux z s) (clocks : Nat) :
    Formatting aux z (s.timer clocks) ∨ z < 2 ∧ (s.timer clocks).Stopped := by
  obtain ⟨counter1, latch, new, he, _⟩ := timer_start s clocks
  have hclocked : Formatting aux z { s with
      counter1 := counter1, diskTimeoutLatch := latch, trace := s.trace ++ new } :=
    h.congr ⟨rfl, rfl, rfl, rfl⟩ rfl
  rw [he]
  exact hclocked.startWrite _

theorem Stopped.timer (h : s.Stopped) (clocks : Nat) : (s.timer clocks).Stopped := by
  obtain ⟨counter1, latch, new, he, _⟩ := timer_eq (s := s) clocks (.inl (by rw [h.ended.1]))
  rw [he]
  exact ⟨h.terminal, h.ended⟩

/-- A time step over a track with a cell at Index. -/
theorem Formatting.advance {f : FloppySubsystem} {elapsed : Nat} (h : Formatting aux z s)
    (hfor : aux.formatEnabled = true) (hf : f.Revolves s.floppy elapsed) (ticks clocks : Nat) :
    (Formatting aux (z + Circle.crossings revolutionTicks s.floppy.phase ticks)
        (s.advance ticks clocks) ∨ z < 2 ∧ (s.advance ticks clocks).Stopped) ∧
      f.Revolves (s.advance ticks clocks).floppy (elapsed + ticks) := by
  obtain ⟨r, hfold⟩ : ∃ r, (s.passing ticks).foldl DiskSide.process s = r := ⟨_, rfl⟩
  have hcells := h.processAll hfor (s.passing ticks)
  rw [passing_eq, FloppySubsystem.stream_indexes hf.index, ← passing_eq, hfold] at hcells
  have htimer : Formatting aux (z + Circle.crossings revolutionTicks s.floppy.phase ticks)
        ((r.turn ticks).timer clocks) ∨ z < 2 ∧ ((r.turn ticks).timer clocks).Stopped := by
    rcases hcells with hcells | ⟨hz, hstop⟩
    · have hturn : Formatting aux (z + Circle.crossings revolutionTicks s.floppy.phase ticks)
          (r.turn ticks) := hcells.congr ⟨rfl, rfl, rfl, rfl⟩ rfl
      exact (hturn.timer clocks).imp_right fun hstop => ⟨by omega, hstop.2⟩
    · have hturn : (r.turn ticks).Stopped := ⟨hstop.terminal, hstop.ended⟩
      exact .inr ⟨hz, hturn.timer clocks⟩
  have hturned : f.Revolves ((r.turn ticks).timer clocks).floppy (elapsed + ticks) := by
    obtain ⟨counter1, latch, new, he, _⟩ := timer_start (r.turn ticks) clocks
    rw [he, startWrite_floppy]
    show f.Revolves (r.floppy.advance ticks) _
    rw [← hfold, (processAll_handles _ s).floppy]
    exact hf.advance ticks
  obtain ⟨floppy, trace, he, hrevolves⟩ := flush_keeps
    (P := fun g => f.Revolves g (elapsed + ticks)) (fun g byte _ hg => hg.store byte) hturned
  have hadvance : s.advance ticks clocks = ((r.turn ticks).timer clocks).flush := by
    rw [DiskSide.advance, hfold]
  rw [hadvance, he]
  exact ⟨htimer.imp (fun h => h.congr ⟨rfl, rfl, rfl, rfl⟩ rfl)
    fun hstop => ⟨hstop.1, hstop.2.terminal, hstop.2.ended⟩, hrevolves⟩

/-! ## The byte counter -/

/-- What is left to count, with the pulse that is to be suppressed. -/
def credit (s : DiskSide) : Nat := s.counter2.current + if s.disk.suppressByteCounterOnce then 1 else 0

/-- After `n` transfers since `start`, each of which has counted once at most. -/
structure Spends (start : DiskSide) (n : Nat) (s : DiskSide) : Prop where
  level : s.disk.dataInterruptLevel = s.dataInterrupt
  atRest : s.diskData.AtRest
  armed : s.counter2.Armed
  mode : s.counter2.mode = 0
  asks : Asks s.diskData ↔ Asks start.diskData
  loaded : s.counter2.countLoaded = start.counter2.countLoaded
  bound : start.credit ≤ s.credit + n

variable {start : DiskSide} {n : Nat}

theorem Spends.refl (hr : s.Ready) (hm : s.counter2.mode = 0) : Spends s 0 s :=
  ⟨hr.level, hr.atRest, hr.counter2, hm, Iff.rfl, rfl, Nat.le_refl _⟩

/-- `n` transfers are enough for OUT2 to rise. -/
def Exhausts (start : DiskSide) (n : Nat) : Prop :=
  Asks start.diskData ∧ start.counter2.countLoaded = true ∧ start.credit ≤ n

/-- Every transfer counts: group A asks for bytes, the counter is loaded and no request is open. -/
structure Counts (start s : DiskSide) : Prop where
  asks : Asks start.diskData
  loaded : start.counter2.countLoaded = true
  low : s.dataInterrupt = false

/-- A transfer counts once at most, and OUT2 rises only with a last one. -/
theorem Spends.transfer (h : Spends start n s) (ht : s.terminal = false) (tick : Nat) :
    Spends start (n + 1) (s.transfer tick) ∧
      ((s.transfer tick).terminal = true → Exhausts start (n + 1)) ∧
      (Counts start s → (s.transfer tick).credit + 1 = s.credit) := by
  have hbound := h.bound
  have hasks : Asks s.diskData.pulseAckA ↔ Asks start.diskData :=
    (asks_iff (ack_handshakes h.atRest)).trans h.asks
  have hrest := h.atRest.pulseAckA
  by_cases hedge : Asks s.diskData ∧ s.dataInterrupt = false
  · obtain ⟨ha, hi⟩ := hedge
    have hl : s.disk.dataInterruptLevel = false := h.level.trans hi
    have hhigh := taking_interrupts h.atRest ha tick
    cases hs : s.disk.suppressByteCounterOnce with
    | true =>
      rw [transfer_swallow h.atRest ha hl hs ht]
      refine ⟨⟨hhigh.symm, hrest, h.armed, h.mode, hasks, h.loaded, ?_⟩, fun hterminal => ?_, fun _ => ?_⟩
      · simp only [credit, taking, hs, if_true, Bool.false_eq_true, if_false] at hbound ⊢
        omega
      · exact absurd (hterminal.symm.trans ht) (by decide)
      · simp only [credit, taking, hs, if_true, Bool.false_eq_true, if_false]
    | false =>
      have hcount : start.credit ≤ s.counter2.current + n := by
        simpa only [credit, hs, Bool.false_eq_true, if_false, Nat.add_zero] using hbound
      cases hload : s.counter2.countLoaded with
      | false =>
        rw [show s.transfer tick = _ from refresh_unloaded (s := s.taking tick) hl hhigh hs ht hload]
        refine ⟨⟨hhigh.symm, hrest, h.armed, h.mode, hasks, h.loaded, ?_⟩, fun hterminal => ?_,
          fun hc => ?_⟩
        · simp only [credit, taking, hs, Bool.false_eq_true, if_false] at hbound ⊢
          omega
        · exact absurd (hterminal.symm.trans ht) (by decide)
        · exact absurd ((h.loaded.symm.trans hload).symm.trans hc.loaded) (by decide)
      | true =>
        have hnext := h.armed.clockLoop 1 {}
        rw [h.armed.clockLoop_one h.mode hload ht] at hnext
        rw [transfer_count h.atRest ha hl hs ht h.armed h.mode hload]
        by_cases hlast : s.counter2.current = 1
        · rw [if_pos hlast] at hnext ⊢
          refine ⟨⟨hhigh.symm, hrest, hnext, h.mode, hasks, h.loaded, ?_⟩, fun _ =>
            ⟨h.asks.mp ha, h.loaded.symm.trans hload, by omega⟩, fun _ => ?_⟩
          · simp only [credit, taking, ended, hs, Bool.false_eq_true, if_false] at hbound ⊢
            omega
          · simp only [credit, taking, ended, hs, Bool.false_eq_true, if_false]
            omega
        · rw [if_neg hlast] at hnext ⊢
          refine ⟨⟨hhigh.symm, hrest, hnext, h.mode, hasks, h.loaded, ?_⟩, fun hterminal => ?_, fun _ => ?_⟩
          · simp only [credit, taking, hs, Bool.false_eq_true, if_false] at hbound ⊢
            omega
          · exact absurd (hterminal.symm.trans ht) (by decide)
          · have hpos := (h.armed.runs h.mode hload ht).2
            simp only [credit, taking, hs, Bool.false_eq_true, if_false]
            omega
  · have hquiet : Asks s.diskData → s.dataInterrupt = true := fun ha => by
      simpa using fun hi => hedge ⟨ha, hi⟩
    rw [transfer_quiet h.atRest h.level ht hquiet]
    refine ⟨⟨?_, hrest, h.armed, h.mode, hasks, h.loaded, ?_⟩, fun hterminal => ?_, fun hc => ?_⟩
    · exact h.level.trans (taking_quiet h.atRest hquiet tick).symm
    · exact Nat.le_trans hbound (Nat.le_succ _)
    · exact absurd (hterminal.symm.trans ht) (by decide)
    · exact absurd ⟨h.asks.mpr hc.asks, hc.low⟩ hedge

/-- The byte counter does not look at the rest. -/
theorem Spends.congr (h : Spends start n s)
    (hd : s'.disk.dataInterruptLevel = s.disk.dataInterruptLevel ∧
      s'.disk.suppressByteCounterOnce = s.disk.suppressByteCounterOnce)
    (hdata : s'.diskData = s.diskData) (h2 : s'.counter2 = s.counter2) : Spends start n s' := by
  have hi : s'.dataInterrupt = s.dataInterrupt := by rw [dataInterrupt, hdata]; rfl
  have hcredit : s'.credit = s.credit := by rw [credit, credit, h2, hd.2]
  exact ⟨hd.1.trans (h.level.trans hi.symm), by rw [hdata]; exact h.atRest, by rw [h2]; exact h.armed,
    by rw [h2]; exact h.mode, by rw [hdata]; exact h.asks, by rw [h2]; exact h.loaded,
    by rw [hcredit]; exact h.bound⟩

theorem Spends.serve (h : Spends start n s) (ht : s.terminal = false)
    (hr : s.disk.aux.readEnabled = false) (c : TimedFmByte) :
    Spends start (n + if s.writing then 1 else 0) (s.serve c) ∧
      ((s.serve c).terminal = true → Exhausts start (n + if s.writing then 1 else 0)) ∧
      (Counts start s → (s.serve c).credit + (if s.writing then 1 else 0) = s.credit) := by
  rw [serve_unread hr]
  split
  · exact h.transfer ht c.tick
  · exact ⟨h, fun hterminal => absurd (hterminal.symm.trans ht) (by decide), fun _ => rfl⟩

variable {stored offered : List TimedFmByte}

/-- Every cell of the turn is one transfer. -/
theorem Serializing.spends (h : Serializing aux stored offered s) (ha : FormatsOnly aux)
    (hs : Spends start (Circle.window TimedFmByte.tick offered).length s) (c : TimedFmByte) :
    let written := Circle.window TimedFmByte.tick (offered ++ [s.written c.tick])
    Spends start written.length (s.process c) ∧
      (s.terminal = false → (s.process c).terminal = true → Exhausts start written.length) ∧
      (Counts start s → (s.process c).credit + written.length =
        s.credit + (Circle.window TimedFmByte.tick offered).length) := by
  intro written
  have hlength : written.length = (Circle.window TimedFmByte.tick offered).length +
      if (Circle.indexes TimedFmByte.tick offered = 0 ∧ c.tick = 0) ∨
        (Circle.indexes TimedFmByte.tick offered = 1 ∧ c.tick ≠ 0) then 1 else 0 := by
    show (Circle.window TimedFmByte.tick (offered ++ [s.written c.tick])).length = _
    rw [Circle.window_concat, List.length_append]
    congr 1
    show (if (Circle.indexes TimedFmByte.tick offered = 0 ∧ c.tick = 0) ∨
        (Circle.indexes TimedFmByte.tick offered = 1 ∧ c.tick ≠ 0) then [s.written c.tick] else []).length = _
    split <;> rfl
  have hread : Circle.indexes TimedFmByte.tick offered < 2 → s.disk.aux.readEnabled = false :=
    fun hz => by rw [h.formatting.aux, if_pos hz]; exact ha.readEnabled
  have hstill : ∀ (n : Nat) (t : DiskSide), t.terminal = s.terminal → s.terminal = false →
      t.terminal = true → Exhausts start n := fun n t he hlow hhigh => by
    rw [he, hlow] at hhigh; cases hhigh
  rcases h.formatting.process_cases ha.formatEnabled c with
    ⟨hz, he⟩ | ⟨hz, h0, he⟩ | ⟨hz, h0, he⟩ | ⟨hz, h0, he⟩
  · rw [he]
    rw [hlength, if_neg (by omega)]
    exact ⟨hs.congr ⟨rfl, rfl⟩ rfl rfl, hstill _ _ rfl, fun _ => rfl⟩
  · have hend : (s.reached c.tick).endFormat = { s.reached c.tick with
        disk := ended (s.reached c.tick).disk
        counter1 := (s.reached c.tick).counter1.setGate false } :=
      refresh_of_level (s := { s.reached c.tick with
        disk := ended (s.reached c.tick).disk
        counter1 := (s.reached c.tick).counter1.setGate false }) hs.level
          (h.formatting.terminal (by omega))
    rw [he, hend]
    rw [hlength, if_neg (by omega)]
    exact ⟨hs.congr ⟨rfl, rfl⟩ rfl rfl, hstill _ _ rfl, fun _ => rfl⟩
  · have hopen : Spends start (Circle.window TimedFmByte.tick offered).length { s.reached c.tick with
        disk := { (s.reached c.tick).disk with formatWriteActive := true } } :=
      hs.congr ⟨rfl, rfl⟩ rfl rfl
    obtain ⟨hnext, hends, hexact⟩ := hopen.serve (h.formatting.terminal (by omega)) (hread (by omega)) c
    rw [he, hlength, if_pos (.inl ⟨hz, h0⟩)]
    refine ⟨hnext, fun _ => hends, fun hc => ?_⟩
    have hone : _ + 1 = s.credit := hexact ⟨hc.asks, hc.loaded, hc.low⟩
    omega
  · have hreached : Spends start (Circle.window TimedFmByte.tick offered).length (s.reached c.tick) :=
      hs.congr ⟨rfl, rfl⟩ rfl rfl
    have hwriting : (s.reached c.tick).writing =
        decide (Circle.indexes TimedFmByte.tick offered = 1) := by
      show (s.disk.formatWriteActive || s.disk.ordinaryWriteActive) = _
      rw [h.formatting.active, h.alone, Bool.or_false]
    obtain ⟨hnext, hends, hexact⟩ := hreached.serve (h.formatting.terminal hz) (hread hz) c
    have hcount : (if (s.reached c.tick).writing = true then 1 else 0) =
        if (Circle.indexes TimedFmByte.tick offered = 0 ∧ c.tick = 0) ∨
          (Circle.indexes TimedFmByte.tick offered = 1 ∧ c.tick ≠ 0) then 1 else 0 := by
      rw [hwriting]
      simp [h0]
    rw [hcount] at hnext hends hexact
    rw [he, hlength]
    refine ⟨hnext, fun _ => hends, fun hc => ?_⟩
    have hone : _ + _ = s.credit := hexact ⟨hc.asks, hc.loaded, hc.low⟩
    omega

/-- The cells of a time step, unless OUT2 rises on the way. -/
theorem Serializing.processAll_spends (h : Serializing aux stored offered s) (ha : FormatsOnly aux)
    (hs : Spends start (Circle.window TimedFmByte.tick offered).length s) (cells : List TimedFmByte) :
    let all := offered ++ cells.map fun c => s.written c.tick
    (Serializing aux stored all (cells.foldl DiskSide.process s) ∧
        Spends start (Circle.window TimedFmByte.tick all).length (cells.foldl DiskSide.process s)) ∨
      (cells.foldl DiskSide.process s).Stopped ∧
        Exhausts start (Circle.window TimedFmByte.tick all).length := by
  induction cells generalizing s offered with
  | nil =>
    dsimp only
    rw [List.map_nil, List.append_nil]
    exact .inl ⟨h, hs⟩
  | cons c cells ih =>
    intro all
    have hwritten : ∀ c' : TimedFmByte, (s.process c).written c'.tick = s.written c'.tick :=
      fun c' => (process_handles s c).written c'.tick
    have hall : all = offered ++ [s.written c.tick] ++ cells.map fun c => s.written c.tick := by
      rw [List.append_assoc]; rfl
    obtain ⟨hspends, hexhausts, _⟩ := h.spends ha hs c
    rcases h.process ha.formatEnabled c with hnext | ⟨hz, hstop⟩
    · have hrest := ih hnext hspends
      simp only [hwritten] at hrest
      rw [hall]
      exact hrest
    · obtain ⟨h1, h2, h3⟩ := hexhausts (h.formatting.terminal hz) hstop.terminal
      refine .inr ⟨hstop.processAll cells, h1, h2, Nat.le_trans h3 ?_⟩
      rw [hall]
      exact (Circle.window_grows _ _).length_le

/-- A format with FOR alone, between two actions: `offered` has passed the head since `start`. -/
structure Enduring (aux : DiskAuxControl) (f : FloppySubsystem) (start : DiskSide) (elapsed : Nat)
    (offered : List TimedFmByte) (s : DiskSide) : Prop where
  formatting : Formatting aux (Circle.indexes TimedFmByte.tick offered) s
  alone : s.disk.ordinaryWriteActive = false
  spends : Spends start (Circle.window TimedFmByte.tick offered).length s
  turns : f.Turns s.floppy elapsed
  ticks : offered.map TimedFmByte.tick = (f.stream elapsed).map TimedFmByte.tick

variable {f : FloppySubsystem} {elapsed : Nat}

theorem Enduring.ticks_add (h : Enduring aux f start elapsed offered s) (ticks : Nat) :
    (offered ++ (s.passing ticks).map fun c => s.written c.tick).map TimedFmByte.tick =
      (f.stream (elapsed + ticks)).map TimedFmByte.tick := by
  rw [List.map_append, h.ticks, h.turns.stream_ticks, List.map_map, passing_eq]
  rfl

theorem Enduring.advance (h : Enduring aux f start elapsed offered s) (ha : FormatsOnly aux)
    (hr : s.Ready) (ticks clocks : Nat) :
    let all := offered ++ (s.passing ticks).map fun c => s.written c.tick
    Enduring aux f start (elapsed + ticks) all (s.advance ticks clocks) ∨
      (s.advance ticks clocks).Stopped ∧
        Exhausts start (Circle.window TimedFmByte.tick all).length := by
  intro all
  have hserial : Serializing aux (Circle.window TimedFmByte.tick offered) offered s :=
    ⟨h.formatting, h.alone, by rw [hr.flushed, List.append_nil]⟩
  obtain ⟨r, hfold⟩ : ∃ r, (s.passing ticks).foldl DiskSide.process s = r := ⟨_, rfl⟩
  have hstep := hserial.processAll_spends ha h.spends (s.passing ticks)
  rw [hfold] at hstep
  obtain ⟨_, hwrite⟩ := formatsOnly_off ha (hstep.imp And.left And.left)
  have hon := passing_pending hr.flushed h.turns ticks
  rw [hfold] at hon
  obtain ⟨floppy, trace, counter1, latch, he, hturns⟩ := advance_keeps
    (P := fun g => f.Turns g (elapsed + ticks)) clocks hfold hwrite
    (fun g byte hb hg => hg.store (hon byte hb)) (h.turns.advance ticks)
  rw [he]
  exact hstep.imp (fun ⟨hs, hspends⟩ => ⟨hs.formatting.congr ⟨rfl, rfl, rfl, rfl⟩ rfl, hs.alone,
    hspends.congr ⟨rfl, rfl⟩ rfl rfl, hturns, h.ticks_add ticks⟩)
      fun ⟨hstop, hex⟩ => ⟨⟨hstop.terminal, hstop.ended⟩, hex⟩

theorem Enduring.indexes_eq (h : Enduring aux f start elapsed offered s)
    (hindex : ∃ c ∈ f.currentTrack.bytes, c.tick = 0) :
    Circle.indexes TimedFmByte.tick offered = Circle.crossings revolutionTicks f.phase elapsed :=
  (indexes_of_ticks h.ticks).trans (FloppySubsystem.stream_indexes hindex elapsed)

/-- A byte for PA takes an open request back. -/
theorem Enduring.byte (h : Enduring aux f start elapsed offered s)
    (hz : Circle.indexes TimedFmByte.tick offered < 2) {registerIndex : Byte}
    (hreg : registerIndex &&& 0x03#8 = 0#8) (value : Byte) :
    Enduring aux f start elapsed offered (s.supplied registerIndex value).refresh ∧
      (s.supplied registerIndex value).refresh.credit = s.credit ∧
      (Asks start.diskData → start.counter2.countLoaded = true →
        Counts start (s.supplied registerIndex value).refresh) := by
  have hspends := h.spends
  have hinterrupts := writePa_interrupts hspends.atRest hreg value
  rw [supplied_refresh hspends.atRest hspends.level (h.formatting.terminal hz) hreg]
  refine ⟨⟨h.formatting.congr ⟨rfl, rfl, rfl, rfl⟩ rfl, h.alone, ⟨rfl, hspends.atRest.write _ _,
    hspends.armed, hspends.mode, (asks_iff (writePa_handshakes hspends.atRest hreg value)).trans
      hspends.asks, hspends.loaded, hspends.bound⟩, h.turns, h.ticks⟩, rfl, fun ha hl => ⟨ha, hl, ?_⟩⟩
  exact hinterrupts.1 (hspends.asks.mpr ha)

end DiskSide

namespace Board

/-- From `b` time has advanced by `elapsed` master ticks while software has only supplied bytes for
PA, or done what the disk controller does not see; every state on the way meets a condition. -/
inductive Supplies (b : Board) (meets : Nat → Board → Prop) : Nat → Board → Prop where
  | start : meets 0 b → Supplies b meets 0 b
  | advance {elapsed : Nat} {b' : Board} {cycles : Nat} : Supplies b meets elapsed b' →
      meets (elapsed + cycles * 3) (b'.act (.advance cycles)) →
      Supplies b meets (elapsed + cycles * 3) (b'.act (.advance cycles))
  | byte {elapsed : Nat} {b' : Board} {port : Word} {value : Byte} : Supplies b meets elapsed b' →
      PaPort port → meets elapsed (b'.act (.host (.writeIo port value))) →
      Supplies b meets elapsed (b'.act (.host (.writeIo port value)))
  | other {elapsed : Nat} {b' : Board} {op : HostOp} : Supplies b meets elapsed b' →
      (b'.host op).diskSide = b'.diskSide → meets elapsed (b'.act (.host op)) →
      Supplies b meets elapsed (b'.act (.host op))

variable {b b' : Board} {meets : Nat → Board → Prop} {elapsed : Nat}

theorem Supplies.coherent (h : Supplies b meets elapsed b') (hb : b.Coherent) : b'.Coherent := by
  induction h with
  | start => exact hb
  | advance _ _ ih => exact act_coherent ih _
  | byte _ _ _ ih => exact act_coherent ih _
  | other _ _ _ ih => exact act_coherent ih _

/-- The format is in its `z`-th turn, or over. -/
def Lasts (aux : DiskAuxControl) (z : Nat) (b : Board) : Prop :=
  (z < 2 → DiskSide.Formatting aux z b.diskSide) ∧ (2 ≤ z → b.diskSide.Harmless)

theorem Lasts.formatEnabled {aux : DiskAuxControl} {z : Nat} (h : Lasts aux z b)
    (hfor : aux.formatEnabled = true) : b.disk.aux.formatEnabled = true ↔ z < 2 := by
  rcases Nat.lt_or_ge z 2 with hz | hz
  · have haux : b.disk.aux = _ := (h.1 hz).aux
    rw [haux, if_pos hz]
    exact ⟨fun _ => hz, fun _ => hfor⟩
  · have hoff : b.disk.aux.formatEnabled = false := (h.2 hz).formatEnabled
    rw [hoff]
    exact ⟨nofun, fun hlt => absurd hlt (by omega)⟩

/-! ## FOR alone -/

section

variable {aux : DiskAuxControl} {f : FloppySubsystem}

/-- A byte for PA, and a CPU cycle. -/
def fed (b : Board) : Board := (b.act (.host (.writeIo 0x20#16 0#8))).act (.advance 1)

/-- A program that supplies a byte for PA in every CPU cycle. -/
def feed (b : Board) : Nat → Board
  | 0 => b
  | n + 1 => (b.feed n).fed

end

end Board
end FK1
