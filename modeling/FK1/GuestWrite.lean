import FK1.DiskFiles
import FK1.HeadPosition
import FK1.PitWaves
import FK1.SectorWrite

/-!
# FK1.GuestWrite

Software that writes a sector: it supplies the bytes of a field, one in each byte time, through ports
20h and 60h.

* `Board.Writes.feed`, `Writes.feeds`: a byte with its clock bits, and a list of them.
* `Board.Writes.field_supplied`: a whole data field, after which OUT2 is high.
* `Board.sector_written`: an ordinary write that starts six cells before a data mark.
-/

namespace FK1
open Ibm3740SectorImage

/-! ## The cells that pass within a turn -/

namespace FloppySubsystem

variable {f g : FloppySubsystem}

/-- Within a turn of an evenly spaced track the cells pass in order. -/
theorem stream_even (heven : Circle.Even TimedFmByte.tick byteTicks f.currentTrack.bytes) {ticks : Nat}
    (hroom : f.phase + ticks ≤ f.currentTrack.bytes.length * byteTicks)
    (hturn : f.phase + ticks ≤ revolutionTicks) :
    f.stream ticks = (f.currentTrack.bytes.take (Circle.count byteTicks (f.phase + ticks))).drop
      (Circle.count byteTicks f.phase) := by
  have hpassed : ∀ t ≤ f.phase + ticks,
      Circle.passed TimedFmByte.tick revolutionTicks f.currentTrack.bytes 0 t =
        f.currentTrack.bytes.take (Circle.count byteTicks t) := by
    intro t ht
    have h := Circle.passed_even byteTicks_pos heven (i := 0)
      (show 0 * byteTicks + t ≤ revolutionTicks by omega)
    rw [Nat.zero_mul] at h
    exact h
  have hsplit :
      Circle.passed TimedFmByte.tick revolutionTicks f.currentTrack.bytes 0 (f.phase + ticks) = _ :=
    Circle.passed_add _ _ _ _
  rw [hpassed _ (Nat.le_refl _), hpassed _ (Nat.le_add_right ..), Nat.zero_add,
    Nat.mod_eq_of_lt f.phase_lt] at hsplit
  have hlength : (f.currentTrack.bytes.take (Circle.count byteTicks f.phase)).length =
      Circle.count byteTicks f.phase := by
    rw [List.length_take, Nat.min_eq_left (Circle.count_le byteTicks_pos (by omega))]
  rw [hsplit, List.drop_append_of_le_length (Nat.le_of_eq hlength.symm),
    List.drop_of_length_le (Nat.le_of_eq hlength), List.nil_append]
  rfl

theorem stream_length (heven : Circle.Even TimedFmByte.tick byteTicks f.currentTrack.bytes) {ticks : Nat}
    (hroom : f.phase + ticks ≤ f.currentTrack.bytes.length * byteTicks)
    (hturn : f.phase + ticks ≤ revolutionTicks) :
    (f.stream ticks).length =
      Circle.count byteTicks (f.phase + ticks) - Circle.count byteTicks f.phase := by
  rw [stream_even heven hroom hturn, List.length_drop, List.length_take,
    Nat.min_eq_left (Circle.count_le byteTicks_pos hroom)]

/-- One cell passes in a byte time, but at the end of the track. -/
theorem Turns.one (h : f.Turns g elapsed)
    (heven : Circle.Even TimedFmByte.tick byteTicks f.currentTrack.bytes)
    (hroom : f.phase + (elapsed + byteTicks) ≤ f.currentTrack.bytes.length * byteTicks)
    (hturn : f.phase + (elapsed + byteTicks) ≤ revolutionTicks) : ∃ c, g.stream byteTicks = [c] := by
  have hticks := congrArg List.length (h.stream_ticks byteTicks)
  rw [List.length_append, List.length_map, List.length_map, List.length_map] at hticks
  have hbefore := @stream_length f heven elapsed (by omega) (by omega)
  have hafter := stream_length heven hroom hturn
  have hcount : Circle.count byteTicks (f.phase + (elapsed + byteTicks)) =
      Circle.count byteTicks (f.phase + elapsed) + 1 := by
    unfold Circle.count
    rw [show f.phase + (elapsed + byteTicks) + byteTicks - 1 =
      f.phase + elapsed + byteTicks - 1 + byteTicks by unfold byteTicks; omega,
      Nat.add_div_right _ byteTicks_pos]
  have hmono : Circle.count byteTicks f.phase ≤ Circle.count byteTicks (f.phase + elapsed) :=
    Nat.div_le_div_right (by omega)
  exact List.length_eq_one_iff.mp (by omega)

/-- The last cell to pass within a turn. -/
theorem lastTick_even (heven : Circle.Even TimedFmByte.tick byteTicks f.currentTrack.bytes)
    {ticks cell : Nat} (hcell : cell < f.currentTrack.bytes.length) (hturn : f.phase + ticks ≤ revolutionTicks)
    (hbefore : Circle.count byteTicks f.phase ≤ cell)
    (hlast : Circle.count byteTicks (f.phase + ticks) = cell + 1) (tick : Nat) :
    lastTick tick (f.visitBytes ticks) = cell * byteTicks := by
  have hroom : f.phase + ticks ≤ f.currentTrack.bytes.length * byteTicks := by
    refine Nat.le_trans (Nat.le_of_not_lt fun h => ?_) (Nat.mul_le_mul_right byteTicks hcell)
    rw [← Circle.lt_count byteTicks_pos, hlast] at h
    exact Nat.lt_irrefl _ h
  rw [visitBytes_eq_stream, stream_even heven hroom hturn, hlast, List.take_add_one,
    List.getElem?_eq_getElem hcell, List.drop_append_of_le_length]
  · unfold lastTick
    rw [List.foldl_append]
    exact heven cell hcell
  · rw [List.length_take, Nat.min_eq_left (Nat.le_of_lt hcell)]
    exact hbefore

/-- Within a byte time after a cell, that cell alone has passed since. -/
theorem trail_even (heven : Circle.Even TimedFmByte.tick byteTicks f.currentTrack.bytes) {cell since : Nat}
    (hcell : cell < f.currentTrack.bytes.length) (hphase : f.phase = cell * byteTicks + since)
    (hpos : 0 < since) (hbyte : since ≤ byteTicks) :
    f.Trail (cell * byteTicks) [cell * byteTicks] := by
  have hturn : cell * byteTicks + since ≤ revolutionTicks := by
    rw [← hphase]
    exact Nat.le_of_lt f.phase_lt
  refine ⟨since, by rw [← hphase, Nat.mod_eq_of_lt f.phase_lt], ?_⟩
  have hpassed : f.currentTrack.passed (cell * byteTicks) since = _ :=
    Circle.passed_even byteTicks_pos heven hturn
  have hcount : Circle.count byteTicks since = 1 := by
    refine Nat.le_antisymm (Circle.count_le byteTicks_pos (by omega)) ?_
    rw [Nat.one_le_iff_ne_zero, ← Nat.pos_iff_ne_zero, Circle.lt_count byteTicks_pos]
    omega
  rw [hpassed, hcount, List.drop_eq_getElem_cons hcell, List.take_succ_cons, List.take_zero,
    List.map_singleton]
  exact congrArg (fun tick => [tick]) (heven cell hcell)

end FloppySubsystem

/-! ## The clock bits -/

/-- Driven again, the cable moves nothing. -/
theorem Cabled.still {b : Board} (h : Cabled b) :
    b.floppy.setControlPortC b.machineControl.outputC b.machineControl.portCLowerOutputEnabled =
      b.floppy := by
  obtain ⟨hstep, hdirection, hcurrent, hload⟩ := h
  unfold OutputLines.stepLine at hstep
  unfold OutputLines.directionLine at hdirection
  unfold OutputLines.lowCurrentLine at hcurrent
  unfold OutputLines.headLoadLine at hload
  simp only [Ppi8255.lines] at hstep hdirection hcurrent hload
  unfold FloppySubsystem.setControlPortC
  generalize b.floppy = f at *
  cases f
  simp only at hstep hdirection hcurrent hload
  subst hstep hdirection hcurrent hload
  cases b.machineControl.portCLowerOutputEnabled <;> simp

namespace Board

variable {b b' : Board} {elapsed : Nat} {offered : List TimedFmByte}

/-- The lines to the drives and the timing logic stay; what is on port A may change. -/
theorem synchronize_still (hc : Cabled b) (ht : b.disk.timingEnabled = true) {control : Ppi8255}
    (hC : control.outputC = b.machineControl.outputC)
    (hCenabled : control.portCLowerOutputEnabled = b.machineControl.portCLowerOutputEnabled)
    (htiming : timingSelected control = true) :
    ({ b with machineControl := control }.synchronizeControlOutputs).diskSide =
      { b.diskSide with
        controlA := control.outputA
        controlAEnabled := control.portAOutputEnabled
        counter1 := ((b.timer.setGate 1 b.disk.syncLatch).channels 1) } := by
  have hfloppy : b.floppy.setControlPortC control.outputC control.portCLowerOutputEnabled = b.floppy := by
    rw [hC, hCenabled]
    exact hc.still
  have hdisk : ({ b.disk with timingEnabled := true } : DiskState) = b.disk := by rw [← ht]
  rw [synchronizeControlOutputs_eq]
  simp only [diskSide, hfloppy, htiming, Bool.and_true, if_true, Bool.not_true, Bool.false_or,
    DiskSide.mk.injEq]
  exact ⟨hdisk, trivial, trivial, Pit8253.setGate_other _ _ (by decide), trivial, rfl, rfl, trivial,
    trivial⟩

/-- Software sets the clock bits of the cells to come. -/
theorem writeControlA_diskSide (hb : b.Coherent) (hc : Cabled b) (ht : b.disk.timingEnabled = true)
    {value : Byte} (hvalue : hasBits value 0x40#8 = false) :
    ∃ counter1, (b.writeIo 0x60#16 value).diskSide =
      { b.diskSide with controlA := value, counter1 := counter1 } := by
  have hlines : ∀ p : Ppi8255, (p.write (registerOf 0x60#16) value).outputA = value ∧
      (p.write (registerOf 0x60#16) value).portAOutputEnabled = p.portAOutputEnabled ∧
      (p.write (registerOf 0x60#16) value).outputC = p.outputC ∧
      (p.write (registerOf 0x60#16) value).portCLowerOutputEnabled = p.portCLowerOutputEnabled := by
    intro p
    rw [writePa_eq (by decide)]
    split <;> exact ⟨rfl, rfl, rfl, rfl⟩
  obtain ⟨hA, hAenabled, hC, hCenabled⟩ := hlines b.machineControl
  have htiming : timingSelected (b.machineControl.write (registerOf 0x60#16) value) = true := by
    have hbefore := hb.timing
    rw [ht, timingSelected] at hbefore
    rw [timingSelected, hA, hAenabled, hvalue]
    simpa using (Bool.and_eq_true_iff.mp hbefore.symm).1
  have hside := synchronize_still hc ht hC hCenabled htiming
  rw [hA, hAenabled] at hside
  have hio : b.writeIo 0x60#16 value = ({ b with
      machineControl := b.machineControl.write (registerOf 0x60#16) value
    }.synchronizeControlOutputs).refreshInterruptSources := by
    unfold writeIo
    rw [show ioGroup 0x60#16 = 6 from rfl]
  have hwired := synchronizeControlOutputs_wired hb.toWired (registerOf 0x60#16) value
  rw [hio]
  generalize { b with
      machineControl := b.machineControl.write (registerOf 0x60#16) value
    }.synchronizeControlOutputs = pre at hside hwired ⊢
  have hdisk := congrArg DiskSide.disk hside
  have hdata := congrArg DiskSide.diskData hside
  have hcounter := congrArg DiskSide.counter2 hside
  simp only [diskSide] at hdisk hdata hcounter
  have hquiet : pre.Quiet := by
    constructor
    · rw [hdisk, hdata]; exact hb.level
    · rw [hdisk, Pit8253.output, hcounter]; exact hb.endOfData
  exact ⟨_, (Steady.refresh_diskSide ⟨hwired, hquiet⟩).trans hside⟩

/-! ## Software that supplies a field -/

variable {count : Nat} {first : TimedFmByte}

theorem Writes.cabled (h : Writes b elapsed offered b') (hc : Cabled b) : Cabled b' := by
  induction h with
  | start => exact hc
  | wait _ _ ih => exact act_cabled ih _
  | edge _ _ ih => exact act_cabled ih _
  | cells _ _ _ _ ih => exact act_cabled ih _
  | byte _ _ _ ih => exact act_cabled ih _
  | other _ _ _ _ _ _ _ ih => exact act_cabled ih _

theorem Writes.underway (hrun : Writes b elapsed offered b') (hb : b.Coherent)
    (hready : b.WriteReady count)
    (hlast : b.floppy.Trail b.disk.lastByteTick [b.disk.lastByteTick]) (hbegun : offered ≠ [])
    (hless : offered.length < count) :
    DiskSide.Underway b.diskSide count elapsed offered b'.diskSide := by
  have ha : DiskSide.WritesOnly b.diskSide.disk.aux :=
    ⟨hready.readEnabled, hready.writeEnabled, hready.formatEnabled⟩
  rcases hrun.stage hb ha (by omega) (.inl ⟨rfl, hready.waiting hb hlast⟩) with h | h | h
  · exact absurd h.1 hbegun
  · exact h
  · exact absurd h.enough (Nat.not_le.mpr hless)

theorem Writes.clock (hrun : Writes b elapsed offered b') (hb : b.Coherent) (hc : Cabled b)
    (h : DiskSide.Underway b.diskSide count elapsed offered b'.diskSide) {control : Byte}
    (hcontrol : hasBits control 0x40#8 = false) :
    ∃ b₁, Writes b elapsed offered b₁ ∧ b₁.diskSide.controlA = control := by
  obtain ⟨counter1, hside⟩ := writeControlA_diskSide (hrun.coherent hb) (hrun.cabled hc)
    h.counting.timing hcontrol
  have hcounter : (b'.host (.writeIo 0x60#16 control)).timer.channels 2 = b'.timer.channels 2 :=
    congrArg DiskSide.counter2 hside
  have hdata : (b'.host (.writeIo 0x60#16 control)).diskData = b'.diskData :=
    congrArg DiskSide.diskData hside
  have htiming : (b'.host (.writeIo 0x60#16 control)).disk.timingEnabled = true :=
    (congrArg (fun s => s.disk.timingEnabled) hside).trans h.counting.timing
  have hstill : b'.floppy.Still (b'.host (.writeIo 0x60#16 control)).floppy :=
    .of_eq (congrArg DiskSide.floppy hside)
  exact ⟨_, hrun.other h.counting.terminal rfl hstill hdata hcounter htiming,
    congrArg DiskSide.controlA hside⟩

/-- A byte for PA is what the serializer takes next. -/
theorem writePa_written (hb : b.Coherent) {port : Word} (hp : PaPort port) (value : Byte) (tick : Nat) :
    (b.writeIo port value).diskSide.written tick =
      ⟨tick, value, writtenClockMask b.diskSide.controlA⟩ := by
  have hvalue : (b.diskData.write (registerOf port) value).outputA = value := by
    rw [writePa_eq hp.2]
    split <;> rfl
  have hhandles := DiskSide.refresh_handles (b.diskSide.supplied (registerOf port) value)
  rw [writePa_diskSide hb hp, DiskSide.written, hhandles.outputA, hhandles.controlA]
  exact congrArg (fun data => (⟨tick, data, _⟩ : TimedFmByte)) hvalue

theorem writePa_quiet (hb : b.Coherent) (h : DiskSide.Underway b'.diskSide count elapsed offered b.diskSide)
    {port : Word} (hp : PaPort port) (value : Byte) : (b.writeIo port value).diskData.intrA = false := by
  obtain ⟨-, hfree, -⟩ := h.counting.byte hb.ready hp.2 value
  rw [← writePa_diskSide hb hp] at hfree
  exact (Bool.or_eq_false_iff.mp hfree).1

/-- A byte for the serializer with its clock bits, and a byte time. -/
theorem Writes.feed (hrun : Writes b elapsed offered b') (hb : b.Coherent) (hc : Cabled b)
    (hready : b.WriteReady count)
    (hlast : b.floppy.Trail b.disk.lastByteTick [b.disk.lastByteTick]) (hbegun : offered ≠ [])
    (hless : offered.length < count)
    (hone : ∀ g, b.floppy.Turns g elapsed → ∃ c, g.stream byteTicks = [c])
    {control : Byte} (hcontrol : hasBits control 0x40#8 = false) (value : Byte) :
    ∃ tick b'', Writes b (elapsed + byteTicks)
      (offered ++ [⟨tick, value, writtenClockMask control⟩]) b'' := by
  have hport : PaPort 0x20#16 := ⟨by decide, by decide⟩
  obtain ⟨b₁, hrun₁, hcontrolA⟩ :=
    hrun.clock hb hc (hrun.underway hb hready hlast hbegun hless) hcontrol
  have hb₁ := hrun₁.coherent hb
  have hunderway₁ := hrun₁.underway hb hready hlast hbegun hless
  have hrun₂ : Writes b elapsed offered (b₁.act (.host (.writeIo 0x20#16 value))) :=
    hrun₁.byte hunderway₁.counting.terminal hport
  have hunderway₂ := hrun₂.underway hb hready hlast hbegun hless
  have hquiet := writePa_quiet hb₁ hunderway₁ hport value
  have hwritten := writePa_written hb₁ hport value
  rw [hcontrolA] at hwritten
  change ∀ tick, (b₁.act (.host (.writeIo 0x20#16 value))).diskSide.written tick = _ at hwritten
  change (b₁.act (.host (.writeIo 0x20#16 value))).diskData.intrA = false at hquiet
  generalize b₁.act (.host (.writeIo 0x20#16 value)) = b₂ at hrun₂ hunderway₂ hwritten hquiet
  obtain ⟨c, hcell⟩ := hone b₂.floppy hunderway₂.wrote.follows.turns
  have hvisit : b₂.floppy.visitBytes (128 * 3) = [c] :=
    (b₂.floppy.visitBytes_eq_stream _).trans hcell
  have hkeeps : b₂.KeepsUp (128 * 3) := by
    refine ⟨fun hi => absurd (hquiet.symm.trans hi) (by decide), fun _ => ?_⟩
    rw [hvisit]
    exact Nat.le_refl 1
  have hcells := hrun₂.cells hbegun hunderway₂.counting.terminal hkeeps
  rw [hvisit, List.map_singleton, hwritten] at hcells
  exact ⟨c.tick, _, hcells⟩

theorem Writes.feeds (hrun : Writes b elapsed offered b') (supply : List (Byte × Byte))
    (hb : b.Coherent) (hc : Cabled b) (hready : b.WriteReady count)
    (hlast : b.floppy.Trail b.disk.lastByteTick [b.disk.lastByteTick]) (hbegun : offered ≠ [])
    (hless : offered.length + supply.length ≤ count)
    (hcontrols : ∀ p ∈ supply, hasBits p.1 0x40#8 = false)
    (hone : ∀ k < supply.length, ∀ g, b.floppy.Turns g (elapsed + k * byteTicks) →
      ∃ c, g.stream byteTicks = [c]) :
    ∃ more b'', Writes b (elapsed + supply.length * byteTicks) (offered ++ more) b'' ∧
      more.map (fun c => (c.data, c.clocks)) = supply.map fun p => (p.2, writtenClockMask p.1) := by
  induction supply generalizing elapsed offered b' with
  | nil => exact ⟨[], b', by simpa using hrun, rfl⟩
  | cons p supply ih =>
    rw [List.length_cons] at hless
    obtain ⟨tick, b₁, hfed⟩ := hrun.feed hb hc hready hlast hbegun (by omega)
      (fun g hg => hone 0 (Nat.succ_pos _) g (by simpa using hg)) (hcontrols p (List.mem_cons_self ..)) p.2
    obtain ⟨more, b'', hrest, hmore⟩ := ih hfed (by simp) (by simp; omega)
      (fun q hq => hcontrols q (List.mem_cons_of_mem _ hq)) fun k hk g hg =>
        hone (k + 1) (by rw [List.length_cons]; omega) g (by
          rw [Nat.succ_mul, Nat.add_comm (k * byteTicks), ← Nat.add_assoc]
          exact hg)
    refine ⟨⟨tick, p.2, writtenClockMask p.1⟩ :: more, b'', ?_, ?_⟩
    · rw [List.length_cons, Nat.succ_mul, Nat.add_comm (supply.length * byteTicks), ← Nat.add_assoc,
        List.append_cons]
      exact hrest
    · rw [List.map_cons, hmore]
      rfl

/-- Once its bytes have been taken OUT2 is high. -/
theorem Writes.ended (hrun : Writes b elapsed offered b') (hb : b.Coherent)
    (hready : b.WriteReady count)
    (hlast : b.floppy.Trail b.disk.lastByteTick [b.disk.lastByteTick]) (hpos : 0 < count)
    (henough : count ≤ offered.length) : b'.timer.output 2 = true := by
  have ha : DiskSide.WritesOnly b.diskSide.disk.aux :=
    ⟨hready.readEnabled, hready.writeEnabled, hready.formatEnabled⟩
  rcases hrun.stage hb ha hpos (.inl ⟨rfl, hready.waiting hb hlast⟩) with ⟨rfl, -⟩ | h | h
  · exact absurd henough (Nat.not_le.mpr hpos)
  · have hleft := (hrun.coherent hb).counter2.runs h.counting.mode h.counting.loaded h.counting.terminal
    have hcurrent : (b'.timer.channels 2).current = count - offered.length := h.counting.left
    omega
  · exact h.stopped.terminal

/-! ## A data field -/

/-- What software supplies after the first cell: the rest of the gap, the mark, the data and a CRC. -/
def fieldSupply (data : List Byte) : List (Byte × Byte) :=
  List.replicate 5 (0x00#8, 0x00#8) ++
    (0x03#8, 0xFB#8) :: (data.map (Prod.mk 0x00#8) ++ List.replicate 2 (0x00#8, 0x00#8))

theorem fieldSupply_field {data : List Byte} {first : TimedFmByte} {more : List TimedFmByte}
    (hmore : more.map (fun c => (c.data, c.clocks)) =
      (fieldSupply data).map fun p => (p.2, writtenClockMask p.1))
    (hfirst : first.clocks ≠ sectorMarkClocks) (hlength : data.length = 128) :
    DataField data (first :: more) := by
  have hclocks : ∀ {cells : List TimedFmByte} {values : List (Byte × Byte)},
      cells.map (fun c => (c.data, c.clocks)) = values.map (fun p => (p.2, writtenClockMask p.1)) →
      (∀ p ∈ values, p.1 = 0x00#8) → ∀ c ∈ cells, c.clocks ≠ sectorMarkClocks := by
    intro cells values heq hvalues c hc
    have hmem := List.mem_map_of_mem (f := fun c : TimedFmByte => (c.data, c.clocks)) hc
    rw [heq] at hmem
    obtain ⟨p, hp, hpair⟩ := List.mem_map.mp hmem
    rw [← (Prod.mk.inj hpair).2, hvalues p hp]
    decide
  unfold fieldSupply at hmore
  rw [List.map_append, List.map_cons, List.map_append] at hmore
  obtain ⟨sync, rest, rfl, hsync, hrest⟩ := List.map_eq_append_iff.mp hmore
  obtain ⟨mark, tail, rfl, hmark, htail⟩ := List.map_eq_cons_iff.mp hrest
  obtain ⟨body, crc, rfl, hbody, hcrc⟩ := List.map_eq_append_iff.mp htail
  have hsyncLength := congrArg List.length hsync
  have hcrcLength := congrArg List.length hcrc
  rw [List.length_map, List.length_map, List.length_replicate] at hsyncLength hcrcLength
  refine ⟨⟨first :: sync, mark, body, crc, rfl, ?_, ?_, ?_, ?_, ?_, ?_, hcrcLength, ?_⟩, hlength⟩
  · rw [List.length_cons, hsyncLength]
  · intro c hc
    rcases List.mem_cons.mp hc with rfl | hc
    · exact hfirst
    · exact hclocks hsync (fun p hp => by rw [List.eq_of_mem_replicate hp]) c hc
  · exact .inl (Prod.mk.inj hmark).1
  · rw [(Prod.mk.inj hmark).2]
    decide
  · have hvalues := congrArg (List.map Prod.fst) hbody
    simpa [Function.comp_def] using hvalues
  · refine hclocks hbody fun p hp => ?_
    obtain ⟨value, -, rfl⟩ := List.mem_map.mp hp
    rfl
  · exact hclocks hcrc fun p hp => by rw [List.eq_of_mem_replicate hp]

theorem fieldSupply_length (data : List Byte) : (fieldSupply data).length = data.length + 8 := by
  simp only [fieldSupply, List.length_append, List.length_cons, List.length_map, List.length_replicate]
  omega

theorem fieldSupply_controls {data : List Byte} {p : Byte × Byte} (hp : p ∈ fieldSupply data) :
    hasBits p.1 0x40#8 = false := by
  have hcontrol : p.1 = 0x00#8 ∨ p.1 = 0x03#8 := by
    simp only [fieldSupply, List.mem_append, List.mem_cons, List.mem_map, List.mem_replicate] at hp
    rcases hp with ⟨-, rfl⟩ | rfl | ⟨value, -, rfl⟩ | ⟨-, rfl⟩
    · exact .inl rfl
    · exact .inr rfl
    · exact .inl rfl
    · exact .inl rfl
  rcases hcontrol with h | h
  · rw [h]; decide
  · rw [h]; decide

/-- A write that software supplies with a field, one byte in each byte time. -/
theorem Writes.field_supplied (hrun : Writes b elapsed [first] b') (hb : b.Reachable)
    (hready : b.WriteReady 137)
    (hlast : b.floppy.Trail b.disk.lastByteTick [b.disk.lastByteTick])
    (hfirst : first.clocks ≠ sectorMarkClocks) {data : List Byte} (hlength : data.length = 128)
    (hone : ∀ k < 136, ∀ g, b.floppy.Turns g (elapsed + k * byteTicks) →
      ∃ c, g.stream byteTicks = [c]) :
    ∃ elapsed' more b'', Writes b elapsed' (first :: more) b'' ∧ b''.timer.output 2 = true ∧
      DataField data ((first :: more).take 137) := by
  have hsupply : (fieldSupply data).length = 136 := by rw [fieldSupply_length, hlength]
  obtain ⟨more, b'', hrun', hmore⟩ := hrun.feeds (fieldSupply data) hb.coherent hb.cabled hready hlast
    (by simp) (by rw [hsupply, List.length_singleton]) (fun _ => fieldSupply_controls)
    (by rw [hsupply]; exact hone)
  have hcount : (first :: more).length = 137 := by
    have h := congrArg List.length hmore
    rw [List.length_map, List.length_map, hsupply] at h
    rw [List.length_cons, h]
  have hend := hrun'.ended hb.coherent hready hlast (by decide) (Nat.le_of_eq hcount.symm)
  refine ⟨_, more, b'', hrun', hend, ?_⟩
  rw [List.take_of_length_le (Nat.le_of_eq hcount)]
  exact fieldSupply_field hmore hfirst hlength

/-! ## The first sector of a blank disk -/

/-- Another disk in the selected drive. -/
theorem WriteReady.insert (h : b.WriteReady count) (hb : b.Reachable) (disk : FloppyDiskImage) :
    let b' := (b.insertFloppy b.floppy.selectedDriveIndex disk .readWrite).2
    b'.Reachable ∧ b'.WriteReady count ∧ b'.floppy.selectedDrive.image = some disk ∧
      b'.floppy.phase = b.floppy.phase ∧ b'.disk.lastByteTick = b.disk.lastByteTick ∧
      b'.diskSide.counter1 = b.diskSide.counter1 ∧ b'.timerClockAccumulator = b.timerClockAccumulator ∧
      (∀ tick, b'.diskSide.written tick = b.diskSide.written tick) ∧
      b'.floppy.selectedDrive.headTrack = b.floppy.selectedDrive.headTrack := by
  intro b'
  obtain ⟨rom, hrun⟩ := hb
  have hfloppy : b'.floppy = _ := insertFloppy_floppy b b.floppy.selectedDriveIndex disk .readWrite
  have hdrive : b'.floppy.selectedDrive = b.floppy.selectedDrive.insert disk .readWrite := by
    rw [hfloppy]
    simp only [FloppySubsystem.selectedDrive, FloppySubsystem.modify, if_true]
  have hloaded : b'.floppy.headLoaded = b.floppy.headLoaded := by rw [hfloppy]; rfl
  refine ⟨⟨rom, Run.Reachable.next hrun
      (.host (.insertFloppy b.floppy.selectedDriveIndex disk .readWrite))⟩,
    ⟨h.timing, h.readEnabled, h.writeEnabled, h.formatEnabled, h.idle, h.mode, h.loaded, h.count,
      h.output, h.suppress, h.strobed, h.inteA, h.intrA, h.intrB, ⟨?_, ?_⟩⟩, ?_, ?_, rfl, rfl, rfl,
    fun _ => rfl, ?_⟩
  · rw [hloaded]; exact h.writable.headLoaded
  · rw [hdrive]; rfl
  · rw [hdrive]; rfl
  · rw [FloppySubsystem.phase, hdrive]; rfl
  · rw [hdrive]; rfl

/-- Software has read an ID mark at Index and prepared a write of 137 bytes, 3110 clocks later. -/
def prepared : Board :=
  Run.run act (power []) [
    .host (.insertFloppy 0 (FloppyDiskImage.uniform [⟨0, 0xFE#8, 0xC7#8⟩]) .readWrite),
    .host (.writeIo 0x63#16 0x88#8), .host (.writeIo 0x62#16 0x08#8),
    .host (.writeIo 0x23#16 0xA6#8), .host (.writeIo 0x23#16 0x05#8),
    .host (.writeIo 0x50#16 0x01#8), .advance 1, .host (.readIo 0x21#16),
    .host (.writeIo 0x50#16 0x02#8), .host (.writeIo 0x20#16 0x00#8),
    .host (.writeIo 0x23#16 0x0D#8), .host (.writeIo 0x13#16 0x90#8),
    .host (.writeIo 0x12#16 0x89#8), .host (.writeIo 0x13#16 0x70#8),
    .host (.writeIo 0x11#16 0x26#8), .host (.writeIo 0x11#16 0x0C#8)]

theorem prepared_ready : prepared.WriteReady 137 := by
  refine ⟨?_, ?_, ?_, ?_, ?_, ?_, ?_, ?_, ?_, ?_, ?_, ?_, ?_, ?_, ⟨?_, ?_⟩⟩ <;> decide +kernel

/-- OUT1 rises within a time step that clocks the counter through its count. -/
theorem out1Edges_rises {N : Nat} (h : PitChannel.OneShot N 0 b.diskSide.counter1 {}) {cycles : Nat}
    (hcount : N ≤ (b.timerClockAccumulator + cycles * 3) / 12) : b.out1Edges cycles ≠ 0 := by
  have hend := PitChannel.clockLoop_invariant (P := PitChannel.OneShot N) h
    (fun _ _ _ => PitChannel.OneShot.clockOnce) ((b.timerClockAccumulator + cycles * 3) / 12)
  have hedges := hend.edges
  rw [if_pos hcount] at hedges
  rw [out1Edges, DiskSide.risingEdges, hedges]
  decide

theorem prepared_counter1 : PitChannel.OneShot 3110 0 prepared.diskSide.counter1 {} :=
  ⟨.inl (by decide +kernel), by decide +kernel, by decide +kernel, by decide +kernel,
    fun _ => by decide +kernel, rfl⟩

theorem prepared_clock : prepared.timerClockAccumulator = 3 := by decide +kernel

/-- On the prepared machine with a disk in the selected drive, OUT1 starts the write at the cell that a time
step passes last. -/
theorem prepared_edge {map : Nat → Byte} {raw : List Byte} {disk : FloppyDiskImage}
    (hformatted : FormattedDisk map raw disk) {cell cycles : Nat} (hcell : cell < 5208) (hpos : 0 < cell)
    (hlast : Circle.count byteTicks (3 + cycles * 3) = cell + 1)
    (hturn : 3 + cycles * 3 ≤ revolutionTicks) (hlate : 3110 ≤ (3 + cycles * 3) / 12) :
    let b := (prepared.insertFloppy prepared.floppy.selectedDriveIndex disk .readWrite).2
    b.Reachable ∧ b.WriteReady 137 ∧ b.floppy.selectedDrive.image = some disk ∧ b.floppy.phase = 3 ∧
      b.floppy.selectedDrive.headTrack = 0 ∧ b.floppy.Trail b.disk.lastByteTick [b.disk.lastByteTick] ∧
      Circle.Even TimedFmByte.tick byteTicks b.floppy.currentTrack.bytes ∧
      b.floppy.currentTrack.bytes.length = 5208 ∧
      Writes b (cycles * 3) [⟨cell * byteTicks, 0x00#8, 0xFF#8⟩] (b.act (.advance cycles)) := by
  have hfirst₀ : ∀ tick, prepared.diskSide.written tick = ⟨tick, 0x00#8, 0xFF#8⟩ := by
    have hvalue : prepared.diskSide.diskData.outputA = 0x00#8 := by decide +kernel
    have hclocks : writtenClockMask prepared.diskSide.controlA = 0xFF#8 := by decide +kernel
    intro tick
    rw [DiskSide.written, hvalue, hclocks]
  have hphase₀ : prepared.floppy.phase = 3 := by decide +kernel
  have hlast₀ : prepared.disk.lastByteTick = 0 := by decide +kernel
  have hhead₀ : prepared.floppy.selectedDrive.headTrack = 0 := by decide +kernel
  have hinserted := prepared_ready.insert ⟨[], _, rfl⟩ disk
  dsimp only at hinserted ⊢
  generalize (prepared.insertFloppy prepared.floppy.selectedDriveIndex disk .readWrite).2 = b
    at hinserted ⊢
  obtain ⟨hb, hready, hdisk, hphase, hlastByte, hcounter, hclock, hfirst, hhead⟩ := hinserted
  rw [hphase₀] at hphase
  rw [hlast₀] at hlastByte
  rw [hhead₀] at hhead
  have htrack : b.floppy.currentTrack = disk.tracks b.floppy.selectedDrive.headTrack := by
    unfold FloppySubsystem.currentTrack
    rw [hdisk]
  have heven : Circle.Even TimedFmByte.tick byteTicks b.floppy.currentTrack.bytes := by
    rw [htrack]
    exact (hformatted.tracks b.floppy.selectedDrive.headTrack).ticks
  have hlength : b.floppy.currentTrack.bytes.length = 5208 := by
    rw [htrack]
    exact (hformatted.tracks b.floppy.selectedDrive.headTrack).length
  have htrail : b.floppy.Trail b.disk.lastByteTick [b.disk.lastByteTick] := by
    have h := @FloppySubsystem.trail_even b.floppy heven 0 3 (by omega) (by rw [hphase]; rfl)
      (by decide) (by decide)
    rw [Nat.zero_mul] at h
    rw [hlastByte]
    exact h
  have hvisited : b.lastVisited (cycles * 3) = cell * byteTicks := by
    refine FloppySubsystem.lastTick_even heven (by omega) ?_ ?_ ?_ _
    · rw [hphase]; exact hturn
    · rw [hphase]; exact hpos
    · rw [hphase]; exact hlast
  have hedges : b.out1Edges cycles ≠ 0 := by
    refine out1Edges_rises (N := 3110) (by rw [hcounter]; exact prepared_counter1) ?_
    rw [hclock, prepared_clock]
    exact hlate
  have hrun := Writes.edge .start hedges
  rw [Nat.zero_add, hvisited, hfirst, hfirst₀] at hrun
  exact ⟨hb, hready, hdisk, hphase, hhead, htrail, heven, hlength, hrun⟩

/-- An ordinary write of 137 bytes that OUT1 starts six cells before a data mark of an imported and
written disk. If software has supplied a data field, the file would be saved with that sector replaced
by its data and with nothing else changed, and the disk can be read and written on. -/
theorem sector_written (hb : b.Reachable) (hready : b.WriteReady 137)
    (hlast : b.floppy.Trail b.disk.lastByteTick [b.disk.lastByteTick])
    {file : List Byte} {sectorMap : Nat → Byte} {writes : List TrackWrite} {disk : FloppyDiskImage}
    (hdisk : b.floppy.selectedDrive.image = some disk)
    (hwritten : WrittenImport file sectorMap writes disk)
    (hrun : Writes b elapsed offered b') (hend : b'.timer.output 2 = true) {slot : Nat}
    (hslot : slot < 26)
    (hstart : offered[0]?.map TimedFmByte.tick = some ((fieldStart true slot - 6) * byteTicks))
    {data : List Byte} (hfield : DataField data (offered.take 137)) :
    let track := b.floppy.selectedDrive.headTrack
    let saved := spliced (replaced sectorMap file writes) (rawOffset track (sectorMap slot)) data
    ∃ disk' more, b'.floppy.selectedDrive.image = some disk' ∧ exportImage disk' = some saved ∧
      WrittenImport file sectorMap (writes ++ more) disk' ∧
      replaced sectorMap file (writes ++ more) = saved ∧ ∀ w ∈ more, w.track = track := by
  intro track saved
  have hfinished := hrun.finished hb.coherent hready hlast hend
  have hlegible := hwritten.legible
  have htrack : b.floppy.currentTrack = disk.tracks track := by
    unfold FloppySubsystem.currentTrack
    rw [hdisk]
  have hformatted := hlegible.tracks track
  have hlength : (disk.tracks track).bytes.length = 5208 := hformatted.length
  have henough := hfinished.enough
  have hbegun : offered ≠ [] := by
    rintro rfl
    simp at henough
  have hrotation := hfinished.wrote.inRotation hbegun (by
    show 137 ≤ b.floppy.currentTrack.bytes.length
    rw [htrack, hlength]
    decide)
  have hrotation' : (disk.tracks track).InRotation ((offered.take 137).map TimedFmByte.tick) := by
    rw [← htrack]
    exact hrotation
  have hstart' : ((offered.take 137).map TimedFmByte.tick)[0]? =
      some ((fieldStart true slot - 6) * byteTicks) := by
    rw [List.getElem?_map, List.getElem?_take_of_lt (by decide)]
    exact hstart
  have hat : AtField slot (offered.take 137) := by
    intro i c hc
    refine hrotation'.places hformatted.ticks hstart' ?_ (by rw [List.getElem?_map, hc]; rfl)
    rw [List.length_map, List.length_take, hlength, fieldStart, if_pos rfl]
    omega
  obtain ⟨-, hon⟩ := hrotation'.nodup
  have hwrites := @writeCells_overwrite disk track (offered.take 137) fun c hc =>
    hon c.tick (List.mem_map_of_mem hc)
  have hregular := hfield.regular hslot hat track
  have hnext := hwritten.write hregular hwrites
  have hsaved :
      replaced sectorMap file (writes ++ (offered.take 137).map (TrackWrite.mk track)) = saved := by
    rw [replaced_append]
    exact hfield.replaced hlegible.map hlegible.size hslot hat track
  refine ⟨_, _, hfinished.wrote.follows.image hdisk, ?_, hnext, hsaved, fun w hw => ?_⟩
  · rw [← hsaved]
    exact export_formatted hnext.legible.toFormattedDisk
  · obtain ⟨c, -, rfl⟩ := List.mem_map.mp hw
    rfl

/-- The first sector of a blank disk is written with 42h. -/
theorem sector_written_first :
    ∃ disk, importImage (List.replicate imageSize 0xE5#8) defaultSectorSkew = some disk ∧
      let b := (prepared.insertFloppy prepared.floppy.selectedDriveIndex disk .readWrite).2
      ∃ elapsed offered b' disk', Writes b elapsed offered b' ∧
        b'.floppy.selectedDrive.image = some disk' ∧
        exportImage disk' =
          some (spliced (List.replicate imageSize 0xE5#8) 0 (List.replicate 128 0x42#8)) := by
  obtain ⟨disk, hblank⟩ := importImage_default (List.length_replicate (n := imageSize) (a := 0xE5#8))
  obtain ⟨_, map, hmap⟩ := import_accepts hblank
  have hwritten : WrittenImport (List.replicate imageSize 0xE5#8) map [] disk :=
    ⟨⟨defaultSectorSkew, disk, hblank, hmap, rfl⟩, nofun⟩
  have hmap₀ := default_firstSlot hmap
  have hstarted := @prepared_edge _ _ _ hwritten.legible.toFormattedDisk 97 12480 (by decide) (by decide)
    (by decide) (by decide) (by decide)
  refine ⟨disk, hblank, ?_⟩
  dsimp only at hstarted ⊢
  generalize (prepared.insertFloppy prepared.floppy.selectedDriveIndex disk .readWrite).2 = b
    at hstarted ⊢
  obtain ⟨hb, hready, hdisk, hphase, hhead, htrail, heven, hlength, hbegun⟩ := hstarted
  obtain ⟨elapsed, more, b', hrun, hend, hfield⟩ := hbegun.field_supplied hb hready htrail (by decide)
    (List.length_replicate (n := 128) (a := 0x42#8)) fun k hk g hg => by
      refine hg.one heven ?_ ?_
      · rw [hphase, hlength]
        unfold byteTicks
        omega
      · rw [hphase]
        unfold byteTicks revolutionTicks
        omega
  obtain ⟨disk', _, hdisk', hexport, -⟩ := sector_written hb hready htrail hdisk hwritten hrun hend
    (show 0 < 26 by decide) rfl hfield
  refine ⟨_, _, b', disk', hrun, hdisk', ?_⟩
  rw [hexport, hhead, hmap₀]
  rfl

end Board
end FK1
