import Mathlib.Data.Finset.Max
import FK1.DiskRead
import FK1.FieldCells
import FK1.Lib.EvenCircle

/-!
# FK1.SectorRead

A sector read end to end: from the raw image in the file to the bytes the CPU has read.

* `NextMark`: the slot whose mark comes to the head next.
* `Board.field_read`: what a polling CPU has read of an ID field or a data field, at every moment.
* `next_id_mark`, `next_data_mark`: which field comes next, by where the disk stands.
-/

namespace FK1

open Ibm3740SectorImage

/-! ## The next mark -/

/-- How far the disk turns from `phase` until the mark of a slot is at the head. -/
def untilMark (rdm : Bool) (phase slot : Nat) : Nat :=
  Circle.wait revolutionTicks phase (fieldStart rdm slot * byteTicks)

structure NextMark (rdm : Bool) (phase slot : Nat) : Prop where
  lt : slot < 26
  first : ∀ slot' < 26, untilMark rdm phase slot ≤ untilMark rdm phase slot'

theorem exists_nextMark (rdm : Bool) (phase : Nat) : ∃ slot, NextMark rdm phase slot := by
  obtain ⟨slot, hslot, hfirst⟩ := Finset.exists_min_image (Finset.range 26) (untilMark rdm phase)
    ⟨0, Finset.mem_range.mpr (by decide)⟩
  exact ⟨slot, Finset.mem_range.mp hslot, fun slot' h => hfirst slot' (Finset.mem_range.mpr h)⟩

theorem NextMark.same {rdm : Bool} {phase slot slot' : Nat} (h : NextMark rdm phase slot)
    (h' : NextMark rdm phase slot') : untilMark rdm phase slot = untilMark rdm phase slot' :=
  Nat.le_antisymm (h.first slot' h'.lt) (h'.first slot h.lt)

theorem fieldStart_lt (rdm : Bool) {slot : Nat} (hslot : slot < 26) :
    fieldStart rdm slot * byteTicks < revolutionTicks := by
  unfold fieldStart byteTicks revolutionTicks
  cases rdm <;> simp only [if_true, Bool.false_eq_true, if_false] <;> omega

theorem field_end (rdm : Bool) {slot n : Nat} (hslot : slot < 26) (hn : n ≤ fieldLength rdm) :
    (fieldStart rdm slot + n) * byteTicks ≤ revolutionTicks ∧ fieldStart rdm slot + n ≤ 5208 := by
  unfold fieldStart fieldLength byteTicks revolutionTicks at *
  cases rdm <;> simp only [if_true, Bool.false_eq_true, if_false] at * <;> omega

/-- From the next mark on, one more cell of the field passes with every byte time. -/
theorem field_passed {rdm : Bool} {sectorMap image : Nat → Byte} {track phase slot n : Nat}
    {t : FloppyTrack} (h : FormattedTrack sectorMap image track t.bytes) (hmarked : Marked t.bytes)
    (hphase : phase < revolutionTicks) (hnext : NextMark rdm phase slot) (hn : n ≤ fieldLength rdm)
    (elapsed : Nat) :
    (fieldOf rdm (t.passed phase elapsed)).take n =
      ((field rdm slot t.bytes).take n).take
        (Circle.count byteTicks (elapsed - untilMark rdm phase slot)) := by
  obtain ⟨c, hc, haccepted, htick⟩ := field_mark rdm h hnext.lt
  have hfirst : ∀ y ∈ t.bytes, DiskSide.selectedMark rdm y = true →
      Circle.wait revolutionTicks phase c.tick ≤ Circle.wait revolutionTicks phase y.tick := by
    intro y hy hmark
    obtain ⟨slot', hslot', htick'⟩ := mark_field h hmarked hy hmark
    rw [htick, htick']
    exact hnext.first slot' hslot'
  obtain ⟨hturn, hlength⟩ := field_end rdm hnext.lt hn
  have hpassed := Circle.dropWhile_passed t.sorted t.spaced.lt hc haccepted hphase hfirst elapsed
  have heven : Circle.Even TimedFmByte.tick byteTicks t.bytes := h.ticks
  have hfield : (field rdm slot t.bytes).take n = (t.bytes.drop (fieldStart rdm slot)).take n := by
    rw [field, List.take_take, Nat.min_eq_left hn]
  rw [fieldOf, FloppyTrack.passed, hpassed, htick, hfield,
    Circle.take_passed_even byteTicks_pos heven hturn (by rw [h.length]; exact hlength)]
  rfl

/-! ## The data cells -/

theorem layout_dataCell {slot offset : Nat} (hslot : slot < 26) (hoffset : offset < 128) :
    trackLayout[fieldStart true slot + (1 + offset)]? = some (.data slot offset) := by
  have hfield := congrArg (fun cells => cells[1 + offset]?) (layout_field true hslot)
  simp only [List.getElem?_drop, fieldLength, if_true,
    List.getElem?_take_of_lt (show 1 + offset < 131 by omega)] at hfield
  have hlength : offset < ((List.range 128).map (Cell.data slot)).length := by simpa using hoffset
  rw [hfield, fieldLayout, if_pos rfl, Nat.add_comm 1 offset, List.cons_append, List.getElem?_cons_succ,
    List.getElem?_append_left hlength, List.getElem?_map, List.getElem?_range hoffset]
  rfl

/-- A byte of a sector is on the track behind the data mark. -/
theorem writeOffset_dataCell {slot offset : Nat} (hslot : slot < 26) (hoffset : offset < 128)
    (map : Nat → Byte) (track : Fin 77) (data clocks : Byte) :
    writeOffset map ⟨track, ⟨(fieldStart true slot + (1 + offset)) * byteTicks, data, clocks⟩⟩ =
      some (rawOffset track (map slot) + offset) := by
  unfold writeOffset
  dsimp only
  rw [Nat.mul_div_cancel _ byteTicks_pos, layout_dataCell hslot hoffset, Option.bind_some, cellOffset]

/-- The first slot holds sector 1. -/
theorem default_firstSlot {map : Nat → Byte} (h : sectorMap defaultSectorSkew = some map) :
    map 0 = 1#8 := by
  have hslot : (sectorMap defaultSectorSkew).map (fun m => m 0) = some 1#8 := by decide
  rw [h] at hslot
  exact Option.some.inj hslot

/-! ## Imported and written disks -/

/-- The disk is a file's image, imported and then written. -/
structure WrittenImport (file : List Byte) (sectorMap : Nat → Byte) (writes : List TrackWrite)
    (disk : FloppyDiskImage) : Prop where
  imported : ∃ skew disk₀, importImage file skew = some disk₀ ∧
    FK1.Ibm3740SectorImage.sectorMap skew = some sectorMap ∧ writeCells disk₀ writes = some disk
  regular : ∀ w ∈ writes, Regular w

variable {file : List Byte} {sectorMap : Nat → Byte} {writes : List TrackWrite}
  {disk : FloppyDiskImage}

theorem WrittenImport.legible (h : WrittenImport file sectorMap writes disk) :
    LegibleDisk sectorMap (replaced sectorMap file writes) disk := by
  obtain ⟨skew, disk₀, himport, hmap, hwrites⟩ := h.imported
  exact (writeCells_legible (import_legible himport hmap) h.regular hwrites).1

/-- A track that has not been written still has the CRCs it was imported with. -/
theorem WrittenImport.verifies (h : WrittenImport file sectorMap writes disk) {t : Fin 77}
    (hsame : ∀ w ∈ writes, w.track ≠ t) : Verifies (disk.tracks t).bytes := by
  obtain ⟨skew, disk₀, himport, hmap, hwrites⟩ := h.imported
  obtain ⟨disk₁, hdisk₁, htracks⟩ := import_tracks (import_accepts himport).1 hmap
  cases himport.symm.trans hdisk₁
  rw [(writeCells_legible (import_legible himport hmap) h.regular hwrites).2 t hsame, htracks t]
  exact verifies_appendAll (trackCells_verify file sectorMap t.val)

namespace Board

variable {b b' : Board} {n elapsed : Nat} {bytes : List Byte}

/-! ## One field -/

/-- A CPU that polls, on an imported and written disk. Of the field whose mark comes to the head next
it has read, but for a byte that still waits in port B, one byte with every byte time from the mark
on, up to the programmed count: the mark, the ID of the sector or its data as the file would be saved,
and a CRC that checks if the track has not been written. OUT2 rises with the last byte. -/
theorem field_read (hb : b.Coherent) (hdisk : b.floppy.selectedDrive.image = some disk)
    (hwritten : WrittenImport file sectorMap writes disk) (hs : b.ReadStarts n)
    (hn : n < fieldLength b.disk.aux.dataMarkSelected) (hrun : Polls b elapsed bytes b') :
    let rdm := b.disk.aux.dataMarkSelected
    let track := b.floppy.selectedDrive.headTrack
    ∃ slot mark crc, NextMark rdm b.floppy.phase slot ∧ MarkByte rdm mark ∧ crc.length = 2 ∧
      let contents :=
        mark :: fieldValues rdm (replaced sectorMap file writes) track (sectorMap slot) ++ crc
      let passed := elapsed - untilMark rdm b.floppy.phase slot
      bytes ++ (if b'.diskData.intrB then [b'.diskData.portBInputLatch] else []) =
          (contents.take (n + 1)).take (Circle.count byteTicks passed) ∧
        (b'.timer.output 2 = true ↔ n * byteTicks < passed) ∧
        ((∀ w ∈ writes, w.track ≠ track) → crc16 contents = 0#16) := by
  intro rdm track
  have hlegible := hwritten.legible
  have hformatted := hlegible.tracks track
  have hcurrent : b.floppy.currentTrack = disk.tracks track := by
    unfold FloppySubsystem.currentTrack
    rw [hdisk]
  obtain ⟨slot, hnext⟩ := exists_nextMark rdm b.floppy.phase
  obtain ⟨mark, crc, hmark, hcrc, hcontents⟩ := field_contents rdm hformatted hnext.lt
  obtain ⟨hreading, _⟩ := hrun.reading hb hs
  have hpassed := field_passed hformatted (hlegible.marked track) b.floppy.phase_lt hnext hn elapsed
  rw [← hcurrent] at hpassed
  have htaken := hreading.taken
  rw [show b.floppy.stream elapsed = b.floppy.currentTrack.passed b.floppy.phase elapsed from rfl,
    hpassed, List.map_take, List.map_take, hcurrent, hcontents] at htaken
  refine ⟨slot, mark, crc, hnext, hmark, hcrc, htaken, ?_, fun hsame => ?_⟩
  · have hlength := congrArg List.length hpassed
    rw [List.length_take, List.length_take, List.length_take, hcurrent,
      field_length rdm hformatted hnext.lt] at hlength
    have hterminal : b'.timer.output 2 = decide
        (n < (fieldOf rdm (b.floppy.currentTrack.passed b.floppy.phase elapsed)).length) :=
      hreading.terminal
    have hfits : n < fieldLength rdm := hn
    rw [← Circle.lt_count byteTicks_pos, hterminal, decide_eq_true_iff, hcurrent]
    omega
  · rw [← hcontents]
    exact field_verifies rdm hformatted hnext.lt (hwritten.verifies hsame)

/-! ## An ID field and its data field -/

/-- `g` is `f` with the same disk under the head, `elapsed` ticks further. -/
structure TurnedBy (f g : FloppySubsystem) (elapsed : Nat) : Prop where
  image : g.selectedDrive.image = f.selectedDrive.image
  head : g.selectedDrive.headTrack = f.selectedDrive.headTrack
  phase : g.phase = (f.phase + elapsed) % revolutionTicks

/-- While a CPU polls the disk only turns. -/
theorem Polls.turned (h : Polls b elapsed bytes b') (hb : b.Coherent) (hs : b.ReadStarts n)
    (hinserted : b.floppy.selectedDrive.image.isSome = true) :
    TurnedBy b.floppy b'.floppy elapsed := by
  have hn : 0 < n := by
    have hpos := (hb.counter2.runs hs.mode hs.loaded hs.terminal).2
    rwa [hs.count] at hpos
  induction h with
  | start => exact ⟨rfl, rfl, (Nat.mod_eq_of_lt b.floppy.phase_lt).symm⟩
  | @advance elapsed bytes b' cycles hrun hshort hfree ih =>
    have hcoherent := hrun.coherent hb
    obtain ⟨hreading, _⟩ := hrun.reading hb hs
    have hfree' : b'.diskSide.diskData.intrB = true → b'.diskSide.floppy.stream (cycles * 3) = [] :=
      fun hi => (b'.floppy.visitBytes_eq_stream _).symm.trans (hfree hi)
    obtain ⟨_, hfloppy⟩ := hreading.advance hs.aux hn hcoherent.ready (Nat.le_of_lt hshort) hfree'
      ((b'.timerClockAccumulator + cycles * 3) / 12)
    rw [← advanceTime_diskSide hcoherent.steady cycles] at hfloppy
    have hturned : (b'.act (.advance cycles)).floppy = b'.floppy.advance (cycles * 3) := hfloppy
    obtain ⟨hhead, himage, _⟩ := b'.floppy.selectedDrive.advance_headTrack (cycles * 3)
    rw [hturned]
    refine ⟨himage.trans ih.image, hhead.trans ih.head, ?_⟩
    rw [FloppySubsystem.advance_phase (by rw [ih.image]; exact hinserted), ih.phase, Nat.mod_add_mod,
      Nat.add_assoc]
  | @read elapsed bytes b' port value hrun hp hfull hread ih =>
    have hsame : (b'.act (.host (.readIo port))).floppy = b'.floppy := by
      show (b'.readIo port).2.diskSide.floppy = _
      rw [(readData_eq hp).2, (DiskSide.refresh_handles _).floppy]
      rfl
    rw [hsame]
    exact ih
  | @other elapsed bytes b' a hrun hspares ih =>
    have hsame : (b'.act a).floppy = b'.floppy := congrArg DiskSide.floppy hspares
    rw [hsame]
    exact ih

/-- Where the disk stands when the ID mark has come to the head and passed. -/
theorem position_after {phase slot turned : Nat} (hphase : phase < revolutionTicks)
    (hid : NextMark false phase slot) (hlate : untilMark false phase slot < turned)
    (hsoon : turned ≤ untilMark false phase slot + 24 * byteTicks) :
    ∃ ahead, 0 < ahead ∧ turned = untilMark false phase slot + ahead ∧
      fieldStart false slot * byteTicks + ahead < revolutionTicks ∧
      (phase + turned) % revolutionTicks = fieldStart false slot * byteTicks + ahead := by
  obtain ⟨ahead, rfl⟩ := Nat.exists_eq_add_of_le (Nat.le_of_lt hlate)
  have hlt := hid.lt
  have hbefore : fieldStart false slot * byteTicks + ahead < revolutionTicks := by
    unfold fieldStart byteTicks revolutionTicks at *
    simp only [Bool.false_eq_true, if_false]
    omega
  refine ⟨ahead, by omega, rfl, hbefore, ?_⟩
  rw [← Nat.add_assoc, ← Nat.mod_add_mod, untilMark,
    Circle.add_wait hphase (fieldStart_lt false hid.lt), Nat.mod_eq_of_lt hbefore]

/-- From within an ID field, or the gap behind it, the next data mark is that of the same slot. -/
theorem next_data_mark {phase slot slot' turned : Nat} (hphase : phase < revolutionTicks)
    (hid : NextMark false phase slot) (hlate : untilMark false phase slot < turned)
    (hsoon : turned ≤ untilMark false phase slot + 24 * byteTicks)
    (hdata : NextMark true ((phase + turned) % revolutionTicks) slot') : slot' = slot := by
  obtain ⟨ahead, -, rfl, hbefore, hposition⟩ := position_after hphase hid hlate hsoon
  have hlt := hid.lt
  have hlt' := hdata.lt
  have hfirst := hdata.first slot hid.lt
  rw [hposition, untilMark, untilMark, Circle.wait_eq hbefore (fieldStart_lt true hdata.lt),
    Circle.wait_eq hbefore (fieldStart_lt true hid.lt)] at hfirst
  unfold fieldStart byteTicks revolutionTicks at *
  simp only [if_true, Bool.false_eq_true, if_false] at *
  split at hfirst <;> split at hfirst <;> omega

/-- From there the next ID mark is that of the following slot. -/
theorem next_id_mark {phase slot slot' turned : Nat} (hphase : phase < revolutionTicks)
    (hid : NextMark false phase slot) (hlate : untilMark false phase slot < turned)
    (hsoon : turned ≤ untilMark false phase slot + 24 * byteTicks)
    (hnext : NextMark false ((phase + turned) % revolutionTicks) slot') :
    slot' = (slot + 1) % 26 := by
  obtain ⟨ahead, hahead, rfl, hbefore, hposition⟩ := position_after hphase hid hlate hsoon
  have hlt := hid.lt
  have hlt' := hnext.lt
  have hfollowing : (slot + 1) % 26 < 26 := Nat.mod_lt _ (by decide)
  have hfirst := hnext.first _ hfollowing
  rw [hposition, untilMark, untilMark, Circle.wait_eq hbefore (fieldStart_lt false hnext.lt),
    Circle.wait_eq hbefore (fieldStart_lt false hfollowing)] at hfirst
  unfold fieldStart byteTicks revolutionTicks at *
  simp only [Bool.false_eq_true, if_false] at *
  split at hfirst <;> split at hfirst <;> omega

end Board
end FK1
