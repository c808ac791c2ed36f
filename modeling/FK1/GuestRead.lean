import FK1.DiskFiles
import FK1.SectorRead

/-!
# FK1.GuestRead

The reading of a sector as the hardware specification has it: software programs counter 2, sets RE
and takes the ID fields one after another; behind the one it looks for it sets RDM too and takes the
data field.

* `startRead`, `poll`, `pollBytes`, `readField`, `readSector`: that software.
* `Board.readField_spec`: it takes the whole field that comes to the head next.
* `Board.sector_found`: it finds every sector of the track.
-/

namespace FK1

open Ibm3740SectorImage

theorem Pit8253.write_mode (t : Pit8253) {registerIndex value : Byte} {i : Fin 3}
    (hr : channelIndex registerIndex = none) (hi : channelIndex (value >>> 6) = some i)
    (ha : PitChannel.controlAccess value ≠ .latch) :
    t.write registerIndex value = t.modify i (·.configure value) := by
  unfold write
  rw [hr, hi]
  exact if_neg ha

theorem Pit8253.write_counter (t : Pit8253) {registerIndex : Byte} {i : Fin 3}
    (hr : channelIndex registerIndex = some i) (value : Byte) :
    t.write registerIndex value = t.modify i (·.write value) := by
  unfold write
  rw [hr]

/-- A count of one byte. -/
theorem decodeCount_byte {count : Byte} (h : count ≠ 0#8) :
    decodeCount (count.setWidth 16) false = count.toNat := by
  have htoNat : (count.setWidth 16).toNat = count.toNat := BitVec.toNat_setWidth_of_le (by decide)
  have hne : count.setWidth 16 ≠ 0#16 := by
    intro he
    rw [he] at htoNat
    exact h (BitVec.eq_of_toNat_eq htoNat.symm)
  simp only [decodeCount, Bool.not_false, if_true, if_neg hne, htoNat]

namespace Board

variable {b b' : Board} {n elapsed : Nat} {bytes : List Byte}

/-- Software may start a read: the timing logic runs, no cell is being read, and port B of the data
8255 listens and is empty. -/
structure MayRead (b : Board) : Prop where
  timing : b.disk.timingEnabled = true
  hunting : b.disk.syncLatch = false
  listening : DiskSide.Listening b.diskData
  empty : b.diskData.ibfB = false

/-- The port writes that start a read of `count` bytes after the mark. -/
def startRead (rdm : Bool) (count : Byte) : List Action :=
  [.host (.writeIo 0x13#16 0x90#8), .host (.writeIo 0x12#16 count),
    .host (.writeIo 0x50#16 (if rdm then 0x05#8 else 0x01#8))]

theorem writeTimer_diskSide {port : Word} (hp : ioGroup port = 1) (value : Byte) :
    (b.writeIo port value).diskSide =
      { b.diskSide with
        counter1 := (b.timer.write (registerOf port) value).channels 1
        counter2 := (b.timer.write (registerOf port) value).channels 2
        diskTimeoutLatch :=
          !programsCounterOne (registerOf port) value && b.diskTimeoutLatch }.refresh := by
  unfold writeIo
  rw [hp]
  refine (refreshSources_diskSide _).trans (congrArg DiskSide.refresh ?_)
  unfold writeTimer
  dsimp only
  split
  next hprograms => rw [hprograms]; rfl
  next hprograms =>
    rw [Bool.not_eq_true] at hprograms
    rw [hprograms]
    rfl

theorem MayRead.quiet (h : b.MayRead) (hb : b.Coherent) : b.diskSide.dataInterrupt = false := by
  show (b.diskData.intrA || b.diskData.intrB) = false
  rw [h.listening.intrA, intrB_of_empty hb.atRest h.listening.strobed h.empty]
  rfl

/-- A write to counter 2 that leaves OUT2 low. -/
theorem writeCounter2_diskSide {port : Word} (hp : ioGroup port = 1) {value : Byte}
    (hprograms : programsCounterOne (registerOf port) value = false) {f : PitChannel → PitChannel}
    (hwrite : b.timer.write (registerOf port) value = b.timer.modify 2 f)
    (hlow : (f (b.timer.channels 2)).output = false) (hquiet : b.diskSide.dataInterrupt = false) :
    (b.writeIo port value).diskSide =
      { b.diskSide with
        disk := { b.disk with dataInterruptLevel := false }
        counter2 := f (b.timer.channels 2) } := by
  rw [writeTimer_diskSide hp, hwrite, hprograms, Pit8253.modify_self,
    Pit8253.modify_other b.timer f (show (1 : Fin 3) ≠ 2 by decide)]
  exact DiskSide.refresh_of_low hquiet hlow

theorem startRead_starts (hb : b.Coherent) (h : b.MayRead) (rdm : Bool) {count : Byte}
    (hcount : count ≠ 0#8) :
    (Run.run act b (startRead rdm count)).ReadStarts count.toNat ∧
      (Run.run act b (startRead rdm count)).disk.aux.dataMarkSelected = rdm ∧
      (Run.run act b (startRead rdm count)).floppy = b.floppy := by
  let b₁ := b.act (.host (.writeIo 0x13#16 0x90#8))
  let b₂ := b₁.act (.host (.writeIo 0x12#16 count))
  have hquiet := h.quiet hb
  have hmode : b.timer.write (registerOf 0x13#16) 0x90#8 = b.timer.modify 2 (·.configure 0x90#8) :=
    b.timer.write_mode (by decide) (by decide) (by decide)
  have h₁ : b₁.diskSide = { b.diskSide with
      disk := { b.disk with dataInterruptLevel := false }
      counter2 := (b.timer.channels 2).configure 0x90#8 } := by
    have hlow : ((b.timer.channels 2).configure 0x90#8).output = false := rfl
    show (b.writeIo 0x13#16 0x90#8).diskSide = _
    exact writeCounter2_diskSide (by decide) (by decide) hmode hlow hquiet
  have hchannel : b₁.timer.channels 2 = (b.timer.channels 2).configure 0x90#8 :=
    congrArg DiskSide.counter2 h₁
  have hload : (b₁.timer.channels 2).write count = (b₁.timer.channels 2).load (count.setWidth 16) := by
    rw [hchannel]
    rfl
  have hprograms : programsCounterOne (registerOf 0x12#16) count = false := rfl
  have h₂ : b₂.diskSide = { b.diskSide with
      disk := { b.disk with dataInterruptLevel := false }
      counter2 := ((b.timer.channels 2).configure 0x90#8).load (count.setWidth 16) } := by
    refine (writeCounter2_diskSide (by decide) hprograms
      (b₁.timer.write_counter (i := 2) (by decide) count) ?_ ?_).trans ?_
    · rw [hload, hchannel]
      rfl
    · rw [h₁]; exact hquiet
    · rw [hload, hchannel, show b₁.disk = _ from congrArg DiskSide.disk h₁, h₁]
  have h₃ : (Run.run act b (startRead rdm count)).diskSide =
      { b.diskSide with
        disk := { b.disk with
          dataInterruptLevel := false
          aux := { readEnabled := true, dataMarkSelected := rdm }
          ordinaryWriteActive := false
          formatWriteActive := false }
        counter2 := ((b.timer.channels 2).configure 0x90#8).load (count.setWidth 16) } := by
    show (b₂.writeIo 0x50#16 (if rdm then 0x05#8 else 0x01#8)).diskSide = _
    have haux : b₂.diskSide.writeAux (if rdm then 0x05#8 else 0x01#8) = { b₂.diskSide with
        disk := { b₂.disk with
          aux := { readEnabled := true, dataMarkSelected := rdm }
          ordinaryWriteActive := false
          formatWriteActive := false } } := by
      have htiming : b₂.diskSide.disk.timingEnabled = true := by rw [h₂]; exact h.timing
      unfold DiskSide.writeAux
      rw [htiming]
      cases rdm <;>
        simp [DiskAuxControl.write, hasBits, show b₂.diskSide.disk = b₂.disk from rfl]
    rw [writeAux_diskSide (by decide), haux, h₂, show b₂.disk = _ from congrArg DiskSide.disk h₂]
    refine DiskSide.refresh_of_low hquiet ?_
    rfl
  have hdisk := congrArg DiskSide.disk h₃
  have hdata := congrArg DiskSide.diskData h₃
  have hcounter := congrArg DiskSide.counter2 h₃
  simp only [diskSide] at hdisk hdata hcounter
  refine ⟨⟨?_, ?_, ?_, ?_, ?_, ?_, ?_, ?_, ?_⟩, ?_, congrArg DiskSide.floppy h₃⟩
  · rw [hdisk]; exact h.timing
  · rw [Pit8253.output, hcounter]; rfl
  · rw [hcounter]; rfl
  · rw [hcounter]; rfl
  · rw [hcounter]; exact decodeCount_byte hcount
  · rw [hdisk]; exact h.hunting
  · rw [hdisk]; exact ⟨rfl, rfl, rfl⟩
  · rw [hdata]; exact h.listening
  · rw [hdata]; exact h.empty
  · rw [hdisk]

/-- After a read software may start the next one. -/
theorem Polls.mayRead (h : Polls b elapsed bytes b') (hb : b.Coherent) (hs : b.ReadStarts n)
    (hfree : b'.diskData.intrB = false) (hdone : b'.timer.output 2 = true) : b'.MayRead := by
  obtain ⟨hreading, _⟩ := h.reading hb hs
  have hcoherent := h.coherent hb
  have hlistening : DiskSide.Listening b'.diskData := hreading.listening
  refine ⟨hreading.timing, ?_, hlistening, ?_⟩
  · exact (hcoherent.endOfData hdone).2.1
  · have hmode : b'.diskData.groupBMode = .mode1 ∧ b'.diskData.portBInputMode = true := by
      simpa [Ppi8255.strobedInputB] using hlistening.strobed
    have hupdated := congrArg Ppi8255.intrB hcoherent.atRest.updated
    simpa [Ppi8255.updateInterrupts, hmode, hlistening.inteB, hcoherent.atRest.strobeB, hfree] using hupdated

/-! ## The polling loop -/

/-- One turn of the loop: software that is back after some cycles looks at INTR_B on port 22h and takes
the byte that waits on port 21h. -/
def poll (pace : Board → Nat) (b : Board) : List Byte × Board :=
  let b := b.act (.advance (pace b))
  let (status, b) := b.readIo 0x22#16
  if hasBits status 0x01#8 then
    let (value, b) := b.readIo 0x21#16
    ([value], b)
  else ([], b)

/-- The loop, until `count` bytes have been taken. -/
def pollBytes (pace : Board → Nat) : Nat → Nat → Board → List Byte × Board
  | 0, _, b => ([], b)
  | turns + 1, count, b =>
    if count = 0 then ([], b)
    else
      let (new, b) := poll pace b
      let (rest, b) := pollBytes pace turns (count - new.length) b
      (new ++ rest, b)

/-- However long it takes in a state, a turn is under a byte time. -/
def Prompt (pace : Board → Nat) : Prop := ∀ b, 0 < pace b ∧ pace b * 3 < byteTicks

variable {pace : Board → Nat}

theorem setBit_zero (value : Byte) (high : Bool) :
    hasBits (Ppi8255.setBit value 0 high) 0x01#8 = high := by
  have hall : ∀ value : Byte, hasBits (Ppi8255.setBit value 0 high) 0x01#8 = high := by
    cases high <;> decide +kernel
  exact hall value

/-- Port 22h shows INTR_B, and looking at it changes nothing. -/
theorem readStatus (hb : b.Coherent) (hin : b.diskData.strobedInputB = true) :
    hasBits (b.readIo 0x22#16).1 0x01#8 = b.diskData.intrB ∧ b.Spares (.host (.readIo 0x22#16)) := by
  have hmode : b.diskData.groupBMode = .mode1 := by
    simp only [Ppi8255.strobedInputB, Bool.and_eq_true, beq_iff_eq] at hin
    exact hin.1
  constructor
  · have hvalue : (b.readIo 0x22#16).1 = b.diskData.readPortC := rfl
    rw [hvalue, Ppi8255.readPortC, hmode]
    exact setBit_zero _ _
  · have hside : (b.readIo 0x22#16).2.diskSide = b.diskSide.refresh := readData_diskSide rfl
    show (b.readIo 0x22#16).2.diskSide = b.diskSide
    rw [hside, ← refreshSources_diskSide, Steady.refresh_diskSide hb.steady]

/-- A loop shorter than a byte time keeps up. -/
theorem poll_polls (hb : b.Coherent) (hs : b.ReadStarts n) (hrun : Polls b elapsed bytes b')
    (hfree : b'.diskData.intrB = false) (hpace : Prompt pace) :
    Polls b (elapsed + pace b' * 3) (bytes ++ (poll pace b').1) (poll pace b').2 ∧
      (poll pace b').2.diskData.intrB = false ∧ (poll pace b').1.length ≤ 1 := by
  have hturn : Polls b (elapsed + pace b' * 3) bytes (b'.act (.advance (pace b'))) :=
    hrun.advance (hpace b').2 fun hi => absurd hi (by rw [hfree]; decide)
  have hlistening := (hturn.reading hb hs).1.listening
  obtain ⟨hstatus, hspares⟩ := readStatus (hturn.coherent hb) hlistening.strobed
  have hlook : Polls b (elapsed + pace b' * 3) bytes
      ((b'.act (.advance (pace b'))).readIo 0x22#16).2 := hturn.other hspares
  have hseen : ((b'.act (.advance (pace b'))).readIo 0x22#16).2.diskData.intrB =
      (b'.act (.advance (pace b'))).diskData.intrB :=
    congrArg (fun s => s.diskData.intrB) (show DiskSide.mk .. = _ from hspares)
  unfold poll
  dsimp only
  rw [hstatus, ← hseen]
  generalize ((b'.act (.advance (pace b'))).readIo 0x22#16).2 = b₁ at hlook
  split
  next hi =>
    have hport : DataPort 0x21#16 := ⟨by decide, by decide⟩
    have hread : Polls b (elapsed + pace b' * 3) (bytes ++ [(b₁.readIo 0x21#16).1])
        (b₁.readIo 0x21#16).2 := hlook.read hport hi rfl
    refine ⟨hread, ?_, Nat.le_refl 1⟩
    -- the byte that has been taken does not wait any more
    have hbefore := congrArg List.length (hlook.reading hb hs).1.taken
    have hafter := congrArg List.length (hread.reading hb hs).1.taken
    rw [show b₁.diskSide.diskData.intrB = true from hi, if_pos rfl] at hbefore
    rw [← hbefore, List.length_append, List.length_append, List.length_singleton, List.length_append,
      List.length_singleton] at hafter
    by_contra hfull
    rw [Bool.not_eq_false] at hfull
    have hwaits : (b₁.readIo 0x21#16).2.diskSide.diskData.intrB = true := hfull
    rw [hwaits, if_pos rfl, List.length_singleton] at hafter
    omega
  next hi => exact ⟨by rw [List.append_nil]; exact hlook, by simpa using hi, Nat.zero_le 1⟩

/-- The loop ends with the turn in which the last byte is taken. -/
theorem pollBytes_polls (hb : b.Coherent) (hs : b.ReadStarts n) (hpace : Prompt pace)
    {total : Nat} (turns : Nat) (hrun : Polls b elapsed bytes b') (hfree : b'.diskData.intrB = false)
    (hless : bytes.length ≤ total) :
    ∃ taken time, let r := pollBytes pace turns (total - bytes.length) b'
      Polls b (elapsed + time) (bytes ++ r.1) r.2 ∧ r.2.diskData.intrB = false ∧
        (bytes ++ r.1).length ≤ total ∧ ((bytes ++ r.1).length < total → taken = turns) ∧
        taken * 3 ≤ time ∧ (taken = 0 → time = 0) ∧
        (taken ≠ 0 → ∃ before b'' time', Polls b (elapsed + time') before b'' ∧
          b''.diskData.intrB = false ∧ before.length < total ∧ time < time' + byteTicks) := by
  induction turns generalizing elapsed bytes b' with
  | zero =>
    refine ⟨0, 0, ?_, hfree, ?_, fun _ => rfl, Nat.le_refl _, fun _ => rfl, fun h => absurd rfl h⟩
    · simpa [pollBytes] using hrun
    · simpa [pollBytes] using hless
  | succ turns ih =>
    by_cases hdone : total - bytes.length = 0
    · refine ⟨0, 0, ?_, ?_, ?_, fun h => ?_, Nat.le_refl _, fun _ => rfl, fun h => absurd rfl h⟩
      · simpa [pollBytes, hdone] using hrun
      · simpa [pollBytes, hdone] using hfree
      · simpa [pollBytes, hdone] using hless
      · simp only [pollBytes, hdone, if_true, List.append_nil] at h
        omega
    · obtain ⟨hpoll, hfree', hone⟩ := poll_polls hb hs hrun hfree hpace
      obtain ⟨taken, time, hrest, hfree'', hle, hless', hticks, hzero, hbefore⟩ := ih hpoll hfree' (by
        rw [List.length_append]; omega)
      have hcount : total - (bytes ++ (poll pace b').1).length =
          total - bytes.length - (poll pace b').1.length := by
        rw [List.length_append]; omega
      have hloop : pollBytes pace (turns + 1) (total - bytes.length) b' =
          ((poll pace b').1 ++ (pollBytes pace turns
              (total - bytes.length - (poll pace b').1.length) (poll pace b').2).1,
            (pollBytes pace turns
              (total - bytes.length - (poll pace b').1.length) (poll pace b').2).2) := by
        rw [pollBytes, if_neg hdone]
      obtain ⟨hpositive, hshort⟩ := hpace b'
      rw [hcount] at hrest hfree'' hle hless'
      rw [hloop]
      have hticks' : (taken + 1) * 3 ≤ pace b' * 3 + time := by
        clear hbefore
        omega
      refine ⟨taken + 1, pace b' * 3 + time, ?_, hfree'', ?_, fun h => ?_, hticks',
        fun h => absurd h (Nat.succ_ne_zero taken), fun _ => ?_⟩
      · rw [← List.append_assoc, ← Nat.add_assoc]
        exact hrest
      · rw [← List.append_assoc]; exact hle
      · rw [← List.append_assoc] at h
        rw [hless' h]
      · by_cases hfirst : taken = 0
        · clear hbefore
          rw [hzero hfirst]
          exact ⟨bytes, b', 0, hrun, hfree, by omega, by omega⟩
        · obtain ⟨before, b'', time', hpolls, hfree₀, hlt, hsoon⟩ := hbefore hfirst
          exact ⟨before, b'', pace b' * 3 + time', by rw [← Nat.add_assoc]; exact hpolls, hfree₀, hlt,
            by omega⟩

/-! ## A field -/

/-- The transfers after the mark. -/
def fieldCount (rdm : Bool) : Byte := if rdm then 130#8 else 6#8

/-- A field with its mark and its CRC. -/
def readField (pace : Board → Nat) (rdm : Bool) (b : Board) : List Byte × Board :=
  pollBytes pace revolutionTicks (fieldLength rdm) (Run.run act b (startRead rdm (fieldCount rdm)))

/-- What comes to the head of a track next, a slot's field, and how far the disk turns with it. -/
structure FieldRead (rdm : Bool) (raw : List Byte) (sectorMap : Nat → Byte) (track phase : Nat)
    (bytes : List Byte) (elapsed slot : Nat) : Prop where
  next : NextMark rdm phase slot
  contents : ∃ mark crc, MarkByte rdm mark ∧ crc.length = 2 ∧
    bytes = mark :: fieldValues rdm raw track (sectorMap slot) ++ crc
  late : untilMark rdm phase slot + (fieldLength rdm - 1) * byteTicks < elapsed
  soon : elapsed < untilMark rdm phase slot + fieldLength rdm * byteTicks

theorem fieldValues_length (rdm : Bool) (raw : List Byte) (track : Nat) (sector : Byte) :
    (fieldValues rdm raw track sector).length + 3 = fieldLength rdm := by
  cases rdm <;> simp [fieldValues, fieldLength, sectorData, bytesPerSector, idField]

variable {file : List Byte} {sectorMap : Nat → Byte} {writes : List TrackWrite}
  {disk : FloppyDiskImage}

theorem readField_spec (hb : b.Coherent) (hdisk : b.floppy.selectedDrive.image = some disk)
    (hwritten : WrittenImport file sectorMap writes disk) (hmay : b.MayRead) (hpace : Prompt pace)
    (rdm : Bool) :
    let r := readField pace rdm b
    r.2.Coherent ∧ r.2.MayRead ∧ ∃ elapsed slot, TurnedBy b.floppy r.2.floppy elapsed ∧
      FieldRead rdm (replaced sectorMap file writes) sectorMap b.floppy.selectedDrive.headTrack
        b.floppy.phase r.1 elapsed slot := by
  intro r
  let b₀ := Run.run act b (startRead rdm (fieldCount rdm))
  obtain ⟨hs, hrdm, hfloppy⟩ := startRead_starts hb hmay rdm
    (show fieldCount rdm ≠ 0#8 by cases rdm <;> decide)
  have hb₀ : b₀.Coherent := Run.run_invariant (I := Coherent) (fun _ a h => act_coherent h a) hb _
  have hcount : (fieldCount rdm).toNat + 1 = fieldLength rdm := by cases rdm <;> rfl
  have hlast : (fieldCount rdm).toNat = fieldLength rdm - 1 := by omega
  have hdisk₀ : b₀.floppy.selectedDrive.image = some disk := by rw [hfloppy]; exact hdisk
  have hfits : (fieldCount rdm).toNat < fieldLength b₀.disk.aux.dataMarkSelected := by
    rw [hrdm]; omega
  -- what the loop has taken at its end, and a turn before
  have htaken : ∀ {elapsed : Nat} {bytes : List Byte} {b' : Board}, Polls b₀ elapsed bytes b' →
      b'.diskData.intrB = false → ∃ slot mark crc, NextMark rdm b.floppy.phase slot ∧
        MarkByte rdm mark ∧ crc.length = 2 ∧
        let contents := mark :: fieldValues rdm (replaced sectorMap file writes)
          b.floppy.selectedDrive.headTrack (sectorMap slot) ++ crc
        contents.length = fieldLength rdm ∧
        bytes = contents.take (Circle.count byteTicks (elapsed - untilMark rdm b.floppy.phase slot)) ∧
          (b'.timer.output 2 = true ↔
            (fieldLength rdm - 1) * byteTicks < elapsed - untilMark rdm b.floppy.phase slot) := by
    intro elapsed bytes b' hrun hfree
    obtain ⟨slot, mark, crc, hnext, hmark, hcrc, hbytes, hterminal, -⟩ :=
      field_read hb₀ hdisk₀ hwritten hs hfits hrun
    rw [hrdm, hfloppy] at hnext hbytes hterminal
    rw [hrdm] at hmark
    have hlength : (mark :: fieldValues rdm (replaced sectorMap file writes)
        b.floppy.selectedDrive.headTrack (sectorMap slot) ++ crc).length = fieldLength rdm := by
      rw [List.length_append, List.length_cons, hcrc,
        ← fieldValues_length rdm (replaced sectorMap file writes) b.floppy.selectedDrive.headTrack]
    refine ⟨slot, mark, crc, hnext, hmark, hcrc, hlength, ?_, hlast ▸ hterminal⟩
    rw [hfree, if_neg (by decide), List.append_nil, hcount, List.take_of_length_le hlength.le] at hbytes
    exact hbytes
  have hempty := intrB_of_empty hb₀.atRest hs.listening.strobed hs.empty
  obtain ⟨taken, time, hrun, hfree, hle, hless, hticks, hzero, hbefore⟩ :=
    pollBytes_polls hb₀ hs hpace revolutionTicks .start hempty (Nat.zero_le (fieldLength rdm))
  have hr : pollBytes pace revolutionTicks (fieldLength rdm - ([] : List Byte).length) b₀ = r := by
    rw [List.length_nil, Nat.sub_zero]
    rfl
  rw [hr, List.nil_append, Nat.zero_add] at hrun
  rw [hr] at hfree
  rw [hr, List.nil_append] at hle hless
  obtain ⟨slot, mark, crc, hnext, hmark, hcrc, hlength, hbytes, hterminal⟩ := htaken hrun hfree
  have hall : r.1.length = min (Circle.count byteTicks
      (time - untilMark rdm b.floppy.phase slot)) (fieldLength rdm) := by
    rw [hbytes, List.length_take, hlength]
  have hwait : untilMark rdm b.floppy.phase slot < revolutionTicks := Nat.mod_lt _ (by decide)
  have hfield : (fieldLength rdm - 1) * byteTicks < revolutionTicks := by cases rdm <;> decide
  -- a revolution and the field have passed before the turns run out
  have hwhole : r.1.length = fieldLength rdm := by
    by_contra hne
    have hturns := hless (by omega)
    have hcounted : fieldLength rdm - 1 < Circle.count byteTicks
        (time - untilMark rdm b.floppy.phase slot) := by
      rw [Circle.lt_count byteTicks_pos]
      rw [hturns] at hticks
      omega
    omega
  have hlate : fieldLength rdm - 1 < Circle.count byteTicks
      (time - untilMark rdm b.floppy.phase slot) := by omega
  rw [Circle.lt_count byteTicks_pos] at hlate
  have hstarted : taken ≠ 0 := by
    intro hnone
    rw [hzero hnone, Nat.zero_sub] at hlate
    omega
  obtain ⟨before, b'', time', hrun', hfree', hfew, hsince⟩ := hbefore hstarted
  rw [Nat.zero_add] at hrun'
  obtain ⟨slot', _, _, hnext', _, _, hlength', hbytes', _⟩ := htaken hrun' hfree'
  have hsoon : ¬ fieldLength rdm - 1 < Circle.count byteTicks
      (time' - untilMark rdm b.floppy.phase slot) := by
    intro hlt
    have hall' : before.length = fieldLength rdm := by
      rw [hbytes', List.length_take, hlength', hnext'.same hnext]
      exact Nat.min_eq_right (Nat.le_of_pred_lt hlt)
    exact hfew.ne hall'
  rw [Circle.lt_count byteTicks_pos] at hsoon
  have hturned := hrun.turned hb₀ hs (by rw [hdisk₀]; rfl)
  rw [hfloppy] at hturned
  refine ⟨hrun.coherent hb₀, hrun.mayRead hb₀ hs hfree (hterminal.mpr hlate), _, slot, hturned, hnext,
    ⟨mark, crc, hmark, hcrc, ?_⟩, by omega, ?_⟩
  · rw [hbytes, List.take_of_length_le]
    omega
  · have hsplit : fieldLength rdm * byteTicks = (fieldLength rdm - 1) * byteTicks + byteTicks := by
      cases rdm <;> decide
    omega

/-! ## A sector -/

/-- ID fields are read, at most `fields` of them, until one is that of the sector; then its data. -/
def readSector (pace : Board → Nat) (track : Nat) (sector : Byte) : Nat → Board → Option (List Byte) × Board
  | 0, b => (none, b)
  | fields + 1, b =>
    let (id, b) := readField pace false b
    if id.take 5 = idField track sector then
      let (data, b) := readField pace true b
      (some ((data.drop 1).take bytesPerSector), b)
    else readSector pace track sector fields b

theorem FieldRead.id {raw bytes : List Byte} {track phase elapsed slot : Nat}
    (h : FieldRead false raw sectorMap track phase bytes elapsed slot) :
    bytes.take 5 = idField track (sectorMap slot) := by
  obtain ⟨mark, crc, hmark, -, rfl⟩ := h.contents
  rw [show mark = 0xFE#8 from hmark]
  rfl

theorem FieldRead.data {raw bytes : List Byte} {track phase elapsed slot : Nat}
    (h : FieldRead true raw sectorMap track phase bytes elapsed slot) :
    (bytes.drop 1).take bytesPerSector = sectorData raw track (sectorMap slot) := by
  obtain ⟨mark, crc, -, -, rfl⟩ := h.contents
  have hlength : (sectorData raw track (sectorMap slot)).length = bytesPerSector := by
    simp [sectorData]
  rw [List.cons_append, List.drop_one, List.tail_cons, ← hlength]
  exact List.take_left

theorem idField_injective {track track' : Nat} (h : track < 77) (h' : track' < 77)
    {sector sector' : Byte} (he : idField track sector = idField track' sector') :
    track = track' ∧ sector = sector' := by
  unfold idField at he
  simp only [List.cons.injEq, and_true, true_and] at he
  have htoNat := congrArg BitVec.toNat he.1
  rw [BitVec.toNat_ofNat, BitVec.toNat_ofNat, Nat.mod_eq_of_lt (by omega),
    Nat.mod_eq_of_lt (by omega)] at htoNat
  exact ⟨htoNat, he.2⟩

/-- The ID fields come by in the order of the slots. -/
theorem readSector_spec (hwritten : WrittenImport file sectorMap writes disk) (hpace : Prompt pace)
    (track : Fin 77) (sector : Byte) (fields : Nat)
    (hb : b.Coherent) (hdisk : b.floppy.selectedDrive.image = some disk) (hmay : b.MayRead) :
    ∃ slot, NextMark false b.floppy.phase slot ∧
      (readSector pace track sector fields b).1 =
        if track = b.floppy.selectedDrive.headTrack ∧
            ∃ i < fields, sectorMap ((slot + i) % 26) = sector then
          some (sectorData (replaced sectorMap file writes) track sector)
        else none := by
  induction fields generalizing b with
  | zero =>
    obtain ⟨slot, hnext⟩ := exists_nextMark false b.floppy.phase
    exact ⟨slot, hnext, (if_neg fun h => by obtain ⟨-, i, hi, -⟩ := h; omega).symm⟩
  | succ fields ih =>
    obtain ⟨hb', hmay', elapsed, slot, hturned, hid⟩ :=
      readField_spec hb hdisk hwritten hmay hpace false
    have hdisk' : (readField pace false b).2.floppy.selectedDrive.image = some disk :=
      hturned.image.trans hdisk
    have hlate : untilMark false b.floppy.phase slot < elapsed := by have := hid.late; omega
    have hsoon : elapsed ≤ untilMark false b.floppy.phase slot + 24 * byteTicks := by
      have hlt : fieldLength false * byteTicks ≤ 24 * byteTicks := by decide
      have := hid.soon
      omega
    have hslot : slot % 26 = slot := Nat.mod_eq_of_lt hid.next.lt
    refine ⟨slot, hid.next, ?_⟩
    unfold readSector
    dsimp only
    rw [hid.id]
    by_cases hfound : track = b.floppy.selectedDrive.headTrack ∧ sectorMap slot = sector
    · obtain ⟨rfl, rfl⟩ := hfound
      obtain ⟨-, -, elapsed', slot', -, hdata⟩ :=
        readField_spec hb' hdisk' hwritten hmay' hpace true
      have hnext := hdata.next
      rw [hturned.phase] at hnext
      obtain rfl : slot' = slot := next_data_mark b.floppy.phase_lt hid.next hlate hsoon hnext
      rw [if_pos rfl, if_pos ⟨rfl, 0, Nat.succ_pos _, by rw [Nat.add_zero, hslot]⟩, hdata.data,
        hturned.head]
    · have hother : idField b.floppy.selectedDrive.headTrack (sectorMap slot) ≠ idField track sector := by
        intro he
        obtain ⟨htrack, hsector⟩ :=
          idField_injective b.floppy.selectedDrive.headTrack.isLt track.isLt he
        exact hfound ⟨Fin.ext htrack.symm, hsector⟩
      obtain ⟨slot', hnext', hrest⟩ := ih hb' hdisk' hmay'
      rw [hturned.phase] at hnext'
      obtain rfl : slot' = (slot + 1) % 26 :=
        next_id_mark b.floppy.phase_lt hid.next hlate hsoon hnext'
      rw [if_neg hother, hrest, hturned.head]
      refine if_congr (and_congr_right fun htrack => ⟨?_, ?_⟩) rfl rfl
      · rintro ⟨i, hi, hmap⟩
        refine ⟨i + 1, by omega, ?_⟩
        rw [← hmap, Nat.mod_add_mod]
        congr 2
        omega
      · rintro ⟨i, hi, hmap⟩
        cases i with
        | zero =>
          rw [Nat.add_zero, hslot] at hmap
          exact absurd ⟨htrack, hmap⟩ hfound
        | succ i =>
          refine ⟨i, by omega, ?_⟩
          rw [← hmap, Nat.mod_add_mod]
          congr 2
          omega

/-- Software that looks at INTR_B at least once in every byte time and reads the ID fields of a track reads
the sector it looks for, as it would be saved in the file, within one revolution's ID fields; a sector of
another track, or one that no track has, it does not find. The disk comes from an image file, and what has
been written on it since left the index mark and the ID fields and clocked only data marks as marks. -/
theorem sector_found (hb : b.Reachable) (hdisk : b.floppy.selectedDrive.image = some disk)
    (hwritten : WrittenImport file sectorMap writes disk) (hmay : b.MayRead) (hpace : Prompt pace)
    (track : Fin 77) (sector : Byte) :
    (readSector pace track sector 26 b).1 =
      if track = b.floppy.selectedDrive.headTrack ∧ 1 ≤ sector.toNat ∧ sector.toNat ≤ 26 then
        some (sectorData (replaced sectorMap file writes) track sector)
      else none := by
  obtain ⟨slot, hnext, hresult⟩ :=
    readSector_spec hwritten hpace track sector 26 hb.coherent hdisk hmay
  have hmap := hwritten.legible.map
  rw [hresult]
  refine if_congr (and_congr_right fun _ => ⟨?_, ?_⟩) rfl rfl
  · rintro ⟨i, -, rfl⟩
    exact hmap.range _ (Nat.mod_lt _ (by decide))
  · rintro ⟨hge, hle⟩
    obtain ⟨slot', hslot', he⟩ := hmap.surjective sector.toNat hge hle
    have hlt := hnext.lt
    refine ⟨(slot' + 26 - slot) % 26, Nat.mod_lt _ (by decide), ?_⟩
    rw [Nat.add_mod_mod, show slot + (slot' + 26 - slot) = slot' + 26 by omega, Nat.add_mod_right,
      Nat.mod_eq_of_lt hslot']
    exact BitVec.eq_of_toNat_eq he

/-- A disk is put into the selected drive. -/
theorem insertFloppy_selected (hb : b.Reachable) (h : b.MayRead) (disk : FloppyDiskImage)
    (access : FloppyAccess) :
    let b' := (b.insertFloppy b.floppy.selectedDriveIndex disk access).2
    b'.Reachable ∧ b'.MayRead ∧
      b'.floppy.selectedDrive = b.floppy.selectedDrive.insert disk access := by
  intro b'
  obtain ⟨rom, hrun⟩ := hb
  refine ⟨⟨rom, Run.Reachable.next hrun (.host (.insertFloppy b.floppy.selectedDriveIndex disk access))⟩,
    ⟨h.timing, h.hunting, h.listening, h.empty⟩, ?_⟩
  rw [show b'.floppy = _ from insertFloppy_floppy b b.floppy.selectedDriveIndex disk access]
  simp only [FloppySubsystem.selectedDrive, FloppySubsystem.modify, if_true]

/-- The disk of an image with a first sector of its own, whose first byte has been written since, in the
selected drive of a machine whose ports have been set up. -/
theorem sector_found_written :
    let file := List.replicate 128 0x31#8 ++ List.replicate (imageSize - 128) 0xE5#8
    let b₀ := Run.run act (power []) [.host (.writeIo 0x63#16 0x88#8),
      .host (.writeIo 0x23#16 0xA6#8), .host (.writeIo 0x23#16 0x05#8)]
    let pace : Board → Nat := fun b => if b.disk.syncLatch then 60 else 100
    ∃ disk₀ disk, importImage file defaultSectorSkew = some disk₀ ∧
      writeCells disk₀ [⟨0, ⟨104 * byteTicks, 0x42#8, 0xFF#8⟩⟩] = some disk ∧
      (readSector pace 0 1#8 26 (b₀.insertFloppy b₀.floppy.selectedDriveIndex disk .readOnly).2).1 =
        some (0x42#8 :: List.replicate 127 0x31#8) := by
  intro file b₀ pace
  have hsize : file.length = imageSize := by
    rw [List.length_append, List.length_replicate, List.length_replicate]
    rfl
  obtain ⟨disk₀, hdisk₀⟩ := importImage_default hsize
  obtain ⟨map, hmap, hformatted⟩ := imported_formatted hdisk₀
  have hcell := @layout_dataCell 0 0 (by decide) (by decide)
  have hregular : ∀ w ∈ [(⟨0, ⟨104 * byteTicks, 0x42#8, 0xFF#8⟩⟩ : TrackWrite)], Regular w := by
    intro w hw
    rw [List.mem_singleton.mp hw]
    exact ⟨104, _, rfl, hcell, trivial, fun hclocks => absurd hclocks (by decide)⟩
  obtain ⟨disk, hwrites, -⟩ := writeCells_formatted hformatted fun w hw => (hregular w hw).permitted
  refine ⟨disk₀, disk, hdisk₀, hwrites, ?_⟩
  have hb₀ : b₀.Reachable := ⟨[], _, rfl⟩
  have hmay₀ : b₀.MayRead := ⟨by decide +kernel, by decide +kernel,
    ⟨by decide +kernel, by decide +kernel, by decide +kernel⟩, by decide +kernel⟩
  obtain ⟨hb, hmay, hdrive⟩ := insertFloppy_selected hb₀ hmay₀ disk .readOnly
  have hpace : Prompt pace := by
    intro b
    show 0 < (if b.disk.syncLatch then 60 else 100) ∧
      (if b.disk.syncLatch then 60 else 100) * 3 < byteTicks
    split <;> decide
  have hfound := sector_found hb (by rw [hdrive]; rfl) ⟨⟨_, disk₀, hdisk₀, hmap, hwrites⟩, hregular⟩ hmay
    hpace 0 1#8
  have htrack₀ : b₀.floppy.selectedDrive.headTrack = 0 := by decide +kernel
  have htrack : (b₀.insertFloppy b₀.floppy.selectedDriveIndex disk
      .readOnly).2.floppy.selectedDrive.headTrack = 0 := by
    rw [hdrive]
    exact htrack₀
  have hoffset := @writeOffset_dataCell 0 0 (by decide) (by decide) map 0 0x42#8 0xFF#8
  rw [default_firstSlot hmap] at hoffset
  have hreplaced : replaced map file [⟨0, ⟨104 * byteTicks, 0x42#8, 0xFF#8⟩⟩] = file.set 0 0x42#8 := by
    rw [replaced, List.foldl_cons, show writeOffset map ⟨0, ⟨104 * byteTicks, 0x42#8, 0xFF#8⟩⟩ = _ from hoffset]
    rfl
  rw [htrack, if_pos ⟨rfl, by decide, by decide⟩, hreplaced] at hfound
  exact hfound.trans (by decide +kernel)

end Board
end FK1
