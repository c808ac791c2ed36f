import FK1.DiskWrite
import FK1.MediaHistory
import FK1.SectorRead

/-!
# FK1.SectorWrite

A sector written end to end: from the cells the serializer takes to the raw image in the file.

* `spliced`: an image with one sector's bytes replaced.
* `DataField`: the cells of a data field with the sync bytes before it.
* `DataField.replaced`: written at their place, they replace the sector in the image.
* `WrittenImport.write`: the disk stays one that was imported and written.
-/

namespace FK1
namespace Ibm3740SectorImage

variable {sectorMap : Nat → Byte} {raw data : List Byte} {slot : Nat} {track : Fin 77}

/-! ## The image -/

/-- The image with `data` from `offset` on. -/
def spliced (raw : List Byte) (offset : Nat) (data : List Byte) : List Byte :=
  raw.take offset ++ data ++ raw.drop (offset + data.length)

theorem spliced_nil (raw : List Byte) (offset : Nat) : spliced raw offset [] = raw := by
  simp [spliced]

theorem spliced_set {offset : Nat} (h : offset < raw.length) (value : Byte) (data : List Byte) :
    spliced (raw.set offset value) (offset + 1) data = spliced raw offset (value :: data) := by
  have htake : (raw.set offset value).take (offset + 1) = raw.take offset ++ [value] := by
    rw [List.take_add_one, List.take_set_of_le (Nat.le_refl _), List.getElem?_set_self h]
    rfl
  have hdrop : (raw.set offset value).drop (offset + 1 + data.length) =
      raw.drop (offset + (value :: data).length) := by
    rw [List.drop_set_of_lt (by omega), List.length_cons]
    congr 1
    omega
  rw [spliced, spliced, htake, hdrop]
  simp only [List.append_assoc, List.cons_append, List.nil_append]

/-! ## Cells -/

/-- The cells that software writes for a data field: six sync bytes, the mark, the data and the CRC. -/
structure DataField (data : List Byte) (cells : List TimedFmByte) : Prop where
  parts : ∃ sync mark body crc, cells = sync ++ mark :: (body ++ crc) ∧
    sync.length = 6 ∧ (∀ c ∈ sync, c.clocks ≠ sectorMarkClocks) ∧
    MarkByte true mark.data ∧ mark.clocks = sectorMarkClocks ∧
    body.map TimedFmByte.data = data ∧ (∀ c ∈ body, c.clocks ≠ sectorMarkClocks) ∧
    crc.length = 2 ∧ (∀ c ∈ crc, c.clocks ≠ sectorMarkClocks)
  length : data.length = 128

/-- What they are written over. -/
def dataLayout (slot : Nat) : List Cell := List.replicate 6 Cell.gap ++ fieldLayout true slot

theorem layout_data (hslot : slot < 26) :
    (trackLayout.drop (fieldStart true slot - 6)).take 137 = dataLayout slot := by
  obtain ⟨before, after, hlayout, hbefore⟩ := trackLayout_slot hslot
  have hstart : fieldStart true slot - 6 = before.length + 24 := by
    rw [hbefore, fieldStart, if_pos rfl]
    omega
  have hslots : ((slotLayout slot).drop 24).take 137 = dataLayout slot := rfl
  rw [hlayout, hstart, ← List.drop_drop, List.drop_left, ← hslots, List.drop_append_of_le_length,
    List.take_append_of_le_length]
  · rw [List.length_drop, slotLayout_length]
    decide
  · rw [slotLayout_length]
    decide

/-- The cells are at their places on the track. -/
def AtField (slot : Nat) (cells : List TimedFmByte) : Prop :=
  ∀ i c, cells[i]? = some c → c.tick = (fieldStart true slot - 6 + i) * byteTicks

/-- The byte may be written over the cell, and clocks it as a mark only if it is one. -/
def WritesOver (byte : TimedFmByte) (cell : Cell) : Prop := Permits cell byte ∧ Clocked byte cell

theorem writesOver_all {cells : List TimedFmByte} {layout : List Cell}
    (hclocks : ∀ c ∈ cells, c.clocks ≠ sectorMarkClocks) (hlength : cells.length = layout.length)
    (hlayout : ∀ cell ∈ layout, ∀ byte : TimedFmByte, byte.clocks ≠ sectorMarkClocks →
      Permits cell byte) : List.Forall₂ WritesOver cells layout := by
  refine List.forall₂_iff_get.mpr ⟨hlength, fun i h h' => ?_⟩
  have hc := hclocks _ (List.get_mem cells ⟨i, h⟩)
  exact ⟨hlayout _ (List.get_mem layout ⟨i, h'⟩) _ hc, fun he => absurd he hc⟩

theorem DataField.writesOver {cells : List TimedFmByte} (h : DataField data cells) (slot : Nat) :
    List.Forall₂ WritesOver cells (dataLayout slot) := by
  obtain ⟨sync, mark, body, crc, rfl, hsync, hsync', hmark, hmark', hbody, hbody', hcrc, hcrc'⟩ := h.parts
  have hlength : body.length = 128 := by
    rw [← h.length, ← hbody, List.length_map]
  have hgap : List.Forall₂ WritesOver sync (List.replicate 6 Cell.gap) :=
    writesOver_all hsync' (by rw [hsync, List.length_replicate]) fun cell hcell byte hne => by
      rw [List.eq_of_mem_replicate hcell]
      exact hne
  have hdata : List.Forall₂ WritesOver body ((List.range 128).map (Cell.data slot)) :=
    writesOver_all hbody' (by rw [hlength, List.length_map, List.length_range])
      fun cell hcell byte _ => by
        obtain ⟨offset, -, rfl⟩ := List.mem_map.mp hcell
        trivial
  have hcheck : List.Forall₂ WritesOver crc [Cell.dataCrc, Cell.dataCrc] :=
    writesOver_all hcrc' (by rw [hcrc]; rfl) fun cell hcell byte _ => by
      rw [List.eq_of_mem_replicate (show cell ∈ List.replicate 2 Cell.dataCrc from hcell)]
      trivial
  have hhead : WritesOver mark Cell.dataMark := ⟨⟨hmark, hmark'⟩, fun _ => .inr rfl⟩
  exact forall₂_append hgap (.cons hhead (forall₂_append hdata hcheck))

theorem layout_at (hslot : slot < 26) {i : Nat} (hi : i < 137) :
    trackLayout[fieldStart true slot - 6 + i]? = (dataLayout slot)[i]? := by
  rw [← layout_data hslot, List.getElem?_take_of_lt hi, List.getElem?_drop]

theorem dataLayout_length (slot : Nat) : (dataLayout slot).length = 137 := by
  simp [dataLayout, fieldLayout]

/-- Cells of a data field at their places are regular writes. -/
theorem DataField.regular {cells : List TimedFmByte} (h : DataField data cells) (hslot : slot < 26)
    (hat : AtField slot cells) (track : Fin 77) :
    ∀ w ∈ cells.map (TrackWrite.mk track), Regular w := by
  intro w hw
  obtain ⟨byte, hbyte, rfl⟩ := List.mem_map.mp hw
  obtain ⟨i, hi, rfl⟩ := List.getElem_of_mem hbyte
  obtain ⟨hlen, hover⟩ := List.forall₂_iff_get.mp (h.writesOver slot)
  rw [dataLayout_length] at hlen
  have hlayout : i < (dataLayout slot).length := by rw [dataLayout_length]; omega
  obtain ⟨hpermit, hclocked⟩ := hover i hi hlayout
  refine ⟨fieldStart true slot - 6 + i, (dataLayout slot)[i], hat i _ (List.getElem?_eq_getElem hi), ?_,
    hpermit, hclocked⟩
  rw [layout_at hslot (by omega), List.getElem?_eq_getElem hlayout]

/-! ## The bytes they replace -/

theorem replaced_append (raw : List Byte) (writes writes' : List TrackWrite) :
    replaced sectorMap raw (writes ++ writes') =
      replaced sectorMap (replaced sectorMap raw writes) writes' := List.foldl_append

theorem replaced_none {writes : List TrackWrite}
    (h : ∀ w ∈ writes, writeOffset sectorMap w = none) : replaced sectorMap raw writes = raw := by
  induction writes with
  | nil => rfl
  | cons w writes ih =>
    have hrest := ih fun w' hw' => h w' (List.mem_cons_of_mem _ hw')
    rw [replaced, List.foldl_cons, h w (List.mem_cons_self ..)]
    exact hrest

theorem replaced_run {body : List TimedFmByte} {offset : Nat}
    (h : ∀ i c, body[i]? = some c → writeOffset sectorMap ⟨track, c⟩ = some (offset + i))
    (hroom : offset + body.length ≤ raw.length) :
    replaced sectorMap raw (body.map (TrackWrite.mk track)) =
      spliced raw offset (body.map TimedFmByte.data) := by
  induction body generalizing raw offset with
  | nil => exact (spliced_nil raw offset).symm
  | cons c body ih =>
    rw [List.length_cons] at hroom
    have hnext : ∀ i c', body[i]? = some c' → writeOffset sectorMap ⟨track, c'⟩ = some (offset + 1 + i) := by
      intro i c' hc'
      rw [h (i + 1) c' hc']
      congr 1
      omega
    have hrest := @ih (raw.set offset c.data) (offset + 1) hnext (by rw [List.length_set]; omega)
    rw [spliced_set (by omega)] at hrest
    rw [List.map_cons, replaced, List.foldl_cons, h 0 c rfl]
    exact hrest

/-- Where in the image a data field's cells are. -/
theorem dataLayout_offsets (slot : Nat) :
    (dataLayout slot).map (cellOffset sectorMap track) =
      List.replicate 7 none ++ ((List.range 128).map
        (fun i => some (rawOffset track (sectorMap slot) + i)) ++ List.replicate 2 none) := by
  simp [dataLayout, fieldLayout, cellOffset, List.replicate_succ]

theorem writeOffset_at {cells : List TimedFmByte} (hslot : slot < 26) (hat : AtField slot cells)
    {i : Nat} {c : TimedFmByte} (hc : cells[i]? = some c) {offset : Option Nat}
    (hoffset : ((dataLayout slot).map (cellOffset sectorMap track))[i]? = some offset) :
    writeOffset sectorMap ⟨track, c⟩ = offset := by
  rw [List.getElem?_map, Option.map_eq_some_iff] at hoffset
  obtain ⟨cell, hcell, rfl⟩ := hoffset
  have hi : i < 137 := by
    rw [← dataLayout_length slot]
    exact (List.getElem?_eq_some_iff.mp hcell).1
  unfold writeOffset
  dsimp only
  rw [hat i c hc, Nat.mul_div_cancel _ byteTicks_pos, layout_at hslot hi, hcell, Option.bind_some]

/-- They replace the sector, and nothing else. -/
theorem DataField.replaced {cells : List TimedFmByte} (h : DataField data cells)
    (hmap : SectorMapOk sectorMap) (hsize : raw.length = imageSize) (hslot : slot < 26)
    (hat : AtField slot cells) (track : Fin 77) :
    Ibm3740SectorImage.replaced sectorMap raw (cells.map (TrackWrite.mk track)) =
      spliced raw (rawOffset track (sectorMap slot)) data := by
  obtain ⟨sync, mark, body, crc, rfl, hsync, -, -, -, hbody, -, hcrc, -⟩ := h.parts
  have hlength : body.length = 128 := by
    rw [← h.length, ← hbody, List.length_map]
  have hhead : (sync ++ [mark]).length = 7 := by rw [List.length_append, hsync]; rfl
  rw [List.append_cons] at hat ⊢
  have hlead : ∀ w ∈ (sync ++ [mark]).map (TrackWrite.mk track), writeOffset sectorMap w = none := by
    intro w hw
    obtain ⟨c, hc, rfl⟩ := List.mem_map.mp hw
    obtain ⟨i, hi, rfl⟩ := List.getElem_of_mem hc
    refine writeOffset_at hslot hat (i := i) ?_ ?_
    · rw [List.getElem?_append_left hi, List.getElem?_eq_getElem hi]
    · rw [dataLayout_offsets, List.getElem?_append_left (by rw [List.length_replicate]; omega)]
      exact List.getElem?_replicate_of_lt (by omega)
  have hbytes : ∀ i c, body[i]? = some c →
      writeOffset sectorMap ⟨track, c⟩ = some (rawOffset track (sectorMap slot) + i) := by
    intro i c hc
    have hi := (List.getElem?_eq_some_iff.mp hc).1
    refine writeOffset_at hslot hat (i := 7 + i) ?_ ?_
    · rw [List.getElem?_append_right (by omega), hhead, Nat.add_sub_cancel_left,
        List.getElem?_append_left hi, hc]
    · rw [dataLayout_offsets, List.getElem?_append_right (by simp), List.length_replicate,
        Nat.add_sub_cancel_left, List.getElem?_append_left (by simp; omega), List.getElem?_map,
        List.getElem?_range (by omega)]
      rfl
  have htail : ∀ w ∈ crc.map (TrackWrite.mk track), writeOffset sectorMap w = none := by
    intro w hw
    obtain ⟨c, hc, rfl⟩ := List.mem_map.mp hw
    obtain ⟨i, hi, rfl⟩ := List.getElem_of_mem hc
    refine writeOffset_at hslot hat (i := 7 + (128 + i)) ?_ ?_
    · rw [List.getElem?_append_right (by omega), hhead, Nat.add_sub_cancel_left,
        List.getElem?_append_right (by omega), hlength, Nat.add_sub_cancel_left,
        List.getElem?_eq_getElem hi]
    · rw [dataLayout_offsets, List.getElem?_append_right (by simp), List.length_replicate,
        Nat.add_sub_cancel_left, List.getElem?_append_right (by simp), List.length_map,
        List.length_range, Nat.add_sub_cancel_left]
      exact List.getElem?_replicate_of_lt (by omega)
  obtain ⟨hge, hle⟩ := hmap.range slot hslot
  have htrack := track.isLt
  have hroom : rawOffset track (sectorMap slot) + body.length ≤ raw.length := by
    rw [hlength, hsize]
    unfold rawOffset imageSize sectorsPerTrack bytesPerSector trackCount
    omega
  rw [List.map_append, replaced_append, replaced_none hlead, List.map_append, replaced_append,
    replaced_run hbytes hroom, replaced_none htail, hbody]

end Ibm3740SectorImage

open Ibm3740SectorImage

/-! ## The disk -/

theorem FloppyDiskImage.put_put (image : FloppyDiskImage) (i : Fin 77) (t u : FloppyTrack) :
    (image.put i t).put i u = image.put i u := by
  refine congrArg FloppyDiskImage.mk (funext fun j => ?_)
  by_cases hj : j = i
  · rw [if_pos hj, if_pos hj]
  · rw [if_neg hj, if_neg hj, put_other _ _ hj]

/-- Cells stored at the ticks of a track overwrite it. -/
theorem writeCells_overwrite {disk : FloppyDiskImage} {track : Fin 77} {cells : List TimedFmByte}
    (h : ∀ c ∈ cells, c.tick ∈ (disk.tracks track).bytes.map TimedFmByte.tick) :
    writeCells disk (cells.map (TrackWrite.mk track)) =
      some (disk.put track ((disk.tracks track).overwrite cells)) := by
  induction cells generalizing disk with
  | nil => rw [FloppyTrack.overwrite_nil, FloppyDiskImage.put_tracks]; rfl
  | cons c cells ih =>
    obtain ⟨old, hold, htick⟩ := List.mem_map.mp (h c (List.mem_cons_self ..))
    have hcell : writeCell disk ⟨track, c⟩ =
        (true, disk.put track ((disk.tracks track).overwrite [c])) := by
      unfold writeCell
      dsimp only
      rw [FloppyTrack.writeByte_of_mem hold htick]
    have hrest := @ih (disk.put track ((disk.tracks track).overwrite [c])) fun c' hc' => by
      rw [FloppyDiskImage.put_self, FloppyTrack.overwrite_ticks]
      exact h c' (List.mem_cons_of_mem _ hc')
    rw [FloppyDiskImage.put_self, ← FloppyTrack.overwrite_append, FloppyDiskImage.put_put] at hrest
    rw [List.map_cons, ← List.singleton_append]
    refine writeCells_append (writeCells_singleton (by rw [hcell])) ?_
    rw [hcell]
    exact hrest

theorem FloppySubsystem.Follows.image {f g : FloppySubsystem} {elapsed : Nat}
    {written : List TimedFmByte} (h : f.Follows g elapsed written) {disk : FloppyDiskImage}
    (hdisk : f.selectedDrive.image = some disk) :
    g.selectedDrive.image = some (disk.put f.selectedDrive.headTrack
      ((disk.tracks f.selectedDrive.headTrack).overwrite written)) := by
  have htrack : f.currentTrack = disk.tracks f.selectedDrive.headTrack := by
    unfold currentTrack
    rw [hdisk]
  cases hdisk' : g.selectedDrive.image with
  | none =>
    have hinserted := h.writable.inserted
    rw [hdisk'] at hinserted
    cases hinserted
  | some disk' =>
    refine congrArg (fun tracks => some (FloppyDiskImage.mk tracks)) (funext fun j => ?_)
    by_cases hj : j = f.selectedDrive.headTrack
    · have hwritten := h.track
      unfold currentTrack at hwritten
      rw [hdisk', hdisk] at hwritten
      rw [if_pos hj, hj, ← h.head]
      rw [h.head] at hwritten ⊢
      exact hwritten
    · have hother := h.others f.selectedDriveIndex j (.inr hj)
      have hselected : g.drives f.selectedDriveIndex = g.selectedDrive := by
        rw [selectedDrive, h.selected]
      unfold cells at hother
      rw [hselected, hdisk', show f.drives f.selectedDriveIndex = f.selectedDrive from rfl, hdisk] at hother
      rw [if_neg hj]
      exact Option.some.inj hother

/-- On an evenly spaced track the cells from one on are at the places that follow. -/
theorem FloppyTrack.InRotation.places {t : FloppyTrack} {ticks : List Nat} (h : t.InRotation ticks)
    (heven : Circle.Even TimedFmByte.tick byteTicks t.bytes) {start : Nat}
    (hfirst : ticks[0]? = some (start * byteTicks)) (hroom : start + ticks.length ≤ t.bytes.length)
    {i tick : Nat} (htick : ticks[i]? = some tick) : tick = (start + i) * byteTicks := by
  obtain ⟨xs, c, ys, hbytes, rest, hturn⟩ := h
  have hlength : t.bytes.length = xs.length + (c :: ys).length := by rw [hbytes, List.length_append]
  have hcells : ∀ k c, t.bytes[k]? = some c → c.tick = k * byteTicks := by
    intro k c hc
    obtain ⟨hk, rfl⟩ := List.getElem?_eq_some_iff.mp hc
    exact heven k hk
  have hi := (List.getElem?_eq_some_iff.mp htick).1
  have hturned : ∀ k < ticks.length, ticks[k]? = ((c :: ys ++ xs).map TimedFmByte.tick)[k]? := by
    intro k hk
    rw [← hturn, List.getElem?_append_left hk]
  -- the first of them is where the track was cut
  have hstart : xs.length = start := by
    have hzero := hturned 0 (by omega)
    rw [hfirst] at hzero
    have hc : c.tick = xs.length * byteTicks := hcells xs.length c (by
      rw [hbytes, List.getElem?_append_right (Nat.le_refl _), Nat.sub_self]; rfl)
    have hsame : start * byteTicks = c.tick := Option.some.inj hzero
    exact Nat.eq_of_mul_eq_mul_right byteTicks_pos (hc.symm.trans hsame.symm)
  have hplace := hturned i hi
  rw [htick, List.getElem?_map, List.getElem?_append_left (by omega)] at hplace
  have hcell : t.bytes[start + i]? = (c :: ys)[i]? := by
    rw [hbytes, List.getElem?_append_right (by omega), hstart, Nat.add_sub_cancel_left]
  obtain ⟨c', hc', rfl⟩ := Option.map_eq_some_iff.mp hplace.symm
  exact hcells _ c' (hcell.trans hc')

/-- A regular write of an imported and written disk. -/
theorem WrittenImport.write {file : List Byte} {sectorMap : Nat → Byte} {writes more : List TrackWrite}
    {disk disk' : FloppyDiskImage} (h : WrittenImport file sectorMap writes disk)
    (hregular : ∀ w ∈ more, Regular w) (hwrite : writeCells disk more = some disk') :
    WrittenImport file sectorMap (writes ++ more) disk' := by
  obtain ⟨skew, disk₀, himport, hmap, hwrites⟩ := h.imported
  refine ⟨⟨skew, disk₀, himport, hmap, writeCells_append hwrites hwrite⟩, fun w hw => ?_⟩
  rcases List.mem_append.mp hw with hw | hw
  · exact h.regular w hw
  · exact hregular w hw

namespace Board

variable {b b' : Board} {elapsed : Nat} {offered : List TimedFmByte}

theorem Writes.finished {count : Nat} (hrun : Writes b elapsed offered b') (hb : b.Coherent)
    (hready : b.WriteReady count)
    (hlast : b.floppy.Trail b.disk.lastByteTick [b.disk.lastByteTick])
    (hend : b'.timer.output 2 = true) :
    DiskSide.Finished b.diskSide count elapsed offered b'.diskSide := by
  have hpos : 0 < count := by
    have := (hb.counter2.runs hready.mode hready.loaded hready.output).2
    rwa [hready.count] at this
  have ha : DiskSide.WritesOnly b.diskSide.disk.aux :=
    ⟨hready.readEnabled, hready.writeEnabled, hready.formatEnabled⟩
  have hterminal : b'.diskSide.terminal = true := hend
  rcases hrun.stage hb ha hpos (.inl ⟨rfl, hready.waiting hb hlast⟩) with ⟨-, h⟩ | h | h
  · exact absurd (h.counting.terminal.symm.trans hterminal) (by decide)
  · exact absurd (h.counting.terminal.symm.trans hterminal) (by decide)
  · exact h

end Board
end FK1
