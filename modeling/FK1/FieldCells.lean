import FK1.DiskController
import FK1.FieldCrc

/-!
# FK1.FieldCells

Where the fields of an imported track are, and that nothing else on it is taken for one.

* `fieldStart`, `fieldLayout`: the ID field or the data field of a slot, from its mark on.
* `LegibleDisk`: a disk that holds a raw image and has no clocks of a mark outside the marks. Import
  builds it and every regular write keeps it.
* `mark_position`: a mark the reader accepts is the beginning of a field.
* `field_contents`: what the cells of a field hold.
-/

namespace FK1
namespace Ibm3740SectorImage

/-! ## Positions -/

/-- The cell of a slot's data mark, or of its ID mark. -/
def fieldStart (rdm : Bool) (slot : Nat) : Nat := (if rdm then 103 else 79) + 188 * slot

/-- The cells of a field with its mark and its CRC. -/
def fieldLength (rdm : Bool) : Nat := if rdm then 131 else 7

def fieldMark (rdm : Bool) : Cell := if rdm then .dataMark else .sectorMark

def fieldLayout (rdm : Bool) (slot : Nat) : List Cell :=
  if rdm then .dataMark :: (List.range 128).map (Cell.data slot) ++ [.dataCrc, .dataCrc]
  else .sectorMark :: (List.range 4).map (Cell.id slot) ++ [.idCrc, .idCrc]

theorem slots_length (n : Nat) : ((List.range n).flatMap slotLayout).length = 188 * n := by
  simp only [List.length_flatMap, slotLayout_length, List.map_const', List.sum_replicate_nat,
    List.length_range]
  omega

/-- A track up to a slot, the slot, and the rest. -/
theorem trackLayout_slot {slot : Nat} (hslot : slot < 26) :
    ∃ before after, trackLayout = before ++ (slotLayout slot ++ after) ∧
      before.length = 73 + 188 * slot := by
  obtain ⟨slots, hrange⟩ : ∃ slots, List.range 26 = List.range slot ++ slot :: slots := by
    refine ⟨((List.range (25 - slot)).map Nat.succ).map (slot + ·), ?_⟩
    rw [show 26 = slot + (25 - slot + 1) by omega, List.range_add, List.range_succ_eq_map,
      List.map_cons, Nat.add_zero]
  refine ⟨List.replicate 40 Cell.gap ++ (List.replicate 6 Cell.gap ++ (Cell.indexMark ::
    (List.replicate 26 Cell.gap ++ (List.range slot).flatMap slotLayout))),
    slots.flatMap slotLayout ++ List.replicate 247 Cell.gap, ?_, ?_⟩
  · rw [trackLayout, hrange, List.flatMap_append, List.flatMap_cons]
    simp only [List.append_assoc, List.cons_append]
  · simp only [List.length_append, List.length_replicate, List.length_cons, slots_length]
    omega

theorem slotLayout_field (rdm : Bool) (slot : Nat) :
    ((slotLayout slot).drop (if rdm then 30 else 6)).take (fieldLength rdm) =
      fieldLayout rdm slot := by
  cases rdm <;> rfl

theorem layout_field (rdm : Bool) {slot : Nat} (hslot : slot < 26) :
    (trackLayout.drop (fieldStart rdm slot)).take (fieldLength rdm) = fieldLayout rdm slot := by
  obtain ⟨before, after, hlayout, hbefore⟩ := trackLayout_slot hslot
  have hstart : fieldStart rdm slot = before.length + if rdm then 30 else 6 := by
    rw [hbefore, fieldStart]
    cases rdm <;> simp only [if_true, Bool.false_eq_true, if_false] <;> omega
  rw [hlayout, hstart, ← List.drop_drop, List.drop_left, ← slotLayout_field,
    List.drop_append_of_le_length, List.take_append_of_le_length]
  · rw [List.length_drop, slotLayout_length, fieldLength]
    cases rdm <;> decide
  · rw [slotLayout_length]
    cases rdm <;> decide

theorem slots_position {n position : Nat} {cell : Cell}
    (h : ((List.range n).flatMap slotLayout)[position]? = some cell) :
    ∃ slot < n, 188 * slot ≤ position ∧ (slotLayout slot)[position - 188 * slot]? = some cell := by
  induction n with
  | zero => simp at h
  | succ n ih =>
    rw [List.range_succ, List.flatMap_append, List.flatMap_singleton] at h
    rcases getElem?_append_cases h with h | ⟨hle, h⟩
    · obtain ⟨slot, hslot, hcell⟩ := ih h
      exact ⟨slot, by omega, hcell⟩
    · rw [slots_length] at hle h
      exact ⟨n, by omega, hle, h⟩

set_option maxRecDepth 2000 in
theorem slot_mark_position {rdm : Bool} {slot position : Nat}
    (h : (slotLayout slot)[position]? = some (fieldMark rdm)) : position = if rdm then 30 else 6 := by
  have hmark : ((slotLayout slot).map (· == fieldMark rdm))[position]? = some true := by
    rw [List.getElem?_map, h, Option.map_some, BEq.rfl]
  have hshape : (slotLayout slot).map (· == fieldMark rdm) =
      List.replicate (if rdm then 30 else 6) false ++ ([true] ++
        List.replicate (if rdm then 157 else 181) false) := by
    cases rdm <;> rfl
  rw [hshape] at hmark
  rcases getElem?_append_cases hmark with h | ⟨h1, h⟩
  · cases getElem?_replicate_eq h
  rcases getElem?_append_cases h with h | ⟨h2, h⟩
  · obtain ⟨hlt, -⟩ := List.getElem?_eq_some_iff.mp h
    rw [List.length_replicate] at h1 hlt
    rw [List.length_singleton] at hlt
    omega
  · cases getElem?_replicate_eq h

/-- A mark of the layout begins a field. -/
theorem mark_position {rdm : Bool} {position : Nat}
    (h : trackLayout[position]? = some (fieldMark rdm)) :
    ∃ slot < 26, position = fieldStart rdm slot := by
  have hshape : trackLayout = List.replicate 46 Cell.gap ++ ([Cell.indexMark] ++
      (List.replicate 26 Cell.gap ++ ((List.range 26).flatMap slotLayout ++
      List.replicate 247 Cell.gap))) := by
    rw [show List.replicate 46 Cell.gap = List.replicate 40 Cell.gap ++ List.replicate 6 Cell.gap from rfl]
    simp only [trackLayout, List.append_assoc, List.cons_append, List.nil_append]
  have hnot : Cell.gap ≠ fieldMark rdm ∧ Cell.indexMark ≠ fieldMark rdm := by
    cases rdm <;> simp [fieldMark]
  rw [hshape] at h
  rcases getElem?_append_cases h with h | ⟨h1, h⟩
  · exact absurd (getElem?_replicate_eq h).symm hnot.1
  rcases getElem?_append_cases h with h | ⟨h2, h⟩
  · exact absurd (List.mem_singleton.mp (List.mem_of_getElem? h)).symm hnot.2
  rcases getElem?_append_cases h with h | ⟨h3, h⟩
  · exact absurd (getElem?_replicate_eq h).symm hnot.1
  rcases getElem?_append_cases h with h | ⟨_, h⟩
  · obtain ⟨slot, hslot, hle, hcell⟩ := slots_position h
    have hposition := slot_mark_position hcell
    refine ⟨slot, hslot, ?_⟩
    simp only [List.length_replicate, List.length_cons, List.length_nil] at h1 h2 h3 hle hposition
    rw [fieldStart]
    cases rdm <;> simp only [if_true, Bool.false_eq_true, if_false] at hposition ⊢ <;> omega
  · exact absurd (getElem?_replicate_eq h).symm hnot.1

/-! ## Legible disks -/

/-- The clocks of a mark are the mark's alone. -/
def Clocked (byte : TimedFmByte) (cell : Cell) : Prop :=
  byte.clocks = sectorMarkClocks → cell = .sectorMark ∨ cell = .dataMark

def Marked (bytes : List TimedFmByte) : Prop := List.Forall₂ Clocked bytes trackLayout

structure LegibleDisk (sectorMap : Nat → Byte) (raw : List Byte) (disk : FloppyDiskImage) : Prop
    extends FormattedDisk sectorMap raw disk where
  marked : ∀ t : Fin 77, Marked (disk.tracks t).bytes

theorem ordinary_clocked (value : Byte) (cell : Cell) : Clocked (ordinary value) cell := by
  intro h
  have hne : ordinaryClocks ≠ sectorMarkClocks := by decide
  exact absurd h hne

theorem ordinaries_clocked {values : List Byte} {cells : List Cell}
    (h : values.length = cells.length) : List.Forall₂ Clocked (values.map ordinary) cells :=
  List.forall₂_iff_get.mpr ⟨by rw [List.length_map, h], fun i h1 h2 => by
    rw [List.get_eq_getElem, List.getElem_map]
    exact ordinary_clocked _ _⟩

theorem appendRepeat_clocked (count : Nat) (value : Byte) (cell : Cell) :
    List.Forall₂ Clocked (appendRepeat count value) (List.replicate count cell) :=
  forall₂_replicate (ordinary_clocked value cell) count

theorem sectorCells_clocked (raw : List Byte) (track slot : Nat) (sector : Byte) :
    List.Forall₂ Clocked (sectorCells raw track sector) (slotLayout slot) := by
  have hcrc : ∀ (bytes : List Byte) (cell : Cell),
      List.Forall₂ Clocked (appendCrc bytes) [cell, cell] := fun bytes cell =>
    .cons (ordinary_clocked _ _) (.cons (ordinary_clocked _ _) .nil)
  have hdata : List.Forall₂ Clocked ((sectorData raw track sector).map ordinary)
      ((List.range 128).map (Cell.data slot)) :=
    ordinaries_clocked (by simp only [sectorData, bytesPerSector, List.length_map])
  have hid : List.Forall₂ Clocked ((idField track sector).tail.map ordinary)
      ((List.range 4).map (Cell.id slot)) := ordinaries_clocked rfl
  unfold sectorCells slotLayout
  dsimp only
  exact forall₂_append (forall₂_append (forall₂_append (forall₂_append (forall₂_append
    (forall₂_append (forall₂_append (appendRepeat_clocked 6 _ _) (.cons (fun _ => .inl rfl) hid))
      (hcrc _ _)) (appendRepeat_clocked 11 _ _)) (appendRepeat_clocked 6 _ _))
        (.cons (fun _ => .inr rfl) hdata)) (hcrc _ _)) (appendRepeat_clocked 27 _ _)

theorem trackCells_clocked (raw : List Byte) (sectorMap : Nat → Byte) (track : Nat) :
    List.Forall₂ Clocked (trackCells raw sectorMap track) trackLayout := by
  have hslots : ∀ slots : List Nat, List.Forall₂ Clocked
      (slots.flatMap fun sectorIndex => sectorCells raw track (sectorMap sectorIndex))
      (slots.flatMap slotLayout) := by
    intro slots
    induction slots with
    | nil => exact .nil
    | cons slot slots ih =>
      rw [List.flatMap_cons, List.flatMap_cons]
      exact forall₂_append (sectorCells_clocked raw track slot _) ih
  exact forall₂_append (forall₂_append (forall₂_append (forall₂_append (appendRepeat_clocked 40 _ _)
    (appendRepeat_clocked 6 _ _)) (.cons (fun h => absurd h (by decide)) (appendRepeat_clocked 26 _ _)))
      (hslots _)) (appendRepeat_clocked 247 _ _)

/-- Ticks are no part of the clocks. -/
theorem marked_appendAll {cells : List TimedFmByte} (h : List.Forall₂ Clocked cells trackLayout) :
    Marked (appendAll cells) := by
  obtain ⟨hlen, hget⟩ := List.forall₂_iff_get.mp h
  refine List.forall₂_iff_get.mpr ⟨by simp [appendAll, hlen], fun i h1 h2 => ?_⟩
  have hcell := hget i (by rw [hlen]; exact h2) h2
  simpa [appendAll, Clocked] using hcell

variable {sectorMap : Nat → Byte} {raw : List Byte} {disk disk₀ : FloppyDiskImage}

theorem import_legible {skew : Byte} (himport : importImage raw skew = some disk)
    (hmap : FK1.Ibm3740SectorImage.sectorMap skew = some sectorMap) :
    LegibleDisk sectorMap raw disk := by
  obtain ⟨hsize, _⟩ := import_accepts himport
  obtain ⟨disk₁, hdisk₁, htracks⟩ := import_tracks hsize hmap
  cases himport.symm.trans hdisk₁
  refine ⟨⟨sectorMap_ok hmap, hsize, fun t => ?_⟩, fun t => ?_⟩ <;> rw [htracks t]
  · exact formatted_appendAll (trackCells_fits raw)
  · exact marked_appendAll (trackCells_clocked raw sectorMap t.val)

/-! ## Regular writes -/

/-- A permitted write that clocks no other cell as a mark. -/
def Regular (w : TrackWrite) : Prop :=
  ∃ position cell, w.byte.tick = position * byteTicks ∧ trackLayout[position]? = some cell ∧
    Permits cell w.byte ∧ Clocked w.byte cell

theorem Regular.permitted {w : TrackWrite} (h : Regular w) : Permitted w := by
  obtain ⟨position, cell, htick, hcell, hpermit, _⟩ := h
  exact ⟨position, cell, htick, hcell, hpermit⟩

/-- A write of an existing cell replaces it in place. -/
theorem writeCell_tracks (h : FormattedDisk sectorMap raw disk) {w : TrackWrite} (hw : Permitted w)
    (t : Fin 77) : ((writeCell disk w).2.tracks t).bytes =
      if t = w.track then
        (disk.tracks t).bytes.map fun c => if c.tick = w.byte.tick then w.byte else c
      else (disk.tracks t).bytes := by
  obtain ⟨position, cell, htick, hcell, _⟩ := hw
  have htrack := h.tracks w.track
  have hposition : position < (disk.tracks w.track).bytes.length := by
    rw [htrack.length, ← show trackLayout.length = 5208 from trackLayout_length]
    exact (List.getElem?_eq_some_iff.mp hcell).1
  have hwrite := writeByte?_of_mem (disk.tracks w.track).spaced
    (List.getElem_mem hposition) ((htrack.ticks position hposition).trans htick.symm)
  unfold writeCell
  dsimp only
  by_cases ht : t = w.track
  · subst ht
    rw [if_pos rfl, FloppyDiskImage.put_self]
    exact (FloppyTrack.writeByte_of_some hwrite).2
  · rw [if_neg ht, FloppyDiskImage.put_other _ _ ht]

theorem Marked.write {image : Nat → Byte} {t : Nat} {bytes : List TimedFmByte} (h : Marked bytes)
    (hformatted : FormattedTrack sectorMap image t bytes) {byte : TimedFmByte} {position : Nat}
    {cell : Cell} (htick : byte.tick = position * byteTicks)
    (hcell : trackLayout[position]? = some cell) (hclocked : Clocked byte cell) :
    Marked (bytes.map fun c => if c.tick = byte.tick then byte else c) := by
  obtain ⟨hlen, hget⟩ := List.forall₂_iff_get.mp h
  refine List.forall₂_iff_get.mpr ⟨by simp [hlen], fun i h1 h2 => ?_⟩
  rw [List.length_map] at h1
  have hi : bytes[i].tick = i * byteTicks := hformatted.ticks i h1
  simp only [List.get_eq_getElem, List.getElem_map]
  by_cases he : bytes[i].tick = byte.tick
  · rw [if_pos he]
    have hposition : i = position := by
      rw [hi, htick] at he
      exact Nat.eq_of_mul_eq_mul_right (by decide) he
    subst hposition
    rw [List.getElem?_eq_getElem h2, Option.some.injEq] at hcell
    rw [hcell]
    exact hclocked
  · rw [if_neg he]
    exact hget i h1 h2

theorem writeCell_legible (h : LegibleDisk sectorMap raw disk) {w : TrackWrite} (hw : Regular w) :
    LegibleDisk sectorMap (replaced sectorMap raw [w]) (writeCell disk w).2 := by
  refine ⟨(writeCell_formatted h.toFormattedDisk hw.permitted).2, fun t => ?_⟩
  rw [writeCell_tracks h.toFormattedDisk hw.permitted]
  split
  next ht =>
    obtain ⟨position, cell, htick, hcell, _, hclocked⟩ := hw
    exact (h.marked t).write (h.tracks t) htick hcell hclocked
  next => exact h.marked t

theorem writeCells_legible (h : LegibleDisk sectorMap raw disk) {writes : List TrackWrite}
    (hw : ∀ w ∈ writes, Regular w) {disk' : FloppyDiskImage}
    (hdisk' : writeCells disk writes = some disk') :
    LegibleDisk sectorMap (replaced sectorMap raw writes) disk' ∧
      ∀ t : Fin 77, (∀ w ∈ writes, w.track ≠ t) → disk'.tracks t = disk.tracks t := by
  induction writes generalizing raw disk with
  | nil =>
    cases hdisk'
    exact ⟨h, fun _ _ => rfl⟩
  | cons w writes ih =>
    have hregular := hw w (List.mem_cons_self ..)
    obtain ⟨hok, _⟩ := writeCell_formatted h.toFormattedDisk hregular.permitted
    have hrest : writeCells (writeCell disk w).2 writes = some disk' := by
      rw [writeCells, List.foldlM_cons] at hdisk'
      simp only [hok, if_true, Option.bind_eq_bind, Option.bind_some] at hdisk'
      exact hdisk'
    obtain ⟨hlegible, hothers⟩ := ih (writeCell_legible h hregular)
      (fun w' hw' => hw w' (List.mem_cons_of_mem _ hw')) hrest
    refine ⟨hlegible, fun t ht => (hothers t fun w' hw' => ht w' (List.mem_cons_of_mem _ hw')).trans ?_⟩
    exact FloppyDiskImage.put_other _ _ (Ne.symm (ht w (List.mem_cons_self ..)))

/-! ## Fields -/

/-- What a field holds between its mark and its CRC. -/
def fieldValues (rdm : Bool) (raw : List Byte) (track : Nat) (sector : Byte) : List Byte :=
  if rdm then sectorData raw track sector else (idField track sector).tail

/-- The bytes a field can begin with. -/
def MarkByte (rdm : Bool) (mark : Byte) : Prop :=
  if rdm then mark = 0xFB#8 ∨ mark = 0xF8#8 else mark = 0xFE#8

/-- The cells of a field with its mark and its CRC. -/
def field (rdm : Bool) (slot : Nat) (bytes : List TimedFmByte) : List TimedFmByte :=
  (bytes.drop (fieldStart rdm slot)).take (fieldLength rdm)

variable (rdm : Bool) {slot track : Nat} {bytes : List TimedFmByte}

theorem field_fits {image : Nat → Byte} (h : FormattedTrack sectorMap image track bytes)
    (hslot : slot < 26) :
    List.Forall₂ (Fits sectorMap image track) (field rdm slot bytes) (fieldLayout rdm slot) := by
  rw [← layout_field rdm hslot]
  exact List.forall₂_take _ (List.forall₂_drop _ h.fits)

theorem field_length {image : Nat → Byte} (h : FormattedTrack sectorMap image track bytes)
    (hslot : slot < 26) : (field rdm slot bytes).length = fieldLength rdm := by
  refine (field_fits rdm h hslot).length_eq.trans ?_
  cases rdm <;> simp [fieldLayout, fieldLength]

/-- The byte that a cell of a field holds. -/
def fieldValue (sectorMap image : Nat → Byte) (track : Nat) : Cell → Byte
  | .id slot field => (idField track (sectorMap slot)).getD (field + 1) 0#8
  | .data slot offset => image (rawOffset track (sectorMap slot) + offset)
  | _ => 0#8

theorem fits_values {image : Nat → Byte} {cells : List TimedFmByte} {value : Nat → Cell} {n : Nat}
    (h : List.Forall₂ (Fits sectorMap image track) cells ((List.range n).map value))
    (hvalue : ∀ i byte, Fits sectorMap image track byte (value i) →
      byte.data = fieldValue sectorMap image track (value i)) :
    cells.map TimedFmByte.data =
      (List.range n).map fun i => fieldValue sectorMap image track (value i) := by
  obtain ⟨hlen, hget⟩ := List.forall₂_iff_get.mp h
  rw [List.length_map, List.length_range] at hlen
  refine List.ext_getElem (by simp [hlen]) fun i h1 h2 => ?_
  have hcell := hget i (by simpa using h1) (by simpa using h2)
  rw [List.get_eq_getElem, List.get_eq_getElem, List.getElem_map, List.getElem_range] at hcell
  rw [List.getElem_map, List.getElem_map, List.getElem_range]
  exact hvalue i _ hcell

theorem field_contents
    (h : FormattedTrack sectorMap (fun i => raw.getD i 0#8) track bytes) (hslot : slot < 26) :
    ∃ mark crc, MarkByte rdm mark ∧ crc.length = 2 ∧ (field rdm slot bytes).map TimedFmByte.data =
      mark :: fieldValues rdm raw track (sectorMap slot) ++ crc := by
  have hfits := field_fits rdm h hslot
  cases rdm with
  | true =>
    obtain ⟨head, crc, hcells, hhead, hcrc⟩ := forall₂_split hfits
    obtain ⟨mark, values, hmark, hvalues, rfl⟩ := List.forall₂_cons_right_iff.mp hhead
    have hdata : values.map TimedFmByte.data = sectorData raw track (sectorMap slot) :=
      fits_values hvalues fun _ _ hbyte => hbyte
    refine ⟨mark.data, crc.map TimedFmByte.data, hmark.1, ?_, ?_⟩
    · rw [List.length_map]
      exact hcrc.length_eq
    · rw [hcells, List.map_append, List.map_cons, hdata]
      rfl
  | false =>
    obtain ⟨head, crc, hcells, hhead, hcrc⟩ := forall₂_split hfits
    obtain ⟨mark, values, hmark, hvalues, rfl⟩ := List.forall₂_cons_right_iff.mp hhead
    have hid : values.map TimedFmByte.data = (idField track (sectorMap slot)).tail :=
      fits_values hvalues fun _ _ hbyte => hbyte
    refine ⟨mark.data, crc.map TimedFmByte.data, hmark.1, ?_, ?_⟩
    · rw [List.length_map]
      exact hcrc.length_eq
    · rw [hcells, List.map_append, List.map_cons, hid]
      rfl

variable {rdm} in
/-- A mark the reader accepts begins a field. -/
theorem mark_field {image : Nat → Byte} (h : FormattedTrack sectorMap image track bytes)
    (hmarked : Marked bytes) {c : TimedFmByte} (hc : c ∈ bytes)
    (haccepted : DiskSide.selectedMark rdm c = true) :
    ∃ slot < 26, c.tick = fieldStart rdm slot * byteTicks := by
  obtain ⟨position, hposition, rfl⟩ := List.getElem_of_mem hc
  obtain ⟨hlen, hclocked⟩ := List.forall₂_iff_get.mp hmarked
  obtain ⟨-, hfits⟩ := List.forall₂_iff_get.mp h.fits
  have hlayout : position < trackLayout.length := by omega
  have hcell : trackLayout[position]? = some trackLayout[position] := List.getElem?_eq_getElem hlayout
  have hclocks : bytes[position].clocks = sectorMarkClocks := by
    unfold DiskSide.selectedMark isDataAddressMark isIdAddressMark at haccepted
    split at haccepted <;> simp only [Bool.and_eq_true, beq_iff_eq] at haccepted <;> exact haccepted.2
  have hmark : trackLayout[position] = fieldMark rdm := by
    have hbyte := hfits position hposition hlayout
    rw [List.get_eq_getElem, List.get_eq_getElem] at hbyte
    rcases hclocked position hposition hlayout hclocks with he | he <;>
      rw [List.get_eq_getElem] at he <;> rw [he] at hbyte ⊢
    · cases rdm with
      | false => rfl
      | true =>
        rw [DiskSide.selectedMark, if_pos rfl, isDataAddressMark, hbyte.1] at haccepted
        exact absurd haccepted (by simp)
    · cases rdm with
      | true => rfl
      | false =>
        rw [DiskSide.selectedMark, if_neg Bool.false_ne_true, isIdAddressMark] at haccepted
        rcases hbyte.1 with hd | hd <;> rw [hd] at haccepted <;> exact absurd haccepted (by simp)
  obtain ⟨slot, hslot, he⟩ := mark_position (hmark ▸ hcell)
  have htick : bytes[position].tick = position * byteTicks := h.ticks position hposition
  exact ⟨slot, hslot, by rw [htick, he]⟩

/-- The cells from the mark of a slot on. -/
theorem field_head {image : Nat → Byte} (h : FormattedTrack sectorMap image track bytes)
    (hslot : slot < 26) :
    ∃ c rest, bytes.drop (fieldStart rdm slot) = c :: rest ∧
      Fits sectorMap image track c (fieldMark rdm) ∧ c.tick = fieldStart rdm slot * byteTicks := by
  have hfits := field_fits rdm h hslot
  have hhead : ∃ cells, fieldLayout rdm slot = fieldMark rdm :: cells := by
    cases rdm <;> exact ⟨_, rfl⟩
  obtain ⟨cells, hlayout⟩ := hhead
  rw [hlayout] at hfits
  obtain ⟨c, rest, hmark, -, hcells⟩ := List.forall₂_cons_right_iff.mp hfits
  unfold field at hcells
  cases hdrop : bytes.drop (fieldStart rdm slot) with
  | nil =>
    rw [hdrop, List.take_nil] at hcells
    cases hcells
  | cons c' rest' =>
    rw [hdrop, show fieldLength rdm = fieldLength rdm - 1 + 1 by cases rdm <;> rfl,
      List.take_succ_cons] at hcells
    obtain ⟨rfl, -⟩ := List.cons.inj hcells
    have hget : bytes[fieldStart rdm slot]? = some c' := by
      rw [← Nat.add_zero (fieldStart rdm slot), ← List.getElem?_drop, hdrop]
      rfl
    obtain ⟨hlt, he⟩ := List.getElem?_eq_some_iff.mp hget
    have htick : bytes[fieldStart rdm slot].tick = fieldStart rdm slot * byteTicks := h.ticks _ hlt
    exact ⟨c', rest', rfl, hmark, he ▸ htick⟩

/-- The mark of a slot is one the reader accepts. -/
theorem field_mark {image : Nat → Byte} (h : FormattedTrack sectorMap image track bytes)
    (hslot : slot < 26) :
    ∃ c ∈ bytes, DiskSide.selectedMark rdm c = true ∧ c.tick = fieldStart rdm slot * byteTicks := by
  obtain ⟨c, rest, hdrop, hmark, htick⟩ := field_head rdm h hslot
  have hmem : c ∈ bytes := List.mem_of_mem_drop (hdrop ▸ List.mem_cons_self ..)
  refine ⟨c, hmem, ?_, htick⟩
  cases rdm with
  | true =>
    rw [DiskSide.selectedMark, if_pos rfl, isDataAddressMark, hmark.2]
    rcases hmark.1 with hd | hd <;> rw [hd] <;> rfl
  | false =>
    rw [DiskSide.selectedMark, if_neg Bool.false_ne_true, isIdAddressMark, hmark.1, hmark.2]
    rfl

/-- The fields of an imported track check. -/
theorem field_verifies {image : Nat → Byte} (h : FormattedTrack sectorMap image track bytes)
    (hslot : slot < 26) (hverifies : Verifies bytes) :
    crc16 ((field rdm slot bytes).map TimedFmByte.data) = 0#16 := by
  obtain ⟨c, rest, hdrop, hmark, -⟩ := field_head rdm h hslot
  obtain ⟨hsector, hdata⟩ := hverifies c rest (hdrop ▸ List.drop_suffix ..)
  rw [← hdrop] at hsector hdata
  cases rdm with
  | true =>
    refine hdata ?_
    rw [isDataMark, hmark.2]
    rcases hmark.1 with hd | hd <;> rw [hd] <;> rfl
  | false =>
    refine hsector ?_
    rw [isSectorMark, hmark.1, hmark.2]
    rfl

end Ibm3740SectorImage
end FK1
