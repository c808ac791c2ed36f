import Mathlib.Data.List.Forall2
import Mathlib.Data.List.GetD
import Mathlib.Data.Fintype.EquivFin
import FK1.DiskImage8sd

/-!
# FK1.SectorRoundTrip

What is imported and then written cell by cell is exported.

* `Cell`, `trackLayout`: what each of the 5208 cells of an imported track is for.
* `FormattedTrack`: a track whose cells fit that layout and hold a given raw image; import builds it
  and every permitted write keeps it, with the image changed where a data cell was written.
* `scan_track`: the export scan of a formatted track finds its 26 sectors with the image's bytes.
-/

namespace FK1
namespace Ibm3740SectorImage

/-! ## The sector map -/

/-- Every slot holds one of the sectors 1 to 26, and each of them once. -/
structure SectorMapOk (sectorMap : Nat → Byte) : Prop where
  range : ∀ slot < 26, 1 ≤ (sectorMap slot).toNat ∧ (sectorMap slot).toNat ≤ 26
  injective : ∀ slot < 26, ∀ slot' < 26, sectorMap slot = sectorMap slot' → slot = slot'
  surjective : ∀ sector, 1 ≤ sector → sector ≤ 26 → ∃ slot < 26, (sectorMap slot).toNat = sector

/-- Each sector of `placed` has a slot of its own that is marked occupied. -/
def Placed (placed : List Byte) (map : Nat → Byte) (occupied : Nat → Bool) : Prop :=
  ∀ sector ∈ placed, ∃ slot < 26, occupied slot = true ∧ map slot = sector

theorem mapSectors_placed {skew : Byte} {rest placed : List Byte} {mapIndex : Nat} {map map' : Nat → Byte}
    {occupied : Nat → Bool} (h : Placed placed map occupied)
    (hm : mapSectors skew rest mapIndex map occupied = some map') :
    ∀ sector ∈ placed ++ rest, ∃ slot < 26, map' slot = sector := by
  induction rest generalizing placed mapIndex map occupied with
  | nil =>
    rw [mapSectors] at hm
    cases hm
    intro sector hs
    obtain ⟨slot, hslot, _, he⟩ := h sector (by simpa using hs)
    exact ⟨slot, hslot, he⟩
  | cons sector rest ih =>
    rw [mapSectors] at hm
    split at hm
    · cases hm
    rename_i hfree
    simp only [ge_iff_le, Bool.or_eq_true, decide_eq_true_eq, not_or, Bool.not_eq_true,
      Nat.not_le] at hfree
    have hnext : Placed (placed ++ [sector]) (fun i => if i = mapIndex then sector else map i)
        (fun i => if i = mapIndex then true else occupied i) := by
      intro s hs
      rcases List.mem_append.mp hs with hs | hs
      · obtain ⟨slot, hslot, hocc, he⟩ := h s hs
        have hne : slot ≠ mapIndex := by rintro rfl; rw [hfree.2] at hocc; cases hocc
        exact ⟨slot, hslot, by simp [hocc], by simp [hne, he]⟩
      · rw [List.mem_singleton.mp hs]
        exact ⟨mapIndex, hfree.1, by simp, by simp⟩
    have hall := ih hnext hm
    simpa using hall

/-- Twenty-six sectors in twenty-six slots: every slot is taken. -/
theorem sectorMap_ok {skew : Byte} {map : Nat → Byte} (h : sectorMap skew = some map) :
    SectorMapOk map := by
  have hnone : Placed [] (fun _ => 0#8) (fun _ => false) := fun s hs => absurd hs List.not_mem_nil
  have hplaced := mapSectors_placed hnone h
  have hsector : ∀ s : Fin 26, ∃ slot : Fin 26, (map slot.val).toNat = s.val + 1 := by
    intro s
    obtain ⟨slot, hslot, he⟩ := hplaced (BitVec.ofNat 8 (s.val + 1)) (by
      simp only [List.nil_append, sectors, List.mem_map, List.mem_range, sectorsPerTrack]
      exact ⟨s.val, s.isLt, rfl⟩)
    refine ⟨⟨slot, hslot⟩, ?_⟩
    rw [he, BitVec.toNat_ofNat]
    omega
  choose slotOf hslotOf using hsector
  have hinj : Function.Injective slotOf := by
    intro s s' hs
    have := hslotOf s; rw [hs, hslotOf s'] at this
    exact Fin.ext (by omega)
  have hsurj := Finite.surjective_of_injective hinj
  refine ⟨fun slot hslot => ?_, fun slot hslot slot' hslot' he => ?_, fun sector h1 h2 => ?_⟩
  · obtain ⟨s, hs⟩ := hsurj ⟨slot, hslot⟩
    have := hslotOf s
    rw [hs] at this
    simp only at this
    omega
  · obtain ⟨s, hs⟩ := hsurj ⟨slot, hslot⟩
    obtain ⟨s', hs'⟩ := hsurj ⟨slot', hslot'⟩
    have h1 := hslotOf s
    have h2 := hslotOf s'
    rw [hs] at h1
    rw [hs'] at h2
    simp only at h1 h2
    rw [he] at h1
    have : s = s' := Fin.ext (by omega)
    rw [this, hs'] at hs
    exact (Fin.mk.inj hs).symm
  · exact ⟨slotOf ⟨sector - 1, by omega⟩, (slotOf _).isLt, by rw [hslotOf]; simp only; omega⟩

/-! ## The layout of a track -/

/-- What a cell of an imported track is for. Sync bytes count as gaps. -/
inductive Cell where
  | gap
  | indexMark
  | sectorMark
  | id (slot field : Nat)
  | idCrc
  | dataMark
  | data (slot offset : Nat)
  | dataCrc
  deriving DecidableEq, Repr

def slotLayout (slot : Nat) : List Cell :=
  List.replicate 6 Cell.gap
    ++ Cell.sectorMark :: (List.range 4).map (Cell.id slot)
    ++ [Cell.idCrc, Cell.idCrc]
    ++ List.replicate 11 Cell.gap
    ++ List.replicate 6 Cell.gap
    ++ Cell.dataMark :: (List.range 128).map (Cell.data slot)
    ++ [Cell.dataCrc, Cell.dataCrc]
    ++ List.replicate 27 Cell.gap

def trackLayout : List Cell :=
  List.replicate 40 Cell.gap
    ++ List.replicate 6 Cell.gap
    ++ Cell.indexMark :: List.replicate 26 Cell.gap
    ++ (List.range 26).flatMap slotLayout
    ++ List.replicate 247 Cell.gap

section

variable (sectorMap : Nat → Byte) (image : Nat → Byte) (track : Nat)

/-- The byte may stand in the cell of a formatted track that holds `image`. -/
def Fits (byte : TimedFmByte) : Cell → Prop
  | .gap => byte.clocks ≠ sectorMarkClocks
  | .indexMark => byte.clocks ≠ sectorMarkClocks
  | .sectorMark => byte.data = 0xFE#8 ∧ byte.clocks = sectorMarkClocks
  | .id slot field => byte.data = (idField track (sectorMap slot)).getD (field + 1) 0#8
  | .idCrc => True
  | .dataMark => (byte.data = 0xFB#8 ∨ byte.data = 0xF8#8) ∧ byte.clocks = sectorMarkClocks
  | .data slot offset => byte.data = image (rawOffset track (sectorMap slot) + offset)
  | .dataCrc => True

structure FormattedTrack (bytes : List TimedFmByte) : Prop where
  ticks : ∀ (position : Nat) (h : position < bytes.length),
    (bytes.get ⟨position, h⟩).tick = position * byteTicks
  fits : List.Forall₂ (Fits sectorMap image track) bytes trackLayout

end

variable {sectorMap : Nat → Byte} {image : Nat → Byte} {track : Nat}

theorem forall₂_replicate {α β : Type} {R : α → β → Prop} {a : α} {b : β} (h : R a b) (n : Nat) :
    List.Forall₂ R (List.replicate n a) (List.replicate n b) := by
  induction n with
  | zero => exact .nil
  | succ n ih => exact .cons h ih

theorem forall₂_append {α β : Type} {R : α → β → Prop} {as bs : List α} {xs ys : List β}
    (h : List.Forall₂ R as xs) (h' : List.Forall₂ R bs ys) : List.Forall₂ R (as ++ bs) (xs ++ ys) :=
  List.rel_append h h'

theorem forall₂_split {α β : Type} {R : α → β → Prop} {xs : List α} {ys zs : List β}
    (h : List.Forall₂ R xs (ys ++ zs)) :
    ∃ as bs, xs = as ++ bs ∧ List.Forall₂ R as ys ∧ List.Forall₂ R bs zs :=
  ⟨xs.take ys.length, xs.drop ys.length, (List.take_append_drop _ _).symm,
    List.forall₂_take_append xs ys zs h, List.forall₂_drop_append xs ys zs h⟩

theorem slotLayout_length (slot : Nat) : (slotLayout slot).length = 188 := by
  simp only [slotLayout, List.length_append, List.length_replicate, List.length_cons, List.length_map,
    List.length_range, List.length_nil]

theorem trackLayout_length : trackLayout.length = fmBytesPerTrack := by
  simp only [trackLayout, List.length_append, List.length_replicate, List.length_cons,
    List.length_flatMap, slotLayout_length, List.map_const', List.sum_replicate_nat, List.length_range,
    fmBytesPerTrack]

/-- The cells `import` appends for a sector fit its slot. -/
theorem sectorCells_fits (raw : List Byte) (slot : Nat) :
    List.Forall₂ (Fits sectorMap (fun i => raw.getD i 0#8) track)
      (sectorCells raw track (sectorMap slot)) (slotLayout slot) := by
  have hgap : ∀ (count : Nat) (value : Byte),
      List.Forall₂ (Fits sectorMap (fun i => raw.getD i 0#8) track) (appendRepeat count value)
        (List.replicate count .gap) :=
    fun count value => forall₂_replicate (by simp [Fits, ordinary, ordinaryClocks, sectorMarkClocks]) count
  have hcrc : ∀ (bytes : List Byte) (cell : Cell), cell = .idCrc ∨ cell = .dataCrc →
      List.Forall₂ (Fits sectorMap (fun i => raw.getD i 0#8) track) (appendCrc bytes) [cell, cell] := by
    rintro bytes cell (rfl | rfl) <;> exact .cons trivial (.cons trivial .nil)
  have hdata : List.Forall₂ (Fits sectorMap (fun i => raw.getD i 0#8) track)
      ((sectorData raw track (sectorMap slot)).map ordinary) ((List.range 128).map (Cell.data slot)) := by
    rw [sectorData, List.map_map, List.forall₂_map_left_iff, List.forall₂_map_right_iff,
      show bytesPerSector = 128 from rfl, List.forall₂_same]
    intro offset _
    rfl
  have hid : List.Forall₂ (Fits sectorMap (fun i => raw.getD i 0#8) track)
      ((idField track (sectorMap slot)).tail.map ordinary) ((List.range 4).map (Cell.id slot)) :=
    .cons rfl (.cons rfl (.cons rfl (.cons rfl .nil)))
  have hsector : Fits sectorMap (fun i => raw.getD i 0#8) track
      { data := 0xFE#8, clocks := sectorMarkClocks } .sectorMark := ⟨rfl, rfl⟩
  have hmark : Fits sectorMap (fun i => raw.getD i 0#8) track
      { data := 0xFB#8, clocks := sectorMarkClocks } .dataMark := ⟨.inl rfl, rfl⟩
  unfold sectorCells slotLayout
  dsimp only
  exact forall₂_append (forall₂_append (forall₂_append (forall₂_append (forall₂_append
    (forall₂_append (forall₂_append (hgap 6 _) (.cons hsector hid)) (hcrc _ _ (.inl rfl)))
      (hgap 11 _)) (hgap 6 _)) (.cons hmark hdata)) (hcrc _ _ (.inr rfl))) (hgap 27 _)

theorem trackCells_fits (raw : List Byte) :
    List.Forall₂ (Fits sectorMap (fun i => raw.getD i 0#8) track) (trackCells raw sectorMap track)
      trackLayout := by
  have hgap : ∀ (count : Nat) (value : Byte),
      List.Forall₂ (Fits sectorMap (fun i => raw.getD i 0#8) track) (appendRepeat count value)
        (List.replicate count .gap) :=
    fun count value => forall₂_replicate (by simp [Fits, ordinary, ordinaryClocks, sectorMarkClocks]) count
  have hslots : ∀ slots : List Nat, List.Forall₂ (Fits sectorMap (fun i => raw.getD i 0#8) track)
      (slots.flatMap fun sectorIndex => sectorCells raw track (sectorMap sectorIndex))
      (slots.flatMap slotLayout) := by
    intro slots
    induction slots with
    | nil => exact .nil
    | cons slot slots ih =>
      rw [List.flatMap_cons, List.flatMap_cons]
      exact forall₂_append (sectorCells_fits raw slot) ih
  exact forall₂_append (forall₂_append (forall₂_append (forall₂_append (hgap 40 _) (hgap 6 _))
    (.cons (by simp [Fits, indexMarkClocks, sectorMarkClocks]) (hgap 26 _))) (hslots _)) (hgap 247 _)

/-- Ticks are no part of fitting a layout. -/
theorem formatted_appendAll {cells : List TimedFmByte}
    (h : List.Forall₂ (Fits sectorMap image track) cells trackLayout) :
    FormattedTrack sectorMap image track (appendAll cells) := by
  have hfits : ∀ (byte : TimedFmByte) (tick : Nat) (cell : Cell), Fits sectorMap image track byte cell →
      Fits sectorMap image track { byte with tick := tick } cell := by
    intro byte tick cell h
    cases cell <;> exact h
  obtain ⟨hlen, hget⟩ := List.forall₂_iff_get.mp h
  refine ⟨fun position hp => ?_, List.forall₂_iff_get.mpr ⟨?_, fun i h1 h2 => ?_⟩⟩
  · simp [appendAll]
  · simp [appendAll, hlen]
  · simp only [appendAll, List.length_mapIdx] at h1
    simpa [appendAll] using hfits _ (i * byteTicks) _ (hget i h1 h2)

theorem FormattedTrack.length {bytes : List TimedFmByte}
    (h : FormattedTrack sectorMap image track bytes) : bytes.length = 5208 :=
  h.fits.length_eq.trans trackLayout_length

/-! ## The scan -/

theorem scan_gap {t fuel : Nat} {cells rest : List TimedFmByte}
    (h : ∀ byte ∈ cells, byte.clocks ≠ sectorMarkClocks) (pending : Option Byte) (out : Exported) :
    scan t (cells.length + fuel) (cells ++ rest) pending out = scan t fuel rest pending out := by
  induction cells with
  | nil => rw [List.length_nil, Nat.zero_add, List.nil_append]
  | cons byte cells ih =>
    have hclocks : (byte.clocks == sectorMarkClocks) = false := by simpa using h byte (by simp)
    rw [List.length_cons, show cells.length + 1 + fuel = cells.length + fuel + 1 by omega,
      List.cons_append, scan]
    have hstep : scanByte t byte (cells ++ rest) pending out = (cells ++ rest, pending, out) := by
      simp only [scanByte, isSectorMark, isDataMark, hclocks, Bool.and_false, Bool.false_eq_true,
        if_false]
      cases pending <;> rfl
    rw [hstep]
    exact ih fun b hb => h b (by simp [hb])

theorem scan_gaps {t fuel n : Nat} {cells rest : List TimedFmByte}
    (h : List.Forall₂ (Fits sectorMap image track) cells (List.replicate n .gap))
    (pending : Option Byte) (out : Exported) :
    scan t (n + fuel) (cells ++ rest) pending out = scan t fuel rest pending out := by
  obtain ⟨hlen, hget⟩ := List.forall₂_iff_get.mp h
  rw [List.length_replicate] at hlen
  rw [← hlen]
  refine scan_gap (fun byte hb => ?_) pending out
  obtain ⟨i, hi, rfl⟩ := List.getElem_of_mem hb
  have := hget i hi (by rw [List.length_replicate]; omega)
  simpa [Fits] using this

/-- The scan of an ID field of this track: its sector is pending. -/
theorem scan_id {t fuel slot : Nat} (ht : t < 77) (hmap : SectorMapOk sectorMap) (hslot : slot < 26)
    {cells rest : List TimedFmByte}
    (h : List.Forall₂ (Fits sectorMap image t) cells
      (.sectorMark :: (List.range 4).map (Cell.id slot) ++ [.idCrc, .idCrc]))
    (pending : Option Byte) (out : Exported) :
    scan t (fuel + 1) (cells ++ rest) pending out = scan t fuel rest (some (sectorMap slot)) out := by
  have hshape : ∃ mark c1 c2 c3 c4 crc1 crc2, cells = [mark, c1, c2, c3, c4, crc1, crc2] := by
    have := h.length_eq
    simp only [List.length_append, List.length_cons, List.length_map, List.length_range,
      List.length_nil] at this
    match cells, this with
    | [mark, c1, c2, c3, c4, crc1, crc2], _ => exact ⟨mark, c1, c2, c3, c4, crc1, crc2, rfl⟩
  obtain ⟨mark, c1, c2, c3, c4, crc1, crc2, rfl⟩ := hshape
  have hrange := hmap.range slot hslot
  simp only [show List.range 4 = [0, 1, 2, 3] from rfl, List.map_cons, List.map_nil, List.cons_append,
    List.nil_append, List.forall₂_cons, Fits, idField] at h
  obtain ⟨⟨hmark, hclocks⟩, h1, h2, h3, h4, _⟩ := h
  simp only [List.getD_cons_succ, List.getD_cons_zero] at h1 h2 h3 h4
  have hid : idSector t ([mark, c1, c2, c3, c4, crc1, crc2] ++ rest) = some (sectorMap slot) := by
    simp only [idSector, List.cons_append, List.getD_cons_succ, List.getD_cons_zero, h1, h2, h3, h4,
      BitVec.toNat_ofNat, sectorsPerTrack]
    exact if_pos ⟨by omega, trivial, hrange.1, hrange.2, trivial⟩
  have hsector : isSectorMark mark = true := by simp [isSectorMark, hmark, hclocks]
  simp only [List.cons_append, List.nil_append] at hid ⊢
  have hstep : scanByte t mark (c1 :: c2 :: c3 :: c4 :: crc1 :: crc2 :: rest) pending out =
      (rest, some (sectorMap slot), out) := by
    unfold scanByte
    dsimp only
    rw [hid, if_pos hsector, if_neg (by simp)]
    rfl
  rw [scan, hstep]

/-- What has been exported so far is what the image holds. -/
def Exported.Agrees (out : Exported) (image : Nat → Byte) : Prop :=
  ∀ sector, out.found sector = true → ∀ offset < 128,
    out.sectorImage (sector * 128 + offset) = image (sector * 128 + offset)

/-- The number of a track's sector in the image. -/
def sectorIndex (track : Nat) (sector : Byte) : Nat := track * 26 + (sector.toNat - 1)

theorem rawOffset_eq (track : Nat) (sector : Byte) :
    rawOffset track sector = sectorIndex track sector * 128 := rfl

theorem copySector_agrees {out : Exported} (h : out.Agrees image) {sector : Nat}
    {bytes : List TimedFmByte}
    (hbytes : ∀ offset < 128, (bytes.getD (1 + offset) {}).data = image (sector * 128 + offset)) :
    (out.copySector sector bytes).Agrees image := by
  intro s hs offset ho
  have hb : bytesPerSector = 128 := rfl
  simp only [Exported.copySector] at hs ⊢
  by_cases he : s = sector
  · subst he
    rw [if_pos (by rw [hb]; omega), hb, Nat.add_sub_cancel_left]
    exact hbytes offset ho
  · rw [if_neg he] at hs
    rw [if_neg (by rw [hb]; omega)]
    exact h s hs offset ho

/-- The scan of a data field with its sector pending copies the sector. -/
theorem scan_data {t slot : Nat} {cells : List TimedFmByte}
    (h : List.Forall₂ (Fits sectorMap image t) cells
      (.dataMark :: (List.range 128).map (Cell.data slot) ++ [.dataCrc, .dataCrc]))
    {out : Exported} (hout : out.Agrees image) (fuel : Nat) (rest : List TimedFmByte) :
    ∃ out', scan t (fuel + 1) (cells ++ rest) (some (sectorMap slot)) out = scan t fuel rest none out' ∧
      out'.Agrees image ∧
      ∀ sector, out'.found sector = true ↔
        sector = sectorIndex t (sectorMap slot) ∨ out.found sector = true := by
  have hlen := h.length_eq
  simp only [List.length_append, List.length_cons, List.length_map, List.length_range,
    List.length_nil] at hlen
  cases cells with
  | nil => cases hlen
  | cons mark data =>
    simp only [List.length_cons] at hlen
    obtain ⟨hmark, htail⟩ := List.forall₂_cons.mp h
    obtain ⟨hkind, hclocks⟩ := hmark
    have hbytes : ∀ offset < 128, ((mark :: (data ++ rest)).getD (1 + offset) {}).data =
        image (sectorIndex t (sectorMap slot) * 128 + offset) := by
      intro offset ho
      obtain ⟨_, hget⟩ := List.forall₂_iff_get.mp htail
      have hfits := hget offset (by omega) (by simp; omega)
      rw [Nat.add_comm 1 offset, List.getD_cons_succ, List.getD_append _ _ _ _ (by omega),
        List.getD_eq_getElem _ _ (by omega)]
      simpa [List.getElem_append, ho, Fits, rawOffset_eq] using hfits
    have hsector : isSectorMark mark = false := by
      rcases hkind with hd | hd <;> simp [isSectorMark, hd]
    have hdata : isDataMark mark = true := by
      rcases hkind with hd | hd <;> simp [isDataMark, hd, hclocks]
    refine ⟨out.copySector (sectorIndex t (sectorMap slot)) (mark :: (data ++ rest)), ?_,
      copySector_agrees hout hbytes, fun sector => ?_⟩
    · have hstep : scanByte t mark (data ++ rest) (some (sectorMap slot)) out =
          (rest, none, out.copySector (sectorIndex t (sectorMap slot)) (mark :: (data ++ rest))) := by
        unfold scanByte
        simp only [hsector, hdata, if_true, Bool.false_eq_true, if_false]
        rw [if_neg (by simp only [List.length_cons, List.length_append, bytesPerSector]; omega)]
        rw [show bytesPerSector + 2 = data.length by simp only [bytesPerSector]; omega, List.drop_left]
        rfl
      rw [List.cons_append, scan, hstep]
    · simp only [Exported.copySector]
      by_cases he : sector = sectorIndex t (sectorMap slot) <;> simp [he]

/-- The scan of one slot finds its sector. -/
theorem scan_slot {t slot : Nat} (ht : t < 77) (hmap : SectorMapOk sectorMap) (hslot : slot < 26)
    {cells : List TimedFmByte} (h : List.Forall₂ (Fits sectorMap image t) cells (slotLayout slot))
    {out : Exported} (hout : out.Agrees image) (fuel : Nat) (rest : List TimedFmByte) :
    ∃ out', scan t (52 + fuel) (cells ++ rest) none out = scan t fuel rest none out' ∧
      out'.Agrees image ∧
      ∀ sector, out'.found sector = true ↔
        sector = sectorIndex t (sectorMap slot) ∨ out.found sector = true := by
  have hshape : slotLayout slot = List.replicate 6 Cell.gap ++
      ((.sectorMark :: (List.range 4).map (Cell.id slot) ++ [.idCrc, .idCrc]) ++
      (List.replicate 11 Cell.gap ++ (List.replicate 6 Cell.gap ++
      ((.dataMark :: (List.range 128).map (Cell.data slot) ++ [.dataCrc, .dataCrc]) ++
      List.replicate 27 Cell.gap)))) := by
    simp only [slotLayout, List.append_assoc, List.cons_append]
  rw [hshape] at h
  obtain ⟨gap1, _, rfl, hgap1, h⟩ := forall₂_split h
  obtain ⟨id, _, rfl, hid, h⟩ := forall₂_split h
  obtain ⟨gap2, _, rfl, hgap2, h⟩ := forall₂_split h
  obtain ⟨sync, _, rfl, hsync, h⟩ := forall₂_split h
  obtain ⟨data, gap3, rfl, hdata, hgap3⟩ := forall₂_split h
  obtain ⟨out', hscan, hagrees, hfound⟩ := scan_data hdata hout (27 + fuel) (gap3 ++ rest)
  refine ⟨out', ?_, hagrees, hfound⟩
  simp only [List.append_assoc]
  rw [show 52 + fuel = 6 + (45 + fuel + 1) by omega, scan_gaps hgap1, scan_id ht hmap hslot hid,
    show 45 + fuel = 11 + (34 + fuel) by omega, scan_gaps hgap2,
    show 34 + fuel = 6 + (27 + fuel + 1) by omega, scan_gaps hsync, hscan, scan_gaps hgap3]

theorem scan_slots {t : Nat} (ht : t < 77) (hmap : SectorMapOk sectorMap) {slots : List Nat}
    (hslots : ∀ slot ∈ slots, slot < 26) {cells : List TimedFmByte}
    (h : List.Forall₂ (Fits sectorMap image t) cells (slots.flatMap slotLayout))
    {out : Exported} (hout : out.Agrees image) (fuel : Nat) (rest : List TimedFmByte) :
    ∃ out', scan t (52 * slots.length + fuel) (cells ++ rest) none out = scan t fuel rest none out' ∧
      out'.Agrees image ∧
      ∀ sector, out'.found sector = true ↔
        (∃ slot ∈ slots, sector = sectorIndex t (sectorMap slot)) ∨ out.found sector = true := by
  induction slots generalizing cells out with
  | nil =>
    rw [List.flatMap_nil, List.forall₂_nil_right_iff] at h
    subst h
    exact ⟨out, by rw [List.length_nil, Nat.mul_zero, Nat.zero_add, List.nil_append], hout, by simp⟩
  | cons slot slots ih =>
    rw [List.flatMap_cons] at h
    obtain ⟨first, others, rfl, hfirst, hothers⟩ := forall₂_split h
    obtain ⟨out₁, hscan₁, hagrees₁, hfound₁⟩ :=
      scan_slot ht hmap (hslots slot (by simp)) hfirst hout (52 * slots.length + fuel) (others ++ rest)
    obtain ⟨out₂, hscan₂, hagrees₂, hfound₂⟩ :=
      ih (fun s hs => hslots s (by simp [hs])) hothers hagrees₁
    refine ⟨out₂, ?_, hagrees₂, fun sector => ?_⟩
    · rw [List.length_cons, show 52 * (slots.length + 1) + fuel = 52 + (52 * slots.length + fuel) by omega,
        List.append_assoc, hscan₁, hscan₂]
    · rw [hfound₂, hfound₁]
      simp only [List.mem_cons, exists_eq_or_imp, or_assoc, or_left_comm]

/-- The scan of a formatted track finds its 26 sectors. -/
theorem scan_track {t : Nat} (ht : t < 77) (hmap : SectorMapOk sectorMap) {bytes : List TimedFmByte}
    (h : FormattedTrack sectorMap image t bytes) {out : Exported} (hout : out.Agrees image) :
    ∃ out', scan t bytes.length bytes none out = out' ∧ out'.Agrees image ∧
      ∀ sector, out'.found sector = true ↔ sector / 26 = t ∨ out.found sector = true := by
  have hlen := h.length
  obtain ⟨_, hfits⟩ := h
  have hshape : trackLayout = List.replicate 40 Cell.gap ++ (List.replicate 6 Cell.gap ++
      ([Cell.indexMark] ++ (List.replicate 26 Cell.gap ++
      ((List.range 26).flatMap slotLayout ++ List.replicate 247 Cell.gap)))) := by
    simp only [trackLayout, List.append_assoc, List.cons_append, List.nil_append]
  rw [hshape] at hfits
  obtain ⟨gap1, _, rfl, hgap1, h⟩ := forall₂_split hfits
  obtain ⟨sync, _, rfl, hsync, h⟩ := forall₂_split h
  obtain ⟨index, _, rfl, hindex, h⟩ := forall₂_split h
  obtain ⟨gap2, _, rfl, hgap2, h⟩ := forall₂_split h
  obtain ⟨slots, gap3, rfl, hslots, hgap3⟩ := forall₂_split h
  obtain ⟨out', hscan, hagrees, hfound⟩ := scan_slots ht hmap (by simp) hslots hout
    (247 + 3536) gap3
  refine ⟨out', ?_, hagrees, fun sector => ?_⟩
  · have hmark : List.Forall₂ (Fits sectorMap image t) index (List.replicate 1 Cell.gap) := by
      obtain ⟨mark, _, hclocks, hnil, rfl⟩ := List.forall₂_cons_right_iff.mp hindex
      rw [List.forall₂_nil_right_iff.mp hnil]
      exact .cons hclocks .nil
    have hend : scan t (247 + 3536) (gap3 ++ []) none out' = scan t 3536 [] none out' :=
      scan_gaps hgap3 none out'
    rw [List.append_nil] at hend
    rw [hlen, show 5208 = 40 + (6 + (1 + (26 + (52 * (List.range 26).length + (247 + 3536))))) by
        rw [List.length_range],
      scan_gaps hgap1, scan_gaps hsync, scan_gaps hmark, scan_gaps hgap2, hscan, hend]
    rfl
  · rw [hfound]
    constructor
    · rintro (⟨slot, hslot, rfl⟩ | hf)
      · have := hmap.range slot (by simpa using hslot)
        left; simp only [sectorIndex]; omega
      · exact .inr hf
    · rintro (rfl | hf)
      · obtain ⟨slot, hslot, he⟩ := hmap.surjective (sector % 26 + 1) (by omega) (by omega)
        exact .inl ⟨slot, by simpa using hslot, by simp only [sectorIndex, he]; omega⟩
      · exact .inr hf

/-! ## Formatted disks -/

/-- A disk that holds the raw image under a sector map. -/
structure FormattedDisk (sectorMap : Nat → Byte) (raw : List Byte) (disk : FloppyDiskImage) : Prop where
  map : SectorMapOk sectorMap
  size : raw.length = imageSize
  tracks : ∀ t : Fin 77,
    FormattedTrack sectorMap (fun i => raw.getD i 0#8) t.val (disk.tracks t).bytes

variable {raw : List Byte} {disk : FloppyDiskImage}

theorem export_formatted (h : FormattedDisk sectorMap raw disk) : exportImage disk = some raw := by
  have hscan : ∀ n ≤ 77, ∃ out : Exported,
      (List.range n).foldlM (fun out physicalTrack =>
        (disk.track physicalTrack).map fun track =>
          scan physicalTrack track.bytes.length track.bytes none out) ({} : Exported) = some out ∧
      out.Agrees (fun i => raw.getD i 0#8) ∧ ∀ sector, out.found sector = true ↔ sector / 26 < n := by
    intro n hn
    induction n with
    | zero => exact ⟨{}, rfl, nofun, by simp⟩
    | succ n ih =>
      obtain ⟨out, hout, hagrees, hfound⟩ := ih (by omega)
      obtain ⟨out', hscan', hagrees', hfound'⟩ :=
        scan_track (t := n) (by omega) h.map (h.tracks ⟨n, by omega⟩) hagrees
      refine ⟨out', ?_, hagrees', fun sector => ?_⟩
      · rw [List.range_succ, List.foldlM_append, hout]
        have htrack : disk.track n = some (disk.tracks ⟨n, by omega⟩) := by
          rw [FloppyDiskImage.track, dif_pos (show n < 77 by omega)]
        simp only [List.foldlM_cons, List.foldlM_nil, Option.bind_eq_bind, Option.bind_some, htrack,
          Option.map_some, hscan']
        rfl
      · rw [hfound', hfound]; omega
  obtain ⟨out, hout, hagrees, hfound⟩ := hscan 77 (Nat.le_refl _)
  have hall : (List.range (trackCount * sectorsPerTrack)).all out.found = true := by
    rw [List.all_eq_true]
    intro sector hs
    rw [List.mem_range] at hs
    rw [hfound]
    simp only [trackCount, sectorsPerTrack] at hs
    omega
  have himage : (List.range imageSize).map out.sectorImage = raw := by
    refine List.ext_getElem (by simp [h.size]) fun i h1 h2 => ?_
    simp only [List.length_map, List.length_range, imageSize, trackCount, sectorsPerTrack,
      bytesPerSector] at h1
    have := hagrees (i / 128) ((hfound _).mpr (by omega)) (i % 128) (by omega)
    rw [show i / 128 * 128 + i % 128 = i by omega] at this
    rw [List.getElem_map, List.getElem_range]
    exact this.trans (List.getD_eq_getElem _ _ h2)
  unfold exportImage
  rw [show trackCount = 77 from rfl] at hall ⊢
  simp only [hout, Option.bind_eq_bind, Option.bind_some, hall, if_true, himage]

/-- Cells one byte time apart around the turn. -/
theorem FormattedTrack.spaced {image : Nat → Byte} {track : Nat} {bytes : List TimedFmByte}
    (h : FormattedTrack sectorMap image track bytes) : TrackSpaced bytes := by
  have hlen := h.length
  have htick : ∀ (i : Nat) (hi : i < bytes.length), bytes[i].tick = i * 384 := h.ticks
  refine ⟨fun byte hb => ?_, List.pairwise_iff_getElem.mpr fun i j hi hj hij => ?_⟩
  · obtain ⟨i, hi, rfl⟩ := List.getElem_of_mem hb
    rw [htick i hi, revolutionTicks]; omega
  · rw [htick i hi, htick j hj, byteTicks, revolutionTicks]; omega

/-- What `import` accepts, it lays out track by track. -/
theorem import_tracks {skew : Byte} (hsize : raw.length = imageSize)
    (hmap : FK1.Ibm3740SectorImage.sectorMap skew = some sectorMap) :
    ∃ disk, importImage raw skew = some disk ∧
      ∀ t : Fin 77, (disk.tracks t).bytes = appendAll (trackCells raw sectorMap t.val) := by
  have hfold : ∀ n ≤ 77, ∃ disk : FloppyDiskImage,
      (List.range n).foldlM (fun disk trackNumber =>
        let result := disk.setTrack trackNumber (appendAll (trackCells raw sectorMap trackNumber))
        if result.1 then some result.2 else none) ({} : FloppyDiskImage) = some disk ∧
      ∀ t : Fin 77, t.val < n →
        (disk.tracks t).bytes = appendAll (trackCells raw sectorMap t.val) := by
    intro n hn
    induction n with
    | zero => exact ⟨{}, rfl, by intro t ht; cases ht⟩
    | succ n ih =>
      obtain ⟨disk, hdisk, htracks⟩ := ih (by omega)
      have haccept : setBytesAccepts (appendAll (trackCells raw sectorMap n)) = true :=
        (setBytesAccepts_iff _).mpr (formatted_appendAll (trackCells_fits raw)).spaced
      refine ⟨(disk.setTrack n (appendAll (trackCells raw sectorMap n))).2, ?_, fun t ht => ?_⟩
      · rw [List.range_succ, List.foldlM_append, hdisk]
        simp [FloppyDiskImage.setTrack, FloppyTrack.setBytes, haccept, show n < 77 by omega]
      · simp only [FloppyDiskImage.setTrack, dif_pos (show n < 77 by omega), FloppyTrack.setBytes,
          dif_pos haccept]
        by_cases he : t = ⟨n, by omega⟩
        · rw [he, FloppyDiskImage.put_self]
        · rw [FloppyDiskImage.put_other _ _ he]
          exact htracks t (by have : t.val ≠ n := fun h => he (Fin.ext h); omega)
  obtain ⟨disk, hdisk, htracks⟩ := hfold 77 (Nat.le_refl _)
  refine ⟨disk, ?_, fun t => htracks t t.isLt⟩
  unfold importImage
  rw [if_neg (not_not.mpr hsize), hmap]
  exact hdisk

/-- `import` wants an image of the right size and a skew with a sector map. -/
theorem import_accepts {skew : Byte} (himport : importImage raw skew = some disk) :
    raw.length = imageSize ∧ ∃ map, FK1.Ibm3740SectorImage.sectorMap skew = some map := by
  have hsize : raw.length = imageSize := by
    by_contra hsize
    rw [importImage, if_pos hsize] at himport
    cases himport
  refine ⟨hsize, ?_⟩
  cases hmap : FK1.Ibm3740SectorImage.sectorMap skew with
  | none =>
    rw [importImage, if_neg (not_not.mpr hsize), hmap] at himport
    cases himport
  | some map => exact ⟨map, rfl⟩

theorem import_formatted {skew : Byte} (hsize : raw.length = imageSize)
    (hmap : FK1.Ibm3740SectorImage.sectorMap skew = some sectorMap) :
    ∃ disk, importImage raw skew = some disk ∧ FormattedDisk sectorMap raw disk := by
  obtain ⟨disk, hdisk, htracks⟩ := import_tracks hsize hmap
  refine ⟨disk, hdisk, sectorMap_ok hmap, hsize, fun t => ?_⟩
  rw [htracks t]
  exact formatted_appendAll (trackCells_fits raw)

theorem imported_formatted {skew : Byte} (himport : importImage raw skew = some disk) :
    ∃ map, FK1.Ibm3740SectorImage.sectorMap skew = some map ∧ FormattedDisk map raw disk := by
  obtain ⟨hsize, map, hmap⟩ := import_accepts himport
  obtain ⟨disk₁, hdisk₁, hformatted⟩ := import_formatted hsize hmap
  cases himport.symm.trans hdisk₁
  exact ⟨map, hmap, hformatted⟩

/-! ## Writing cells -/

structure TrackWrite where
  track : Fin 77
  byte : TimedFmByte

/-- `write_byte` on one of the disk's tracks. -/
def writeCell (disk : FloppyDiskImage) (w : TrackWrite) : Bool × FloppyDiskImage :=
  let result := (disk.tracks w.track).writeByte w.byte
  (result.1, disk.put w.track result.2)

/-- The disk after a sequence of writes that all succeed. -/
def writeCells (disk : FloppyDiskImage) (writes : List TrackWrite) : Option FloppyDiskImage :=
  writes.foldlM (fun disk w =>
    let result := writeCell disk w
    if result.1 then some result.2 else none) disk

/-- A data or data CRC cell takes any byte, a data mark cell a data mark, a gap or sync cell anything
that is not clocked as a sector mark. -/
def Permits (cell : Cell) (byte : TimedFmByte) : Prop :=
  match cell with
  | .data _ _ | .dataCrc => True
  | .dataMark => (byte.data = 0xFB#8 ∨ byte.data = 0xF8#8) ∧ byte.clocks = 0xC7#8
  | .gap => byte.clocks ≠ 0xC7#8
  | _ => False

/-- The write hits an existing cell of an imported track and that cell permits it. -/
def Permitted (w : TrackWrite) : Prop :=
  ∃ position cell, w.byte.tick = position * byteTicks ∧ trackLayout[position]? = some cell ∧
    Permits cell w.byte

/-- The offset in the raw image of what a data cell holds. -/
def cellOffset (sectorMap : Nat → Byte) (track : Nat) : Cell → Option Nat
  | .data slot offset => some (rawOffset track (sectorMap slot) + offset)
  | _ => none

def writeOffset (sectorMap : Nat → Byte) (w : TrackWrite) : Option Nat :=
  trackLayout[w.byte.tick / byteTicks]?.bind (cellOffset sectorMap w.track.val)

/-- The raw image with the byte of each written data cell replaced. -/
def replaced (sectorMap : Nat → Byte) (raw : List Byte) (writes : List TrackWrite) : List Byte :=
  writes.foldl (fun raw w =>
    match writeOffset sectorMap w with
    | some offset => raw.set offset w.byte.data
    | none => raw) raw

theorem getElem?_append_cases {α : Type} {as bs : List α} {i : Nat} {x : α}
    (h : (as ++ bs)[i]? = some x) :
    as[i]? = some x ∨ as.length ≤ i ∧ bs[i - as.length]? = some x := by
  rw [List.getElem?_append] at h
  split at h
  · exact .inl h
  · rename_i hi; exact .inr ⟨by omega, h⟩

theorem getElem?_replicate_eq {α : Type} {a x : α} {n i : Nat}
    (h : (List.replicate n a)[i]? = some x) : x = a :=
  List.eq_of_mem_replicate (List.mem_of_getElem? h)

theorem getElem?_map_range {α : Type} {f : Nat → α} {n i : Nat} {x : α}
    (h : ((List.range n).map f)[i]? = some x) : i < n ∧ x = f i := by
  obtain ⟨hlt, he⟩ := List.getElem?_eq_some_iff.mp h
  rw [List.getElem_map, List.getElem_range] at he
  exact ⟨by simpa using hlt, he.symm⟩

/-- The data cells of a slot start at its cell 31. -/
theorem slot_data_position {s position slot offset : Nat}
    (h : (slotLayout s)[position]? = some (.data slot offset)) :
    slot = s ∧ offset < 128 ∧ position = 31 + offset := by
  have hshape : slotLayout s = List.replicate 6 Cell.gap ++ ([Cell.sectorMark] ++
      ((List.range 4).map (Cell.id s) ++ ([Cell.idCrc, Cell.idCrc] ++ (List.replicate 17 Cell.gap ++
      ([Cell.dataMark] ++ ((List.range 128).map (Cell.data s) ++ (List.replicate 2 Cell.dataCrc ++
      List.replicate 27 Cell.gap))))))) := by
    rw [show List.replicate 17 Cell.gap = List.replicate 11 Cell.gap ++ List.replicate 6 Cell.gap from rfl]
    simp only [slotLayout, List.append_assoc, List.cons_append, List.nil_append]
    rfl
  rw [hshape] at h
  rcases getElem?_append_cases h with h | ⟨h1, h⟩
  · cases getElem?_replicate_eq h
  rcases getElem?_append_cases h with h | ⟨h2, h⟩
  · cases List.mem_singleton.mp (List.mem_of_getElem? h)
  rcases getElem?_append_cases h with h | ⟨h3, h⟩
  · cases (getElem?_map_range h).2
  rcases getElem?_append_cases h with h | ⟨h4, h⟩
  · have := List.mem_of_getElem? h; simp at this
  rcases getElem?_append_cases h with h | ⟨h5, h⟩
  · cases getElem?_replicate_eq h
  rcases getElem?_append_cases h with h | ⟨h6, h⟩
  · cases List.mem_singleton.mp (List.mem_of_getElem? h)
  rcases getElem?_append_cases h with h | ⟨h7, h⟩
  · obtain ⟨hlt, he⟩ := getElem?_map_range h
    cases he
    simp only [List.length_replicate, List.length_cons, List.length_nil, List.length_map,
      List.length_range] at h1 h2 h3 h4 h5 h6 hlt ⊢
    exact ⟨trivial, hlt, by omega⟩
  rcases getElem?_append_cases h with h | ⟨_, h⟩
  · cases getElem?_replicate_eq h
  · cases getElem?_replicate_eq h

theorem slots_data_position {n position slot offset : Nat}
    (h : ((List.range n).flatMap slotLayout)[position]? = some (.data slot offset)) :
    slot < n ∧ offset < 128 ∧ position = 188 * slot + 31 + offset := by
  induction n with
  | zero => simp at h
  | succ n ih =>
    rw [List.range_succ, List.flatMap_append, List.flatMap_singleton] at h
    have hlen : ((List.range n).flatMap slotLayout).length = 188 * n := by
      simp only [List.length_flatMap, slotLayout_length, List.map_const', List.sum_replicate_nat,
        List.length_range]
      omega
    rcases getElem?_append_cases h with h | ⟨hle, h⟩
    · have := ih h; omega
    · have := slot_data_position h; omega

/-- Where the data cells are. -/
theorem data_position {position slot offset : Nat}
    (h : trackLayout[position]? = some (.data slot offset)) :
    slot < 26 ∧ offset < 128 ∧ position = 104 + 188 * slot + offset := by
  have hshape : trackLayout = List.replicate 46 Cell.gap ++ ([Cell.indexMark] ++
      (List.replicate 26 Cell.gap ++ ((List.range 26).flatMap slotLayout ++
      List.replicate 247 Cell.gap))) := by
    rw [show List.replicate 46 Cell.gap = List.replicate 40 Cell.gap ++ List.replicate 6 Cell.gap from rfl]
    simp only [trackLayout, List.append_assoc, List.cons_append, List.nil_append]
  rw [hshape] at h
  rcases getElem?_append_cases h with h | ⟨h1, h⟩
  · cases getElem?_replicate_eq h
  rcases getElem?_append_cases h with h | ⟨h2, h⟩
  · cases List.mem_singleton.mp (List.mem_of_getElem? h)
  rcases getElem?_append_cases h with h | ⟨h3, h⟩
  · cases getElem?_replicate_eq h
  rcases getElem?_append_cases h with h | ⟨_, h⟩
  · have := slots_data_position h
    simp only [List.length_replicate, List.length_cons, List.length_nil] at *
    omega
  · cases getElem?_replicate_eq h

/-- Fitting a cell depends on the image at its own offset only. -/
theorem fits_image {image image' : Nat → Byte} {t : Nat} {byte : TimedFmByte} {cell : Cell}
    (h : Fits sectorMap image t byte cell)
    (hsame : ∀ slot offset, cell = .data slot offset →
      image' (rawOffset t (sectorMap slot) + offset) = image (rawOffset t (sectorMap slot) + offset)) :
    Fits sectorMap image' t byte cell := by
  cases cell with
  | data slot offset =>
    have := hsame slot offset rfl
    simp only [Fits] at h ⊢
    rw [this]; exact h
  | _ => exact h

/-- A track in which one cell is rewritten, for an image that only changes under that cell. -/
theorem FormattedTrack.write {image image' : Nat → Byte} {t : Nat} {bytes : List TimedFmByte}
    (h : FormattedTrack sectorMap image t bytes) {position : Nat} {byte : TimedFmByte}
    (htick : byte.tick = position * byteTicks)
    (hfits : ∀ cell, trackLayout[position]? = some cell → Fits sectorMap image' t byte cell)
    (hsame : ∀ position' slot offset, position' ≠ position →
      trackLayout[position']? = some (.data slot offset) →
      image' (rawOffset t (sectorMap slot) + offset) = image (rawOffset t (sectorMap slot) + offset)) :
    FormattedTrack sectorMap image' t (bytes.map fun c => if c.tick = byte.tick then byte else c) := by
  obtain ⟨hlen, hget⟩ := List.forall₂_iff_get.mp h.fits
  have htick' : ∀ (i : Nat) (hi : i < bytes.length), bytes[i].tick = i * byteTicks := h.ticks
  refine ⟨fun i hi => ?_, List.forall₂_iff_get.mpr ⟨by simp [hlen], fun i h1 h2 => ?_⟩⟩
  · rw [List.length_map] at hi
    have := htick' i hi
    simp only [List.get_eq_getElem, List.getElem_map]
    split
    · omega
    · exact this
  · rw [List.length_map] at h1
    have hcell : trackLayout[i]? = some trackLayout[i] := List.getElem?_eq_getElem h2
    have hi := htick' i h1
    simp only [List.get_eq_getElem, List.getElem_map]
    by_cases he : bytes[i].tick = byte.tick
    · rw [if_pos he]
      have : i = position := by
        rw [hi, htick] at he; exact Nat.eq_of_mul_eq_mul_right (by decide) he
      subst this
      exact hfits _ hcell
    · rw [if_neg he]
      have hne : i ≠ position := by rintro rfl; exact he (hi.trans htick.symm)
      refine fits_image (hget i h1 h2) fun slot offset hdata => ?_
      exact hsame i slot offset hne (hdata ▸ hcell)

theorem getD_set_ne (raw : List Byte) {i j : Nat} (value : Byte) (h : i ≠ j) :
    (raw.set j value).getD i 0#8 = raw.getD i 0#8 := by
  simp [List.getD_eq_getElem?_getD, List.getElem?_set_ne (Ne.symm h)]

/-- One sector's bytes lie apart from another's, and inside the image. -/
theorem rawOffset_inj {t t' : Nat} {sector sector' : Byte} {offset offset' : Nat}
    (h : 1 ≤ sector.toNat ∧ sector.toNat ≤ 26) (h' : 1 ≤ sector'.toNat ∧ sector'.toNat ≤ 26)
    (ho : offset < 128) (ho' : offset' < 128)
    (he : rawOffset t sector + offset = rawOffset t' sector' + offset') :
    t = t' ∧ sector = sector' ∧ offset = offset' := by
  simp only [rawOffset, sectorsPerTrack, bytesPerSector] at he
  have hsector : sector.toNat = sector'.toNat := by omega
  exact ⟨by omega, BitVec.eq_of_toNat_eq hsector, by omega⟩

/-- A permitted write succeeds and leaves a disk that holds the replaced image. -/
theorem writeCell_formatted (h : FormattedDisk sectorMap raw disk) {w : TrackWrite}
    (hw : Permitted w) :
    (writeCell disk w).1 = true ∧
      FormattedDisk sectorMap (replaced sectorMap raw [w]) (writeCell disk w).2 := by
  obtain ⟨position, cell, htick, hcell, hpermit⟩ := hw
  have htrack := h.tracks w.track
  -- the cell is there, so the write replaces it in place
  have hposition : position < (disk.tracks w.track).bytes.length := by
    rw [htrack.length, ← show trackLayout.length = 5208 from trackLayout_length]
    exact (List.getElem?_eq_some_iff.mp hcell).1
  have hwrite := writeByte?_of_mem (disk.tracks w.track).spaced
    (List.getElem_mem hposition) ((htrack.ticks position hposition).trans htick.symm)
  obtain ⟨hok, hbytes⟩ := FloppyTrack.writeByte_of_some hwrite
  refine ⟨hok, h.map, ?_, fun t => ?_⟩
  · simp only [replaced, List.foldl_cons, List.foldl_nil]
    split
    · rw [List.length_set]; exact h.size
    · exact h.size
  have hoffset : writeOffset sectorMap w = cellOffset sectorMap w.track.val cell := by
    have hdiv : w.byte.tick / byteTicks = position := by
      rw [htick]; exact Nat.mul_div_cancel _ (by decide)
    rw [writeOffset, hdiv, hcell, Option.bind_some]
  have hreplaced : ∀ (t : Nat) (position' slot offset : Nat), position' ≠ position ∨ t ≠ w.track.val →
      trackLayout[position']? = some (.data slot offset) →
      (replaced sectorMap raw [w]).getD (rawOffset t (sectorMap slot) + offset) 0#8 =
        raw.getD (rawOffset t (sectorMap slot) + offset) 0#8 := by
    intro t position' slot offset hne hdata
    simp only [replaced, List.foldl_cons, List.foldl_nil, hoffset]
    cases cell with
    | data slot' offset' =>
      refine getD_set_ne raw _ fun he => ?_
      obtain ⟨hslot, ho, hp⟩ := data_position hdata
      obtain ⟨hslot', ho', hp'⟩ := data_position hcell
      obtain ⟨ht, hsector, hoff⟩ := rawOffset_inj (h.map.range slot hslot) (h.map.range slot' hslot')
        ho ho' he
      have := h.map.injective slot hslot slot' hslot' hsector
      omega
    | _ => rfl
  by_cases ht : t = w.track
  · subst ht
    have hput : ((writeCell disk w).2.tracks w.track).bytes =
        (disk.tracks w.track).bytes.map fun c => if c.tick = w.byte.tick then w.byte else c := by
      rw [writeCell]; simp only [FloppyDiskImage.put_self]; exact hbytes
    rw [hput]
    refine htrack.write htick (fun cell' hcell' => ?_) fun position' slot offset hne hdata =>
      hreplaced _ position' slot offset (.inl hne) hdata
    cases hcell.symm.trans hcell'
    cases cell with
    | data slot offset =>
      obtain ⟨hslot, ho, _⟩ := data_position hcell
      have hrange := h.map.range slot hslot
      have hlt : rawOffset w.track.val (sectorMap slot) + offset < raw.length := by
        have := w.track.isLt
        rw [h.size]
        simp only [rawOffset, imageSize, trackCount, sectorsPerTrack, bytesPerSector]
        omega
      simp [Fits, replaced, hoffset, cellOffset, List.getElem?_set_self hlt]
    | gap | dataMark => exact hpermit
    | dataCrc => trivial
    | indexMark | sectorMark | id | idCrc => exact hpermit.elim
  · have hput : (writeCell disk w).2.tracks t = disk.tracks t := by
      rw [writeCell]; exact FloppyDiskImage.put_other _ _ ht
    rw [hput]
    obtain ⟨hticks, hfits⟩ := h.tracks t
    refine ⟨hticks, ?_⟩
    obtain ⟨hlen, hget⟩ := List.forall₂_iff_get.mp hfits
    refine List.forall₂_iff_get.mpr ⟨hlen, fun i h1 h2 => fits_image (hget i h1 h2)
      fun slot offset hdata => ?_⟩
    exact hreplaced t.val i slot offset (.inr fun he => ht (Fin.ext he))
      (hdata ▸ List.getElem?_eq_getElem h2)

theorem writeCells_formatted (h : FormattedDisk sectorMap raw disk) {writes : List TrackWrite}
    (hw : ∀ w ∈ writes, Permitted w) :
    ∃ disk', writeCells disk writes = some disk' ∧
      FormattedDisk sectorMap (replaced sectorMap raw writes) disk' := by
  induction writes generalizing raw disk with
  | nil => exact ⟨disk, rfl, h⟩
  | cons w writes ih =>
    obtain ⟨hok, hnext⟩ := writeCell_formatted h (hw w (by simp))
    obtain ⟨disk', hdisk', hformatted⟩ := ih hnext fun w' hw' => hw w' (by simp [hw'])
    refine ⟨disk', ?_, hformatted⟩
    rw [writeCells, List.foldlM_cons]
    simp only [hok, if_true, Option.bind_eq_bind, Option.bind_some]
    exact hdisk'

/-- An imported image, changed by any permitted writes of existing cells, exports as the raw image with
the written data bytes replaced. -/
theorem export_of_written_import (raw : List Byte) (skew : Byte) (disk : FloppyDiskImage)
    (himport : importImage raw skew = some disk) :
    ∃ map, FK1.Ibm3740SectorImage.sectorMap skew = some map ∧
      ∀ writes : List TrackWrite, (∀ w ∈ writes, Permitted w) →
        ∃ disk', writeCells disk writes = some disk' ∧
          exportImage disk' = some (replaced map raw writes) := by
  obtain ⟨map, hmap, hformatted⟩ := imported_formatted himport
  refine ⟨map, hmap, fun writes hw => ?_⟩
  obtain ⟨disk', hdisk', hformatted'⟩ := writeCells_formatted hformatted hw
  exact ⟨disk', hdisk', export_formatted hformatted'⟩

/-- The empty image with skew 6, a data byte of the first slot and its data mark rewritten. -/
theorem export_of_written_import_blank :
    ∃ disk map, importImage (List.replicate imageSize 0#8) defaultSectorSkew = some disk ∧
      FK1.Ibm3740SectorImage.sectorMap defaultSectorSkew = some map ∧
      ∃ disk', writeCells disk
          [⟨0, ⟨104 * 384, 0xE5#8, 0xC7#8⟩⟩, ⟨0, ⟨103 * 384, 0xF8#8, 0xC7#8⟩⟩] = some disk' ∧
        exportImage disk' = some (replaced map (List.replicate imageSize 0#8)
          [⟨0, ⟨104 * 384, 0xE5#8, 0xC7#8⟩⟩, ⟨0, ⟨103 * 384, 0xF8#8, 0xC7#8⟩⟩]) := by
  have hmap : (FK1.Ibm3740SectorImage.sectorMap defaultSectorSkew).isSome = true := by decide
  obtain ⟨map, hmap⟩ := Option.isSome_iff_exists.mp hmap
  obtain ⟨disk, hdisk, _⟩ := import_formatted List.length_replicate hmap
  obtain ⟨map', hmap', hwrites⟩ := export_of_written_import _ _ disk hdisk
  refine ⟨disk, map', hdisk, hmap', hwrites _ fun w hw => ?_⟩
  rcases List.mem_cons.mp hw with rfl | hw
  · exact ⟨104, .data 0 0, rfl, by decide, trivial⟩
  · rw [List.mem_singleton.mp hw]
    exact ⟨103, .dataMark, rfl, by decide, .inr rfl, rfl⟩

end Ibm3740SectorImage
end FK1
