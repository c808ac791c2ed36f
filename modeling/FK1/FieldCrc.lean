import FK1.Lib.Crc
import FK1.SectorRoundTrip
import FK1.ExportSound

/-!
# FK1.FieldCrc

The CRC of the ID and data fields: `update_crc` is the register of `Lib.Crc` with the polynomial 1021h.

* `Verifies` — every mark of a string of cells opens a field whose CRC is 0, CRC bytes included; `import`
  lays out tracks that verify (`trackCells_verify`).
-/

namespace FK1
namespace Ibm3740SectorImage

/-! ## The register -/

def polynomial : Word := 0x1021#16

theorem updateCrcBit_eq (crc : Word) : updateCrcBit crc = Crc.shift polynomial crc := by
  have hmask : (0x8000#16 : Word) = BitVec.twoPow 16 15 := by decide
  have htop : (crc &&& 0x8000#16 != 0#16) = crc.msb := by
    rw [hmask, BitVec.and_twoPow, BitVec.msb_eq_getLsbD_last]
    cases crc.getLsbD 15 <;> rfl
  rw [updateCrcBit, htop]
  rfl

theorem updateCrc_eq (crc : Word) (value : Byte) :
    updateCrc crc value = Crc.update polynomial crc value := by
  have hbit : updateCrcBit = Crc.shift polynomial := funext updateCrcBit_eq
  rw [updateCrc, hbit]
  rfl

theorem crc16_eq (bytes : List Byte) : crc16 bytes = Crc.digest polynomial 0xFFFF#16 bytes := by
  have hupdate : updateCrc = Crc.update polynomial := funext fun crc => funext (updateCrc_eq crc)
  rw [crc16, hupdate]
  rfl

theorem polynomial_odd : polynomial.getLsbD 0 = true := by decide

/-- The high and the low byte of a CRC. -/
def crcBytes (crc : Word) : List Byte := [(crc >>> 8).setWidth 8, crc.setWidth 8]

theorem crcBytes_bits (crc : Word) : (crcBytes crc).flatMap Crc.bits = Crc.bits crc := by
  have hsplit : ((crc >>> 8).setWidth 8 ++ crc.setWidth 8 : Word) = crc := by
    refine BitVec.eq_of_getLsbD_eq fun i hi => ?_
    rw [BitVec.getLsbD_append]
    split
    · simp [*]
    · rename_i hlow
      have hindex : 8 + (i - 8) = i := by omega
      simp [hindex, show i - 8 < 8 by omega]
  rw [crcBytes, List.flatMap_cons, List.flatMap_cons, List.flatMap_nil, List.append_nil,
    ← Crc.bits_append, hsplit]

/-- A string followed by the high and the low byte of its CRC. -/
def withCrc (bytes : List Byte) : List Byte := bytes ++ crcBytes (crc16 bytes)

theorem crc16_withCrc (bytes : List Byte) : crc16 (withCrc bytes) = 0#16 := by
  rw [withCrc, crc16_eq, crc16_eq]
  exact Crc.digest_residue (by decide) (crcBytes_bits _)

/-! ## Fields -/

/-- Every mark opens a field whose CRC is 0: an ID field of 7 cells or a data field of 131. -/
def Verifies (cells : List TimedFmByte) : Prop :=
  ∀ byte rest, byte :: rest <:+ cells →
    (isSectorMark byte = true → crc16 (((byte :: rest).take 7).map (·.data)) = 0#16) ∧
      (isDataMark byte = true → crc16 (((byte :: rest).take 131).map (·.data)) = 0#16)

variable {cells rest : List TimedFmByte} {raw : List Byte} {sectorMap : Nat → Byte} {track : Nat}

theorem verifies_nil : Verifies [] := by
  intro byte rest hsuffix
  cases List.suffix_nil.mp hsuffix

theorem not_mark {byte : TimedFmByte} (h : byte.clocks ≠ sectorMarkClocks) :
    ¬isSectorMark byte = true ∧ ¬isDataMark byte = true := by
  unfold isSectorMark isDataMark
  simp [h]

theorem Verifies.gap {gap : List TimedFmByte} (hgap : ∀ byte ∈ gap, byte.clocks ≠ sectorMarkClocks)
    (h : Verifies rest) : Verifies (gap ++ rest) := by
  induction gap with
  | nil => exact h
  | cons byte gap ih =>
    obtain ⟨hbyte, hgap⟩ := List.forall_mem_cons.mp hgap
    intro byte' rest' hsuffix
    obtain hself | hlater := List.suffix_cons_iff.mp hsuffix
    · obtain ⟨rfl, rfl⟩ := List.cons.inj hself
      obtain ⟨hsector, hdata⟩ := not_mark hbyte
      exact ⟨fun hmark => absurd hmark hsector, fun hmark => absurd hmark hdata⟩
    · exact ih hgap byte' rest' hlater

theorem Verifies.ordinary (h : Verifies rest) (values : List Byte) :
    Verifies (values.map ordinary ++ rest) := by
  refine h.gap fun byte hbyte => ?_
  obtain ⟨value, -, rfl⟩ := List.mem_map.mp hbyte
  show ordinaryClocks ≠ sectorMarkClocks
  decide

theorem appendRepeat_eq (count : Nat) (value : Byte) :
    appendRepeat count value = (List.replicate count value).map Ibm3740SectorImage.ordinary :=
  List.map_replicate.symm

theorem Verifies.appendRepeat (h : Verifies rest) (count : Nat) (value : Byte) :
    Verifies (appendRepeat count value ++ rest) := by
  rw [appendRepeat_eq]
  exact h.ordinary _

/-- The cells of a field as `import` appends them. -/
def fieldCells (mark : Byte) (values : List Byte) : List TimedFmByte :=
  { data := mark, clocks := sectorMarkClocks }
    :: (values ++ crcBytes (crc16 (mark :: values))).map ordinary

theorem fieldCells_data (mark : Byte) (values : List Byte) (rest : List TimedFmByte) :
    ((fieldCells mark values ++ rest).take (values.length + 3)).map (·.data) =
      withCrc (mark :: values) := by
  have hlength : (fieldCells mark values).length = values.length + 3 := by
    simp [fieldCells, crcBytes]
  have hordinary : ∀ values : List Byte, (values.map ordinary).map (·.data) = values := by
    intro values
    rw [List.map_map]
    exact List.map_id values
  rw [← hlength, List.take_left, fieldCells, List.map_cons, hordinary]
  rfl

/-- An ID mark with four bytes, or a data mark with 128, and their CRC. -/
theorem Verifies.field {mark : Byte} {values : List Byte} (h : Verifies rest)
    (hsector : mark = 0xFE#8 → values.length = 4)
    (hdata : mark = 0xFB#8 ∨ mark = 0xF8#8 → values.length = 128) :
    Verifies (fieldCells mark values ++ rest) := by
  have hcrc := congrArg crc16 (fieldCells_data mark values rest)
  rw [crc16_withCrc] at hcrc
  intro byte rest' hsuffix
  obtain hself | hlater := List.suffix_cons_iff.mp hsuffix
  · rw [hself]
    obtain ⟨rfl, -⟩ := List.cons.inj hself
    refine ⟨fun hmark => ?_, fun hmark => ?_⟩
    · simp only [isSectorMark, Bool.and_eq_true, beq_iff_eq] at hmark
      rw [hsector hmark.1] at hcrc
      exact hcrc
    · simp only [isDataMark, Bool.and_eq_true, Bool.or_eq_true, beq_iff_eq] at hmark
      rw [hdata hmark.1] at hcrc
      exact hcrc
  · exact h.ordinary _ byte rest' hlater

/-! ## Imported tracks -/

theorem sectorCells_eq (raw : List Byte) (track : Nat) (sector : Byte) :
    sectorCells raw track sector =
      appendRepeat 6 0x00#8 ++ (fieldCells 0xFE#8 (idField track sector).tail ++
        (appendRepeat 11 0xFF#8 ++ (appendRepeat 6 0x00#8 ++
          (fieldCells 0xFB#8 (sectorData raw track sector) ++ appendRepeat 27 0xFF#8)))) := by
  simp only [sectorCells, fieldCells, idField, List.tail_cons, List.map_append, List.append_assoc,
    List.cons_append]
  rfl

theorem sectorCells_verify (h : Verifies rest) (sector : Byte) :
    Verifies (sectorCells raw track sector ++ rest) := by
  have hdata : (sectorData raw track sector).length = 128 := by
    simp [sectorData, bytesPerSector]
  rw [sectorCells_eq]
  simp only [List.append_assoc]
  refine .appendRepeat (.field (.appendRepeat (.appendRepeat (.field (.appendRepeat h 27 _) ?_ ?_) 6 _)
    11 _) ?_ ?_) 6 _
  · exact fun hmark => absurd hmark (by decide)
  · exact fun _ => hdata
  · exact fun _ => rfl
  · exact fun hmark => absurd hmark (by decide)

theorem trackCells_verify (raw : List Byte) (sectorMap : Nat → Byte) (track : Nat) :
    Verifies (trackCells raw sectorMap track) := by
  have hslots : ∀ (slots : List Nat) {rest : List TimedFmByte}, Verifies rest →
      Verifies ((slots.flatMap fun slot => sectorCells raw track (sectorMap slot)) ++ rest) := by
    intro slots rest h
    induction slots with
    | nil => exact h
    | cons slot slots ih =>
      rw [List.flatMap_cons, List.append_assoc]
      exact sectorCells_verify ih _
  have hindex : ∀ byte ∈ [({ data := 0xFC#8, clocks := indexMarkClocks } : TimedFmByte)],
      byte.clocks ≠ sectorMarkClocks := by
    intro byte hbyte
    rw [List.mem_singleton.mp hbyte]
    decide
  have htail : Verifies (appendRepeat 247 0xFF#8) := by
    have hgap := verifies_nil.appendRepeat 247 0xFF#8
    rwa [List.append_nil] at hgap
  have htrack := (((hslots (List.range sectorsPerTrack) htail).appendRepeat 26 0xFF#8).gap hindex)
  have hwhole := (htrack.appendRepeat 6 0x00#8).appendRepeat 40 0xFF#8
  simpa only [trackCells, List.append_assoc, List.cons_append, List.nil_append] using hwhole

/-! ## Ticks -/

/-- What does not look at ticks sees the cells as they were appended. -/
theorem map_appendAll {α : Type} {f : TimedFmByte → α}
    (hf : ∀ byte tick, f { byte with tick := tick } = f byte) (cells : List TimedFmByte) :
    (appendAll cells).map f = cells.map f := by
  have hticks : (f ∘ fun cell : TimedFmByte × Nat => { cell.1 with tick := cell.2 * byteTicks }) =
      f ∘ Prod.fst := funext fun cell => hf _ _
  rw [appendAll, List.mapIdx_eq_zipIdx_map, List.map_map]
  show cells.zipIdx.map (f ∘ fun cell : TimedFmByte × Nat => _) = _
  rw [hticks, ← List.map_map, List.zipIdx_map_fst]

theorem countP_appendAll {p : TimedFmByte → Bool}
    (hp : ∀ byte tick, p { byte with tick := tick } = p byte) (cells : List TimedFmByte) :
    (appendAll cells).countP p = cells.countP p := by
  have hmap := congrArg (List.countP id) (map_appendAll hp cells)
  rwa [List.countP_map, List.countP_map] at hmap

theorem verifies_appendAll (h : Verifies cells) : Verifies (appendAll cells) := by
  intro byte rest hsuffix
  obtain ⟨before, hbefore⟩ := hsuffix
  have hmap := map_appendAll (f := fun c => (c.data, c.clocks)) (fun _ _ => rfl) cells
  rw [← hbefore] at hmap
  obtain ⟨before', suffix, rfl, -, hsuffix⟩ := List.map_eq_append_iff.mp (hmap.symm.trans List.map_append)
  have hdata := congrArg (List.map Prod.fst) hsuffix
  rw [List.map_map, List.map_map] at hdata
  cases suffix with
  | nil => cases hsuffix
  | cons c rest' =>
    obtain ⟨hvalue, hclocks⟩ := Prod.mk.inj (List.cons.inj hsuffix).1
    have hsector : isSectorMark c = isSectorMark byte := by
      rw [isSectorMark, isSectorMark, hvalue, hclocks]
    have hmark : isDataMark c = isDataMark byte := by rw [isDataMark, isDataMark, hvalue, hclocks]
    have hmarks := h c rest' (List.suffix_append before' (c :: rest'))
    rw [hsector, hmark, List.map_take, List.map_take] at hmarks
    rw [List.map_take, List.map_take]
    exact hdata ▸ hmarks

/-! ## Marks of a track -/

section

variable {p : TimedFmByte → Bool}

theorem countP_ordinary (hp : ∀ value, p (ordinary value) = false) (values : List Byte) :
    (values.map ordinary).countP p = 0 := by
  refine List.countP_eq_zero.mpr fun byte hbyte => ?_
  obtain ⟨value, -, rfl⟩ := List.mem_map.mp hbyte
  rw [hp]
  exact Bool.false_ne_true

theorem countP_slot (hp : ∀ value, p (ordinary value) = false)
    (hmarks : p { data := 0xFE#8, clocks := sectorMarkClocks } =
      !p { data := 0xFB#8, clocks := sectorMarkClocks }) (sector : Byte) :
    (sectorCells raw track sector).countP p = 1 := by
  have hgap : ∀ count value, (appendRepeat count value).countP p = 0 := by
    intro count value
    rw [appendRepeat_eq]
    exact countP_ordinary hp _
  rw [sectorCells_eq]
  simp only [List.countP_append, hgap, fieldCells, List.countP_cons, countP_ordinary hp, hmarks]
  cases p { data := 0xFB#8, clocks := sectorMarkClocks } <;> rfl

theorem countP_track (hp : ∀ value, p (ordinary value) = false)
    (hmarks : p { data := 0xFE#8, clocks := sectorMarkClocks } =
      !p { data := 0xFB#8, clocks := sectorMarkClocks })
    (hindex : p { data := 0xFC#8, clocks := indexMarkClocks } = false) :
    (trackCells raw sectorMap track).countP p = 26 := by
  have hslots : (List.countP p ∘ fun slot => sectorCells raw track (sectorMap slot)) = fun _ => 1 :=
    funext fun slot => countP_slot hp hmarks _
  simp only [trackCells, appendRepeat_eq, List.countP_append, List.countP_cons, countP_ordinary hp,
    hindex, List.countP_flatMap, hslots, List.map_const']
  rfl

end

/-! ## The CRC -/

/-- A string with its CRC has CRC 0, and no string that differs from it within two consecutive bytes
does; every track that `import` lays out has 26 ID fields and 26 data fields, and they verify. -/
theorem crc_detects_bursts :
    (∀ bytes : List Byte, crc16 (withCrc bytes) = 0#16 ∧
      ∀ other : List Byte, other.length = (withCrc bytes).length → other ≠ withCrc bytes →
        (∃ position, ∀ i, i ≠ position → i ≠ position + 1 → other[i]? = (withCrc bytes)[i]?) →
        crc16 other ≠ 0#16) ∧
    ∀ (sectorImage : List Byte) (sectorSkew : Byte) (disk : FloppyDiskImage),
      importImage sectorImage sectorSkew = some disk → ∀ t < 77,
        (trackBytes disk t).countP isSectorMark = 26 ∧ (trackBytes disk t).countP isDataMark = 26 ∧
          Verifies (trackBytes disk t) := by
  refine ⟨fun bytes => ⟨crc16_withCrc bytes, ?_⟩, ?_⟩
  · intro other hlength hne ⟨position, hsame⟩ hzero
    have hburst : ∀ i, i < position ∨ position + 2 ≤ i → other[i]? = (withCrc bytes)[i]? := by
      rintro i (hi | hi)
      · exact hsame i (by omega) (by omega)
      · exact hsame i (by omega) (by omega)
    have hchanged := Crc.digest_burst polynomial_odd (by decide) 0xFFFF#16 (by decide) hlength hburst
      hne
    rw [← crc16_eq, ← crc16_eq, crc16_withCrc] at hchanged
    exact hchanged hzero
  · intro sectorImage sectorSkew disk himport t ht
    obtain ⟨hsize, map, hmap⟩ := import_accepts himport
    obtain ⟨disk', hdisk', htracks⟩ := import_tracks hsize hmap
    cases himport.symm.trans hdisk'
    have hbytes : trackBytes disk t = appendAll (trackCells sectorImage map t) := by
      rw [trackBytes, FloppyDiskImage.track, dif_pos ht]
      exact htracks ⟨t, ht⟩
    rw [hbytes, countP_appendAll (fun _ _ => rfl), countP_appendAll (fun _ _ => rfl)]
    refine ⟨countP_track ?_ (by decide) (by decide), countP_track ?_ (by decide) (by decide),
      verifies_appendAll (trackCells_verify _ _ _)⟩
    · intro value
      simp [isSectorMark, ordinary, ordinaryClocks, sectorMarkClocks]
    · intro value
      simp [isDataMark, ordinary, ordinaryClocks, sectorMarkClocks]

/-- The check string 123456789: its CRC, and its CRC bytes exchanged. -/
theorem crc_detects_bursts_check :
    let digits : List Byte := [0x31#8, 0x32#8, 0x33#8, 0x34#8, 0x35#8, 0x36#8, 0x37#8, 0x38#8, 0x39#8]
    crc16 (digits ++ [0x29#8, 0xB1#8]) = 0#16 ∧ crc16 (digits ++ [0xB1#8, 0x29#8]) ≠ 0#16 := by
  intro digits
  have hcrc : withCrc digits = digits ++ [0x29#8, 0xB1#8] := by decide +kernel
  obtain ⟨hzero, hchanged⟩ := crc_detects_bursts.1 digits
  rw [hcrc] at hzero hchanged
  refine ⟨hzero, hchanged _ rfl (by decide) ⟨9, fun i hi hi' => ?_⟩⟩
  obtain hlt | hge : i < 9 ∨ 11 ≤ i := by omega
  · rw [List.getElem?_append_left hlt, List.getElem?_append_left hlt]
  · rw [List.getElem?_eq_none hge, List.getElem?_eq_none hge]

end Ibm3740SectorImage
end FK1
