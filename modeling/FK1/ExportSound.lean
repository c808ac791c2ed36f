import FK1.DiskImage8sd

/-!
# FK1.ExportSound

What an export says of the medium, whatever its tracks hold.

* `scanFrom`: the scan of `export_image` with the source's indices, each read checked. It reads within
  the track and is done after as many rounds as the track has cells (`scanFrom_eq`).
* `Exported.Sound`: every sector found is recorded on its track as it has been copied
  (`scan_sound`).
-/

namespace FK1
namespace Ibm3740SectorImage

/-! ## The scan on indices -/

/-- The reads of `count` cells from `index` on. -/
def readCells (bytes : List TimedFmByte) : Nat → Nat → Option (List TimedFmByte)
  | _, 0 => some []
  | index, count + 1 =>
    bytes[index]?.bind fun cell => (readCells bytes (index + 1) count).map (cell :: ·)

/-- The sector of an ID field that has been read. -/
def namedSector (physicalTrack : Nat) (cylinder head sector length : TimedFmByte) : Option Byte :=
  if cylinder.data.toNat = physicalTrack ∧ head.data = 0#8 ∧ sector.data.toNat ≥ 1
      ∧ sector.data.toNat ≤ sectorsPerTrack ∧ length.data = 0#8 then some sector.data
  else none

def Exported.store (out : Exported) (sector : Nat) (data : List TimedFmByte) : Exported :=
  let rawOffset := sector * bytesPerSector
  { sectorImage := fun i =>
      if rawOffset ≤ i ∧ i < rawOffset + bytesPerSector then (data.getD (i - rawOffset) {}).data
      else out.sectorImage i
    found := fun i => if i = sector then true else out.found i }

/-- The loop over `index`: nothing where a read is past the end, or `fuel` rounds are not enough. -/
def scanFrom (physicalTrack : Nat) (bytes : List TimedFmByte) :
    Nat → Nat → Option Byte → Exported → Option Exported
  | 0, index, _, out => if index < bytes.length then none else some out
  | fuel + 1, index, pendingSector, out =>
    if bytes.length ≤ index then some out
    else
      bytes[index]?.bind fun byte =>
        if isSectorMark byte then
          if bytes.length ≤ index + 6 then scanFrom physicalTrack bytes fuel (index + 1) none out
          else
            bytes[index + 1]?.bind fun cylinder =>
              bytes[index + 2]?.bind fun head =>
                bytes[index + 3]?.bind fun sector =>
                  bytes[index + 4]?.bind fun length =>
                    scanFrom physicalTrack bytes fuel (index + 7)
                      (namedSector physicalTrack cylinder head sector length) out
        else match pendingSector with
          | some sector =>
            if isDataMark byte then
              if bytes.length ≤ index + (bytesPerSector + 2) then
                scanFrom physicalTrack bytes fuel (index + 1) none out
              else
                (readCells bytes (index + 1) bytesPerSector).bind fun data =>
                  scanFrom physicalTrack bytes fuel (index + (bytesPerSector + 3)) none
                    (out.store (physicalTrack * sectorsPerTrack + (sector.toNat - 1)) data)
            else scanFrom physicalTrack bytes fuel (index + 1) pendingSector out
          | none => scanFrom physicalTrack bytes fuel (index + 1) none out

variable {bytes : List TimedFmByte} {t : Nat}

theorem readCells_eq {index count : Nat} (h : index + count ≤ bytes.length) :
    readCells bytes index count = some ((bytes.drop index).take count) := by
  induction count generalizing index with
  | zero => rfl
  | succ count ih =>
    have hcell : bytes[index]? = some bytes[index] := List.getElem?_eq_getElem (by omega)
    have hdrop : bytes.drop index = bytes[index] :: bytes.drop (index + 1) :=
      List.drop_eq_getElem_cons (by omega)
    rw [readCells, hcell, ih (by omega), hdrop, List.take_succ_cons]
    rfl

theorem read_eq {index : Nat} (h : index < bytes.length) {suffix : List TimedFmByte} {from' n : Nat}
    (hsuffix : bytes.drop from' = suffix) (hn : from' + n = index) :
    bytes[index]? = some (suffix.getD n {}) := by
  rw [← hsuffix, List.getD_eq_getElem?_getD, List.getElem?_drop, hn, List.getElem?_eq_getElem h]
  rfl

theorem store_eq (out : Exported) (sector : Nat) (rest : List TimedFmByte) :
    out.store sector ((rest.drop 1).take bytesPerSector) = out.copySector sector rest := by
  unfold Exported.store Exported.copySector
  dsimp only
  congr 1
  funext i
  split
  · rename_i hrange
    have hlt : i - sector * bytesPerSector < bytesPerSector := by omega
    rw [List.getD_eq_getElem?_getD, List.getElem?_take_of_lt hlt, List.getElem?_drop,
      ← List.getD_eq_getElem?_getD]
  · rfl

/-- No read of the scan is past the end, and it ends: it is the scan of the suffixes. -/
theorem scanFrom_eq (t : Nat) {fuel index : Nat} (h : bytes.length ≤ index + fuel)
    (pendingSector : Option Byte) (out : Exported) :
    scanFrom t bytes fuel index pendingSector out =
      some (scan t fuel (bytes.drop index) pendingSector out) := by
  induction fuel generalizing index pendingSector out with
  | zero =>
    rw [scanFrom, if_neg (by omega)]
    rfl
  | succ fuel ih =>
    rw [scanFrom]
    by_cases hend : bytes.length ≤ index
    · rw [if_pos hend, List.drop_of_length_le hend]
      rfl
    · have hlt : index < bytes.length := by omega
      obtain ⟨byte, hbyte⟩ : ∃ byte, bytes[index]? = some byte :=
        ⟨_, List.getElem?_eq_getElem hlt⟩
      have hsuffix : bytes.drop index = byte :: bytes.drop (index + 1) := by
        rw [List.drop_eq_getElem_cons hlt]
        rw [List.getElem?_eq_getElem hlt] at hbyte
        rw [Option.some.inj hbyte]
      have hskip : ∀ n, (bytes.drop (index + 1)).drop n = bytes.drop (index + (n + 1)) := by
        intro n
        rw [List.drop_drop]
        congr 1
        omega
      have hlength : (byte :: bytes.drop (index + 1)).length = bytes.length - index := by
        rw [← hsuffix, List.length_drop]
      rw [if_neg hend, hbyte, Option.bind_some, hsuffix, scan]
      unfold scanByte
      dsimp only
      split
      · by_cases hcut : bytes.length ≤ index + 6
        · rw [if_pos hcut, if_pos (by omega)]
          exact ih (by omega) _ _
        · rw [if_neg hcut, if_neg (by omega), read_eq (by omega) hsuffix (n := 1) rfl,
            read_eq (by omega) hsuffix (n := 2) rfl, read_eq (by omega) hsuffix (n := 3) rfl,
            read_eq (by omega) hsuffix (n := 4) rfl]
          dsimp only [Option.bind_some]
          rw [ih (by omega), hskip 6]
          rfl
      · cases pendingSector with
        | none => exact ih (by omega) _ _
        | some sector =>
          dsimp only
          split
          · by_cases hcut : bytes.length ≤ index + (bytesPerSector + 2)
            · rw [if_pos hcut, if_pos (by omega)]
              exact ih (by omega) _ _
            · have hdata : bytes.drop (index + 1) = (byte :: bytes.drop (index + 1)).drop 1 := rfl
              rw [if_neg hcut, if_neg (by omega), readCells_eq (by omega), Option.bind_some, hdata,
                store_eq, ih (by omega), ← hdata, hskip (bytesPerSector + 2)]
          · exact ih (by omega) _ _

/-! ## Soundness -/

/-- An ID mark at `i`, with the fields of sector `s` of track `t` behind it. -/
structure IdFieldAt (bytes : List TimedFmByte) (t s i : Nat) : Prop where
  mark : ∃ c, bytes[i]? = some c ∧ c.data = 0xFE#8 ∧ c.clocks = 0xC7#8
  cylinder : ∃ c, bytes[i + 1]? = some c ∧ c.data.toNat = t
  head : ∃ c, bytes[i + 2]? = some c ∧ c.data = 0#8
  sector : ∃ c, bytes[i + 3]? = some c ∧ c.data.toNat = s
  length : ∃ c, bytes[i + 4]? = some c ∧ c.data = 0#8

/-- A data mark at `j`, with `data` and two more cells behind it. -/
structure DataFieldAt (bytes : List TimedFmByte) (j : Nat) (data : Nat → Byte) : Prop where
  mark : ∃ c, bytes[j]? = some c ∧ (c.data = 0xFB#8 ∨ c.data = 0xF8#8) ∧ c.clocks = 0xC7#8
  whole : j + 130 < bytes.length
  cells : ∀ n < 128, ∃ c, bytes[j + 1 + n]? = some c ∧ c.data = data n

/-- Sector `s` of track `t` is recorded with `data`. -/
def Recorded (bytes : List TimedFmByte) (t s : Nat) (data : Nat → Byte) : Prop :=
  ∃ i j, IdFieldAt bytes t s i ∧ i + 6 < j ∧ DataFieldAt bytes j data

/-- Every sector found is recorded as it has been copied. -/
def Exported.Sound (tracks : Nat → List TimedFmByte) (out : Exported) : Prop :=
  ∀ t s, 1 ≤ s → s ≤ 26 → out.found (t * 26 + (s - 1)) = true →
    Recorded (tracks t) t s fun n => out.sectorImage ((t * 26 + (s - 1)) * 128 + n)

/-- A pending sector has been named before `index`. -/
def PendingAt (bytes : List TimedFmByte) (t index : Nat) (pendingSector : Option Byte) : Prop :=
  ∀ sector, pendingSector = some sector →
    1 ≤ sector.toNat ∧ sector.toNat ≤ 26 ∧
      ∃ i, i + 6 < index ∧ IdFieldAt bytes t sector.toNat i

variable {tracks : Nat → List TimedFmByte} {out : Exported}

theorem PendingAt.next {index index' : Nat} {pendingSector : Option Byte}
    (h : PendingAt bytes t index pendingSector) (hle : index ≤ index') :
    PendingAt bytes t index' pendingSector := by
  intro sector hs
  obtain ⟨hone, hmax, i, hi, hid⟩ := h sector hs
  exact ⟨hone, hmax, i, by omega, hid⟩

theorem pendingAt_none {index : Nat} : PendingAt bytes t index none := nofun

/-- The cells behind a mark at `index`. -/
theorem cell_behind {index n : Nat} {suffix : List TimedFmByte} (hsuffix : bytes.drop index = suffix)
    (hn : n < suffix.length) : bytes[index + n]? = some (suffix.getD n {}) := by
  rw [← hsuffix, List.length_drop] at hn
  exact read_eq (by omega) hsuffix rfl

theorem idSector_pending {index : Nat} {byte : TimedFmByte} {rest : List TimedFmByte}
    (hsuffix : bytes.drop index = byte :: rest) (hmark : isSectorMark byte = true)
    (hwhole : 6 < (byte :: rest).length) :
    PendingAt bytes t (index + 7) (idSector t (byte :: rest)) := by
  intro sector hs
  unfold idSector at hs
  dsimp only at hs
  obtain ⟨⟨hcylinder, hhead, hone, hmax, hlength⟩, hs⟩ := Option.ite_none_right_eq_some.mp hs
  cases hs
  obtain ⟨hdata, hclocks⟩ := Bool.and_eq_true_iff.mp hmark
  refine ⟨hone, hmax, index, by omega, ⟨?_, ?_, ?_, ?_, ?_⟩⟩
  · exact ⟨byte, cell_behind (n := 0) hsuffix (by omega), eq_of_beq hdata, eq_of_beq hclocks⟩
  · exact ⟨_, cell_behind hsuffix (by omega), hcylinder⟩
  · exact ⟨_, cell_behind hsuffix (by omega), hhead⟩
  · exact ⟨_, cell_behind hsuffix (by omega), rfl⟩
  · exact ⟨_, cell_behind hsuffix (by omega), hlength⟩

/-- A copy leaves the other sectors alone. -/
theorem copySector_other {sector s : Nat} (hne : s ≠ sector) (rest : List TimedFmByte) :
    (out.copySector sector rest).found s = out.found s ∧ ∀ n < 128,
      (out.copySector sector rest).sectorImage (s * 128 + n) = out.sectorImage (s * 128 + n) := by
  unfold Exported.copySector bytesPerSector
  refine ⟨if_neg hne, fun n hn => if_neg ?_⟩
  omega

theorem copySector_self (sector : Nat) (rest : List TimedFmByte) {n : Nat} (hn : n < 128) :
    (out.copySector sector rest).sectorImage (sector * 128 + n) = (rest.getD (1 + n) {}).data := by
  unfold Exported.copySector bytesPerSector
  dsimp only
  rw [if_pos (by omega), Nat.add_sub_cancel_left]

/-- The data field behind a data mark is recorded for the pending sector. -/
theorem copySector_sound (h : out.Sound tracks) {index : Nat} {byte : TimedFmByte}
    {rest : List TimedFmByte} (hsuffix : (tracks t).drop index = byte :: rest) {sector : Byte}
    (hpending : PendingAt (tracks t) t index (some sector)) (hmark : isDataMark byte = true)
    (hwhole : 130 < (byte :: rest).length) :
    (out.copySector (t * 26 + (sector.toNat - 1)) (byte :: rest)).Sound tracks := by
  obtain ⟨hone, hmax, i, hi, hid⟩ := hpending sector rfl
  intro t' s hs₁ hs₂ hfound
  by_cases hsame : t' * 26 + (s - 1) = t * 26 + (sector.toNat - 1)
  · obtain ⟨rfl, rfl⟩ : t' = t ∧ s = sector.toNat := by omega
    obtain ⟨hdata, hclocks⟩ := Bool.and_eq_true_iff.mp hmark
    have hlength : (byte :: rest).length = (tracks t').length - index := by
      rw [← hsuffix, List.length_drop]
    refine ⟨i, index, hid, hi, ⟨byte, ?_, ?_, eq_of_beq hclocks⟩, by omega, fun n hn => ?_⟩
    · exact cell_behind (n := 0) hsuffix (by omega)
    · exact (Bool.or_eq_true_iff.mp hdata).imp eq_of_beq eq_of_beq
    · refine ⟨_, ?_, (copySector_self _ (byte :: rest) hn).symm⟩
      rw [Nat.add_assoc]
      exact cell_behind hsuffix (by omega)
  · obtain ⟨hsamefound, hsamedata⟩ := @copySector_other out _ _ hsame (byte :: rest)
    rw [hsamefound] at hfound
    obtain ⟨i', j', hid', hij, hdata⟩ := h t' s hs₁ hs₂ hfound
    refine ⟨i', j', hid', hij, hdata.mark, hdata.whole, fun n hn => ?_⟩
    obtain ⟨c, hc, hcn⟩ := hdata.cells n hn
    exact ⟨c, hc, hcn.trans (hsamedata n hn).symm⟩

/-- One round of the scan at `index`. -/
theorem scanByte_sound (h : out.Sound tracks) {index : Nat} {byte : TimedFmByte}
    {rest : List TimedFmByte} (hsuffix : (tracks t).drop index = byte :: rest)
    {pendingSector : Option Byte} (hpending : PendingAt (tracks t) t index pendingSector) :
    let r := scanByte t byte rest pendingSector out
    ∃ index', index < index' ∧ (tracks t).drop index' = r.1 ∧ PendingAt (tracks t) t index' r.2.1 ∧
      r.2.2.Sound tracks := by
  have hrest : (tracks t).drop (index + 1) = rest := by
    rw [← List.drop_drop, hsuffix, List.drop_succ_cons, List.drop_zero]
  have hskip : ∀ n, (tracks t).drop (index + 1 + n) = rest.drop n := by
    intro n
    rw [← List.drop_drop, hrest]
  intro r
  by_cases hmark : isSectorMark byte = true
  · by_cases hcut : (byte :: rest).length ≤ 6
    · have hr : r = (rest, none, out) := by simp only [r, scanByte, if_pos hmark, if_pos hcut]
      rw [hr]
      exact ⟨index + 1, by omega, hrest, pendingAt_none, h⟩
    · have hr : r = (rest.drop 6, idSector t (byte :: rest), out) := by
        simp only [r, scanByte, if_pos hmark, if_neg hcut]
      rw [hr]
      exact ⟨index + 1 + 6, by omega, hskip 6, idSector_pending hsuffix hmark (by omega), h⟩
  · cases pendingSector with
    | none =>
      have hr : r = (rest, none, out) := by simp only [r, scanByte, if_neg hmark]
      rw [hr]
      exact ⟨index + 1, by omega, hrest, pendingAt_none, h⟩
    | some sector =>
      by_cases hdata : isDataMark byte = true
      · by_cases hcut : (byte :: rest).length ≤ bytesPerSector + 2
        · have hr : r = (rest, none, out) := by
            simp only [r, scanByte, if_neg hmark, if_pos hdata, if_pos hcut]
          rw [hr]
          exact ⟨index + 1, by omega, hrest, pendingAt_none, h⟩
        · have hr : r = (rest.drop (bytesPerSector + 2), none,
              out.copySector (t * 26 + (sector.toNat - 1)) (byte :: rest)) := by
            simp only [r, scanByte, if_neg hmark, if_pos hdata, if_neg hcut]
            rfl
          rw [hr]
          refine ⟨index + 1 + (bytesPerSector + 2), by omega, hskip _, pendingAt_none, ?_⟩
          exact copySector_sound h hsuffix hpending hdata (Nat.not_le.mp hcut)
      · have hr : r = (rest, some sector, out) := by
          simp only [r, scanByte, if_neg hmark, if_neg hdata]
        rw [hr]
        exact ⟨index + 1, by omega, hrest, hpending.next (by omega), h⟩

theorem scan_sound (h : out.Sound tracks) {fuel index : Nat} {suffix : List TimedFmByte}
    (hsuffix : (tracks t).drop index = suffix) {pendingSector : Option Byte}
    (hpending : PendingAt (tracks t) t index pendingSector) :
    (scan t fuel suffix pendingSector out).Sound tracks := by
  induction fuel generalizing index suffix pendingSector out with
  | zero => exact h
  | succ fuel ih =>
    cases suffix with
    | nil => exact h
    | cons byte rest =>
      obtain ⟨index', -, hnext, hpending', hsound⟩ := scanByte_sound h hsuffix hpending
      exact ih hsound hnext hpending'

/-- The cells of a track. -/
def trackBytes (disk : FloppyDiskImage) (t : Nat) : List TimedFmByte :=
  ((disk.track t).map FloppyTrack.bytes).getD []

theorem scans_sound {disk : FloppyDiskImage} {tracks : List Nat} {out out' : Exported}
    (h : out.Sound (trackBytes disk))
    (hscans : tracks.foldlM (fun out physicalTrack =>
      (disk.track physicalTrack).map fun track =>
        scan physicalTrack track.bytes.length track.bytes none out) out = some out') :
    out'.Sound (trackBytes disk) := by
  induction tracks generalizing out with
  | nil =>
    cases hscans
    exact h
  | cons t tracks ih =>
    rw [List.foldlM_cons] at hscans
    obtain ⟨scanned, hscan, hrest⟩ := Option.bind_eq_some_iff.mp hscans
    obtain ⟨track, htrack, rfl⟩ := Option.map_eq_some_iff.mp hscan
    have hbytes : trackBytes disk t = track.bytes := by rw [trackBytes, htrack]; rfl
    have hsuffix : (trackBytes disk t).drop 0 = track.bytes := by rw [hbytes, List.drop_zero]
    exact ih (scan_sound h hsuffix pendingAt_none) hrest

/-- An exported image holds, of every sector, what an ID field and a data field behind it record on the
sector's track; and on every track the scan reads within the cells and ends. -/
theorem export_never_invents (disk : FloppyDiskImage) :
    (∀ image, exportImage disk = some image → image.length = imageSize ∧
      ∀ t < 77, ∀ s, 1 ≤ s → s ≤ 26 →
        Recorded (trackBytes disk t) t s fun n => image.getD ((26 * t + s - 1) * 128 + n) 0#8) ∧
      ∀ (t : Nat) (pendingSector : Option Byte) (out : Exported),
        scanFrom t (trackBytes disk t) (trackBytes disk t).length 0 pendingSector out =
          some (scan t (trackBytes disk t).length (trackBytes disk t) pendingSector out) := by
  refine ⟨fun image himage => ?_, fun t pendingSector out => ?_⟩
  · unfold exportImage at himage
    obtain ⟨out, hscans, hout⟩ := Option.bind_eq_some_iff.mp himage
    obtain ⟨hfound, hout⟩ := Option.ite_none_right_eq_some.mp hout
    have himage : (List.range imageSize).map out.sectorImage = image := Option.some.inj hout
    have hempty : ({} : Exported).Sound (trackBytes disk) := fun _ _ _ _ hf => Bool.noConfusion hf
    have hsound := scans_sound hempty hscans
    refine ⟨by rw [← himage, List.length_map, List.length_range], fun t ht s hs₁ hs₂ => ?_⟩
    have hsector : t * 26 + (s - 1) < trackCount * sectorsPerTrack := by
      unfold trackCount sectorsPerTrack
      omega
    obtain ⟨i, j, hid, hij, hdata⟩ :=
      hsound t s hs₁ hs₂ (List.all_eq_true.mp hfound _ (List.mem_range.mpr hsector))
    refine ⟨i, j, hid, hij, hdata.mark, hdata.whole, fun n hn => ?_⟩
    obtain ⟨c, hc, hcn⟩ := hdata.cells n hn
    refine ⟨c, hc, hcn.trans ?_⟩
    have hoffset : (26 * t + s - 1) * 128 + n = (t * 26 + (s - 1)) * 128 + n := by omega
    have hlt : (t * 26 + (s - 1)) * 128 + n < imageSize := by
      unfold imageSize trackCount sectorsPerTrack bytesPerSector
      omega
    rw [hoffset, ← himage, List.getD_eq_getElem?_getD, List.getElem?_map, List.getElem?_range hlt]
    rfl
  · exact scanFrom_eq t (by omega) pendingSector out

end Ibm3740SectorImage
end FK1
