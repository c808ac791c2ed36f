import FK1.Floppy

/-!
# FK1.DiskImage8sd

The raw sector images of `disk_image_8sd.cpp`: `import` lays out 77 IBM 3740 tracks of 5208 cells from
the 26 sectors of each track, `export_image` scans the cells of each track for sectors again.

An index into `bytes` that only moves forward is the suffix of the bytes from there on.
-/

namespace FK1
namespace Ibm3740SectorImage

def trackCount : Nat := 77

def sectorsPerTrack : Nat := 26

def bytesPerSector : Nat := 128

def imageSize : Nat := trackCount * sectorsPerTrack * bytesPerSector

def fmBytesPerTrack : Nat := 5208

def defaultSectorSkew : Byte := 6#8

def ordinaryClocks : Byte := 0xFF#8

def indexMarkClocks : Byte := 0xD7#8

def sectorMarkClocks : Byte := 0xC7#8

/-! ## CRC -/

def updateCrcBit (crc : Word) : Word :=
  if crc &&& 0x8000#16 != 0#16 then (crc <<< 1) ^^^ 0x1021#16 else crc <<< 1

def updateCrc (crc : Word) (value : Byte) : Word :=
  (List.range 8).foldl (fun crc _ => updateCrcBit crc) (crc ^^^ (value.setWidth 16 <<< 8))

def crc16 (bytes : List Byte) : Word := bytes.foldl updateCrc 0xFFFF#16

/-! ## Import -/

/-- The loop over the sectors: each goes to the slot `skew` after the one before, none to a slot that
is taken. -/
def mapSectors (sectorSkew : Byte) :
    List Byte → Nat → (Nat → Byte) → (Nat → Bool) → Option (Nat → Byte)
  | [], _, sectorMap, _ => some sectorMap
  | sector :: rest, mapIndex, sectorMap, occupied =>
    if mapIndex ≥ sectorsPerTrack || occupied mapIndex then none
    else
      let next := mapIndex + sectorSkew.toNat
      mapSectors sectorSkew rest
        (if next ≥ sectorsPerTrack then next - (sectorsPerTrack - 1) else next)
        (fun i => if i = mapIndex then sector else sectorMap i)
        (fun i => if i = mapIndex then true else occupied i)

/-- The sector numbers 1 to 26. -/
def sectors : List Byte := (List.range sectorsPerTrack).map fun i => BitVec.ofNat 8 (i + 1)

/-- The sector in each slot of a track, unless two sectors meet in a slot. -/
def sectorMap (sectorSkew : Byte) : Option (Nat → Byte) :=
  mapSectors sectorSkew sectors 0 (fun _ => 0#8) fun _ => false

/-- `append` with ordinary clocks, before the cell has its tick. -/
def ordinary (value : Byte) : TimedFmByte := { data := value, clocks := ordinaryClocks }

def appendRepeat (count : Nat) (value : Byte) : List TimedFmByte :=
  List.replicate count (ordinary value)

def appendCrc (bytes : List Byte) : List TimedFmByte :=
  [ordinary ((crc16 bytes >>> 8).setWidth 8), ordinary ((crc16 bytes).setWidth 8)]

/-- `raw_offset`. -/
def rawOffset (trackNumber : Nat) (sectorNumber : Byte) : Nat :=
  (trackNumber * sectorsPerTrack + (sectorNumber.toNat - 1)) * bytesPerSector

def sectorData (sectorImage : List Byte) (trackNumber : Nat) (sectorNumber : Byte) : List Byte :=
  (List.range bytesPerSector).map fun index =>
    sectorImage.getD (rawOffset trackNumber sectorNumber + index) 0#8

def idField (trackNumber : Nat) (sectorNumber : Byte) : List Byte :=
  [0xFE#8, BitVec.ofNat 8 trackNumber, 0x00#8, sectorNumber, 0x00#8]

/-- The 188 cells of one sector. -/
def sectorCells (sectorImage : List Byte) (trackNumber : Nat) (sectorNumber : Byte) :
    List TimedFmByte :=
  let data := sectorData sectorImage trackNumber sectorNumber
  appendRepeat 6 0x00#8
    ++ { data := 0xFE#8, clocks := sectorMarkClocks }
      :: (idField trackNumber sectorNumber).tail.map ordinary
    ++ appendCrc (idField trackNumber sectorNumber)
    ++ appendRepeat 11 0xFF#8
    ++ appendRepeat 6 0x00#8
    ++ { data := 0xFB#8, clocks := sectorMarkClocks } :: data.map ordinary
    ++ appendCrc (0xFB#8 :: data)
    ++ appendRepeat 27 0xFF#8

/-- The cells of a track in the order `import` appends them. -/
def trackCells (sectorImage : List Byte) (sectorMap : Nat → Byte) (trackNumber : Nat) :
    List TimedFmByte :=
  appendRepeat 40 0xFF#8
    ++ appendRepeat 6 0x00#8
    ++ { data := 0xFC#8, clocks := indexMarkClocks } :: appendRepeat 26 0xFF#8
    ++ (List.range sectorsPerTrack).flatMap
      (fun sectorIndex => sectorCells sectorImage trackNumber (sectorMap sectorIndex))
    ++ appendRepeat 247 0xFF#8

/-- Each appended cell comes one byte time after the cell before. -/
def appendAll (cells : List TimedFmByte) : List TimedFmByte :=
  cells.mapIdx fun index cell => { cell with tick := index * byteTicks }

def importImage (sectorImage : List Byte) (sectorSkew : Byte) : Option FloppyDiskImage :=
  if sectorImage.length ≠ imageSize then none
  else match sectorMap sectorSkew with
    | none => none
    | some sectorMap =>
      (List.range trackCount).foldlM (fun disk trackNumber =>
        let result := disk.setTrack trackNumber
          (appendAll (trackCells sectorImage sectorMap trackNumber))
        if result.1 then some result.2 else none) {}

/-! ## Export -/

/-- `sector_image` and `found`. -/
structure Exported where
  sectorImage : Nat → Byte := fun _ => 0#8
  found : Nat → Bool := fun _ => false

/-- The copy of a sector's data, which starts one cell after the mark that heads `rest`. -/
def Exported.copySector (out : Exported) (sector : Nat) (rest : List TimedFmByte) : Exported :=
  let rawOffset := sector * bytesPerSector
  { sectorImage := fun i =>
      if rawOffset ≤ i ∧ i < rawOffset + bytesPerSector then
        (rest.getD (1 + (i - rawOffset)) {}).data
      else out.sectorImage i
    found := fun i => if i = sector then true else out.found i }

def isSectorMark (byte : TimedFmByte) : Bool :=
  byte.data == 0xFE#8 && byte.clocks == sectorMarkClocks

def isDataMark (byte : TimedFmByte) : Bool :=
  (byte.data == 0xFB#8 || byte.data == 0xF8#8) && byte.clocks == sectorMarkClocks

/-- The sector the ID field after a mark names, if it is one of this track. -/
def idSector (physicalTrack : Nat) (rest : List TimedFmByte) : Option Byte :=
  let field (i : Nat) := (rest.getD i {}).data
  if (field 1).toNat = physicalTrack ∧ field 2 = 0#8 ∧ (field 3).toNat ≥ 1
      ∧ (field 3).toNat ≤ sectorsPerTrack ∧ field 4 = 0#8 then some (field 3)
  else none

/-- One round of the scan, at `byte` with `rest` behind it: where the next round is, the pending sector
and what is exported. -/
def scanByte (physicalTrack : Nat) (byte : TimedFmByte) (rest : List TimedFmByte)
    (pendingSector : Option Byte) (out : Exported) : List TimedFmByte × Option Byte × Exported :=
  let bytes := byte :: rest
  if isSectorMark byte then
    if bytes.length ≤ 6 then (rest, none, out)
    else (rest.drop 6, idSector physicalTrack bytes, out)
  else match pendingSector with
    | some sector =>
      if isDataMark byte then
        if bytes.length ≤ bytesPerSector + 2 then (rest, none, out)
        else
          (rest.drop (bytesPerSector + 2), none,
            out.copySector (physicalTrack * sectorsPerTrack + (sector.toNat - 1)) bytes)
      else (rest, pendingSector, out)
    | none => (rest, none, out)

/-- The scan of a track; every round takes at least one byte, so `fuel` rounds are enough. -/
def scan (physicalTrack : Nat) : Nat → List TimedFmByte → Option Byte → Exported → Exported
  | 0, _, _, out => out
  | _ + 1, [], _, out => out
  | fuel + 1, byte :: rest, pendingSector, out =>
    let (rest, pendingSector, out) := scanByte physicalTrack byte rest pendingSector out
    scan physicalTrack fuel rest pendingSector out

def exportImage (disk : FloppyDiskImage) : Option (List Byte) := do
  let out ← (List.range trackCount).foldlM (fun out physicalTrack =>
    (disk.track physicalTrack).map fun track =>
      scan physicalTrack track.bytes.length track.bytes none out) ({} : Exported)
  if (List.range (trackCount * sectorsPerTrack)).all out.found then
    some ((List.range imageSize).map out.sectorImage)
  else none

end Ibm3740SectorImage
end FK1
