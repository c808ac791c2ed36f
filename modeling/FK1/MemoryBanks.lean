import FK1.SystemSide
import FK1.Lib.Record

/-!
# FK1.MemoryBanks

The memory under its two maps, over whole runs: what an address selects (`MemoryMap.locate`), what is
stored there, and that every read returns what was stored last (`memory_is_last_store`).
-/

namespace FK1

/-- What an address selects. -/
inductive Location where
  | rom (address : Word)
  | video (offset : BitVec 14)
  | ram (address : Word)
  deriving DecidableEq, Repr

def MemoryMap.locate (map : MemoryMap) (address : Word) : Location :=
  match map with
  | .ram => .ram address
  | .romVideo =>
    if address.toNat < 0x4000 then .rom address
    else if address.toNat < 0x8000 then .video (address.setWidth 14)
    else .ram address

namespace SystemSide

/-- The byte a location holds. -/
def content (s : SystemSide) : Location → Byte
  | .rom address => s.rom (address.setWidth 14 &&& BitVec.ofNat 14 (s.romSize + maxUint64))
  | .video offset => s.videoRam offset
  | .ram address => s.mainRam address

end SystemSide

namespace Board

variable {b : Board}

theorem readMemory_eq (b : Board) (address : Word) :
    b.readMemory address = b.systemSide.content (b.memoryMap.locate address) := by
  unfold readMemory MemoryMap.locate
  cases b.memoryMap with
  | ram => rfl
  | romVideo =>
    dsimp only
    split
    · rfl
    split <;> rfl

/-- A write reaches the location its address selects, and ROM not at all. -/
theorem writeMemory_content (b : Board) (address : Word) (value : Byte) {location : Location}
    (hrom : ∀ address, location ≠ .rom address) :
    (b.writeMemory address value).systemSide.content location =
      if b.memoryMap.locate address = location then value else b.systemSide.content location := by
  have hram : ∀ a : Word, { b with
        mainRam := fun a => if a = address then value else b.mainRam a }.systemSide.content location =
      if Location.ram address = location then value else b.systemSide.content location := by
    intro _
    cases location with
    | rom a => exact absurd rfl (hrom a)
    | video offset => rfl
    | ram a => simp [systemSide, SystemSide.content, eq_comm]
  unfold writeMemory MemoryMap.locate
  cases b.memoryMap with
  | ram => exact hram address
  | romVideo =>
    dsimp only
    by_cases hlow : address.toNat < 0x4000
    · rw [if_neg (by omega), if_neg (by omega), if_pos hlow, if_neg (hrom address).symm]
    · rw [if_neg hlow]
      by_cases hvideo : address.toNat < 0x8000
      · rw [if_pos ⟨by omega, hvideo⟩, if_pos hvideo]
        cases location with
        | rom a => exact absurd rfl (hrom a)
        | video offset => simp [systemSide, SystemSide.content, eq_comm]
        | ram a => rfl
      · rw [if_neg (by omega), if_pos (by omega), if_neg hvideo]
        exact hram address

theorem writeVideoRam_content (b : Board) (address : Word) (value : Byte) (location : Location) :
    (b.writeVideoRam address value).systemSide.content location =
      if .video (address.setWidth 14) = location then value else b.systemSide.content location := by
  cases location with
  | rom a => rfl
  | video offset => simp [writeVideoRam, systemSide, SystemSide.content, eq_comm]
  | ram a => rfl

/-! ## One action -/

/-- The byte an action stores at a location. -/
def stored (location : Location) : Board × Action → Option Byte
  | (b, .host (.writeMemory address value)) =>
    if b.memoryMap.locate address = location then some value else none
  | (_, .host (.writeVideoRam address value)) =>
    if .video (address.setWidth 14) = location then some value else none
  | (_, .reset) => some 0#8
  | _ => none

/-- The map an action selects: a read of group 30h or 50h, or a reset. -/
def mapSelected : Action → Option MemoryMap
  | .host (.readIo port) =>
    if ioGroup port = 3 then some .ram else if ioGroup port = 5 then some .romVideo else none
  | .reset => some .romVideo
  | _ => none

/-- The ROM image an action puts in: those of a supported size are accepted. -/
def romSet : Action → Option (List Byte)
  | .host (.setRomImage image) => if isSupportedRomSize image.length then some image else none
  | _ => none

/-- The ROM array and its size with an image in it. -/
def romOf (image : List Byte) : (BitVec 14 → Byte) × Nat :=
  (fun a => image.getD a.toNat 0xFF#8, image.length)

theorem advance_content (s : SystemSide) (cpuCycles : Nat) :
    (s.advance cpuCycles).content = s.content := by
  funext location
  cases location <;> rfl

theorem act_content {location : Location} (hrom : ∀ address, location ≠ .rom address) (b : Board)
    (a : Action) :
    (b.act a).systemSide.content location =
      (stored location (b, a)).getD (b.systemSide.content location) := by
  rw [act_systemSide]
  cases a with
  | advance cpuCycles => exact congrFun (advance_content _ _) location
  | reset =>
    cases location with
    | rom address => exact absurd rfl (hrom address)
    | video | ram => rfl
  | host op =>
    have hsame : ∀ s : SystemSide, s.videoRam = b.videoRam → s.mainRam = b.mainRam →
        s.content location = b.systemSide.content location := by
      intro s hvideo hmain
      cases location with
      | rom address => exact absurd rfl (hrom address)
      | video offset => exact congrFun hvideo offset
      | ram address => exact congrFun hmain address
    cases op with
    | writeMemory address value =>
      refine (writeMemory_content b address value hrom).trans ?_
      simp only [stored]
      split <;> rfl
    | writeVideoRam address value =>
      refine (writeVideoRam_content b address value location).trans ?_
      simp only [stored]
      split <;> rfl
    | setRomImage image =>
      refine hsame _ ?_ ?_ <;>
      · simp only [systemAfter, setRomImage]
        split <;> rfl
    | _ => exact hsame _ rfl rfl

theorem act_memoryMap (b : Board) (a : Action) :
    (b.act a).memoryMap = (mapSelected a).getD b.memoryMap := by
  have hview : (b.act a).memoryMap = (b.systemAfter a).memoryMap :=
    congrArg SystemSide.memoryMap (act_systemSide b a)
  rw [hview]
  cases a with
  | advance cpuCycles => rfl
  | reset => rfl
  | host op =>
    cases op with
    | readIo port =>
      simp only [systemAfter, mapSelected]
      split
      · rfl
      split <;> rfl
    | writeMemory address value =>
      simp only [systemAfter, writeMemory]
      repeat' split
      all_goals rfl
    | setRomImage image =>
      simp only [systemAfter, setRomImage]
      split <;> rfl
    | _ => rfl

theorem act_rom (b : Board) (a : Action) :
    ((b.act a).rom, (b.act a).romSize) = ((romSet a).map romOf).getD (b.rom, b.romSize) := by
  have hview : ((b.act a).rom, (b.act a).romSize) = ((b.systemAfter a).rom, (b.systemAfter a).romSize) :=
    congrArg (fun s : SystemSide => (s.rom, s.romSize)) (act_systemSide b a)
  rw [hview]
  cases a with
  | advance cpuCycles => rfl
  | reset => rfl
  | host op =>
    cases op with
    | setRomImage image =>
      simp only [systemAfter, setRomImage, romSet]
      cases isSupportedRomSize image.length <;> rfl
    | writeMemory address value =>
      simp only [systemAfter, writeMemory]
      repeat' split
      all_goals rfl
    | _ => rfl

/-! ## Runs -/

/-- The ROM of a supported size holds its image again and again. -/
theorem rom_content {image : List Byte} (himage : isSupportedRomSize image.length = true) (address : Word) :
    image[address.toNat % image.length]? =
      some ((romOf image).1 (address.setWidth 14 &&&
        BitVec.ofNat 14 ((romOf image).2 + maxUint64))) := by
  have hindex : (address.setWidth 14 &&& BitVec.ofNat 14 (image.length + maxUint64)).toNat =
      address.toNat % image.length := by
    have hmask : ∀ k ≤ 14, ∀ n, n = 2 ^ k → (n + maxUint64) % 2 ^ 14 = 2 ^ k - 1 →
        (address.setWidth 14 &&& BitVec.ofNat 14 (n + maxUint64)).toNat = address.toNat % n := by
      intro k hk n hn hones
      rw [BitVec.toNat_and, BitVec.toNat_ofNat, hones, Nat.and_two_pow_sub_one_eq_mod,
        BitVec.toNat_setWidth, hn, Nat.mod_mod_of_dvd _ (Nat.pow_dvd_pow 2 hk)]
    simp only [isSupportedRomSize, Bool.or_eq_true, beq_iff_eq] at himage
    rcases himage with ((h | h) | h) | h
    · exact hmask 11 (by decide) _ h (by rw [h]; rfl)
    · exact hmask 12 (by decide) _ h (by rw [h]; rfl)
    · exact hmask 13 (by decide) _ h (by rw [h]; rfl)
    · exact hmask 14 (by decide) _ h (by rw [h]; rfl)
  have hlt : address.toNat % image.length < image.length := by
    refine Nat.mod_lt _ (Nat.pos_of_ne_zero fun h => ?_)
    rw [h] at himage
    exact absurd himage (by decide)
  show _ = some (image.getD (address.setWidth 14 &&& BitVec.ofNat 14 (image.length + maxUint64)).toNat
    0xFF#8)
  rw [hindex, List.getD_eq_getElem?_getD, List.getElem?_eq_getElem hlt]
  rfl

theorem last_rom_supported {bootRom : List Byte} (hrom : isSupportedRomSize bootRom.length = true)
    (actions : List Action) : isSupportedRomSize (Run.last romSet bootRom actions).length = true := by
  induction actions generalizing bootRom with
  | nil => exact hrom
  | cons a as ih =>
    rw [Run.last_cons]
    refine ih ?_
    cases hset : romSet a with
    | none => exact hrom
    | some image =>
      cases a with
      | host op =>
        cases op with
        | setRomImage image' =>
          obtain ⟨hsupported, himage⟩ := Option.ite_none_right_eq_some.mp hset
          cases himage
          exact hsupported
        | _ => cases hset
      | advance | reset => cases hset

theorem power_rom {bootRom : List Byte} (hrom : isSupportedRomSize bootRom.length = true) :
    ((power bootRom).rom, (power bootRom).romSize) = romOf bootRom := by
  have hset : (setRomImage {} bootRom).2.systemSide =
      { systemSide {} with rom := (romOf bootRom).1, romSize := bootRom.length } := by
    unfold setRomImage
    rw [hrom]
    rfl
  have hreset := act_rom (setRomImage {} bootRom).2 .reset
  refine hreset.trans ?_
  exact congrArg (fun s : SystemSide => (s.rom, s.romSize)) hset

/-- In every run the map is the one selected last. A read of RAM or video RAM returns what was stored
last at the location its address selects, under whichever map it was stored, and zero where nothing
was since the last reset; a read of ROM returns the byte of the last accepted image at the address
modulo the image's size, whatever was written there. -/
theorem memory_is_last_store (bootRom : List Byte) (hrom : isSupportedRomSize bootRom.length = true)
    (actions : List Action) (address : Word) :
    let b := Run.run act (power bootRom) actions
    let image := Run.last romSet bootRom actions
    b.memoryMap = Run.last mapSelected .romVideo actions ∧
      match b.memoryMap.locate address with
      | .rom a => image[a.toNat % image.length]? = some (b.readMemory address)
      | location =>
        b.readMemory address =
          Run.last (stored location) 0#8 (Run.record act (power bootRom) actions) := by
  intro b image
  have hmap : b.memoryMap = Run.last mapSelected .romVideo actions :=
    Run.register_eq_last (I := fun _ => True) Board.memoryMap (fun _ _ _ (_ : True) => trivial)
      (fun v a _ _ => act_memoryMap v a) trivial fun _ _ => trivial
  have hcontent : ∀ location : Location, (∀ a, location ≠ .rom a) →
      (power bootRom).systemSide.content location = 0#8 →
      b.systemSide.content location =
        Run.last (stored location) 0#8 (Run.record act (power bootRom) actions) := by
    intro location hnot hzero
    have hlast := Run.register_of_record (I := fun _ => True)
      (fun v : Board => v.systemSide.content location) (stored location) (fun _ _ _ => trivial)
      (fun v a _ => act_content hnot v a) trivial (s := power bootRom) actions
    rwa [hzero] at hlast
  refine ⟨hmap, ?_⟩
  rw [readMemory_eq]
  cases hlocated : b.memoryMap.locate address with
  | rom a =>
    have hlast : (b.rom, b.romSize) = Run.last (fun a => (romSet a).map romOf)
        ((power bootRom).rom, (power bootRom).romSize) actions :=
      Run.register_eq_last (I := fun _ => True) (fun v : Board => (v.rom, v.romSize))
        (fun _ _ _ (_ : True) => trivial) (fun v a _ _ => act_rom v a) trivial fun _ _ => trivial
    rw [power_rom hrom, Run.last_map] at hlast
    have hbyte := rom_content (last_rom_supported hrom actions) a
    rw [← hlast] at hbyte
    exact hbyte
  | video offset => exact hcontent (.video offset) (fun _ h => by cases h) rfl
  | ram a => exact hcontent (.ram a) (fun _ h => by cases h) rfl

/-- RAM below the ROM is written under the RAM map, and read under it only. -/
theorem memory_is_last_store_under_rom :
    let actions : List Action := [.host (.readIo 0x30#16), .host (.writeMemory 0x0123#16 0x5A#8),
      .host (.readIo 0x50#16), .host (.writeMemory 0x0123#16 0xA5#8), .host (.readIo 0x30#16)]
    (Run.run act (power (List.replicate 2048 0xC3#8)) actions).readMemory 0x0123#16 = 0x5A#8 := by
  intro actions
  obtain ⟨hmap, hread⟩ := memory_is_last_store (List.replicate 2048 0xC3#8)
    (by rw [List.length_replicate]; decide) actions 0x0123#16
  rw [hmap] at hread
  exact hread

end Board
end FK1
