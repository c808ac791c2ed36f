import FK1.SystemSide
import FK1.Lib.Record

/-!
# FK1.Picture

The picture: which bit of the video memory a pixel shows, and of which moment of a run.

* `picture_pixel`: the pixel at column `x` of line `y`.
* `picture_faithful`: the picture determines the whole video memory.
* `Board.screen_shows_last_frame`: the frame buffer of any run is the picture of the video memory and
  the first line as they were when a frame last ended.
-/

namespace FK1

def videoWidth : Nat := 512

def videoHeight : Nat := 256

/-- The byte of the video memory that column group `x / 8` of memory line `line` comes from. -/
def videoOffset (x line : Nat) : BitVec 14 := BitVec.ofNat 14 (256 * (x / 8) + line % 256)

theorem hasBits_bit (value : Byte) {i : Nat} (h : i < 8) :
    hasBits value (0x80#8 >>> i) = value.getMsbD i := by
  have hall : ∀ i : Fin 8, ∀ value : BitVec 8,
      (value &&& (0x80#8 >>> i.val) != 0#8) = value.getMsbD i.val := by decide +kernel
  exact hall ⟨i, h⟩ value

theorem picture_pixel (videoRam : BitVec 14 → Byte) (verticalScroll : Byte) {x : Nat}
    (hx : x < videoWidth) (y : Nat) :
    picture videoRam verticalScroll (videoWidth * y + x) =
      if (videoRam (videoOffset x (y + verticalScroll.toNat))).getMsbD (x % 8) then Board.white
      else Board.black := by
  have hcolumn : (videoWidth * y + x) % 512 = x := by
    rw [videoWidth, Nat.mul_add_mod]
    exact Nat.mod_eq_of_lt hx
  have hline : (videoWidth * y + x) / 512 = y := by
    rw [videoWidth] at hx ⊢
    omega
  have hoffset : (BitVec.ofNat 8 y + verticalScroll : Byte).toNat = (y + verticalScroll.toNat) % 256 := by
    rw [BitVec.toNat_add, BitVec.toNat_ofNat]
    omega
  unfold picture videoOffset
  simp only [hcolumn, hline, hoffset, hasBits_bit _ (Nat.mod_lt x (by decide : 0 < 8)), Nat.mul_comm 256]

/-- Every bit of the video memory is a pixel, so two memories with the same picture are the same. -/
theorem picture_faithful (videoRam videoRam' : BitVec 14 → Byte) (verticalScroll : Byte) :
    (∀ x < videoWidth, ∀ y < videoHeight, picture videoRam verticalScroll (videoWidth * y + x) =
      picture videoRam' verticalScroll (videoWidth * y + x)) ↔ videoRam = videoRam' := by
  refine ⟨fun hsame => ?_, fun h => by simp [h]⟩
  funext offset
  refine BitVec.eq_of_getMsbD_eq fun i hi => ?_
  -- the line that shows this byte, wherever the picture begins
  let column := offset.toNat / 256
  let y := (offset.toNat % 256 + 256 - verticalScroll.toNat) % 256
  have hx : 8 * column + i < videoWidth := by
    have := offset.isLt
    rw [videoWidth]
    omega
  have hat : videoOffset (8 * column + i) (y + verticalScroll.toNat) = offset := by
    apply BitVec.eq_of_toNat_eq
    have hscroll := verticalScroll.isLt
    have hoffset := offset.isLt
    rw [videoOffset, BitVec.toNat_ofNat]
    omega
  have hbit : (8 * column + i) % 8 = i := by omega
  have hpixel := hsame _ hx y (Nat.mod_lt _ (by decide))
  rw [picture_pixel _ _ hx, picture_pixel _ _ hx, hat, hbit] at hpixel
  revert hpixel
  cases (videoRam offset).getMsbD i <;> cases (videoRam' offset).getMsbD i <;> decide

namespace Board

/-! ## The frame clock -/

/-- The frame clock follows the master clock. -/
structure Framed (s : SystemSide) : Prop where
  accumulator : s.frameTickAccumulator = s.masterTickCount % masterTicksPerFrame
  frames : s.frameCount = s.masterTickCount / masterTicksPerFrame
  ticks : s.masterTickCount = s.cycleCount * masterTicksPerCpuCycle

theorem Framed.completed {s : SystemSide} (h : Framed s) (masterTicks : Nat) :
    s.completedFrames masterTicks =
      (s.masterTickCount + masterTicks) / masterTicksPerFrame - s.masterTickCount / masterTicksPerFrame := by
  rw [SystemSide.completedFrames, h.accumulator, masterTicksPerFrame]
  omega

theorem Framed.advance {s : SystemSide} (h : Framed s) (cpuCycles : Nat) :
    Framed (s.advance cpuCycles) := by
  have hacc := h.accumulator
  have hframes := h.frames
  refine ⟨?_, ?_, ?_⟩
  · show (s.frameTickAccumulator + cpuCycles * masterTicksPerCpuCycle) % masterTicksPerFrame = _
    rw [hacc, Nat.mod_add_mod]
    rfl
  · show s.frameCount + (s.frameTickAccumulator + cpuCycles * masterTicksPerCpuCycle)
      / masterTicksPerFrame = (s.masterTickCount + cpuCycles * masterTicksPerCpuCycle)
        / masterTicksPerFrame
    rw [hacc, hframes, masterTicksPerFrame]
    omega
  · show s.masterTickCount + cpuCycles * masterTicksPerCpuCycle =
      (s.cycleCount + cpuCycles) * masterTicksPerCpuCycle
    rw [h.ticks, Nat.add_mul]

theorem act_framed {b : Board} (h : Framed b.systemSide) (a : Action) : Framed (b.act a).systemSide := by
  rw [act_systemSide]
  cases a with
  | advance cpuCycles => exact h.advance cpuCycles
  | reset => exact ⟨rfl, (Nat.zero_div _).symm, rfl⟩
  | host op =>
    have hsame : ∀ s : SystemSide, s.frameTickAccumulator = b.frameTickAccumulator →
        s.frameCount = b.frameCount → s.masterTickCount = b.masterTickCount →
        s.cycleCount = b.cycleCount → Framed s := fun s h1 h2 h3 h4 =>
      ⟨by rw [h1, h3]; exact h.accumulator, by rw [h2, h3]; exact h.frames,
        by rw [h3, h4]; exact h.ticks⟩
    cases op with
    | writeMemory address value =>
      simp only [systemAfter, writeMemory]
      repeat' split
      all_goals exact hsame _ rfl rfl rfl rfl
    | setRomImage image =>
      simp only [systemAfter, setRomImage]
      split <;> exact hsame _ rfl rfl rfl rfl
    | _ => exact hsame _ rfl rfl rfl rfl

theorem power_framed (bootRom : List Byte) : Framed (power bootRom).systemSide := by
  have hreset := act_systemSide (setRomImage {} bootRom).2 .reset
  rw [show (power bootRom).systemSide = _ from hreset]
  exact ⟨rfl, (Nat.zero_div _).symm, rfl⟩

/-! ## The screen -/

/-- What an action shows: time in which the master clock passes the end of a frame, or a reset. -/
def shown : Board × Action → Option ((BitVec 14 → Byte) × Byte)
  | (b, .advance cpuCycles) =>
    if b.masterTickCount / masterTicksPerFrame <
        (b.masterTickCount + cpuCycles * masterTicksPerCpuCycle) / masterTicksPerFrame then
      some (b.videoRam, b.verticalScroll)
    else none
  | (_, .reset) => some (fun _ => 0#8, 0#8)
  | _ => none

theorem act_frameBuffer {b : Board} (h : Framed b.systemSide) (a : Action) :
    (b.act a).frameBuffer =
      ((shown (b, a)).map fun s => picture s.1 s.2).getD b.frameBuffer := by
  have hview : (b.act a).frameBuffer = (b.systemAfter a).frameBuffer :=
    congrArg SystemSide.frameBuffer (act_systemSide b a)
  rw [hview]
  cases a with
  | reset => rfl
  | advance cpuCycles =>
    have hcompleted := h.completed (cpuCycles * masterTicksPerCpuCycle)
    have hticks : b.systemSide.masterTickCount = b.masterTickCount := rfl
    rw [hticks] at hcompleted
    have hend : (b.systemAfter (.advance cpuCycles)).frameBuffer =
        if b.systemSide.completedFrames (cpuCycles * masterTicksPerCpuCycle) = 0 then b.frameBuffer
        else picture b.videoRam b.verticalScroll := rfl
    rw [hend, hcompleted]
    simp only [shown]
    split
    next hnone => rw [if_neg (by omega)]; rfl
    next hsome => rw [if_pos (by omega)]; rfl
  | host op =>
    cases op with
    | writeMemory address value =>
      simp only [systemAfter, writeMemory]
      repeat' split
      all_goals rfl
    | setRomImage image =>
      simp only [systemAfter, setRomImage]
      split <;> rfl
    | _ => rfl

/-- After any run a pixel of the screen shows its bit of the video memory as it was, under the first
line as it was, when the master clock last passed the end of a frame, or zero memory from line zero
if there was a reset since; and the frame counter counts just these ends. -/
theorem screen_shows_last_frame (bootRom : List Byte) (actions : List Action) :
    let b := Run.run act (power bootRom) actions
    let frame := Run.last shown (fun _ => 0#8, 0#8) (Run.record act (power bootRom) actions)
    b.frameCount = b.masterTickCount / masterTicksPerFrame ∧
      ∀ x < videoWidth, ∀ y, b.frameBuffer (videoWidth * y + x) =
        if (frame.1 (videoOffset x (y + frame.2.toNat))).getMsbD (x % 8) then white else black := by
  intro b frame
  have hframed : Framed b.systemSide := Run.run_invariant (I := fun v : Board => Framed v.systemSide)
    (fun _ a h => act_framed h a) (power_framed bootRom) actions
  have hlast := Run.register_of_record (I := fun v : Board => Framed v.systemSide)
    frameBuffer (fun entry => (shown entry).map fun s => picture s.1 s.2)
    (fun _ a h => act_framed h a) (fun _ a h => act_frameBuffer h a) (power_framed bootRom) actions
  have hpower : (power bootRom).frameBuffer = picture (fun _ => 0#8) 0#8 :=
    congrArg SystemSide.frameBuffer (act_systemSide (setRomImage {} bootRom).2 .reset)
  rw [hpower, Run.last_map shown (fun s => picture s.1 s.2) (fun _ => 0#8, 0#8)] at hlast
  refine ⟨hframed.frames, fun x hx y => ?_⟩
  show (Run.run act (power bootRom) actions).frameBuffer _ = _
  rw [hlast, picture_pixel _ _ hx]

end Board
end FK1
