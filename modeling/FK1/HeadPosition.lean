import FK1.MountedDrives
import FK1.SystemSide
import FK1.Lib.Record
import FK1.Lib.Walk

/-!
# FK1.HeadPosition

Where the heads are: the drive cables follow the control 8255 (`Cabled`), a head moves with the step
pulses of its own drive and with nothing else (`head_positions`), and the status port tells where
the selected one is.
-/

namespace FK1

/-- What the drives know of the cable, and where their heads are. -/
structure Mechanics where
  heads : Fin 2 → Fin 77
  stepAsserted : Bool
  directionToHigherTrack : Bool
  trackGreaterThan43Active : Bool
  headLoaded : Bool

namespace FloppySubsystem

def mechanics (f : FloppySubsystem) : Mechanics :=
  { heads := fun i => (f.drives i).headTrack
    stepAsserted := f.stepAsserted
    directionToHigherTrack := f.directionToHigherTrack
    trackGreaterThan43Active := f.trackGreaterThan43Active
    headLoaded := f.headLoaded }

variable (f : FloppySubsystem)

theorem modify_mechanics (drive : Fin 2) {g : FloppyDrive → FloppyDrive}
    (hg : ∀ d, (g d).headTrack = d.headTrack) : (f.modify drive g).mechanics = f.mechanics := by
  unfold modify mechanics
  congr 1
  funext i
  dsimp only
  split
  · exact hg _
  · rfl

theorem advance_mechanics (masterTicks : Nat) : (f.advance masterTicks).mechanics = f.mechanics := by
  unfold advance mechanics
  congr 1
  funext i
  exact ((f.drives i).advance_headTrack masterTicks).1

theorem writeSelectedByte_mechanics (byte : TimedFmByte) :
    (f.writeSelectedByte byte).2.mechanics = f.mechanics := by
  unfold writeSelectedByte
  split
  · show (f.modify f.selectedDriveIndex fun d => (d.writeByte byte).2).mechanics = f.mechanics
    refine f.modify_mechanics f.selectedDriveIndex fun d => ?_
    unfold FloppyDrive.writeByte
    repeat' split
    all_goals rfl
  · rfl

theorem insert_mechanics (drive : Nat) (image : FloppyDiskImage) (access : FloppyAccess) :
    (f.insert drive image access).2.mechanics = f.mechanics := by
  unfold insert
  split
  · exact f.modify_mechanics (g := (·.insert image access)) _ fun _ => rfl
  · rfl

theorem eject_mechanics (drive : Nat) : (f.eject drive).2.mechanics = f.mechanics := by
  unfold eject
  split
  · exact f.modify_mechanics (g := fun d => d.eject.2) _ fun _ => rfl
  · rfl

theorem setIndexPulseWidth_mechanics (masterTicks : Nat) :
    (f.setIndexPulseWidth masterTicks).2.mechanics = f.mechanics := by
  unfold setIndexPulseWidth
  split <;> rfl

end FloppySubsystem

/-! ## The cable -/

namespace OutputLines

/-- PC0 of the control 8255 as an output: the step line. -/
def stepLine (l : OutputLines) : Bool := l.portCLowerOutputEnabled && hasBits l.outputC 0x01#8

def directionLine (l : OutputLines) : Bool := l.portCLowerOutputEnabled && hasBits l.outputC 0x02#8

def lowCurrentLine (l : OutputLines) : Bool := l.portCLowerOutputEnabled && hasBits l.outputC 0x04#8

def headLoadLine (l : OutputLines) : Bool := l.portCLowerOutputEnabled && hasBits l.outputC 0x08#8

/-- From `before` to `after` the step line falls under an output: a step, up or down. -/
def stepPulse (before after : OutputLines) : Option Bool :=
  if before.stepLine && after.portCLowerOutputEnabled && !after.stepLine then some after.directionLine
  else none

end OutputLines

/-- The cable carries what the control 8255 drives. -/
structure Cabled (b : Board) : Prop where
  step : b.floppy.stepAsserted = b.machineControl.lines.stepLine
  direction : b.floppy.directionToHigherTrack = b.machineControl.lines.directionLine
  lowCurrent : b.floppy.trackGreaterThan43Active = b.machineControl.lines.lowCurrentLine
  headLoad : b.floppy.headLoaded = b.machineControl.lines.headLoadLine

theorem setControlPortC_lines (f : FloppySubsystem) (p : Ppi8255) :
    let f' := f.setControlPortC p.outputC p.portCLowerOutputEnabled
    f'.stepAsserted = p.lines.stepLine ∧ f'.directionToHigherTrack = p.lines.directionLine ∧
      f'.trackGreaterThan43Active = p.lines.lowCurrentLine ∧ f'.headLoaded = p.lines.headLoadLine := by
  have hline : ∀ mask, (p.lines.portCLowerOutputEnabled && hasBits p.lines.outputC mask) =
      (p.portCLowerOutputEnabled && hasBits p.outputC mask) := fun _ => rfl
  simp only [OutputLines.stepLine, OutputLines.directionLine, OutputLines.lowCurrentLine,
    OutputLines.headLoadLine, hline]
  unfold FloppySubsystem.setControlPortC
  cases p.portCLowerOutputEnabled <;> simp

/-- A step moves the selected head. -/
theorem setControlPortC_heads {f : FloppySubsystem} {before : OutputLines}
    (hstep : f.stepAsserted = before.stepLine) (p : Ppi8255) (i : Fin 2) :
    (((f.setControlPortC p.outputC p.portCLowerOutputEnabled).drives i).headTrack).val =
      match before.stepPulse p.lines with
      | some up =>
        if i = f.selectedDriveIndex then Walk.move 76 (f.drives i).headTrack up
        else (f.drives i).headTrack
      | none => (f.drives i).headTrack := by
  have hup : ∀ d : FloppyDrive, d.stepTowardHigherTrack.headTrack.val = Walk.move 76 d.headTrack true := by
    intro d
    unfold FloppyDrive.stepTowardHigherTrack
    show _ = min (d.headTrack.val + 1) 76
    split
    · show d.headTrack.val + 1 = min (d.headTrack.val + 1) 76
      omega
    · omega
  have hdown : ∀ d : FloppyDrive, d.stepTowardTrackZero.headTrack.val = Walk.move 76 d.headTrack false := by
    intro d
    unfold FloppyDrive.stepTowardTrackZero
    show _ = d.headTrack.val - 1
    split
    · rfl
    · omega
  have hlines : p.lines.stepLine = (p.portCLowerOutputEnabled && hasBits p.outputC 0x01#8) ∧
      p.lines.directionLine = (p.portCLowerOutputEnabled && hasBits p.outputC 0x02#8) ∧
      p.lines.portCLowerOutputEnabled = p.portCLowerOutputEnabled := ⟨rfl, rfl, rfl⟩
  unfold OutputLines.stepPulse FloppySubsystem.setControlPortC
  rw [hlines.1, hlines.2.1, hlines.2.2, ← hstep]
  cases p.portCLowerOutputEnabled with
  | false => simp
  | true =>
    cases hs : f.stepAsserted <;> cases h0 : hasBits p.outputC 0x01#8 <;>
      simp only [Bool.not_true, Bool.not_false, Bool.false_eq_true, if_false, if_true, Bool.and_self,
        Bool.and_true, Bool.and_false, Bool.true_and]
    cases h1 : hasBits p.outputC 0x02#8 <;>
      simp only [Bool.false_eq_true, if_false, if_true, FloppySubsystem.modify]
    · split
      · exact hdown _
      · rfl
    · split
      · exact hup _
      · rfl

namespace Board

variable {b : Board}

/-! ## What moves no head -/

theorem flush_mechanics (b : Board) :
    b.flushPendingDiskWrites.floppy.mechanics = b.floppy.mechanics := by
  have hstore : ∀ (bytes : List TimedFmByte) (b : Board),
      (bytes.foldl (fun b byte =>
        let result := b.floppy.writeSelectedByte byte
        let b := { b with floppy := result.2 }
        if result.1 then b.log (.written byte) else b) b).floppy.mechanics = b.floppy.mechanics := by
    intro bytes
    induction bytes with
    | nil => exact fun _ => rfl
    | cons byte bytes ih =>
      intro b
      rw [List.foldl_cons, ih, ← b.floppy.writeSelectedByte_mechanics byte]
      dsimp only
      split <;> rfl
  exact hstore b.disk.pendingWrites b

theorem advanceTime_mechanics (b : Board) (cpuCycles : Nat) :
    (b.advanceTime cpuCycles).floppy.mechanics = b.floppy.mechanics := by
  unfold advanceTime
  extract_lets masterTicks b₀ b₁ b₂ b₃
  have hvisited : ((b₀.floppy.visitBytes masterTicks).foldl processFloppyByte b₀).floppy = b.floppy :=
    (processFloppyBytes_diskStep (b₀.floppy.visitBytes masterTicks) b₀).floppy
  have h₁ : b₁.floppy.mechanics = b.floppy.mechanics := by
    rw [← hvisited]
    exact FloppySubsystem.advance_mechanics _ masterTicks
  have h₂ : b₂.floppy = b₁.floppy :=
    (advanceMouse_floppy _ _).trans (advanceKeyboard_floppy b₁ masterTicks)
  have h₃ : b₃.floppy.mechanics = b₂.floppy.mechanics := by
    rw [← advanceTimer_floppy b₂ masterTicks]
    exact flush_mechanics (b₂.advanceTimer masterTicks)
  rw [refresh_floppy, advanceFrame_floppy, h₃, h₂, h₁]

/-- The step an action makes: with the drive that is selected, up or down. -/
def headStep : Board × Action → Option (Fin 2 × Bool)
  | (b, .host (.writeIo port value)) =>
    if ioGroup port = 6 then
      (b.machineControl.lines.stepPulse (b.controlAfter port value)).map fun up =>
        (selection b.diskData, up)
    else none
  | _ => none

theorem writeIo_floppy {port : Word} (hport : ioGroup port ≠ 6) (b : Board) (value : Byte) :
    (b.writeIo port value).floppy.mechanics = b.floppy.mechanics := by
  unfold writeIo
  dsimp only
  rw [refresh_floppy]
  split
  · unfold writePrinterKeyboard
    dsimp only
    split <;> rfl
  · unfold writeTimer
    split <;> rfl
  · rfl
  · rfl
  · rfl
  · rw [writeDiskAux_eq]
  · rename_i hsix
    exact absurd hsix hport
  · rfl

theorem writeIo_control {port : Word} (hport : ioGroup port = 6) (b : Board) (value : Byte) :
    (b.writeIo port value).floppy =
      b.floppy.setControlPortC (b.machineControl.write (registerOf port) value).outputC
        (b.machineControl.write (registerOf port) value).portCLowerOutputEnabled := by
  unfold writeIo
  rw [hport, refresh_floppy]
  dsimp only
  rw [synchronizeControlOutputs_eq]

/-- The other actions leave heads and cable as they are. -/
theorem act_mechanics (b : Board) {a : Action} (ha : a ≠ .reset)
    (hcontrol : ∀ port value, a = .host (.writeIo port value) → ioGroup port ≠ 6) :
    (b.act a).floppy.mechanics = b.floppy.mechanics := by
  have hsame : ∀ {b' : Board}, b'.floppy = b.floppy → b'.floppy.mechanics = b.floppy.mechanics :=
    congrArg FloppySubsystem.mechanics
  cases a with
  | advance cpuCycles => exact advanceTime_mechanics b cpuCycles
  | reset => exact absurd rfl ha
  | host op =>
    cases op with
    | insertFloppy drive image access => exact b.floppy.insert_mechanics drive image access
    | ejectFloppy drive => exact b.floppy.eject_mechanics drive
    | setFloppyIndexPulseWidth masterTicks => exact b.floppy.setIndexPulseWidth_mechanics masterTicks
    | writeIo port value => exact writeIo_floppy (hcontrol port value rfl) b value
    | readIo port =>
      refine hsame ?_
      show (b.readIo port).2.floppy = b.floppy
      unfold readIo
      dsimp only
      rw [refresh_floppy]
      split <;> rfl
    | keyboardKeyDown keyId code =>
      refine hsame ?_
      show (b.keyboardKeyDown keyId code).floppy = b.floppy
      unfold keyboardKeyDown
      dsimp only
      split
      · exact refresh_floppy _
      · rfl
    | takePrinterByte =>
      refine hsame ?_
      show b.takePrinterByte.2.floppy = b.floppy
      unfold takePrinterByte
      split <;> rfl
    | queueSerialReceivedByte value =>
      refine hsame ?_
      show (b.queueSerialReceivedByte value).2.floppy = b.floppy
      unfold queueSerialReceivedByte
      split <;> rfl
    | setMouseSignals signals =>
      exact hsame ((refresh_floppy _).trans (updateMouseSignals_floppy _ _))
    | mouseMotion deltaX deltaY => exact hsame ((refresh_floppy _).trans (advanceMouse_floppy _ _))
    | setMouseButton button pressed =>
      exact hsame ((refresh_floppy _).trans (updateMouseSignals_floppy _ _))
    | setRomImage image =>
      refine hsame ?_
      show (b.setRomImage image).2.floppy = b.floppy
      unfold setRomImage
      split <;> rfl
    | writeMemory address value =>
      refine hsame ?_
      show (b.writeMemory address value).floppy = b.floppy
      unfold writeMemory
      dsimp only
      repeat' split
      all_goals rfl
    | setSerialConnected | setSerialClearToSend => exact hsame (refresh_floppy _)
    | keyboardKeyUp | setPrinterOnline | takeSerialTransmittedByte | writeVideoRam
    | setVerticalScroll => exact hsame rfl

/-- The control outputs change with a write to their port and with a reset. -/
theorem act_lines (b : Board) {a : Action} (ha : a ≠ .reset)
    (hcontrol : ∀ port value, a = .host (.writeIo port value) → ioGroup port ≠ 6) :
    (b.act a).machineControl.lines = b.machineControl.lines := by
  have hview : (b.act a).machineControl.lines = (b.systemAfter a).control :=
    congrArg SystemSide.control (act_systemSide b a)
  rw [hview]
  cases a with
  | advance cpuCycles => rfl
  | reset => exact absurd rfl ha
  | host op =>
    cases op with
    | writeIo port value => exact if_neg (hcontrol port value rfl)
    | writeMemory address value =>
      simp only [systemAfter, writeMemory]
      repeat' split
      all_goals rfl
    | setRomImage image =>
      simp only [systemAfter, setRomImage]
      split <;> rfl
    | _ => rfl

theorem writeIo_lines {port : Word} (hport : ioGroup port = 6) (b : Board) (value : Byte) :
    (b.writeIo port value).machineControl.lines =
      (b.machineControl.write (registerOf port) value).lines :=
  (congrArg SystemSide.control (writeIo_systemSide b port value)).trans (if_pos hport)

theorem act_cabled (h : Cabled b) (a : Action) : Cabled (b.act a) := by
  by_cases hreset : a = .reset
  · subst hreset
    have hfloppy : (b.act .reset).floppy = b.floppy.resetController := refresh_floppy _
    have hlines : (b.act .reset).machineControl.lines = Ppi8255.lines {} :=
      congrArg SystemSide.control (act_systemSide b .reset)
    constructor <;> rw [hfloppy, hlines] <;> rfl
  by_cases hcontrol : ∃ port value, a = .host (.writeIo port value) ∧ ioGroup port = 6
  · obtain ⟨port, value, rfl, hport⟩ := hcontrol
    obtain ⟨hstep, hdirection, hcurrent, hload⟩ := setControlPortC_lines b.floppy
      (b.machineControl.write (registerOf port) value)
    rw [← writeIo_control hport, ← writeIo_lines hport] at hstep hdirection hcurrent hload
    exact ⟨hstep, hdirection, hcurrent, hload⟩
  · have hother : ∀ port value, a = .host (.writeIo port value) → ioGroup port ≠ 6 :=
      fun port value ha hport => hcontrol ⟨port, value, ha, hport⟩
    have hmechanics := act_mechanics b hreset hother
    have hlines := act_lines b hreset hother
    constructor
    · rw [hlines, ← h.step]
      exact congrArg Mechanics.stepAsserted hmechanics
    · rw [hlines, ← h.direction]
      exact congrArg Mechanics.directionToHigherTrack hmechanics
    · rw [hlines, ← h.lowCurrent]
      exact congrArg Mechanics.trackGreaterThan43Active hmechanics
    · rw [hlines, ← h.headLoad]
      exact congrArg Mechanics.headLoaded hmechanics

/-- One action on one head. -/
theorem act_head (hc : b.Coherent) (h : Cabled b) (drive : Fin 2) (a : Action) :
    ((b.act a).floppy.drives drive).headTrack.val =
      match headStep (b, a) with
      | some (selected, up) =>
        if drive = selected then Walk.move 76 (b.floppy.drives drive).headTrack up
        else (b.floppy.drives drive).headTrack
      | none => (b.floppy.drives drive).headTrack := by
  by_cases hreset : a = .reset
  · subst hreset
    have hfloppy : (b.act .reset).floppy = b.floppy.resetController := refresh_floppy _
    rw [hfloppy]
    rfl
  by_cases hcontrol : ∃ port value, a = .host (.writeIo port value) ∧ ioGroup port = 6
  · obtain ⟨port, value, rfl, hport⟩ := hcontrol
    have hheads := setControlPortC_heads h.step (b.machineControl.write (registerOf port) value) drive
    rw [← writeIo_control hport, hc.selected] at hheads
    refine hheads.trans ?_
    have hstep : headStep (b, .host (.writeIo port value)) =
        (b.machineControl.lines.stepPulse
          (b.machineControl.write (registerOf port) value).lines).map fun up =>
            (selection b.diskData, up) := by
      simp only [headStep, controlAfter, if_pos hport]
    rw [hstep]
    cases b.machineControl.lines.stepPulse (b.machineControl.write (registerOf port) value).lines <;> rfl
  · have hother : ∀ port value, a = .host (.writeIo port value) → ioGroup port ≠ 6 :=
      fun port value ha hport => hcontrol ⟨port, value, ha, hport⟩
    have hnone : headStep (b, a) = none := by
      cases a with
      | advance | reset => rfl
      | host op =>
        cases op with
        | writeIo port value => exact if_neg (hother port value rfl)
        | _ => rfl
    rw [hnone]
    exact congrArg (fun m : Mechanics => (m.heads drive).val) (act_mechanics b hreset hother)

/-! ## Runs -/

/-- The steps made with `drive` selected. -/
def stepsOf (drive : Fin 2) (history : List (Board × Action)) : List Bool :=
  (history.filterMap headStep).filterMap fun step => if step.1 = drive then some step.2 else none

theorem power_cabled (bootRom : List Byte) : Cabled (power bootRom) := by
  have hfloppy : (power bootRom).floppy = (setRomImage {} bootRom).2.floppy.resetController :=
    refresh_floppy _
  have hlines : (power bootRom).machineControl.lines = Ppi8255.lines {} :=
    congrArg SystemSide.control (act_systemSide (setRomImage {} bootRom).2 .reset)
  constructor <;> rw [hfloppy, hlines] <;> rfl

theorem Reachable.cabled (h : b.Reachable) : Cabled b := by
  obtain ⟨bootRom, h⟩ := h
  exact h.invariant (I := Cabled) (power_cabled bootRom) fun _ a hb => act_cabled hb a

/-- A head has walked the steps of its own drive. -/
theorem run_head (hb : b.Reachable) (drive : Fin 2) (actions : List Action) :
    ((Run.run act b actions).floppy.drives drive).headTrack.val =
      Walk.walk 76 (b.floppy.drives drive).headTrack (stepsOf drive (Run.record act b actions)) := by
  have hview := Run.view_of_record (I := Reachable)
    (fun v : Board => (v.floppy.drives drive).headTrack.val)
    (fun position entry => match headStep entry with
      | some (selected, up) => if drive = selected then Walk.move 76 position up else position
      | none => position)
    (fun v a hv => hv.imp fun _ h => h.next a)
    (fun v a hv => act_head hv.coherent hv.cabled drive a) hb actions
  rw [hview]
  generalize Run.record act b actions = history
  generalize (b.floppy.drives drive).headTrack.val = position
  induction history generalizing position with
  | nil => rfl
  | cons entry history ih =>
    rw [List.foldl_cons, ih]
    unfold stepsOf
    rw [List.filterMap_cons]
    cases headStep entry with
    | none => rfl
    | some step =>
      obtain ⟨selected, up⟩ := step
      dsimp only
      rw [List.filterMap_cons]
      by_cases hdrive : drive = selected
      · subst hdrive
        simp
      · have hother : selected ≠ drive := fun h => hdrive h.symm
        simp [hdrive, hother]

/-! ## The status port -/

/-- A read at this port is a read of port C of the control 8255, its upper half plain inputs. -/
structure StatusPort (b : Board) (port : Word) : Prop where
  group : ioGroup port = 6
  register : registerOf port &&& 0x03#8 = 2#8
  upperInput : b.machineControl.portCUpperInput = true
  mode0 : b.machineControl.groupAMode = .mode0

theorem readPortC_upper {p : Ppi8255} (hupper : p.portCUpperInput = true)
    (hmode : p.groupAMode = .mode0) {mask : Byte}
    (hmask : mask = 0x10#8 ∨ mask = 0x20#8 ∨ mask = 0x40#8 ∨ mask = 0x80#8) :
    hasBits p.readPortC mask = hasBits p.portCInput mask := by
  have hset : ∀ (value : Byte) (bit : Fin 3) (high : Bool),
      hasBits (Ppi8255.setBit value bit.val high) mask = hasBits value mask := by
    rcases hmask with rfl | rfl | rfl | rfl <;> decide +kernel
  have hhalf : ∀ input other : Byte,
      hasBits ((input &&& 0xF0#8) ||| (other &&& 0x0F#8)) mask = hasBits input mask := by
    intro input other
    have hlow : ∀ other : Byte, (other &&& 0x0F#8) &&& mask = 0#8 := by
      rcases hmask with rfl | rfl | rfl | rfl <;> decide +kernel
    have hhigh : ∀ input : Byte, (input &&& 0xF0#8) &&& mask = input &&& mask := by
      rcases hmask with rfl | rfl | rfl | rfl <;> decide +kernel
    unfold hasBits
    rw [BitVec.and_comm, BitVec.and_or_distrib_left, BitVec.and_comm mask, BitVec.and_comm mask, hlow,
      hhigh, BitVec.or_zero]
  unfold Ppi8255.readPortC
  rw [hupper, hmode, if_pos rfl]
  dsimp only
  split
  · exact (hset _ 0 _).trans ((hset _ 1 _).trans ((hset _ 2 _).trans (hhalf _ _)))
  · exact hhalf _ _

theorem status_bit {port : Word} (h : StatusPort b port) {mask : Byte}
    (hmask : mask = 0x10#8 ∨ mask = 0x20#8 ∨ mask = 0x40#8 ∨ mask = 0x80#8) :
    hasBits (b.readIo port).1 mask = hasBits b.floppy.controlPortCInputs mask := by
  have hread : (b.readIo port).1 =
      (b.machineControl.setPortCInput b.floppy.controlPortCInputs).readPortC := by
    unfold readIo
    rw [h.group]
    dsimp only
    unfold Ppi8255.read
    rw [h.register]
    rfl
  rw [hread]
  exact readPortC_upper (p := b.machineControl.setPortCInput b.floppy.controlPortCInputs) h.upperInput
    h.mode0 hmask

theorem controlPortCInputs_bits (f : FloppySubsystem) :
    hasBits f.controlPortCInputs 0x10#8 = f.selectedDrive.trackZero ∧
      hasBits f.controlPortCInputs 0x20#8 = f.selectedDrive.writeProtected ∧
      hasBits f.controlPortCInputs 0x80#8 = f.selectedDrive.indexActive f.indexPulseWidthTicks := by
  unfold FloppySubsystem.controlPortCInputs
  cases f.selectedDrive.trackZero <;> cases f.selectedDrive.writeProtected <;>
    cases f.selectedDrive.indexActive f.indexPulseWidthTicks <;> decide

/-- From any reachable state on, in every run: each head is where the step pulses given while its own
drive was selected have brought it, staying at track 0 and at track 76, and nothing else moves a
head. So 76 or more steps down and `up` steps up, with whatever else in between, find track `up`. The
status port tells the selected drive's track zero and write protection, and the Index pulse. -/
theorem head_positions (hb : b.Reachable) (actions : List Action) :
    let b' := Run.run act b actions
    let history := Run.record act b actions
    (∀ drive, (b'.floppy.drives drive).headTrack.val =
        Walk.walk 76 (b.floppy.drives drive).headTrack (stepsOf drive history)) ∧
      (∀ drive down up, stepsOf drive history = List.replicate down false ++ List.replicate up true →
        76 ≤ down → up ≤ 76 → (b'.floppy.drives drive).headTrack.val = up) ∧
      ∀ port, StatusPort b' port →
        (hasBits (b'.readIo port).1 0x10#8 = true ↔ Walk.walk 76
          (b.floppy.drives (selection b'.diskData)).headTrack
            (stepsOf (selection b'.diskData) history) = 0) ∧
        hasBits (b'.readIo port).1 0x20#8 =
          (b'.floppy.drives (selection b'.diskData)).writeProtected ∧
        hasBits (b'.readIo port).1 0x80#8 =
          (b'.floppy.drives (selection b'.diskData)).indexActive b'.floppy.indexPulseWidthTicks := by
  intro b' history
  have hheads := fun drive => run_head hb drive actions
  have hb' : b'.Reachable := hb.imp fun _ h => h.runs actions
  refine ⟨hheads, fun drive down up hsteps hdown hup => ?_, fun port hport => ?_⟩
  · have hlt := (b.floppy.drives drive).headTrack.isLt
    rw [hheads drive, show stepsOf drive (Run.record act b actions) = _ from hsteps]
    exact Walk.walk_down_up (by omega) hup
  · have hselected : b'.floppy.selectedDrive = b'.floppy.drives (selection b'.diskData) :=
      congrArg b'.floppy.drives hb'.coherent.selected
    obtain ⟨hzero, hprotected, hindex⟩ := controlPortCInputs_bits b'.floppy
    rw [hselected] at hzero hprotected hindex
    refine ⟨?_, (status_bit hport (.inr (.inl rfl))).trans hprotected,
      (status_bit hport (.inr (.inr (.inr rfl)))).trans hindex⟩
    rw [status_bit hport (.inl rfl), hzero, ← hheads (selection b'.diskData)]
    unfold FloppyDrive.trackZero
    rw [beq_iff_eq, Fin.ext_iff]
    rfl

/-- A step up and a step down of drive B. -/
theorem head_positions_there_and_back :
    let pulse := fun direction : Byte =>
      [Action.host (.writeIo 0x62#16 (direction ||| 1#8)), .host (.writeIo 0x62#16 direction)]
    let b := Run.run act (power []) [.host (.writeIo 0x63#16 0x88#8)]
    ((Run.run act b (pulse 2#8 ++ pulse 2#8 ++ pulse 0#8)).floppy.drives driveB).headTrack.val = 1 := by
  intro pulse b
  have hb : b.Reachable := ⟨[], _, rfl⟩
  rw [(head_positions hb (pulse 2#8 ++ pulse 2#8 ++ pulse 0#8)).1 driveB]
  decide +kernel

end Board
end FK1
