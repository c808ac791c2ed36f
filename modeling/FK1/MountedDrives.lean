import FK1.DiskMounts
import FK1.DiskTrace

/-!
# FK1.MountedDrives

The slots of the frontend and the drives of the machine in any run of the program: a slot is in use
exactly when its drive holds a medium, and then both have the same access.
-/

namespace FK1

/-! ## The machine -/

namespace FloppySubsystem

variable {f f' f'' : FloppySubsystem}

/-- No medium has come or gone, and none has changed its access. -/
def SameMounts (f f' : FloppySubsystem) : Prop :=
  ∀ i, (f'.drives i).mediaPresent = (f.drives i).mediaPresent ∧
    (f'.drives i).access = (f.drives i).access

theorem SameMounts.refl (f : FloppySubsystem) : SameMounts f f := fun _ => ⟨rfl, rfl⟩

theorem SameMounts.trans (h : SameMounts f f') (h' : SameMounts f' f'') : SameMounts f f'' :=
  fun i => ⟨(h' i).1.trans (h i).1, (h' i).2.trans (h i).2⟩

theorem modify_sameMounts (f : FloppySubsystem) (drive : Fin 2) {g : FloppyDrive → FloppyDrive}
    (hg : ∀ d, (g d).mediaPresent = d.mediaPresent ∧ (g d).access = d.access) :
    SameMounts f (f.modify drive g) := by
  intro i
  unfold modify
  dsimp only
  split
  · exact hg _
  · exact ⟨rfl, rfl⟩

theorem advance_sameMounts (f : FloppySubsystem) (masterTicks : Nat) :
    SameMounts f (f.advance masterTicks) := by
  intro i
  obtain ⟨-, himage, haccess⟩ := (f.drives i).advance_headTrack masterTicks
  exact ⟨congrArg Option.isSome himage, haccess⟩

theorem writeSelectedByte_sameMounts (f : FloppySubsystem) (byte : TimedFmByte) :
    SameMounts f (f.writeSelectedByte byte).2 := by
  unfold writeSelectedByte
  split
  · show SameMounts f (f.modify f.selectedDriveIndex fun d => (d.writeByte byte).2)
    refine modify_sameMounts f _ fun d => ?_
    unfold FloppyDrive.writeByte FloppyDrive.mediaPresent
    cases himage : d.image with
    | none => exact ⟨congrArg Option.isSome himage, rfl⟩
    | some image =>
      dsimp only
      split
      · exact ⟨congrArg Option.isSome himage, rfl⟩
      · exact ⟨rfl, rfl⟩
  · exact .refl f

theorem setControlPortC_sameMounts (f : FloppySubsystem) (output : Byte) (enabled : Bool) :
    SameMounts f (f.setControlPortC output enabled) := by
  have hdown : SameMounts f (f.modify f.selectedDriveIndex (·.stepTowardTrackZero)) := by
    refine modify_sameMounts f _ fun d => ?_
    unfold FloppyDrive.stepTowardTrackZero
    split <;> exact ⟨rfl, rfl⟩
  have hup : SameMounts f (f.modify f.selectedDriveIndex (·.stepTowardHigherTrack)) := by
    refine modify_sameMounts f _ fun d => ?_
    unfold FloppyDrive.stepTowardHigherTrack
    split <;> exact ⟨rfl, rfl⟩
  unfold setControlPortC
  dsimp only
  repeat' split
  · exact .refl f
  · exact hup
  · exact hdown
  · exact .refl f

theorem setIndexPulseWidth_sameMounts (f : FloppySubsystem) (masterTicks : Nat) :
    SameMounts f (f.setIndexPulseWidth masterTicks).2 := by
  unfold setIndexPulseWidth
  split <;> exact .refl f

end FloppySubsystem

namespace Board

open FloppySubsystem (SameMounts)

variable {b b' : Board}

theorem DiskStep.floppy (h : DiskStep b b') : b'.floppy = b.floppy := by
  obtain ⟨_, _, _, _, _, _, rfl, _⟩ := h
  rfl

theorem refresh_floppy (b : Board) : b.refreshInterruptSources.floppy = b.floppy :=
  (refresh_diskStep b).floppy

theorem advanceFloppy_sameMounts (b : Board) (masterTicks : Nat) :
    SameMounts b.floppy (b.advanceFloppy masterTicks).floppy := by
  have hvisited := (processFloppyBytes_diskStep (b.floppy.visitBytes masterTicks) b).floppy
  have hturned := FloppySubsystem.advance_sameMounts
    ((b.floppy.visitBytes masterTicks).foldl processFloppyByte b).floppy masterTicks
  rw [hvisited] at hturned
  unfold advanceFloppy
  dsimp only
  rw [hvisited]
  exact hturned

theorem advanceKeyboard_floppy (b : Board) (masterTicks : Nat) :
    (b.advanceKeyboard masterTicks).floppy = b.floppy :=
  advanceKeyboard_view DiskStep.floppy (fun _ _ _ => rfl) b masterTicks

theorem updateMouseSignals_floppy (b : Board) (signals : Byte) :
    (b.updateMouseSignals signals).floppy = b.floppy := by
  obtain ⟨_, _, he⟩ := updateMouseSignals_frame b signals
  rw [he]

theorem advanceMouse_floppy (b : Board) (masterTicks : Nat) :
    (b.advanceMouse masterTicks).floppy = b.floppy := by
  obtain ⟨_, _, he⟩ := advanceMouse_frame b masterTicks
  rw [he]

theorem advanceTimer_floppy (b : Board) (masterTicks : Nat) :
    (b.advanceTimer masterTicks).floppy = b.floppy := by
  unfold advanceTimer
  dsimp only
  split
  · rfl
  · exact applyTimerEdges_view DiskStep.floppy (fun _ _ => rfl) _ _

theorem flush_sameMounts (b : Board) : SameMounts b.floppy b.flushPendingDiskWrites.floppy := by
  have hstore : ∀ (bytes : List TimedFmByte) (b : Board),
      SameMounts b.floppy (bytes.foldl (fun b byte =>
        let result := b.floppy.writeSelectedByte byte
        let b := { b with floppy := result.2 }
        if result.1 then b.log (.written byte) else b) b).floppy := by
    intro bytes
    induction bytes with
    | nil => exact fun b => .refl b.floppy
    | cons byte bytes ih =>
      intro b
      refine SameMounts.trans (FloppySubsystem.writeSelectedByte_sameMounts b.floppy byte) ?_
      rw [List.foldl_cons]
      refine SameMounts.trans ?_ (ih _)
      dsimp only
      split <;> exact .refl _
  exact hstore b.disk.pendingWrites b

theorem advanceFrame_floppy (b : Board) (masterTicks : Nat) :
    (b.advanceFrame masterTicks).floppy = b.floppy := by
  unfold advanceFrame
  dsimp only
  split <;> rfl

theorem advanceTime_sameMounts (b : Board) (cpuCycles : Nat) :
    SameMounts b.floppy (b.advanceTime cpuCycles).floppy := by
  unfold advanceTime
  extract_lets masterTicks b₀ b₁ b₂ b₃
  have h₁ : SameMounts b.floppy b₁.floppy := advanceFloppy_sameMounts b₀ masterTicks
  have h₂ : b₂.floppy = b₁.floppy :=
    (advanceMouse_floppy _ _).trans (advanceKeyboard_floppy b₁ masterTicks)
  have h₃ : SameMounts b₂.floppy b₃.floppy := by
    rw [← advanceTimer_floppy b₂ masterTicks]
    exact flush_sameMounts (b₂.advanceTimer masterTicks)
  rw [refresh_floppy, advanceFrame_floppy]
  rw [h₂] at h₃
  exact h₁.trans h₃

theorem writeIo_sameMounts (b : Board) (port : Word) (value : Byte) :
    SameMounts b.floppy (b.writeIo port value).floppy := by
  unfold writeIo
  dsimp only
  rw [refresh_floppy]
  split
  · unfold writePrinterKeyboard
    dsimp only
    split <;> exact .refl _
  · unfold writeTimer
    split <;> exact .refl _
  · exact .refl _
  · exact .refl _
  · exact .refl _
  · rw [writeDiskAux_eq]
    exact .refl _
  · rw [synchronizeControlOutputs_eq]
    exact FloppySubsystem.setControlPortC_sameMounts _ _ _
  · exact .refl _

/-- Only `insertFloppy` and `ejectFloppy` change which drive holds a medium with which access. -/
theorem act_sameMounts (b : Board) (a : Action) (ha : a.movesDisk = false) :
    SameMounts b.floppy (b.act a).floppy := by
  have hsame : ∀ {b' : Board}, b'.floppy = b.floppy → SameMounts b.floppy b'.floppy := by
    intro b' h
    rw [h]
    exact .refl _
  cases a with
  | advance cpuCycles => exact advanceTime_sameMounts b cpuCycles
  | reset =>
    have hreset : b.reset.floppy = b.floppy.resetController := refresh_floppy _
    show SameMounts b.floppy b.reset.floppy
    rw [hreset]
    exact fun _ => ⟨rfl, rfl⟩
  | host op =>
    cases op with
    | insertFloppy drive image access => exact Bool.noConfusion ha
    | ejectFloppy drive => exact Bool.noConfusion ha
    | setFloppyIndexPulseWidth masterTicks =>
      exact FloppySubsystem.setIndexPulseWidth_sameMounts b.floppy masterTicks
    | writeIo port value => exact writeIo_sameMounts b port value
    | readIo port =>
      refine hsame ?_
      show (b.readIo port).2.floppy = b.floppy
      unfold readIo
      dsimp only
      rw [refresh_floppy]
      split <;> rfl
    | keyboardKeyDown keyId code =>
      refine hsame ?_
      show (b.keyboardKeyDown keyId code).floppy = b.floppy
      unfold keyboardKeyDown
      dsimp only
      split
      · exact refresh_floppy _
      · rfl
    | takePrinterByte =>
      refine hsame ?_
      show b.takePrinterByte.2.floppy = b.floppy
      unfold takePrinterByte
      split <;> rfl
    | queueSerialReceivedByte value =>
      refine hsame ?_
      show (b.queueSerialReceivedByte value).2.floppy = b.floppy
      unfold queueSerialReceivedByte
      split <;> rfl
    | setMouseSignals signals =>
      exact hsame ((refresh_floppy _).trans (updateMouseSignals_floppy _ _))
    | mouseMotion deltaX deltaY => exact hsame ((refresh_floppy _).trans (advanceMouse_floppy _ _))
    | setMouseButton button pressed =>
      exact hsame ((refresh_floppy _).trans (updateMouseSignals_floppy _ _))
    | setRomImage image =>
      refine hsame ?_
      show (b.setRomImage image).2.floppy = b.floppy
      unfold setRomImage
      split <;> rfl
    | writeMemory address value =>
      refine hsame ?_
      show (b.writeMemory address value).floppy = b.floppy
      unfold writeMemory
      dsimp only
      repeat' split
      all_goals rfl
    | setSerialConnected connected => exact hsame (refresh_floppy _)
    | setSerialClearToSend clear => exact hsame (refresh_floppy _)
    | keyboardKeyUp | setPrinterOnline | takeSerialTransmittedByte | writeVideoRam
    | setVerticalScroll => exact hsame rfl

end Board

/-! ## A drive and its slot -/

/-- The drive holds a medium exactly when the slot is in use, with the slot's access. -/
def Agree (d : FloppyDrive) (mounted : MountedDisk) : Prop :=
  d.mediaPresent = mounted.path.isSome ∧ (d.mediaPresent = true → d.access = mounted.access)

variable {d d' : FloppyDrive} {mounted : MountedDisk}

theorem agree_congr (h : d'.mediaPresent = d.mediaPresent ∧ d'.access = d.access) :
    Agree d' mounted ↔ Agree d mounted := by
  rw [Agree, Agree, h.1, h.2]

theorem agree_empty (hd : d.image = none) (hmounted : mounted.path = none) : Agree d mounted := by
  refine ⟨by rw [FloppyDrive.mediaPresent, hd, hmounted]; rfl, fun hpresent => ?_⟩
  rw [FloppyDrive.mediaPresent, hd] at hpresent
  cases hpresent

theorem agree_insert (d : FloppyDrive) (disk : FloppyDiskImage) (path : Path)
    (access : FloppyAccess) : Agree (d.insert disk access) { path := some path, access := access } :=
  ⟨rfl, fun _ => rfl⟩

/-- The machine after a disk operation on one drive. -/
def OnlyDrive (drive : Fin 2) (b b' : Board) : Prop :=
  ∀ i, i ≠ drive → b'.floppy.drives i = b.floppy.drives i

variable {b b' b'' : Board} {drive : Fin 2} {error : String} {saving : WriteAnswers}

theorem OnlyDrive.of_floppy (h : b'.floppy = b.floppy) : OnlyDrive drive b b' := by
  intro i _
  rw [h]

theorem OnlyDrive.trans (h : OnlyDrive drive b b') (h' : OnlyDrive drive b' b'') :
    OnlyDrive drive b b'' :=
  fun i hi => (h' i hi).trans (h i hi)

theorem onlyDrive_modify {g : FloppyDrive → FloppyDrive}
    (h : b'.floppy = b.floppy.modify drive g) : OnlyDrive drive b b' := by
  intro i hi
  rw [h]
  exact if_neg hi

theorem ejectFloppy_onlyDrive (b : Board) (drive : Fin 2) :
    OnlyDrive drive b (b.ejectFloppy drive).2 :=
  onlyDrive_modify (b.ejectFloppy_floppy drive)

theorem insertFloppy_onlyDrive (b : Board) (drive : Fin 2) (disk : FloppyDiskImage)
    (access : FloppyAccess) : OnlyDrive drive b (b.insertFloppy drive disk access).2 :=
  onlyDrive_modify (b.insertFloppy_floppy drive disk access)

theorem insertFloppy_drive (b : Board) (drive : Fin 2) (disk : FloppyDiskImage)
    (access : FloppyAccess) :
    (b.insertFloppy drive disk access).2.floppy.drives drive
      = (b.floppy.drives drive).insert disk access := by
  rw [b.insertFloppy_floppy drive disk access]
  exact if_pos rfl

/-! ## Disk operations -/

/-- Where drive and slot agree, an eject that fails leaves the drives and the slot as they were, and
one that succeeds empties both. -/
theorem eject8sd_agreeing (hagree : Agree (b.floppy.drives drive) mounted) {r : DiskResult}
    (hr : eject8sd b drive mounted error saving = r) :
    (r.ok = false ∧ r.board.floppy = b.floppy ∧ r.mounted = mounted) ∨
      (r.ok = true ∧ r.board = (b.ejectFloppy drive).2 ∧
        r.mounted = { mounted with path := none }) := by
  subst hr
  cases hdisk : (b.floppy.drives drive).image with
  | none =>
    rw [eject8sd_empty hdisk]
    exact .inr ⟨rfl, rfl, rfl⟩
  | some disk =>
    have haccess : (b.floppy.drives drive).access = mounted.access :=
      hagree.2 (congrArg Option.isSome hdisk)
    obtain ⟨-, hfailed, hfloppy, hmounted⟩ | ⟨-, hok, hboard, hmounted⟩ :=
      eject8sd_cases error saving hdisk haccess
    · exact .inl ⟨hfailed, hfloppy, hmounted⟩
    · exact .inr ⟨hok, hboard, hmounted⟩

/-- A disk operation on a drive and its slot has left the other drive alone, and the two agree. -/
def Agreeing (drive : Fin 2) (b : Board) (r : DiskResult) : Prop :=
  OnlyDrive drive b r.board ∧ Agree (r.board.floppy.drives drive) r.mounted

theorem eject8sd_agrees (hagree : Agree (b.floppy.drives drive) mounted) :
    Agreeing drive b (eject8sd b drive mounted error saving) := by
  obtain ⟨-, hfloppy, hmounted⟩ | ⟨-, hboard, hmounted⟩ :=
    @eject8sd_agreeing mounted b drive error saving hagree _ rfl
  · refine ⟨.of_floppy hfloppy, ?_⟩
    rw [hfloppy, hmounted]
    exact hagree
  · refine ⟨?_, ?_⟩
    · rw [hboard]
      exact ejectFloppy_onlyDrive b drive
    · rw [hboard, hmounted]
      exact agree_empty (b.ejectFloppy_empties drive) rfl

theorem ejectMounted_agrees (hagree : Agree (b.floppy.drives drive) mounted) :
    Agreeing drive b (ejectMounted b drive mounted error saving) := by
  unfold ejectMounted
  split
  · exact eject8sd_agrees hagree
  · exact ⟨.of_floppy rfl, hagree⟩

theorem replace8sd_agrees (path : Path) (access : FloppyAccess) (answers : ReplaceAnswers)
    (hagree : Agree (b.floppy.drives drive) mounted) :
    Agreeing drive b (replace8sd b drive path access mounted error answers) := by
  have hejected := @ejectMounted_agrees mounted b drive error answers.saving hagree
  obtain ⟨-, -, -, hboard, hmounted⟩ | ⟨-, -, hr⟩ | ⟨-, -, -, -, hboard, hmounted⟩ |
    ⟨-, -, -, ⟨disk, hboard⟩, hmounted⟩ :=
    replace8sd_cases b drive mounted error path access answers
  · rw [Agreeing, hboard, hmounted]
    exact ⟨.of_floppy rfl, hagree⟩
  · rw [hr]
    exact hejected
  · rw [Agreeing, hboard, hmounted]
    exact hejected
  · rw [Agreeing, hboard, hmounted, insertFloppy_drive]
    exact ⟨hejected.1.trans (insertFloppy_onlyDrive _ drive disk access),
      agree_insert _ disk path access⟩

/-! ## The frontend -/

namespace Frontend

variable {s s' : Frontend}

/-- Each drive agrees with its slot. -/
def Agrees (s : Frontend) : Prop := ∀ i, Agree (s.board.floppy.drives i) (s.disks i)

theorem agrees_of_sameMounts (h : s.Agrees)
    (hboard : FloppySubsystem.SameMounts s.board.floppy s'.board.floppy)
    (hdisks : s'.disks = s.disks) : s'.Agrees := by
  intro i
  rw [hdisks]
  exact (agree_congr (hboard i)).mpr (h i)

theorem agrees_of_eq (h : s.Agrees) (hboard : s'.board = s.board) (hdisks : s'.disks = s.disks) :
    s'.Agrees := by
  refine agrees_of_sameMounts h ?_ hdisks
  rw [hboard]
  exact .refl _

theorem agrees_of_result {r : DiskResult} (h : s.Agrees) (hr : Agreeing drive s.board r)
    (hboard : s'.board = r.board) (hdisks : s'.disks = Function.update s.disks drive r.mounted) :
    s'.Agrees := by
  intro i
  rw [hboard, hdisks]
  by_cases hi : i = drive
  · subst hi
    rw [Function.update_self]
    exact hr.2
  · rw [Function.update_of_ne hi, hr.1 i hi]
    exact h i

theorem mountChosen_agrees (drive : Fin 2) (path : Path) (access : FloppyAccess)
    (creatingBlank : Bool) (answers : ReplaceAnswers) (h : s.Agrees) :
    (s.mountChosen drive path access creatingBlank answers).Agrees := by
  have hr := @replace8sd_agrees _ _ _ "" path access answers (h drive)
  unfold mountChosen
  dsimp only
  split
  · exact agrees_of_result h hr rfl rfl
  · exact agrees_of_result h hr rfl rfl

theorem openChosen_agrees (drive : Fin 2) (path : Path) (access : FloppyAccess)
    (operation : DiskDialogOperation) (answers : DialogAnswers) (h : s.Agrees) :
    (s.openChosen drive path access operation answers).Agrees := by
  unfold openChosen
  split
  · exact h
  · split
    · exact h
    · split
      · split
        · exact h
        · exact mountChosen_agrees drive path access true answers.replacing h
      · exact mountChosen_agrees drive path access false answers.replacing h

theorem processResult_agrees (result : DiskDialogResult) (answers : DialogAnswers) (h : s.Agrees) :
    (s.processResult result answers).Agrees := by
  have htaken : ({ s with nativeFileDialogOpen := false }.takeResult result answers).Agrees := by
    unfold takeResult
    split
    · exact h
    · split
      · exact h
      · split
        · exact openChosen_agrees _ _ _ _ answers h
        · exact h
  exact htaken

theorem processResults_agrees (results : List DiskDialogResult) (answers : List DialogAnswers)
    (h : s.Agrees) : (s.processResults results answers).Agrees := by
  induction results generalizing s answers with
  | nil => exact h
  | cons result results ih => exact ih answers.tail (processResult_agrees result (answers.headD {}) h)

theorem ejectDisk_agrees (drive : Fin 2) (saving : WriteAnswers) (h : s.Agrees) :
    (s.ejectDisk drive saving).Agrees :=
  agrees_of_result h (eject8sd_agrees (h drive)) rfl rfl

theorem showDiskDialog_board (drive : Fin 2) (access : FloppyAccess)
    (operation : DiskDialogOperation) :
    (s.showDiskDialog drive access operation).board = s.board := by
  unfold showDiskDialog
  split <;> rfl

theorem act_agrees (action : UiAction) (h : s.Agrees) : (s.act action).Agrees := by
  cases action with
  | showDiskDialog drive access operation =>
    exact agrees_of_eq h (showDiskDialog_board ..) (showDiskDialog_disks ..)
  | openButton drive => exact agrees_of_eq h (showDiskDialog_board ..) (showDiskDialog_disks ..)
  | fileDialogCallback choice =>
    refine agrees_of_eq h ?_ (fileDialogCallback_disks choice)
    show (s.fileDialogCallback choice).board = s.board
    unfold fileDialogCallback
    split <;> rfl
  | processFileDialogResults answers => exact processResults_agrees _ answers h
  | ejectDisk drive saving =>
    unfold act
    dsimp only
    split
    · exact ejectDisk_agrees drive saving h
    · exact h
  | resetMachine => exact agrees_of_sameMounts h (s.board.act_sameMounts .reset rfl) rfl
  | machine action keepsDisks =>
    exact agrees_of_sameMounts h (s.board.act_sameMounts action keepsDisks) rfl
  | writableBox drive checked | togglePause => exact h

theorem run_agrees (actions : List UiAction) (h : s.Agrees) :
    (Run.run act s actions).Agrees := by
  induction actions generalizing s with
  | nil => exact h
  | cons action actions ih => exact ih (act_agrees action h)

end Frontend

/-! ## Startup -/

open FloppySubsystem (SameMounts)

theorem power_sameMounts (bootRom : List Byte) : SameMounts {} (Board.power bootRom).floppy :=
  (({} : Board).act_sameMounts (.host (.setRomImage bootRom)) rfl).trans
    (Board.act_sameMounts _ .reset rfl)

theorem configure_sameMounts {options : Options} {rom : ReadAnswers}
    (h : configure b options rom = .ok b') : SameMounts b.floppy b'.floppy := by
  let ticks := options.indexPulseUs * 12 % 2 ^ 32
  have hwidth : ∀ {b₁ : Board}, (if options.showRomInfo = true then .error .success
      else if (b₁.setFloppyIndexPulseWidth ticks).1 = true then
        .ok (b₁.setFloppyIndexPulseWidth ticks).2
      else .error (.failure "invalid Index pulse width")) = (.ok b' : Except Exit Board) →
      SameMounts b₁.floppy b'.floppy := by
    intro b₁ h
    split at h
    · cases h
    · split at h
      · cases h
        exact b₁.act_sameMounts (.host (.setFloppyIndexPulseWidth _)) rfl
      · cases h
  unfold configure at h
  cases hpath : options.romPath with
  | none =>
    rw [hpath] at h
    exact hwidth h
  | some path =>
    rw [hpath] at h
    dsimp only at h
    cases hread : readRomFile path rom with
    | error error =>
      rw [hread] at h
      cases h
    | ok image =>
      rw [hread] at h
      dsimp only at h
      by_cases haccepted : (b.setRomImage image).1 = true
      · rw [if_pos haccepted] at h
        exact (b.act_sameMounts (.host (.setRomImage image)) rfl).trans (hwidth h)
      · rw [if_neg haccepted] at h
        cases h

theorem startPrinter_sameMounts {options : Options} {opened : Bool}
    (h : startPrinter b options opened = .ok b') : SameMounts b.floppy b'.floppy := by
  unfold startPrinter at h
  split at h
  · cases h
    exact .refl _
  · split at h
    · cases h
      exact b.act_sameMounts (.host (.setPrinterOnline true)) rfl
    · cases h

theorem startSerial_sameMounts {options : Options} {answers : StartupAnswers}
    (h : startSerial b options answers = .ok b') : SameMounts b.floppy b'.floppy := by
  unfold startSerial at h
  split at h
  · cases h
    exact .refl _
  · split at h
    · cases h
    · rename_i link hlink
      cases h
      exact b.act_sameMounts (.host (.setSerialConnected link.connected)) rfl

variable {s s' : Frontend}

theorem mountDisk_agrees {drive : Fin 2} {disk : MountedDisk} {answers : ReplaceAnswers}
    (hmount : mountDisk s drive disk answers = .ok s') (h : s.Agrees) : s'.Agrees := by
  unfold mountDisk at hmount
  split at hmount
  · cases hmount
    exact h
  · rename_i path hpath
    dsimp only at hmount
    split at hmount
    · cases hmount
      exact Frontend.agrees_of_result h (replace8sd_agrees path disk.access answers (h drive)) rfl rfl
    · cases hmount

theorem start_agrees {bootRom : List Byte} {options : Options} {answers : StartupAnswers}
    (h : start bootRom options answers = .ok s) : s.Agrees := by
  unfold start at h
  split at h
  · cases h
  · split at h
    · cases h
    · simp only [bind_eq_ok] at h
      obtain ⟨board, hboard, s₁, hA, s₂, hB, board₁, hprinter, board₂, hserial, hs⟩ := h
      have hpower : ({ board := board } : Frontend).Agrees := by
        intro i
        refine (agree_congr ?_).mpr (@agree_empty {} {} rfl rfl)
        exact (power_sameMounts bootRom).trans (configure_sameMounts hboard) i
      have hmounted : s₂.Agrees := mountDisk_agrees hB (mountDisk_agrees hA hpower)
      split at hs
      · cases hs
        have hstarted : SameMounts s₂.board.floppy board₂.floppy :=
          (startPrinter_sameMounts hprinter).trans (startSerial_sameMounts hserial)
        exact Frontend.agrees_of_sameMounts hmounted hstarted rfl
      · cases hs

theorem startup_agrees {bootRom : List Byte} {arguments : List String} {answers : StartupAnswers}
    (h : startup bootRom arguments answers = .ok s) : s.Agrees := by
  unfold startup at h
  split at h
  · cases h
  · exact start_agrees h

/-! ## The running program -/

/-- In every state of every run, each drive agrees with its slot. -/
theorem program_agrees {bootRom : List Byte} {arguments : List String} {answers : StartupAnswers}
    (h : startup bootRom arguments answers = .ok s) (actions : List UiAction) :
    (Run.run Frontend.act s actions).Agrees :=
  Frontend.run_agrees actions (startup_agrees h)

/-- Wherever the program is, an eject that fails changes neither the drives nor a slot. -/
theorem program_eject_kept {bootRom : List Byte} {arguments : List String}
    {answers : StartupAnswers} (h : startup bootRom arguments answers = .ok s)
    (actions : List UiAction) {drive : Fin 2} {saving : WriteAnswers} {r : DiskResult}
    (hs' : s' = Run.run Frontend.act s actions)
    (hr : eject8sd s'.board drive (s'.disks drive) "" saving = r) (hfailed : r.ok = false) :
    (s'.ejectDisk drive saving).board.floppy = s'.board.floppy ∧
      (s'.ejectDisk drive saving).disks = s'.disks := by
  have hagrees : s'.Agrees := by
    rw [hs']
    exact program_agrees h actions
  obtain ⟨-, hfloppy, hmounted⟩ | ⟨hok, -⟩ := eject8sd_agreeing (hagrees drive) hr
  · unfold Frontend.ejectDisk
    dsimp only
    rw [hr, hmounted, Function.update_eq_self]
    exact ⟨hfloppy, rfl⟩
  · exact absurd (hfailed.symm.trans hok) nofun

end FK1
