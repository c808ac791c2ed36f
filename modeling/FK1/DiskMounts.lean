import FK1.CommandLine
import FK1.Machine

/-!
# FK1.DiskMounts

The two places that mount disks: `main` at startup, and the file dialogs of `ui.cpp`.

What the file system, SDL and the TCP link's start answer is an argument. `dialogs` are the contexts
handed to SDL whose callback has not been called yet.
-/

namespace FK1

open Ibm3740SectorImage FloppySubsystem

inductive DiskDialogOperation where
  | openImage
  | createBlank
  deriving DecidableEq, Repr

structure DiskDialogContext where
  drive : Nat := 0
  access : FloppyAccess := .readOnly
  operation : DiskDialogOperation := .openImage
  deriving DecidableEq, Repr

structure DiskDialogResult where
  drive : Nat := 0
  access : FloppyAccess := .readOnly
  operation : DiskDialogOperation := .openImage
  path : Option Path := none
  error : String := ""
  deriving DecidableEq, Repr

/-- The machine, the mounted disks and the part of `UiState` that the disk operations work on. -/
structure Frontend where
  board : Board
  disks : Fin 2 → MountedDisk := fun _ => {}
  paused : Bool := false
  nativeFileDialogOpen : Bool := false
  diskDialogWasRunning : Bool := false
  openWritable : Fin 2 → Bool := fun _ => false
  diskDialogPaths : Fin 2 → String := fun _ => ""
  protectedDiskPaths : List Path := []
  status : String := "Ready"
  dialogs : List DiskDialogContext := []
  fileDialogResults : List DiskDialogResult := []

def driveName (drive : Fin 2) : String := if drive = driveA then "A" else "B"

def otherDrive (drive : Fin 2) : Fin 2 := if drive = driveA then driveB else driveA

/-- The suffix of a path's last component from its last dot on, unless that dot is its first character
or the component is `..`. -/
def extension (path : Path) : List Char :=
  let filename := (path.toList.reverse.takeWhile (· ≠ '/')).reverse
  let suffix := (filename.reverse.takeWhile (· ≠ '.')).reverse
  if filename = ['.', '.'] || suffix.length + 1 ≥ filename.length then [] else '.' :: suffix

/-- The path of a result, completed for a new blank disk. -/
def DiskDialogResult.chosenPath (result : DiskDialogResult) (path : Path) : Path :=
  if result.operation == .createBlank && (extension path).isEmpty then path ++ ".8sd" else path

namespace Frontend

/-! ## Dialogs -/

def finishDiskDialog (s : Frontend) : Frontend :=
  { s with
    paused := if s.diskDialogWasRunning then false else s.paused
    diskDialogWasRunning := false }

def showDiskDialog (s : Frontend) (drive : Fin 2) (access : FloppyAccess)
    (operation : DiskDialogOperation) : Frontend :=
  if s.nativeFileDialogOpen then s
  else
    { s with
      diskDialogWasRunning := !s.paused
      paused := true
      nativeFileDialogOpen := true
      openWritable := Function.update s.openWritable drive (access == .readWrite)
      status := (if operation == .createBlank then "Choose a path for a new blank disk in drive "
        else "Select an image for drive ") ++ driveName drive
      dialogs := s.dialogs ++ [{ drive := drive, access := access, operation := operation }] }

/-- What SDL calls the callback with. -/
inductive DialogChoice where
  | failed (error : String)
  | cancelled
  | chosen (path : Path)
  deriving DecidableEq, Repr

def fileDialogCallback (s : Frontend) (choice : DialogChoice) : Frontend :=
  match s.dialogs with
  | [] => s
  | context :: dialogs =>
    let result : DiskDialogResult :=
      { drive := context.drive, access := context.access, operation := context.operation }
    let result := match choice with
      | .failed error => { result with error := error }
      | .cancelled => result
      | .chosen path => { result with path := some path }
    { s with dialogs := dialogs, fileDialogResults := s.fileDialogResults ++ [result] }

/-- The answers while one result is processed: the identity tests against the protected paths and
against the other drive's path, and those of `createBlank8sd` and `replace8sd`. -/
structure DialogAnswers where
  protectedTest : Path → Option Bool := fun _ => none
  sharedTest : Option Bool := none
  blank : BlankAnswers := {}
  replacing : ReplaceAnswers := {}

def sharedWritableImage (s : Frontend) (drive : Fin 2) (access : FloppyAccess)
    (sharedTest : Option Bool) : Bool :=
  let other := s.disks (otherDrive drive)
  other.path.isSome && sameExistingFile sharedTest
    && (access == .readWrite || other.access == .readWrite)

/-- The replacement of `drive`'s disk by the file a dialog has chosen. -/
def mountChosen (s : Frontend) (drive : Fin 2) (path : Path) (access : FloppyAccess)
    (creatingBlank : Bool) (answers : ReplaceAnswers) : Frontend :=
  let r := replace8sd s.board drive path access (s.disks drive) "" answers
  let s := { s with board := r.board, disks := Function.update s.disks drive r.mounted }
  if r.ok then
    { s with
      diskDialogPaths := Function.update s.diskDialogPaths drive path
      openWritable := Function.update s.openWritable drive (access == .readWrite)
      status := "Drive " ++ driveName drive
        ++ if creatingBlank then ": blank disk created and mounted read-write"
          else if access == .readWrite then ": disk opened read-write" else ": disk opened read-only" }
  else
    { s with
      status := (if creatingBlank then "Blank disk was created but could not be mounted: "
        else "Disk open failed: ") ++ r.error }

def openChosen (s : Frontend) (drive : Fin 2) (path : Path) (access : FloppyAccess)
    (operation : DiskDialogOperation) (answers : DialogAnswers) : Frontend :=
  if s.protectedDiskPaths.any fun path => sameExistingFile (answers.protectedTest path) then
    { s with status := "Disk open failed: file is in use by the ROM or printer" }
  else if s.sharedWritableImage drive access answers.sharedTest then
    { s with status := "Disk open failed: a writable image cannot be shared by both drives" }
  else if operation == .createBlank then
    match (createBlank8sd path answers.blank).1 with
    | .error error => { s with status := "Blank disk creation failed: " ++ error }
    | .ok () => s.mountChosen drive path access true answers.replacing
  else s.mountChosen drive path access false answers.replacing

/-- The choice of one result. -/
def takeResult (s : Frontend) (result : DiskDialogResult) (answers : DialogAnswers) : Frontend :=
  if result.error ≠ "" then { s with status := "File dialog failed: " ++ result.error }
  else match result.path with
    | none => { s with status := "Disk selection cancelled" }
    | some path =>
      if h : result.drive < 2 then
        s.openChosen ⟨result.drive, h⟩ (result.chosenPath path) result.access result.operation answers
      else { s with status := "Disk open failed: invalid drive" }

def processResult (s : Frontend) (result : DiskDialogResult) (answers : DialogAnswers) : Frontend :=
  ({ s with nativeFileDialogOpen := false }.takeResult result answers).finishDiskDialog

/-- The loop over the results; one without answers of its own has the default ones. -/
def processResults (s : Frontend) : List DiskDialogResult → List DialogAnswers → Frontend
  | [], _ => s
  | result :: results, answers =>
    (s.processResult result (answers.headD {})).processResults results answers.tail

def processFileDialogResults (s : Frontend) (answers : List DialogAnswers) : Frontend :=
  { s with fileDialogResults := [] }.processResults s.fileDialogResults answers

def ejectDisk (s : Frontend) (drive : Fin 2) (saving : WriteAnswers) : Frontend :=
  let r := eject8sd s.board drive (s.disks drive) "" saving
  { s with
    board := r.board
    disks := Function.update s.disks drive r.mounted
    status := if r.ok then "Drive " ++ driveName drive ++ ": disk ejected"
      else "Disk eject failed: " ++ r.error }

/-! ## The running program -/

end Frontend

/-- The machine's actions that insert or eject a disk; the program has them in `eject8sd` and
`replace8sd` only. -/
def Action.movesDisk : Action → Bool
  | .host (.insertFloppy ..) | .host (.ejectFloppy ..) => true
  | _ => false

/-- What happens while the window is open: a click, SDL's callback, a frame's look at the results, or
anything the machine does. -/
inductive UiAction where
  | showDiskDialog (drive : Fin 2) (access : FloppyAccess) (operation : DiskDialogOperation)
  | openButton (drive : Fin 2)
  | writableBox (drive : Fin 2) (checked : Bool)
  | fileDialogCallback (choice : Frontend.DialogChoice)
  | processFileDialogResults (answers : List Frontend.DialogAnswers)
  | ejectDisk (drive : Fin 2) (saving : WriteAnswers)
  | resetMachine
  | togglePause
  | machine (action : Action) (keepsDisks : action.movesDisk = false)

namespace Frontend

def act (s : Frontend) : UiAction → Frontend
  | .showDiskDialog drive access operation => s.showDiskDialog drive access operation
  | .openButton drive =>
    s.showDiskDialog drive (if s.openWritable drive then .readWrite else .readOnly) .openImage
  | .writableBox drive checked =>
    { s with openWritable := Function.update s.openWritable drive checked }
  | .fileDialogCallback choice => s.fileDialogCallback choice
  | .processFileDialogResults answers => s.processFileDialogResults answers
  | .ejectDisk drive saving =>
    -- The button is disabled while the slot is empty.
    if (s.disks drive).path.isSome then s.ejectDisk drive saving else s
  | .resetMachine =>
    { s with board := s.board.reset, paused := false, status := "Machine reset" }
  | .togglePause =>
    { s with
      paused := !s.paused
      status := if s.paused then "Emulation running" else "Emulation paused" }
  | .machine action _ => { s with board := s.board.act action }

end Frontend

/-! ## Startup -/

/-- The two disk options. -/
def Options.disks (options : Options) (drive : Fin 2) : MountedDisk :=
  if drive = driveA then options.diskA else options.diskB

structure StartupAnswers where
  printerIsRom : Option Bool := none
  printerIsDiskA : Option Bool := none
  printerIsDiskB : Option Bool := none
  rom : ReadAnswers := {}
  mountA : ReplaceAnswers := {}
  mountB : ReplaceAnswers := {}
  printerOpened : Bool := false
  listener : ListenerAnswer := .listening
  serial : PollAnswers := {}
  /-- SDL and Dear ImGui start. -/
  window : Bool := false
  deriving DecidableEq, Repr

/-- How `main` ends before the window is open; a failure comes with its text. -/
inductive Exit where
  | success
  | failure (error : String)
  deriving DecidableEq, Repr

/-- `read_rom`. -/
def readRomFile (path : Path) (answers : ReadAnswers) : Except String (List Byte) :=
  if !answers.opened then .error ("cannot open ROM file: " ++ path)
  else if answers.size ≤ 0 then .error ("ROM file is empty or unreadable: " ++ path)
  else if !Board.isSupportedRomSize answers.size.toNat then
    .error ("ROM file must contain exactly 2, 4, 8 or 16 KiB: " ++ path)
  else if answers.content.length < answers.size.toNat then .error ("cannot read ROM file: " ++ path)
  else .ok (answers.content.take answers.size.toNat)

def printerConflict (options : Options) (answers : StartupAnswers) : Bool :=
  options.printerPath.isSome
    && (options.romPath.isSome && sameExistingFile answers.printerIsRom
      || options.diskA.path.isSome && sameExistingFile answers.printerIsDiskA
      || options.diskB.path.isSome && sameExistingFile answers.printerIsDiskB)

/-- The ROM image and the Index pulse width. -/
def configure (board : Board) (options : Options) (rom : ReadAnswers) : Except Exit Board := do
  let board ← match options.romPath with
    | none => .ok board
    | some path =>
      match readRomFile path rom with
      | .error error => .error (.failure error)
      | .ok image =>
        let (accepted, board) := board.setRomImage image
        if accepted then .ok board else .error (.failure "invalid ROM image")
  if options.showRomInfo then .error .success
  else
    let (accepted, board) := board.setFloppyIndexPulseWidth (options.indexPulseUs * 12 % 2 ^ 32)
    if accepted then .ok board else .error (.failure "invalid Index pulse width")

/-- The mounts of `main`: drive A, then drive B. -/
def mountDisk (s : Frontend) (drive : Fin 2) (disk : MountedDisk) (answers : ReplaceAnswers) :
    Except Exit Frontend :=
  match disk.path with
  | none => .ok s
  | some path =>
    let r := replace8sd s.board drive path disk.access (s.disks drive) "" answers
    if r.ok then .ok { s with board := r.board, disks := Function.update s.disks drive r.mounted }
    else .error (.failure r.error)

def startPrinter (board : Board) (options : Options) (opened : Bool) : Except Exit Board :=
  match options.printerPath with
  | none => .ok board
  | some path =>
    if opened then .ok (board.setPrinterOnline true)
    else .error (.failure ("cannot open printer output file: " ++ path))

def startSerial (board : Board) (options : Options) (answers : StartupAnswers) : Except Exit Board :=
  match options.serialEndpoint with
  | none => .ok board
  | some endpoint =>
    match ({} : TcpSerialLink).start options.serialMode endpoint answers.listener answers.serial with
    | .error error => .error (.failure error)
    | .ok link => .ok (board.setSerialConnected link.connected)

/-- `UiState` as the window opens. -/
def openWindow (s : Frontend) (options : Options) (board : Board) : Frontend :=
  { s with
    board := board
    protectedDiskPaths := options.romPath.toList ++ options.printerPath.toList
    diskDialogPaths := fun drive => (s.disks drive).path.getD ""
    openWritable := fun drive => (s.disks drive).path.isSome && (s.disks drive).access == .readWrite }

/-- `startup` with the options parsed. -/
def start (bootRom : List Byte) (options : Options) (answers : StartupAnswers) :
    Except Exit Frontend := do
  if options.showHelp then .error .success
  else if printerConflict options answers then
    .error (.failure "printer output must not use a mounted disk or ROM file")
  else
    let board ← configure (Board.power bootRom) options answers.rom
    let s ← mountDisk { board := board } driveA options.diskA answers.mountA
    let s ← mountDisk s driveB options.diskB answers.mountB
    let board ← startPrinter s.board options answers.printerOpened
    let board ← startSerial board options answers
    if answers.window then .ok (openWindow s options board) else .error (.failure "")

/-- `main` up to its loop. -/
def startup (bootRom : List Byte) (arguments : List String) (answers : StartupAnswers) :
    Except Exit Frontend :=
  match parseOptions arguments {} with
  | .error error => .error (.failure error)
  | .ok options => start bootRom options answers

/-! ## Sharing -/

section Sharing

variable {F : Type} (fileOf : Path → F)

/-- Two mounts of one file, one of them read-write. -/
def Conflict (m m' : MountedDisk) : Prop :=
  ∃ path path', m.path = some path ∧ m'.path = some path' ∧ fileOf path = fileOf path' ∧
    (m.access = .readWrite ∨ m'.access = .readWrite)

/-- A writable image is shared by both drives. -/
def Shared (disks : Fin 2 → MountedDisk) : Prop := Conflict fileOf (disks driveA) (disks driveB)

variable {fileOf} {m m' : MountedDisk} {disks : Fin 2 → MountedDisk}

theorem Conflict.symm (h : Conflict fileOf m m') : Conflict fileOf m' m := by
  obtain ⟨path, path', hm, hm', hfile, haccess⟩ := h
  exact ⟨path', path, hm', hm, hfile.symm, haccess.symm⟩

theorem shared_iff (drive : Fin 2) :
    Shared fileOf disks ↔ Conflict fileOf (disks drive) (disks (otherDrive drive)) := by
  match drive with
  | 0 => exact Iff.rfl
  | 1 => exact ⟨Conflict.symm, Conflict.symm⟩

theorem otherDrive_ne (drive : Fin 2) : otherDrive drive ≠ drive := by
  match drive with
  | 0 | 1 => decide

theorem shared_update (drive : Fin 2) :
    Shared fileOf (Function.update disks drive m) ↔ Conflict fileOf m (disks (otherDrive drive)) := by
  rw [shared_iff drive, Function.update_self, Function.update_of_ne (otherDrive_ne drive)]

theorem not_conflict_empty (h : m.path = none) : ¬Conflict fileOf m m' := by
  rintro ⟨path, path', hm, -, -, -⟩
  rw [h] at hm
  cases hm

/-! ## What the identity tests have to say -/

namespace Frontend

variable {s : Frontend}

variable (fileOf) in
/-- The test reports the file that the other drive is mounted from, where that is a conflict. -/
def Identified (s : Frontend) (drive : Fin 2) (path : Path) (access : FloppyAccess)
    (sharedTest : Option Bool) : Prop :=
  Conflict fileOf { path := some path, access := access } (s.disks (otherDrive drive)) →
    sharedTest = some true

variable (fileOf) in
def ResultIdentified (s : Frontend) (result : DiskDialogResult) (answers : DialogAnswers) : Prop :=
  ∀ (drive : Fin 2) path, result.drive = drive → result.path = some path →
    s.Identified fileOf drive (result.chosenPath path) result.access answers.sharedTest

variable (fileOf) in
def ResultsIdentified (s : Frontend) : List DiskDialogResult → List DialogAnswers → Prop
  | [], _ => True
  | result :: results, answers =>
    s.ResultIdentified fileOf result (answers.headD {}) ∧
      (s.processResult result (answers.headD {})).ResultsIdentified results answers.tail

variable (fileOf) in
def ActionIdentified (s : Frontend) : UiAction → Prop
  | .processFileDialogResults answers =>
    { s with fileDialogResults := [] }.ResultsIdentified fileOf s.fileDialogResults answers
  | _ => True

variable (fileOf) in
/-- Each identity test of the run reports the file it has to. -/
def RunIdentified (s : Frontend) : List UiAction → Prop
  | [] => True
  | action :: actions => s.ActionIdentified fileOf action ∧ (s.act action).RunIdentified actions

/-! ## Steps -/

theorem mountChosen_unshared {drive : Fin 2} {path : Path} {access : FloppyAccess}
    {creatingBlank : Bool} {answers : ReplaceAnswers} (hs : ¬Shared fileOf s.disks)
    (hchosen : ¬Conflict fileOf { path := some path, access := access } (s.disks (otherDrive drive))) :
    ¬Shared fileOf (s.mountChosen drive path access creatingBlank answers).disks := by
  have hdisks : (s.mountChosen drive path access creatingBlank answers).disks =
      Function.update s.disks drive
        (replace8sd s.board drive path access (s.disks drive) "" answers).mounted := by
    unfold mountChosen
    dsimp only
    split <;> rfl
  rw [hdisks, shared_update]
  obtain hkept | hempty | ⟨-, hmounted⟩ :=
    @replace8sd_mounted s.board drive (s.disks drive) "" path access answers
  · rw [hkept, ← shared_iff]
    exact hs
  · exact not_conflict_empty hempty
  · rw [hmounted]
    exact hchosen

theorem openChosen_unshared {drive : Fin 2} {path : Path} {access : FloppyAccess}
    {operation : DiskDialogOperation} {answers : DialogAnswers} (hs : ¬Shared fileOf s.disks)
    (htest : s.Identified fileOf drive path access answers.sharedTest) :
    ¬Shared fileOf (s.openChosen drive path access operation answers).disks := by
  unfold openChosen
  split
  · exact hs
  · split
    · exact hs
    · rename_i hwritable
      have hchosen : ¬Conflict fileOf { path := some path, access := access }
          (s.disks (otherDrive drive)) := by
        intro hconflict
        refine hwritable ?_
        have hsame := htest hconflict
        obtain ⟨-, path', -, hpath', -, haccess⟩ := hconflict
        simp only [sharedWritableImage, hsame, hpath', sameExistingFile, Option.isSome_some, BEq.rfl,
          Bool.true_and, Bool.or_eq_true, beq_iff_eq]
        exact haccess
      split
      · split
        · exact hs
        · exact mountChosen_unshared hs hchosen
      · exact mountChosen_unshared hs hchosen

theorem processResult_unshared {result : DiskDialogResult} {answers : DialogAnswers}
    (hs : ¬Shared fileOf s.disks) (htest : s.ResultIdentified fileOf result answers) :
    ¬Shared fileOf (s.processResult result answers).disks := by
  unfold processResult finishDiskDialog takeResult
  dsimp only
  split
  · exact hs
  · split
    · exact hs
    · rename_i path hpath
      split
      · rename_i hdrive
        exact openChosen_unshared hs (htest ⟨result.drive, hdrive⟩ path rfl hpath)
      · exact hs

theorem processResults_unshared {results : List DiskDialogResult} {answers : List DialogAnswers}
    (hs : ¬Shared fileOf s.disks) (htests : s.ResultsIdentified fileOf results answers) :
    ¬Shared fileOf (s.processResults results answers).disks := by
  induction results generalizing s answers with
  | nil => exact hs
  | cons result results ih => exact ih (processResult_unshared hs htests.1) htests.2

theorem ejectDisk_unshared (drive : Fin 2) (saving : WriteAnswers) (hs : ¬Shared fileOf s.disks) :
    ¬Shared fileOf (s.ejectDisk drive saving).disks := by
  unfold ejectDisk
  rw [shared_update]
  obtain hkept | hempty := eject8sd_mounted s.board drive (s.disks drive) "" saving
  · rw [hkept, ← shared_iff]
    exact hs
  · exact not_conflict_empty hempty

theorem showDiskDialog_disks (drive : Fin 2) (access : FloppyAccess)
    (operation : DiskDialogOperation) :
    (s.showDiskDialog drive access operation).disks = s.disks := by
  unfold showDiskDialog
  by_cases h : s.nativeFileDialogOpen = true
  · rw [if_pos h]
  · rw [if_neg h]

theorem fileDialogCallback_disks (choice : DialogChoice) :
    (s.fileDialogCallback choice).disks = s.disks := by
  unfold fileDialogCallback
  split <;> rfl

theorem act_unshared {action : UiAction} (hs : ¬Shared fileOf s.disks)
    (htest : s.ActionIdentified fileOf action) : ¬Shared fileOf (s.act action).disks := by
  cases action with
  | showDiskDialog drive access operation => rwa [act, showDiskDialog_disks]
  | openButton drive => rwa [act, showDiskDialog_disks]
  | fileDialogCallback choice => rwa [act, fileDialogCallback_disks]
  | processFileDialogResults answers => exact processResults_unshared hs htest
  | ejectDisk drive saving =>
    unfold act
    dsimp only
    split
    · exact ejectDisk_unshared drive saving hs
    · exact hs
  | writableBox drive checked | resetMachine | togglePause | machine action keepsDisks => exact hs

theorem run_unshared {actions : List UiAction} (hs : ¬Shared fileOf s.disks)
    (htests : s.RunIdentified fileOf actions) : ¬Shared fileOf (Run.run act s actions).disks := by
  induction actions generalizing s with
  | nil => exact hs
  | cons action actions ih => exact ih (act_unshared hs htests.1) htests.2

end Frontend

/-! ## Startup -/

/-- Two slots that are the same, or both empty. -/
def SameMount (m m' : MountedDisk) : Prop := m = m' ∨ (m.path = none ∧ m'.path = none)

theorem conflict_congr {n n' : MountedDisk} (h : SameMount m n) (h' : SameMount m' n') :
    Conflict fileOf m m' ↔ Conflict fileOf n n' := by
  obtain rfl | ⟨hm, hn⟩ := h
  · obtain rfl | ⟨hm', hn'⟩ := h'
    · exact Iff.rfl
    · exact iff_of_false (fun h => not_conflict_empty hm' h.symm) fun h => not_conflict_empty hn' h.symm
  · exact iff_of_false (not_conflict_empty hm) (not_conflict_empty hn)

/-- Startup fills an empty slot with the disk of its option, and leaves the other slot alone. -/
theorem mountDisk_disks {s s' : Frontend} {drive : Fin 2} {disk : MountedDisk}
    {answers : ReplaceAnswers} (h : mountDisk s drive disk answers = .ok s')
    (hempty : (s.disks drive).path = none) :
    SameMount (s'.disks drive) disk ∧ s'.disks (otherDrive drive) = s.disks (otherDrive drive) := by
  obtain ⟨path, access⟩ := disk
  cases path with
  | none =>
    cases h
    exact ⟨.inr ⟨hempty, rfl⟩, rfl⟩
  | some path =>
    unfold mountDisk at h
    dsimp only at h
    split at h
    · rename_i hok
      cases h
      dsimp only
      rw [Function.update_self, Function.update_of_ne (otherDrive_ne drive), replace8sd_succeeded hok]
      exact ⟨.inl rfl, rfl⟩
    · cases h

theorem start_shared {bootRom : List Byte} {options : Options} {answers : StartupAnswers}
    {s : Frontend} (h : start bootRom options answers = .ok s) :
    Shared fileOf s.disks ↔ Shared fileOf options.disks := by
  unfold start at h
  split at h
  · cases h
  · split at h
    · cases h
    · simp only [bind_eq_ok] at h
      obtain ⟨board, -, s₁, hA, s₂, hB, board₁, -, board₂, -, hs⟩ := h
      obtain ⟨hA, hother⟩ := mountDisk_disks hA rfl
      obtain ⟨hB, hkept⟩ := mountDisk_disks hB (congrArg MountedDisk.path hother)
      have hdisks : s.disks = s₂.disks := by
        split at hs
        · cases hs
          rfl
        · cases hs
      have hA : SameMount (s₂.disks driveA) options.diskA := by
        rw [show s₂.disks driveA = s₁.disks driveA from hkept]
        exact hA
      rw [hdisks]
      exact conflict_congr hA hB

theorem startup_start {bootRom : List Byte} {arguments : List String} {answers : StartupAnswers}
    {options : Options} {s : Frontend} (hoptions : parseOptions arguments {} = .ok options)
    (h : startup bootRom arguments answers = .ok s) : start bootRom options answers = .ok s := by
  unfold startup at h
  rw [hoptions] at h
  exact h

/-- No writable image is shared, unless the disk options do so, or an identity test misses the file of
the other drive. -/
theorem writable_image_never_shared {bootRom : List Byte} {arguments : List String}
    {answers : StartupAnswers} {options : Options} {s : Frontend}
    (hoptions : parseOptions arguments {} = .ok options)
    (hstartup : startup bootRom arguments answers = .ok s) :
    (¬Shared fileOf s.disks ↔ ¬Shared fileOf options.disks) ∧
      (¬Shared fileOf options.disks → ∀ actions, s.RunIdentified fileOf actions →
        ¬Shared fileOf (Run.run Frontend.act s actions).disks) := by
  have hshared : ¬Shared fileOf s.disks ↔ ¬Shared fileOf options.disks :=
    not_congr (start_shared (startup_start hoptions hstartup))
  refine ⟨hshared, fun hunshared actions htests => ?_⟩
  exact Frontend.run_unshared (hshared.mpr hunshared) htests

end Sharing

/-- A file that is read as a whole blank image. -/
def blankFile : ReadAnswers :=
  { opened := true, size := imageSize, content := List.replicate imageSize 0xE5#8 }

theorem blankFile_readable : blankFile.readable = true := by
  simp only [blankFile, ReadAnswers.readable, List.length_replicate, BEq.rfl, Bool.true_and,
    decide_eq_true_eq, Nat.le_refl]

/-- A dialog mounts the first disk. -/
theorem first_dialog_never_shared :
    ∃ s, startup [] [] { window := true } = .ok s ∧
      ¬Shared id (Run.run Frontend.act s
        [.showDiskDialog driveA .readWrite .openImage, .fileDialogCallback (.chosen "work.8sd"),
          .processFileDialogResults [{ replacing := { reading := blankFile } }]]).disks := by
  have hnever := @writable_image_never_shared Path id [] [] { window := true } {} _ rfl rfl
  refine ⟨_, rfl, hnever.2 ?_ _ ?_⟩
  · exact not_conflict_empty rfl
  · refine ⟨trivial, trivial, ⟨fun drive path hdrive _ hconflict => ?_, trivial⟩, trivial⟩
    cases @Fin.ext 2 driveA drive hdrive
    exact absurd hconflict.symm (not_conflict_empty rfl)

/-- A machine with the built-in ROM takes any Index pulse width that the options can hold. -/
theorem configure_ok {board : Board} {options : Options} {rom : ReadAnswers}
    (hrom : options.romPath = none) (hinfo : options.showRomInfo = false)
    (hwidth : options.IndexFits) :
    ∃ board', configure board options rom = .ok board' := by
  have hmod : options.indexPulseUs * 12 % 2 ^ 32 = options.indexPulseUs * 12 :=
    Nat.mod_eq_of_lt (Nat.lt_trans hwidth (by decide))
  have haccepted : (board.setFloppyIndexPulseWidth (options.indexPulseUs * 12)).1 = true := by
    simp only [Board.setFloppyIndexPulseWidth, FloppySubsystem.setIndexPulseWidth,
      if_neg (Nat.not_le.mpr hwidth)]
  refine ⟨(board.setFloppyIndexPulseWidth (options.indexPulseUs * 12)).2, ?_⟩
  unfold configure
  rw [hrom, hinfo, hmod]
  exact bind_eq_ok.mpr ⟨board, rfl, if_pos haccepted⟩

theorem mountDisk_ok {s : Frontend} {drive : Fin 2} {disk : MountedDisk} {answers : ReplaceAnswers}
    (hempty : (s.disks drive).path = none) (hreadable : answers.reading.readable = true) :
    ∃ s', mountDisk s drive disk answers = .ok s' := by
  obtain ⟨path, access⟩ := disk
  cases path with
  | none => exact ⟨s, rfl⟩
  | some path =>
    have hejected : (ejectMounted s.board drive (s.disks drive) "" answers.saving).ok = true := by
      simp only [ejectMounted, hempty, Option.isSome_none, Bool.false_eq_true, if_false]
    have hok : (replace8sd s.board drive path access (s.disks drive) "" answers).ok = true := by
      obtain ⟨-, hunread, -⟩ | ⟨-, hfailed, -⟩ | ⟨-, hunread, -⟩ | ⟨-, -, hok, -⟩ :=
        replace8sd_cases s.board drive (s.disks drive) "" path access answers
      · exact Bool.noConfusion (hunread.symm.trans hreadable)
      · exact Bool.noConfusion (hfailed.symm.trans hejected)
      · exact Bool.noConfusion (hunread.symm.trans hreadable)
      · exact hok
    unfold mountDisk
    dsimp only
    rw [if_pos hok]
    exact ⟨_, rfl⟩

/-- Both disk options name one file, and drive A may write it. -/
theorem disk_options_share_image :
    ∃ s, startup [] ["--disk-a-rw", "work.8sd", "--disk-b", "work.8sd"]
        { mountA := { reading := blankFile }, mountB := { reading := blankFile }, window := true }
          = .ok s ∧
      Shared id s.disks := by
  let options : Options :=
    { diskA := { path := some "work.8sd", access := .readWrite }
      diskB := { path := some "work.8sd", access := .readOnly } }
  let answers : StartupAnswers :=
    { mountA := { reading := blankFile }, mountB := { reading := blankFile }, window := true }
  have hoptions : parseOptions ["--disk-a-rw", "work.8sd", "--disk-b", "work.8sd"] {} = .ok options :=
    rfl
  have hfits := parseOptions_fits default_fits hoptions
  obtain ⟨board, hboard⟩ := @configure_ok (Board.power []) options answers.rom rfl rfl hfits
  obtain ⟨s₁, hA⟩ :=
    @mountDisk_ok { board := board } driveA options.diskA answers.mountA rfl blankFile_readable
  have hempty : (s₁.disks driveB).path = none := congrArg MountedDisk.path (mountDisk_disks hA rfl).2
  obtain ⟨s₂, hB⟩ := @mountDisk_ok s₁ driveB options.diskB answers.mountB hempty blankFile_readable
  have hstart : start [] options answers = .ok (openWindow s₂ options s₂.board) := by
    unfold start
    rw [if_neg (by decide), if_neg (by decide)]
    simp only [bind_eq_ok]
    exact ⟨board, hboard, s₁, hA, s₂, hB, s₂.board, rfl, s₂.board, rfl, rfl⟩
  refine ⟨_, ?_, (start_shared hstart).mpr ⟨"work.8sd", "work.8sd", rfl, rfl, rfl, .inl rfl⟩⟩
  unfold startup
  rw [hoptions]
  exact hstart

end FK1
