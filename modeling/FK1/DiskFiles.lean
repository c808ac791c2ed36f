import FK1.Board
import FK1.SectorRoundTrip

/-!
# FK1.DiskFiles

The `.8sd` files of `disk_files.cpp`: mounting an image, ejecting it with a save, and replacing one.
What the file system answers is an argument of each function, and what is done to the files is in
`events`.
-/

namespace FK1

open Ibm3740SectorImage

abbrev Path := String

structure MountedDisk where
  path : Option Path := none
  access : FloppyAccess := .readOnly
  deriving DecidableEq, Repr

/-! ## What the file system answers -/

/-- An `ifstream` on an image: whether it opens, `tellg` at its end, and the bytes `read` delivers,
fewer than asked for when it fails. -/
structure ReadAnswers where
  opened : Bool := false
  size : Int := 0
  content : List Byte := []
  deriving DecidableEq, Repr

/-- The file is a whole image and is read to its end. -/
def ReadAnswers.readable (answers : ReadAnswers) : Bool :=
  answers.opened && answers.size == imageSize && decide (imageSize ≤ answers.content.length)

/-- A stream an image is written to: whether it opens, and where it fails how many bytes have reached
the file by then. -/
structure WriteAnswers where
  opened : Bool := false
  failed : Option Nat := none
  deriving DecidableEq, Repr

def WriteAnswers.succeeds (answers : WriteAnswers) : Bool := answers.opened && answers.failed.isNone

/-- `equivalent`, or nothing when it reports an error. -/
def sameExistingFile (equivalent : Option Bool) : Bool := equivalent == some true

inductive FileEvent where
  | openForWriting (path : Path)
  | write (path : Path) (bytes : List Byte)
  | remove (path : Path)
  deriving DecidableEq, Repr

/-- What an image that is written leaves in a file: from its beginning the bytes that reach it. -/
def WriteAnswers.events (answers : WriteAnswers) (path : Path) (image : List Byte) : List FileEvent :=
  .openForWriting path ::
    if answers.opened then
      [.write path (match answers.failed with
        | none => image
        | some written => image.take written)]
    else []

/-- The content of the file at `path` after `events`: each write begins at its first byte. -/
def contentAfter (path : Path) (content : List Byte) : List FileEvent → List Byte
  | [] => content
  | .write path' bytes :: events =>
    contentAfter path
      (if path' = path then bytes ++ content.drop bytes.length else content) events
  | _ :: events => contentAfter path content events

/-! ## Reading and creating -/

def read8sd (path : Path) (answers : ReadAnswers) : Except String FloppyDiskImage :=
  if !answers.opened then .error ("cannot open disk image: " ++ path)
  else if answers.size ≠ imageSize then
    .error ("disk image must contain exactly 77 x 26 x 128 bytes: " ++ path)
  else if answers.content.length < imageSize then .error ("cannot read disk image: " ++ path)
  else match importImage (answers.content.take imageSize) defaultSectorSkew with
    | none => .error ("cannot construct IBM 3740 FM tracks from: " ++ path)
    | some disk => .ok disk

/-- `exists` is nothing when the file system reports an error. -/
structure BlankAnswers where
  exist : Option Bool := none
  writing : WriteAnswers := {}
  deriving DecidableEq, Repr

def createBlank8sd (path : Path) (answers : BlankAnswers) : Except String Unit × List FileEvent :=
  match answers.exist with
  | some true => (.error ("disk image already exists: " ++ path), [])
  | none => (.error ("cannot inspect disk image path: " ++ path), [])
  | some false =>
    let events := answers.writing.events path (List.replicate imageSize 0xE5#8)
    if !answers.writing.succeeds then
      (.error ("cannot create blank disk image: " ++ path), events ++ [.remove path])
    else (.ok (), events)

/-! ## Ejecting and replacing -/

/-- The machine, the slot and the error text after an operation. -/
structure DiskResult where
  ok : Bool
  board : Board
  mounted : MountedDisk
  error : String
  events : List FileEvent := []

def restoreAfterFailedEject (board : Board) (drive : Nat) (disk : FloppyDiskImage)
    (access : FloppyAccess) (error : String) : Board × String :=
  let (inserted, board) := board.insertFloppy drive disk access
  (board, if !inserted then error ++ "; the disk could not be restored in the drive" else error)

/-- A disk that could not be saved goes back into the drive. -/
def failEject (board : Board) (drive : Nat) (disk : FloppyDiskImage) (mounted : MountedDisk)
    (error : String) (events : List FileEvent) : DiskResult :=
  let (board, error) := restoreAfterFailedEject board drive disk mounted.access error
  { ok := false, board := board, mounted := mounted, error := error, events := events }

def eject8sd (board : Board) (drive : Nat) (mounted : MountedDisk) (error : String)
    (saving : WriteAnswers) : DiskResult :=
  match board.ejectFloppy drive with
  | (none, board) =>
    { ok := true, board := board, mounted := { mounted with path := none }, error := error }
  | (some disk, board) =>
    match mounted.path, mounted.access with
    | some path, .readWrite =>
      match exportImage disk with
      | none =>
        failEject board drive disk mounted
          ("cannot convert the low-level disk back to complete .8sd sectors: " ++ path) []
      | some raw =>
        if !saving.succeeds then
          failEject board drive disk mounted ("cannot save writable disk image: " ++ path)
            (saving.events path raw)
        else
          { ok := true, board := board, mounted := { mounted with path := none }, error := error
            events := saving.events path raw }
    | _, _ =>
      { ok := true, board := board, mounted := { mounted with path := none }, error := error }

/-- The answers during a `replace_8sd`; the image is read once, before or after the eject. -/
structure ReplaceAnswers where
  equivalent : Option Bool := none
  reading : ReadAnswers := {}
  saving : WriteAnswers := {}
  deriving DecidableEq, Repr

/-- The end of `replace_8sd`, with the image read and the drive empty. -/
def insert8sd (ejected : DiskResult) (drive : Nat) (path : Path) (access : FloppyAccess)
    (disk : FloppyDiskImage) : DiskResult :=
  let (inserted, board) := ejected.board.insertFloppy drive disk access
  if !inserted then
    { ejected with
      ok := false
      board := board
      error := "cannot insert disk image into drive " ++ toString drive }
  else { ejected with ok := true, board := board, mounted := { path := some path, access := access } }

def reopeningSameFile (mounted : MountedDisk) (equivalent : Option Bool) : Bool :=
  mounted.path.isSome && sameExistingFile equivalent

/-- The eject of `replace_8sd`, of a slot that is in use. -/
def ejectMounted (board : Board) (drive : Nat) (mounted : MountedDisk) (error : String)
    (saving : WriteAnswers) : DiskResult :=
  if mounted.path.isSome then eject8sd board drive mounted error saving
  else { ok := true, board := board, mounted := mounted, error := error }

def replace8sd (board : Board) (drive : Nat) (path : Path) (access : FloppyAccess)
    (mounted : MountedDisk) (error : String) (answers : ReplaceAnswers) : DiskResult :=
  if !reopeningSameFile mounted answers.equivalent then
    match read8sd path answers.reading with
    | .error error => { ok := false, board := board, mounted := mounted, error := error }
    | .ok disk =>
      let ejected := ejectMounted board drive mounted error answers.saving
      if !ejected.ok then ejected else insert8sd ejected drive path access disk
  else
    -- The same file is saved first, and read as it has been saved.
    let ejected := ejectMounted board drive mounted error answers.saving
    if !ejected.ok then ejected
    else match read8sd path answers.reading with
      | .error error => { ejected with ok := false, error := error }
      | .ok disk => insert8sd ejected drive path access disk

/-! ## The drive -/

namespace Board

variable (b : Board) (drive : Fin 2) (disk : FloppyDiskImage) (access : FloppyAccess)

theorem ejectFloppy_image : (b.ejectFloppy drive).1 = (b.floppy.drives drive).image := by
  unfold ejectFloppy FloppySubsystem.eject
  rw [dif_pos drive.isLt]
  rfl

theorem ejectFloppy_floppy :
    (b.ejectFloppy drive).2.floppy = b.floppy.modify drive fun d => d.eject.2 := by
  unfold ejectFloppy FloppySubsystem.eject
  rw [dif_pos drive.isLt]
  rfl

theorem ejectFloppy_empties : ((b.ejectFloppy drive).2.floppy.drives drive).image = none := by
  rw [ejectFloppy_floppy]
  simp [FloppySubsystem.modify, FloppyDrive.eject]

theorem insertFloppy_inserted : (b.insertFloppy drive disk access).1 = true := by
  unfold insertFloppy FloppySubsystem.insert
  rw [dif_pos drive.isLt]

theorem insertFloppy_floppy :
    (b.insertFloppy drive disk access).2.floppy = b.floppy.modify drive (·.insert disk access) := by
  unfold insertFloppy FloppySubsystem.insert
  rw [dif_pos drive.isLt]
  rfl

variable {b drive disk access}

theorem ejectFloppy_holding {image : Option FloppyDiskImage}
    (hdisk : (b.floppy.drives drive).image = image) :
    b.ejectFloppy drive = (image, (b.ejectFloppy drive).2) := by
  rw [← hdisk, ← b.ejectFloppy_image drive]

/-- A disk that goes back into its drive with the access it had leaves all drives as they were. -/
theorem restore_floppy (hdisk : (b.floppy.drives drive).image = some disk)
    (haccess : (b.floppy.drives drive).access = access) :
    (((b.ejectFloppy drive).2).insertFloppy drive disk access).2.floppy = b.floppy := by
  rw [insertFloppy_floppy, ejectFloppy_floppy]
  have hdrive : ((b.floppy.drives drive).eject.2).insert disk access = b.floppy.drives drive := by
    unfold FloppyDrive.insert FloppyDrive.eject
    rw [← hdisk, ← haccess]
  have hdrives : ((b.floppy.modify drive fun d => d.eject.2).modify drive
      (·.insert disk access)).drives = b.floppy.drives := by
    funext i
    by_cases hi : i = drive
    · subst hi
      simpa [FloppySubsystem.modify] using hdrive
    · simp [FloppySubsystem.modify, hi]
  exact congrArg (fun drives => { b.floppy with drives := drives }) hdrives

end Board

/-! ## Ejecting -/

variable {b : Board} {drive : Fin 2} {disk : FloppyDiskImage} {mounted : MountedDisk} {error : String}
  {saving : WriteAnswers}

theorem failEject_kept (hdisk : (b.floppy.drives drive).image = some disk)
    (haccess : (b.floppy.drives drive).access = mounted.access) (events : List FileEvent) :
    (failEject (b.ejectFloppy drive).2 drive disk mounted error events).board.floppy = b.floppy :=
  Board.restore_floppy hdisk haccess

/-- The slot's disk is written to its file when it is ejected. -/
def MountedDisk.saves (mounted : MountedDisk) : Bool :=
  mounted.path.isSome && mounted.access == .readWrite

/-- The eject of a disk succeeds unless it has to be saved and cannot be. -/
def ejects (disk : FloppyDiskImage) (mounted : MountedDisk) (saving : WriteAnswers) : Bool :=
  !mounted.saves || ((exportImage disk).isSome && saving.succeeds)

variable (error saving) in
/-- What an eject does, by whether it succeeds. -/
theorem eject8sd_cases (hdisk : (b.floppy.drives drive).image = some disk)
    (haccess : (b.floppy.drives drive).access = mounted.access) :
    (ejects disk mounted saving = false
        ∧ (eject8sd b drive mounted error saving).ok = false
        ∧ (eject8sd b drive mounted error saving).board.floppy = b.floppy
        ∧ (eject8sd b drive mounted error saving).mounted = mounted) ∨
      (ejects disk mounted saving = true
        ∧ (eject8sd b drive mounted error saving).ok = true
        ∧ (eject8sd b drive mounted error saving).board = (b.ejectFloppy drive).2
        ∧ (eject8sd b drive mounted error saving).mounted = { mounted with path := none }) := by
  unfold eject8sd
  rw [Board.ejectFloppy_holding hdisk]
  dsimp only
  obtain ⟨path, access⟩ := mounted
  cases path with
  | none => exact .inr ⟨rfl, rfl, rfl, rfl⟩
  | some path =>
    cases access with
    | readOnly => exact .inr ⟨rfl, rfl, rfl, rfl⟩
    | readWrite =>
      cases hexport : exportImage disk with
      | none =>
        refine .inl ⟨by simp [ejects, MountedDisk.saves, hexport], rfl, ?_, rfl⟩
        exact failEject_kept hdisk haccess _
      | some raw =>
        dsimp only
        cases hsaved : saving.succeeds with
        | false =>
          refine .inl ⟨by simp [ejects, MountedDisk.saves, hsaved], rfl, ?_, rfl⟩
          exact failEject_kept hdisk haccess _
        | true => exact .inr ⟨by simp [ejects, hexport, hsaved], rfl, rfl, rfl⟩

/-- An eject leaves its slot alone or clears its path. -/
theorem eject8sd_mounted (b : Board) (drive : Nat) (mounted : MountedDisk) (error : String)
    (saving : WriteAnswers) :
    (eject8sd b drive mounted error saving).mounted = mounted ∨
      (eject8sd b drive mounted error saving).mounted.path = none := by
  unfold eject8sd
  split
  · exact .inr rfl
  · split
    · split
      · exact .inl rfl
      · split
        · exact .inl rfl
        · exact .inr rfl
    · exact .inr rfl

theorem exportImage_length {raw : List Byte} (h : exportImage disk = some raw) :
    raw.length = imageSize := by
  unfold exportImage at h
  obtain ⟨out, -, hout⟩ := Option.bind_eq_some_iff.mp h
  obtain ⟨-, hraw⟩ := Option.ite_none_right_eq_some.mp hout
  rw [← Option.some.inj hraw, List.length_map, List.length_range]

/-- A write of a whole image leaves it at the beginning of the file. -/
theorem contentAfter_events {path : Path} {raw content : List Byte} (hsaved : saving.succeeds = true)
    (hlength : raw.length = imageSize) :
    (contentAfter path content (saving.events path raw)).take imageSize = raw := by
  obtain ⟨opened, failed⟩ := saving
  cases failed with
  | some written => simp [WriteAnswers.succeeds] at hsaved
  | none =>
    have hopened : opened = true := by simpa [WriteAnswers.succeeds] using hsaved
    subst hopened
    simp only [WriteAnswers.events, contentAfter, if_true]
    rw [← hlength, List.take_left]

/-- A drive without a disk has nothing to save. -/
theorem eject8sd_empty (hempty : (b.floppy.drives drive).image = none) :
    eject8sd b drive mounted error saving =
      { ok := true, board := (b.ejectFloppy drive).2, mounted := { mounted with path := none }
        error := error } := by
  unfold eject8sd
  rw [Board.ejectFloppy_holding hempty]

theorem eject8sd_unsaved (hdisk : (b.floppy.drives drive).image = some disk)
    (hsaves : mounted.saves = false ∨ exportImage disk = none) :
    (eject8sd b drive mounted error saving).events = [] := by
  unfold eject8sd
  rw [Board.ejectFloppy_holding hdisk]
  dsimp only
  obtain ⟨path, access⟩ := mounted
  cases path with
  | none => rfl
  | some path =>
    cases access with
    | readOnly => rfl
    | readWrite =>
      rw [hsaves.resolve_left nofun]
      rfl

theorem eject8sd_saved {path : Path} {raw : List Byte}
    (hdisk : (b.floppy.drives drive).image = some disk) (hpath : mounted.path = some path)
    (hwritable : mounted.access = .readWrite) (hexport : exportImage disk = some raw) :
    (eject8sd b drive mounted error saving).events = saving.events path raw := by
  unfold eject8sd
  rw [Board.ejectFloppy_holding hdisk]
  dsimp only
  rw [hpath, hwritable, hexport]
  dsimp only
  cases saving.succeeds <;> rfl

theorem openForWriting_events {path path' : Path} {raw : List Byte}
    (h : .openForWriting path ∈ saving.events path' raw) : path = path' := by
  obtain ⟨opened, failed⟩ := saving
  cases opened <;> simpa [WriteAnswers.events] using h

theorem importImage_default {raw : List Byte} (hsize : raw.length = imageSize) :
    ∃ disk, importImage raw defaultSectorSkew = some disk := by
  have hmap : (FK1.Ibm3740SectorImage.sectorMap defaultSectorSkew).isSome = true := by decide
  obtain ⟨map, hmap⟩ := Option.isSome_iff_exists.mp hmap
  obtain ⟨disk, hdisk, -⟩ := import_formatted hsize hmap
  exact ⟨disk, hdisk⟩

/-- An eject that fails changes neither drives nor slot; one that succeeds empties the drive and the
slot, with the disk's image in the file if the slot is writable; the file is opened for nothing less. -/
theorem eject8sd_all_or_nothing {r : DiskResult}
    (haccess : ∀ disk, (b.floppy.drives drive).image = some disk →
      (b.floppy.drives drive).access = mounted.access)
    (hr : eject8sd b drive mounted error saving = r) :
    (r.ok = false → r.board.floppy = b.floppy ∧ r.mounted = mounted) ∧
      (r.ok = true → (r.board.floppy.drives drive).image = none ∧ r.mounted.path = none ∧
        ∀ disk path, (b.floppy.drives drive).image = some disk → mounted.path = some path →
          mounted.access = .readWrite → ∃ raw, exportImage disk = some raw ∧ raw.length = imageSize ∧
            ∀ content, (contentAfter path content r.events).take imageSize = raw) ∧
      (∀ path, .openForWriting path ∈ r.events → mounted.path = some path ∧
        ∃ disk raw, (b.floppy.drives drive).image = some disk ∧ exportImage disk = some raw) ∧
      ∀ disk, (b.floppy.drives drive).image = some disk → exportImage disk = none →
        ∀ path content, contentAfter path content r.events = content := by
  subst hr
  have hempties := b.ejectFloppy_empties drive
  cases hdisk : (b.floppy.drives drive).image with
  | none =>
    rw [eject8sd_empty hdisk]
    refine ⟨nofun, fun _ => ⟨hempties, rfl, nofun⟩, nofun, nofun⟩
  | some disk =>
    refine ⟨fun hfailed => ?_, fun hok => ?_, fun path hopened => ?_, fun disk' hdisk' hexport => ?_⟩
    · obtain ⟨-, -, hfloppy, hmounted⟩ | ⟨-, hok, -, -⟩ :=
        eject8sd_cases error saving hdisk (haccess disk hdisk)
      · exact ⟨hfloppy, hmounted⟩
      · exact absurd (hfailed.symm.trans hok) nofun
    · obtain ⟨-, hfailed, -, -⟩ | ⟨hejects, -, hboard, hmounted⟩ :=
        eject8sd_cases error saving hdisk (haccess disk hdisk)
      · exact absurd (hfailed.symm.trans hok) nofun
      · refine ⟨by rw [hboard, hempties], by rw [hmounted], fun disk' path hdisk' hpath hwritable => ?_⟩
        cases hdisk'
        have hsaves : mounted.saves = true := by simp [MountedDisk.saves, hpath, hwritable]
        rw [ejects, hsaves, Bool.not_true, Bool.false_or, Bool.and_eq_true] at hejects
        obtain ⟨raw, hexport⟩ := Option.isSome_iff_exists.mp hejects.1
        have hlength := exportImage_length hexport
        refine ⟨raw, hexport, hlength, fun content => ?_⟩
        rw [eject8sd_saved hdisk hpath hwritable hexport]
        exact contentAfter_events hejects.2 hlength
    · by_cases hsaves : mounted.saves = false ∨ exportImage disk = none
      · rw [eject8sd_unsaved hdisk hsaves] at hopened
        cases hopened
      · rw [not_or, Bool.not_eq_false] at hsaves
        obtain ⟨hsaves, hexport⟩ := hsaves
        obtain ⟨raw, hexport⟩ := Option.ne_none_iff_exists'.mp hexport
        obtain ⟨hpath, hwritable⟩ := Bool.and_eq_true_iff.mp hsaves
        obtain ⟨path', hpath⟩ := Option.isSome_iff_exists.mp hpath
        rw [eject8sd_saved hdisk hpath (eq_of_beq hwritable) hexport] at hopened
        exact ⟨by rw [hpath, openForWriting_events hopened], disk, raw, rfl, hexport⟩
    · cases hdisk'
      intro path content
      rw [eject8sd_unsaved hdisk (.inr hexport)]
      rfl

/-- An unformatted disk cannot be saved: it stays in its drive and its file as it is. A blank one is saved
and leaves the drive. -/
theorem eject8sd_kept_or_saved :
    let mounted : MountedDisk := { path := some "a.8sd", access := .readWrite }
    let blank := List.replicate imageSize 0xE5#8
    (let b := (({} : Board).insertFloppy 0 {} .readWrite).2
      let r := eject8sd b 0 mounted "" { opened := true }
      r.board.floppy = b.floppy ∧ r.mounted = mounted ∧
        ∀ path content, contentAfter path content r.events = content) ∧
      ∃ disk, importImage blank defaultSectorSkew = some disk ∧
        let b := (({} : Board).insertFloppy 0 disk .readWrite).2
        let r := eject8sd b 0 mounted "" { opened := true }
        (r.board.floppy.drives 0).image = none ∧ r.mounted.path = none ∧
          ∀ content, (contentAfter "a.8sd" content r.events).take imageSize = blank := by
  intro mounted blank
  refine ⟨?_, ?_⟩
  · intro b r
    have hall := @eject8sd_all_or_nothing b 0 mounted "" { opened := true } r (fun _ _ => rfl) rfl
    have hfailed : r.ok = false := by decide +kernel
    have hexport : exportImage {} = none := by decide +kernel
    obtain ⟨hfloppy, hmounted⟩ := hall.1 hfailed
    exact ⟨hfloppy, hmounted, hall.2.2.2 {} rfl hexport⟩
  · have hsize : blank.length = imageSize := List.length_replicate
    obtain ⟨disk, hdisk⟩ := importImage_default hsize
    obtain ⟨map, hmap, hformatted⟩ := imported_formatted hdisk
    refine ⟨disk, hdisk, ?_⟩
    intro b r
    have hall := @eject8sd_all_or_nothing b 0 mounted "" { opened := true } r (fun _ _ => rfl) rfl
    have hejects : ejects disk mounted { opened := true } = true := by
      simp [ejects, mounted, export_formatted hformatted, WriteAnswers.succeeds]
    have hok : r.ok = true := by
      obtain ⟨hkept, -⟩ | ⟨-, hok, -⟩ :=
        @eject8sd_cases b 0 disk mounted "" { opened := true } rfl rfl
      · rw [hejects] at hkept
        cases hkept
      · exact hok
    obtain ⟨hempty, hpath, hsaved⟩ := hall.2.1 hok
    refine ⟨hempty, hpath, fun content => ?_⟩
    obtain ⟨raw, hexport, -, hcontent⟩ := hsaved disk "a.8sd" rfl rfl rfl
    rw [export_formatted hformatted] at hexport
    cases hexport
    exact hcontent content

/-! ## Replacing -/

theorem read8sd_readable (path : Path) {answers : ReadAnswers} (h : answers.readable = true) :
    ∃ disk, read8sd path answers = .ok disk := by
  obtain ⟨opened, size, content⟩ := answers
  simp only [ReadAnswers.readable, Bool.and_eq_true, beq_iff_eq, decide_eq_true_eq] at h
  obtain ⟨⟨rfl, rfl⟩, hcontent⟩ := h
  obtain ⟨disk, hdisk⟩ := importImage_default (List.length_take_of_le hcontent)
  refine ⟨disk, ?_⟩
  simp only [read8sd, Bool.not_true, Bool.false_eq_true, if_false, ne_eq, not_true_eq_false,
    Nat.not_lt.mpr hcontent, hdisk]

theorem read8sd_unreadable (path : Path) {answers : ReadAnswers} (h : answers.readable = false) :
    ∃ error, read8sd path answers = .error error := by
  obtain ⟨opened, size, content⟩ := answers
  simp only [ReadAnswers.readable, Bool.and_eq_false_iff, beq_eq_false_iff_ne,
    decide_eq_false_iff_not] at h
  cases opened with
  | false => exact ⟨_, rfl⟩
  | true =>
    simp only [read8sd, Bool.not_true, Bool.false_eq_true, if_false]
    by_cases hsize : size ≠ imageSize
    · exact ⟨_, if_pos hsize⟩
    · have hcontent := h.resolve_left (not_or.mpr ⟨nofun, hsize⟩)
      rw [if_neg hsize]
      exact ⟨_, if_pos (Nat.not_le.mp hcontent)⟩

theorem insert8sd_eq (ejected : DiskResult) (path : Path) (access : FloppyAccess) :
    insert8sd ejected drive path access disk =
      { ejected with
        ok := true
        board := (ejected.board.insertFloppy drive disk access).2
        mounted := { path := some path, access := access } } := by
  unfold insert8sd
  rw [show ejected.board.insertFloppy drive disk access
      = (true, (ejected.board.insertFloppy drive disk access).2) from
    Prod.ext (Board.insertFloppy_inserted _ _ _ _) rfl]
  rfl

variable (b drive mounted error) in
/-- A replacement stops at an image it cannot read, at an eject that fails, or at a file that it cannot
read back; otherwise the slot is the new one. -/
theorem replace8sd_cases (path : Path) (access : FloppyAccess) (answers : ReplaceAnswers) :
    let ejected := ejectMounted b drive mounted error answers.saving
    let r := replace8sd b drive path access mounted error answers
    let reopening := reopeningSameFile mounted answers.equivalent
    (reopening = false ∧ answers.reading.readable = false ∧
        r.ok = false ∧ r.board = b ∧ r.mounted = mounted) ∨
      ((reopening = true ∨ answers.reading.readable = true) ∧ ejected.ok = false ∧ r = ejected) ∨
      (reopening = true ∧ answers.reading.readable = false ∧ ejected.ok = true ∧
        r.ok = false ∧ r.board = ejected.board ∧ r.mounted = ejected.mounted) ∨
      (answers.reading.readable = true ∧ ejected.ok = true ∧ r.ok = true ∧
        (∃ disk, r.board = (ejected.board.insertFloppy drive disk access).2) ∧
        r.mounted = { path := some path, access := access }) := by
  intro ejected r reopening
  cases hreadable : answers.reading.readable with
  | false =>
    obtain ⟨readError, hread⟩ := read8sd_unreadable path hreadable
    cases hreopening : reopening with
    | false =>
      have hr : r = { ok := false, board := b, mounted := mounted, error := readError } := by
        simp only [r, replace8sd, hread, Bool.not_false, if_true,
          show reopeningSameFile mounted answers.equivalent = false from hreopening]
      exact .inl ⟨rfl, rfl, by rw [hr], by rw [hr], by rw [hr]⟩
    | true =>
      have hr : r = if !ejected.ok then ejected
          else { ejected with ok := false, error := readError } := by
        simp only [r, replace8sd, hread, Bool.not_true, Bool.false_eq_true, if_false, ejected,
          show reopeningSameFile mounted answers.equivalent = true from hreopening]
      cases hok : ejected.ok with
      | false => exact .inr (.inl ⟨.inl rfl, rfl, by simp [hr, hok]⟩)
      | true =>
        have hr : r = { ejected with ok := false, error := readError } := by simp [hr, hok]
        exact .inr (.inr (.inl ⟨rfl, rfl, rfl, by rw [hr], by rw [hr], by rw [hr]⟩))
  | true =>
    obtain ⟨disk, hread⟩ := read8sd_readable path hreadable
    have hr : r = if !ejected.ok then ejected else insert8sd ejected drive path access disk := by
      cases hreopening : reopeningSameFile mounted answers.equivalent <;>
        simp only [r, replace8sd, hreopening, hread, Bool.not_true, Bool.not_false, Bool.false_eq_true,
          if_false, if_true, ejected]
    cases hok : ejected.ok with
    | false => exact .inr (.inl ⟨.inr rfl, rfl, by simp [hr, hok]⟩)
    | true =>
      have hr : r = insert8sd ejected drive path access disk := by simp [hr, hok]
      rw [insert8sd_eq] at hr
      exact .inr (.inr (.inr ⟨rfl, rfl, by rw [hr], ⟨disk, by rw [hr]⟩, by rw [hr]⟩))

/-- A replacement leaves its slot alone, clears its path, or succeeds and makes the slot the new one. -/
theorem replace8sd_mounted (path : Path) (access : FloppyAccess) (answers : ReplaceAnswers) :
    let r := replace8sd b drive path access mounted error answers
    r.mounted = mounted ∨ r.mounted.path = none ∨
      (r.ok = true ∧ r.mounted = { path := some path, access := access }) := by
  intro r
  have hejected : (ejectMounted b drive mounted error answers.saving).mounted = mounted ∨
      (ejectMounted b drive mounted error answers.saving).mounted.path = none := by
    unfold ejectMounted
    split
    · exact eject8sd_mounted ..
    · exact .inl rfl
  obtain ⟨-, -, -, -, hmounted⟩ | ⟨-, -, hr⟩ | ⟨-, -, -, -, -, hmounted⟩ |
    ⟨-, -, hok, -, hmounted⟩ := replace8sd_cases b drive mounted error path access answers
  · exact .inl hmounted
  · rw [show r = _ from hr]
    exact hejected.imp_right .inl
  · rw [show r.mounted = _ from hmounted]
    exact hejected.imp_right .inl
  · exact .inr (.inr ⟨hok, hmounted⟩)

theorem replace8sd_succeeded {path : Path} {access : FloppyAccess} {answers : ReplaceAnswers}
    (hok : (replace8sd b drive path access mounted error answers).ok = true) :
    (replace8sd b drive path access mounted error answers).mounted =
      { path := some path, access := access } := by
  obtain ⟨-, -, hfailed, -⟩ | ⟨-, hfailed, hr⟩ | ⟨-, -, -, hfailed, -⟩ | ⟨-, -, -, -, hmounted⟩ :=
    replace8sd_cases b drive mounted error path access answers
  · exact absurd (hfailed.symm.trans hok) nofun
  · exact absurd ((hfailed.symm.trans (congrArg DiskResult.ok hr.symm)).trans hok) nofun
  · exact absurd (hfailed.symm.trans hok) nofun
  · exact hmounted

/-- A replacement that fails leaves the drive and its slot as they were, unless it reopens the mounted
file, saves and ejects its disk, and then cannot read the file back. -/
theorem failed_replace_keeps_disk {path : Path} {access : FloppyAccess} {answers : ReplaceAnswers}
    (hdisk : (b.floppy.drives drive).image = some disk) (hpath : mounted.path.isSome = true)
    (haccess : (b.floppy.drives drive).access = mounted.access) :
    ((replace8sd b drive path access mounted error answers).ok = false →
        (replace8sd b drive path access mounted error answers).board.floppy.drives drive
            = b.floppy.drives drive ∧
          (replace8sd b drive path access mounted error answers).mounted = mounted) ↔
      ¬(sameExistingFile answers.equivalent = true ∧ ejects disk mounted answers.saving = true ∧
        answers.reading.readable = false) := by
  have hreopening : reopeningSameFile mounted answers.equivalent
      = sameExistingFile answers.equivalent := by
    rw [reopeningSameFile, hpath, Bool.true_and]
  have hejected : ejectMounted b drive mounted error answers.saving
      = eject8sd b drive mounted error answers.saving := by
    rw [ejectMounted, if_pos hpath]
  have hcases := replace8sd_cases b drive mounted error path access answers
  simp only [hreopening, hejected] at hcases
  have heject := eject8sd_cases error answers.saving hdisk haccess
  obtain ⟨hdiffers, -, -, hboard, hmounted⟩ | ⟨-, hfailed, hr⟩ |
    ⟨hsame, hunread, hok, hfailed, hboard, -⟩ | ⟨hread, -, hok, -⟩ := hcases
  · -- The new image is read before anything is touched.
    refine iff_of_true (fun _ => ⟨by rw [hboard], hmounted⟩) fun h => ?_
    exact absurd (h.1.symm.trans hdiffers) nofun
  · obtain ⟨hejects, -, hfloppy, hmounted⟩ | ⟨-, hok, -, -⟩ := heject
    · refine iff_of_true (fun _ => ⟨by rw [hr, hfloppy], by rw [hr, hmounted]⟩) fun h => ?_
      exact absurd (h.2.1.symm.trans hejects) nofun
    · exact absurd (hfailed.symm.trans hok) nofun
  · -- The file that cannot be read back leaves the drive empty.
    obtain ⟨-, hfailed', -, -⟩ | ⟨hejects, -, hempty, -⟩ := heject
    · exact absurd (hfailed'.symm.trans hok) nofun
    · refine iff_of_false (fun h => ?_) fun h => h ⟨hsame, hejects, hunread⟩
      have hkept := congrArg FloppyDrive.image (h hfailed).1
      rw [hboard, hempty, Board.ejectFloppy_empties, hdisk] at hkept
      cases hkept
  · refine iff_of_true (fun hfailed => ?_) fun h => ?_
    · exact absurd (hfailed.symm.trans hok) nofun
    · exact absurd (h.2.2.symm.trans hread) nofun

/-- The disk `createBlank8sd` and a mount make. -/
def blankDisk : FloppyDiskImage :=
  (importImage (List.replicate imageSize 0xE5#8) defaultSectorSkew).getD {}

/-- Another file that is too short leaves the mounted disk in its drive. -/
theorem replace_unreadable_keeps_disk :
    let b := (({} : Board).insertFloppy 0 blankDisk .readOnly).2
    let mounted : MountedDisk := { path := some "a.8sd", access := .readOnly }
    let r := replace8sd b 0 "b.8sd" .readWrite mounted "" { reading := { opened := true, size := 1 } }
    r.ok = false ∧ r.board.floppy.drives 0 = b.floppy.drives 0 ∧ r.mounted = mounted := by
  intro b mounted r
  have hkept := @failed_replace_keeps_disk b 0 blankDisk mounted "" "b.8sd" .readWrite
    { reading := { opened := true, size := 1 } } rfl rfl rfl
  exact ⟨rfl, hkept.mpr (fun h => absurd h.1 nofun) rfl⟩

/-- The mounted file has been cut short when it is opened again: its disk is gone from the drive. -/
theorem reopened_file_loses_disk :
    let b := (({} : Board).insertFloppy 0 blankDisk .readOnly).2
    let mounted : MountedDisk := { path := some "a.8sd", access := .readOnly }
    let r := replace8sd b 0 "a.8sd" .readWrite mounted ""
      { equivalent := some true, reading := { opened := true, size := 1 } }
    (b.floppy.drives 0).image = some blankDisk ∧ (b.floppy.drives 0).access = mounted.access ∧
      r.ok = false ∧ (r.board.floppy.drives 0).image = none ∧ r.mounted.path = none :=
  ⟨rfl, rfl, rfl, rfl, rfl⟩

end FK1
