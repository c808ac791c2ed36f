import FK1.GuestWrite

/-!
# FK1.SavedFile

The image file of a disk that has been in a drive: what a run of the machine has left in it once the disk
is ejected.

* `Board.Holds.run`: permitted writes replace their bytes of the image.
* `Board.file_after_run`: what the eject saves.
-/

namespace FK1

open Ibm3740SectorImage

theorem FloppySubsystem.modify_selectedDriveIndex (f : FloppySubsystem) (i : Fin 2)
    (g : FloppyDrive → FloppyDrive) : (f.modify i g).selectedDriveIndex = f.selectedDriveIndex := rfl

namespace Board

variable {b : Board} {drive : Fin 2} {disk : FloppyDiskImage}

/-- The disk in a drive holds the raw image `raw` under `map`. -/
def Holds (b : Board) (drive : Fin 2) (map : Nat → Byte) (raw : List Byte) : Prop :=
  ∃ disk, (b.floppy.drives drive).image = some disk ∧ FormattedDisk map raw disk

variable {map : Nat → Byte} {raw : List Byte}

/-- Permitted writes replace their bytes of the image, whatever else a run does. -/
theorem Holds.run (h : b.Holds drive map raw) (hb : b.Coherent) {actions : List Action}
    (hkept : ∀ a ∈ actions, a.movesDiskIn drive = false)
    (hpermitted : ∀ w ∈ (Run.record act b actions).flatMap (writesTo drive), Permitted w) :
    (Run.run act b actions).Holds drive map
      (replaced map raw ((Run.record act b actions).flatMap (writesTo drive))) := by
  obtain ⟨disk, hdisk, hformatted⟩ := h
  obtain ⟨disk', hwrites, himage⟩ := run_media hb hdisk hkept
  obtain ⟨disk₁, hwrites₁, hformatted'⟩ := writeCells_formatted hformatted hpermitted
  cases hwrites.symm.trans hwrites₁
  exact ⟨disk', himage, hformatted'⟩

/-- What `read8sd` reads is a disk that holds the file's image. -/
theorem read8sd_formatted {path : Path} {reading : ReadAnswers} {disk : FloppyDiskImage}
    (h : read8sd path reading = .ok disk) :
    ∃ map, sectorMap defaultSectorSkew = some map ∧
      FormattedDisk map (reading.content.take imageSize) disk := by
  unfold read8sd at h
  split at h
  · cases h
  split at h
  · cases h
  split at h
  · cases h
  split at h
  · cases h
  cases h
  rename_i himport
  exact imported_formatted himport

/-- A file is mounted in a drive, the machine runs, whatever is done with the other drive, and the disk is
ejected. If every cell that the run has written takes its byte, then the save succeeds unless the file
system fails, and the file's image is what it was with the written data bytes replaced; under read-only
access none is written. -/
theorem file_after_run (hb : b.Reachable) {path : Path} {reading : ReadAnswers}
    (hread : read8sd path reading = .ok disk) (drive : Fin 2) (access : FloppyAccess)
    {actions : List Action} (hkept : ∀ a ∈ actions, a.movesDiskIn drive = false) :
    let b₁ := (b.insertFloppy drive disk access).2
    let b₂ := Run.run act b₁ actions
    let writes := (Run.record act b₁ actions).flatMap (writesTo drive)
    ∃ map, sectorMap defaultSectorSkew = some map ∧ (access = .readOnly → writes = []) ∧
      ((∀ w ∈ writes, Permitted w) → ∀ (error : String) (saving : WriteAnswers),
        saving.succeeds = true →
          let r := eject8sd b₂ drive { path := some path, access := access } error saving
          r.ok = true ∧ (contentAfter path reading.content r.events).take imageSize =
            replaced map (reading.content.take imageSize) writes) := by
  intro b₁ b₂ writes
  obtain ⟨map, hmap, hformatted⟩ := read8sd_formatted hread
  have hcoherent : b₁.Coherent := act_coherent hb.coherent (.host (.insertFloppy drive disk access))
  have hdrive : b₁.floppy.drives drive = (b.floppy.drives drive).insert disk access := by
    show (b.insertFloppy drive disk access).2.floppy.drives drive = _
    rw [insertFloppy_floppy]
    exact if_pos rfl
  have haccess : (b₁.floppy.drives drive).access = access := by rw [hdrive]; rfl
  have hholds : b₁.Holds drive map (reading.content.take imageSize) :=
    ⟨disk, by rw [hdrive]; rfl, hformatted⟩
  have hnone : access = .readOnly → writes = [] := fun h =>
    run_protected hcoherent (haccess.trans h) hkept
  refine ⟨map, hmap, hnone, fun hpermitted error saving hsaving => ?_⟩
  obtain ⟨disk', himage, hformatted'⟩ := hholds.run hcoherent hkept hpermitted
  have hexport := export_formatted hformatted'
  have hmounts : (b₂.floppy.drives drive).access = access :=
    (run_access hkept).trans haccess
  have hejects : ejects disk' { path := some path, access := access } saving = true := by
    simp [ejects, hexport, hsaving]
  obtain ⟨hfailed, -⟩ | ⟨-, hok, -⟩ :=
    @eject8sd_cases b₂ drive disk' { path := some path, access := access } error saving himage hmounts
  · rw [hejects] at hfailed
    cases hfailed
  refine ⟨hok, ?_⟩
  cases access with
  | readOnly =>
    rw [eject8sd_unsaved himage (.inl rfl), hnone rfl]
    rfl
  | readWrite =>
    rw [eject8sd_saved himage rfl rfl hexport]
    exact contentAfter_events hsaving (exportImage_length hexport)

/-- The cell at which OUT1 starts a write is stored with the byte on PA. -/
theorem prepared_stores {map : Nat → Byte} {raw : List Byte} {disk : FloppyDiskImage}
    (hformatted : FormattedDisk map raw disk) :
    writesTo 0 ((prepared.insertFloppy (0 : Fin 2) disk .readWrite).2, .advance 13312) =
      [⟨0, ⟨104 * byteTicks, 0x00#8, 0xFF#8⟩⟩] := by
  have hselected : prepared.floppy.selectedDriveIndex = 0 := by decide +kernel
  have hstarted := @prepared_edge _ _ _ hformatted 104 13312 (by decide) (by decide) (by decide)
    (by decide) (by decide)
  have hindex : (prepared.insertFloppy prepared.floppy.selectedDriveIndex disk .readWrite
      ).2.floppy.selectedDriveIndex = 0 := by
    rw [insertFloppy_floppy, FloppySubsystem.modify_selectedDriveIndex, hselected]
  rw [hselected] at hstarted hindex
  dsimp only at hstarted
  generalize (prepared.insertFloppy (0 : Fin 2) disk .readWrite).2 = b at hstarted hindex ⊢
  obtain ⟨hb, hready, -, -, hhead, htrail, -, -, hrun⟩ := hstarted
  have hunderway := hrun.underway hb.coherent hready htrail (by decide) (by decide)
  have hstored : stores (b.act (.advance 13312)).trace =
      stores b.trace ++ [⟨104 * byteTicks, 0x00#8, 0xFF#8⟩] := hunderway.wrote.stored
  have hhead₀ : (b.floppy.drives 0).headTrack = 0 := by
    rw [FloppySubsystem.selectedDrive, hindex] at hhead
    exact hhead
  unfold writesTo
  rw [if_pos hindex, hhead₀, @Run.added_of_eq _ _ (fun b : Board => stores b.trace) _ _ _ hstored]
  rfl

/-- A blank file is mounted in drive A; OUT1 starts a write at the first data byte of its first sector,
and drive B is emptied. -/
theorem file_after_run_written :
    ∃ disk, read8sd "a.8sd" blankFile = .ok disk ∧
      let b := Run.run act (prepared.insertFloppy (0 : Fin 2) disk .readWrite).2
        [.advance 13312, .host (.ejectFloppy 1)]
      let r := eject8sd b 0 { path := some "a.8sd", access := .readWrite } "" { opened := true }
      r.ok = true ∧ (contentAfter "a.8sd" blankFile.content r.events).take imageSize =
        (blankFile.content.take imageSize).set 0 0x00#8 := by
  obtain ⟨disk, hread⟩ := read8sd_readable "a.8sd" blankFile_readable
  have hb : prepared.Reachable := ⟨[], _, rfl⟩
  have hkept : ∀ a ∈ [Action.advance 13312, .host (.ejectFloppy 1)], a.movesDiskIn 0 = false := by
    decide
  obtain ⟨map, hmap, -, hfile⟩ := file_after_run hb hread 0 .readWrite hkept
  obtain ⟨map', hmap', hformatted⟩ := read8sd_formatted hread
  have hwrites : (Run.record act (prepared.insertFloppy (0 : Fin 2) disk .readWrite).2
      [.advance 13312, .host (.ejectFloppy 1)]).flatMap (writesTo 0) =
        [⟨0, ⟨104 * byteTicks, 0x00#8, 0xFF#8⟩⟩] := by
    rw [Run.record_cons, Run.record_cons, List.flatMap_cons, List.flatMap_cons,
      prepared_stores hformatted, writesTo_of_stores (a := .host (.ejectFloppy 1)) (host_stores _ _)]
    rfl
  have hoffset : writeOffset map ⟨0, ⟨104 * byteTicks, 0x00#8, 0xFF#8⟩⟩ = some 0 := by
    have h := @writeOffset_dataCell 0 0 (by decide) (by decide) map 0 0x00#8 0xFF#8
    rw [default_firstSlot hmap] at h
    exact h
  have hreplaced : replaced map (blankFile.content.take imageSize)
      [⟨0, ⟨104 * byteTicks, 0x00#8, 0xFF#8⟩⟩] = (blankFile.content.take imageSize).set 0 0x00#8 := by
    rw [replaced, List.foldl_cons, hoffset]
    rfl
  rw [hwrites, hreplaced] at hfile
  refine ⟨disk, hread, hfile (fun w hw => ?_) "" { opened := true } rfl⟩
  rw [List.mem_singleton.mp hw]
  exact ⟨104, _, rfl, @layout_dataCell 0 0 (by decide) (by decide), trivial⟩

end Board
end FK1
