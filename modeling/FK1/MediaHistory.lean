import FK1.MountedDrives
import FK1.DiskWriting
import FK1.Lib.Record

/-!
# FK1.MediaHistory

The medium in a drive over any run: it holds the stores that were made to it, in their order, and
nothing else changes it but taking it out, whatever is done with the other drive.

* `Board.writesTo`: the stores of one action to one drive.
* `Board.act_media`, `Board.run_media`: what they leave on its disk.
-/

namespace FK1

open Ibm3740SectorImage

theorem Ibm3740SectorImage.writeCells_append {disk disk₁ disk₂ : FloppyDiskImage}
    {writes writes' : List TrackWrite} (h : writeCells disk writes = some disk₁)
    (h' : writeCells disk₁ writes' = some disk₂) :
    writeCells disk (writes ++ writes') = some disk₂ := by
  unfold writeCells at *
  rw [List.foldlM_append, h]
  exact h'

theorem Ibm3740SectorImage.writeCells_singleton {disk : FloppyDiskImage} {w : TrackWrite}
    (h : (writeCell disk w).1 = true) : writeCells disk [w] = some (writeCell disk w).2 := by
  simp [writeCells, h]

theorem FloppyTrack.writeByte_failed {t : FloppyTrack} {byte : TimedFmByte}
    (h : (t.writeByte byte).1 = false) : (t.writeByte byte).2 = t := by
  unfold FloppyTrack.writeByte at *
  split at h
  · cases h
  · rfl

theorem FloppyDiskImage.put_tracks (image : FloppyDiskImage) (i : Fin 77) :
    image.put i (image.tracks i) = image := by
  refine congrArg FloppyDiskImage.mk (funext fun j => ?_)
  by_cases hj : j = i
  · rw [if_pos hj, hj]
  · rw [if_neg hj]

/-! ## Stores -/

section

variable {disk : FloppyDiskImage}

/-- A store leaves the disk with the cell written or, if it fails, as it was. -/
theorem FloppyDrive.writeByte_media {d : FloppyDrive} (hdisk : d.image = some disk)
    (byte : TimedFmByte) :
    (d.writeByte byte).2.headTrack = d.headTrack ∧
      (((d.writeByte byte).1 = true ∧ (writeCell disk ⟨d.headTrack, byte⟩).1 = true ∧
          (d.writeByte byte).2.image = some (writeCell disk ⟨d.headTrack, byte⟩).2) ∨
        ((d.writeByte byte).1 = false ∧ (d.writeByte byte).2.image = some disk)) := by
  have heq : d.writeByte byte = if d.writeProtected then (false, d) else
      ((writeCell disk ⟨d.headTrack, byte⟩).1,
        { d with image := some (writeCell disk ⟨d.headTrack, byte⟩).2 }) := by
    unfold FloppyDrive.writeByte
    rw [hdisk]
    rfl
  rw [heq]
  split
  · exact ⟨rfl, .inr ⟨rfl, hdisk⟩⟩
  · refine ⟨rfl, ?_⟩
    cases hok : (writeCell disk ⟨d.headTrack, byte⟩).1 with
    | true => exact .inl ⟨rfl, rfl, rfl⟩
    | false =>
      have hkept : (writeCell disk ⟨d.headTrack, byte⟩).2 = disk := by
        unfold writeCell
        dsimp only
        rw [FloppyTrack.writeByte_failed hok, FloppyDiskImage.put_tracks]
      exact .inr ⟨rfl, congrArg some hkept⟩

/-- A store goes to the selected drive, to the track under its head. -/
theorem FloppySubsystem.writeSelectedByte_media {f : FloppySubsystem} {drive : Fin 2}
    (hdisk : (f.drives drive).image = some disk) (byte : TimedFmByte) :
    (f.writeSelectedByte byte).2.selectedDriveIndex = f.selectedDriveIndex ∧
      ((f.writeSelectedByte byte).2.drives drive).headTrack = (f.drives drive).headTrack ∧
      ((f.selectedDriveIndex = drive ∧ (f.writeSelectedByte byte).1 = true ∧
          (writeCell disk ⟨(f.drives drive).headTrack, byte⟩).1 = true ∧
          ((f.writeSelectedByte byte).2.drives drive).image =
            some (writeCell disk ⟨(f.drives drive).headTrack, byte⟩).2) ∨
        ((f.selectedDriveIndex ≠ drive ∨ (f.writeSelectedByte byte).1 = false) ∧
          ((f.writeSelectedByte byte).2.drives drive).image = some disk)) := by
  unfold FloppySubsystem.writeSelectedByte
  by_cases hloaded : f.headLoaded = true
  · rw [if_pos hloaded]
    by_cases hselected : f.selectedDriveIndex = drive
    · subst hselected
      obtain ⟨hhead, hmedia⟩ := FloppyDrive.writeByte_media hdisk byte
      simp only [FloppySubsystem.modify, if_true, FloppySubsystem.selectedDrive]
      refine ⟨trivial, hhead, hmedia.imp (fun h => ⟨trivial, h⟩) fun h => ⟨.inr h.1, h.2⟩⟩
    · have hother : drive ≠ f.selectedDriveIndex := fun h => hselected h.symm
      simp only [FloppySubsystem.modify, if_neg hother]
      exact ⟨trivial, trivial, .inr ⟨.inl hselected, hdisk⟩⟩
  · rw [if_neg hloaded]
    exact ⟨rfl, rfl, .inr ⟨.inr rfl, hdisk⟩⟩

namespace DiskSide

/-- The cells stored in a drive go to the track under its head. -/
theorem storeBytes_media (bytes : List TimedFmByte) {s : DiskSide} {drive : Fin 2}
    (hdisk : (s.floppy.drives drive).image = some disk) :
    ∃ new disk', stores (bytes.foldl storeByte s).trace = stores s.trace ++ new ∧
      writeCells disk (if s.floppy.selectedDriveIndex = drive then
          new.map fun byte => { track := (s.floppy.drives drive).headTrack, byte := byte }
        else []) = some disk' ∧
      ((bytes.foldl storeByte s).floppy.drives drive).image = some disk' := by
  induction bytes generalizing s disk with
  | nil => exact ⟨[], disk, (List.append_nil _).symm, by split <;> rfl, hdisk⟩
  | cons byte bytes ih =>
    obtain ⟨hselected, hhead, hmedia⟩ := FloppySubsystem.writeSelectedByte_media hdisk byte
    have hstored : stores (s.storeByte byte).trace =
        stores s.trace ++ if (s.floppy.writeSelectedByte byte).1 then [byte] else [] := by
      unfold storeByte
      dsimp only
      split
      · exact stores_append _ _
      · exact (List.append_nil _).symm
    rw [List.foldl_cons]
    rcases hmedia with ⟨hdrive, hok, hcell, himage⟩ | ⟨hnone, himage⟩
    · obtain ⟨new, disk', htrace, hwrites, hafter⟩ := ih (s := s.storeByte byte) himage
      refine ⟨byte :: new, disk', ?_, ?_, hafter⟩
      · rw [htrace, hstored, hok, if_pos rfl, List.append_assoc]
        rfl
      · rw [show (s.storeByte byte).floppy = (s.floppy.writeSelectedByte byte).2 from rfl, hselected,
          hhead, if_pos hdrive] at hwrites
        rw [if_pos hdrive, List.map_cons]
        exact writeCells_append (writeCells_singleton hcell) hwrites
    · obtain ⟨new, disk', htrace, hwrites, hafter⟩ := ih (s := s.storeByte byte) himage
      rw [show (s.storeByte byte).floppy = (s.floppy.writeSelectedByte byte).2 from rfl, hselected,
        hhead] at hwrites
      rcases hnone with hother | hfailed
      · refine ⟨_, disk', by rw [htrace, hstored, List.append_assoc], ?_, hafter⟩
        rw [if_neg hother] at hwrites ⊢
        exact hwrites
      · refine ⟨new, disk', ?_, hwrites, hafter⟩
        rw [htrace, hstored, hfailed, if_neg Bool.false_ne_true, List.append_nil]

/-- Nothing is stored on a protected disk. -/
theorem flush_protected (s : DiskSide) (h : s.floppy.selectedDrive.writeProtected = true) :
    s.flush = { s with disk := { s.disk with pendingWrites := [] } } := by
  have hstore : ∀ byte, s.storeByte byte = s := by
    intro byte
    have hdrive : s.floppy.selectedDrive.writeByte byte = (false, s.floppy.selectedDrive) := by
      unfold FloppyDrive.writeByte
      split
      · rfl
      · rw [if_pos h]
    have hnone : s.floppy.writeSelectedByte byte = (false, s.floppy) := by
      unfold FloppySubsystem.writeSelectedByte
      split
      · rw [hdrive]
        exact congrArg (Prod.mk false) (FloppySubsystem.modify_fixed (congrArg Prod.snd hdrive))
      · rfl
    unfold storeByte
    rw [hnone]
    rfl
  have hall : ∀ bytes : List TimedFmByte, bytes.foldl storeByte s = s := by
    intro bytes
    induction bytes with
    | nil => rfl
    | cons byte bytes ih => rw [List.foldl_cons, hstore, ih]
  unfold flush
  dsimp only
  rw [hall]

/-- A time step: the drives turn, and then the cells that wait are stored. -/
theorem advance_flush (s : DiskSide) (ticks clocks : Nat) :
    ∃ r : DiskSide, s.advance ticks clocks = r.flush ∧ r.floppy = s.floppy.advance ticks ∧
      stores r.trace = stores s.trace := by
  have hpassed := processAll_handles (s.passing ticks) s
  obtain ⟨counter1, latch, new, he, _, hnew⟩ := timer_start
    (((s.passing ticks).foldl process s).turn ticks) clocks
  refine ⟨_, rfl, ?_, ?_⟩
  · rw [he, startWrite_floppy]
    exact congrArg (·.advance ticks) hpassed.floppy
  · have hwrite : ∀ (r : DiskSide) (edges : Nat), stores (r.startWrite edges).trace = stores r.trace := by
      intro r edges
      unfold startWrite
      split
      · exact (transfer_handles _ _).stored
      · rfl
    rw [he, hwrite]
    show stores (((s.passing ticks).foldl process s).trace ++ new) = _
    rw [stores_append, hpassed.stored]
    rcases hnew with rfl | rfl <;> exact List.append_nil _

/-- The stores of a time step. -/
theorem advance_media {s : DiskSide} {drive : Fin 2} (hdisk : (s.floppy.drives drive).image = some disk)
    (ticks clocks : Nat) :
    ∃ new disk', stores (s.advance ticks clocks).trace = stores s.trace ++ new ∧
      writeCells disk (if s.floppy.selectedDriveIndex = drive then
          new.map fun byte => { track := (s.floppy.drives drive).headTrack, byte := byte }
        else []) = some disk' ∧
      ((s.advance ticks clocks).floppy.drives drive).image = some disk' := by
  obtain ⟨r, he, hfloppy, hstored⟩ := s.advance_flush ticks clocks
  obtain ⟨hhead, himage, _⟩ := (s.floppy.drives drive).advance_headTrack ticks
  have hturned : r.floppy.drives drive = (s.floppy.drives drive).advance ticks :=
    congrArg (fun f => f.drives drive) hfloppy
  obtain ⟨new, disk', htrace, hwrites, hafter⟩ :=
    @storeBytes_media _ r.disk.pendingWrites r drive (by rw [hturned, himage, hdisk])
  have hselected : r.floppy.selectedDriveIndex = s.floppy.selectedDriveIndex := by
    rw [hfloppy]
    rfl
  rw [hturned, hhead, hselected] at hwrites
  rw [hstored] at htrace
  rw [he]
  exact ⟨new, disk', htrace, hwrites, hafter⟩

end DiskSide

end

/-! ## Actions -/

/-- The action inserts or ejects a disk in this drive. -/
def Action.movesDiskIn (drive : Fin 2) : Action → Bool
  | .host (.insertFloppy i ..) | .host (.ejectFloppy i) => i == drive.val
  | _ => false

namespace Board

/-- The stores of an action to a drive. -/
def writesTo (drive : Fin 2) (entry : Board × Action) : List TrackWrite :=
  if entry.1.floppy.selectedDriveIndex = drive then
    (Run.added (fun b : Board => stores b.trace) entry.1 (entry.1.act entry.2)).map fun byte =>
      { track := (entry.1.floppy.drives drive).headTrack, byte := byte }
  else []

variable {b : Board} {drive : Fin 2} {disk : FloppyDiskImage}

/-- The same cells are the same disk. -/
theorem image_of_cells {f f' : FloppySubsystem} (h : ∀ j, f'.cells drive j = f.cells drive j)
    (hdisk : (f.drives drive).image = some disk) : (f'.drives drive).image = some disk := by
  unfold FloppySubsystem.cells at h
  rw [hdisk] at h
  cases hdisk' : (f'.drives drive).image with
  | none =>
    have hcell := h 0
    rw [hdisk'] at hcell
    cases hcell
  | some disk' =>
    rw [hdisk'] at h
    exact congrArg (fun tracks => some (FloppyDiskImage.mk tracks))
      (funext fun j => Option.some.inj (h j))

/-- Only time stores anything. -/
theorem host_stores (b : Board) (op : HostOp) : stores (b.host op).trace = stores b.trace := by
  obtain ⟨s, hp, _, _, hs⟩ := host_accesses b op
  have hstored : stores (b.host op).diskSide.trace = stores s.trace := by
    rcases hs with hs | hs <;> rw [hs]
    exact (DiskSide.refresh_handles s).stored
  exact hstored.trans (congrArg stores hp.trace)

theorem reset_stores (b : Board) : stores b.reset.trace = stores b.trace := by
  show stores b.reset.diskSide.trace = _
  unfold reset
  rw [renderVideo_diskSide, refreshSources_diskSide, (DiskSide.refresh_handles _).stored]
  exact (stores_append _ _).trans (List.append_nil _)

theorem writesTo_of_stores {a : Action} (h : stores (b.act a).trace = stores b.trace) :
    writesTo drive (b, a) = [] := by
  have hnone : Run.added (fun b : Board => stores b.trace) b (b.act a) = [] :=
    Run.added_of_eq (h.trans (List.append_nil _).symm)
  unfold writesTo
  rw [hnone]
  split <;> rfl

/-- A disk that goes into or out of the other drive. -/
theorem act_otherDrive {a : Action} (hmoves : a.movesDisk = true) (ha : a.movesDiskIn drive = false) :
    (b.act a).floppy.drives drive = b.floppy.drives drive ∧ writesTo drive (b, a) = [] := by
  have hmodify : ∀ {i : Nat} (hi : i < 2) (g : FloppyDrive → FloppyDrive), (i == drive.val) = false →
      (b.floppy.modify ⟨i, hi⟩ g).drives drive = b.floppy.drives drive := by
    intro i hi g hne
    refine if_neg fun h => ?_
    rw [h] at hne
    simp at hne
  cases a with
  | advance cycles => cases hmoves
  | reset => cases hmoves
  | host op =>
    refine ⟨?_, writesTo_of_stores (host_stores b op)⟩
    cases op with
    | insertFloppy i image access =>
      show (b.floppy.insert i image access).2.drives drive = _
      unfold FloppySubsystem.insert
      split
      next hi => exact hmodify hi (·.insert image access) ha
      next => rfl
    | ejectFloppy i =>
      show (b.floppy.eject i).2.drives drive = _
      unfold FloppySubsystem.eject
      split
      next hi => exact hmodify hi (fun d => d.eject.2) ha
      next => rfl
    | _ => cases hmoves

/-- Unless it moves the disk of a drive, an action leaves that disk with its stores to it. -/
theorem act_media (hb : b.Coherent) (hdisk : (b.floppy.drives drive).image = some disk) {a : Action}
    (ha : a.movesDiskIn drive = false) :
    ∃ disk', writeCells disk (writesTo drive (b, a)) = some disk' ∧
      ((b.act a).floppy.drives drive).image = some disk' := by
  by_cases hmoves : a.movesDisk = true
  · obtain ⟨hdrive, hnone⟩ := act_otherDrive hmoves ha
    rw [hnone, hdrive]
    exact ⟨disk, rfl, hdisk⟩
  rw [Bool.not_eq_true] at hmoves
  cases a with
  | advance cycles =>
    have hside : (b.act (.advance cycles)).diskSide = _ := advanceTime_diskSide hb.steady cycles
    obtain ⟨new, disk', htrace, hwrites, hafter⟩ := DiskSide.advance_media (s := b.diskSide) hdisk
      (cycles * 3) ((b.timerClockAccumulator + cycles * 3) / 12)
    rw [← hside] at htrace hafter
    refine ⟨disk', ?_, hafter⟩
    unfold writesTo
    rw [@Run.added_of_eq _ _ (fun b : Board => stores b.trace) _ _ _ htrace]
    exact hwrites
  | reset =>
    have hfloppy : b.reset.floppy = b.floppy.resetController := refresh_floppy _
    refine ⟨disk, by rw [writesTo_of_stores (a := .reset) (reset_stores b)]; rfl, ?_⟩
    show (b.reset.floppy.drives drive).image = _
    rw [hfloppy]
    exact hdisk
  | host op =>
    obtain ⟨s, _, _, hc, hs⟩ := host_accesses b op
    have hmedium : op.changesMedium = false := by
      cases op <;> first | rfl | exact hmoves
    have hfloppy : (b.host op).diskSide.floppy = s.floppy := by
      rcases hs with hs | hs <;> rw [hs]
      exact (DiskSide.refresh_handles s).floppy
    refine ⟨disk, by rw [writesTo_of_stores (a := .host op) (host_stores b op)]; rfl,
      image_of_cells (fun j => ?_) hdisk⟩
    exact (congrArg (fun f => f.cells drive j) hfloppy).trans (hc hmedium drive j)

/-- A write-protected disk is never written. -/
theorem act_protected (hb : b.Coherent) (haccess : (b.floppy.drives drive).access = .readOnly)
    (a : Action) : writesTo drive (b, a) = [] := by
  cases a with
  | advance cycles =>
    by_cases hselected : b.floppy.selectedDriveIndex = drive
    · refine writesTo_of_stores ?_
      have hside : (b.act (.advance cycles)).diskSide = _ := advanceTime_diskSide hb.steady cycles
      obtain ⟨r, he, hfloppy, hstored⟩ := b.diskSide.advance_flush (cycles * 3)
        ((b.timerClockAccumulator + cycles * 3) / 12)
      obtain ⟨_, _, hkept⟩ := (b.floppy.drives drive).advance_headTrack (cycles * 3)
      have hprotected : r.floppy.selectedDrive.writeProtected = true := by
        subst hselected
        rw [hfloppy]
        have hadvanced : (b.floppy.selectedDrive.advance (cycles * 3)).access = .readOnly :=
          hkept.trans haccess
        show (b.floppy.selectedDrive.advance (cycles * 3)).writeProtected = true
        unfold FloppyDrive.writeProtected
        rw [hadvanced]
        exact Bool.or_true _
      show stores (b.act (.advance cycles)).diskSide.trace = _
      rw [hside, he, r.flush_protected hprotected]
      exact hstored
    · exact if_neg hselected
  | reset => exact writesTo_of_stores (reset_stores b)
  | host op => exact writesTo_of_stores (host_stores b op)

/-- A run that does not move the disk of a drive leaves it with the run's stores to it. -/
theorem run_media (hb : b.Coherent) (hdisk : (b.floppy.drives drive).image = some disk)
    {actions : List Action} (hkept : ∀ a ∈ actions, a.movesDiskIn drive = false) :
    ∃ disk', writeCells disk ((Run.record act b actions).flatMap (writesTo drive)) = some disk' ∧
      ((Run.run act b actions).floppy.drives drive).image = some disk' := by
  induction actions generalizing b disk with
  | nil => exact ⟨disk, rfl, hdisk⟩
  | cons a actions ih =>
    obtain ⟨disk₁, hwrites, himage⟩ := act_media hb hdisk (hkept a (List.mem_cons_self ..))
    obtain ⟨disk₂, hwrites', himage'⟩ := ih (act_coherent hb a) himage fun a' ha' =>
      hkept a' (List.mem_cons_of_mem _ ha')
    exact ⟨disk₂, writeCells_append hwrites hwrites', himage'⟩

theorem act_access {a : Action} (ha : a.movesDiskIn drive = false) :
    ((b.act a).floppy.drives drive).access = (b.floppy.drives drive).access := by
  by_cases hmoves : a.movesDisk = true
  · rw [(act_otherDrive hmoves ha).1]
  · exact (act_sameMounts b a (Bool.not_eq_true _ ▸ hmoves) drive).2

theorem run_access {actions : List Action} (hkept : ∀ a ∈ actions, a.movesDiskIn drive = false) :
    ((Run.run act b actions).floppy.drives drive).access = (b.floppy.drives drive).access :=
  Run.run_allowed (I := fun v : Board => (v.floppy.drives drive).access = (b.floppy.drives drive).access)
    (fun _ _ hv ha => (act_access ha).trans hv) rfl hkept

theorem run_protected (hb : b.Coherent) (haccess : (b.floppy.drives drive).access = .readOnly)
    {actions : List Action} (hkept : ∀ a ∈ actions, a.movesDiskIn drive = false) :
    (Run.record act b actions).flatMap (writesTo drive) = [] := by
  induction actions generalizing b with
  | nil => rfl
  | cons a actions ih =>
    rw [Run.record_cons, List.flatMap_cons, act_protected hb haccess,
      ih (act_coherent hb a) ((act_access (hkept a (List.mem_cons_self ..))).trans haccess)
        fun a' ha' => hkept a' (List.mem_cons_of_mem _ ha')]
    rfl

end Board
end FK1
