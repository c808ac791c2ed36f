import FK1.Floppy

/-!
# FK1.FloppyStream

The track under the head of the selected drive, and the cells that pass it.

* `FloppySubsystem.visitBytes_eq_stream`: `visit_bytes` hands out the cells of the current track in
  rotational order, turn after turn, none lost or repeated at Index.
* `FloppySubsystem.writeSelectedByte_of_mem`: a cell of the current track is overwritten in place.
-/

namespace FK1

theorem byteTicks_pos : 0 < byteTicks := by decide

/-! ## Overwriting cells -/

/-- The cell `c` after the cells `written` have been stored. -/
def rewritten (written : List TimedFmByte) (c : TimedFmByte) : TimedFmByte :=
  written.foldl (fun c byte => if c.tick = byte.tick then byte else c) c

@[simp] theorem rewritten_nil (c : TimedFmByte) : rewritten [] c = c := rfl

theorem rewritten_append (xs ys : List TimedFmByte) (c : TimedFmByte) :
    rewritten (xs ++ ys) c = rewritten ys (rewritten xs c) := List.foldl_append

@[simp] theorem rewritten_tick (xs : List TimedFmByte) (c : TimedFmByte) :
    (rewritten xs c).tick = c.tick := by
  induction xs generalizing c with
  | nil => rfl
  | cons x xs ih =>
    refine (ih _).trans ?_
    dsimp only
    split
    · rename_i h; exact h.symm
    · rfl

/-- A cell away from the written ones keeps its contents. -/
theorem rewritten_of_forall_ne {xs : List TimedFmByte} {c : TimedFmByte}
    (h : ∀ x ∈ xs, x.tick ≠ c.tick) : rewritten xs c = c := by
  induction xs with
  | nil => rfl
  | cons x xs ih =>
    have hx : c.tick ≠ x.tick := fun he => h x (by simp) he.symm
    rw [rewritten, List.foldl_cons, if_neg hx]
    exact ih fun y hy => h y (by simp [hy])

/-- Of cells at different ticks each one lands. -/
theorem rewritten_of_mem {xs : List TimedFmByte} (h : (xs.map TimedFmByte.tick).Nodup)
    {c x : TimedFmByte} (hx : x ∈ xs) (ht : x.tick = c.tick) : rewritten xs c = x := by
  induction xs generalizing c with
  | nil => cases hx
  | cons y xs ih =>
    rw [List.map_cons, List.nodup_cons] at h
    rcases List.mem_cons.mp hx with rfl | hx
    · have hrest : ∀ z ∈ xs, z.tick ≠ x.tick := fun z hz he => h.1 (he ▸ List.mem_map_of_mem hz)
      rw [rewritten, List.foldl_cons, if_pos ht.symm]
      exact rewritten_of_forall_ne hrest
    · have hy : c.tick ≠ y.tick := fun he => h.1 (by rw [← he, ← ht]; exact List.mem_map_of_mem hx)
      rw [rewritten, List.foldl_cons, if_neg hy]
      exact ih h.2 hx ht

namespace FloppyTrack

@[ext] theorem ext {t u : FloppyTrack} (h : t.bytes = u.bytes) : t = u := by
  cases t; cases u; cases h; rfl

/-- The track after the cells `written` have been stored in place. -/
def overwrite (t : FloppyTrack) (written : List TimedFmByte) : FloppyTrack :=
  ⟨t.bytes.map (rewritten written), t.spaced.update (rewritten_tick written)⟩

@[simp] theorem overwrite_nil (t : FloppyTrack) : t.overwrite [] = t := by
  ext1
  exact List.map_id _

theorem overwrite_append (t : FloppyTrack) (xs ys : List TimedFmByte) :
    t.overwrite (xs ++ ys) = (t.overwrite xs).overwrite ys := by
  ext1
  simp [overwrite, Function.comp_def, rewritten_append]

theorem overwrite_ticks (t : FloppyTrack) (xs : List TimedFmByte) :
    (t.overwrite xs).bytes.map TimedFmByte.tick = t.bytes.map TimedFmByte.tick := by
  simp [overwrite]

/-- Cells at all the ticks of the track replace it. -/
theorem overwrite_all {t : FloppyTrack} {xs : List TimedFmByte}
    (h : xs.map TimedFmByte.tick = t.bytes.map TimedFmByte.tick) : (t.overwrite xs).bytes = xs := by
  have hnodup : (xs.map TimedFmByte.tick).Nodup := by
    rw [h]
    exact List.pairwise_map.mpr ((t.spaced.sorted byteTicks_pos).imp Nat.ne_of_lt)
  have hlength : xs.length = t.bytes.length := by simpa using congrArg List.length h
  have hbytes : (t.overwrite xs).bytes = t.bytes.map (rewritten xs) := rfl
  rw [hbytes]
  refine List.ext_getElem (by simp [hlength]) fun i h₁ h₂ => ?_
  have hi : i < t.bytes.length := by omega
  have htick : xs[i].tick = t.bytes[i].tick := by
    have := List.getElem_of_eq h (i := i) (by simpa using h₂)
    simpa using this
  rw [List.getElem_map]
  exact rewritten_of_mem hnodup (List.getElem_mem h₂) htick

theorem sorted (t : FloppyTrack) : t.bytes.Pairwise fun x y => x.tick < y.tick :=
  t.spaced.sorted byteTicks_pos

/-- A stored cell is on the track, if no later one was stored at its tick. -/
theorem mem_overwrite {t : FloppyTrack} {xs : List TimedFmByte}
    (h : (xs.map TimedFmByte.tick).Nodup) {w : TimedFmByte} (hw : w ∈ xs)
    (ht : w.tick ∈ t.bytes.map TimedFmByte.tick) : w ∈ (t.overwrite xs).bytes := by
  obtain ⟨c, hc, hct⟩ := List.mem_map.mp ht
  have hmem : rewritten xs c ∈ t.bytes.map (rewritten xs) := List.mem_map_of_mem hc
  rwa [rewritten_of_mem h hw hct.symm] at hmem

theorem mem_overwrite_of_forall_ne {t : FloppyTrack} {xs : List TimedFmByte} {c : TimedFmByte}
    (hc : c ∈ t.bytes) (h : ∀ x ∈ xs, x.tick ≠ c.tick) : c ∈ (t.overwrite xs).bytes := by
  have hmem : rewritten xs c ∈ t.bytes.map (rewritten xs) := List.mem_map_of_mem hc
  rwa [rewritten_of_forall_ne h] at hmem

/-- Storing a cell at a tick of the track. -/
theorem writeByte_of_mem {t : FloppyTrack} {old byte : TimedFmByte} (hold : old ∈ t.bytes)
    (ht : old.tick = byte.tick) : t.writeByte byte = (true, t.overwrite [byte]) := by
  obtain ⟨h₁, h₂⟩ := writeByte_of_some (writeByte?_of_mem t.spaced hold ht)
  exact Prod.ext h₁ (FloppyTrack.ext h₂)

/-- The cells that pass when the track turns by `ticks` from `phase`. -/
def passed (t : FloppyTrack) (phase ticks : Nat) : List TimedFmByte :=
  Circle.passed TimedFmByte.tick revolutionTicks t.bytes phase ticks

/-- Their ticks are those of the track. -/
theorem passed_ticks (t : FloppyTrack) (phase ticks : Nat) :
    (t.passed phase ticks).map TimedFmByte.tick =
      Circle.passed id revolutionTicks (t.bytes.map TimedFmByte.tick) phase ticks :=
  have hid : ∀ c : TimedFmByte, id c.tick = c.tick := fun _ => rfl
  (Circle.passed_map TimedFmByte.tick hid _ _ _).symm

/-- `ticks` are those of the cells from one cell on, in rotational order, and none comes twice. -/
def InRotation (t : FloppyTrack) (ticks : List Nat) : Prop :=
  ∃ xs c ys, t.bytes = xs ++ c :: ys ∧ ticks <+: (c :: ys ++ xs).map TimedFmByte.tick

theorem InRotation.shorten {t : FloppyTrack} {ticks ticks' : List Nat} (h : t.InRotation ticks)
    (hp : ticks' <+: ticks) : t.InRotation ticks' := by
  obtain ⟨xs, c, ys, hbytes, hturn⟩ := h
  exact ⟨xs, c, ys, hbytes, hp.trans hturn⟩

theorem InRotation.nodup {t : FloppyTrack} {ticks : List Nat} (h : t.InRotation ticks) :
    ticks.Nodup ∧ ∀ tick ∈ ticks, tick ∈ t.bytes.map TimedFmByte.tick := by
  obtain ⟨xs, c, ys, hbytes, hturn⟩ := h
  have hperm : ((c :: ys ++ xs).map TimedFmByte.tick).Perm (t.bytes.map TimedFmByte.tick) := by
    rw [hbytes]
    exact List.perm_append_comm.map _
  have hnodup : (t.bytes.map TimedFmByte.tick).Nodup :=
    List.pairwise_map.mpr ((t.spaced.sorted byteTicks_pos).imp Nat.ne_of_lt)
  exact ⟨(hperm.nodup_iff.mpr hnodup).sublist hturn.sublist,
    fun tick ht => hperm.subset (hturn.subset ht)⟩

theorem mem_of_passed {t : FloppyTrack} {phase ticks : Nat} {c : TimedFmByte}
    (h : c ∈ t.passed phase ticks) : c ∈ t.bytes := (Circle.mem_passed.mp h).1

end FloppyTrack

/-! ## The loop of `visit_bytes` -/

namespace FloppyDrive

/-- The rounds of the loop pass what one long turn does. -/
theorem visitLoop_eq_passed (t : FloppyTrack) {fuel remaining phase : Nat}
    (hphase : phase < revolutionTicks) (hfuel : remaining + phase ≤ fuel * revolutionTicks) :
    visitLoop t.bytes fuel remaining phase = t.passed phase remaining := by
  have hwindow : ∀ ticks, phase + ticks ≤ revolutionTicks →
      visitInterval t.bytes phase (phase + ticks) = t.passed phase ticks := fun ticks hle =>
    (Circle.window_eq_filter t.sorted).trans (Circle.passed_interval t.sorted hle).symm
  induction fuel generalizing remaining phase with
  | zero =>
    obtain rfl : remaining = 0 := by omega
    rfl
  | succ fuel ih =>
    rw [visitLoop]
    split
    · rename_i h; rw [h]; rfl
    dsimp only
    by_cases hturn : remaining ≤ revolutionTicks - phase
    · have hdone : ∀ fuel, visitLoop t.bytes fuel 0 0 = [] := by
        intro fuel; cases fuel <;> rfl
      rw [Nat.min_eq_left hturn, Nat.sub_self, hdone, List.append_nil, hwindow _ (by omega)]
    · -- the rest of this turn, then whole turns from Index
      have hsplit : remaining = (revolutionTicks - phase) + (remaining - (revolutionTicks - phase)) := by
        omega
      have hwrap : (phase + (revolutionTicks - phase)) % revolutionTicks = 0 := by
        rw [Nat.add_sub_cancel' (Nat.le_of_lt hphase), Nat.mod_self]
      rw [Nat.min_eq_right (by omega), hwindow _ (by omega),
        ih (by decide) (by rw [Nat.succ_mul] at hfuel; omega) fun ticks hle =>
          (Circle.window_eq_filter t.sorted).trans (Circle.passed_interval t.sorted hle).symm]
      conv => rhs; rw [hsplit, FloppyTrack.passed, Circle.passed_add, hwrap]
      rfl

theorem advance_headTrack (d : FloppyDrive) (ticks : Nat) :
    (d.advance ticks).headTrack = d.headTrack ∧ (d.advance ticks).image = d.image ∧
      (d.advance ticks).access = d.access := by
  unfold advance
  repeat' split
  all_goals simp_all

/-- Only a drive with a medium turns. -/
theorem advance_phase (d : FloppyDrive) (ticks : Nat) :
    (d.advance ticks).rotationPhase.val =
      if d.image.isSome then (d.rotationPhase.val + ticks) % revolutionTicks else d.rotationPhase := by
  have hphase := d.rotationPhase.isLt
  unfold advance
  cases h : d.image with
  | none => rfl
  | some image =>
    rw [Option.isSome_some, if_pos rfl]
    dsimp only
    split
    · rename_i h0; rw [h0, Nat.add_zero, Nat.mod_eq_of_lt hphase]
    · exact Nat.add_mod_mod _ _ _

end FloppyDrive

/-! ## The track under the head -/

namespace FloppySubsystem

/-- The track under the head of the selected drive; without a medium no cell passes. -/
def currentTrack (f : FloppySubsystem) : FloppyTrack :=
  match f.selectedDrive.image with
  | none => {}
  | some image => image.tracks f.selectedDrive.headTrack

/-- The rotational position of the selected drive. -/
def phase (f : FloppySubsystem) : Nat := f.selectedDrive.rotationPhase.val

/-- The cells that pass the head of the selected drive within `ticks`. -/
def stream (f : FloppySubsystem) (ticks : Nat) : List TimedFmByte := f.currentTrack.passed f.phase ticks

variable (f : FloppySubsystem)

theorem phase_lt : f.phase < revolutionTicks := f.selectedDrive.rotationPhase.isLt

theorem visitBytes_eq_stream (ticks : Nat) : f.visitBytes ticks = f.stream ticks := by
  unfold visitBytes FloppyDrive.visitBytes stream currentTrack
  cases himage : f.selectedDrive.image with
  | none => exact (Circle.passed_nil _ _).symm
  | some image =>
    refine FloppyDrive.visitLoop_eq_passed _ f.phase_lt ?_
    have hphase := f.phase_lt
    have hdiv := Nat.div_add_mod ticks revolutionTicks
    have hmod := Nat.mod_lt ticks (show 0 < revolutionTicks by decide)
    rw [phase] at hphase
    rw [Nat.add_mul, Nat.mul_comm (ticks / revolutionTicks)]
    omega

theorem advance_selectedDrive (ticks : Nat) :
    (f.advance ticks).selectedDrive = f.selectedDrive.advance ticks := rfl

@[simp] theorem advance_currentTrack (ticks : Nat) :
    (f.advance ticks).currentTrack = f.currentTrack := by
  obtain ⟨hhead, himage, _⟩ := f.selectedDrive.advance_headTrack ticks
  unfold currentTrack
  rw [advance_selectedDrive, himage, hhead]

/-- The stream goes on where it has stopped. -/
theorem stream_add (s t : Nat) : f.stream (s + t) = f.stream s ++ (f.advance s).stream t := by
  rw [stream, stream, stream, FloppyTrack.passed, Circle.passed_add, advance_currentTrack]
  congr 1
  have hadvance : (f.advance s).phase =
      if f.selectedDrive.image.isSome then (f.phase + s) % revolutionTicks else f.phase :=
    f.selectedDrive.advance_phase s
  cases himage : f.selectedDrive.image with
  | none =>
    have hempty : f.currentTrack = {} := by unfold currentTrack; rw [himage]
    rw [hempty, FloppyTrack.passed]
    exact (Circle.passed_nil _ _).trans (Circle.passed_nil _ _).symm
  | some image =>
    rw [himage, Option.isSome_some, if_pos rfl] at hadvance
    rw [hadvance]; rfl

/-- Within one byte time at most one cell passes. -/
theorem stream_length_le_one {ticks : Nat} (h : ticks ≤ byteTicks) : (f.stream ticks).length ≤ 1 :=
  Circle.passed_length_le_one byteTicks_pos f.currentTrack.spaced f.phase_lt h
    (Nat.le_trans h (by decide))

/-! ## Storing cells -/

/-- What a transition needs to reach the medium. -/
structure Writable : Prop where
  headLoaded : f.headLoaded = true
  writable : f.selectedDrive.writeProtected = false

/-- The subsystem with another track under the head. -/
def setCurrentTrack (track : FloppyTrack) : FloppySubsystem :=
  f.modify f.selectedDriveIndex fun d =>
    { d with image := d.image.map fun image => image.put d.headTrack track }

variable {f}

theorem modify_congr {i : Fin 2} {g g' : FloppyDrive → FloppyDrive}
    (h : g (f.drives i) = g' (f.drives i)) : f.modify i g = f.modify i g' := by
  unfold modify
  congr 1
  funext j
  by_cases hj : j = i
  · rw [if_pos hj, if_pos hj, hj, h]
  · rw [if_neg hj, if_neg hj]

theorem modify_fixed {i : Fin 2} {g : FloppyDrive → FloppyDrive} (h : g (f.drives i) = f.drives i) :
    f.modify i g = f := by
  rw [modify_congr (h.trans (id_eq _).symm)]
  simp [modify]

theorem Writable.inserted (h : f.Writable) : f.selectedDrive.image.isSome = true := by
  have hw := h.writable
  unfold FloppyDrive.writeProtected at hw
  cases hi : f.selectedDrive.image with
  | none => simp [hi] at hw
  | some image => rfl

theorem setCurrentTrack_drive (track : FloppyTrack) :
    (f.setCurrentTrack track).selectedDrive = { f.selectedDrive with
      image := f.selectedDrive.image.map fun image => image.put f.selectedDrive.headTrack track } := by
  simp [selectedDrive, setCurrentTrack, modify]

theorem setCurrentTrack_currentTrack (h : f.selectedDrive.image.isSome = true) (track : FloppyTrack) :
    (f.setCurrentTrack track).currentTrack = track := by
  obtain ⟨image, hi⟩ := Option.isSome_iff_exists.mp h
  unfold currentTrack
  rw [setCurrentTrack_drive, hi]
  simp

theorem setCurrentTrack_phase (track : FloppyTrack) : (f.setCurrentTrack track).phase = f.phase := by
  rw [phase, setCurrentTrack_drive]; rfl

theorem setCurrentTrack_twice (t u : FloppyTrack) :
    (f.setCurrentTrack t).setCurrentTrack u = f.setCurrentTrack u := by
  have hput : ∀ (image : FloppyDiskImage) (i : Fin 77), (image.put i t).put i u = image.put i u := by
    intro image i
    simp only [FloppyDiskImage.put, FloppyDiskImage.mk.injEq]
    funext j
    split <;> rfl
  simp only [setCurrentTrack, modify, FloppySubsystem.mk.injEq, and_true]
  funext i
  split
  · cases f.drives i with
    | mk image access completed rotation head => cases image <;> simp [hput]
  · rfl

theorem setCurrentTrack_self (f : FloppySubsystem) : f.setCurrentTrack f.currentTrack = f := by
  have hput : ∀ (image : FloppyDiskImage) (i : Fin 77), image.put i (image.tracks i) = image := by
    intro image i
    cases image with
    | mk tracks =>
      simp only [FloppyDiskImage.put, FloppyDiskImage.mk.injEq]
      funext j
      split
      · rename_i h; rw [h]
      · rfl
  unfold setCurrentTrack modify currentTrack
  cases f with
  | mk drives selected width step direction track loaded =>
    simp only [selectedDrive, FloppySubsystem.mk.injEq, and_true]
    funext i
    by_cases hi : i = selected
    · subst hi
      rw [if_pos rfl]
      cases hd : drives i with
      | mk image access completed rotation head => cases image <;> simp [hput]
    · rw [if_neg hi]

theorem Writable.setCurrentTrack (h : f.Writable) (track : FloppyTrack) :
    (f.setCurrentTrack track).Writable := by
  refine ⟨h.headLoaded, ?_⟩
  have hw := h.writable
  unfold FloppyDrive.writeProtected at hw ⊢
  rw [setCurrentTrack_drive]
  simpa using hw

/-- A cell of the current track is overwritten in place and nothing else changes. -/
theorem writeSelectedByte_of_mem (h : f.Writable) {old byte : TimedFmByte}
    (hold : old ∈ f.currentTrack.bytes) (ht : old.tick = byte.tick) :
    f.writeSelectedByte byte = (true, f.setCurrentTrack (f.currentTrack.overwrite [byte])) := by
  obtain ⟨image, hi⟩ := Option.isSome_iff_exists.mp h.inserted
  have htrack : f.currentTrack = image.tracks f.selectedDrive.headTrack := by
    unfold currentTrack; rw [hi]
  have hwrite : f.selectedDrive.writeByte byte = (true, { f.selectedDrive with
      image := f.selectedDrive.image.map fun image =>
        image.put f.selectedDrive.headTrack (f.currentTrack.overwrite [byte]) }) := by
    rw [htrack] at hold
    have hp := h.writable
    unfold FloppyDrive.writeByte
    rw [hi]
    simp only [hp, FloppyTrack.writeByte_of_mem hold ht, htrack, Option.map_some]
    rfl
  unfold writeSelectedByte
  rw [if_pos h.headLoaded, hwrite]
  refine Prod.ext rfl ?_
  simp only [FloppySubsystem.setCurrentTrack, modify, FloppySubsystem.mk.injEq, and_true]
  funext i
  by_cases hs : i = f.selectedDriveIndex
  · subst hs
    rw [if_pos rfl, if_pos rfl]
    exact congrArg Prod.snd hwrite
  · rw [if_neg hs, if_neg hs]

theorem writeByte_drive (d : FloppyDrive) (byte : TimedFmByte) :
    (d.writeByte byte).2 = d ∨ ∃ image, d.image = some image ∧ (d.writeByte byte).2 =
      { d with
        image := some (image.put d.headTrack ((image.tracks d.headTrack).writeByte byte).2) } := by
  unfold FloppyDrive.writeByte
  split
  · exact .inl rfl
  · rename_i image hi
    split
    · exact .inl rfl
    · exact .inr ⟨image, hi, rfl⟩

/-- A store changes the track under the head, or nothing. -/
theorem writeSelectedByte_track (f : FloppySubsystem) (byte : TimedFmByte) :
    (f.writeSelectedByte byte).2 = f ∨ f.selectedDrive.image.isSome = true ∧
      (f.writeSelectedByte byte).2 = f.setCurrentTrack (f.currentTrack.writeByte byte).2 := by
  unfold writeSelectedByte
  split
  · dsimp only
    rcases writeByte_drive f.selectedDrive byte with hd | ⟨image, hi, hd⟩
    · exact .inl (modify_fixed hd)
    · have htrack : f.currentTrack = image.tracks f.selectedDrive.headTrack := by
        unfold currentTrack; rw [hi]
      refine .inr ⟨by rw [hi]; rfl, modify_congr (hd.trans ?_)⟩
      rw [htrack, show (f.drives f.selectedDriveIndex).image = some image from hi]
      rfl
  · exact .inl rfl

/-! ## The media during a write operation -/

/-- Track `j` of the medium in drive `i`. -/
def cells (f : FloppySubsystem) (i : Fin 2) (j : Fin 77) : Option FloppyTrack :=
  (f.drives i).image.map fun image => image.tracks j

theorem advance_cells (f : FloppySubsystem) (ticks : Nat) (i : Fin 2) (j : Fin 77) :
    (f.advance ticks).cells i j = f.cells i j := by
  obtain ⟨_, himage, _⟩ := (f.drives i).advance_headTrack ticks
  unfold cells
  rw [show (f.advance ticks).drives i = (f.drives i).advance ticks from rfl, himage]

/-- Away from the track under the head. -/
theorem setCurrentTrack_cells (f : FloppySubsystem) (track : FloppyTrack) {i : Fin 2} {j : Fin 77}
    (h : i ≠ f.selectedDriveIndex ∨ j ≠ f.selectedDrive.headTrack) :
    (f.setCurrentTrack track).cells i j = f.cells i j := by
  unfold cells setCurrentTrack modify
  by_cases hi : i = f.selectedDriveIndex
  · subst hi
    have hj : j ≠ (f.drives f.selectedDriveIndex).headTrack := h.resolve_left fun hn => hn rfl
    simp only [if_true, Option.map_map, Function.comp_def, FloppyDiskImage.put_other _ _ hj]
  · simp only [if_neg hi]

theorem Writable.advance (h : f.Writable) (ticks : Nat) : (f.advance ticks).Writable := by
  obtain ⟨_, himage, haccess⟩ := f.selectedDrive.advance_headTrack ticks
  refine ⟨h.headLoaded, ?_⟩
  rw [advance_selectedDrive, FloppyDrive.writeProtected, himage, haccess]
  exact h.writable

/-- `g` is `f` after `elapsed` ticks: the cells of the track under the head may have been rewritten,
but they are where they were. -/
structure Turns (f g : FloppySubsystem) (elapsed : Nat) : Prop where
  ticks : g.currentTrack.bytes.map TimedFmByte.tick = f.currentTrack.bytes.map TimedFmByte.tick
  phase : g.phase = (f.phase + elapsed) % revolutionTicks
  inserted : g.selectedDrive.image.isSome = true

/-- With the cells `written` stored on that track, and nothing else done to the drives. -/
structure Follows (f g : FloppySubsystem) (elapsed : Nat) (written : List TimedFmByte) : Prop where
  track : g.currentTrack = f.currentTrack.overwrite written
  others : ∀ i j, i ≠ f.selectedDriveIndex ∨ j ≠ f.selectedDrive.headTrack → g.cells i j = f.cells i j
  selected : g.selectedDriveIndex = f.selectedDriveIndex
  head : g.selectedDrive.headTrack = f.selectedDrive.headTrack
  writable : g.Writable
  phase : g.phase = (f.phase + elapsed) % revolutionTicks

variable {g : FloppySubsystem} {elapsed : Nat} {written : List TimedFmByte}

/-- The drives, the selection and the head load are the same. -/
structure Still (f g : FloppySubsystem) : Prop where
  drives : g.drives = f.drives
  selected : g.selectedDriveIndex = f.selectedDriveIndex
  headLoaded : g.headLoaded = f.headLoaded

theorem Still.of_eq (h : g = f) : f.Still g := by
  rw [h]; exact ⟨rfl, rfl, rfl⟩

theorem Still.selectedDrive (h : f.Still g) : g.selectedDrive = f.selectedDrive := by
  rw [FloppySubsystem.selectedDrive, FloppySubsystem.selectedDrive, h.drives, h.selected]

theorem Still.currentTrack (h : f.Still g) : g.currentTrack = f.currentTrack := by
  unfold FloppySubsystem.currentTrack
  rw [h.selectedDrive]

theorem advance_phase (h : g.selectedDrive.image.isSome = true) (ticks : Nat) :
    (g.advance ticks).phase = (g.phase + ticks) % revolutionTicks := by
  have hphase := g.selectedDrive.advance_phase ticks
  rw [if_pos h] at hphase
  exact hphase

namespace Turns

theorem refl (h : f.selectedDrive.image.isSome = true) : f.Turns f 0 :=
  ⟨rfl, (Nat.mod_eq_of_lt f.phase_lt).symm, h⟩

theorem advance (h : f.Turns g elapsed) (ticks : Nat) :
    f.Turns (g.advance ticks) (elapsed + ticks) := by
  obtain ⟨_, himage, _⟩ := g.selectedDrive.advance_headTrack ticks
  refine ⟨by rw [advance_currentTrack]; exact h.ticks, ?_, ?_⟩
  · rw [advance_phase h.inserted, h.phase, Nat.mod_add_mod, Nat.add_assoc]
  · rw [advance_selectedDrive, himage]; exact h.inserted

theorem still {g' : FloppySubsystem} (h : f.Turns g elapsed) (hs : g.Still g') :
    f.Turns g' elapsed :=
  ⟨by rw [hs.currentTrack]; exact h.ticks, by rw [FloppySubsystem.phase, hs.selectedDrive]; exact h.phase,
    by rw [hs.selectedDrive]; exact h.inserted⟩

/-- A store at the tick of a cell. -/
theorem store (h : f.Turns g elapsed) {byte : TimedFmByte}
    (hb : byte.tick ∈ f.currentTrack.bytes.map TimedFmByte.tick) :
    f.Turns (g.writeSelectedByte byte).2 elapsed := by
  rcases g.writeSelectedByte_track byte with he | ⟨hi, he⟩ <;> rw [he]
  · exact h
  · obtain ⟨old, hold, ht⟩ := List.mem_map.mp (h.ticks ▸ hb)
    refine ⟨?_, by rw [setCurrentTrack_phase]; exact h.phase, ?_⟩
    · rw [setCurrentTrack_currentTrack hi, FloppyTrack.writeByte_of_mem hold ht,
        FloppyTrack.overwrite_ticks]
      exact h.ticks
    · rw [setCurrentTrack_drive]
      simpa using hi

/-- The cells to come are at the ticks that would have come on the original track. -/
theorem stream_ticks (h : f.Turns g elapsed) (ticks : Nat) :
    (f.stream (elapsed + ticks)).map TimedFmByte.tick =
      (f.stream elapsed).map TimedFmByte.tick ++ (g.stream ticks).map TimedFmByte.tick := by
  rw [stream, stream, stream, FloppyTrack.passed_ticks, FloppyTrack.passed_ticks,
    FloppyTrack.passed_ticks, Circle.passed_add, h.ticks, h.phase]

end Turns

/-- `g` is `f` after `elapsed` ticks, with a cell at Index under the head. -/
structure Revolves (f g : FloppySubsystem) (elapsed : Nat) : Prop where
  index : ∃ c ∈ g.currentTrack.bytes, c.tick = 0
  phase : g.phase = (f.phase + elapsed) % revolutionTicks

namespace Revolves

theorem refl (h : ∃ c ∈ f.currentTrack.bytes, c.tick = 0) : f.Revolves f 0 :=
  ⟨h, (Nat.mod_eq_of_lt f.phase_lt).symm⟩

/-- A cell needs a medium. -/
theorem inserted (h : f.Revolves g elapsed) : g.selectedDrive.image.isSome = true := by
  obtain ⟨c, hc, _⟩ := h.index
  unfold currentTrack at hc
  cases hi : g.selectedDrive.image with
  | none => rw [hi] at hc; cases hc
  | some image => rfl

theorem advance (h : f.Revolves g elapsed) (ticks : Nat) :
    f.Revolves (g.advance ticks) (elapsed + ticks) :=
  ⟨by rw [advance_currentTrack]; exact h.index,
    by rw [advance_phase h.inserted, h.phase, Nat.mod_add_mod, Nat.add_assoc]⟩

/-- A store at any tick. -/
theorem store (h : f.Revolves g elapsed) (byte : TimedFmByte) :
    f.Revolves (g.writeSelectedByte byte).2 elapsed := by
  rcases g.writeSelectedByte_track byte with he | ⟨hi, he⟩ <;> rw [he]
  · exact h
  · obtain ⟨c, hc, h0⟩ := h.index
    obtain ⟨c', hc', ht⟩ := g.currentTrack.writeByte_keeps byte hc
    refine ⟨⟨c', ?_, ht.trans h0⟩, by rw [setCurrentTrack_phase]; exact h.phase⟩
    rw [setCurrentTrack_currentTrack hi]; exact hc'

end Revolves

namespace Follows

theorem turns (h : f.Follows g elapsed written) : f.Turns g elapsed :=
  ⟨by rw [h.track, FloppyTrack.overwrite_ticks], h.phase, h.writable.inserted⟩

theorem refl (h : f.Writable) : f.Follows f 0 [] :=
  ⟨(FloppyTrack.overwrite_nil _).symm, fun _ _ _ => rfl, rfl, rfl, h,
    (Nat.mod_eq_of_lt f.phase_lt).symm⟩

theorem advance (h : f.Follows g elapsed written) (ticks : Nat) :
    f.Follows (g.advance ticks) (elapsed + ticks) written := by
  obtain ⟨hhead, _, _⟩ := g.selectedDrive.advance_headTrack ticks
  refine ⟨(g.advance_currentTrack ticks).trans h.track, fun i j hij => ?_, h.selected, ?_,
    h.writable.advance ticks, (h.turns.advance ticks).phase⟩
  · rw [advance_cells]; exact h.others i j hij
  · rw [advance_selectedDrive, hhead]; exact h.head

theorem store (h : f.Follows g elapsed written) (more : List TimedFmByte) :
    f.Follows (g.setCurrentTrack (g.currentTrack.overwrite more)) elapsed (written ++ more) := by
  refine ⟨?_, fun i j hij => ?_, h.selected, ?_, h.writable.setCurrentTrack _, ?_⟩
  · rw [setCurrentTrack_currentTrack h.writable.inserted, h.track, FloppyTrack.overwrite_append]
  · rw [setCurrentTrack_cells _ _ (by rw [h.selected, h.head]; exact hij)]
    exact h.others i j hij
  · rw [setCurrentTrack_drive]; exact h.head
  · rw [setCurrentTrack_phase]; exact h.phase

theorem still {g' : FloppySubsystem} (h : f.Follows g elapsed written) (hs : g.Still g') :
    f.Follows g' elapsed written := by
  have hdrive := hs.selectedDrive
  refine ⟨hs.currentTrack.trans h.track, fun i j hij => ?_, hs.selected.trans h.selected, ?_, ⟨?_, ?_⟩,
    (h.turns.still hs).phase⟩
  · rw [cells, hs.drives]; exact h.others i j hij
  · rw [hdrive]; exact h.head
  · exact hs.headLoaded.trans h.writable.headLoaded
  · rw [hdrive]; exact h.writable.writable

end Follows

/-- A cell that passes is on the track. -/
theorem mem_of_stream {ticks : Nat} {c : TimedFmByte} (h : c ∈ f.stream ticks) :
    c ∈ f.currentTrack.bytes := FloppyTrack.mem_of_passed h

/-- With a cell at Index, the stream meets it at every passage of rotational phase 0. -/
theorem stream_indexes (h : ∃ c ∈ f.currentTrack.bytes, c.tick = 0) (ticks : Nat) :
    Circle.indexes TimedFmByte.tick (f.stream ticks) =
      Circle.crossings revolutionTicks f.phase ticks :=
  (Circle.indexes_passed f.currentTrack.sorted _ _).trans (if_pos h)

/-! ## The cells behind the head -/

/-- The position of the last of some cells, or the one noted before them. -/
def lastTick (tick : Nat) (cells : List TimedFmByte) : Nat := cells.foldl (fun _ c => c.tick) tick

/-- Since the position `first` has passed the head, the cells at `ticks` have, and no others. -/
def Trail (f : FloppySubsystem) (first : Nat) (ticks : List Nat) : Prop :=
  ∃ since, f.phase = (first + since) % revolutionTicks ∧
    (f.currentTrack.passed first since).map TimedFmByte.tick = ticks

namespace Trail

variable {first : Nat} {ticks : List Nat}

theorem congr (h : f.Trail first ticks)
    (ht : g.currentTrack.bytes.map TimedFmByte.tick = f.currentTrack.bytes.map TimedFmByte.tick)
    (hp : g.phase = f.phase) : g.Trail first ticks := by
  obtain ⟨since, hphase, hpassed⟩ := h
  refine ⟨since, hp.trans hphase, ?_⟩
  rw [← hpassed, FloppyTrack.passed_ticks, FloppyTrack.passed_ticks, ht]

theorem still (h : f.Trail first ticks) (hs : f.Still g) : g.Trail first ticks :=
  h.congr (by rw [hs.currentTrack]) (by rw [phase, phase, hs.selectedDrive])

theorem advance (h : f.Trail first ticks) (hi : f.selectedDrive.image.isSome = true) (n : Nat) :
    (f.advance n).Trail first (ticks ++ (f.stream n).map TimedFmByte.tick) := by
  obtain ⟨since, hphase, hpassed⟩ := h
  refine ⟨since + n, ?_, ?_⟩
  · rw [advance_phase hi, hphase, Nat.mod_add_mod, Nat.add_assoc]
  · rw [advance_currentTrack, FloppyTrack.passed, Circle.passed_add, List.map_append, ← hpassed, stream,
      hphase]
    rfl

/-- The last cell that has passed is still the last one, or a new one is. -/
theorem renew (h : f.Trail first [first]) (hi : f.selectedDrive.image.isSome = true) (n : Nat) :
    (f.advance n).Trail (lastTick first (f.stream n)) [lastTick first (f.stream n)] := by
  rcases List.eq_nil_or_concat (f.stream n) with hcells | ⟨init, z, hcells⟩
  · have hnext := h.advance hi n
    rw [hcells] at hnext ⊢
    exact hnext
  · rw [List.concat_eq_append] at hcells
    obtain ⟨since, hphase, hlast⟩ := Circle.passed_last byteTicks_pos f.currentTrack.spaced
      (by decide) hcells
    have hz : lastTick first (f.stream n) = z.tick := by rw [hcells, lastTick, List.foldl_append]; rfl
    rw [hz]
    refine ⟨since, ?_, ?_⟩
    · rw [advance_phase hi, hphase]
    · rw [advance_currentTrack, FloppyTrack.passed, hlast]; rfl

/-- As many of them as the track has cells are the cells from the first on, in rotational order. -/
theorem rotation (h : f.Trail first (first :: ticks)) {t : FloppyTrack}
    (ht : t.bytes.map TimedFmByte.tick = f.currentTrack.bytes.map TimedFmByte.tick) :
    t.InRotation ((first :: ticks).take t.bytes.length) := by
  obtain ⟨since, _, hpassed⟩ := h
  rw [FloppyTrack.passed_ticks, ← ht, ← FloppyTrack.passed_ticks] at hpassed
  have hmem : first ∈ (t.passed first since).map TimedFmByte.tick := by
    rw [hpassed]; simp
  obtain ⟨c, hc, rfl⟩ := List.mem_map.mp hmem
  obtain ⟨xs, ys, hbytes⟩ := List.append_of_mem (FloppyTrack.mem_of_passed hc)
  refine ⟨xs, c, ys, hbytes, ?_⟩
  have hsorted := t.sorted
  have hlt := t.spaced.lt
  rw [← hpassed, FloppyTrack.passed]
  rw [hbytes] at hsorted hlt ⊢
  rw [← List.map_take]
  exact (Circle.passed_take_turn hsorted hlt since).map TimedFmByte.tick

end Trail

end FloppySubsystem
end FK1
