import FK1.Ppi8255
import FK1.Lib.Circle

/-!
# FK1.Floppy

Tracks, media, drives and the drive subsystem of `floppy.cpp`.

A track is a list of FM cells in order of tick. `FloppyTrack` carries the representation invariant
(`Circle.Spaced`: ticks below one revolution, increasing, 384 apart around the circle), so
`setBytes` and `writeByte` are the source's computations on the list together with the proof that
what they accept is spaced again (`setBytesAccepts_iff`, `writeByte?_spaced`).
-/

namespace FK1

structure TimedFmByte where
  tick : Nat := 0
  data : Byte := 0#8
  clocks : Byte := 0xFF#8
  deriving DecidableEq, Repr

def byteTicks : Nat := 384

def revolutionTicks : Nat := 2000000

/-- The tracks of a medium. -/
instance neZeroTracks : NeZero 77 := Nat.instNeZeroSucc

/-- The representation invariant of a track. -/
abbrev TrackSpaced (bytes : List TimedFmByte) : Prop :=
  Circle.Spaced TimedFmByte.tick revolutionTicks byteTicks bytes

/-! ## The checks of `set_bytes` -/

/-- `std::is_sorted` by tick. -/
def ticksSorted : List TimedFmByte → Bool
  | left :: right :: rest => !decide (right.tick < left.tick) && ticksSorted (right :: rest)
  | _ => true

/-- The loop over the bytes; `previous` is `bytes[index - 1]`. -/
def ticksApart (previous : Option TimedFmByte) : List TimedFmByte → Bool
  | [] => true
  | byte :: rest =>
    if byte.tick ≥ revolutionTicks then false
    else if previous.any (fun p => byte.tick - p.tick < byteTicks) then false
    else ticksApart (some byte) rest

def setBytesAccepts (bytes : List TimedFmByte) : Bool :=
  ticksSorted bytes && ticksApart none bytes &&
    match bytes.head?, bytes.getLast? with
    | some front, some back =>
      !(decide (bytes.length > 1) && decide (front.tick + revolutionTicks - back.tick < byteTicks))
    | _, _ => true

/-- Without the wrap: what the sorted and spaced checks say of a list after `previous`. -/
theorem ticksApart_iff (previous : TimedFmByte) (bytes : List TimedFmByte) :
    (ticksSorted (previous :: bytes) ∧ ticksApart (some previous) bytes) ↔
      (∀ x ∈ bytes, x.tick < revolutionTicks) ∧
        (previous :: bytes).Pairwise fun x y => x.tick + byteTicks ≤ y.tick := by
  induction bytes generalizing previous with
  | nil => simp [ticksSorted, ticksApart]
  | cons byte rest ih =>
    have hstep : (ticksSorted (previous :: byte :: rest) ∧ ticksApart (some previous) (byte :: rest)) ↔
        byte.tick < revolutionTicks ∧ previous.tick + byteTicks ≤ byte.tick ∧
          (ticksSorted (byte :: rest) ∧ ticksApart (some byte) rest) := by
      simp only [ticksSorted, ticksApart, Option.any_some, byteTicks]
      grind
    rw [hstep, ih byte]
    simp only [List.pairwise_cons, List.mem_cons, forall_eq_or_imp]
    constructor
    · rintro ⟨hlt, hgap, hall, hnext, hrest⟩
      refine ⟨⟨hlt, hall⟩, ⟨hgap, fun x hx => ?_⟩, hnext, hrest⟩
      have := hnext x hx; omega
    · rintro ⟨⟨hlt, hall⟩, ⟨hgap, _⟩, hnext, hrest⟩
      exact ⟨hlt, hgap, hall, hnext, hrest⟩

theorem le_getLast_of_apart {bytes : List TimedFmByte} {last : TimedFmByte}
    (h : bytes.Pairwise fun x y => x.tick + byteTicks ≤ y.tick) (hl : bytes.getLast? = some last) :
    ∀ x ∈ bytes, x.tick ≤ last.tick := by
  obtain ⟨init, rfl⟩ : ∃ init, bytes = init ++ [last] := by
    rw [List.getLast?_eq_some_iff] at hl; exact hl
  obtain ⟨_, _, hlast⟩ := List.pairwise_append.mp h
  intro x hx
  rcases List.mem_append.mp hx with hx | hx
  · have := hlast x hx last (by simp); omega
  · obtain rfl := List.mem_singleton.mp hx
    exact Nat.le_refl _

/-- With front and back far enough apart through the wrap, every pair is. -/
theorem wrap_iff {front : TimedFmByte} {rest : List TimedFmByte}
    (h : (front :: rest).Pairwise fun x y => x.tick + byteTicks ≤ y.tick) {back : TimedFmByte}
    (hb : (front :: rest).getLast? = some back) (hr : rest ≠ []) :
    byteTicks ≤ front.tick + revolutionTicks - back.tick ↔
      (front :: rest).Pairwise fun x y =>
        x.tick + byteTicks ≤ y.tick ∧ y.tick + byteTicks ≤ x.tick + revolutionTicks := by
  have hle := le_getLast_of_apart h hb
  obtain ⟨hfront, _⟩ := List.pairwise_cons.mp h
  constructor
  · intro hw
    refine h.imp_of_mem fun {x y} hx hy hxy => ⟨hxy, ?_⟩
    have hy := hle y hy
    have hx : front.tick ≤ x.tick := by
      rcases List.mem_cons.mp hx with rfl | hx
      · exact Nat.le_refl _
      · have := hfront x hx; omega
    simp only [byteTicks, revolutionTicks] at *; omega
  · intro hp
    obtain ⟨hp, _⟩ := List.pairwise_cons.mp hp
    have hmem : back ∈ rest := by
      cases rest with
      | nil => exact absurd rfl hr
      | cons r rs =>
        rw [List.getLast?_cons_cons] at hb
        exact List.mem_of_getLast? hb
    have := (hp back hmem).2
    simp only [byteTicks, revolutionTicks] at *; omega

/-- `set_bytes` accepts exactly the spaced lists. -/
theorem setBytesAccepts_iff (bytes : List TimedFmByte) : setBytesAccepts bytes ↔ TrackSpaced bytes := by
  cases bytes with
  | nil => simp [setBytesAccepts, ticksSorted, ticksApart, Circle.Spaced.nil]
  | cons front rest =>
    obtain ⟨back, hback⟩ : ∃ back, (front :: rest).getLast? = some back :=
      ⟨_, List.getLast?_eq_some_getLast (by simp)⟩
    have hchecks : (ticksSorted (front :: rest) ∧ ticksApart none (front :: rest)) ↔
        (∀ x ∈ front :: rest, x.tick < revolutionTicks) ∧
          (front :: rest).Pairwise fun x y => x.tick + byteTicks ≤ y.tick := by
      have := ticksApart_iff front rest
      simp only [ticksApart, Option.any_none, List.mem_cons, forall_eq_or_imp] at *
      grind
    have hwrap : setBytesAccepts (front :: rest) ↔
        (ticksSorted (front :: rest) ∧ ticksApart none (front :: rest)) ∧
          (rest ≠ [] → byteTicks ≤ front.tick + revolutionTicks - back.tick) := by
      simp only [setBytesAccepts, List.head?_cons, hback, Bool.and_eq_true, Bool.not_eq_true',
        Bool.and_eq_false_iff, decide_eq_false_iff_not, List.length_cons]
      cases rest <;> simp
    rw [hwrap, hchecks]
    constructor
    · rintro ⟨⟨hlt, hp⟩, hw⟩
      refine ⟨hlt, ?_⟩
      by_cases hr : rest = []
      · subst hr; simp
      · exact (wrap_iff hp hback hr).mp (hw hr)
    · rintro ⟨hlt, hp⟩
      have hp' := hp.imp fun h => h.1
      exact ⟨⟨hlt, hp'⟩, fun hr => (wrap_iff hp' hback hr).mpr hp⟩

/-! ## `write_byte` -/

/-- The bytes after `write_byte`, or `none` where it returns false. -/
def writeByte? (bytes : List TimedFmByte) (byte : TimedFmByte) : Option (List TimedFmByte) :=
  if byte.tick ≥ revolutionTicks then none
  else match bytes with
    | [] => some [byte]
    | front :: others =>
      -- `std::lower_bound` by tick splits the bytes in two
      let before := (front :: others).takeWhile (·.tick < byte.tick)
      let position := (front :: others).dropWhile (·.tick < byte.tick)
      if position.head?.any (·.tick = byte.tick) then some (before ++ byte :: position.tail)
      else
        let previous := before.getLastD ((front :: others).getLastD front)
        let next := position.headD front
        let distanceFromPrevious :=
          byte.tick + (if previous.tick > byte.tick then revolutionTicks else 0) - previous.tick
        let distanceToNext :=
          next.tick + (if next.tick < byte.tick then revolutionTicks else 0) - byte.tick
        if distanceFromPrevious < byteTicks ∨ distanceToNext < byteTicks then none
        else some (before ++ byte :: position)

/-- Rewriting a byte that is there replaces it in place. -/
theorem writeByte?_of_mem {bytes : List TimedFmByte} (h : TrackSpaced bytes) {old byte : TimedFmByte}
    (hold : old ∈ bytes) (ht : old.tick = byte.tick) :
    writeByte? bytes byte = some (bytes.map fun c => if c.tick = byte.tick then byte else c) := by
  obtain ⟨rest, hrest⟩ := Circle.exists_dropWhile_of_mem (by decide) h hold
  rw [ht] at hrest
  have hlt : ¬ byte.tick ≥ revolutionTicks := by have := h.lt old hold; omega
  cases bytes with
  | nil => cases hold
  | cons front others =>
    simp only [writeByte?, if_neg hlt, hrest, List.head?_cons, Option.any_some, ht, decide_true, if_true,
      List.tail_cons]
    exact congrArg some (Circle.replace_eq_map (by decide) h hrest ht)

/-- The two neighbours `write_byte` finds for a new tick, on the split at that tick. -/
theorem neighbours_of_split {before position : List TimedFmByte} {front : TimedFmByte}
    {others : List TimedFmByte} (hsplit : before ++ position = front :: others) :
    (before.getLast? = some (before.getLastD ((front :: others).getLastD front)) ∨
      before = [] ∧ position.getLast? = some (before.getLastD ((front :: others).getLastD front))) ∧
    (position.head? = some (position.headD front) ∨
      position = [] ∧ before.head? = some (position.headD front)) := by
  cases before with
  | nil =>
    rw [List.nil_append] at hsplit; subst hsplit
    simp [List.getLast?_eq_some_getLast]
  | cons b bs =>
    cases position with
    | nil =>
      rw [List.append_nil] at hsplit; rw [hsplit]
      simp [List.getLast?_eq_some_getLast]
    | cons p ps => simp [List.getLast?_eq_some_getLast]

/-- A byte at a new tick goes between its neighbours when it is far enough from every other one. -/
theorem writeByte?_of_new {bytes : List TimedFmByte} (h : TrackSpaced bytes) {byte : TimedFmByte}
    (hlt : byte.tick < revolutionTicks) (hnew : ∀ old ∈ bytes, old.tick ≠ byte.tick) :
    writeByte? bytes byte =
      if (∀ x ∈ bytes.takeWhile (·.tick < byte.tick),
            x.tick + byteTicks ≤ byte.tick ∧ byte.tick + byteTicks ≤ x.tick + revolutionTicks) ∧
          ∀ y ∈ bytes.dropWhile (·.tick < byte.tick),
            byte.tick + byteTicks ≤ y.tick ∧ y.tick + byteTicks ≤ byte.tick + revolutionTicks then
        some (bytes.takeWhile (·.tick < byte.tick) ++ byte :: bytes.dropWhile (·.tick < byte.tick))
      else none := by
  unfold writeByte?
  rw [if_neg (by omega)]
  cases bytes with
  | nil => simp
  | cons front others =>
    have hs := h.sorted (by decide)
    have hbefore : ∀ x ∈ (front :: others).takeWhile (fun c => decide (c.tick < byte.tick)),
        x.tick < byte.tick := Circle.takeWhile_lt
    have hafter : ∀ y ∈ (front :: others).dropWhile (fun c => decide (c.tick < byte.tick)),
        byte.tick ≤ y.tick := Circle.dropWhile_ge hs
    have hsplit := List.takeWhile_append_dropWhile
      (p := fun c => decide (TimedFmByte.tick c < byte.tick)) (l := front :: others)
    dsimp only
    generalize (front :: others).takeWhile (fun c => decide (c.tick < byte.tick)) = before at *
    generalize (front :: others).dropWhile (fun c => decide (c.tick < byte.tick)) = position at *
    have hlater : ∀ y ∈ position, byte.tick < y.tick := by
      intro y hy
      have hge := hafter y hy
      have hne := hnew y (by rw [← hsplit]; simp [hy])
      omega
    have hnot : ¬ position.head?.any (fun c => decide (c.tick = byte.tick)) = true := by
      cases position with
      | nil => simp
      | cons y ys => have := hlater y (by simp); simp; omega
    obtain ⟨hprev, hnext⟩ := neighbours_of_split hsplit
    rw [← hsplit] at h
    have hfar := Circle.neighbours_iff (by decide) h hlt hbefore hlater hprev hnext
    rw [if_neg hnot]
    by_cases hall : (∀ x ∈ before, x.tick + byteTicks ≤ byte.tick ∧
        byte.tick + byteTicks ≤ x.tick + revolutionTicks) ∧
      ∀ y ∈ position, byte.tick + byteTicks ≤ y.tick ∧
        y.tick + byteTicks ≤ byte.tick + revolutionTicks
    · obtain ⟨hp, hn⟩ := hfar.mpr hall
      rw [if_pos hall, if_neg (by rw [not_or]; exact ⟨Nat.not_lt.mpr hp, Nat.not_lt.mpr hn⟩)]
    · rw [if_neg hall, if_pos]
      refine Decidable.byContradiction fun hclose => ?_
      rw [not_or, Nat.not_lt, Nat.not_lt] at hclose
      exact hall (hfar.mp hclose)

theorem writeByte?_of_late {bytes : List TimedFmByte} {byte : TimedFmByte}
    (hlt : ¬byte.tick < revolutionTicks) : writeByte? bytes byte = none := by
  unfold writeByte?
  rw [if_pos (by omega)]

/-- An accepted write keeps the track spaced. -/
theorem writeByte?_spaced {bytes bytes' : List TimedFmByte} {byte : TimedFmByte}
    (h : TrackSpaced bytes) (hw : writeByte? bytes byte = some bytes') : TrackSpaced bytes' := by
  by_cases hlt : byte.tick < revolutionTicks
  · by_cases hmem : ∃ old ∈ bytes, old.tick = byte.tick
    · obtain ⟨old, hold, ht⟩ := hmem
      rw [writeByte?_of_mem h hold ht] at hw
      cases hw
      refine h.update fun c => ?_
      split <;> simp_all
    · rw [writeByte?_of_new h hlt fun old hold ht => hmem ⟨old, hold, ht⟩] at hw
      obtain ⟨hfar, hbytes⟩ := Option.ite_none_right_eq_some.mp hw
      cases hbytes
      have hsplit := List.takeWhile_append_dropWhile
        (p := fun c => decide (TimedFmByte.tick c < byte.tick)) (l := bytes)
      rw [← hsplit] at h
      exact h.insert hlt hfar.1 hfar.2
  · rw [writeByte?_of_late hlt] at hw
    cases hw

/-- An accepted write leaves no tick without its cell. -/
theorem writeByte?_keeps {bytes bytes' : List TimedFmByte} {byte : TimedFmByte}
    (hw : writeByte? bytes byte = some bytes') {c : TimedFmByte} (hc : c ∈ bytes) :
    ∃ c' ∈ bytes', c'.tick = c.tick := by
  unfold writeByte? at hw
  split at hw
  · cases hw
  split at hw
  · cases hc
  rename_i front others
  have hsplit := List.takeWhile_append_dropWhile
    (p := fun c => decide (TimedFmByte.tick c < byte.tick)) (l := front :: others)
  generalize (front :: others).takeWhile (fun c => decide (c.tick < byte.tick)) = before at *
  generalize (front :: others).dropWhile (fun c => decide (c.tick < byte.tick)) = position at *
  rw [← hsplit, List.mem_append] at hc
  dsimp only at hw
  split at hw
  · rename_i hhead
    cases position with
    | nil => cases hhead
    | cons head rest =>
      have htick : head.tick = byte.tick := by simpa using hhead
      cases hw
      rcases hc with hc | hc
      · exact ⟨c, by simp [hc], rfl⟩
      · rcases List.mem_cons.mp hc with rfl | hc
        · exact ⟨byte, by simp, htick.symm⟩
        · exact ⟨c, by simp [hc], rfl⟩
  · rw [Option.ite_none_left_eq_some] at hw
    obtain ⟨_, he⟩ := hw
    cases he
    rcases hc with hc | hc
    · exact ⟨c, by simp [hc], rfl⟩
    · exact ⟨c, by simp [hc], rfl⟩

/-! ## Tracks and media -/

structure FloppyTrack where
  bytes : List TimedFmByte := []
  spaced : TrackSpaced bytes := by exact Circle.Spaced.nil

namespace FloppyTrack

def setBytes (t : FloppyTrack) (bytes : List TimedFmByte) : Bool × FloppyTrack :=
  if h : setBytesAccepts bytes then (true, ⟨bytes, (setBytesAccepts_iff bytes).mp h⟩) else (false, t)

def writeByte (t : FloppyTrack) (byte : TimedFmByte) : Bool × FloppyTrack :=
  match h : writeByte? t.bytes byte with
  | some bytes => (true, ⟨bytes, writeByte?_spaced t.spaced h⟩)
  | none => (false, t)

def clear (_ : FloppyTrack) : FloppyTrack := {}

theorem writeByte_of_some {t : FloppyTrack} {byte : TimedFmByte} {bytes : List TimedFmByte}
    (h : writeByte? t.bytes byte = some bytes) :
    (t.writeByte byte).1 = true ∧ (t.writeByte byte).2.bytes = bytes := by
  unfold writeByte
  split
  · rename_i hb; rw [hb] at h; cases h; exact ⟨rfl, rfl⟩
  · rename_i hb; rw [hb] at h; cases h

theorem writeByte_keeps (t : FloppyTrack) (byte : TimedFmByte) {c : TimedFmByte} (hc : c ∈ t.bytes) :
    ∃ c' ∈ (t.writeByte byte).2.bytes, c'.tick = c.tick := by
  unfold writeByte
  split
  · rename_i hb; exact writeByte?_keeps hb hc
  · exact ⟨c, hc, rfl⟩

end FloppyTrack

structure FloppyDiskImage where
  tracks : Fin 77 → FloppyTrack := fun _ => {}

namespace FloppyDiskImage

def track (image : FloppyDiskImage) (trackIndex : Nat) : Option FloppyTrack :=
  if h : trackIndex < 77 then some (image.tracks ⟨trackIndex, h⟩) else none

/-- The image with `track` at `trackIndex`. -/
def put (image : FloppyDiskImage) (trackIndex : Fin 77) (track : FloppyTrack) : FloppyDiskImage :=
  { tracks := fun i => if i = trackIndex then track else image.tracks i }

@[simp] theorem put_self (image : FloppyDiskImage) (i : Fin 77) (t : FloppyTrack) :
    (image.put i t).tracks i = t := by simp [put]

@[simp] theorem put_other (image : FloppyDiskImage) {i j : Fin 77} (t : FloppyTrack) (h : j ≠ i) :
    (image.put i t).tracks j = image.tracks j := by simp [put, h]

def setTrack (image : FloppyDiskImage) (trackIndex : Nat) (bytes : List TimedFmByte) :
    Bool × FloppyDiskImage :=
  if h : trackIndex < 77 then
    let result := (image.tracks ⟨trackIndex, h⟩).setBytes bytes
    (result.1, image.put ⟨trackIndex, h⟩ result.2)
  else (false, image)

end FloppyDiskImage

inductive FloppyAccess where
  | readOnly
  | readWrite
  deriving DecidableEq, Repr

/-! ## Drives -/

structure FloppyDrive where
  image : Option FloppyDiskImage := none
  access : FloppyAccess := .readOnly
  completedRevolutions : Nat := 0
  rotationPhase : Fin revolutionTicks := ⟨0, by decide⟩
  headTrack : Fin 77 := 0

namespace FloppyDrive

def insert (d : FloppyDrive) (image : FloppyDiskImage) (access : FloppyAccess) : FloppyDrive :=
  { d with image := some image, access := access }

def eject (d : FloppyDrive) : Option FloppyDiskImage × FloppyDrive :=
  (d.image, { d with image := none, access := .readOnly })

/-- `visit_interval`: the bytes from `begin` up to, not including, `end`. -/
def visitInterval (bytes : List TimedFmByte) (fromTick toTick : Nat) : List TimedFmByte :=
  (bytes.dropWhile (·.tick < fromTick)).takeWhile (·.tick < toTick)

/-- The loop of `visit_bytes`, one turn of the medium per round. -/
def visitLoop (bytes : List TimedFmByte) : Nat → Nat → Nat → List TimedFmByte
  | 0, _, _ => []
  | fuel + 1, remaining, phase =>
    if remaining = 0 then []
    else
      let interval := min remaining (revolutionTicks - phase)
      visitInterval bytes phase (phase + interval) ++ visitLoop bytes fuel (remaining - interval) 0

/-- The bytes `visit_bytes` hands to its callback, in order. -/
def visitBytes (d : FloppyDrive) (masterTicks : Nat) : List TimedFmByte :=
  match d.image with
  | none => []
  | some image =>
    visitLoop (image.tracks d.headTrack).bytes (masterTicks / revolutionTicks + 2) masterTicks
      d.rotationPhase

def advance (d : FloppyDrive) (masterTicks : Nat) : FloppyDrive :=
  match d.image with
  | none => d
  | some _ =>
    if masterTicks = 0 then d
    else
      let wholeRevolutions := masterTicks / revolutionTicks
      let remainingTicks := masterTicks % revolutionTicks
      let phaseSum := d.rotationPhase.val + remainingTicks
      { d with
        completedRevolutions := d.completedRevolutions + (wholeRevolutions + phaseSum / revolutionTicks)
        rotationPhase := ⟨phaseSum % revolutionTicks, Nat.mod_lt _ (by decide)⟩ }

def writeProtected (d : FloppyDrive) : Bool := d.image.isNone || d.access == .readOnly

def writeByte (d : FloppyDrive) (byte : TimedFmByte) : Bool × FloppyDrive :=
  match d.image with
  | none => (false, d)
  | some image =>
    if d.writeProtected then (false, d)
    else
      let result := (image.tracks d.headTrack).writeByte byte
      (result.1, { d with image := some (image.put d.headTrack result.2) })

def stepTowardTrackZero (d : FloppyDrive) : FloppyDrive :=
  if d.headTrack.val ≠ 0 then { d with headTrack := ⟨d.headTrack.val - 1, by omega⟩ } else d

def stepTowardHigherTrack (d : FloppyDrive) : FloppyDrive :=
  if h : d.headTrack.val < 76 then { d with headTrack := ⟨d.headTrack.val + 1, by omega⟩ } else d

def mediaPresent (d : FloppyDrive) : Bool := d.image.isSome

def trackZero (d : FloppyDrive) : Bool := d.headTrack == 0

def indexActive (d : FloppyDrive) (pulseWidthTicks : Nat) : Bool :=
  d.image.isSome && pulseWidthTicks != 0 && decide (d.rotationPhase.val < pulseWidthTicks)

end FloppyDrive

/-! ## The drive subsystem -/

/-- `FloppySubsystem::drive_a` and `drive_b`. -/
def driveA : Fin 2 := 0

def driveB : Fin 2 := 1

structure FloppySubsystem where
  drives : Fin 2 → FloppyDrive := fun _ => {}
  selectedDriveIndex : Fin 2 := driveB
  indexPulseWidthTicks : Nat := 0
  stepAsserted : Bool := false
  directionToHigherTrack : Bool := false
  trackGreaterThan43Active : Bool := false
  headLoaded : Bool := false

namespace FloppySubsystem

def selectedDrive (f : FloppySubsystem) : FloppyDrive := f.drives f.selectedDriveIndex

/-- Change one drive. -/
def modify (f : FloppySubsystem) (drive : Fin 2) (g : FloppyDrive → FloppyDrive) : FloppySubsystem :=
  { f with drives := fun i => if i = drive then g (f.drives i) else f.drives i }

def resetController (f : FloppySubsystem) : FloppySubsystem :=
  { f with
    selectedDriveIndex := driveB
    stepAsserted := false
    directionToHigherTrack := false
    trackGreaterThan43Active := false
    headLoaded := false }

/-- The bytes `advance` hands to the callback: those of the selected drive. -/
def visitBytes (f : FloppySubsystem) (masterTicks : Nat) : List TimedFmByte :=
  f.selectedDrive.visitBytes masterTicks

/-- Every drive turns, selected or not. -/
def advance (f : FloppySubsystem) (masterTicks : Nat) : FloppySubsystem :=
  { f with drives := fun i => (f.drives i).advance masterTicks }

def insert (f : FloppySubsystem) (driveIndex : Nat) (image : FloppyDiskImage)
    (access : FloppyAccess) : Bool × FloppySubsystem :=
  if h : driveIndex < 2 then (true, f.modify ⟨driveIndex, h⟩ (·.insert image access)) else (false, f)

def eject (f : FloppySubsystem) (driveIndex : Nat) : Option FloppyDiskImage × FloppySubsystem :=
  if h : driveIndex < 2 then
    ((f.drives ⟨driveIndex, h⟩).eject.1, f.modify ⟨driveIndex, h⟩ fun d => d.eject.2)
  else (none, f)

def writeSelectedByte (f : FloppySubsystem) (byte : TimedFmByte) : Bool × FloppySubsystem :=
  -- With the head unloaded no transition reaches the medium.
  if f.headLoaded then
    ((f.selectedDrive.writeByte byte).1, f.modify f.selectedDriveIndex fun d => (d.writeByte byte).2)
  else (false, f)

def setIndexPulseWidth (f : FloppySubsystem) (masterTicks : Nat) : Bool × FloppySubsystem :=
  if masterTicks ≥ revolutionTicks then (false, f)
  else (true, { f with indexPulseWidthTicks := masterTicks })

def selectFromDiskPpi (f : FloppySubsystem) (effectivePortC : Byte) : FloppySubsystem :=
  { f with selectedDriveIndex := if hasBits effectivePortC 0x20#8 then driveB else driveA }

def setControlPortC (f : FloppySubsystem) (output : Byte) (lowerOutputEnabled : Bool) :
    FloppySubsystem :=
  if !lowerOutputEnabled then
    { f with
      stepAsserted := false
      directionToHigherTrack := false
      trackGreaterThan43Active := false
      headLoaded := false }
  else
    let stepAsserted := hasBits output 0x01#8
    let directionToHigherTrack := hasBits output 0x02#8
    -- The trailing edge of the step signal moves the head of the selected drive.
    let stepped :=
      if f.stepAsserted && !stepAsserted then
        if directionToHigherTrack then f.modify f.selectedDriveIndex (·.stepTowardHigherTrack)
        else f.modify f.selectedDriveIndex (·.stepTowardTrackZero)
      else f
    { stepped with
      stepAsserted := stepAsserted
      directionToHigherTrack := directionToHigherTrack
      trackGreaterThan43Active := hasBits output 0x04#8
      headLoaded := hasBits output 0x08#8 }

def controlPortCInputs (f : FloppySubsystem) : Byte :=
  0x40#8
    ||| (if f.selectedDrive.trackZero then 0x10#8 else 0#8)
    ||| (if f.selectedDrive.writeProtected then 0x20#8 else 0#8)
    ||| (if f.selectedDrive.indexActive f.indexPulseWidthTicks then 0x80#8 else 0#8)

/-! ## The selected drive -/

variable (f : FloppySubsystem)

theorem insert_selected (driveIndex : Nat) (image : FloppyDiskImage) (access : FloppyAccess) :
    (f.insert driveIndex image access).2.selectedDriveIndex = f.selectedDriveIndex := by
  unfold insert; split <;> rfl

theorem eject_selected (driveIndex : Nat) :
    (f.eject driveIndex).2.selectedDriveIndex = f.selectedDriveIndex := by
  unfold eject; split <;> rfl

theorem setIndexPulseWidth_selected (masterTicks : Nat) :
    (f.setIndexPulseWidth masterTicks).2.selectedDriveIndex = f.selectedDriveIndex := by
  unfold setIndexPulseWidth; split <;> rfl

theorem writeSelectedByte_selected (byte : TimedFmByte) :
    (f.writeSelectedByte byte).2.selectedDriveIndex = f.selectedDriveIndex := by
  unfold writeSelectedByte; split <;> rfl

theorem setControlPortC_selected (output : Byte) (enabled : Bool) :
    (f.setControlPortC output enabled).selectedDriveIndex = f.selectedDriveIndex := by
  unfold setControlPortC
  dsimp only
  repeat' split
  all_goals rfl

end FloppySubsystem
end FK1
