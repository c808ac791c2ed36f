import FK1.FloppyStream
import FK1.Lib.Run

/-!
# FK1.TimeSplit

Turning the drives in several steps: the cells handed out and the position afterwards are those of one
step of the same length, for the selected drive and for the other one.
-/

namespace FK1

/-! ## One drive -/

namespace FloppyDrive

variable (d : FloppyDrive)

theorem advance_of_empty (h : d.image = none) (ticks : Nat) : d.advance ticks = d := by
  unfold advance
  rw [h]

/-- The revolutions completed count the passages of Index. -/
theorem advance_revolutions (h : d.image.isSome = true) (ticks : Nat) :
    (d.advance ticks).completedRevolutions =
      d.completedRevolutions + (d.rotationPhase.val + ticks) / revolutionTicks := by
  obtain ⟨image, himage⟩ := Option.isSome_iff_exists.mp h
  have hphase := Nat.div_eq_of_lt d.rotationPhase.isLt
  unfold advance
  rw [himage]
  dsimp only
  split
  · rename_i hzero
    rw [hzero, Nat.add_zero, hphase, Nat.add_zero]
  · have hturns : d.rotationPhase.val + ticks =
        d.rotationPhase.val + ticks % revolutionTicks + revolutionTicks * (ticks / revolutionTicks) := by
      rw [Nat.add_assoc, Nat.mod_add_div]
    rw [hturns, Nat.add_mul_div_left _ _ (by decide), Nat.add_comm (ticks / revolutionTicks)]

/-- Two drives that agree in all that turning changes, and in the rest. -/
theorem eq_of_turned {d d' : FloppyDrive} (himage : d.image = d'.image) (haccess : d.access = d'.access)
    (hhead : d.headTrack = d'.headTrack) (hphase : d.rotationPhase.val = d'.rotationPhase.val)
    (hrevolutions : d.completedRevolutions = d'.completedRevolutions) : d = d' := by
  cases d
  cases d'
  simp only at himage haccess hhead hphase hrevolutions
  rw [himage, haccess, hhead, hrevolutions, Fin.ext hphase]

theorem advance_add (s t : Nat) : (d.advance s).advance t = d.advance (s + t) := by
  obtain ⟨hhead, himage, haccess⟩ := d.advance_headTrack s
  obtain ⟨hhead', himage', haccess'⟩ := (d.advance s).advance_headTrack t
  obtain ⟨hhead'', himage'', haccess''⟩ := d.advance_headTrack (s + t)
  cases hempty : d.image with
  | none => rw [d.advance_of_empty hempty, d.advance_of_empty hempty, d.advance_of_empty hempty]
  | some image =>
    have hdisk : d.image.isSome = true := by rw [hempty]; rfl
    have hdisk' : (d.advance s).image.isSome = true := by rw [himage]; exact hdisk
    have hphase : (d.advance s).rotationPhase.val = (d.rotationPhase.val + s) % revolutionTicks := by
      rw [d.advance_phase, if_pos hdisk]
    refine eq_of_turned (by rw [himage', himage, himage'']) (by rw [haccess', haccess, haccess''])
      (by rw [hhead', hhead, hhead'']) ?_ ?_
    · rw [advance_phase, if_pos hdisk', hphase, advance_phase, if_pos hdisk, Nat.mod_add_mod,
        Nat.add_assoc]
    · rw [advance_revolutions _ hdisk', advance_revolutions _ hdisk, advance_revolutions _ hdisk, hphase,
        Nat.add_assoc]
      congr 1
      -- the turns of the first step, and those from where it has stopped
      have hsplit := Nat.mod_add_div (d.rotationPhase.val + s) revolutionTicks
      have hsum : d.rotationPhase.val + (s + t) = (d.rotationPhase.val + s) % revolutionTicks + t +
          revolutionTicks * ((d.rotationPhase.val + s) / revolutionTicks) := by
        omega
      rw [hsum, Nat.add_mul_div_left _ _ (by decide), Nat.add_comm]

end FloppyDrive

/-! ## The subsystem -/

namespace FloppySubsystem

variable (f : FloppySubsystem)

theorem advance_add (s t : Nat) : (f.advance s).advance t = f.advance (s + t) := by
  unfold advance
  dsimp only
  congr 1
  funext i
  exact (f.drives i).advance_add s t

theorem advance_zero : f.advance 0 = f := by
  have hdrive : ∀ d : FloppyDrive, d.advance 0 = d := by
    intro d
    unfold FloppyDrive.advance
    split <;> rfl
  have hdrives : (fun i => (f.drives i).advance 0) = f.drives := funext fun i => hdrive _
  unfold advance
  rw [hdrives]

theorem run_advance (steps : List Nat) : Run.run advance f steps = f.advance steps.sum := by
  induction steps generalizing f with
  | nil => exact f.advance_zero.symm
  | cons ticks steps ih => rw [Run.run_cons, ih, advance_add, List.sum_cons]

/-- The bytes handed to the callback over several steps. -/
def emitted (f : FloppySubsystem) : List Nat → List TimedFmByte
  | [] => []
  | ticks :: steps => f.visitBytes ticks ++ (f.advance ticks).emitted steps

theorem emitted_eq_stream (steps : List Nat) : f.emitted steps = f.stream steps.sum := by
  induction steps generalizing f with
  | nil => rfl
  | cons ticks steps ih =>
    rw [emitted, ih, visitBytes_eq_stream, List.sum_cons, stream_add]

/-- A cell is met once for each time its tick is passed. -/
theorem count_stream {c : TimedFmByte} (hc : c ∈ f.currentTrack.bytes) (ticks : Nat) :
    (f.stream ticks).count c =
      (List.range ticks).countP fun i => decide ((f.phase + i) % revolutionTicks = c.tick) := by
  have hsorted := f.currentTrack.sorted
  have hnodup : f.currentTrack.bytes.Nodup := hsorted.imp fun hlt he => by rw [he] at hlt; omega
  unfold stream FloppyTrack.passed Circle.passed
  induction List.range ticks with
  | nil => rfl
  | cons i is ih =>
    rw [List.flatMap_cons, List.count_append, ih, List.countP_cons, Nat.add_comm]
    congr 1
    by_cases htick : (f.phase + i) % revolutionTicks = c.tick
    · have hmem : c ∈ f.currentTrack.bytes.filter fun x => x.tick == (f.phase + i) % revolutionTicks :=
        List.mem_filter.mpr ⟨hc, beq_iff_eq.mpr htick.symm⟩
      rw [if_pos (decide_eq_true htick)]
      rw [(hnodup.sublist List.filter_sublist).count, if_pos hmem]
    · rw [if_neg (by rw [decide_eq_true_eq]; exact htick)]
      refine List.count_eq_zero.mpr fun hmem => htick ?_
      exact (beq_iff_eq.mp (List.mem_filter.mp hmem).2).symm

/-- However the time is split, the cells of the selected drive's track come in rotational order, each
as often as its tick is passed, and every drive with a medium has turned by the whole time. -/
theorem time_split_invisible (steps : List Nat) :
    f.emitted steps = f.visitBytes steps.sum ∧
      f.visitBytes steps.sum = ((List.range steps.sum).flatMap fun i =>
        f.currentTrack.bytes.filter fun c => c.tick == (f.phase + i) % revolutionTicks) ∧
      (∀ c ∈ f.currentTrack.bytes, (f.visitBytes steps.sum).count c =
        (List.range steps.sum).countP fun i =>
          decide ((f.phase + i) % revolutionTicks = c.tick)) ∧
      Run.run advance f steps = f.advance steps.sum ∧
      ∀ i, let d := f.drives i
        let d' := (Run.run advance f steps).drives i
        (d.image = none → d' = d) ∧
          (d.image.isSome = true →
            d'.rotationPhase.val = (d.rotationPhase.val + steps.sum) % revolutionTicks ∧
              d'.completedRevolutions = d.completedRevolutions
                + (d.rotationPhase.val + steps.sum) / revolutionTicks ∧
              d'.image = d.image ∧ d'.access = d.access ∧ d'.headTrack = d.headTrack) := by
  refine ⟨?_, ?_, fun c hc => ?_, f.run_advance steps, fun i => ?_⟩
  · rw [emitted_eq_stream, visitBytes_eq_stream]
  · rw [visitBytes_eq_stream]
    rfl
  · rw [visitBytes_eq_stream]
    exact f.count_stream hc _
  · intro d d'
    have hd' : d' = d.advance steps.sum := by
      show (Run.run advance f steps).drives i = _
      rw [run_advance]
      rfl
    obtain ⟨hhead, himage, haccess⟩ := d.advance_headTrack steps.sum
    rw [hd']
    refine ⟨fun hempty => d.advance_of_empty hempty _, fun hdisk => ?_⟩
    exact ⟨by rw [d.advance_phase, if_pos hdisk], d.advance_revolutions hdisk _, himage, haccess, hhead⟩

end FloppySubsystem
end FK1
