import FK1.Floppy
import FK1.Lib.Run

/-!
# FK1.TrackMap

A track as a finite map from ticks to cells (`cell`): what `set_bytes` and `write_byte` accept, in terms
of the circular distance of every two cells, and what an accepted write does to the map.
-/

namespace FK1

/-- Strictly increasing ticks below one revolution, every two of them 384 apart on the circle. -/
def CircularlySpaced (bytes : List TimedFmByte) : Prop :=
  (∀ c ∈ bytes, c.tick < revolutionTicks) ∧ bytes.Pairwise (fun c c' => c.tick < c'.tick) ∧
    bytes.Pairwise fun c c' => byteTicks ≤ Circle.distance revolutionTicks c.tick c'.tick

theorem trackSpaced_iff {bytes : List TimedFmByte} : TrackSpaced bytes ↔ CircularlySpaced bytes :=
  Circle.spaced_iff (by decide)

/-- A write is accepted at a tick that is taken already, or far from every other one. -/
theorem writeByte?_isSome_iff {bytes : List TimedFmByte} (h : TrackSpaced bytes) (c : TimedFmByte) :
    (writeByte? bytes c).isSome ↔ c.tick < revolutionTicks ∧
      ((∃ old ∈ bytes, old.tick = c.tick) ∨
        ∀ old ∈ bytes, byteTicks ≤ Circle.distance revolutionTicks old.tick c.tick) := by
  by_cases hlt : c.tick < revolutionTicks
  · rw [and_iff_right hlt]
    by_cases hmem : ∃ old ∈ bytes, old.tick = c.tick
    · obtain ⟨old, hold, htick⟩ := hmem
      rw [writeByte?_of_mem h hold htick]
      exact iff_of_true rfl (.inl ⟨old, hold, htick⟩)
    · have hnew : ∀ old ∈ bytes, old.tick ≠ c.tick := fun old hold htick => hmem ⟨old, hold, htick⟩
      have hs := h.sorted (by decide)
      have hsplit := List.takeWhile_append_dropWhile
        (p := fun old => decide (TimedFmByte.tick old < c.tick)) (l := bytes)
      have hbefore : ∀ x ∈ bytes.takeWhile (fun old => decide (old.tick < c.tick)),
          x.tick < c.tick := Circle.takeWhile_lt
      have hafter : ∀ y ∈ bytes.dropWhile (fun old => decide (old.tick < c.tick)),
          c.tick ≤ y.tick := Circle.dropWhile_ge hs
      rw [writeByte?_of_new h hlt hnew, Option.isSome_ite, or_iff_right hmem]
      generalize bytes.takeWhile (fun old => decide (old.tick < c.tick)) = before at *
      generalize bytes.dropWhile (fun old => decide (old.tick < c.tick)) = position at *
      subst hsplit
      rw [List.forall_mem_append]
      refine and_congr (forall₂_congr fun x hx => ?_) (forall₂_congr fun y hy => ?_)
      · exact (Circle.apart_iff (by decide) hlt).trans (and_iff_right (hbefore x hx))
      · have hne : c.tick ≠ y.tick := (hnew y (List.mem_append_right before hy)).symm
        have hge := hafter y hy
        rw [Circle.distance_comm]
        exact (Circle.apart_iff (by decide) (h.lt y (List.mem_append_right before hy))).trans
          (and_iff_right (by omega))
  · rw [writeByte?_of_late hlt]
    exact iff_of_false nofun fun hc => hlt hc.1

namespace FloppyTrack

/-- The cell at a tick. -/
def cell (t : FloppyTrack) (tick : Nat) : Option TimedFmByte := t.bytes.find? (·.tick == tick)

variable {t t' : FloppyTrack}

theorem cell_iff (t : FloppyTrack) {tick : Nat} {c : TimedFmByte} :
    t.cell tick = some c ↔ c ∈ t.bytes ∧ c.tick = tick := by
  have hs := t.spaced.sorted (by decide)
  unfold cell
  generalize t.bytes = bytes at hs
  induction bytes with
  | nil => simp
  | cons b bytes ih =>
    obtain ⟨hb, hbytes⟩ := List.pairwise_cons.mp hs
    rw [List.find?_cons]
    by_cases htick : b.tick = tick
    · rw [beq_iff_eq.mpr htick, List.mem_cons]
      constructor
      · intro hc
        cases hc
        exact ⟨.inl rfl, htick⟩
      · rintro ⟨rfl | hc, hct⟩
        · rfl
        · have hlt := hb c hc
          omega
    · rw [beq_eq_false_iff_ne.mpr htick, List.mem_cons]
      refine (ih hbytes).trans ?_
      constructor
      · rintro ⟨hc, hct⟩
        exact ⟨.inr hc, hct⟩
      · rintro ⟨rfl | hc, hct⟩
        · exact absurd hct htick
        · exact ⟨hc, hct⟩

/-- The bytes that an accepted write leaves: the new one, and every other that has another tick. -/
theorem mem_writeByte? {bytes bytes' : List TimedFmByte} {c : TimedFmByte} (h : TrackSpaced bytes)
    (hw : writeByte? bytes c = some bytes') (x : TimedFmByte) :
    x ∈ bytes' ↔ x = c ∨ (x ∈ bytes ∧ x.tick ≠ c.tick) := by
  by_cases hlt : c.tick < revolutionTicks
  · by_cases hmem : ∃ old ∈ bytes, old.tick = c.tick
    · obtain ⟨old, hold, htick⟩ := hmem
      rw [writeByte?_of_mem h hold htick] at hw
      cases hw
      rw [List.mem_map]
      constructor
      · rintro ⟨y, hy, rfl⟩
        by_cases hyc : y.tick = c.tick
        · exact .inl (if_pos hyc)
        · rw [if_neg hyc]
          exact .inr ⟨hy, hyc⟩
      · rintro (rfl | ⟨hx, hxc⟩)
        · exact ⟨old, hold, if_pos htick⟩
        · exact ⟨x, hx, if_neg hxc⟩
    · have hnew : ∀ old ∈ bytes, old.tick ≠ c.tick := fun old hold htick => hmem ⟨old, hold, htick⟩
      rw [writeByte?_of_new h hlt hnew] at hw
      obtain ⟨-, hbytes⟩ := Option.ite_none_right_eq_some.mp hw
      cases hbytes
      have hsplit : ∀ x, x ∈ bytes ↔ x ∈ bytes.takeWhile (fun old => decide (old.tick < c.tick)) ∨
          x ∈ bytes.dropWhile (fun old => decide (old.tick < c.tick)) := by
        intro x
        rw [← List.mem_append, List.takeWhile_append_dropWhile]
      rw [List.mem_append, List.mem_cons, hsplit]
      constructor
      · rintro (hx | rfl | hx)
        · exact .inr ⟨.inl hx, hnew x ((hsplit x).mpr (.inl hx))⟩
        · exact .inl rfl
        · exact .inr ⟨.inr hx, hnew x ((hsplit x).mpr (.inr hx))⟩
      · rintro (rfl | ⟨hx | hx, -⟩)
        · exact .inr (.inl rfl)
        · exact .inl hx
        · exact .inr (.inr hx)
  · rw [writeByte?_of_late hlt] at hw
    cases hw

theorem writeByte_cases (t : FloppyTrack) (c : TimedFmByte) :
    (writeByte? t.bytes c = none ∧ t.writeByte c = (false, t)) ∨
      ∃ t', writeByte? t.bytes c = some t'.bytes ∧ t.writeByte c = (true, t') := by
  unfold writeByte
  split
  · rename_i bytes hbytes
    exact .inr ⟨⟨bytes, writeByte?_spaced t.spaced hbytes⟩, hbytes, rfl⟩
  · rename_i hnone
    exact .inl ⟨hnone, rfl⟩

theorem cell_writeByte {c : TimedFmByte} (hw : writeByte? t.bytes c = some t'.bytes) (tick : Nat) :
    t'.cell tick = if tick = c.tick then some c else t.cell tick := by
  have hmem := mem_writeByte? t.spaced hw
  apply Option.ext
  intro x
  rw [cell_iff, hmem]
  by_cases htick : tick = c.tick
  · rw [if_pos htick, Option.some.injEq, htick]
    constructor
    · rintro ⟨rfl | ⟨-, hne⟩, hx⟩
      · rfl
      · exact absurd hx hne
    · rintro rfl
      exact ⟨.inl rfl, rfl⟩
  · rw [if_neg htick, cell_iff]
    constructor
    · rintro ⟨rfl | ⟨hx, -⟩, hxt⟩
      · exact absurd hxt.symm htick
      · exact ⟨hx, hxt⟩
    · rintro ⟨hx, rfl⟩
      exact ⟨.inr ⟨hx, htick⟩, rfl⟩

/-- The operations on a track. -/
inductive Op where
  | setBytes (bytes : List TimedFmByte)
  | writeByte (byte : TimedFmByte)
  | clear

def step (t : FloppyTrack) : Op → FloppyTrack
  | .setBytes bytes => (t.setBytes bytes).2
  | .writeByte byte => (t.writeByte byte).2
  | .clear => t.clear

/-- In every state a track is spaced on the circle; a write is accepted exactly at a tick that keeps it
so, and then updates the map at that tick alone; a list is accepted exactly when it is spaced. -/
theorem track_is_spaced_map (ops : List Op) :
    let t := Run.run step {} ops
    CircularlySpaced t.bytes ∧ t.bytes.length ≤ 5208 ∧
      (∀ c : TimedFmByte,
        ((t.writeByte c).1 = true ↔ c.tick < revolutionTicks ∧
          ((∃ old ∈ t.bytes, old.tick = c.tick) ∨
            ∀ old ∈ t.bytes, byteTicks ≤ Circle.distance revolutionTicks old.tick c.tick)) ∧
        ((t.writeByte c).1 = true → ∀ tick,
          (t.writeByte c).2.cell tick = if tick = c.tick then some c else t.cell tick) ∧
        ((t.writeByte c).1 = false → (t.writeByte c).2 = t)) ∧
      ∀ bytes : List TimedFmByte,
        ((t.setBytes bytes).1 = true ↔ CircularlySpaced bytes) ∧
        ((t.setBytes bytes).1 = true → (t.setBytes bytes).2.bytes = bytes) ∧
        ((t.setBytes bytes).1 = false → (t.setBytes bytes).2 = t) := by
  intro t
  refine ⟨trackSpaced_iff.mp t.spaced, ?_, fun c => ?_, fun bytes => ?_⟩
  · have hroom : t.bytes.length * byteTicks ≤ revolutionTicks := t.spaced.length_le (by decide)
    unfold byteTicks revolutionTicks at hroom
    omega
  · have haccepts := writeByte?_isSome_iff t.spaced c
    obtain ⟨hnone, hwrite⟩ | ⟨t', hsome, hwrite⟩ := writeByte_cases t c
    · rw [hwrite]
      rw [hnone] at haccepts
      exact ⟨haccepts, nofun, fun _ => rfl⟩
    · rw [hwrite]
      rw [hsome] at haccepts
      exact ⟨haccepts, fun _ => cell_writeByte hsome, nofun⟩
  · unfold setBytes
    rw [← trackSpaced_iff, ← setBytesAccepts_iff]
    split
    · rename_i haccepts
      exact ⟨iff_of_true rfl haccepts, fun _ => rfl, nofun⟩
    · rename_i haccepts
      exact ⟨iff_of_false nofun haccepts, nofun, fun _ => rfl⟩

end FloppyTrack
end FK1
