import FK1.DiskTrace

/-!
# FK1.ByteCount

Counter 2 against the edges of INTR_A and INTR_B, over every run.

A synchronization arms the suppression of one edge, meant for the edge of the mark's own
presentation. `ByteTally` reads the trace and tells the edge of a mark's own presentation (`own`)
from an edge that comes later while the suppression is still armed (`late`). `tallies_of_reachable`
accounts for every edge; `counter2_counts_iff` is what it says of the counter.
-/

namespace FK1

inductive Suppression where
  | clear
  /-- The mark has just been found. -/
  | found
  /-- The mark has been presented without an edge. -/
  | stale
  deriving DecidableEq, Repr

structure ByteTally where
  suppression : Suppression := .clear
  edges : Nat := 0
  pulses : Nat := 0
  own : Nat := 0
  late : Nat := 0
  deriving DecidableEq, Repr

namespace ByteTally

def see (t : ByteTally) : Event → ByteTally
  | .mark => { t with suppression := .found }
  | .edge =>
    match t.suppression with
    | .clear => { t with edges := t.edges + 1 }
    | .found => { t with suppression := .clear, edges := t.edges + 1, own := t.own + 1 }
    | .stale => { t with suppression := .clear, edges := t.edges + 1, late := t.late + 1 }
  | .strobe _ _ => if t.suppression = .found then { t with suppression := .stale } else t
  | .counterPulse => { t with pulses := t.pulses + 1 }
  | .reset => { t with suppression := .clear }
  | .clock1 _ | .written _ => t

end ByteTally

def tally (trace : List Event) : ByteTally := trace.foldl ByteTally.see {}

theorem tally_append (trace new : List Event) :
    tally (trace ++ new) = new.foldl ByteTally.see (tally trace) := List.foldl_append

/-- The tally counts every edge and every pulse. -/
theorem tally_counts (trace : List Event) :
    (tally trace).edges = trace.count .edge ∧ (tally trace).pulses = trace.count .counterPulse := by
  have hfold : ∀ (trace : List Event) (t : ByteTally),
      (trace.foldl ByteTally.see t).edges = t.edges + trace.count .edge ∧
        (trace.foldl ByteTally.see t).pulses = t.pulses + trace.count .counterPulse := by
    intro trace
    induction trace with
    | nil => exact fun _ => ⟨rfl, rfl⟩
    | cons e rest ih =>
      intro t
      obtain ⟨h₁, h₂⟩ := ih (t.see e)
      rw [List.foldl_cons, h₁, h₂]
      cases e with
      | edge => cases ht : t.suppression <;> simp [ByteTally.see, ht] <;> omega
      | counterPulse => simp [ByteTally.see]; omega
      | strobe byte rdm => by_cases ht : t.suppression = .found <;> simp [ByteTally.see, ht]
      | mark => simp [ByteTally.see]
      | clock1 pulses => simp [ByteTally.see]
      | written byte => simp [ByteTally.see]
      | reset => simp [ByteTally.see]
  obtain ⟨h₁, h₂⟩ := hfold trace {}
  exact ⟨h₁.trans (Nat.zero_add _), h₂.trans (Nat.zero_add _)⟩

namespace DiskSide

/-- Every edge has clocked counter 2, was the mark's own, or came late; the suppression is armed
exactly while the trace says that it is stale. -/
structure Tallied (s : DiskSide) : Prop where
  edges : (tally s.trace).edges =
    (tally s.trace).pulses + (tally s.trace).own + (tally s.trace).late
  suppression : (tally s.trace).suppression =
    if s.disk.suppressByteCounterOnce then .stale else .clear

variable {s s' : DiskSide}

theorem Tallied.refresh (h : s.Tallied) : s.refresh.Tallied := by
  have hedges := h.edges
  have hsuppression := h.suppression
  rcases refresh_trace s with ⟨ht, hs⟩ | ⟨ht, hs, hs'⟩ | ⟨ht, hs, hs'⟩
  · exact ⟨by rw [ht]; exact hedges, by rw [ht, hs]; exact hsuppression⟩
  · rw [hs, if_pos rfl] at hsuppression
    constructor <;> rw [ht, tally_append]
    · simp [ByteTally.see, hsuppression]
      omega
    · simp [ByteTally.see, hsuppression, hs']
  · rw [hs, if_neg (by decide)] at hsuppression
    constructor
    · rw [ht, tally_append]
      simp [ByteTally.see, hsuppression]
      omega
    · rw [ht, tally_append]
      simp [ByteTally.see, hsuppression, hs']

/-- A byte presented by a synchronized reader. -/
theorem Tallied.present (h : s.Tallied) (byte : TimedFmByte) : (s.present byte).Tallied := by
  have hstrobed : Tallied { s with diskData := s.diskData.pulseStrobeB byte.data } :=
    ⟨h.edges, h.suppression⟩
  obtain ⟨hedges, hsuppression⟩ := hstrobed.refresh
  unfold DiskSide.present
  generalize DiskSide.refresh { s with diskData := s.diskData.pulseStrobeB byte.data } = r
    at hedges hsuppression
  have hseen : tally (r.trace ++ [Event.strobe byte s.disk.aux.dataMarkSelected]) = tally r.trace := by
    rw [tally_append]
    exact if_neg (by rw [hsuppression]; split <;> decide)
  exact ⟨by rw [hseen]; exact hedges, by rw [hseen]; exact hsuppression⟩

/-- The mark: its own edge is swallowed, or the suppression stays armed. -/
theorem Tallied.mark (h : s.Tallied) (byte : TimedFmByte) : (s.synchronize.present byte).Tallied := by
  have hedges := h.edges
  unfold DiskSide.present
  have hcases := refresh_trace { s.synchronize with
    diskData := s.synchronize.diskData.pulseStrobeB byte.data }
  have hfound : tally s.synchronize.trace = { tally s.trace with suppression := .found } :=
    tally_append s.trace [.mark]
  generalize DiskSide.refresh { s.synchronize with
    diskData := s.synchronize.diskData.pulseStrobeB byte.data } = r at hcases
  rcases hcases with ⟨ht, hs⟩ | ⟨ht, _, hs⟩ | ⟨_, hs, _⟩
  · refine ⟨?_, ?_⟩ <;> dsimp only <;> rw [tally_append, ht, hfound]
    · exact hedges
    · rw [hs]; rfl
  · refine ⟨?_, ?_⟩ <;> dsimp only <;> rw [tally_append, ht, tally_append, hfound]
    · show (tally s.trace).edges + 1 =
        (tally s.trace).pulses + ((tally s.trace).own + 1) + (tally s.trace).late
      omega
    · rw [hs]; rfl
  · cases hs

theorem Tallied.step (hstep : Step s s') (h : s.Tallied) : s'.Tallied := by
  cases hstep with
  | prepare hp => exact ⟨by rw [hp.trace]; exact h.edges, by rw [hp.trace, hp.suppress]; exact h.suppression⟩
  | refresh => exact h.refresh
  | present _ => exact h.present _
  | mark _ => exact h.mark _
  | clock => exact ⟨by rw [tally_append]; exact h.edges, by rw [tally_append]; exact h.suppression⟩
  | store => exact ⟨by rw [tally_append]; exact h.edges, by rw [tally_append]; exact h.suppression⟩
  | reset hd ht =>
    refine ⟨?_, ?_⟩ <;> rw [ht, tally_append]
    · exact h.edges
    · rw [hd]; rfl

end DiskSide

namespace Board

theorem tallies_of_reachable {b : Board} (h : b.Reachable) : b.diskSide.Tallied := by
  obtain ⟨bootRom, actions, rfl⟩ := h
  have hpower : ((power bootRom).diskSide).Tallied := by
    have hempty : ((setRomImage {} bootRom).2.diskSide).Tallied := by
      unfold setRomImage
      split <;> exact ⟨rfl, rfl⟩
    exact (reset_steps _).invariant (fun _ _ => DiskSide.Tallied.step) hempty
  exact run_invariant (fun _ _ hstep hs => hs.step hstep) (reset_coherent _) hpower actions

end Board

namespace Machine

variable {σ : Type}

/-- Counter 2 has counted every edge but the marks' own exactly as long as no edge has come late. -/
theorem counter2_counts_iff (z : Z80 σ) (bootRom : List Byte) (ops : List Op) :
    let trace := (Run.run (step z) (power z bootRom) ops).board.trace
    trace.count .counterPulse = trace.count .edge - (tally trace).own ↔ (tally trace).late = 0 := by
  intro trace
  have htallied : (tally trace).edges = (tally trace).pulses + (tally trace).own + (tally trace).late :=
    (Board.tallies_of_reachable (run_reachable z bootRom ops)).edges
  obtain ⟨hedges, hpulses⟩ := tally_counts trace
  omega

/-- A mark polled with INTE_B clear, and a byte after INTE_B has been set. -/
theorem counter2_misses_edge :
    let nop : Z80 Unit := { power := (), instantReset := id, run := fun _ => .done 4 () }
    let image := FloppyDiskImage.uniform [⟨0, 0xFE#8, 0xC7#8⟩, ⟨384, 0x01#8, 0xFF#8⟩]
    let trace := (Run.run (step nop) (power nop [])
      [.host (.insertFloppy 0 image .readWrite), .host (.writeIo 0x63#16 0x88#8),
        .host (.writeIo 0x23#16 0xA6#8), .host (.writeIo 0x50#16 0x01#8), .runCycles 4,
        .host (.readIo 0x21#16), .host (.writeIo 0x23#16 0x05#8), .runCycles 128]).board.trace
    ¬ trace.count .counterPulse = trace.count .edge - (tally trace).own := by
  decide +kernel

end Machine
end FK1
