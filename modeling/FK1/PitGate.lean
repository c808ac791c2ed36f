import FK1.PitOps

/-!
# FK1.PitGate

Setting a gate of the 8253 to the level it has. `set_gate` looks for an edge in modes 1, 2, 3 and 5, but
in modes 0 and 4 sets `running` from the level, also where the channel has stopped by itself. In mode
0 the repeated terminal count shows nothing. In mode 4 the call keeps a strobe low that is under way,
and after the strobe starts another.
-/

namespace FK1

open Run Observe

namespace PitChannel

variable {c d : PitChannel}

/-- A terminal count of mode 0. -/
structure Terminal (c : PitChannel) : Prop where
  mode : c.mode = 0
  output : c.output = true
  current : c.current = 0

/-- Equal but for `running` after the terminal count of mode 0. -/
def Alike (c d : PitChannel) : Prop := d = c ∨ (c.Terminal ∧ ∃ running, d = { c with running := running })

theorem Alike.refl (c : PitChannel) : Alike c c := .inl rfl

theorem Alike.output (h : Alike c d) : c.output = d.output := by
  obtain rfl | ⟨-, -, rfl⟩ := h <;> rfl

theorem Alike.visibleCount (h : Alike c d) : c.visibleCount = d.visibleCount := by
  obtain rfl | ⟨-, -, rfl⟩ := h <;> rfl

/-- A pulse after the terminal count changes at most `running`. -/
theorem Terminal.clockOnce (h : c.Terminal) : ∃ running, c.clockOnce = { c with running := running } := by
  obtain ⟨hmode, houtput, hcurrent⟩ := h
  by_cases hidle : (!c.running || !c.countLoaded) = true
  · exact ⟨c.running, by rw [PitChannel.clockOnce, if_pos hidle]⟩
  · refine ⟨false, ?_⟩
    rw [PitChannel.clockOnce, if_neg hidle]
    cases c
    simp_all

theorem Alike.clockOnce (h : Alike c d) : Alike c.clockOnce d.clockOnce := by
  obtain rfl | ⟨ht, running, rfl⟩ := h
  · exact .refl _
  · obtain ⟨first, hfirst⟩ := ht.clockOnce
    have hother : Terminal { c with running := running } := ⟨ht.mode, ht.output, ht.current⟩
    obtain ⟨second, hsecond⟩ := hother.clockOnce
    rw [hfirst, hsecond]
    exact .inr ⟨⟨ht.mode, ht.output, ht.current⟩, second, rfl⟩

theorem Alike.load (h : Alike c d) (raw : Word) : Alike (c.load raw) (d.load raw) := by
  obtain rfl | ⟨ht, running, rfl⟩ := h
  · exact .refl _
  · refine .inl ?_
    simp [PitChannel.load, ht.mode]

theorem Alike.setGate (h : Alike c d) (high : Bool) : Alike (c.setGate high) (d.setGate high) := by
  obtain rfl | ⟨ht, running, rfl⟩ := h
  · exact .refl _
  · refine .inl ?_
    simp [PitChannel.setGate, ht.mode]

theorem Alike.write (h : Alike c d) (value : Byte) : Alike (c.write value) (d.write value) := by
  obtain rfl | ⟨ht, running, rfl⟩ := h
  · exact .refl _
  · have hload : ∀ (raw : Word), Alike (c.load raw) ({ c with running := running }.load raw) :=
      Alike.load (.inr ⟨ht, running, rfl⟩)
    unfold PitChannel.write
    dsimp only
    split
    · exact hload _
    · exact hload _
    · split
      · exact .inr ⟨⟨ht.mode, ht.output, ht.current⟩, running, rfl⟩
      · exact Alike.load (c := { c with writeLowNext := true })
          (.inr ⟨⟨ht.mode, ht.output, ht.current⟩, running, rfl⟩) _
    · exact .inr ⟨ht, running, rfl⟩

theorem Alike.read (h : Alike c d) : c.read.1 = d.read.1 ∧ Alike c.read.2 d.read.2 := by
  obtain rfl | ⟨ht, running, rfl⟩ := h
  · exact ⟨rfl, .refl _⟩
  · have hsame : ({ c with running := running } : PitChannel).read =
        (c.read.1, { c.read.2 with running := running }) := by
      unfold PitChannel.read
      dsimp only
      repeat' split
      all_goals rfl
    have hterminal : c.read.2.Terminal := by
      unfold PitChannel.read
      dsimp only
      repeat' split
      all_goals exact ⟨ht.mode, ht.output, ht.current⟩
    rw [hsame]
    exact ⟨rfl, .inr ⟨hterminal, running, rfl⟩⟩

theorem Alike.apply (h : Alike c d) (op : Op) : Alike (c.apply op) (d.apply op) := by
  cases op with
  | read => exact h.read.2
  | write value => exact h.write value
  | latchCount =>
    obtain rfl | ⟨ht, running, rfl⟩ := h
    · exact .refl _
    · refine .inr ⟨?_, running, ?_⟩
      · unfold PitChannel.apply latchCount
        dsimp only
        split <;> exact ⟨ht.mode, ht.output, ht.current⟩
      · unfold PitChannel.apply latchCount
        dsimp only
        split <;> rfl
  | configure control =>
    obtain rfl | ⟨ht, running, rfl⟩ := h <;> exact .refl _
  | setGate high => exact h.setGate high
  | clock pulses => exact (clockLoop_related Alike.output Alike.clockOnce h pulses {}).1

/-! ## Setting the gate to its level -/

/-- Mode 4 with the gate high, from the strobe on. -/
def AtStrobe (c : PitChannel) : Prop :=
  c.mode = 4 ∧ c.gate = true ∧ c.countLoaded = true ∧ c.running = c.strobeLow

instance (c : PitChannel) : Decidable c.AtStrobe := by
  unfold AtStrobe
  infer_instance

theorem Sound.setGate_same (h : c.Sound) (hnot : ¬c.AtStrobe) : Alike c (c.setGate c.gate) := by
  obtain ⟨hgate, hunloaded, hstrobe, hspent⟩ := h
  cases hg : c.gate with
  | false => exact .inl (hgate.setGate_false hg)
  | true =>
    have hkept : c.mode ≠ 0 → c.mode ≠ 4 → c.setGate true = c := by
      intro h0 h4
      cases c
      simp only at hg h0 h4
      subst hg
      unfold PitChannel.setGate
      dsimp only
      split <;> simp_all
    by_cases hmode : c.mode = 0 ∨ c.mode = 4
    · have hset : c.setGate true = { c with running := c.countLoaded && !c.strobeLow } := by
        cases c
        simp only at hg hmode
        subst hg
        rcases hmode with rfl | rfl <;> simp [PitChannel.setGate]
      rw [hset]
      by_cases hsame : (c.countLoaded && !c.strobeLow) = c.running
      · exact .inl (by rw [hsame])
      · have hloaded : c.countLoaded = true := by
          cases hl : c.countLoaded with
          | true => rfl
          | false => exact absurd (by rw [hl, hunloaded hl, Bool.false_and]) hsame
        rw [hloaded, Bool.true_and] at hsame
        have hrun : c.running = c.strobeLow := by
          cases hr : c.running <;> cases hs : c.strobeLow <;> simp_all
        rcases hmode with hmode | hmode
        · have hlow : c.strobeLow = false := by
            cases hs : c.strobeLow with
            | false => rfl
            | true =>
              obtain ⟨hmode', -, -⟩ := hstrobe hs
              omega
          obtain ⟨houtput, hcurrent⟩ := hspent (.inl hmode) hg hloaded (hrun.trans hlow) hlow
          exact .inr ⟨⟨hmode, houtput, hcurrent⟩, _, rfl⟩
        · exact absurd ⟨hmode, hg, hloaded, hrun⟩ hnot
    · exact .inl (hkept (fun h => hmode (.inl h)) fun h => hmode (.inr h))

/-- From the strobe on, the call shows with the next pulse. -/
theorem Sound.setGate_atStrobe (h : c.Sound) (hat : c.AtStrobe) :
    (c.setGate c.gate).clockOnce.output ≠ c.clockOnce.output := by
  obtain ⟨-, -, hstrobe, hspent⟩ := h
  obtain ⟨hmode, hgate, hloaded, hrun⟩ := hat
  cases hlow : c.strobeLow with
  | true =>
    -- Under way: the strobe would end, but the channel no longer runs.
    obtain ⟨-, houtput, -⟩ := hstrobe hlow
    rw [hlow] at hrun
    simp [PitChannel.setGate, PitChannel.clockOnce, hmode, hgate, hloaded, hrun, hlow, houtput]
  | false =>
    -- Over: the channel runs again and ends the count of 0 at once.
    rw [hlow] at hrun
    obtain ⟨houtput, hcurrent⟩ := hspent (.inr hmode) hgate hloaded hrun hlow
    simp [PitChannel.setGate, PitChannel.clockOnce, hmode, hgate, hloaded, hrun, hlow, houtput,
      hcurrent]

end PitChannel

namespace Pit8253

/-- Every channel of one timer is like the same channel of the other. -/
def Alike (t u : Pit8253) : Prop := ∀ i, (t.channels i).Alike (u.channels i)

theorem alike_simulation : Simulation apply view Alike := by
  have hstep : ∀ {t u : Pit8253} (op : Op), Alike t u → Alike (t.apply op) (u.apply op) := by
    intro t u op h i
    rw [apply_channels, apply_channels]
    cases op.on i with
    | none => exact h i
    | some a => exact (h i).apply a
  refine ⟨fun {t u} op h => ?_, hstep⟩
  have hnext := hstep op h
  have hvalue : t.readValue op = u.readValue op := by
    cases op with
    | read registerIndex =>
      rw [readValue_read, readValue_read]
      cases channelIndex registerIndex with
      | none => rfl
      | some i => exact congrArg some (h i).read.1
    | _ => rfl
  have hedges : t.reportedEdges op = u.reportedEdges op := by
    cases op with
    | clock i pulses =>
      rw [reportedEdges_clock, reportedEdges_clock]
      exact congrArg some
        (PitChannel.clockLoop_related PitChannel.Alike.output PitChannel.Alike.clockOnce (h i) pulses
          {}).2
    | _ => rfl
  have houtput : (t.apply op).output = (u.apply op).output := funext fun i => (hnext i).output
  have hcount : (t.apply op).count = (u.apply op).count := funext fun i => (hnext i).visibleCount
  rw [view, view, hvalue, hedges, houtput, hcount]

/-- Setting the gate of channel `i` to its level shows in no later operation. -/
def GateCallInvisible (t : Pit8253) (i : Fin 3) : Prop :=
  (t.setGate i (t.gate i)).output = t.output ∧ (t.setGate i (t.gate i)).count = t.count ∧
    ∀ ops, trace apply view (t.setGate i (t.gate i)) ops = trace apply view t ops

/-- The call is invisible unless it falls on a mode 4 strobe or after one. -/
theorem gateCall_invisible_iff {t : Pit8253} (h : Reached t) (i : Fin 3) :
    t.GateCallInvisible i ↔ ¬(t.channels i).AtStrobe := by
  constructor
  · rintro ⟨-, -, hinvisible⟩ hat
    have htrace := hinvisible [.clock i 1]
    have houtput := congrArg (fun v : List View => v.map fun w => w.outputs i) htrace
    simp only [trace, view, List.map_cons, List.map_nil, List.cons.injEq, and_true] at houtput
    refine (h.sound i).setGate_atStrobe hat ?_
    simpa [output, apply, clock, setGate, PitChannel.clockLoop, gate] using houtput
  · intro hnot
    have halike : Alike t (t.setGate i (t.gate i)) := by
      intro j
      by_cases hj : j = i
      · subst hj
        rw [setGate, modify_self]
        exact (h.sound j).setGate_same hnot
      · rw [setGate_other _ _ hj]
        exact .refl _
    refine ⟨funext fun j => ?_, funext fun j => ?_, fun ops => ?_⟩
    · exact (halike j).output.symm
    · exact (halike j).visibleCount.symm
    · exact (alike_simulation.trace_eq halike ops).symm

/-- After the terminal count of a mode 0 channel. -/
theorem gateCall_invisible_terminal :
    (run apply {} [.setGate 0 true, .write 0x03#8 0x10#8, .write 0x00#8 0x01#8,
      .clock 0 1]).GateCallInvisible 0 :=
  (gateCall_invisible_iff ⟨_, rfl⟩ 0).mpr (by decide)

/-- A strobe of channel 0 in mode 4, kept low by a call with the level that the gate has. -/
theorem gateCall_keeps_strobe :
    ¬∀ t : Pit8253, Reached t → ∀ i, t.GateCallInvisible i := by
  intro hall
  have hreached : Reached (run apply {}
      [.setGate 0 true, .write 0x03#8 0x18#8, .write 0x00#8 0x01#8, .clock 0 1]) := ⟨_, rfl⟩
  have htrace := (hall _ hreached 0).2.2 [.clock 0 1]
  have houtput := congrArg (fun v : List View => v.map fun w => w.outputs 0) htrace
  revert houtput
  decide

end Pit8253
end FK1
