import FK1.Pit8253

/-!
# FK1.PitWaves

The output of an 8253 channel in each mode, as a function of the number of clock pulses since the count
was loaded (modes 0, 2, 3, 4) or the gate has risen (modes 1, 5).

Each wave is an invariant of the channel and the reported edges after `k` pulses, kept by `clockOnce`:
`OneShot` (modes 0 and 1), `Rate` (2), `Square` (3) and `Strobe` (4 and 5).
-/

namespace FK1

/-! ## Counting modulo the period -/

theorem succ_divMod {N : Nat} (hN : 0 < N) (k : Nat) :
    (k % N + 1 = N ∧ (k + 1) % N = 0 ∧ (k + 1) / N = k / N + 1) ∨
      (k % N + 1 < N ∧ (k + 1) % N = k % N + 1 ∧ (k + 1) / N = k / N) := by
  have hlt := Nat.mod_lt k hN
  have hsplit := Nat.div_add_mod k N
  by_cases hend : k % N + 1 = N
  · have hnext : k + 1 = N * (k / N + 1) := by
      rw [Nat.mul_add, Nat.mul_one]
      omega
    refine .inl ⟨hend, ?_, ?_⟩
    · rw [hnext, Nat.mul_mod_right]
    · rw [hnext, Nat.mul_div_cancel_left _ hN]
  · have hinside : k % N + 1 < N := by omega
    have hnext : k + 1 = k % N + 1 + N * (k / N) := by omega
    refine .inr ⟨hinside, ?_, ?_⟩
    · rw [hnext, Nat.add_mul_mod_self_left, Nat.mod_eq_of_lt hinside]
    · rw [hnext, Nat.add_mul_div_left _ _ hN, Nat.div_eq_of_lt hinside, Nat.zero_add]

namespace PitChannel

variable {c : PitChannel} {r : ClockResult} {N k : Nat}

/-! ## Pulses -/

theorem clockLoop_add (a b : Nat) (c : PitChannel) (r : ClockResult) :
    clockLoop (a + b) c r = clockLoop b (clockLoop a c r).1 (clockLoop a c r).2 := by
  induction a generalizing c r with
  | zero => rw [Nat.zero_add]; rfl
  | succ a ih =>
    rw [Nat.succ_add]
    exact ih _ _

/-- What the start establishes and every pulse keeps holds after `k` pulses. -/
theorem clockLoop_invariant {P : Nat → PitChannel → ClockResult → Prop} (h : P 0 c {})
    (hstep : ∀ k c r, P k c r → P (k + 1) c.clockOnce (countEdge r c.output c.clockOnce.output))
    (k : Nat) : P k (clockLoop k c {}).1 (clockLoop k c {}).2 := by
  induction k with
  | zero => exact h
  | succ k ih =>
    rw [clockLoop_add]
    exact hstep k _ _ ih

/-! ## Waves -/

/-- Modes 0 and 1: the output rises with the `N`th pulse, once. -/
structure OneShot (N k : Nat) (c : PitChannel) (r : ClockResult) : Prop where
  mode : c.mode = 0 ∨ c.mode = 1
  loaded : c.countLoaded = true
  output : c.output = decide (N ≤ k)
  running : c.running = decide (k < N)
  current : k < N → c.current = N - k
  edges : r.risingEdges = if N ≤ k then 1 else 0

theorem OneShot.clockOnce (h : OneShot N k c r) :
    OneShot N (k + 1) c.clockOnce (countEdge r c.output c.clockOnce.output) := by
  obtain ⟨hmode, hloaded, houtput, hrunning, hcurrent, hedges⟩ := h
  rcases Nat.lt_or_ge k N with hlt | hge
  · have hrun : c.running = true := by rw [hrunning, decide_eq_true hlt]
    have hlow : c.output = false := by rw [houtput, decide_eq_false (Nat.not_le.mpr hlt)]
    rw [if_neg (Nat.not_le.mpr hlt)] at hedges
    have hcount := hcurrent hlt
    have honce : c.clockOnce = if c.current > 1 then { c with current := c.current - 1 }
        else { c with current := 0, output := true, running := false } := by
      rcases hmode with hmode | hmode <;> simp [PitChannel.clockOnce, hrun, hloaded, hmode]
    by_cases hlast : k + 1 = N
    · rw [if_neg (by omega)] at honce
      rw [honce]
      refine ⟨hmode, hloaded, (decide_eq_true (by omega)).symm, (decide_eq_false (by omega)).symm,
        fun hmore => by omega, ?_⟩
      rw [hlow, if_pos (by omega)]
      exact congrArg (· + 1) hedges
    · rw [if_pos (by omega)] at honce
      rw [honce]
      refine ⟨hmode, hloaded, hlow.trans (decide_eq_false (by omega)).symm,
        hrun.trans (decide_eq_true (by omega)).symm, fun _ => ?_, ?_⟩
      · show c.current - 1 = N - (k + 1)
        omega
      · rw [hlow, if_neg (by omega)]
        exact hedges
  · have hstopped : c.running = false := by rw [hrunning, decide_eq_false (Nat.not_lt.mpr hge)]
    have honce : c.clockOnce = c := by simp [PitChannel.clockOnce, hstopped]
    rw [if_pos hge] at hedges
    rw [honce]
    refine ⟨hmode, hloaded, ?_, ?_, fun hmore => by omega, ?_⟩
    · rw [houtput, decide_eq_true hge, decide_eq_true (by omega)]
    · rw [hstopped, decide_eq_false (by omega)]
    · rw [if_pos (by omega)]
      cases hout : c.output <;> simp [countEdge, hedges]

/-- Mode 2: low for one pulse in `N`. -/
structure Rate (N k : Nat) (c : PitChannel) (r : ClockResult) : Prop where
  mode : c.mode = 2
  loaded : c.countLoaded = true
  running : c.running = true
  reload : c.reload = N
  output : c.output = (decide (k = 0) || decide (k % N ≠ 0))
  current : c.current = N - k % N
  edges : r.risingEdges = (k - 1) / N

theorem Rate.clockOnce (hN : 2 ≤ N) (h : Rate N k c r) :
    Rate N (k + 1) c.clockOnce (countEdge r c.output c.clockOnce.output) := by
  obtain ⟨hmode, hloaded, hrunning, hreload, houtput, hcurrent, hedges⟩ := h
  have honce : c.clockOnce =
      if c.output = true then
        if c.current > 1 then { c with current := c.current - 1 }
        else { c with current := c.reload, output := false }
      else if c.current > 1 then { c with output := true, current := c.current - 1 }
      else { c with output := true } := by
    cases hout : c.output <;> simp [PitChannel.clockOnce, hrunning, hloaded, hmode, hout]
  have hsplit := succ_divMod (N := N) (by omega) k
  by_cases hzero : k ≠ 0 ∧ k % N = 0
  · -- The pulse after a low one raises the output.
    obtain ⟨hk, hmod⟩ := hzero
    have hlow : c.output = false := by
      rw [houtput, decide_eq_false hk, decide_eq_false (not_not_intro hmod), Bool.or_self]
    rw [if_neg (by rw [hlow]; decide), if_pos (by omega)] at honce
    rw [honce]
    obtain ⟨hend, -⟩ | ⟨-, hmod', hdiv⟩ := hsplit
    · omega
    refine ⟨hmode, hloaded, hrunning, hreload, ?_, ?_, ?_⟩
    · rw [decide_eq_true (by omega : (k + 1) % N ≠ 0), Bool.or_true]
    · show c.current - 1 = _
      omega
    · have hlast := succ_divMod (N := N) (by omega) (k - 1)
      rw [Nat.sub_add_cancel (Nat.one_le_iff_ne_zero.mpr hk)] at hlast
      obtain ⟨-, -, hquot⟩ | ⟨-, hmod'', -⟩ := hlast
      · rw [hlow]
        show r.risingEdges + 1 = _
        rw [hedges, Nat.add_sub_cancel, hquot]
      · omega
  · have hhigh : c.output = true := by
      rw [houtput, Bool.or_eq_true, decide_eq_true_eq, decide_eq_true_eq]
      omega
    have hsame : (k - 1) / N = k / N := by
      by_cases hk : k = 0
      · rw [hk]
      · have hlast := succ_divMod (N := N) (by omega) (k - 1)
        rw [Nat.sub_add_cancel (Nat.one_le_iff_ne_zero.mpr hk)] at hlast
        obtain ⟨-, hmod, -⟩ | ⟨-, -, hquot⟩ := hlast
        · exact absurd ⟨hk, hmod⟩ hzero
        · exact hquot.symm
    rw [if_pos hhigh] at honce
    obtain ⟨hend, hmod', -⟩ | ⟨hinside, hmod', -⟩ := hsplit
    · rw [if_neg (by omega)] at honce
      rw [honce]
      refine ⟨hmode, hloaded, hrunning, hreload, ?_, ?_, ?_⟩
      · rw [decide_eq_false (Nat.succ_ne_zero k), decide_eq_false (not_not_intro hmod'), Bool.or_self]
      · show c.reload = _
        omega
      · rw [hhigh, Nat.add_sub_cancel, ← hsame]
        exact hedges
    · rw [if_pos (by omega)] at honce
      rw [honce]
      refine ⟨hmode, hloaded, hrunning, hreload, ?_, ?_, ?_⟩
      · rw [hhigh, decide_eq_true (by omega : (k + 1) % N ≠ 0), Bool.or_true]
      · show c.current - 1 = _
        omega
      · rw [hhigh, Nat.add_sub_cancel, ← hsame]
        exact hedges

/-- Mode 3: high for the larger half of the period. -/
structure Square (N k : Nat) (c : PitChannel) (r : ClockResult) : Prop where
  mode : c.mode = 3
  loaded : c.countLoaded = true
  running : c.running = true
  reload : c.reload = N
  output : c.output = decide (k % N < (N + 1) / 2)
  remaining : c.phaseRemaining = if k % N < (N + 1) / 2 then (N + 1) / 2 - k % N else N - k % N
  edges : r.risingEdges = k / N

theorem Square.clockOnce (hN : 2 ≤ N) (h : Square N k c r) :
    Square N (k + 1) c.clockOnce (countEdge r c.output c.clockOnce.output) := by
  obtain ⟨hmode, hloaded, hrunning, hreload, houtput, hremaining, hedges⟩ := h
  have hlow : N / 2 + (N + 1) / 2 = N := by omega
  have honce : c.clockOnce =
      if c.phaseRemaining > 1 then { c with phaseRemaining := c.phaseRemaining - 1 }
      else { c with
        output := !c.output
        phaseHigh := !c.output
        phaseRemaining := if (!c.output) = true then (N + 1) / 2 else N / 2 } := by
    have hne : (N + 1) / 2 ≠ 0 ∧ N / 2 ≠ 0 := by omega
    cases hout : c.output <;>
      simp [PitChannel.clockOnce, hrunning, hloaded, hmode, hreload, hout, hne.1, hne.2]
  obtain ⟨hend, hmod, hdiv⟩ | ⟨hinside, hmod, hdiv⟩ := succ_divMod (N := N) (by omega) k
  · -- The last pulse of the low half.
    have hphase : ¬k % N < (N + 1) / 2 := by omega
    have hout : c.output = false := by rw [houtput, decide_eq_false hphase]
    rw [if_neg hphase] at hremaining
    rw [if_neg (by omega), hout] at honce
    rw [honce]
    refine ⟨hmode, hloaded, hrunning, hreload, ?_, ?_, ?_⟩
    · rw [hmod, decide_eq_true (by omega)]
      rfl
    · rw [hmod, if_pos (by omega : 0 < (N + 1) / 2)]
      rfl
    · rw [hout, hdiv, ← hedges]
      rfl
  · by_cases hphase : k % N < (N + 1) / 2
    · have hout : c.output = true := by rw [houtput, decide_eq_true hphase]
      rw [if_pos hphase] at hremaining
      by_cases hturn : k % N + 1 = (N + 1) / 2
      · rw [if_neg (by omega), hout] at honce
        rw [honce]
        refine ⟨hmode, hloaded, hrunning, hreload, ?_, ?_, ?_⟩
        · rw [hmod, decide_eq_false (by omega)]
          rfl
        · rw [hmod, if_neg (by omega : ¬k % N + 1 < (N + 1) / 2)]
          show N / 2 = _
          omega
        · rw [hout, hdiv, ← hedges]
          rfl
      · rw [if_pos (by omega)] at honce
        rw [honce]
        refine ⟨hmode, hloaded, hrunning, hreload, ?_, ?_, ?_⟩
        · rw [hmod, decide_eq_true (by omega)]
          exact hout
        · rw [hmod, if_pos (by omega)]
          show c.phaseRemaining - 1 = _
          omega
        · rw [hout, hdiv, ← hedges]
          rfl
    · have hout : c.output = false := by rw [houtput, decide_eq_false hphase]
      rw [if_neg hphase] at hremaining
      rw [if_pos (by omega)] at honce
      rw [honce]
      refine ⟨hmode, hloaded, hrunning, hreload, ?_, ?_, ?_⟩
      · rw [hmod, decide_eq_false (by omega)]
        exact hout
      · rw [hmod, if_neg (by omega)]
        show c.phaseRemaining - 1 = _
        omega
      · rw [hout, hdiv, ← hedges]
        rfl

/-- Modes 4 and 5: low for the `N`th pulse only. -/
structure Strobe (N k : Nat) (c : PitChannel) (r : ClockResult) : Prop where
  mode : c.mode = 4 ∨ c.mode = 5
  loaded : c.countLoaded = true
  output : c.output = decide (k ≠ N)
  strobe : c.strobeLow = decide (k = N)
  running : c.running = decide (k ≤ N)
  current : k < N → c.current = N - k

theorem Strobe.clockOnce (h : Strobe N k c r) :
    Strobe N (k + 1) c.clockOnce (countEdge r c.output c.clockOnce.output) := by
  obtain ⟨hmode, hloaded, houtput, hstrobe, hrunning, hcurrent⟩ := h
  rcases Nat.lt_or_ge N k with hgt | hle
  · have hstopped : c.running = false := by rw [hrunning, decide_eq_false (Nat.not_le.mpr hgt)]
    have honce : c.clockOnce = c := by simp [PitChannel.clockOnce, hstopped]
    rw [honce]
    refine ⟨hmode, hloaded, ?_, ?_, ?_, fun hmore => by omega⟩
    · rw [houtput, decide_eq_true (by omega), decide_eq_true (by omega)]
    · rw [hstrobe, decide_eq_false (by omega), decide_eq_false (by omega)]
    · rw [hstopped, decide_eq_false (by omega)]
  · have hrun : c.running = true := by rw [hrunning, decide_eq_true hle]
    have honce : c.clockOnce =
        if c.strobeLow = true then { c with output := true, strobeLow := false, running := false }
        else if c.current > 1 then { c with current := c.current - 1 }
        else { c with current := 0, output := false, strobeLow := true } := by
      rcases hmode with hmode | hmode <;> simp [PitChannel.clockOnce, hrun, hloaded, hmode]
    by_cases hlow : k = N
    · rw [hstrobe, decide_eq_true hlow, if_pos rfl] at honce
      rw [honce]
      exact ⟨hmode, hloaded, (decide_eq_true (by omega)).symm, (decide_eq_false (by omega)).symm,
        (decide_eq_false (by omega)).symm, fun hmore => by omega⟩
    · have hcount := hcurrent (by omega)
      rw [decide_eq_false hlow] at hstrobe
      rw [if_neg (by rw [hstrobe]; decide)] at honce
      rw [decide_eq_true hlow] at houtput
      by_cases hlast : k + 1 = N
      · rw [if_neg (by omega)] at honce
        rw [honce]
        exact ⟨hmode, hloaded, (decide_eq_false (not_not_intro hlast)).symm,
          (decide_eq_true hlast).symm, hrun.trans (decide_eq_true (by omega)).symm,
          fun hmore => by omega⟩
      · rw [if_pos (by omega)] at honce
        rw [honce]
        refine ⟨hmode, hloaded, houtput.trans (decide_eq_true hlast).symm,
          hstrobe.trans (decide_eq_false hlast).symm, hrun.trans (decide_eq_true (by omega)).symm,
          fun _ => ?_⟩
        show c.current - 1 = N - (k + 1)
        omega

/-! ## Starting a wave -/

theorem load_mode (c : PitChannel) (raw : Word) : (c.load raw).mode = c.mode := by
  unfold load
  dsimp only
  split <;> rfl

/-- In modes 2 and 4 a load raises the output and starts the count with the gate. -/
theorem load_high {raw : Word} (hmode : c.mode = 2 ∨ c.mode = 4) :
    c.load raw = { c with
      reloadRaw := raw, reload := decodeCount raw c.bcd, current := decodeCount raw c.bcd
      countLoaded := true, strobeLow := false, phaseHigh := true
      output := true, running := c.gate } := by
  rcases hmode with hmode | hmode <;> simp [load, hmode]

theorem OneShot.of_load {raw : Word} (hmode : c.mode = 0) (hgate : c.gate = true) :
    OneShot (decodeCount raw c.bcd) 0 (c.load raw) {} := by
  have hpos := decodeCount_pos raw c.bcd
  have hload : c.load raw = { c with
      reloadRaw := raw, reload := decodeCount raw c.bcd, current := decodeCount raw c.bcd
      countLoaded := true, strobeLow := false, phaseHigh := true
      output := false, running := c.gate } := by simp [load, hmode]
  rw [hload]
  refine ⟨.inl hmode, rfl, ?_, ?_, fun _ => rfl, ?_⟩
  · rw [decide_eq_false (by omega)]
  · rw [decide_eq_true hpos]
    exact hgate
  · rw [if_neg (by omega)]

theorem Rate.of_load {raw : Word} (hmode : c.mode = 2) (hgate : c.gate = true) :
    Rate (decodeCount raw c.bcd) 0 (c.load raw) {} := by
  rw [load_high (.inl hmode)]
  refine ⟨hmode, rfl, hgate, rfl, rfl, ?_, ?_⟩
  · rw [Nat.zero_mod]
    rfl
  · exact (Nat.zero_div _).symm

theorem Square.of_load {raw : Word} (hmode : c.mode = 3) (hgate : c.gate = true) :
    Square (decodeCount raw c.bcd) 0 (c.load raw) {} := by
  have hpos := decodeCount_pos raw c.bcd
  have hload : c.load raw = { c with
      reloadRaw := raw, reload := decodeCount raw c.bcd, current := decodeCount raw c.bcd
      countLoaded := true, strobeLow := false, phaseHigh := true
      output := true, running := c.gate
      phaseRemaining := (decodeCount raw c.bcd + 1) / 2 } := by simp [load, hmode]
  have hhalf : 0 < (decodeCount raw c.bcd + 1) / 2 := by omega
  rw [hload]
  refine ⟨hmode, rfl, hgate, rfl, ?_, ?_, (Nat.zero_div _).symm⟩
  · rw [Nat.zero_mod, decide_eq_true hhalf]
  · rw [Nat.zero_mod, if_pos hhalf]
    rfl

theorem Strobe.of_load {raw : Word} (hmode : c.mode = 4) (hgate : c.gate = true) :
    Strobe (decodeCount raw c.bcd) 0 (c.load raw) {} := by
  have hpos := decodeCount_pos raw c.bcd
  rw [load_high (.inr hmode)]
  refine ⟨.inl hmode, rfl, ?_, ?_, ?_, fun _ => rfl⟩
  · rw [decide_eq_true (by omega)]
  · rw [decide_eq_false (by omega)]
  · rw [decide_eq_true (by omega)]
    exact hgate

/-- A rising gate edge triggers modes 1 and 5. -/
theorem setGate_rising {raw : Word} (hmode : c.mode = 1 ∨ c.mode = 5) :
    ((c.load raw).setGate false).setGate true =
      { c.load raw with
        gate := true, current := decodeCount raw c.bcd, output := c.mode != 1
        running := true, waitingForTrigger := false, strobeLow := false } := by
  rcases hmode with hmode | hmode <;> simp [load, setGate, trigger, hmode]

theorem OneShot.of_trigger {raw : Word} (hmode : c.mode = 1) :
    OneShot (decodeCount raw c.bcd) 0 (((c.load raw).setGate false).setGate true) {} := by
  have hpos := decodeCount_pos raw c.bcd
  rw [setGate_rising (.inl hmode)]
  refine ⟨.inr ((load_mode c raw).trans hmode), ?_, ?_, ?_, fun _ => rfl, ?_⟩
  · simp [load, hmode]
  · rw [decide_eq_false (by omega), hmode]
    rfl
  · rw [decide_eq_true hpos]
  · rw [if_neg (by omega)]

theorem Strobe.of_trigger {raw : Word} (hmode : c.mode = 5) :
    Strobe (decodeCount raw c.bcd) 0 (((c.load raw).setGate false).setGate true) {} := by
  have hpos := decodeCount_pos raw c.bcd
  rw [setGate_rising (.inr hmode)]
  refine ⟨.inr ((load_mode c raw).trans hmode), ?_, ?_, ?_, ?_, fun _ => rfl⟩
  · simp [load, hmode]
  · rw [decide_eq_true (by omega), hmode]
    rfl
  · rw [decide_eq_false (by omega)]
  · rw [decide_eq_true (by omega)]

/-! ## Programming a channel -/

/-- The count-register writes that load `raw` under an access mode. -/
def countWrites (access : PitAccess) (raw : Word) : List Byte :=
  match access with
  | .latch => []
  | .lsb => [raw.setWidth 8]
  | .msb => [(raw >>> 8).setWidth 8]
  | .lsbMsb => [raw.setWidth 8, (raw >>> 8).setWidth 8]

/-- What those writes leave in the count register: the byte that is not written is 0. -/
def writtenCount (access : PitAccess) (raw : Word) : Word :=
  match access with
  | .latch => 0#16
  | .lsb => raw &&& 0x00FF#16
  | .msb => raw >>> 8 <<< 8
  | .lsbMsb => raw

theorem low_byte (raw : Word) : (raw.setWidth 8).setWidth 16 = raw &&& 0x00FF#16 := by
  apply BitVec.eq_of_toNat_eq
  have h := Nat.and_two_pow_sub_one_eq_mod raw.toNat 8
  simp at *
  omega

theorem high_byte (raw : Word) : ((raw >>> 8).setWidth 8).setWidth 16 <<< 8 = raw >>> 8 <<< 8 := by
  apply BitVec.eq_of_toNat_eq
  simp [Nat.shiftLeft_eq, Nat.shiftRight_eq_div_pow]
  omega

theorem high_or_low (raw : Word) :
    ((raw >>> 8).setWidth 8).setWidth 16 <<< 8 ||| (raw.setWidth 8).setWidth 16 = raw := by
  ext j hj
  simp
  by_cases hlow : j < 8 <;> grind

/-- Programming ends in the load of the written count by a channel as the control word left it. -/
theorem foldl_countWrites (c : PitChannel) {control : Byte} (raw : Word)
    (haccess : controlAccess control ≠ .latch) :
    ∃ d : PitChannel,
      d.mode = controlMode control ∧ d.bcd = hasBits control 0x01#8 ∧ d.gate = c.gate ∧
        (countWrites (controlAccess control) raw).foldl write (c.configure control) =
          d.load (writtenCount (controlAccess control) raw) := by
  have hset : (c.configure control).access = controlAccess control := rfl
  cases h : controlAccess control with
  | latch => exact absurd h haccess
  | lsb =>
    refine ⟨c.configure control, rfl, rfl, rfl, ?_⟩
    rw [h] at hset
    simp only [countWrites, List.foldl_cons, List.foldl_nil, write, hset, low_byte, writtenCount]
  | msb =>
    refine ⟨c.configure control, rfl, rfl, rfl, ?_⟩
    rw [h] at hset
    simp only [countWrites, List.foldl_cons, List.foldl_nil, write, hset, high_byte, writtenCount]
  | lsbMsb =>
    rw [h] at hset
    have hfirst : (c.configure control).writeLowNext = true := rfl
    refine ⟨{ c.configure control with pendingLow := raw.setWidth 8 }, rfl, rfl, rfl, ?_⟩
    simp only [countWrites, List.foldl_cons, List.foldl_nil, write, hset, hfirst, if_true,
      Bool.false_eq_true, if_false, high_or_low, writtenCount]

theorem clockLoop_state (n : Nat) (c : PitChannel) (r : ClockResult) :
    (clockLoop n c r).1 = (clockLoop n c {}).1 := by
  induction n generalizing c r with
  | zero => rfl
  | succ n ih =>
    unfold clockLoop
    exact (ih _ _).trans (ih _ _).symm

end PitChannel

namespace Pit8253

/-- The control word, then the writes of the count, at any indices of the two registers. -/
def program (t : Pit8253) (controlIndex countIndex control : Byte) (raw : Word) : Pit8253 :=
  (PitChannel.countWrites (PitChannel.controlAccess control) raw).foldl
    (fun t value => t.write countIndex value) (t.write controlIndex control)

/-- One call of `clock` for each entry of the list. -/
def clocks (t : Pit8253) (i : Fin 3) (calls : List Nat) : Pit8253 :=
  calls.foldl (fun t pulses => (t.clock i pulses).1) t

theorem clocks_channel (t : Pit8253) (i : Fin 3) (calls : List Nat) :
    (t.clocks i calls).channels i = ((t.channels i).clockLoop calls.sum {}).1 := by
  induction calls generalizing t with
  | nil => rfl
  | cons pulses rest ih =>
    show ((t.clock i pulses).1.clocks i rest).channels i = _
    rw [ih, List.sum_cons, PitChannel.clockLoop_add, clock, modify_self,
      ← PitChannel.clockLoop_state rest.sum _ (PitChannel.clockLoop pulses (t.channels i) {}).2]

theorem write_count (t : Pit8253) {countIndex : Byte} {i : Fin 3} (hcount : channelIndex countIndex = some i)
    (value : Byte) : t.write countIndex value = t.modify i (·.write value) := by
  rw [write, hcount]

theorem program_channel (t : Pit8253) {i : Fin 3} {controlIndex countIndex control : Byte} (raw : Word)
    (hcontrol : channelIndex controlIndex = none) (hcount : channelIndex countIndex = some i)
    (hselect : channelIndex (control >>> 6) = some i)
    (haccess : PitChannel.controlAccess control ≠ .latch) :
    (t.program controlIndex countIndex control raw).channels i =
      (PitChannel.countWrites (PitChannel.controlAccess control) raw).foldl PitChannel.write
        ((t.channels i).configure control) := by
  have hconfigures : t.write controlIndex control = t.modify i (·.configure control) := by
    simp only [write, hcontrol, hselect, haccess, if_false]
  have hwrites : ∀ (values : List Byte) (t : Pit8253),
      (values.foldl (fun t value => t.write countIndex value) t).channels i =
        values.foldl PitChannel.write (t.channels i) := by
    intro values
    induction values with
    | nil => exact fun t => rfl
    | cons value values ih =>
      intro t
      rw [List.foldl_cons, List.foldl_cons, ih, write_count t hcount, modify_self]
  rw [program, hwrites, hconfigures, modify_self]

/-- The control word and the count bring the channel to the load of the written count. -/
theorem program_load (t : Pit8253) {i : Fin 3} {controlIndex countIndex control : Byte} (raw : Word)
    (hcontrol : channelIndex controlIndex = none) (hcount : channelIndex countIndex = some i)
    (hselect : channelIndex (control >>> 6) = some i)
    (haccess : PitChannel.controlAccess control ≠ .latch) :
    ∃ c : PitChannel,
      c.mode = PitChannel.controlMode control ∧ c.bcd = hasBits control 0x01#8 ∧
        c.gate = t.gate i ∧
        (t.program controlIndex countIndex control raw).channels i =
          c.load (PitChannel.writtenCount (PitChannel.controlAccess control) raw) := by
  rw [program_channel t raw hcontrol hcount hselect haccess]
  exact PitChannel.foldl_countWrites (t.channels i) raw haccess

/-- What `clocks` and `clock` show of a channel whose pulses keep `P`. -/
theorem clocks_invariant {P : Nat → PitChannel → ClockResult → Prop} {t : Pit8253} {i : Fin 3}
    (h : P 0 (t.channels i) {})
    (hstep : ∀ k c r, P k c r →
      P (k + 1) c.clockOnce (PitChannel.countEdge r c.output c.clockOnce.output))
    (calls : List Nat) :
    P calls.sum ((t.clocks i calls).channels i) (t.clock i calls.sum).2 := by
  rw [clocks_channel]
  exact PitChannel.clockLoop_invariant h hstep calls.sum

/-- The output of each mode, and the rising edges that `clock` reports, `k` pulses after the count was
loaded with the gate high (modes 1 and 5: after the gate has risen), in any number of calls. -/
theorem waveforms (t : Pit8253) {i : Fin 3} {controlIndex countIndex control : Byte} (raw : Word)
    (calls : List Nat) (hcontrol : channelIndex controlIndex = none)
    (hcount : channelIndex countIndex = some i) (hselect : channelIndex (control >>> 6) = some i)
    (haccess : PitChannel.controlAccess control ≠ .latch) :
    let N := decodeCount (PitChannel.writtenCount (PitChannel.controlAccess control) raw)
      (hasBits control 0x01#8)
    let k := calls.sum
    let loaded := t.program controlIndex countIndex control raw
    let triggered := (loaded.setGate i false).setGate i true
    (PitChannel.controlMode control = 0 → t.gate i = true →
      ((loaded.clocks i calls).output i = true ↔ N ≤ k) ∧
        (N ≤ k → (loaded.clock i k).2.risingEdges = 1)) ∧
    (PitChannel.controlMode control = 1 →
      ((triggered.clocks i calls).output i = false ↔ k < N)) ∧
    (PitChannel.controlMode control = 2 → t.gate i = true → 2 ≤ N →
      ((loaded.clocks i calls).output i = false ↔ 1 ≤ k ∧ N ∣ k) ∧
        (1 ≤ k → (loaded.clock i k).2.risingEdges = (k - 1) / N)) ∧
    (PitChannel.controlMode control = 3 → t.gate i = true → 2 ≤ N →
      ((loaded.clocks i calls).output i = true ↔ k % N < (N + 1) / 2) ∧
        (loaded.clock i k).2.risingEdges = k / N) ∧
    (PitChannel.controlMode control = 4 → t.gate i = true →
      ((loaded.clocks i calls).output i = false ↔ k = N)) ∧
    (PitChannel.controlMode control = 5 →
      ((triggered.clocks i calls).output i = false ↔ k = N)) := by
  obtain ⟨c, hmode, hbcd, hgate, hload⟩ := program_load t raw hcontrol hcount hselect haccess
  intro N k loaded triggered
  have hloads : N = decodeCount (PitChannel.writtenCount (PitChannel.controlAccess control) raw)
      c.bcd := by rw [hbcd]
  have hstart : loaded.channels i =
      c.load (PitChannel.writtenCount (PitChannel.controlAccess control) raw) := hload
  have htrigger : triggered.channels i =
      ((c.load (PitChannel.writtenCount (PitChannel.controlAccess control) raw)).setGate
        false).setGate true := by
    show ((loaded.setGate i false).setGate i true).channels i = _
    rw [setGate, modify_self, setGate, modify_self, hstart]
  refine ⟨fun hm hg => ?_, fun hm => ?_, fun hm hg hN => ?_, fun hm hg hN => ?_, fun hm hg => ?_,
    fun hm => ?_⟩
  · have hwave := clocks_invariant (t := loaded) (P := PitChannel.OneShot N)
      (by rw [hstart, hloads]; exact .of_load (hmode.trans hm) (hgate.trans hg))
      (fun _ _ _ h => h.clockOnce) calls
    refine ⟨?_, fun hk => ?_⟩
    · rw [output, hwave.output, decide_eq_true_eq]
    · rw [hwave.edges, if_pos hk]
  · have hwave := clocks_invariant (t := triggered) (P := PitChannel.OneShot N)
      (by rw [htrigger, hloads]; exact .of_trigger (hmode.trans hm))
      (fun _ _ _ h => h.clockOnce) calls
    rw [output, hwave.output, decide_eq_false_iff_not, Nat.not_le]
  · have hwave := clocks_invariant (t := loaded) (P := PitChannel.Rate N)
      (by rw [hstart, hloads]; exact .of_load (hmode.trans hm) (hgate.trans hg))
      (fun _ _ _ h => h.clockOnce hN) calls
    refine ⟨?_, fun _ => hwave.edges⟩
    rw [output, hwave.output, Bool.or_eq_false_iff, decide_eq_false_iff_not,
      decide_eq_false_iff_not, Decidable.not_not, Nat.dvd_iff_mod_eq_zero, Nat.one_le_iff_ne_zero]
  · have hwave := clocks_invariant (t := loaded) (P := PitChannel.Square N)
      (by rw [hstart, hloads]; exact .of_load (hmode.trans hm) (hgate.trans hg))
      (fun _ _ _ h => h.clockOnce hN) calls
    refine ⟨?_, hwave.edges⟩
    rw [output, hwave.output, decide_eq_true_eq]
  · have hwave := clocks_invariant (t := loaded) (P := PitChannel.Strobe N)
      (by rw [hstart, hloads]; exact .of_load (hmode.trans hm) (hgate.trans hg))
      (fun _ _ _ h => h.clockOnce) calls
    rw [output, hwave.output, decide_eq_false_iff_not, Decidable.not_not]
  · have hwave := clocks_invariant (t := triggered) (P := PitChannel.Strobe N)
      (by rw [htrigger, hloads]; exact .of_trigger (hmode.trans hm))
      (fun _ _ _ h => h.clockOnce) calls
    rw [output, hwave.output, decide_eq_false_iff_not, Decidable.not_not]

/-- Channel 1 as a rate generator of period 3, after 2 and 7 pulses. -/
theorem waveforms_at_nine :
    ((((({} : Pit8253).setGate 1 true).program 0x07#8 0x11#8 0x74#8 3#16).clocks 1 [2, 7]).output 1 =
        false) ∧
      (((({} : Pit8253).setGate 1 true).program 0x07#8 0x11#8 0x74#8 3#16).clock 1 9).2.risingEdges = 2 := by
  have hselect : channelIndex (0x74#8 >>> 6) = some 1 := by decide
  have hwave := (@waveforms (({} : Pit8253).setGate 1 true) 1 0x07#8 0x11#8 0x74#8 3#16 [2, 7] (by decide)
    (by decide) hselect (by decide)).2.2.1
    (by decide) (by decide) (by decide)
  exact ⟨hwave.1.mpr ⟨by decide, by decide⟩, hwave.2 (by decide)⟩

end Pit8253
end FK1
