import FK1.Ppi8255

/-!
# FK1.Pit8253

The 8253 interval timer as `pit8253.cpp` computes it: three channels with their control word, the
LSB/MSB toggles, the count latch, and one clock pulse at a time in the six modes.
-/

namespace FK1

inductive PitAccess where
  | latch
  | lsb
  | msb
  | lsbMsb
  deriving DecidableEq, Repr

/-- `Pit8253::Channel`. -/
structure PitChannel where
  access : PitAccess := .lsbMsb
  mode : Nat := 0
  bcd : Bool := false
  gate : Bool := false
  output : Bool := false
  countLoaded : Bool := false
  running : Bool := false
  waitingForTrigger : Bool := false
  writeLowNext : Bool := true
  readLowNext : Bool := true
  latched : Bool := false
  latchedLowNext : Bool := true
  strobeLow : Bool := false
  phaseHigh : Bool := true
  pendingLow : Byte := 0#8
  reloadRaw : Word := 0#16
  latchedValue : Word := 0#16
  reload : Nat := 0
  current : Nat := 0
  phaseRemaining : Nat := 0
  deriving DecidableEq, Repr

structure ClockResult where
  risingEdges : Nat := 0
  fallingEdges : Nat := 0
  deriving DecidableEq, Repr

def decodeCount (raw : Word) (bcd : Bool) : Nat :=
  if !bcd then (if raw = 0#16 then 65536 else raw.toNat)
  else
    let value := ((raw >>> 12) &&& 0x0F#16).toNat * 1000 + ((raw >>> 8) &&& 0x0F#16).toNat * 100
      + ((raw >>> 4) &&& 0x0F#16).toNat * 10 + (raw &&& 0x0F#16).toNat
    if value = 0 then 10000 else value

def encodeCount (value : Nat) (bcd : Bool) : Word :=
  if !bcd then BitVec.ofNat 16 value
  else if value = 10000 then 0#16
  else
    let value := value % 10000
    (BitVec.ofNat 16 (value / 1000) <<< 12) ||| (BitVec.ofNat 16 (value / 100 % 10) <<< 8)
      ||| (BitVec.ofNat 16 (value / 10 % 10) <<< 4) ||| BitVec.ofNat 16 (value % 10)

namespace PitChannel

def visibleCount (c : PitChannel) : Word :=
  if c.mode ≠ 3 then encodeCount c.current c.bcd
  else
    let value := c.phaseRemaining * 2
    let value := if c.phaseHigh && c.reload % 2 != 0 && value != 0 then value - 1 else value
    encodeCount value c.bcd

/-- The `Access` field of a control word. -/
def controlAccess (control : Byte) : PitAccess :=
  match ((control >>> 4) &&& 0x03#8).toNat with
  | 0 => .latch
  | 1 => .lsb
  | 2 => .msb
  | _ => .lsbMsb

/-- The mode field of a control word; 6 and 7 are modes 2 and 3. -/
def controlMode (control : Byte) : Nat :=
  let mode := ((control >>> 1) &&& 0x07#8).toNat
  if mode = 6 then 2 else if mode = 7 then 3 else mode

def configure (c : PitChannel) (control : Byte) : PitChannel :=
  { c with
    access := controlAccess control
    mode := controlMode control
    bcd := hasBits control 0x01#8
    output := controlMode control != 0
    countLoaded := false
    running := false
    waitingForTrigger := controlMode control == 1 || controlMode control == 5
    writeLowNext := true
    readLowNext := true
    latched := false
    latchedLowNext := true
    strobeLow := false
    phaseHigh := true
    pendingLow := 0#8
    reloadRaw := 0#16
    reload := 0
    current := 0
    phaseRemaining := 0 }

def load (c : PitChannel) (raw : Word) : PitChannel :=
  let c := { c with
    reloadRaw := raw
    reload := decodeCount raw c.bcd
    current := decodeCount raw c.bcd
    countLoaded := true
    strobeLow := false
    phaseHigh := true }
  match c.mode with
  | 0 => { c with output := false, running := c.gate }
  | 1 => { c with output := true, running := false, waitingForTrigger := true }
  | 2 => { c with output := true, running := c.gate }
  | 3 => { c with output := true, running := c.gate, phaseRemaining := (c.reload + 1) / 2 }
  | 4 => { c with output := true, running := c.gate }
  | 5 => { c with output := true, running := false, waitingForTrigger := true }
  | _ => c

def trigger (c : PitChannel) : PitChannel :=
  { c with
    current := c.reload
    output := c.mode != 1
    running := true
    waitingForTrigger := false
    strobeLow := false }

def clockOnce (c : PitChannel) : PitChannel :=
  if !c.running || !c.countLoaded then c
  else match c.mode with
  | 0 | 1 =>
    if c.current > 1 then { c with current := c.current - 1 }
    else { c with current := 0, output := true, running := false }
  | 2 =>
    if !c.output then
      if c.current > 1 then { c with output := true, current := c.current - 1 }
      else { c with output := true }
    else if c.current > 1 then { c with current := c.current - 1 }
    else { c with current := c.reload, output := false }
  | 3 =>
    if c.phaseRemaining > 1 then { c with phaseRemaining := c.phaseRemaining - 1 }
    else
      let output := !c.output
      let phaseRemaining := if output then (c.reload + 1) / 2 else c.reload / 2
      { c with
        output := output
        phaseHigh := output
        phaseRemaining := if phaseRemaining = 0 then 1 else phaseRemaining }
  | 4 | 5 =>
    if c.strobeLow then { c with output := true, strobeLow := false, running := false }
    else if c.current > 1 then { c with current := c.current - 1 }
    else { c with current := 0, output := false, strobeLow := true }
  | _ => c

/-- The loop of `Pit8253::clock`: `pulses` steps, counting the edges of the output. -/
def clockLoop : Nat → PitChannel → ClockResult → PitChannel × ClockResult
  | 0, c, result => (c, result)
  | pulses + 1, c, result =>
    let next := c.clockOnce
    clockLoop pulses next
      (if !c.output && next.output then { result with risingEdges := result.risingEdges + 1 }
       else if c.output && !next.output then
         { result with fallingEdges := result.fallingEdges + 1 }
       else result)

/-- The edge that one pulse adds to the result. -/
def countEdge (r : ClockResult) (before after : Bool) : ClockResult :=
  if !before && after then { r with risingEdges := r.risingEdges + 1 }
  else if before && !after then { r with fallingEdges := r.fallingEdges + 1 }
  else r

theorem clockLoop_succ (n : Nat) (c : PitChannel) (r : ClockResult) :
    clockLoop (n + 1) c r = clockLoop n c.clockOnce (countEdge r c.output c.clockOnce.output) := rfl

def setGate (c : PitChannel) (high : Bool) : PitChannel :=
  let rising := !c.gate && high
  let falling := c.gate && !high
  let c := { c with gate := high }
  match c.mode with
  | 0 | 4 => { c with running := c.countLoaded && high && !c.strobeLow }
  | 1 | 5 => if rising && c.countLoaded then c.trigger else c
  | 2 | 3 =>
    if falling then { c with running := false, output := true }
    else if rising && c.countLoaded then
      { c with
        current := c.reload
        phaseHigh := true
        phaseRemaining := if c.mode = 3 then (c.reload + 1) / 2 else 0
        output := true
        running := true }
    else c
  | _ => c

/-- The count latch command. -/
def latchCount (c : PitChannel) : PitChannel :=
  if !c.latched then { c with latchedValue := c.visibleCount, latched := true, latchedLowNext := true }
  else c

def read (c : PitChannel) : Byte × PitChannel :=
  let value := if c.latched then c.latchedValue else c.visibleCount
  let low := value.setWidth 8
  let high := (value >>> 8).setWidth 8
  match c.access with
  | .lsb => (low, { c with latched := false })
  | .msb => (high, { c with latched := false })
  | .lsbMsb =>
    if c.latched then
      if c.latchedLowNext then (low, { c with latchedLowNext := false })
      else (high, { c with latchedLowNext := true, latched := false })
    else if c.readLowNext then (low, { c with readLowNext := false })
    else (high, { c with readLowNext := true, latched := false })
  | .latch => (0xFF#8, c)

def write (c : PitChannel) (value : Byte) : PitChannel :=
  match c.access with
  | .lsb => c.load (value.setWidth 16)
  | .msb => c.load (value.setWidth 16 <<< 8)
  | .lsbMsb =>
    if c.writeLowNext then { c with pendingLow := value, writeLowNext := false }
    else { c with writeLowNext := true }.load ((value.setWidth 16 <<< 8) ||| c.pendingLow.setWidth 16)
  | .latch => c

/-! ## The gate -/

theorem configure_gate (c : PitChannel) (control : Byte) : (c.configure control).gate = c.gate := rfl

theorem load_gate (c : PitChannel) (raw : Word) : (c.load raw).gate = c.gate := by
  unfold load; dsimp only; split <;> rfl

theorem clockOnce_gate (c : PitChannel) : c.clockOnce.gate = c.gate := by
  unfold clockOnce
  repeat' split
  all_goals rfl

theorem clockOnce_mode (c : PitChannel) : c.clockOnce.mode = c.mode := by
  unfold clockOnce
  repeat' split
  all_goals rfl

theorem clockLoop_gate (n : Nat) (c : PitChannel) (r : ClockResult) :
    (clockLoop n c r).1.gate = c.gate := by
  induction n generalizing c r with
  | zero => rfl
  | succ n ih => rw [clockLoop, ih, clockOnce_gate]

theorem latchCount_gate (c : PitChannel) : c.latchCount.gate = c.gate := by
  unfold latchCount; split <;> rfl

theorem read_gate (c : PitChannel) : c.read.2.gate = c.gate := by
  unfold read; dsimp only; repeat' split
  all_goals rfl

theorem write_gate (c : PitChannel) (value : Byte) : (c.write value).gate = c.gate := by
  unfold write
  repeat' split
  all_goals first | rfl | exact load_gate _ _

theorem setGate_gate (c : PitChannel) (high : Bool) : (c.setGate high).gate = high := by
  unfold setGate trigger
  dsimp only
  repeat' split
  all_goals rfl

/-- In modes 0 and 4 a low gate has stopped the channel. -/
def GateStops (c : PitChannel) : Prop := c.gate = false → c.mode = 0 ∨ c.mode = 4 → c.running = false

theorem gateStops_configure (c : PitChannel) (control : Byte) : (c.configure control).GateStops :=
  fun _ _ => rfl

theorem gateStops_load (c : PitChannel) (raw : Word) : (c.load raw).GateStops := by
  intro hgate hmode
  rw [load_gate] at hgate
  unfold load at hmode ⊢
  dsimp only at hmode ⊢
  split at hmode <;> simp_all

theorem GateStops.clockOnce {c : PitChannel} (h : c.GateStops) : c.clockOnce.GateStops := by
  intro hgate hmode
  rw [clockOnce_gate] at hgate
  rw [clockOnce_mode] at hmode
  have hr := h hgate hmode
  simp [PitChannel.clockOnce, hr]

theorem GateStops.clockLoop {c : PitChannel} (h : c.GateStops) (n : Nat) (r : ClockResult) :
    (clockLoop n c r).1.GateStops := by
  induction n generalizing c r with
  | zero => exact h
  | succ n ih => exact ih h.clockOnce _

theorem GateStops.latchCount {c : PitChannel} (h : c.GateStops) : c.latchCount.GateStops := by
  unfold PitChannel.latchCount; split <;> exact h

theorem GateStops.read {c : PitChannel} (h : c.GateStops) : c.read.2.GateStops := by
  unfold PitChannel.read; dsimp only; repeat' split
  all_goals exact h

theorem GateStops.write {c : PitChannel} (h : c.GateStops) (value : Byte) : (c.write value).GateStops := by
  unfold PitChannel.write
  repeat' split
  all_goals first | exact h | exact gateStops_load _ _

theorem gateStops_setGate (c : PitChannel) (high : Bool) : (c.setGate high).GateStops := by
  intro hgate hmode
  rw [setGate_gate] at hgate
  subst hgate
  unfold setGate trigger at hmode ⊢
  dsimp only at hmode ⊢
  repeat' split at hmode
  all_goals simp_all

/-- Lowering a gate that is low already changes nothing. -/
theorem GateStops.setGate_false {c : PitChannel} (h : c.GateStops) (hg : c.gate = false) :
    c.setGate false = c := by
  have hr := h hg
  cases c
  simp only at hg hr
  subst hg
  unfold setGate
  dsimp only
  split <;> simp_all

/-! ## A gate that stays high -/

theorem decodeCount_pos (raw : Word) (bcd : Bool) : 0 < decodeCount raw bcd := by
  unfold decodeCount
  split
  · split
    · decide
    · rename_i h
      exact Nat.pos_of_ne_zero fun h0 => h (BitVec.eq_of_toNat_eq h0)
  · dsimp only
    split
    · decide
    · omega

/-- With the gate high, a loaded mode 0 count runs until the output rises. -/
structure Armed (c : PitChannel) : Prop where
  gate : c.gate = true
  runs : c.mode = 0 → c.countLoaded = true → c.output = false → c.running = true ∧ 0 < c.current

theorem Armed.configure {c : PitChannel} (h : c.Armed) (control : Byte) : (c.configure control).Armed :=
  ⟨h.gate, nofun⟩

theorem Armed.load {c : PitChannel} (h : c.Armed) (raw : Word) : (c.load raw).Armed := by
  refine ⟨(load_gate c raw).trans h.gate, fun hmode _ _ => ?_⟩
  have hpos := decodeCount_pos raw c.bcd
  have hgate := h.gate
  unfold PitChannel.load at hmode ⊢
  dsimp only at hmode ⊢
  split at hmode <;> simp_all

theorem Armed.clockOnce {c : PitChannel} (h : c.Armed) : c.clockOnce.Armed := by
  refine ⟨(clockOnce_gate c).trans h.gate, fun hmode hl ho => ?_⟩
  rw [clockOnce_mode] at hmode
  have hruns := h.runs hmode
  unfold PitChannel.clockOnce at hl ho ⊢
  rw [hmode] at hl ho ⊢
  split at hl
  · rename_i hidle; rw [if_pos hidle] at ho ⊢; exact hruns hl ho
  · rename_i hidle
    rw [if_neg hidle] at ho ⊢
    simp only at hl ho ⊢
    split at ho
    · rename_i hc
      rw [if_pos hc]
      simp only [Bool.or_eq_true, Bool.not_eq_true', not_or, Bool.not_eq_false] at hidle
      exact ⟨hidle.1, by simp only; omega⟩
    · cases ho

theorem Armed.clockLoop {c : PitChannel} (h : c.Armed) (n : Nat) (r : ClockResult) :
    (clockLoop n c r).1.Armed := by
  induction n generalizing c r with
  | zero => exact h
  | succ n ih => exact ih h.clockOnce _

theorem Armed.latchCount {c : PitChannel} (h : c.Armed) : c.latchCount.Armed := by
  unfold PitChannel.latchCount; split <;> exact ⟨h.gate, h.runs⟩

theorem Armed.read {c : PitChannel} (h : c.Armed) : c.read.2.Armed := by
  unfold PitChannel.read; dsimp only; repeat' split
  all_goals exact ⟨h.gate, h.runs⟩

theorem Armed.write {c : PitChannel} (h : c.Armed) (value : Byte) : (c.write value).Armed := by
  unfold PitChannel.write
  repeat' split
  · exact h.load _
  · exact h.load _
  · exact ⟨h.gate, h.runs⟩
  · exact load (c := { c with writeLowNext := true }) ⟨h.gate, h.runs⟩ _
  · exact h

/-- Raising the gate of an unloaded channel. -/
theorem armed_setGate {c : PitChannel} (h : c.countLoaded = false) : (c.setGate true).Armed := by
  refine ⟨setGate_gate c true, fun _ hl _ => ?_⟩
  have hstill : (c.setGate true).countLoaded = false := by
    unfold setGate trigger; dsimp only; repeat' split
    all_goals exact h
  rw [hstill] at hl; cases hl

/-- One pulse of a running mode 0 count. -/
theorem Armed.clockLoop_one {c : PitChannel} (h : c.Armed) (hm : c.mode = 0)
    (hl : c.countLoaded = true) (ho : c.output = false) (r : ClockResult) :
    (PitChannel.clockLoop 1 c r).1 =
      if c.current = 1 then { c with current := 0, output := true, running := false }
      else { c with current := c.current - 1 } := by
  obtain ⟨hrun, hpos⟩ := h.runs hm hl ho
  simp only [PitChannel.clockLoop, PitChannel.clockOnce, hrun, hl, hm, Bool.not_true, Bool.or_self,
    Bool.false_eq_true, if_false]
  by_cases hc : c.current = 1
  · rw [if_neg (by omega), if_pos hc]
  · rw [if_pos (by omega), if_neg hc]

end PitChannel

structure Pit8253 where
  channels : Fin 3 → PitChannel := fun _ => {}

namespace Pit8253

def modify (t : Pit8253) (channel : Fin 3) (f : PitChannel → PitChannel) : Pit8253 :=
  { channels := fun i => if i = channel then f (t.channels i) else t.channels i }

@[simp] theorem modify_self (t : Pit8253) (i : Fin 3) (f : PitChannel → PitChannel) :
    (t.modify i f).channels i = f (t.channels i) := by simp [modify]

@[simp] theorem modify_other (t : Pit8253) {i j : Fin 3} (f : PitChannel → PitChannel) (h : j ≠ i) :
    (t.modify i f).channels j = t.channels j := by simp [modify, h]

def reset (_ : Pit8253) : Pit8253 := {}

/-- The channel a register index or a control word addresses: none for 3. -/
def channelIndex (index : Byte) : Option (Fin 3) :=
  if h : (index &&& 0x03#8).toNat < 3 then some ⟨(index &&& 0x03#8).toNat, h⟩ else none

def read (t : Pit8253) (registerIndex : Byte) : Byte × Pit8253 :=
  match channelIndex registerIndex with
  | some i => ((t.channels i).read.1, t.modify i fun c => c.read.2)
  | none => (0xFF#8, t)

def write (t : Pit8253) (registerIndex value : Byte) : Pit8253 :=
  match channelIndex registerIndex with
  | some i => t.modify i (·.write value)
  | none =>
    match channelIndex (value >>> 6) with
    -- The 8253 has no 8254-style read-back command.
    | none => t
    | some i =>
      if PitChannel.controlAccess value = .latch then t.modify i (·.latchCount)
      else t.modify i (·.configure value)

def setGate (t : Pit8253) (channel : Fin 3) (high : Bool) : Pit8253 :=
  t.modify channel (·.setGate high)

def gate (t : Pit8253) (channel : Fin 3) : Bool := (t.channels channel).gate

def output (t : Pit8253) (channel : Fin 3) : Bool := (t.channels channel).output

def count (t : Pit8253) (channel : Fin 3) : Word := (t.channels channel).visibleCount

def clock (t : Pit8253) (channel : Fin 3) (pulses : Nat) : Pit8253 × ClockResult :=
  (t.modify channel fun c => (c.clockLoop pulses {}).1, ((t.channels channel).clockLoop pulses {}).2)

theorem modify_gate {t : Pit8253} {f : PitChannel → PitChannel} (hf : ∀ c, (f c).gate = c.gate)
    (i j : Fin 3) : (t.modify j f).gate i = t.gate i := by
  by_cases h : i = j
  · subst h; simp [gate, hf]
  · simp [gate, h]

theorem modify_gateStops {t : Pit8253} {f : PitChannel → PitChannel} {i : Fin 3}
    (hf : ∀ c : PitChannel, c.GateStops → (f c).GateStops) (h : (t.channels i).GateStops)
    (j : Fin 3) : ((t.modify j f).channels i).GateStops := by
  by_cases hij : i = j
  · subst hij; rw [modify_self]; exact hf _ h
  · rw [modify_other _ _ hij]; exact h

theorem read_gate (t : Pit8253) (registerIndex : Byte) (i : Fin 3) :
    (t.read registerIndex).2.gate i = t.gate i := by
  unfold read
  split
  · exact modify_gate PitChannel.read_gate i _
  · rfl

theorem write_gate (t : Pit8253) (registerIndex value : Byte) (i : Fin 3) :
    (t.write registerIndex value).gate i = t.gate i := by
  unfold write
  repeat' split
  · exact modify_gate (fun c => PitChannel.write_gate c value) i _
  · rfl
  · exact modify_gate PitChannel.latchCount_gate i _
  · exact modify_gate (fun c => PitChannel.configure_gate c value) i _

theorem read_gateStops {t : Pit8253} {i : Fin 3} (h : (t.channels i).GateStops)
    (registerIndex : Byte) : ((t.read registerIndex).2.channels i).GateStops := by
  unfold read
  split
  · exact modify_gateStops (fun _ hc => hc.read) h _
  · exact h

theorem write_gateStops {t : Pit8253} {i : Fin 3} (h : (t.channels i).GateStops)
    (registerIndex value : Byte) : ((t.write registerIndex value).channels i).GateStops := by
  unfold write
  repeat' split
  · exact modify_gateStops (fun _ hc => hc.write value) h _
  · exact h
  · exact modify_gateStops (fun _ hc => hc.latchCount) h _
  · exact modify_gateStops (fun c _ => PitChannel.gateStops_configure c value) h _

theorem clock_gate (t : Pit8253) (j : Fin 3) (pulses : Nat) (i : Fin 3) :
    (t.clock j pulses).1.gate i = t.gate i :=
  modify_gate (fun c => PitChannel.clockLoop_gate pulses c {}) i j

theorem clock_gateStops {t : Pit8253} {i : Fin 3} (h : (t.channels i).GateStops) (j : Fin 3)
    (pulses : Nat) : ((t.clock j pulses).1.channels i).GateStops :=
  modify_gateStops (fun _ hc => hc.clockLoop pulses {}) h j

@[simp] theorem clock_other (t : Pit8253) {i j : Fin 3} (pulses : Nat) (h : j ≠ i) :
    (t.clock i pulses).1.channels j = t.channels j :=
  modify_other t (fun c => (c.clockLoop pulses {}).1) h

@[simp] theorem setGate_other (t : Pit8253) {i j : Fin 3} (high : Bool) (h : j ≠ i) :
    (t.setGate i high).channels j = t.channels j := modify_other _ _ h

@[simp] theorem setGate_gate_self (t : Pit8253) (i : Fin 3) (high : Bool) :
    (t.setGate i high).gate i = high := by simp [setGate, gate, PitChannel.setGate_gate]

theorem setGate_gate_other (t : Pit8253) {i j : Fin 3} (high : Bool) (h : j ≠ i) :
    (t.setGate i high).gate j = t.gate j := by simp [gate, h]

theorem setGate_gateStops (t : Pit8253) (i : Fin 3) (high : Bool) :
    ((t.setGate i high).channels i).GateStops := by
  rw [setGate, modify_self]; exact PitChannel.gateStops_setGate _ _

theorem modify_armed {t : Pit8253} {f : PitChannel → PitChannel} {i : Fin 3}
    (hf : ∀ c : PitChannel, c.Armed → (f c).Armed) (h : (t.channels i).Armed) (j : Fin 3) :
    ((t.modify j f).channels i).Armed := by
  by_cases hij : i = j
  · subst hij; rw [modify_self]; exact hf _ h
  · rw [modify_other _ _ hij]; exact h

theorem read_armed {t : Pit8253} {i : Fin 3} (h : (t.channels i).Armed) (registerIndex : Byte) :
    ((t.read registerIndex).2.channels i).Armed := by
  unfold read
  split
  · exact modify_armed (fun _ hc => hc.read) h _
  · exact h

theorem write_armed {t : Pit8253} {i : Fin 3} (h : (t.channels i).Armed)
    (registerIndex value : Byte) : ((t.write registerIndex value).channels i).Armed := by
  unfold write
  repeat' split
  · exact modify_armed (fun _ hc => hc.write value) h _
  · exact h
  · exact modify_armed (fun _ hc => hc.latchCount) h _
  · exact modify_armed (fun _ hc => hc.configure value) h _

theorem clock_armed {t : Pit8253} {i : Fin 3} (h : (t.channels i).Armed) (j : Fin 3)
    (pulses : Nat) : ((t.clock j pulses).1.channels i).Armed :=
  modify_armed (fun _ hc => hc.clockLoop pulses {}) h j

theorem setGate_armed_other {t : Pit8253} {i j : Fin 3} (h : (t.channels j).Armed) (high : Bool)
    (hij : j ≠ i) : ((t.setGate i high).channels j).Armed := by
  rw [setGate_other _ _ hij]; exact h

/-- Setting a channel to itself. -/
theorem modify_eq_self {t : Pit8253} {i : Fin 3} {f : PitChannel → PitChannel}
    (h : f (t.channels i) = t.channels i) : t.modify i f = t := by
  have : (t.modify i f).channels = t.channels := by
    funext j
    by_cases hj : j = i
    · subst hj; simp [h]
    · simp [hj]
  cases t; simpa [modify] using this

end Pit8253
end FK1
