import FK1.Pit8253
import FK1.Lib.Observe

/-!
# FK1.PitOps

The operations of `Pit8253` as one type, what each of them shows (the byte of a read, the edges of a
`clock`, and the outputs and counts after it), and the states the operations reach.
-/

namespace FK1

open Run Observe

/-- What an operation of the timer does to one channel. -/
inductive PitChannel.Op where
  | read
  | write (value : Byte)
  | latchCount
  | configure (control : Byte)
  | setGate (high : Bool)
  | clock (pulses : Nat)
  deriving DecidableEq, Repr

def PitChannel.apply (c : PitChannel) : Op → PitChannel
  | .read => c.read.2
  | .write value => c.write value
  | .latchCount => c.latchCount
  | .configure control => c.configure control
  | .setGate high => c.setGate high
  | .clock pulses => (c.clockLoop pulses {}).1

namespace Pit8253

inductive Op where
  | read (registerIndex : Byte)
  | write (registerIndex value : Byte)
  | setGate (channel : Fin 3) (high : Bool)
  | clock (channel : Fin 3) (pulses : Nat)
  deriving DecidableEq, Repr

def apply (t : Pit8253) : Op → Pit8253
  | .read registerIndex => (t.read registerIndex).2
  | .write registerIndex value => t.write registerIndex value
  | .setGate channel high => t.setGate channel high
  | .clock channel pulses => (t.clock channel pulses).1

/-- The part of an operation that concerns channel `i`. -/
def Op.on (i : Fin 3) : Op → Option PitChannel.Op
  | .read registerIndex => if channelIndex registerIndex = some i then some .read else none
  | .write registerIndex value =>
    if channelIndex registerIndex = some i then some (.write value)
    else if channelIndex registerIndex = none ∧ channelIndex (value >>> 6) = some i then
      if PitChannel.controlAccess value = .latch then some .latchCount else some (.configure value)
    else none
  | .setGate channel high => if channel = i then some (.setGate high) else none
  | .clock channel pulses => if channel = i then some (.clock pulses) else none

def readValue (t : Pit8253) : Op → Option Byte
  | .read registerIndex => some (t.read registerIndex).1
  | _ => none

def reportedEdges (t : Pit8253) : Op → Option ClockResult
  | .clock channel pulses => some (t.clock channel pulses).2
  | _ => none

structure View where
  value : Option Byte
  edges : Option ClockResult
  outputs : Fin 3 → Bool
  counts : Fin 3 → Word

def view (t : Pit8253) (op : Op) : View where
  value := t.readValue op
  edges := t.reportedEdges op
  outputs := (t.apply op).output
  counts := (t.apply op).count

/-- The states a run of operations reaches from power-on. -/
def Reached (t : Pit8253) : Prop := Reachable apply {} t

end Pit8253

namespace PitChannel

variable {c : PitChannel}

/-! ## The states of a channel -/

/-- What every operation keeps: when a channel runs, and what has happened where it does not. -/
structure Sound (c : PitChannel) : Prop where
  gateStops : c.GateStops
  unloaded : c.countLoaded = false → c.running = false
  strobe : c.strobeLow = true → (c.mode = 4 ∨ c.mode = 5) ∧ c.output = false ∧ c.current = 0
  spent : c.mode = 0 ∨ c.mode = 4 → c.gate = true → c.countLoaded = true → c.running = false →
    c.strobeLow = false → c.output = true ∧ c.current = 0

theorem sound_default : Sound {} := by
  constructor <;> simp [GateStops]

theorem sound_configure (c : PitChannel) (control : Byte) : (c.configure control).Sound := by
  constructor <;> simp [GateStops, configure]

theorem sound_load (c : PitChannel) (raw : Word) : (c.load raw).Sound := by
  refine ⟨gateStops_load c raw, ?_, ?_, ?_⟩ <;>
  · unfold load
    dsimp only
    split <;> simp_all

theorem Sound.clockOnce (h : c.Sound) : c.clockOnce.Sound := by
  obtain ⟨hgate, hunloaded, hstrobe, hspent⟩ := h
  refine ⟨hgate.clockOnce, ?_, ?_, ?_⟩ <;>
  · unfold PitChannel.clockOnce
    repeat' split
    all_goals simp_all

theorem Sound.clockLoop (h : c.Sound) (n : Nat) (r : ClockResult) : (clockLoop n c r).1.Sound := by
  induction n generalizing c r with
  | zero => exact h
  | succ n ih => exact ih h.clockOnce _

theorem Sound.setGate (h : c.Sound) (high : Bool) : (c.setGate high).Sound := by
  obtain ⟨-, hunloaded, hstrobe, hspent⟩ := h
  refine ⟨gateStops_setGate c high, ?_, ?_, ?_⟩ <;>
  · unfold PitChannel.setGate trigger
    dsimp only
    repeat' split
    all_goals simp_all

theorem Sound.latchCount (h : c.Sound) : c.latchCount.Sound := by
  unfold PitChannel.latchCount
  split <;> exact ⟨h.gateStops, h.unloaded, h.strobe, h.spent⟩

theorem Sound.read (h : c.Sound) : c.read.2.Sound := by
  unfold PitChannel.read
  dsimp only
  repeat' split
  all_goals exact ⟨h.gateStops, h.unloaded, h.strobe, h.spent⟩

theorem Sound.write (h : c.Sound) (value : Byte) : (c.write value).Sound := by
  unfold PitChannel.write
  repeat' split
  · exact sound_load _ _
  · exact sound_load _ _
  · exact ⟨h.gateStops, h.unloaded, h.strobe, h.spent⟩
  · exact sound_load _ _
  · exact h

theorem Sound.apply (c : PitChannel) (op : Op) (h : c.Sound) : (c.apply op).Sound := by
  cases op with
  | read => exact h.read
  | write value => exact h.write value
  | latchCount => exact h.latchCount
  | configure control => exact sound_configure c control
  | setGate high => exact h.setGate high
  | clock pulses => exact h.clockLoop pulses {}

/-- Two channels whose outputs agree, pulse by pulse, report the same edges. -/
theorem clockLoop_related {Q : PitChannel → PitChannel → Prop}
    (houtput : ∀ {c d}, Q c d → c.output = d.output)
    (hstep : ∀ {c d}, Q c d → Q c.clockOnce d.clockOnce) {c d : PitChannel} (h : Q c d) (n : Nat)
    (r : ClockResult) :
    Q (clockLoop n c r).1 (clockLoop n d r).1 ∧ (clockLoop n c r).2 = (clockLoop n d r).2 := by
  induction n generalizing c d r with
  | zero => exact ⟨h, rfl⟩
  | succ n ih =>
    rw [clockLoop_succ, clockLoop_succ, houtput h, houtput (hstep h)]
    exact ih (hstep h) _

end PitChannel

namespace Pit8253

theorem apply_channels (t : Pit8253) (op : Op) (i : Fin 3) :
    (t.apply op).channels i = (op.on i).elim (t.channels i) (t.channels i).apply := by
  cases op with
  | read registerIndex =>
    simp only [apply, read, Op.on]
    cases h : channelIndex registerIndex with
    | none => simp
    | some j =>
      by_cases hj : j = i
      · subst hj
        simp [PitChannel.apply]
      · simp [hj, modify_other _ _ (Ne.symm hj)]
  | write registerIndex value =>
    simp only [apply, write, Op.on]
    cases h : channelIndex registerIndex with
    | some j =>
      by_cases hj : j = i
      · subst hj
        simp [PitChannel.apply]
      · simp [hj, modify_other _ _ (Ne.symm hj)]
    | none =>
      cases hselect : channelIndex (value >>> 6) with
      | none => simp
      | some j =>
        by_cases hj : j = i
        · subst hj
          by_cases hlatch : PitChannel.controlAccess value = .latch <;>
            simp [hlatch, PitChannel.apply]
        · by_cases hlatch : PitChannel.controlAccess value = .latch <;>
            simp [hlatch, hj, modify_other _ _ (Ne.symm hj)]
  | setGate j high =>
    simp only [apply, setGate, Op.on]
    by_cases hj : j = i
    · subst hj
      simp [PitChannel.apply]
    · simp [hj, modify_other _ _ (Ne.symm hj)]
  | clock j pulses =>
    simp only [apply, clock, Op.on]
    by_cases hj : j = i
    · subst hj
      simp [PitChannel.apply]
    · simp [hj, modify_other _ _ (Ne.symm hj)]

/-- What every operation of a channel keeps, every operation of the timer keeps of all channels. -/
theorem apply_invariant {P : PitChannel → Prop} (h : ∀ c op, P c → P (PitChannel.apply c op))
    {t : Pit8253} (ht : ∀ i, P (t.channels i)) (op : Op) (i : Fin 3) : P ((t.apply op).channels i) := by
  rw [apply_channels]
  cases op.on i with
  | none => exact ht i
  | some a => exact h _ a (ht i)

theorem Reached.sound {t : Pit8253} (h : Reached t) (i : Fin 3) : (t.channels i).Sound :=
  h.invariant (I := fun t => ∀ i, (t.channels i).Sound) (fun _ => PitChannel.sound_default)
    (fun _ op ht => apply_invariant PitChannel.Sound.apply ht op) i

theorem reportedEdges_clock (t : Pit8253) (i : Fin 3) (pulses : Nat) :
    t.reportedEdges (.clock i pulses) = some ((t.channels i).clockLoop pulses {}).2 := rfl

theorem readValue_read (t : Pit8253) (registerIndex : Byte) :
    t.readValue (.read registerIndex) =
      some ((channelIndex registerIndex).elim 0xFF#8 fun i => (t.channels i).read.1) := by
  rw [readValue, read]
  cases channelIndex registerIndex <;> rfl

end Pit8253
end FK1
