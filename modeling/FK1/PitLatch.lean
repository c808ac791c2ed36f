import FK1.PitOps

/-!
# FK1.PitLatch

The count latch of the 8253. A latched count is read low byte first whatever happens to the channel
meanwhile, and neither the latch command nor a read disturbs the counting.
-/

namespace FK1

open Run Observe

namespace PitChannel

variable {c d : PitChannel}

/-! ## A latched count stays -/

/-- The latch of an LSB/MSB channel holds `value`; `low`: the low byte is to be read next. -/
structure Holds (value : Word) (low : Bool) (c : PitChannel) : Prop where
  access : c.access = .lsbMsb
  latched : c.latched = true
  value : c.latchedValue = value
  low : c.latchedLowNext = low

variable {value : Word} {low : Bool}

theorem clockOnce_holds (h : c.Holds value low) : c.clockOnce.Holds value low := by
  unfold clockOnce
  repeat' split
  all_goals exact ⟨h.access, h.latched, h.value, h.low⟩

theorem clockLoop_holds (h : c.Holds value low) (n : Nat) (r : ClockResult) :
    (clockLoop n c r).1.Holds value low := by
  induction n generalizing c r with
  | zero => exact h
  | succ n ih => exact ih (clockOnce_holds h) _

theorem load_holds (h : c.Holds value low) (raw : Word) : (c.load raw).Holds value low := by
  unfold load
  dsimp only
  split <;> exact ⟨h.access, h.latched, h.value, h.low⟩

theorem write_holds (h : c.Holds value low) (byte : Byte) : (c.write byte).Holds value low := by
  unfold write
  repeat' split
  · exact load_holds h _
  · exact load_holds h _
  · exact ⟨h.access, h.latched, h.value, h.low⟩
  · exact load_holds (c := { c with writeLowNext := true }) ⟨h.access, h.latched, h.value, h.low⟩ _
  · exact h

theorem setGate_holds (h : c.Holds value low) (high : Bool) : (c.setGate high).Holds value low := by
  unfold setGate trigger
  dsimp only
  repeat' split
  all_goals exact ⟨h.access, h.latched, h.value, h.low⟩

theorem latchCount_holds (h : c.Holds value low) : c.latchCount.Holds value low := by
  simpa [latchCount, h.latched] using h

/-- Neither a read nor a control word. -/
def Op.sparesLatch : Op → Bool
  | .read => false
  | .configure _ => false
  | _ => true

theorem Holds.apply (h : c.Holds value low) {op : Op} (hop : op.sparesLatch = true) :
    (c.apply op).Holds value low := by
  cases op with
  | read => cases hop
  | write byte => exact write_holds h byte
  | latchCount => exact latchCount_holds h
  | configure control => cases hop
  | setGate high => exact setGate_holds h high
  | clock pulses => exact clockLoop_holds h pulses {}

theorem Holds.of_latchCount (haccess : c.access = .lsbMsb) (hlatched : c.latched = false) :
    c.latchCount.Holds c.visibleCount true := by
  simp [latchCount, hlatched]
  exact ⟨haccess, rfl, rfl, rfl⟩

theorem Holds.read_low (h : c.Holds value true) :
    c.read.1 = value.setWidth 8 ∧ c.read.2.Holds value false := by
  have hread : c.read = (c.latchedValue.setWidth 8, { c with latchedLowNext := false }) := by
    simp [PitChannel.read, h.access, h.latched, h.low]
  rw [hread]
  exact ⟨by rw [h.value], h.access, h.latched, h.value, rfl⟩

theorem Holds.read_high (h : c.Holds value false) : c.read.1 = (value >>> 8).setWidth 8 := by
  simp [PitChannel.read, h.access, h.latched, h.low, h.value]

/-! ## The counting -/

/-- The channel without its latch and the byte to be read next. -/
def counting (c : PitChannel) : PitChannel :=
  { c with latched := false, latchedLowNext := true, latchedValue := 0#16, readLowNext := true }

theorem counting_clockOnce (c : PitChannel) : c.clockOnce.counting = c.counting.clockOnce := by
  unfold clockOnce
  rw [apply_ite counting, show c.counting.mode = c.mode from rfl]
  refine ite_congr rfl (fun _ => rfl) fun _ => ?_
  split <;> simp only [apply_ite counting] <;> rfl

theorem counting_load (c : PitChannel) (raw : Word) :
    (c.load raw).counting = c.counting.load raw := by
  unfold load
  dsimp only
  rw [show c.counting.mode = c.mode from rfl]
  split <;> rfl

theorem counting_write (c : PitChannel) (byte : Byte) :
    (c.write byte).counting = c.counting.write byte := by
  unfold write
  rw [show c.counting.access = c.access from rfl]
  split
  · exact counting_load c _
  · exact counting_load c _
  · rw [apply_ite counting, counting_load]
    rfl
  · rfl

theorem counting_setGate (c : PitChannel) (high : Bool) :
    (c.setGate high).counting = c.counting.setGate high := by
  unfold setGate
  dsimp only
  rw [show c.counting.mode = c.mode from rfl]
  split
  · rfl
  · rfl
  all_goals
    first
    | rfl
    | (simp only [apply_ite counting]; rfl)

theorem counting_read (c : PitChannel) : c.read.2.counting = c.counting := by
  unfold read
  dsimp only
  repeat' split
  all_goals rfl

theorem counting_latchCount (c : PitChannel) : c.latchCount.counting = c.counting := by
  unfold latchCount
  split <;> rfl

theorem counting_output (h : c.counting = d.counting) : c.output = d.output := by
  have houtput := congrArg PitChannel.output h
  exact houtput

theorem counting_clockLoop (h : c.counting = d.counting) (n : Nat) :
    (clockLoop n c {}).1.counting = (clockLoop n d {}).1.counting ∧
      (clockLoop n c {}).2 = (clockLoop n d {}).2 :=
  clockLoop_related (Q := fun c d => c.counting = d.counting) counting_output
    (fun h => by rw [counting_clockOnce, counting_clockOnce, h]) h n {}

/-- Channels that count alike count alike after any operation. -/
theorem counting_apply (h : c.counting = d.counting) (op : Op) :
    (c.apply op).counting = (d.apply op).counting := by
  cases op with
  | read =>
    show c.read.2.counting = d.read.2.counting
    rw [counting_read, counting_read, h]
  | write byte =>
    show (c.write byte).counting = (d.write byte).counting
    rw [counting_write, counting_write, h]
  | latchCount =>
    show c.latchCount.counting = d.latchCount.counting
    rw [counting_latchCount, counting_latchCount, h]
  | configure control =>
    show c.counting.configure control = d.counting.configure control
    rw [h]
  | setGate high =>
    show (c.setGate high).counting = (d.setGate high).counting
    rw [counting_setGate, counting_setGate, h]
  | clock pulses => exact (counting_clockLoop h pulses).1

end PitChannel

namespace Pit8253

/-! ## Runs -/

/-- Latch commands and reads. -/
def IsProbe : Op → Prop
  | .read _ => True
  | .write registerIndex value =>
    channelIndex registerIndex = none ∧ PitChannel.controlAccess value = .latch
  | _ => False

theorem IsProbe.on {op : Op} (h : IsProbe op) (i : Fin 3) :
    op.on i = none ∨ op.on i = some .read ∨ op.on i = some .latchCount := by
  cases op with
  | read registerIndex =>
    by_cases hindex : channelIndex registerIndex = some i <;> simp [Op.on, hindex]
  | write registerIndex value =>
    obtain ⟨hnone, hlatch⟩ := h
    by_cases hselect : channelIndex (value >>> 6) = some i <;>
      simp [Op.on, hnone, hlatch, hselect]
  | setGate channel high => exact h.elim
  | clock channel pulses => exact h.elim

def SameCounts (t u : Pit8253) : Prop := ∀ i, (t.channels i).counting = (u.channels i).counting

theorem sameCounts_simulation : Simulation apply reportedEdges SameCounts := by
  refine ⟨fun op h => ?_, fun op h i => ?_⟩
  · cases op with
    | clock i pulses =>
      rw [reportedEdges_clock, reportedEdges_clock, (PitChannel.counting_clockLoop (h i) pulses).2]
    | _ => rfl
  · rw [apply_channels, apply_channels]
    cases op.on i with
    | none => exact h i
    | some a => exact PitChannel.counting_apply (h i) a

theorem SameCounts.probe {t u : Pit8253} {op : Op} (hop : IsProbe op) (h : SameCounts t u) :
    SameCounts t (u.apply op) := by
  intro i
  rw [apply_channels]
  obtain hon | hon | hon := hop.on i <;> rw [hon]
  · exact h i
  · exact (h i).trans (PitChannel.counting_read _).symm
  · exact (h i).trans (PitChannel.counting_latchCount _).symm

theorem SameCounts.output {t u : Pit8253} (h : SameCounts t u) : u.output = t.output :=
  funext fun i => (congrArg PitChannel.output (h i)).symm

theorem SameCounts.count {t u : Pit8253} (h : SameCounts t u) : u.count = t.count :=
  funext fun i => (congrArg PitChannel.visibleCount (h i)).symm

/-- No read of channel `i` and no control word that reprograms it. -/
def Spares (i : Fin 3) (ops : List Op) : Prop :=
  ∀ op ∈ ops, (op.on i).all PitChannel.Op.sparesLatch = true

instance (i : Fin 3) (ops : List Op) : Decidable (Spares i ops) := by
  unfold Spares
  infer_instance

theorem run_holds {i : Fin 3} {ops : List Op} (hops : Spares i ops) {value : Word} {low : Bool}
    {t : Pit8253} (h : (t.channels i).Holds value low) :
    ((run apply t ops).channels i).Holds value low := by
  induction ops generalizing t with
  | nil => exact h
  | cons op ops ih =>
    rw [run_cons]
    refine ih (fun op' hop' => hops op' (List.mem_cons_of_mem _ hop')) ?_
    have hop := hops op (List.mem_cons_self ..)
    rw [apply_channels]
    cases hon : op.on i with
    | none => exact h
    | some a =>
      rw [hon] at hop
      exact h.apply hop

/-- The two reads after a latch command return the bytes of the count at that moment, and latch
commands and reads put in anywhere change no output, reported edge or count. -/
theorem latch_coherent (t : Pit8253) :
    (∀ (i : Fin 3) (command control first second : Byte) (before between : List Op),
      channelIndex command = none → channelIndex (control >>> 6) = some i →
      PitChannel.controlAccess control = .latch →
      channelIndex first = some i → channelIndex second = some i →
      (t.channels i).access = .lsbMsb → (t.channels i).latched = false →
      Spares i before → Spares i between →
      let low := (run apply (t.write command control) before).read first
      let high := (run apply low.2 between).read second
      low.1 = (t.count i).setWidth 8 ∧ high.1 = (t.count i >>> 8).setWidth 8) ∧
    ∀ ops ops' : List Op, Inserted IsProbe ops ops' →
      (run apply t ops').output = (run apply t ops).output ∧
        (run apply t ops').count = (run apply t ops).count ∧
        events apply reportedEdges t ops' = events apply reportedEdges t ops := by
  refine ⟨?_, fun ops ops' hins => ?_⟩
  · intro i command control first second before between hnone hselect hlatch hfirst hsecond haccess
      hlatched hbefore hbetween low high
    have hread : ∀ (u : Pit8253) {index : Byte}, channelIndex index = some i →
        u.read index = ((u.channels i).read.1, u.modify i fun c => c.read.2) := by
      intro u index hindex
      rw [read, hindex]
    have hcommand : (t.write command control).channels i = (t.channels i).latchCount := by
      simp only [write, hnone, hselect, hlatch, if_true, modify_self]
    have hholds : ((t.write command control).channels i).Holds (t.count i) true := by
      rw [hcommand]
      exact .of_latchCount haccess hlatched
    obtain ⟨hlow, hnext⟩ := (run_holds hbefore hholds).read_low
    have hafter : (low.2.channels i).Holds (t.count i) false := by
      show (((run apply (t.write command control) before).read first).2.channels i).Holds _ _
      rw [hread _ hfirst, modify_self]
      exact hnext
    refine ⟨?_, ?_⟩
    · show ((run apply (t.write command control) before).read first).1 = _
      rw [hread _ hfirst]
      exact hlow
    · show ((run apply low.2 between).read second).1 = _
      rw [hread _ hsecond]
      exact (run_holds hbetween hafter).read_high
  · have hsilent : ∀ {u v : Pit8253} {op : Op}, IsProbe op → SameCounts u v →
        SameCounts u (v.apply op) := fun hop h => h.probe hop
    have hsame : SameCounts (run apply t ops) (run apply t ops') :=
      hins.run sameCounts_simulation hsilent fun _ => rfl
    refine ⟨hsame.output, hsame.count, hins.events_eq sameCounts_simulation hsilent ?_ fun _ => rfl⟩
    intro u op hop
    cases op with
    | clock channel pulses => exact hop.elim
    | _ => rfl

/-- Channel 0 with a count of 1234h. -/
def counter : Pit8253 :=
  run apply {} [.setGate 0 true, .write 0x03#8 0x30#8, .write 0x00#8 0x34#8, .write 0x00#8 0x12#8]

/-- The count is latched, runs on past a carry and is loaded again between the two reads. -/
theorem latch_coherent_reload :
    let low := (run apply (counter.write 0x03#8 0x00#8) [.clock 0 4]).read 0x00#8
    let high := (run apply low.2 [.write 0x00#8 0x78#8, .write 0x00#8 0x56#8]).read 0x00#8
    (low.1 = 0x34#8 ∧ high.1 = 0x12#8) ∧
      events apply reportedEdges counter [.write 0x03#8 0x00#8, .read 0x00#8, .clock 0 3] =
        events apply reportedEdges counter [.clock 0 3] := by
  obtain ⟨hcoherent, htransparent⟩ := latch_coherent counter
  refine ⟨?_, ?_⟩
  · exact hcoherent 0 0x03#8 0x00#8 0x00#8 0x00#8 [.clock 0 4]
      [.write 0x00#8 0x78#8, .write 0x00#8 0x56#8] (by decide) (by decide) (by decide) (by decide) (by decide)
      (by decide) (by decide) (by decide) (by decide)
  · exact (htransparent [.clock 0 3] [.write 0x03#8 0x00#8, .read 0x00#8, .clock 0 3]
      (.insert ⟨by decide, by decide⟩ (.insert trivial (.keep _ .nil)))).2.2

end Pit8253
end FK1
