import FK1.Lib.Countdown
import FK1.Keyboard

/-!
# FK1.KeyRepeat

The autorepeat of the keyboard over a whole run: while a key is held, `advance` is a countdown of
`Lib.Countdown` from the delay, and every other call leaves it alone.
-/

namespace FK1
namespace Keyboard

open Run Observe Countdown

inductive Op where
  | keyDown (keyId : Nat) (code : Byte)
  | keyUp (keyId : Nat)
  | advance (masterTicks : Nat)
  | reset
  deriving DecidableEq, Repr

def apply (k : Keyboard) : Op → Keyboard
  | .keyDown keyId code => (k.keyDown keyId code).2
  | .keyUp keyId => k.keyUp keyId
  | .advance masterTicks => (k.advance masterTicks).2
  | .reset => k.reset

/-- What an `advance` returns. -/
def repeats (k : Keyboard) : Op → Nat
  | .advance masterTicks => (k.advance masterTicks).1
  | _ => 0

def Op.masterTicks : Op → Nat
  | .advance masterTicks => masterTicks
  | _ => 0

/-- The call neither releases the key nor replaces it by another. -/
def Op.Keeps (keyId : Nat) : Op → Prop
  | .keyDown keyId' _ => keyId' = keyId
  | .keyUp keyId' => keyId' ≠ keyId
  | .advance _ => True
  | .reset => False

def Op.presses : Op → Bool
  | .keyDown _ _ => true
  | _ => false

/-- The key is held down, and repeats its code. -/
structure Holds (k : Keyboard) (keyId : Nat) (code : Byte) : Prop where
  held : k.keyHeld = true
  key : k.heldKeyId = keyId
  code : k.repeatCode = code
  waits : 0 < k.ticksUntilRepeat

variable {k : Keyboard} {keyId : Nat} {code : Byte}

theorem keyDown_accepted (haccepted : (k.keyDown keyId code).1.isSome = true) :
    (k.keyDown keyId code).2.Holds keyId code ∧
      (k.keyDown keyId code).2.ticksUntilRepeat = repeatDelayTicks := by
  unfold keyDown at haccepted ⊢
  split at haccepted
  · cases haccepted
  · rename_i hnew
    rw [if_neg hnew]
    exact ⟨⟨rfl, rfl, rfl, Nat.zero_lt_succ _⟩, rfl⟩

theorem Holds.advance (h : k.Holds keyId code) (masterTicks : Nat) :
    (k.advance masterTicks).1 = due k.ticksUntilRepeat repeatIntervalTicks masterTicks ∧
      (k.advance masterTicks).2 =
        { k with ticksUntilRepeat := left k.ticksUntilRepeat repeatIntervalTicks masterTicks } := by
  unfold Keyboard.advance due left
  rw [h.held, Bool.not_true, Bool.false_or]
  by_cases hwaits : masterTicks < k.ticksUntilRepeat
  · simp [hwaits]
  · simp [hwaits]

/-- Besides time, a call that keeps the key changes nothing. -/
theorem Holds.keeps (h : k.Holds keyId code) {op : Op} (hop : op.Keeps keyId) :
    (∃ masterTicks, op = .advance masterTicks) ∨
      (k.apply op = k ∧ k.repeats op = 0 ∧ op.masterTicks = 0) := by
  cases op with
  | keyDown keyId' code' =>
    have hsame : k.keyHeld = true ∧ k.heldKeyId = keyId' := ⟨h.held, h.key.trans (Eq.symm hop)⟩
    refine .inr ⟨?_, rfl, rfl⟩
    rw [apply, keyDown, if_pos hsame]
  | keyUp keyId' =>
    have hother : ¬(k.keyHeld = true ∧ k.heldKeyId = keyId') := fun hsame =>
      hop (hsame.2.symm.trans h.key)
    refine .inr ⟨?_, rfl, rfl⟩
    rw [apply, keyUp, if_neg hother]
  | advance masterTicks => exact .inl ⟨masterTicks, rfl⟩
  | reset => exact hop.elim

theorem Holds.step (h : k.Holds keyId code) {op : Op} (hop : op.Keeps keyId) :
    (k.apply op).Holds keyId code ∧
      k.repeats op = due k.ticksUntilRepeat repeatIntervalTicks op.masterTicks ∧
      (k.apply op).ticksUntilRepeat =
        left k.ticksUntilRepeat repeatIntervalTicks op.masterTicks := by
  obtain ⟨masterTicks, rfl⟩ | ⟨hsame, hnone, htime⟩ := h.keeps hop
  · obtain ⟨hrepeats, hafter⟩ := h.advance masterTicks
    refine ⟨?_, hrepeats, congrArg ticksUntilRepeat hafter⟩
    rw [apply, hafter]
    exact ⟨h.held, h.key, h.code, left_pos (by decide) _⟩
  · rw [hsame, hnone, htime, due_zero h.waits, left_zero h.waits]
    exact ⟨h, rfl, rfl⟩

/-- While a key is held the repeats of a run are those due in its whole time. -/
theorem Holds.repeats_eq (h : k.Holds keyId code) {ops : List Op} (hops : ∀ op ∈ ops, op.Keeps keyId) :
    (run apply k ops).Holds keyId code ∧
      (trace apply repeats k ops).sum =
        due k.ticksUntilRepeat repeatIntervalTicks (ops.map Op.masterTicks).sum := by
  have hkeep : ∀ (k : Keyboard) (op : Op), k.Holds keyId code → op.Keeps keyId →
      (k.apply op).Holds keyId code := fun k op hk hop => (hk.step hop).1
  refine ⟨run_allowed hkeep h hops, ?_⟩
  exact run_due ticksUntilRepeat (by decide) hkeep (fun k op hk hop => (hk.step hop).2) h h.waits hops

/-! ## No key held -/

theorem idle_step (hidle : k.keyHeld = false) {op : Op} (hop : op.presses = false) :
    (k.apply op).keyHeld = false ∧ k.repeats op = 0 := by
  cases op with
  | keyDown keyId code => cases hop
  | keyUp keyId => simp [apply, keyUp, hidle, repeats]
  | advance masterTicks => simp [apply, advance, hidle, repeats]
  | reset => exact ⟨rfl, rfl⟩

theorem idle_run (hidle : k.keyHeld = false) {ops : List Op} (hops : ∀ op ∈ ops, op.presses = false) :
    (run apply k ops).keyHeld = false ∧ ∀ n ∈ trace apply repeats k ops, n = 0 := by
  induction ops generalizing k with
  | nil => exact ⟨hidle, nofun⟩
  | cons op ops ih =>
    obtain ⟨hnext, hnone⟩ := idle_step hidle (hops op (List.mem_cons_self ..))
    obtain ⟨hlast, hrest⟩ := ih hnext fun op' hop' => hops op' (List.mem_cons_of_mem _ hop')
    exact ⟨hlast, List.forall_mem_cons.mpr ⟨hnone, hrest⟩⟩

/-! ## Autorepeat -/

/-- From an accepted press on, and until the key is released or replaced, `advance` returns in all the
repeats due after the delay, one for each interval; with no key held it returns none, and the next
press is accepted with its whole delay before it. -/
theorem autorepeat_exact (before : List Op) :
    let k := run apply {} before
    (∀ (keyId : Nat) (code : Byte), (k.keyDown keyId code).1.isSome = true →
      ∀ between : List Op, (∀ op ∈ between, op.Keeps keyId) →
        let elapsed := (between.map Op.masterTicks).sum
        (trace apply repeats (k.keyDown keyId code).2 between).sum =
          if elapsed < 6000000 then 0 else 1 + (elapsed - 6000000) / 3000000) ∧
    (k.keyHeld = false → ∀ idle : List Op, (∀ op ∈ idle, op.presses = false) →
      (∀ n ∈ trace apply repeats k idle, n = 0) ∧
        ∀ (keyId : Nat) (code : Byte),
          ((run apply k idle).keyDown keyId code).1 = some code ∧
            ((run apply k idle).keyDown keyId code).2.ticksUntilRepeat = 6000000) := by
  intro k
  refine ⟨?_, fun hidle idle hops => ?_⟩
  · intro keyId code haccepted between hbetween elapsed
    obtain ⟨hholds, hdelay⟩ := keyDown_accepted haccepted
    have hrepeats := (hholds.repeats_eq hbetween).2
    rw [hdelay] at hrepeats
    exact hrepeats
  · obtain ⟨hstill, hnone⟩ := idle_run hidle hops
    refine ⟨hnone, fun keyId code => ?_⟩
    have hnew : ¬((run apply k idle).keyHeld = true ∧ (run apply k idle).heldKeyId = keyId) := by
      rw [hstill]
      exact fun h => Bool.noConfusion h.1
    rw [keyDown, if_neg hnew]
    exact ⟨rfl, rfl⟩

/-- The key of the keyboard's test: held one tick short of the delay, then that tick, then two
intervals, with another key's release in between. -/
theorem autorepeat_exact_test :
    (trace apply repeats (({} : Keyboard).keyDown 7 0x41#8).2
      [.advance 5999999, .keyDown 7 0x41#8, .advance 1, .keyUp 8, .advance 6000000]).sum = 3 :=
  (autorepeat_exact []).1 7 0x41#8 rfl _ (by simp [Op.Keeps])

end Keyboard
end FK1
