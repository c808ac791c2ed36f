import Mathlib.Algebra.Order.Ring.Nat
import Mathlib.Tactic.Ring

/-!
# FK1.Lib.Oversample

A line that holds every bit of a frame for `factor` clocks, and a sampler that counts down to the
middle of each bit. Positions are clocks since the frame began.

* `Holds`    — the sender's counters: bit `index` has been on the line for `elapsed` clocks.
* `Awaiting` — the sampler's counters: `count` more clocks until bit `index` is sampled.
-/

namespace Oversample

variable {factor position index elapsed count : Nat}

/-- At `position` the line has held bit `index` for `elapsed` clocks. -/
structure Holds (factor position index elapsed : Nat) : Prop where
  eq : position = factor * index + elapsed
  lt : elapsed < factor

namespace Holds

theorem div (h : Holds factor position index elapsed) : position / factor = index := by
  obtain ⟨rfl, hlt⟩ := h
  rw [Nat.add_comm, Nat.add_mul_div_left _ _ (by omega), Nat.div_eq_of_lt hlt, Nat.zero_add]

theorem zero (hf : 0 < factor) : Holds factor 0 0 0 := ⟨by simp, hf⟩

theorem tick (h : Holds factor position index elapsed) (hlt : elapsed + 1 < factor) :
    Holds factor (position + 1) index (elapsed + 1) := by
  obtain ⟨rfl, -⟩ := h
  exact ⟨by omega, hlt⟩

/-- The last clock of a bit is followed by the next bit. -/
theorem shift (h : Holds factor position index elapsed) (hend : factor ≤ elapsed + 1) :
    Holds factor (position + 1) (index + 1) 0 := by
  obtain ⟨rfl, hlt⟩ := h
  refine ⟨?_, by omega⟩
  rw [Nat.mul_succ]
  omega

end Holds

/-- `count` clocks after `position`, this one included, the sampler takes the middle of bit
`index`. -/
structure Awaiting (factor position index count : Nat) : Prop where
  eq : position + count = factor * index + factor / 2 + 1
  pos : 0 < count
  le : count ≤ factor

namespace Awaiting

/-- The falling edge of the start bit loads half a bit. -/
theorem start (hf : 2 ≤ factor) : Awaiting factor 1 0 (factor / 2) :=
  ⟨by simp; omega, by omega, by omega⟩

theorem tick (h : Awaiting factor position index count) (hc : 1 < count) :
    Awaiting factor (position + 1) index (count - 1) := by
  obtain ⟨heq, _, hle⟩ := h
  exact ⟨by omega, by omega, by omega⟩

theorem reload (h : Awaiting factor position index count) (hc : count ≤ 1) :
    Awaiting factor (position + 1) (index + 1) factor := by
  obtain ⟨heq, hpos, hle⟩ := h
  refine ⟨?_, by omega, le_refl _⟩
  rw [Nat.mul_succ]
  omega

/-- What is sampled is the bit awaited. -/
theorem sampled (h : Awaiting factor position index count) (hf : 2 ≤ factor) (hc : count ≤ 1) :
    position / factor = index := by
  obtain ⟨heq, hpos, _⟩ := h
  have hp : position = factor * index + factor / 2 := by omega
  exact Holds.div ⟨hp, by omega⟩

theorem position_eq (h : Awaiting factor position index count) (hc : count ≤ 1) :
    position = factor * index + factor / 2 := by
  obtain ⟨heq, hpos, _⟩ := h
  omega

/-- Before the sampling clock the position is not that of the sample. -/
theorem position_lt (h : Awaiting factor position index count) (hc : 1 < count) :
    position < factor * index + factor / 2 := by
  obtain ⟨heq, _, _⟩ := h
  omega

end Awaiting
end Oversample
