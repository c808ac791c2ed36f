import Mathlib.Algebra.Ring.Int.Defs
import FK1.Lib.Observe

/-!
# FK1.Lib.Quadrature

Decoding a position from a cyclic code, and systems that show a queued motion on one.

* `turn`, `decode` — a decoder of the code whose successor is `next`: it counts steps and takes no
  jump.
* `Turned`         — codes that decode, from a code to a code.
* `Shown`          — the codes account for a queued motion; a run of actions that each do does too
  (`run_shown`).
-/

namespace Quadrature

open Run Observe

variable {C S A : Type _} [DecidableEq C] {next : C → C}

/-- The step from one code to the following one; a jump is no step. -/
def turn (next : C → C) (old new : C) : Option Int :=
  if new = old then some 0
  else if new = next old then some 1
  else if old = next new then some (-1)
  else none

/-- The net count of the codes shown after `old`. -/
def decode (next : C → C) : C → List C → Option Int
  | _, [] => some 0
  | old, new :: codes => do
    let step ← turn next old new
    let steps ← decode next new codes
    return step + steps

/-- From `c` through `codes`, which end at `c'`, the decoder counts `n`. -/
inductive Turned (next : C → C) : C → List C → C → Int → Prop where
  | nil (c : C) : Turned next c [] c 0
  | cons {c c' c'' : C} {codes : List C} {d n : Int} :
      turn next c c' = some d → Turned next c' codes c'' n → Turned next c (c' :: codes) c'' (d + n)

variable {c c' c'' : C} {codes codes' : List C} {m n : Int}

theorem Turned.decode (h : Turned next c codes c' n) : decode next c codes = some n := by
  induction h with
  | nil c => rfl
  | cons hturn _ ih => simp [Quadrature.decode, hturn, ih]

theorem Turned.single (h : turn next c c' = some n) : Turned next c [c'] c' n := by
  have hturned := Turned.cons h (.nil c')
  rwa [Int.add_zero] at hturned

theorem Turned.append (h : Turned next c codes c' m) (h' : Turned next c' codes' c'' n) :
    Turned next c (codes ++ codes') c'' (m + n) := by
  induction h with
  | nil c => rwa [List.nil_append, Int.zero_add]
  | cons hturn _ ih =>
    rw [List.cons_append, Int.add_assoc]
    exact .cons hturn (ih h')

/-- The codes show what was queued, `before` and the new `delta`, up to what is left `after`. -/
def Shown (next : C → C) (c : C) (codes : List C) (c' : C) (before delta after : Int) : Prop :=
  ∃ n, Turned next c codes c' n ∧ n + after = before + delta

variable {before delta after : Int}

theorem Shown.nil (next : C → C) (c : C) (before : Int) : Shown next c [] c before 0 before :=
  ⟨0, .nil c, by omega⟩

theorem Shown.decode (h : Shown next c codes c' before delta after) :
    ∃ n, decode next c codes = some n ∧ n + after = before + delta := by
  obtain ⟨n, hturned, hn⟩ := h
  exact ⟨n, hturned.decode, hn⟩

theorem Shown.append {delta' left : Int} (h : Shown next c codes c' before delta after)
    (h' : Shown next c' codes' c'' after delta' left) :
    Shown next c (codes ++ codes') c'' before (delta + delta') left := by
  obtain ⟨m, hturned, hm⟩ := h
  obtain ⟨n, hturned', hn⟩ := h'
  exact ⟨m + n, hturned.append hturned', by omega⟩

/-- If each action shows on the code what it takes from the queue, a run shows all that was queued and
is queued no longer. -/
theorem run_shown {step : S → A → S} {I : S → Prop} {allowed : A → Prop} {P : S → A → Prop}
    (code : S → C) {shown : S → A → List C} (pending : S → Int) {delta : A → Int}
    (hkeep : ∀ s a, I s → I (step s a))
    (hstep : ∀ s a, I s → allowed a → P s a →
      Shown next (code s) (shown s a) (code (step s a)) (pending s) (delta a) (pending (step s a)))
    {s : S} (hs : I s) {actions : List A} (hallowed : ∀ a ∈ actions, allowed a)
    (hP : Along step P s actions) :
    Shown next (code s) (trace step shown s actions).flatten (code (run step s actions)) (pending s)
      (actions.map delta).sum (pending (run step s actions)) := by
  induction actions generalizing s with
  | nil => exact .nil next _ _
  | cons a as ih =>
    have hfirst := hstep s a hs (hallowed a (List.mem_cons_self ..)) hP.1
    exact hfirst.append
      (ih (hkeep s a hs) (fun b hb => hallowed b (List.mem_cons_of_mem _ hb)) hP.2)

end Quadrature
