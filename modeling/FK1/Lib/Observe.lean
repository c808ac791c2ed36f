import Mathlib.Algebra.GroupWithZero.Nat
import FK1.Lib.Run

/-!
# FK1.Lib.Observe

What an observer sees of a deterministic system, and when two runs look the same.

* `trace`, `Simulation` — the view at each action; states related by a simulation show the same trace.
* `events`, `Inserted`  — the events of a run, where some actions have none; actions that have none and
  keep a simulation can be put in anywhere.
* `Along`, `account_le`  — what is asked of each step of a run; how many events a stock pays for.
-/

namespace Observe

open Run

variable {S A V E : Type _}

/-- The view at each action. -/
def trace (step : S → A → S) (view : S → A → V) : S → List A → List V
  | _, [] => []
  | s, a :: as => view s a :: trace step view (step s a) as

/-- Every action shows the same from related states, and leaves related states. -/
structure Simulation (step : S → A → S) (view : S → A → V) (R : S → S → Prop) : Prop where
  view : ∀ {s t : S} (a : A), R s t → view s a = view t a
  step : ∀ {s t : S} (a : A), R s t → R (step s a) (step t a)

variable {step : S → A → S} {view : S → A → V} {event : S → A → Option E} {R : S → S → Prop}
  {s t : S}

theorem Simulation.trace_eq (h : Simulation step view R) (hst : R s t) (actions : List A) :
    trace step view s actions = trace step view t actions := by
  induction actions generalizing s t with
  | nil => rfl
  | cons a as ih => rw [trace, trace, h.view a hst, ih (h.step a hst)]

theorem trace_map {W : Type _} (f : V → W) (view : S → A → V) (s : S) (actions : List A) :
    (trace step view s actions).map f = trace step (fun s a => f (view s a)) s actions := by
  induction actions generalizing s with
  | nil => rfl
  | cons a as ih => rw [trace, trace, List.map_cons, ih]

/-- A register that takes one value after the other ends with the last of them. -/
theorem trace_last (register : S → V) {values : S → A → List V}
    (h : ∀ s a, register (step s a) = ((values s a).getLast?).getD (register s)) (s : S)
    (actions : List A) :
    register (run step s actions) =
      ((trace step values s actions).flatten.getLast?).getD (register s) := by
  induction actions generalizing s with
  | nil => rfl
  | cons a as ih =>
    rw [run_cons, ih, h, trace, List.flatten_cons, List.getLast?_append]
    cases (trace step values (step s a) as).flatten.getLast? <;> rfl

/-! ## Silent actions -/

def events (step : S → A → S) (event : S → A → Option E) (s : S) (actions : List A) : List E :=
  (trace step event s actions).filterMap id

theorem events_cons (a : A) (as : List A) :
    events step event s (a :: as) = (event s a).toList ++ events step event (step s a) as := by
  rw [events, trace]
  cases h : event s a with
  | none => rfl
  | some e => rfl

/-- The second list is the first with silent actions put in. -/
inductive Inserted (silent : A → Prop) : List A → List A → Prop where
  | nil : Inserted silent [] []
  | keep {as bs : List A} (a : A) : Inserted silent as bs → Inserted silent (a :: as) (a :: bs)
  | insert {as bs : List A} {b : A} :
      silent b → Inserted silent as bs → Inserted silent as (b :: bs)

variable {silent : A → Prop} {as bs : List A}

theorem Inserted.run (hins : Inserted silent as bs) (h : Simulation step event R)
    (hsilent : ∀ {s t : S} {b : A}, silent b → R s t → R s (step t b)) (hst : R s t) :
    R (run step s as) (run step t bs) := by
  induction hins generalizing s t with
  | nil => exact hst
  | keep a _ ih => exact ih (h.step a hst)
  | insert hb _ ih => exact ih (hsilent hb hst)

theorem Inserted.events_eq (hins : Inserted silent as bs) (h : Simulation step event R)
    (hsilent : ∀ {s t : S} {b : A}, silent b → R s t → R s (step t b))
    (hnone : ∀ {s : S} {b : A}, silent b → event s b = none) (hst : R s t) :
    events step event t bs = events step event s as := by
  induction hins generalizing s t with
  | nil => rfl
  | keep a _ ih => rw [events_cons, events_cons, h.view a hst, ih (h.step a hst)]
  | insert hb _ ih =>
    rw [events_cons, hnone hb, ih (hsilent hb hst)]
    rfl

/-! ## Accounts -/

/-- Every step of the run is as `P` says. -/
def Along (step : S → A → S) (P : S → A → Prop) : S → List A → Prop
  | _, [] => True
  | s, a :: as => P s a ∧ Along step P (step s a) as

/-- Events with a price: a run has no more of them than its stock and its income pay for. -/
theorem account_le {I : S → Prop} {allowed : A → Prop} {price : Nat} (stock : S → Nat)
    {bought : S → A → List V} {income : A → Nat} (hkeep : ∀ s a, I s → I (step s a))
    (hstep : ∀ s a, I s → allowed a →
      price * (bought s a).length + stock (step s a) ≤ stock s + income a)
    (hs : I s) {actions : List A} (hallowed : ∀ a ∈ actions, allowed a) :
    price * (trace step bought s actions).flatten.length + stock (run step s actions) ≤
      stock s + (actions.map income).sum := by
  induction actions generalizing s with
  | nil => simp [trace]
  | cons a as ih =>
    have hfirst := hstep s a hs (hallowed a (List.mem_cons_self ..))
    have hrest := ih (hkeep s a hs) fun b hb => hallowed b (List.mem_cons_of_mem _ hb)
    rw [trace, List.flatten_cons, List.length_append, Nat.mul_add, run_cons, List.map_cons,
      List.sum_cons]
    omega

end Observe
