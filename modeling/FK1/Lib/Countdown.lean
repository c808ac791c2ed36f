import FK1.Lib.Observe

/-!
# FK1.Lib.Countdown

A countdown that fires after a delay and from then on once an interval.

* `due`, `left` — how often it has fired after some time, and what is left until it fires next; time in
  parts is time in one piece (`due_add`, `left_add`).
* `run_due`     — a system that keeps the rest in a register fires, over a run, as often as is due.
-/

namespace Countdown

open Run Observe

def due (delay interval time : Nat) : Nat :=
  if time < delay then 0 else 1 + (time - delay) / interval

def left (delay interval time : Nat) : Nat :=
  if time < delay then delay - time else interval - (time - delay) % interval

variable {delay interval : Nat}

theorem due_zero (hdelay : 0 < delay) : due delay interval 0 = 0 := if_pos hdelay

theorem left_zero (hdelay : 0 < delay) : left delay interval 0 = delay := if_pos hdelay

theorem left_pos (hinterval : 0 < interval) (time : Nat) : 0 < left delay interval time := by
  have hmod := Nat.mod_lt (time - delay) hinterval
  unfold left
  split <;> omega

/-- Past the delay: what is left of an interval of which `r` is gone. -/
theorem past_add (hinterval : 0 < interval) {r : Nat} (hr : r < interval) (time : Nat) :
    (r + time) / interval = due (interval - r) interval time ∧
      interval - (r + time) % interval = left (interval - r) interval time := by
  unfold due left
  by_cases hlt : time < interval - r
  · have hsum : r + time < interval := by omega
    rw [if_pos hlt, if_pos hlt, Nat.div_eq_of_lt hsum, Nat.mod_eq_of_lt hsum]
    exact ⟨rfl, by omega⟩
  · have hsum : r + time = time - (interval - r) + interval := by omega
    rw [if_neg hlt, if_neg hlt, hsum, Nat.add_div_right _ hinterval, Nat.add_mod_right]
    exact ⟨Nat.add_comm .., rfl⟩

theorem due_left_add (hinterval : 0 < interval) (time time' : Nat) :
    due delay interval (time + time') =
        due delay interval time + due (left delay interval time) interval time' ∧
      left delay interval (time + time') = left (left delay interval time) interval time' := by
  by_cases htime : time < delay
  · have hdue : due delay interval time = 0 := if_pos htime
    have hleft : left delay interval time = delay - time := if_pos htime
    rw [hdue, hleft]
    unfold due left
    by_cases hlater : time + time' < delay
    · have hrest : time' < delay - time := by omega
      rw [if_pos hlater, if_pos hlater, if_pos hrest, if_pos hrest]
      exact ⟨rfl, (Nat.sub_sub ..).symm⟩
    · have hrest : ¬time' < delay - time := by omega
      have hpast : time + time' - delay = time' - (delay - time) := by omega
      rw [if_neg hlater, if_neg hlater, if_neg hrest, if_neg hrest, hpast]
      exact ⟨(Nat.zero_add _).symm, rfl⟩
  · have hpast : time + time' - delay = time - delay + time' := by omega
    have hdiv : (time - delay + time') / interval =
        (time - delay) / interval + ((time - delay) % interval + time') / interval := by
      conv => lhs; rw [← Nat.div_add_mod (time - delay) interval, Nat.add_assoc]
      exact Nat.mul_add_div hinterval _ _
    have hmod : (time - delay + time') % interval = ((time - delay) % interval + time') % interval :=
      (Nat.mod_add_mod ..).symm
    have hdue : due delay interval (time + time') = 1 + (time + time' - delay) / interval :=
      if_neg (by omega)
    have hleft : left delay interval (time + time') = interval - (time + time' - delay) % interval :=
      if_neg (by omega)
    have hdue₀ : due delay interval time = 1 + (time - delay) / interval := if_neg htime
    have hleft₀ : left delay interval time = interval - (time - delay) % interval := if_neg htime
    obtain ⟨hmore, hrest⟩ := past_add hinterval (Nat.mod_lt (time - delay) hinterval) time'
    rw [hdue, hleft, hdue₀, hleft₀, hpast, hdiv, hmod, hmore, hrest, Nat.add_assoc]
    exact ⟨rfl, rfl⟩

variable {S A : Type _} {step : S → A → S}

/-- If each action counts the register down by its time, a run fires as often as is due in its whole
time. -/
theorem run_due {I : S → Prop} {allowed : A → Prop} (register : S → Nat) {fired : S → A → Nat}
    {time : A → Nat} (hinterval : 0 < interval) (hkeep : ∀ s a, I s → allowed a → I (step s a))
    (hstep : ∀ s a, I s → allowed a → fired s a = due (register s) interval (time a) ∧
      register (step s a) = left (register s) interval (time a))
    {s : S} (hs : I s) (hregister : 0 < register s) {actions : List A}
    (hallowed : ∀ a ∈ actions, allowed a) :
    (trace step fired s actions).sum = due (register s) interval (actions.map time).sum := by
  induction actions generalizing s with
  | nil => exact (due_zero hregister).symm
  | cons a as ih =>
    have ha := hallowed a (List.mem_cons_self ..)
    obtain ⟨hfired, hleft⟩ := hstep s a hs ha
    have hpos : 0 < register (step s a) := hleft ▸ left_pos hinterval _
    rw [trace, List.sum_cons, List.map_cons, List.sum_cons, (due_left_add hinterval _ _).1, hfired,
      ih (hkeep s a hs ha) hpos fun b hb => hallowed b (List.mem_cons_of_mem _ hb), hleft]

end Countdown
