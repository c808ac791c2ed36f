import Mathlib.Data.List.Basic

/-!
# FK1.Lib.Relay

A first-in first-out relay that is emptied from time to time. Each stretch between two of these has
a number, and the logs of what entered and what left carry it: within a stretch what entered is what
left followed by what is held, and nothing crosses from one stretch into another.
-/

namespace Relay

variable {V : Type _}

/-- The entries of a log that belong to stretch `n`. -/
def during (n : Nat) (log : List (Nat × V)) : List V := (log.filter (·.1 == n)).map Prod.snd

def stamp (n : Nat) (values : List V) : List (Nat × V) := values.map (Prod.mk n)

@[simp] theorem during_nil (n : Nat) : during n ([] : List (Nat × V)) = [] := rfl

@[simp] theorem during_append (n : Nat) (log log' : List (Nat × V)) :
    during n (log ++ log') = during n log ++ during n log' := by
  simp [during]

@[simp] theorem during_stamp (n : Nat) (values : List V) : during n (stamp n values) = values := by
  induction values with
  | nil => rfl
  | cons value values ih => simpa [during, stamp] using ih

theorem during_stamp_ne {n n' : Nat} (h : n' ≠ n) (values : List V) :
    during n (stamp n' values) = [] := by
  induction values with
  | nil => rfl
  | cons value values ih => simp [during, stamp, h]

theorem during_of_lt {n : Nat} {log : List (Nat × V)} (h : ∀ p ∈ log, p.1 < n) :
    during n log = [] := by
  have hnone : log.filter (·.1 == n) = [] := by
    rw [List.filter_eq_nil_iff]
    intro p hp hn
    have hlt := h p hp
    rw [beq_iff_eq] at hn
    omega
  rw [during, hnone, List.map_nil]

/-- The logs of a relay in stretch `n`: in every stretch the values left in the order they entered. -/
structure Ordered (n : Nat) (entered left : List (Nat × V)) : Prop where
  order : ∀ k, during k left <+: during k entered
  stretch : ∀ p ∈ entered, p.1 ≤ n

/-- The relay holds `held`. -/
structure Holds (n : Nat) (entered left : List (Nat × V)) (held : List V) : Prop
    extends Ordered n entered left where
  conserved : during n entered = during n left ++ held

variable {n : Nat} {entered left : List (Nat × V)} {held values : List V}

/-- A relay nothing has entered. -/
theorem Ordered.nil (n : Nat) : Ordered n ([] : List (Nat × V)) [] :=
  ⟨fun _ => List.prefix_refl _, fun _ hp => absurd hp List.not_mem_nil⟩

/-- The next stretch begins with an empty relay. -/
theorem Ordered.restart (h : Ordered n entered left) : Holds (n + 1) entered left [] := by
  have hnone : during (n + 1) entered = [] :=
    during_of_lt fun p hp => Nat.lt_succ_of_le (h.stretch p hp)
  have hleft : during (n + 1) left = [] := by
    have hprefix := h.order (n + 1)
    rw [hnone] at hprefix
    exact List.prefix_nil.mp hprefix
  exact ⟨⟨h.order, fun p hp => Nat.le_succ_of_le (h.stretch p hp)⟩, by rw [hnone, hleft]; rfl⟩

theorem Holds.enter (h : Holds n entered left held) (values : List V) :
    Holds n (entered ++ stamp n values) left (held ++ values) := by
  refine ⟨⟨fun k => ?_, fun p hp => ?_⟩, ?_⟩
  · rw [during_append]
    exact (h.order k).trans (List.prefix_append _ _)
  · rcases List.mem_append.mp hp with hp | hp
    · exact h.stretch p hp
    · obtain ⟨value, _, rfl⟩ := List.mem_map.mp hp
      exact Nat.le_refl n
  · rw [during_append, during_stamp, h.conserved, List.append_assoc]

theorem Holds.leave (h : Holds n entered left (values ++ held)) :
    Holds n entered (left ++ stamp n values) held := by
  refine ⟨⟨fun k => ?_, h.stretch⟩, ?_⟩
  · rw [during_append]
    by_cases hk : n = k
    · subst hk
      rw [during_stamp, h.conserved, ← List.append_assoc]
      exact List.prefix_append _ _
    · rw [during_stamp_ne hk, List.append_nil]
      exact h.order k
  · rw [during_append, during_stamp, h.conserved, List.append_assoc]

end Relay
