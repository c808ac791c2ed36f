/-!
# FK1.Lib.Walk

A walk on `0 … last` that stays at either end: `true` is a step up, `false` a step down.
-/

namespace Walk

/-- One step. -/
def move (last position : Nat) (up : Bool) : Nat :=
  if up then min (position + 1) last else position - 1

def walk (last position : Nat) (steps : List Bool) : Nat := steps.foldl (move last) position

variable {last position : Nat}

@[simp] theorem walk_nil : walk last position [] = position := rfl

@[simp] theorem walk_cons (up : Bool) (steps : List Bool) :
    walk last position (up :: steps) = walk last (move last position up) steps := rfl

theorem walk_append (steps more : List Bool) :
    walk last position (steps ++ more) = walk last (walk last position steps) more :=
  List.foldl_append

theorem move_le (h : position ≤ last) (up : Bool) : move last position up ≤ last := by
  cases up with
  | true => exact Nat.min_le_right _ _
  | false => exact Nat.le_trans (Nat.sub_le _ _) h

theorem walk_down (n : Nat) : walk last position (List.replicate n false) = position - n := by
  induction n generalizing position with
  | zero => rfl
  | succ n ih =>
    rw [List.replicate_succ, walk_cons, ih]
    show position - 1 - n = position - (n + 1)
    omega

theorem walk_up (h : position ≤ last) (n : Nat) :
    walk last position (List.replicate n true) = min (position + n) last := by
  induction n generalizing position with
  | zero => exact (Nat.min_eq_left h).symm
  | succ n ih =>
    rw [List.replicate_succ, walk_cons, ih (move_le h true)]
    show min (min (position + 1) last + n) last = min (position + (n + 1)) last
    omega

/-- Enough steps down, then as many up as the position wanted: where the walk has begun is no matter. -/
theorem walk_down_up {down up : Nat} (hdown : position ≤ down) (hup : up ≤ last) :
    walk last position (List.replicate down false ++ List.replicate up true) = up := by
  rw [walk_append, walk_down, Nat.sub_eq_zero_of_le hdown, walk_up (Nat.zero_le _), Nat.zero_add,
    Nat.min_eq_left hup]

end Walk
