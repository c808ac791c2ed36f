import Mathlib.Data.List.Induction
import Mathlib.Data.List.Nodup
import Mathlib.Data.List.TakeWhile
import FK1.Lib.Circle

/-!
# FK1.Lib.EvenCircle

Circles whose items stand at 0, `gap`, `2 * gap` and so on.

* `passed_even`: from an item on, one more passes with every `gap` positions.
* `dropWhile_passed`: what passes from the first item that satisfies a predicate is what passes from
  that item's own position.
-/

namespace Circle

variable {α : Type _} {key : α → Nat} {rev gap : Nat} {xs : List α}

/-- The items stand at multiples of `gap`, none left out. -/
def Even (key : α → Nat) (gap : Nat) (xs : List α) : Prop :=
  ∀ (i : Nat) (h : i < xs.length), key (xs.get ⟨i, h⟩) = i * gap

/-- How far the circle turns from `phase` to a position. -/
def wait (rev phase position : Nat) : Nat := (position + rev - phase) % rev

theorem wait_eq {phase position : Nat} (hphase : phase < rev) (hposition : position < rev) :
    wait rev phase position =
      if phase ≤ position then position - phase else position + rev - phase := by
  rw [wait]
  split
  · rw [show position + rev - phase = position - phase + rev by omega, Nat.add_mod_right,
      Nat.mod_eq_of_lt (by omega)]
  · exact Nat.mod_eq_of_lt (by omega)

theorem add_wait {phase position : Nat} (hphase : phase < rev) (hposition : position < rev) :
    (phase + wait rev phase position) % rev = position := by
  rw [wait, Nat.add_mod_mod, show phase + (position + rev - phase) = position + rev by omega,
    Nat.add_mod_right, Nat.mod_eq_of_lt hposition]

theorem wait_le_of_passed {phase i : Nat} (hphase : phase < rev) :
    wait rev phase ((phase + i) % rev) ≤ i := by
  have hrev : 0 < rev := by omega
  rw [wait]
  rcases Nat.lt_or_ge i rev with hi | hi
  · rcases Nat.lt_or_ge (phase + i) rev with h | h
    · rw [Nat.mod_eq_of_lt h, show phase + i + rev - phase = i + rev by omega, Nat.add_mod_right]
      exact Nat.mod_le _ _
    · have hwrap : (phase + i) % rev = phase + i - rev := by
        rw [Nat.mod_eq_sub_mod h, Nat.mod_eq_of_lt (show phase + i - rev < rev by omega)]
      rw [hwrap, show phase + i - rev + rev - phase = i by omega]
      exact Nat.mod_le _ _
  · exact Nat.le_trans (Nat.le_of_lt (Nat.mod_lt _ hrev)) hi

/-! ## Even circles -/

theorem Even.sorted (hg : 0 < gap) (h : Even key gap xs) : xs.Pairwise fun x y => key x < key y := by
  refine List.pairwise_iff_getElem.mpr fun i j hi hj hij => ?_
  have hkey : ∀ (i : Nat) (hi : i < xs.length), key xs[i] = i * gap := h
  rw [hkey i hi, hkey j hj]
  exact Nat.mul_lt_mul_of_pos_right hij hg

theorem Even.init {x : α} (h : Even key gap (xs ++ [x])) :
    Even key gap xs ∧ key x = xs.length * gap := by
  constructor
  · intro i hi
    have hkey := h i (by simp; omega)
    simpa [List.getElem_append_left hi] using hkey
  · have hkey := h xs.length (by simp)
    simpa using hkey

/-- The item at a position. -/
theorem Even.filter (hg : 0 < gap) (h : Even key gap xs) (position : Nat) :
    (xs.filter fun x => key x == position) =
      if gap ∣ position then (xs[position / gap]?).toList else [] := by
  induction xs using List.reverseRecOn with
  | nil => simp
  | append_singleton xs x ih =>
    obtain ⟨hinit, hlast⟩ := h.init
    rw [List.filter_append, ih hinit]
    by_cases hdvd : gap ∣ position
    · obtain ⟨k, rfl⟩ := hdvd
      rw [if_pos (Nat.dvd_mul_right gap k), if_pos (Nat.dvd_mul_right gap k),
        Nat.mul_div_cancel_left k hg]
      rcases Nat.lt_trichotomy k xs.length with hk | hk | hk
      · have hne : key x ≠ gap * k := by
          rw [hlast, Nat.mul_comm]
          exact Nat.ne_of_gt (Nat.mul_lt_mul_of_pos_left hk hg)
        simp [List.getElem?_append_left hk, hne]
      · subst hk
        simp [hlast, Nat.mul_comm]
      · have hne : key x ≠ gap * k := by
          rw [hlast, Nat.mul_comm]
          exact Nat.ne_of_lt (Nat.mul_lt_mul_of_pos_left hk hg)
        rw [List.getElem?_eq_none (by omega), List.getElem?_eq_none (by simp; omega)]
        simp [hne]
    · rw [if_neg hdvd, if_neg hdvd]
      have hne : key x ≠ position := by
        rintro rfl
        exact hdvd (hlast ▸ Nat.dvd_mul_left gap xs.length)
      simp [hne]

/-- The items whose positions lie within `ticks` of an item, that item included. -/
def count (gap ticks : Nat) : Nat := (ticks + gap - 1) / gap

theorem lt_count {i ticks : Nat} (hg : 0 < gap) : i < count gap ticks ↔ i * gap < ticks := by
  rw [count, ← Nat.succ_le_iff, Nat.le_div_iff_mul_le hg, Nat.succ_mul]
  omega

theorem count_le {n ticks : Nat} (hg : 0 < gap) (h : ticks ≤ n * gap) : count gap ticks ≤ n :=
  Nat.le_of_not_lt fun hlt => Nat.not_lt.mpr h ((lt_count hg).mp hlt)

theorem count_mul (hg : 0 < gap) (n : Nat) : count gap (n * gap) = n := by
  rw [count, Nat.mul_comm, Nat.add_sub_assoc (by omega), Nat.mul_add_div hg,
    Nat.div_eq_of_lt (by omega), Nat.add_zero]

theorem count_succ (hg : 0 < gap) (ticks : Nat) :
    count gap (ticks + 1) = count gap ticks + if gap ∣ ticks then 1 else 0 := by
  have hnext : ∀ i, i < count gap (ticks + 1) ↔ i < count gap ticks ∨ i * gap = ticks := by
    intro i
    rw [lt_count hg, lt_count hg]
    omega
  split
  next hdvd =>
    obtain ⟨k, rfl⟩ := hdvd
    rw [Nat.mul_comm gap k] at hnext ⊢
    rw [count_mul hg] at hnext ⊢
    have hlast := (hnext k).mpr (.inr rfl)
    have hnone := mt (hnext (k + 1)).mp (by rw [Nat.succ_mul]; omega)
    omega
  next hdvd =>
    have hsame : ∀ i, i < count gap (ticks + 1) ↔ i < count gap ticks := fun i =>
      (hnext i).trans ⟨fun h => h.resolve_right fun he => hdvd (he ▸ Nat.dvd_mul_left gap i), .inl⟩
    exact Nat.le_antisymm (Nat.le_of_not_lt fun h => Nat.lt_irrefl _ ((hsame _).mp h))
      (Nat.le_of_not_lt fun h => Nat.lt_irrefl _ ((hsame _).mpr h))

/-- From an item on, before the end of the turn. -/
theorem passed_even (hg : 0 < gap) (h : Even key gap xs) {i ticks : Nat}
    (hturn : i * gap + ticks ≤ rev) :
    passed key rev xs (i * gap) ticks = (xs.drop i).take (count gap ticks) := by
  induction ticks with
  | zero =>
    have hnone : count gap 0 = 0 := Nat.div_eq_of_lt (by omega)
    rw [hnone, List.take_zero]
    rfl
  | succ ticks ih =>
    have hone : passed key rev xs ((i * gap + ticks) % rev) 1 =
        xs.filter fun x => key x == i * gap + ticks := by
      rw [Nat.mod_eq_of_lt (by omega)]
      simp [passed, Nat.mod_eq_of_lt (show i * gap + ticks < rev by omega)]
    have hdvd : gap ∣ i * gap + ticks ↔ gap ∣ ticks := Nat.dvd_add_right (Nat.dvd_mul_left gap i)
    rw [passed_add, ih (by omega), hone, h.filter hg, count_succ hg]
    simp only [hdvd]
    split
    next hdvd =>
      obtain ⟨k, rfl⟩ := hdvd
      rw [Nat.mul_comm gap k, count_mul hg, List.take_add_one, List.getElem?_drop, ← Nat.add_mul,
        Nat.mul_div_cancel _ hg]
    next => rw [List.append_nil, Nat.add_zero]

/-- The first `n` items from an item on, however far the circle turns. -/
theorem take_passed_even (hg : 0 < gap) (h : Even key gap xs) {i n : Nat}
    (hturn : (i + n) * gap ≤ rev) (hlength : i + n ≤ xs.length) (ticks : Nat) :
    (passed key rev xs (i * gap) ticks).take n = ((xs.drop i).take n).take (count gap ticks) := by
  rw [Nat.add_mul] at hturn
  rcases Nat.le_total ticks (n * gap) with hle | hle
  · rw [passed_even hg h (by omega), List.take_take, List.take_take, Nat.min_comm]
  · obtain ⟨more, rfl⟩ := Nat.exists_eq_add_of_le hle
    have hcount : n ≤ count gap (n * gap + more) := Nat.le_of_not_lt fun hlt => by
      have hnot := mt (@lt_count gap (count gap (n * gap + more)) (n * gap + more) hg).mpr
        (Nat.lt_irrefl _)
      have := Nat.mul_lt_mul_of_pos_right hlt hg
      omega
    rw [passed_add, passed_even hg h hturn, count_mul hg,
      List.take_append_of_le_length (by rw [List.length_take, List.length_drop]; omega),
      List.take_take, List.take_take, Nat.min_self, Nat.min_eq_right hcount]

/-! ## Waiting for an item -/

/-- From the first item that satisfies `p`. -/
theorem dropWhile_passed {p : α → Bool} (h : xs.Pairwise fun x y => key x < key y)
    (hlt : ∀ x ∈ xs, key x < rev) {x : α} (hx : x ∈ xs) (hp : p x = true) {phase : Nat}
    (hphase : phase < rev)
    (hfirst : ∀ y ∈ xs, p y = true → wait rev phase (key x) ≤ wait rev phase (key y)) (ticks : Nat) :
    ((passed key rev xs phase ticks).dropWhile fun y => !p y) =
      passed key rev xs (key x) (ticks - wait rev phase (key x)) := by
  have hbefore : ∀ t ≤ wait rev phase (key x), ∀ y ∈ passed key rev xs phase t, p y = false := by
    intro t ht y hy
    obtain ⟨hy, i, hi, hkey⟩ := mem_passed.mp hy
    cases hpy : p y with
    | false => rfl
    | true =>
      have hle := hfirst y hy hpy
      have hpassed := wait_le_of_passed (i := i) hphase
      rw [← hkey] at hpassed
      omega
  rcases Nat.le_total ticks (wait rev phase (key x)) with hle | hle
  · have hnone : (passed key rev xs phase ticks).dropWhile (fun y => !p y) = [] :=
      List.dropWhile_eq_nil_iff.mpr fun y hy => by rw [hbefore ticks hle y hy]; rfl
    rw [hnone, Nat.sub_eq_zero_of_le hle]
    rfl
  · obtain ⟨more, rfl⟩ := Nat.exists_eq_add_of_le hle
    have hnone : (passed key rev xs phase (wait rev phase (key x))).dropWhile (fun y => !p y) = [] :=
      List.dropWhile_eq_nil_iff.mpr fun y hy => by rw [hbefore _ (Nat.le_refl _) y hy]; rfl
    rw [passed_add, List.dropWhile_append, hnone, List.isEmpty_nil, if_pos rfl,
      add_wait hphase (hlt x hx), Nat.add_sub_cancel_left]
    cases more with
    | zero => rfl
    | succ more =>
      -- the first item that passes is `x` itself
      have hhead : ∃ rest, passed key rev xs (key x) (more + 1) = x :: rest := by
        rw [Nat.add_comm, passed_add]
        have hone : passed key rev xs (key x) 1 = xs.filter fun y => key y == key x := by
          simp [passed, Nat.mod_eq_of_lt (hlt x hx)]
        have hmem : x ∈ xs.filter fun y => key y == key x := List.mem_filter.mpr ⟨hx, by simp⟩
        obtain ⟨y, ys, hys⟩ := List.exists_cons_of_ne_nil (List.ne_nil_of_mem hmem)
        have hy : y ∈ xs ∧ key y = key x := by
          have := List.mem_filter.mp (hys ▸ List.mem_cons_self .. : y ∈ xs.filter _)
          exact ⟨this.1, by simpa using this.2⟩
        have hnodup : (xs.map key).Nodup := List.pairwise_map.mpr (h.imp Nat.ne_of_lt)
        have hsame : y = x := List.inj_on_of_nodup_map hnodup hy.1 hx hy.2
        exact ⟨_, by rw [hone, hys, hsame]; rfl⟩
      obtain ⟨rest, hrest⟩ := hhead
      rw [hrest, List.dropWhile_cons, hp]
      rfl

end Circle
