/-!
# FK1.Lib.Circle

Items placed on a circle of `rev` positions, kept as a list in order of position with every two
items at least `gap` apart around the circle (`Spaced`), and the stream of items a head meets when
the circle turns under it (`passed`).

* `Spaced.update`, `Spaced.insert`: the two ways a list stays spaced.
* `passed_add`: turning by `s` and then by `t` passes the same items as turning by `s + t`.
* `passed_interval`: within one turn the passed items are a window of the list.
* `passed_length_le_one`: a turn shorter than the gap passes at most one item.
* `passed_turn_from`: a turn from an item passes all of them in rotational order.
* `window_passed`: from one passage of position 0 to the next every item passes once, in order.
-/

namespace Circle

variable {α β : Type _} (key : α → Nat) (rev gap : Nat)

structure Spaced (xs : List α) : Prop where
  lt : ∀ x ∈ xs, key x < rev
  apart : xs.Pairwise fun x y => key x + gap ≤ key y ∧ key y + gap ≤ key x + rev

/-- The items passed, in order, when the circle turns by `ticks` positions from `phase`. -/
def passed (xs : List α) (phase ticks : Nat) : List α :=
  (List.range ticks).flatMap fun i => xs.filter fun x => key x == (phase + i) % rev

/-- How often position 0 is passed on the way. -/
def crossings (phase ticks : Nat) : Nat :=
  (List.range ticks).countP fun i => (phase + i) % rev == 0

/-- The shorter way around the circle between two positions. -/
def distance (a b : Nat) : Nat :=
  let way := if a ≤ b then b - a else a - b
  min way (rev - way)

variable {key rev gap}

/-! ## Spaced lists -/

theorem Spaced.nil : Spaced key rev gap [] := ⟨by simp, .nil⟩

theorem Spaced.singleton {x : α} (h : key x < rev) : Spaced key rev gap [x] :=
  ⟨by simpa using h, by simp⟩

theorem Spaced.tail {x : α} {xs : List α} (h : Spaced key rev gap (x :: xs)) :
    Spaced key rev gap xs :=
  ⟨fun y hy => h.lt y (by simp [hy]), h.apart.tail⟩

theorem Spaced.sorted (hg : 0 < gap) {xs : List α} (h : Spaced key rev gap xs) :
    xs.Pairwise fun x y => key x < key y :=
  h.apart.imp fun hxy => by omega

theorem Spaced.append {xs ys : List α} :
    Spaced key rev gap (xs ++ ys) ↔ Spaced key rev gap xs ∧ Spaced key rev gap ys ∧
      ∀ x ∈ xs, ∀ y ∈ ys, key x + gap ≤ key y ∧ key y + gap ≤ key x + rev := by
  constructor
  · intro h
    obtain ⟨hx, hy, hxy⟩ := List.pairwise_append.mp h.apart
    exact ⟨⟨fun x m => h.lt x (by simp [m]), hx⟩, ⟨fun y m => h.lt y (by simp [m]), hy⟩, hxy⟩
  · rintro ⟨hx, hy, hxy⟩
    refine ⟨fun z hz => ?_, List.pairwise_append.mpr ⟨hx.apart, hy.apart, hxy⟩⟩
    rcases List.mem_append.mp hz with m | m
    · exact hx.lt z m
    · exact hy.lt z m

/-- Replacing items without moving them keeps the list spaced. -/
theorem Spaced.update {xs : List α} (h : Spaced key rev gap xs) {f : α → α}
    (hf : ∀ x, key (f x) = key x) : Spaced key rev gap (xs.map f) := by
  refine ⟨?_, ?_⟩
  · intro y hy
    obtain ⟨x, hx, rfl⟩ := List.mem_map.mp hy
    rw [hf]; exact h.lt x hx
  · rw [List.pairwise_map]
    exact h.apart.imp fun hxy => by simpa only [hf] using hxy

/-- A new item between `xs` and `ys`, far enough from every other one. -/
theorem Spaced.insert {xs ys : List α} {z : α} (h : Spaced key rev gap (xs ++ ys))
    (hz : key z < rev)
    (hx : ∀ x ∈ xs, key x + gap ≤ key z ∧ key z + gap ≤ key x + rev)
    (hy : ∀ y ∈ ys, key z + gap ≤ key y ∧ key y + gap ≤ key z + rev) :
    Spaced key rev gap (xs ++ z :: ys) := by
  obtain ⟨h1, h2, h3⟩ := Spaced.append.mp h
  refine Spaced.append.mpr ⟨h1, ⟨?_, List.pairwise_cons.mpr ⟨hy, h2.apart⟩⟩, ?_⟩
  · intro w hw
    rcases List.mem_cons.mp hw with rfl | hw
    · exact hz
    · exact h2.lt w hw
  · intro x mx w hw
    rcases List.mem_cons.mp hw with rfl | hw
    · exact hx x mx
    · exact h3 x mx w hw

/-! ## Distances -/

theorem distance_comm (a b : Nat) : distance rev a b = distance rev b a := by
  simp only [distance]
  split <;> split <;> omega

theorem apart_iff (hg : 0 < gap) {a b : Nat} (hb : b < rev) :
    (a + gap ≤ b ∧ b + gap ≤ a + rev) ↔ a < b ∧ gap ≤ distance rev a b := by
  simp only [distance]
  split <;> omega

/-- A spaced list is in strict order of position, with every two items `gap` apart on the circle. -/
theorem spaced_iff (hg : 0 < gap) {xs : List α} :
    Spaced key rev gap xs ↔
      (∀ x ∈ xs, key x < rev) ∧ xs.Pairwise (fun x y => key x < key y) ∧
        xs.Pairwise fun x y => gap ≤ distance rev (key x) (key y) := by
  rw [← List.pairwise_and_iff]
  constructor
  · rintro ⟨hlt, hapart⟩
    refine ⟨hlt, hapart.imp_of_mem fun _ hy hxy => ?_⟩
    exact (apart_iff hg (hlt _ hy)).mp hxy
  · rintro ⟨hlt, hapart⟩
    refine ⟨hlt, hapart.imp_of_mem fun _ hy hxy => ?_⟩
    exact (apart_iff hg (hlt _ hy)).mpr hxy

/-- The circle has room for `rev / gap` items. -/
theorem Spaced.length_le (hg : gap ≤ rev) {xs : List α} (h : Spaced key rev gap xs) :
    xs.length * gap ≤ rev := by
  have hspan : ∀ (xs : List α) (x : α), (x :: xs).Pairwise (fun x y => key x + gap ≤ key y) →
      ∃ last ∈ x :: xs, key x + xs.length * gap ≤ key last := by
    intro xs
    induction xs with
    | nil => exact fun x _ => ⟨x, by simp, by simp⟩
    | cons y ys ih =>
      intro x hp
      obtain ⟨hx, hys⟩ := List.pairwise_cons.mp hp
      obtain ⟨last, hmem, hle⟩ := ih y hys
      refine ⟨last, List.mem_cons_of_mem x hmem, ?_⟩
      have hxy := hx y (by simp)
      rw [List.length_cons, Nat.add_mul]
      omega
  cases xs with
  | nil => simp
  | cons x xs =>
    obtain ⟨last, hmem, hle⟩ := hspan xs x (h.apart.imp fun hxy => hxy.1)
    rw [List.length_cons, Nat.add_mul, Nat.one_mul]
    rcases List.mem_cons.mp hmem with rfl | hmem
    · omega
    · have hwrap := (List.pairwise_cons.mp h.apart).1 last hmem
      omega

/-! ## The split at a position -/

theorem takeWhile_lt {xs : List α} {k : Nat} : ∀ x ∈ xs.takeWhile (key · < k), key x < k := by
  intro x hx
  simpa using List.all_eq_true.mp List.all_takeWhile x hx

theorem dropWhile_ge {xs : List α} {k : Nat} (h : xs.Pairwise fun x y => key x < key y) :
    ∀ x ∈ xs.dropWhile (key · < k), k ≤ key x := by
  induction xs with
  | nil => simp
  | cons z zs ih =>
    obtain ⟨hz, hzs⟩ := List.pairwise_cons.mp h
    intro x hx
    rw [List.dropWhile_cons] at hx
    split at hx
    · exact ih hzs x hx
    · rename_i hk
      simp only [decide_eq_true_eq, Nat.not_lt] at hk
      rcases List.mem_cons.mp hx with rfl | hx
      · exact hk
      · have := hz x hx; omega

/-- The items before and from position `k`. -/
theorem filter_lt {xs : List α} {k : Nat} (h : xs.Pairwise fun x y => key x < key y) :
    xs.filter (fun x => key x < k) = xs.takeWhile (key · < k) := by
  conv => lhs; rw [← List.takeWhile_append_dropWhile (p := fun x => decide (key x < k)) (l := xs)]
  rw [List.filter_append, List.filter_eq_self.mpr, List.filter_eq_nil_iff.mpr, List.append_nil]
  · intro x hx; have := dropWhile_ge h x hx; simp; omega
  · intro x hx; simpa using takeWhile_lt x hx

theorem filter_ge {xs : List α} {k : Nat} (h : xs.Pairwise fun x y => key x < key y) :
    xs.filter (fun x => k ≤ key x) = xs.dropWhile (key · < k) := by
  conv => lhs; rw [← List.takeWhile_append_dropWhile (p := fun x => decide (key x < k)) (l := xs)]
  rw [List.filter_append, List.filter_eq_nil_iff.mpr, List.filter_eq_self.mpr, List.nil_append]
  · intro x hx; simpa using dropWhile_ge h x hx
  · intro x hx; have := takeWhile_lt x hx; simp; omega

/-- The items from position `a` up to, not including, position `b`. -/
theorem window_eq_filter {xs : List α} {a b : Nat} (h : xs.Pairwise fun x y => key x < key y) :
    (xs.dropWhile (key · < a)).takeWhile (key · < b) =
      xs.filter fun x => a ≤ key x && key x < b := by
  have hd := h.sublist (List.dropWhile_sublist (fun x => decide (key x < a)))
  rw [← filter_lt hd, ← filter_ge h, List.filter_filter]
  congr 1; funext x; rw [Bool.and_comm]

/-- With an item already at position `k`, the split there replaces it in place. -/
theorem replace_eq_map (hg : 0 < gap) {xs rest : List α} {k : Nat} {found new : α}
    (h : Spaced key rev gap xs) (hd : xs.dropWhile (key · < k) = found :: rest)
    (hk : key found = k) :
    xs.takeWhile (key · < k) ++ new :: rest = xs.map fun x => if key x = k then new else x := by
  have hs := h.sorted hg
  have hsplit := List.takeWhile_append_dropWhile (p := fun x => decide (key x < k)) (l := xs)
  rw [hd] at hsplit
  have hrest : ∀ x ∈ rest, k < key x := by
    rw [← hsplit] at hs
    have := (List.pairwise_append.mp hs).2.1
    intro x hx; have := (List.pairwise_cons.mp this).1 x hx; omega
  conv => rhs; rw [← hsplit]
  rw [List.map_append, List.map_cons, if_pos hk]
  congr 1
  · conv => lhs; rw [← List.map_id (List.takeWhile _ xs)]
    apply List.map_congr_left
    intro x hx; have := takeWhile_lt x hx
    rw [if_neg (by omega)]; rfl
  · congr 1
    conv => lhs; rw [← List.map_id rest]
    apply List.map_congr_left
    intro x hx; have := hrest x hx
    rw [if_neg (by omega)]; rfl

theorem exists_dropWhile_of_mem (hg : 0 < gap) {xs : List α} (h : Spaced key rev gap xs) {x : α}
    (hx : x ∈ xs) : ∃ rest, xs.dropWhile (key · < key x) = x :: rest := by
  have hs := h.sorted hg
  have hm : x ∈ xs.dropWhile (key · < key x) := by
    rw [← filter_ge hs, List.mem_filter]; exact ⟨hx, by simp⟩
  cases hd : xs.dropWhile (key · < key x) with
  | nil => rw [hd] at hm; cases hm
  | cons y rest =>
    have hy : key x ≤ key y := dropWhile_ge hs y (by rw [hd]; simp)
    refine ⟨rest, ?_⟩
    rcases List.mem_cons.mp (hd ▸ hm) with rfl | hm'
    · rfl
    · have hsd := hs.sublist (List.dropWhile_sublist (fun y => decide (key y < key x)))
      rw [hd] at hsd
      have := (List.pairwise_cons.mp hsd).1 x hm'
      omega

/-! ## Neighbours -/

theorem le_getLast {xs : List α} (h : xs.Pairwise fun x y => key x < key y) {last : α}
    (hl : xs.getLast? = some last) : ∀ x ∈ xs, key x ≤ key last := by
  obtain ⟨init, rfl⟩ := List.getLast?_eq_some_iff.mp hl
  obtain ⟨_, _, hlast⟩ := List.pairwise_append.mp h
  intro x hx
  rcases List.mem_append.mp hx with hx | hx
  · exact Nat.le_of_lt (hlast x hx last (by simp))
  · obtain rfl := List.mem_singleton.mp hx
    exact Nat.le_refl _

theorem head_le {xs : List α} (h : xs.Pairwise fun x y => key x < key y) {first : α}
    (hf : xs.head? = some first) : ∀ x ∈ xs, key first ≤ key x := by
  obtain ⟨rest, rfl⟩ := List.head?_eq_some_iff.mp hf
  intro x hx
  rcases List.mem_cons.mp hx with rfl | hx
  · exact Nat.le_refl _
  · exact Nat.le_of_lt ((List.pairwise_cons.mp h).1 x hx)

/-- A new item between `xs` and `ys` is far enough from every item as soon as it is far enough
from its two neighbours on the circle. -/
theorem neighbours_iff (hg : 0 < gap) {xs ys : List α} {z previous next : α}
    (h : Spaced key rev gap (xs ++ ys)) (hz : key z < rev)
    (hx : ∀ x ∈ xs, key x < key z) (hy : ∀ y ∈ ys, key z < key y)
    (hprev : xs.getLast? = some previous ∨ xs = [] ∧ ys.getLast? = some previous)
    (hnext : ys.head? = some next ∨ ys = [] ∧ xs.head? = some next) :
    (gap ≤ key z + (if key previous > key z then rev else 0) - key previous ∧
      gap ≤ key next + (if key next < key z then rev else 0) - key z) ↔
      (∀ x ∈ xs, key x + gap ≤ key z ∧ key z + gap ≤ key x + rev) ∧
        (∀ y ∈ ys, key z + gap ≤ key y ∧ key y + gap ≤ key z + rev) := by
  obtain ⟨hxs, hys, hxy⟩ := Spaced.append.mp h
  have hsx := hxs.sorted hg
  have hsy := hys.sorted hg
  rcases hprev with hprev | ⟨rfl, hprev⟩
  · have hpm := List.mem_of_getLast? hprev
    have hpz := hx previous hpm
    have hple := le_getLast hsx hprev
    rw [if_neg (by omega : ¬ key previous > key z)]
    rcases hnext with hnext | ⟨rfl, hnext⟩
    · have hnm := List.mem_of_mem_head? hnext
      have hnz := hy next hnm
      have hnle := head_le hsy hnext
      rw [if_neg (by omega : ¬ key next < key z)]
      constructor
      · rintro ⟨h1, h2⟩
        refine ⟨fun x m => ?_, fun y m => ?_⟩
        · have := hple x m; have := (hxy x m next hnm).2; omega
        · have := hnle y m; have := (hxy previous hpm y m).2; omega
      · rintro ⟨h1, h2⟩
        have := h1 previous hpm; have := h2 next hnm; omega
    · have hnm := List.mem_of_mem_head? hnext
      have hnz := hx next hnm
      have hnle := head_le hsx hnext
      rw [if_pos hnz]
      constructor
      · rintro ⟨h1, h2⟩
        refine ⟨fun x m => ?_, by simp⟩
        have := hple x m; have := hnle x m; omega
      · rintro ⟨h1, _⟩
        have := h1 previous hpm; have := h1 next hnm; omega
  · have hpm := List.mem_of_getLast? hprev
    have hpz := hy previous hpm
    have hple := le_getLast hsy hprev
    rw [if_pos hpz]
    rcases hnext with hnext | ⟨rfl, _⟩
    · have hnm := List.mem_of_mem_head? hnext
      have hnz := hy next hnm
      have hnle := head_le hsy hnext
      rw [if_neg (by omega : ¬ key next < key z)]
      have hlt := hys.lt previous hpm
      constructor
      · rintro ⟨h1, h2⟩
        refine ⟨by simp, fun y m => ?_⟩
        have := hnle y m; have := hple y m; omega
      · rintro ⟨_, h2⟩
        have := h2 previous hpm; have := h2 next hnm; omega
    · cases hpm

/-! ## The passing stream -/

@[simp] theorem passed_zero (xs : List α) (phase : Nat) : passed key rev xs phase 0 = [] := rfl

@[simp] theorem passed_nil (phase ticks : Nat) : passed key rev ([] : List α) phase ticks = [] := by
  simp [passed]

theorem mem_passed {xs : List α} {phase ticks : Nat} {x : α} :
    x ∈ passed key rev xs phase ticks ↔ x ∈ xs ∧ ∃ i < ticks, key x = (phase + i) % rev := by
  simp only [passed, List.mem_flatMap, List.mem_range, List.mem_filter, beq_iff_eq]
  constructor
  · rintro ⟨i, hi, hx, hk⟩; exact ⟨hx, i, hi, hk⟩
  · rintro ⟨hx, i, hi, hk⟩; exact ⟨i, hi, hx, hk⟩

/-- Turning by `s` and then by `t`. -/
theorem passed_add (xs : List α) (phase s t : Nat) :
    passed key rev xs phase (s + t) =
      passed key rev xs phase s ++ passed key rev xs ((phase + s) % rev) t := by
  simp only [passed, List.range_add, List.flatMap_append, List.flatMap_map]
  congr 2
  funext i
  rw [Nat.mod_add_mod, Nat.add_assoc]

theorem crossings_add (phase s t : Nat) :
    crossings rev phase (s + t) = crossings rev phase s + crossings rev ((phase + s) % rev) t := by
  simp only [crossings, List.range_add, List.countP_append, List.countP_map]
  congr 2
  funext i
  simp only [Function.comp, Nat.mod_add_mod, Nat.add_assoc]

/-- The stream only depends on where the items are. -/
theorem passed_map {key' : β → Nat} (f : α → β) (hf : ∀ x, key' (f x) = key x) (xs : List α)
    (phase ticks : Nat) :
    passed key' rev (xs.map f) phase ticks = (passed key rev xs phase ticks).map f := by
  simp only [passed, List.map_flatMap, List.filter_map]
  congr 1; funext i; congr 2; funext x
  simp [hf]

/-- Before the end of the turn the passed items are a window of the list. -/
theorem passed_interval {xs : List α} (h : xs.Pairwise fun x y => key x < key y) {phase ticks : Nat}
    (hr : phase + ticks ≤ rev) :
    passed key rev xs phase ticks = xs.filter fun x => phase ≤ key x && key x < phase + ticks := by
  induction ticks with
  | zero =>
    rw [passed_zero, eq_comm, List.filter_eq_nil_iff]
    intro x _; simp
  | succ n ih =>
    have hn : (phase + n) % rev = phase + n := Nat.mod_eq_of_lt (by omega)
    have hsingle : passed key rev xs ((phase + n) % rev) 1 =
        xs.filter fun x => key x == phase + n := by
      simp [passed, hn]
    rw [passed_add, ih (by omega), hsingle]
    have hsort : xs.Pairwise fun x y => ¬ (key y < phase + n ∧ key x = phase + n) :=
      h.imp fun hxy => by omega
    clear ih hsingle
    induction xs with
    | nil => rfl
    | cons z zs ih =>
      obtain ⟨hz, hzs⟩ := List.pairwise_cons.mp h
      have ih := ih hzs (List.pairwise_cons.mp hsort).2
      rcases Nat.lt_trichotomy (key z) (phase + n) with hlt | heq | hgt
      · have h1 : ¬ key z = phase + n := by omega
        by_cases hp : phase ≤ key z
        · have h2 : key z < phase + (n + 1) := by omega
          simp [hlt, h1, h2, hp, ih]
        · simp [h1, hp, ih]
      · have h2 : key z < phase + (n + 1) := by omega
        have hnone : zs.filter (fun x => phase ≤ key x && key x < phase + n) = [] := by
          rw [List.filter_eq_nil_iff]
          intro x hx; have := hz x hx; simp; omega
        rw [hnone, List.nil_append] at ih
        simp [heq, hnone, ih]
      · have h1 : ¬ key z = phase + n := by omega
        have h2 : ¬ key z < phase + n := by omega
        have h3 : ¬ key z < phase + (n + 1) := by omega
        simp [h1, h2, h3, ih]

/-- Two items closer than the gap are one. -/
theorem length_le_one_of_close (hg : 0 < gap) {xs : List α} (h : Spaced key rev gap xs)
    {p : α → Bool} (hp : ∀ x ∈ xs, ∀ y ∈ xs, p x → p y → key x < key y → key y < key x + gap) :
    (xs.filter p).length ≤ 1 := by
  induction xs with
  | nil => simp
  | cons z zs ih =>
    obtain ⟨hz, _⟩ := List.pairwise_cons.mp h.apart
    rw [List.filter_cons]
    split
    · rename_i hpz
      have hnone : zs.filter p = [] := by
        rw [List.filter_eq_nil_iff]
        intro x hx hpx
        have h1 := hz x hx
        have h2 := hp z (by simp) x (by simp [hx]) hpz hpx (by omega)
        omega
      simp [hnone]
    · exact ih h.tail fun x hx y hy => hp x (by simp [hx]) y (by simp [hy])

/-- A turn shorter than the gap passes at most one item. -/
theorem passed_length_le_one (hg : 0 < gap) {xs : List α} (h : Spaced key rev gap xs)
    {phase ticks : Nat} (hphase : phase < rev) (ht : ticks ≤ gap) (hr : ticks ≤ rev) :
    (passed key rev xs phase ticks).length ≤ 1 := by
  have hs := h.sorted hg
  by_cases hw : phase + ticks ≤ rev
  · rw [passed_interval hs hw]
    refine length_le_one_of_close hg h fun x _ y _ hx hy hlt => ?_
    simp only [Bool.and_eq_true, decide_eq_true_eq] at hx hy
    omega
  · -- the turn wraps: a window at the end of the list and one at its start
    have hsplit : ticks = (rev - phase) + (phase + ticks - rev) := by omega
    have hzero : (phase + (rev - phase)) % rev = 0 := by
      rw [show phase + (rev - phase) = rev by omega, Nat.mod_self]
    rw [hsplit, passed_add, hzero, passed_interval hs (by omega), passed_interval hs (by omega)]
    rw [List.length_append]
    have h1 : (xs.filter fun x => decide (phase ≤ key x) && decide (key x < phase + (rev - phase))).length
        ≤ 1 := by
      refine length_le_one_of_close hg h fun x _ y _ hx hy hlt => ?_
      simp only [Bool.and_eq_true, decide_eq_true_eq] at hx hy
      omega
    have h2 : (xs.filter fun x => decide (0 ≤ key x) &&
        decide (key x < 0 + (phase + ticks - rev))).length ≤ 1 := by
      refine length_le_one_of_close hg h fun x _ y _ hx hy hlt => ?_
      simp only [Bool.and_eq_true, decide_eq_true_eq] at hx hy
      omega
    by_cases hne : ∃ x ∈ xs, phase ≤ key x
    · obtain ⟨x, hx, hpx⟩ := hne
      have hnone : (xs.filter fun x => decide (0 ≤ key x) &&
          decide (key x < 0 + (phase + ticks - rev))) = [] := by
        rw [List.filter_eq_nil_iff]
        intro y hy hky
        simp only [Bool.and_eq_true, decide_eq_true_eq] at hky
        have hyx : key y < key x := by omega
        have := far_of_lt h hy hx hyx
        omega
      rw [hnone]; simpa using h1
    · have hnone : (xs.filter fun x => decide (phase ≤ key x) &&
          decide (key x < phase + (rev - phase))) = [] := by
        rw [List.filter_eq_nil_iff]
        intro y hy hky
        simp only [Bool.and_eq_true, decide_eq_true_eq] at hky
        exact hne ⟨y, hy, hky.1⟩
      rw [hnone]; simpa using h2
where
  far_of_lt {xs : List α} (h : Spaced key rev gap xs) {x y : α} (hx : x ∈ xs) (hy : y ∈ xs)
      (hlt : key x < key y) : key y + gap ≤ key x + rev := by
    induction xs with
    | nil => cases hx
    | cons z zs ih =>
      obtain ⟨hz, _⟩ := List.pairwise_cons.mp h.apart
      rcases List.mem_cons.mp hx with rfl | hx'
      · rcases List.mem_cons.mp hy with rfl | hy'
        · omega
        · exact (hz y hy').2
      · rcases List.mem_cons.mp hy with rfl | hy'
        · have := hz x hx'; omega
        · exact ih h.tail hx' hy'

/-! ## From one passage of position 0 to the next -/

/-- How often the stream `ys` meets an item at position 0. -/
def indexes (key : α → Nat) (ys : List α) : Nat := ys.countP fun x => key x == 0

/-- The part of the stream from the first item at position 0 up to, not including, the second. -/
def window (key : α → Nat) (ys : List α) : List α :=
  match ys.dropWhile fun x => !(key x == 0) with
  | [] => []
  | x :: rest => x :: rest.takeWhile fun x => !(key x == 0)

@[simp] theorem indexes_nil : indexes key ([] : List α) = 0 := rfl

@[simp] theorem window_nil : window key ([] : List α) = [] := rfl

theorem indexes_append (xs ys : List α) : indexes key (xs ++ ys) = indexes key xs + indexes key ys :=
  List.countP_append

theorem indexes_snoc (ys : List α) (x : α) :
    indexes key (ys ++ [x]) = indexes key ys + if key x = 0 then 1 else 0 := by
  simp [indexes, List.countP_append, List.countP_cons]

theorem indexes_map {key' : β → Nat} (f : α → β) (hf : ∀ x, key' (f x) = key x) (ys : List α) :
    indexes key' (ys.map f) = indexes key ys := by
  simp [indexes, List.countP_map, Function.comp_def, hf]

theorem window_map {key' : β → Nat} (f : α → β) (hf : ∀ x, key' (f x) = key x) (ys : List α) :
    window key' (ys.map f) = (window key ys).map f := by
  unfold window
  rw [List.dropWhile_map]
  simp only [Function.comp_def, hf]
  cases ys.dropWhile fun x => !(key x == 0) with
  | nil => rfl
  | cons x rest => simp [List.takeWhile_map, Function.comp_def, hf]

/-- The stream before and from its first item at position 0. -/
theorem dropWhile_indexes (key : α → Nat) (ys : List α) :
    (indexes key ys = 0 ∧ ys.dropWhile (fun x => !(key x == 0)) = []) ∨
      ∃ x rest, ys.dropWhile (fun x => !(key x == 0)) = x :: rest ∧ key x = 0 ∧
        indexes key ys = 1 + indexes key rest := by
  induction ys with
  | nil => exact .inl ⟨rfl, rfl⟩
  | cons y ys ih =>
    by_cases hy : key y = 0
    · exact .inr ⟨y, ys, by simp [hy], hy, by simp [indexes, hy, Nat.add_comm]⟩
    · have hcount : indexes key (y :: ys) = indexes key ys := by simp [indexes, hy]
      rw [hcount, List.dropWhile_cons_of_pos (by simp [hy])]
      exact ih

theorem indexes_eq_zero {ys : List α} : indexes key ys = 0 ↔ ∀ x ∈ ys, key x ≠ 0 := by
  simp [indexes, List.countP_eq_zero]

theorem window_of_none {ys : List α} (h : indexes key ys = 0) : window key ys = [] := by
  unfold window
  rcases dropWhile_indexes key ys with ⟨_, hd⟩ | ⟨x, rest, _, _, hcount⟩
  · rw [hd]
  · omega

/-- The first item at position 0 opens the window. -/
theorem window_open {ys : List α} (h : indexes key ys = 0) {x : α} (hx : key x = 0) :
    window key (ys ++ [x]) = [x] := by
  rcases dropWhile_indexes key ys with ⟨_, hd⟩ | ⟨y, rest, _, _, hcount⟩
  · unfold window
    rw [List.dropWhile_append, hd]
    simp [hx]
  · omega

theorem takeWhile_eq_self {p : α → Bool} {xs : List α} (h : ∀ x ∈ xs, p x = true) :
    xs.takeWhile p = xs := by
  induction xs with
  | nil => rfl
  | cons x xs ih =>
    rw [List.takeWhile_cons_of_pos (h x (by simp)), ih fun y hy => h y (by simp [hy])]

/-- Inside the window. -/
theorem window_snoc {ys : List α} (h : indexes key ys = 1) {x : α} (hx : key x ≠ 0) :
    window key (ys ++ [x]) = window key ys ++ [x] := by
  rcases dropWhile_indexes key ys with ⟨h0, _⟩ | ⟨y, rest, hd, _, hcount⟩
  · omega
  · have hrest : ∀ z ∈ rest, (!(key z == 0)) = true := by
      have hz : indexes key rest = 0 := by omega
      intro z hz'
      simpa using indexes_eq_zero.mp hz z hz'
    unfold window
    rw [List.dropWhile_append, hd]
    simp [List.takeWhile_append_of_pos hrest, takeWhile_eq_self hrest, hx]

/-- The second item at position 0 closes the window. -/
theorem window_close {ys : List α} (h : 1 ≤ indexes key ys) {x : α}
    (hx : key x = 0 ∨ 2 ≤ indexes key ys) : window key (ys ++ [x]) = window key ys := by
  rcases dropWhile_indexes key ys with ⟨h0, _⟩ | ⟨y, rest, hd, _, hcount⟩
  · omega
  · unfold window
    rw [List.dropWhile_append, hd]
    simp only [List.isEmpty_cons, Bool.false_eq_true, if_false, List.cons_append, List.cons.injEq, true_and]
    rcases hx with hx | hx
    · rw [List.takeWhile_append]
      split
      · rename_i hlen
        rw [( List.takeWhile_prefix _).eq_of_length hlen]
        simp [hx]
      · rfl
    · rw [List.takeWhile_append, if_neg]
      intro hlen
      have hall : rest.takeWhile (fun x => !(key x == 0)) = rest :=
        ( List.takeWhile_prefix _).eq_of_length hlen
      have hz : indexes key rest = 0 := indexes_eq_zero.mpr fun z hz => by
        rw [← hall] at hz
        simpa using List.all_eq_true.mp List.all_takeWhile z hz
      omega

/-- One more item: the window takes it from the first item at position 0 to before the second. -/
theorem window_concat (ys : List α) (x : α) :
    window key (ys ++ [x]) = window key ys ++
      if (indexes key ys = 0 ∧ key x = 0) ∨ (indexes key ys = 1 ∧ key x ≠ 0) then [x] else [] := by
  rcases Nat.lt_trichotomy (indexes key ys) 1 with h | h | h
  · have hzero : indexes key ys = 0 := by omega
    by_cases hx : key x = 0
    · rw [window_open hzero hx, if_pos (.inl ⟨hzero, hx⟩), window_of_none hzero, List.nil_append]
    · have hnone : indexes key (ys ++ [x]) = 0 := by rw [indexes_snoc, if_neg hx, hzero]
      rw [window_of_none hnone, window_of_none hzero, if_neg (by omega), List.nil_append]
  · by_cases hx : key x = 0
    · rw [window_close (by omega) (.inl hx), if_neg (by omega), List.append_nil]
    · rw [window_snoc h hx, if_pos (.inr ⟨h, hx⟩)]
  · rw [window_close (by omega) (.inr (by omega)), if_neg (by omega), List.append_nil]

/-! ## Whole turns -/

theorem crossings_of_lt {phase ticks : Nat} (hphase : 0 < phase) (h : phase + ticks ≤ rev) :
    crossings rev phase ticks = 0 := by
  rw [crossings, List.countP_eq_zero]
  intro i hi
  rw [List.mem_range] at hi
  rw [Nat.mod_eq_of_lt (by omega)]
  simp; omega

theorem crossings_turn (hrev : 0 < rev) : crossings rev 0 rev = 1 := by
  have hfirst : crossings rev 0 1 = 1 := by simp [crossings]
  have hrest : crossings rev ((0 + 1) % rev) (rev - 1) = 0 := by
    rcases Nat.eq_or_lt_of_le hrev with h1 | h1
    · rw [← h1]; rfl
    · rw [Nat.mod_eq_of_lt (by omega)]
      exact crossings_of_lt (by omega) (by omega)
  have hsplit : crossings rev 0 (1 + (rev - 1)) = _ := crossings_add 0 1 (rev - 1)
  rw [show 1 + (rev - 1) = rev by omega, hfirst, hrest] at hsplit
  exact hsplit

/-- With one item at position 0, the stream meets it at every passage. -/
theorem indexes_passed {xs : List α} (h : xs.Pairwise fun x y => key x < key y) (phase ticks : Nat) :
    indexes key (passed key rev xs phase ticks) =
      if ∃ x ∈ xs, key x = 0 then crossings rev phase ticks else 0 := by
  have hone : indexes key xs = if ∃ x ∈ xs, key x = 0 then 1 else 0 := by
    cases xs with
    | nil => simp
    | cons x rest =>
      have hlater : ∀ y ∈ rest, key y ≠ 0 := fun y hy => by
        have := (List.pairwise_cons.mp h).1 y hy; omega
      have hrest : indexes key rest = 0 := indexes_eq_zero.mpr hlater
      have hcons : indexes key (x :: rest) = indexes key rest + if key x = 0 then 1 else 0 := by
        simp [indexes, List.countP_cons]
      rw [hcons, hrest, Nat.zero_add]
      by_cases hx : key x = 0
      · rw [if_pos hx, if_pos ⟨x, by simp, hx⟩]
      · rw [if_neg hx, if_neg]
        rintro ⟨y, hy, hy0⟩
        rcases List.mem_cons.mp hy with rfl | hy
        · exact hx hy0
        · exact hlater y hy hy0
  induction ticks with
  | zero => simp [crossings]
  | succ n ih =>
    have hstep : indexes key (passed key rev xs ((phase + n) % rev) 1) =
        if (phase + n) % rev = 0 then indexes key xs else 0 := by
      have hat : passed key rev xs ((phase + n) % rev) 1 =
          xs.filter fun x => key x == (phase + n) % rev := by
        simp [passed]
      rw [hat, indexes, List.countP_filter]
      by_cases h0 : (phase + n) % rev = 0
      · rw [if_pos h0, indexes]; congr 1; funext x; simp [h0]
      · rw [if_neg h0, List.countP_eq_zero]
        intro x _; simp; omega
    have hcross : crossings rev ((phase + n) % rev) 1 = if (phase + n) % rev = 0 then 1 else 0 := by
      simp [crossings]
    rw [passed_add, indexes_append, ih, hstep, crossings_add, hcross, hone]
    split <;> split <;> rfl

/-- One turn from position 0 passes every item once, in order. -/
theorem passed_turn {xs : List α} (h : xs.Pairwise fun x y => key x < key y)
    (hlt : ∀ x ∈ xs, key x < rev) : passed key rev xs 0 rev = xs := by
  rw [passed_interval h (by omega), List.filter_eq_self]
  intro x hx
  simpa using hlt x hx

/-- Between two passages of position 0 every item passes once, in order. -/
theorem window_passed {xs : List α} (h : xs.Pairwise fun x y => key x < key y)
    (hlt : ∀ x ∈ xs, key x < rev) {phase ticks : Nat} (hphase : phase < rev)
    (htwo : 2 ≤ indexes key (passed key rev xs phase ticks)) :
    window key (passed key rev xs phase ticks) = xs := by
  have hrev : 0 < rev := by omega
  have hcross : (∃ x ∈ xs, key x = 0) ∧ 2 ≤ crossings rev phase ticks := by
    rw [indexes_passed h] at htwo
    split at htwo
    · rename_i hz; exact ⟨hz, htwo⟩
    · omega
  obtain ⟨hzero, htwice⟩ := hcross
  obtain ⟨x, rest, rfl⟩ : ∃ x rest, xs = x :: rest := by
    cases xs with
    | nil => obtain ⟨x, hx, _⟩ := hzero; cases hx
    | cons x rest => exact ⟨x, rest, rfl⟩
  have hrest : ∀ y ∈ rest, key y ≠ 0 := fun y hy => by
    have := (List.pairwise_cons.mp h).1 y hy; omega
  have hx : key x = 0 := by
    obtain ⟨y, hy, hy0⟩ := hzero
    rcases List.mem_cons.mp hy with rfl | hy
    · exact hy0
    · exact absurd hy0 (hrest y hy)
  -- the way to the first passage, one turn, and the rest
  obtain ⟨way, hway, hfirst⟩ : ∃ way, (phase + way) % rev = 0 ∧ crossings rev phase way = 0 := by
    by_cases h0 : phase = 0
    · exact ⟨0, by rw [h0]; exact Nat.zero_mod _, rfl⟩
    · exact ⟨rev - phase, by rw [Nat.add_sub_cancel' (Nat.le_of_lt hphase), Nat.mod_self],
        crossings_of_lt (by omega) (by omega)⟩
  obtain ⟨n, hticks⟩ : ∃ n, ticks = way + (rev + (1 + n)) := by
    refine ⟨ticks - way - rev - 1, ?_⟩
    have hle : ¬ ticks ≤ way + rev := by
      intro hle
      obtain ⟨d, hd⟩ := Nat.exists_eq_add_of_le hle
      have hmono : crossings rev phase (ticks + d) = _ := crossings_add phase ticks d
      rw [← hd, crossings_add, hfirst, hway, crossings_turn hrev] at hmono
      omega
    omega
  have hbefore : indexes key (passed key rev (x :: rest) phase way) = 0 := by
    rw [indexes_passed h, if_pos hzero, hfirst]
  have hagain : passed key rev (x :: rest) 0 1 = [x] := by
    have hnone : rest.filter (fun y => key y == 0) = [] := by
      rw [List.filter_eq_nil_iff]
      intro y hy; simpa using hrest y hy
    simp [passed, hx, hnone]
  have hskip : ∀ y ∈ passed key rev (x :: rest) phase way, (!(key y == 0)) = true := fun y hy => by
    simpa using indexes_eq_zero.mp hbefore y hy
  have htake : ∀ y ∈ rest, (!(key y == 0)) = true := fun y hy => by simpa using hrest y hy
  rw [hticks, passed_add, hway, passed_add, passed_turn h hlt, Nat.zero_add, Nat.mod_self, passed_add,
    hagain]
  unfold window
  rw [List.dropWhile_append_of_pos hskip]
  simp [hx, List.takeWhile_append_of_pos htake]

/-- The window only grows. -/
theorem window_grows (ys zs : List α) : window key ys <+: window key (ys ++ zs) := by
  induction zs generalizing ys with
  | nil => simp
  | cons z zs ih =>
    have hstep : window key ys <+: window key (ys ++ [z]) := by
      rw [window_concat]; exact List.prefix_append _ _
    have hrest := ih (ys ++ [z])
    rw [List.append_assoc] at hrest
    exact hstep.trans hrest

/-- A turn from the position of an item passes every item once, in rotational order. -/
theorem passed_turn_from {xs ys : List α} {c : α} (h : (xs ++ c :: ys).Pairwise fun x y => key x < key y)
    (hlt : ∀ x ∈ xs ++ c :: ys, key x < rev) :
    passed key rev (xs ++ c :: ys) (key c) rev = c :: ys ++ xs := by
  have hc : key c < rev := hlt c (by simp)
  obtain ⟨_, hys, hxs⟩ := List.pairwise_append.mp h
  have hbefore : ∀ x ∈ xs, key x < key c := fun x hx => hxs x hx c (by simp)
  have hafter : ∀ y ∈ c :: ys, key c ≤ key y := by
    intro y hy
    rcases List.mem_cons.mp hy with rfl | hy
    · exact Nat.le_refl _
    · exact Nat.le_of_lt ((List.pairwise_cons.mp hys).1 y hy)
  have hwrap : (key c + (rev - key c)) % rev = 0 := by
    rw [Nat.add_sub_cancel' (Nat.le_of_lt hc), Nat.mod_self]
  have hrest : passed key rev (xs ++ c :: ys) (key c) (rev - key c) = c :: ys := by
    rw [passed_interval h (by omega), List.filter_append, List.filter_eq_nil_iff.mpr,
      List.filter_eq_self.mpr, List.nil_append]
    · intro y hy
      have := hafter y hy
      have := hlt y (List.mem_append_right xs hy)
      simp; omega
    · intro x hx
      have := hbefore x hx
      simp; omega
  have hwrapped : passed key rev (xs ++ c :: ys) 0 (key c) = xs := by
    rw [passed_interval h (by omega), List.filter_append, List.filter_eq_self.mpr,
      List.filter_eq_nil_iff.mpr, List.append_nil]
    · intro y hy
      have := hafter y hy
      simp; omega
    · intro x hx
      simpa using hbefore x hx
  have hturn : passed key rev (xs ++ c :: ys) (key c) (rev - key c + key c) = _ := passed_add _ _ _ _
  rwa [Nat.sub_add_cancel (Nat.le_of_lt hc), hwrap, hrest, hwrapped] at hturn

/-- So do the first as many that pass, whenever the turn is broken off. -/
theorem passed_take_turn {xs ys : List α} {c : α}
    (h : (xs ++ c :: ys).Pairwise fun x y => key x < key y)
    (hlt : ∀ x ∈ xs ++ c :: ys, key x < rev) (ticks : Nat) :
    (passed key rev (xs ++ c :: ys) (key c) ticks).take (xs ++ c :: ys).length <+: c :: ys ++ xs := by
  have hturn := passed_turn_from h hlt
  have hlength : (xs ++ c :: ys).length = (c :: ys ++ xs).length := by
    rw [List.length_append, List.length_append, Nat.add_comm]
  rcases Nat.le_total ticks rev with hle | hle
  · have hbroken : passed key rev (xs ++ c :: ys) (key c) (ticks + (rev - ticks)) = _ :=
      passed_add _ _ _ _
    rw [Nat.add_sub_cancel' hle, hturn] at hbroken
    rw [hbroken]
    exact ( List.take_prefix _ _).trans ( List.prefix_append _ _)
  · obtain ⟨n, rfl⟩ := Nat.exists_eq_add_of_le hle
    have hcut : (c :: ys ++ xs ++ passed key rev (xs ++ c :: ys) ((key c + rev) % rev) n).take
        (c :: ys ++ xs).length = c :: ys ++ xs := List.take_left' rfl
    rw [passed_add, hturn, hlength]
    exact hcut.symm ▸ List.prefix_refl _

/-- Nothing has passed since the last item. -/
theorem passed_last (hg : 0 < gap) {xs : List α} (h : Spaced key rev gap xs) (hrev : 0 < rev)
    {phase ticks : Nat} {init : List α} {z : α} (hpass : passed key rev xs phase ticks = init ++ [z]) :
    ∃ since, (key z + since) % rev = (phase + ticks) % rev ∧ passed key rev xs (key z) since = [z] := by
  induction ticks generalizing init with
  | zero => rw [passed_zero] at hpass; simp at hpass
  | succ n ih =>
    have hone : (passed key rev xs ((phase + n) % rev) 1).length ≤ 1 :=
      passed_length_le_one hg h (Nat.mod_lt _ hrev) hg hrev
    rw [passed_add] at hpass
    match hnow : passed key rev xs ((phase + n) % rev) 1 with
    | [] =>
      rw [hnow, List.append_nil] at hpass
      obtain ⟨since, hphase, hlast⟩ := ih hpass
      have hnext : (key z + (since + 1)) % rev = (phase + (n + 1)) % rev := by
        rw [← Nat.add_assoc, ← Nat.add_assoc, Nat.add_mod, hphase, ← Nat.add_mod]
      exact ⟨since + 1, hnext, by rw [passed_add, hlast, hphase, hnow, List.append_nil]⟩
    | [x] =>
      rw [hnow] at hpass
      obtain ⟨_, hx⟩ := List.append_inj' hpass rfl
      obtain rfl : x = z := by simpa using hx
      have hmem : x ∈ passed key rev xs ((phase + n) % rev) 1 := by rw [hnow]; simp
      obtain ⟨_, i, hi, hkey⟩ := mem_passed.mp hmem
      obtain rfl : i = 0 := by omega
      rw [Nat.add_zero, Nat.mod_mod] at hkey
      exact ⟨1, by rw [hkey, Nat.mod_add_mod, Nat.add_assoc], by rw [hkey]; exact hnow⟩
    | x :: y :: rest => rw [hnow] at hone; simp at hone

end Circle
