/-!
# FK1.Lib.Run

Runs of a deterministic system: a step function folded over a list of actions, the induction rule
for invariants, what a run's history says of its flags and registers, the events a run adds to a trace,
and steps whose accesses are checked.
-/

namespace Run

variable {S A V E : Type _}

def run (step : S → A → S) (s : S) (actions : List A) : S := actions.foldl step s

def Reachable (step : S → A → S) (init : S) (s : S) : Prop := ∃ actions, run step init actions = s

variable {step : S → A → S} {init s : S}

@[simp] theorem run_nil : run step s [] = s := rfl

@[simp] theorem run_cons (a : A) (as : List A) : run step s (a :: as) = run step (step s a) as := rfl

theorem run_append (as bs : List A) : run step s (as ++ bs) = run step (run step s as) bs :=
  List.foldl_append

theorem Reachable.refl : Reachable step s s := ⟨[], rfl⟩

theorem Reachable.next (h : Reachable step init s) (a : A) : Reachable step init (step s a) := by
  obtain ⟨as, rfl⟩ := h
  exact ⟨as ++ [a], by rw [run_append]; rfl⟩

theorem Reachable.runs (h : Reachable step init s) (as : List A) :
    Reachable step init (run step s as) := by
  obtain ⟨bs, rfl⟩ := h
  exact ⟨bs ++ as, run_append bs as⟩

/-- What every step preserves, every run preserves. -/
theorem run_invariant {I : S → Prop} (hstep : ∀ s a, I s → I (step s a)) (hs : I s)
    (actions : List A) : I (run step s actions) := by
  induction actions generalizing s with
  | nil => exact hs
  | cons a as ih => exact ih (hstep s a hs)

theorem Reachable.invariant {I : S → Prop} (h : Reachable step init s) (h0 : I init)
    (hstep : ∀ s a, I s → I (step s a)) : I s := by
  obtain ⟨as, rfl⟩ := h
  exact run_invariant hstep h0 as

/-! ## Histories -/

variable {P Q : A → Prop}

/-- Some action was `P`, and no `Q` came after it. -/
def Since (P Q : A → Prop) (actions : List A) : Prop :=
  ∃ before a after, actions = before ++ a :: after ∧ P a ∧ ∀ b ∈ after, ¬Q b

theorem not_since_nil : ¬Since P Q [] := by
  rintro ⟨before, a, after, h, -⟩
  cases before <;> cases h

theorem since_cons (a : A) (as : List A) :
    Since P Q (a :: as) ↔ Since P Q as ∨ (P a ∧ ∀ b ∈ as, ¬Q b) := by
  constructor
  · rintro ⟨before, b, after, h, hP, hQ⟩
    cases before with
    | nil =>
      cases h
      exact .inr ⟨hP, hQ⟩
    | cons c before =>
      cases h
      exact .inl ⟨before, b, after, rfl, hP, hQ⟩
  · rintro (⟨before, b, after, rfl, hP, hQ⟩ | ⟨hP, hQ⟩)
    · exact ⟨a :: before, b, after, rfl, hP, hQ⟩
    · exact ⟨[], a, as, rfl, hP, hQ⟩

/-- What every allowed step preserves, a run of allowed steps preserves. -/
theorem run_allowed {I : S → Prop} {allowed : A → Prop}
    (hkeep : ∀ s a, I s → allowed a → I (step s a)) (hs : I s) {actions : List A}
    (hallowed : ∀ a ∈ actions, allowed a) : I (run step s actions) := by
  induction actions generalizing s with
  | nil => exact hs
  | cons a as ih =>
    exact ih (hkeep s a hs (hallowed a (List.mem_cons_self ..))) fun b hb =>
      hallowed b (List.mem_cons_of_mem _ hb)

/-- A flag that `P` sets and `Q` clears is set after a run if and only if some `P` came last. -/
theorem flag_iff_since {I : S → Prop} (flag : S → Prop) {allowed : A → Prop}
    (hkeep : ∀ s a, I s → allowed a → I (step s a))
    (hflag : ∀ s a, I s → allowed a → (flag (step s a) ↔ P a ∨ (¬Q a ∧ flag s)))
    (hs : I s) (h0 : ¬flag s) {actions : List A} (hallowed : ∀ a ∈ actions, allowed a) :
    flag (run step s actions) ↔ Since P Q actions := by
  have hgen : ∀ {s : S}, I s →
      (flag (run step s actions) ↔ Since P Q actions ∨ (flag s ∧ ∀ b ∈ actions, ¬Q b)) := by
    clear hs h0
    induction actions with
    | nil => intro s _; simp [not_since_nil]
    | cons a as ih =>
      intro s hs
      have ha := hallowed a (List.mem_cons_self ..)
      rw [run_cons, ih (fun b hb => hallowed b (List.mem_cons_of_mem _ hb)) (hkeep s a hs ha),
        hflag s a hs ha, since_cons, List.forall_mem_cons]
      grind
  rw [hgen hs]
  exact ⟨fun h => h.resolve_right fun hf => h0 hf.1, .inl⟩

/-- The value that the last action with one gave. -/
def last (value : A → Option V) (default : V) (actions : List A) : V :=
  ((actions.filterMap value).getLast?).getD default

theorem register_eq_last {I : S → Prop} (register : S → V) {value : A → Option V}
    {allowed : A → Prop} (hkeep : ∀ s a, I s → allowed a → I (step s a))
    (hregister : ∀ s a, I s → allowed a → register (step s a) = (value a).getD (register s))
    (hs : I s) {actions : List A} (hallowed : ∀ a ∈ actions, allowed a) :
    register (run step s actions) = last value (register s) actions := by
  induction actions generalizing s with
  | nil => rfl
  | cons a as ih =>
    have ha := hallowed a (List.mem_cons_self ..)
    rw [run_cons, ih (hkeep s a hs ha) (fun b hb => hallowed b (List.mem_cons_of_mem _ hb)),
      hregister s a hs ha]
    unfold last
    rw [List.filterMap_cons]
    cases value a with
    | none => rfl
    | some v => simp [List.getLast?_cons]

/-! ## Traces -/

/-- The events of `s'` beyond those of `s`. -/
def added (trace : S → List E) (s s' : S) : List E := (trace s').drop (trace s).length

variable {trace : S → List E} {s₁ s₂ : S}

theorem added_of_eq {new : List E} (h : trace s₂ = trace s₁ ++ new) : added trace s₁ s₂ = new := by
  rw [added, h, List.drop_left]

/-! ## Checked steps -/

/-- `s`, if the access before it is in range. -/
def given (access : Prop) [Decidable access] (s : S) : Option S := if access then some s else none

/-- No check fails, the result is `s`, and `s` keeps `I`. -/
def Passes (I : S → Prop) (checked : Option S) (s : S) : Prop := checked = some s ∧ I s

theorem Passes.given {I : S → Prop} {access : Prop} [Decidable access] (haccess : access) (hs : I s) :
    Passes I (given access s) s := ⟨if_pos haccess, hs⟩

theorem Passes.bind {I J : S → Prop} {checked : Option S} {next : S → Option S} {s' : S}
    (h : Passes I checked s) (hnext : Passes J (next s) s') : Passes J (checked.bind next) s' :=
  ⟨by rw [h.1, Option.bind_some, hnext.1], hnext.2⟩

/-- If every checked step passes, a checked run passes. -/
theorem run_passes {I : S → Prop} {step? : S → A → Option S}
    (hstep : ∀ s a, I s → Passes I (step? s a) (step s a)) (hs : I s) (actions : List A) :
    Passes I (actions.foldlM step? s) (run step s actions) := by
  induction actions generalizing s with
  | nil => exact ⟨rfl, hs⟩
  | cons a as ih => exact (hstep s a hs).bind (ih (hstep s a hs).2)

end Run
