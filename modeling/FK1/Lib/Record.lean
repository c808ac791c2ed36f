import FK1.Lib.Run

/-!
# FK1.Lib.Record

Recorded runs: the actions of a run, each with the state it has found.

* `view_of_record`: a part of the state that every step moves by a function of itself and the step's
  entry is a fold over the record.
* `register_of_record`, `flag_of_record`, `queue_of_record`: its forms for a register, a flag and a
  queue.
* `lists_of_record`: a history that the allowed entries extend.
-/

namespace Run

variable {S A V : Type _} {step : S → A → S} {I : S → Prop} {s s' : S}

def record (step : S → A → S) : S → List A → List (S × A)
  | _, [] => []
  | s, a :: as => (s, a) :: record step (step s a) as

@[simp] theorem record_nil (s : S) : record step s [] = [] := rfl

@[simp] theorem record_cons (s : S) (a : A) (as : List A) :
    record step s (a :: as) = (s, a) :: record step (step s a) as := rfl

theorem record_append (as bs : List A) :
    record step s (as ++ bs) = record step s as ++ record step (run step s as) bs := by
  induction as generalizing s with
  | nil => rfl
  | cons a as ih => rw [List.cons_append, record_cons, ih, record_cons, List.cons_append, run_cons]

theorem view_of_record (view : S → V) (next : V → S × A → V)
    (hkeep : ∀ s a, I s → I (step s a))
    (hview : ∀ s a, I s → view (step s a) = next (view s) (s, a)) (hs : I s) (as : List A) :
    view (run step s as) = (record step s as).foldl next (view s) := by
  induction as generalizing s with
  | nil => rfl
  | cons a as ih => rw [run_cons, ih (hkeep s a hs), hview s a hs, record_cons, List.foldl_cons]

theorem last_cons {B : Type _} (value : B → Option V) (default : V) (b : B) (bs : List B) :
    last value default (b :: bs) = last value ((value b).getD default) bs := by
  unfold last
  rw [List.filterMap_cons]
  cases value b with
  | none => rfl
  | some v => simp [List.getLast?_cons]

theorem last_map {B W : Type _} (value : B → Option V) (f : V → W) (default : V) (bs : List B) :
    last (fun b => (value b).map f) (f default) bs = f (last value default bs) := by
  induction bs generalizing default with
  | nil => rfl
  | cons b bs ih =>
    rw [last_cons, last_cons, ← ih]
    cases value b <;> rfl

/-- A register holds the last value the record gives it. -/
theorem register_of_record (register : S → V) (value : S × A → Option V)
    (hkeep : ∀ s a, I s → I (step s a))
    (hregister : ∀ s a, I s → register (step s a) = (value (s, a)).getD (register s)) (hs : I s)
    (as : List A) : register (run step s as) = last value (register s) (record step s as) := by
  rw [view_of_record register (fun v entry => (value entry).getD v) hkeep hregister hs]
  generalize record step s as = entries
  generalize register s = v
  induction entries generalizing v with
  | nil => rfl
  | cons entry entries ih => rw [List.foldl_cons, ih, last_cons]

variable {P Q : S × A → Prop}

/-- A flag that entries `P` set and entries `Q` clear. -/
theorem flag_of_record (flag : S → Prop) (hkeep : ∀ s a, I s → I (step s a))
    (hflag : ∀ s a, I s → (flag (step s a) ↔ P (s, a) ∨ (¬Q (s, a) ∧ flag s))) (hs : I s)
    (as : List A) :
    flag (run step s as) ↔
      Since P Q (record step s as) ∨ (flag s ∧ ∀ entry ∈ record step s as, ¬Q entry) := by
  induction as generalizing s with
  | nil => simp [not_since_nil]
  | cons a as ih =>
    rw [run_cons, ih (hkeep s a hs), hflag s a hs, record_cons, since_cons, List.forall_mem_cons]
    constructor
    · rintro (h | ⟨h | ⟨hQ, hf⟩, hall⟩)
      · exact .inl (.inl h)
      · exact .inl (.inr ⟨h, hall⟩)
      · exact .inr ⟨hf, hQ, hall⟩
    · rintro ((h | ⟨h, hall⟩) | ⟨hf, hQ, hall⟩)
      · exact .inl h
      · exact .inr ⟨.inl h, hall⟩
      · exact .inr ⟨.inr ⟨hQ, hf⟩, hall⟩

/-- The flag is clear at first. -/
theorem clear_flag_of_record (flag : S → Prop) (hkeep : ∀ s a, I s → I (step s a))
    (hflag : ∀ s a, I s → (flag (step s a) ↔ P (s, a) ∨ (¬Q (s, a) ∧ flag s))) (hs : I s)
    (hclear : ¬flag s) (as : List A) : flag (run step s as) ↔ Since P Q (record step s as) := by
  rw [flag_of_record flag hkeep hflag hs as]
  exact ⟨fun h => h.resolve_right fun hset => hclear hset.1, .inl⟩

/-- What has been queued leaves in order, and the rest still waits. -/
theorem queue_of_record (queue : S → List V) {accepted taken : S × A → List V}
    {allowed : S × A → Prop} (hkeep : ∀ s a, I s → I (step s a))
    (hqueue : ∀ s a, I s → allowed (s, a) →
      queue s ++ accepted (s, a) = taken (s, a) ++ queue (step s a)) (hs : I s) (as : List A)
    (hallowed : ∀ entry ∈ record step s as, allowed entry) :
    queue s ++ (record step s as).flatMap accepted =
      (record step s as).flatMap taken ++ queue (run step s as) := by
  induction as generalizing s with
  | nil => simp
  | cons a as ih =>
    rw [record_cons] at hallowed ⊢
    obtain ⟨hfirst, hrest⟩ := List.forall_mem_cons.mp hallowed
    rw [List.flatMap_cons, List.flatMap_cons, ← List.append_assoc, hqueue s a hs hfirst,
      List.append_assoc, ih (hkeep s a hs) hrest, run_cons, List.append_assoc]

/-- A history that every allowed entry extends by what it adds to two lists. -/
theorem lists_of_record {W : Type _} {R : S → List V → List W → Prop} {first : S × A → List V}
    {second : S × A → List W} {allowed : S × A → Prop}
    (hstep : ∀ s vs ws a, R s vs ws → allowed (s, a) →
      R (step s a) (vs ++ first (s, a)) (ws ++ second (s, a)))
    {vs : List V} {ws : List W} (h : R s vs ws) {as : List A}
    (hallowed : ∀ entry ∈ record step s as, allowed entry) :
    R (run step s as) (vs ++ (record step s as).flatMap first)
      (ws ++ (record step s as).flatMap second) := by
  induction as generalizing s vs ws with
  | nil => simpa using h
  | cons a as ih =>
    rw [record_cons] at hallowed ⊢
    obtain ⟨hfirst, hrest⟩ := List.forall_mem_cons.mp hallowed
    have hrun := ih (hstep s vs ws a h hfirst) hrest
    rw [List.append_assoc, List.append_assoc] at hrun
    exact hrun

end Run
