import FK1.Ppi8255

/-!
# FK1.InterruptController3214

The 3214 of `interrupt_controller3214.cpp`: eight inputs, a mask that enables the highest ones, and
the vector of the highest enabled active input.
-/

namespace FK1

structure InterruptController3214 where
  inputs : Fin 8 → Bool := fun _ => false
  mask : Nat := 0

namespace InterruptController3214

def reset (_ : InterruptController3214) : InterruptController3214 := {}

def setMask (c : InterruptController3214) (enabledInputs : Byte) : InterruptController3214 :=
  { c with mask := min enabledInputs.toNat 8 }

def setInput (c : InterruptController3214) (input : Fin 8) (active : Bool) :
    InterruptController3214 :=
  { c with inputs := fun i => if i = input then active else c.inputs i }

@[simp] theorem setInput_mask (c : InterruptController3214) (input : Fin 8) (active : Bool) :
    (c.setInput input active).mask = c.mask := rfl

theorem setInput_inputs (c : InterruptController3214) (input : Fin 8) (active : Bool) (i : Fin 8) :
    (c.setInput input active).inputs i = if i = input then active else c.inputs i := rfl

/-- Two controllers with the same inputs and mask. -/
theorem ext_inputs {c d : InterruptController3214} (hi : ∀ i, c.inputs i = d.inputs i)
    (hm : c.mask = d.mask) : c = d := by
  cases c; cases d
  simp only at hi hm
  rw [hm, funext hi]

/-- The inputs from I7 down to `8 - mask`, in the order `active_input` scans them. -/
def enabledInputs (c : InterruptController3214) : List (Fin 8) :=
  ([7, 6, 5, 4, 3, 2, 1, 0] : List (Fin 8)).filter fun i => 8 - c.mask ≤ i.val

/-- The highest enabled active input; `none` is the source's `input_count`. -/
def activeInput (c : InterruptController3214) : Option (Fin 8) := c.enabledInputs.find? c.inputs

def pending (c : InterruptController3214) : Bool := c.activeInput.isSome

def noVector : Byte := 0xFF#8

def vector (c : InterruptController3214) : Byte :=
  match c.activeInput with
  | none => noVector
  | some i => BitVec.ofNat 8 ((7 - i.val) * 2)

/-! ## The highest request -/

/-- Input `i` is above the mask and active. -/
def Requests (c : InterruptController3214) (i : Fin 8) : Prop :=
  8 - c.mask ≤ i.val ∧ c.inputs i = true

theorem mem_enabledInputs (c : InterruptController3214) (i : Fin 8) :
    i ∈ c.enabledInputs ↔ 8 - c.mask ≤ i.val := by
  have hall : i ∈ ([7, 6, 5, 4, 3, 2, 1, 0] : List (Fin 8)) := by revert i; decide
  simp [enabledInputs, hall]

theorem enabledInputs_sorted (c : InterruptController3214) :
    c.enabledInputs.Pairwise fun i j => j < i :=
  List.Pairwise.filter _ (by decide)

theorem pending_iff (c : InterruptController3214) : c.pending = true ↔ ∃ i, c.Requests i := by
  rw [pending, activeInput, List.find?_isSome]
  simp only [mem_enabledInputs, Requests]

/-- The scan from I7 down stops at the highest request. -/
theorem activeInput_eq_some {c : InterruptController3214} {i : Fin 8} (h : c.activeInput = some i) :
    c.Requests i ∧ ∀ j, c.Requests j → j ≤ i := by
  obtain ⟨hi, before, after, hsplit, hbefore⟩ := List.find?_eq_some_iff_append.mp h
  have hmem : i ∈ c.enabledInputs := by rw [hsplit]; simp
  refine ⟨⟨(mem_enabledInputs c i).mp hmem, hi⟩, fun j hj => ?_⟩
  have hj' : j ∈ before ++ i :: after := hsplit ▸ (mem_enabledInputs c j).mpr hj.1
  rcases List.mem_append.mp hj' with hj' | hj'
  · have := hbefore j hj'
    rw [hj.2] at this; cases this
  · rcases List.mem_cons.mp hj' with rfl | hafter
    · exact Nat.le_refl _
    · have hs := c.enabledInputs_sorted
      rw [hsplit] at hs
      have := (List.pairwise_cons.mp (List.pairwise_append.mp hs).2.1).1 j hafter
      exact Nat.le_of_lt this

/-- A pending interrupt has the vector of its highest request. -/
theorem vector_of_pending {c : InterruptController3214} (h : c.pending = true) :
    ∃ i, c.Requests i ∧ (∀ j, c.Requests j → j ≤ i) ∧ c.vector.toNat = 2 * (7 - i.val) ∧
      c.vector ≠ noVector := by
  obtain ⟨i, hi⟩ := Option.isSome_iff_exists.mp h
  obtain ⟨hreq, hmax⟩ := activeInput_eq_some hi
  have hv : c.vector = BitVec.ofNat 8 ((7 - i.val) * 2) := by rw [vector, hi]
  refine ⟨i, hreq, hmax, ?_, ?_⟩
  · rw [hv, BitVec.toNat_ofNat]; omega
  · rw [hv]; clear hv hmax hreq hi; revert i; decide

end InterruptController3214
end FK1
