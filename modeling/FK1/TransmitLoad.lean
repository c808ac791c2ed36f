import FK1.UartTransmit

/-!
# FK1.TransmitLoad

How fast the queue of completed bytes can grow. A payload frame takes at least five TxC edges, so
`load`, five for each completed byte and the bits of the frame under way up to five, grows by at most
one with an edge and not at all with any other operation. Without CTS the bytes completed and the
frame under way do not grow together.
-/

namespace FK1
namespace Uart8251

/-- The bits of the payload frame that have been sent, up to five. -/
def frameLoad (u : Uart8251) : Nat :=
  if u.transmitActive && u.transmitPayload then min u.transmitFrameIndex 5 else 0

def load (u : Uart8251) : Nat := 5 * u.transmittedBytes.length + u.frameLoad

/-- The bytes completed and the one in the shift register. -/
def pendingFrames (u : Uart8251) : Nat := u.transmittedBytes.length + u.shiftPayload.length

/-- No frame is shorter than the five data bits. -/
def LongFrame (u : Uart8251) : Prop := u.transmitActive = true → 5 ≤ u.transmitFrame.length

variable {u u' u'' : Uart8251}

theorem frameLoad_le (u : Uart8251) : u.frameLoad ≤ 5 := by
  unfold frameLoad
  split <;> omega

theorem pendingFrames_le (u : Uart8251) : u.pendingFrames ≤ u.transmittedBytes.length + 1 := by
  unfold pendingFrames shiftPayload
  split <;> simp

/-! ## Operations other than an edge -/

/-- From `u` to `u'` no byte has completed and no frame has begun. -/
structure Eases (u u' : Uart8251) : Prop where
  bytes : u'.transmittedBytes.length ≤ u.transmittedBytes.length
  shift : u'.transmitActive = true → u.transmitActive = true ∧ u'.transmitFrame = u.transmitFrame
    ∧ u'.transmitFrameIndex = u.transmitFrameIndex ∧ u'.transmitPayload = u.transmitPayload

theorem Eases.refl (u : Uart8251) : Eases u u := ⟨Nat.le_refl _, fun h => ⟨h, rfl, rfl, rfl⟩⟩

theorem Eases.trans (h : Eases u u') (h' : Eases u' u'') : Eases u u'' := by
  refine ⟨Nat.le_trans h'.bytes h.bytes, fun hactive => ?_⟩
  obtain ⟨hactive', hframe', hindex', hpayload'⟩ := h'.shift hactive
  obtain ⟨hactive, hframe, hindex, hpayload⟩ := h.shift hactive'
  exact ⟨hactive, hframe'.trans hframe, hindex'.trans hindex, hpayload'.trans hpayload⟩

/-- A shift register that has stopped. -/
theorem Eases.stopped (hactive : u'.transmitActive = false)
    (hbytes : u'.transmittedBytes.length ≤ u.transmittedBytes.length) : Eases u u' :=
  ⟨hbytes, fun h => Bool.noConfusion (hactive.symm.trans h)⟩

theorem Eases.longFrame (h : Eases u u') (hlong : u.LongFrame) : u'.LongFrame := by
  intro hactive
  obtain ⟨hactive', hframe, _⟩ := h.shift hactive
  rw [hframe]
  exact hlong hactive'

theorem Eases.load (h : Eases u u') : u'.load ≤ u.load := by
  have hframe : u'.frameLoad ≤ u.frameLoad := by
    unfold frameLoad
    cases hactive : u'.transmitActive with
    | false => simp
    | true =>
      obtain ⟨hactive', _, hindex, hpayload⟩ := h.shift hactive
      simp [hactive', hindex, hpayload]
  have hbytes := h.bytes
  unfold Uart8251.load
  omega

theorem Eases.pendingFrames (h : Eases u u') : u'.pendingFrames ≤ u.pendingFrames := by
  have hshift : u'.shiftPayload.length ≤ u.shiftPayload.length := by
    unfold shiftPayload
    cases hactive : u'.transmitActive with
    | false => simp
    | true =>
      obtain ⟨hactive', _, _, hpayload⟩ := h.shift hactive
      rw [hactive', hpayload]
      split <;> simp
  have hbytes := h.bytes
  unfold Uart8251.pendingFrames
  omega

theorem write_eases (registerIndex value : Byte) : Eases u (u.write registerIndex value) := by
  cases hresets : (Op.write registerIndex value).resets u with
  | true =>
    obtain ⟨high, hu⟩ := write_resets hresets
    rw [hu]
    exact .stopped rfl (Nat.zero_le _)
  | false =>
    have hstep := write_step hresets
    generalize u.write registerIndex value = u' at hstep ⊢
    cases hstep with
    | mode => exact .stopped rfl (Nat.le_refl _)
    | data | sync => exact ⟨Nat.le_refl _, fun h => ⟨h, rfl, rfl, rfl⟩⟩
    | command hreset =>
      obtain ⟨r, high, hr⟩ := acceptCommand_step hreset
      rw [hr]
      exact ⟨Nat.le_refl _, fun h => ⟨h, rfl, rfl, rfl⟩⟩

theorem apply_eases (op : Op) (hop : op ≠ .transmitClockEdge) : Eases u (u.apply op) := by
  have hbeside : op.besideTransmitter = true → Eases u (u.apply op) := by
    intro hbeside
    obtain ⟨r, bytes, cts, dsr, hr, htaken⟩ := @beside_step u op hbeside
    rw [hr]
    refine ⟨?_, fun h => ⟨h, rfl, rfl, rfl⟩⟩
    rw [htaken, List.length_append]
    exact Nat.le_add_left _ _
  cases op with
  | reset => exact .stopped rfl (Nat.zero_le _)
  | write registerIndex value => exact write_eases registerIndex value
  | transmitClockEdge => exact absurd rfl hop
  | read | setCtsActive | setDsrActive | setRxd | setSyncDetect | receiveClockEdge
  | queueReceivedByte | clearQueuedReceiveBytes | takeTransmittedByte => exact hbeside rfl

theorem run_eases (ops : List Op) (hops : .transmitClockEdge ∉ ops) :
    Eases u (Run.run apply u ops) := by
  induction ops generalizing u with
  | nil => exact .refl u
  | cons op ops ih =>
    rw [List.mem_cons, not_or] at hops
    exact (apply_eases op (Ne.symm hops.1)).trans (ih hops.2)

/-! ## An edge -/

/-- What an edge does at most: the load grows by one, and without CTS nothing new begins. -/
structure EdgeBound (u u' : Uart8251) : Prop where
  frame : u'.LongFrame
  load : u'.load ≤ u.load + 1
  pending : u.ctsActive = false → u'.pendingFrames ≤ u.pendingFrames

/-- A frame that has completed gives up its five bits for one byte. -/
theorem finishTransmitFrame_bound (hlong : u.LongFrame) :
    u.finishTransmitFrame.LongFrame ∧ u.finishTransmitFrame.load ≤ u.load
      ∧ u.finishTransmitFrame.pendingFrames ≤ u.pendingFrames := by
  rw [finishTransmitFrame_eq]
  by_cases hend : (u.transmitActive && decide (u.transmitFrame.length ≤ u.transmitFrameIndex)) = true
  · rw [if_pos hend]
    rw [Bool.and_eq_true, decide_eq_true_eq] at hend
    obtain ⟨hactive, hindex⟩ := hend
    have hfive : 5 ≤ u.transmitFrameIndex := Nat.le_trans (hlong hactive) hindex
    refine ⟨fun h => Bool.noConfusion h, ?_, ?_⟩
    · cases hpayload : u.transmitPayload with
      | false => simp [load, frameLoad, hpayload]
      | true =>
        simp only [load, frameLoad, hactive, hpayload, Bool.true_and, Bool.false_and, if_true,
          Bool.false_eq_true, if_false, List.length_append]
        rw [Nat.min_eq_right hfive]
        split
        · rw [List.length_singleton]
          omega
        · rw [List.length_nil]
          omega
    · cases hpayload : u.transmitPayload with
      | false => simp [pendingFrames, shiftPayload, hpayload]
      | true =>
        simp only [pendingFrames, shiftPayload, hactive, hpayload, Bool.true_and, Bool.false_and,
          if_true, List.length_append]
        split <;> simp
  · rw [if_neg hend]
    exact ⟨hlong, Nat.le_refl _, Nat.le_refl _⟩

theorem shiftOrLoad_bound (hlong : u.LongFrame) : EdgeBound u u.shiftOrLoad := by
  unfold shiftOrLoad
  by_cases hactive : u.transmitActive = true
  · rw [if_pos hactive]
    refine ⟨fun _ => hlong hactive, ?_, fun _ => Nat.le_refl _⟩
    have hshift : u.shiftTransmitBit.load = 5 * u.transmittedBytes.length
        + if u.transmitActive && u.transmitPayload then min (u.transmitFrameIndex + 1) 5 else 0 := rfl
    rw [hshift, load, frameLoad]
    by_cases hpayload : (u.transmitActive && u.transmitPayload) = true
    · rw [if_pos hpayload, if_pos hpayload]
      omega
    · rw [if_neg hpayload, if_neg hpayload]
      omega
  · rw [if_neg hactive]
    have hinactive : u.transmitActive = false := by simpa using hactive
    by_cases hidle : (!u.transmitterEnabled || !u.ctsActive) = true
    · rw [if_pos hidle]
      exact ⟨hlong, Nat.le_succ _, fun _ => Nat.le_refl _⟩
    · rw [if_neg hidle]
      have hcts : u.ctsActive ≠ false := by
        intro hcts
        simp [hcts] at hidle
      split
      · refine ⟨fun _ => (frameBits_bounds _ _).1, ?_, fun h => absurd h hcts⟩
        simp [load, frameLoad, shiftTransmitBit, buildTransmitFrame, hinactive]
      · split
        · refine ⟨fun _ => (frameBits_bounds _ _).1, ?_, fun h => absurd h hcts⟩
          simp [load, frameLoad, shiftTransmitBit, buildTransmitFrame, hinactive]
        · exact ⟨hlong, Nat.le_succ _, fun _ => Nat.le_refl _⟩

theorem transmitClockEdge_bound (hlong : u.LongFrame) : EdgeBound u u.transmitClockEdge := by
  rcases transmitClockEdge_cases u with ⟨_, high, count, hedge⟩ | ⟨_, hedge⟩
  · rw [hedge]
    exact ⟨hlong, Nat.le_succ _, fun _ => Nat.le_refl _⟩
  · rw [hedge]
    obtain ⟨hframe, hload, hpending⟩ := @finishTransmitFrame_bound { u with transmitClockCount := 0 } hlong
    have hshift := shiftOrLoad_bound hframe
    have hcts : (finishTransmitFrame { u with transmitClockCount := 0 }).ctsActive = u.ctsActive := by
      rw [finishTransmitFrame_eq]
      split <;> rfl
    exact ⟨hshift.frame, Nat.le_trans hshift.load (Nat.succ_le_succ hload),
      fun h => Nat.le_trans (hshift.pending (hcts.trans h)) hpending⟩

/-- Along any operations the load grows by at most the number of edges. -/
theorem run_load (ops : List Op) (hlong : u.LongFrame) :
    (Run.run apply u ops).LongFrame
      ∧ (Run.run apply u ops).load ≤ u.load + ops.count .transmitClockEdge := by
  induction ops generalizing u with
  | nil => exact ⟨hlong, Nat.le_refl _⟩
  | cons op ops ih =>
    rw [Run.run_cons]
    by_cases hop : op = .transmitClockEdge
    · subst hop
      have hedge := transmitClockEdge_bound hlong
      obtain ⟨hframe, hload⟩ := ih hedge.frame
      rw [List.count_cons_self]
      refine ⟨hframe, Nat.le_trans hload ?_⟩
      have hone := hedge.load
      omega
    · have heases := @apply_eases u op hop
      obtain ⟨hframe, hload⟩ := ih (heases.longFrame hlong)
      rw [List.count_cons_of_ne hop]
      exact ⟨hframe, Nat.le_trans hload (Nat.add_le_add_right heases.load _)⟩

/-! ## CTS -/

/-- Operations that leave CTS alone. -/
def Op.keepsCts : Op → Bool
  | .reset | .setCtsActive _ => false
  | _ => true

theorem write_cts (registerIndex value : Byte) :
    (u.write registerIndex value).ctsActive = u.ctsActive := by
  cases hresets : (Op.write registerIndex value).resets u with
  | true =>
    obtain ⟨high, hu⟩ := write_resets hresets
    rw [hu]
  | false =>
    have hstep := write_step hresets
    generalize u.write registerIndex value = u' at hstep ⊢
    cases hstep with
    | data | mode | sync => rfl
    | command hreset =>
      obtain ⟨r, high, hr⟩ := acceptCommand_step hreset
      rw [hr]
      rfl

theorem apply_cts (op : Op) (hop : op.keepsCts = true) : (u.apply op).ctsActive = u.ctsActive := by
  have hreceive : ∀ {v : Uart8251}, ReceiveStep u v → v.ctsActive = u.ctsActive := by
    intro v hv
    have hcts : (u.withReceive v.receiveState).ctsActive = u.ctsActive := rfl
    exact (congrArg ctsActive hv).trans hcts
  cases op with
  | reset => exact Bool.noConfusion hop
  | setCtsActive active => exact Bool.noConfusion hop
  | read registerIndex => exact hreceive (read_step u registerIndex)
  | write registerIndex value => exact write_cts registerIndex value
  | setDsrActive active => rfl
  | setRxd high => rfl
  | setSyncDetect active => exact hreceive (setSyncDetect_step u active)
  | transmitClockEdge => exact transmitClockEdge_cts u
  | receiveClockEdge => exact hreceive (receiveLineEdge_step u)
  | queueReceivedByte value => exact hreceive (queueReceivedByte_step u value)
  | clearQueuedReceiveBytes => rfl
  | takeTransmittedByte => exact congrArg (fun result => result.2.ctsActive) (takeTransmittedByte_eq u)

/-- Without CTS the bytes completed and the frame under way do not grow. -/
theorem run_blocked (ops : List Op) (hlong : u.LongFrame) (hcts : u.ctsActive = false)
    (hops : ∀ op ∈ ops, op.keepsCts = true) :
    (Run.run apply u ops).pendingFrames ≤ u.pendingFrames := by
  induction ops generalizing u with
  | nil => exact Nat.le_refl _
  | cons op ops ih =>
    rw [Run.run_cons]
    have hcts' := (apply_cts op (hops op List.mem_cons_self)).trans hcts
    have hrest : ∀ op' ∈ ops, op'.keepsCts = true :=
      fun op' hop' => hops op' (List.mem_cons_of_mem op hop')
    by_cases hop : op = .transmitClockEdge
    · subst hop
      have hedge := transmitClockEdge_bound hlong
      exact Nat.le_trans (ih hedge.frame hcts' hrest) (hedge.pending hcts)
    · have heases := @apply_eases u op hop
      exact Nat.le_trans (ih (heases.longFrame hlong) hcts' hrest) heases.pendingFrames

end Uart8251
end FK1
