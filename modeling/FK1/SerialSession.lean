import FK1.SerialPort
import FK1.UartTransmit

/-!
# FK1.SerialSession

Serial sessions, from one disconnect to the next. A ghost numbers them and follows every host byte
and every transmitted frame with the number of the session it began in.
-/

namespace FK1

namespace Uart8251

/-- The next receive edge begins a character: no bit sampled so far is kept. -/
def receiverAtRest (u : Uart8251) : Bool :=
  if u.synchronous then
    u.receivePhase != .syncParity && (u.receivePhase != .syncData || u.receiveBitIndex == 0)
  else u.receivePhase == .idle

/-- A TxC edge moves the buffered character into the shift register. -/
def startsPayload (u : Uart8251) : Bool :=
  u.transmitBuffer.isSome && u.transmitClockEdge.transmitBuffer.isNone

/-- A receive edge moves the first queued byte onto the line. -/
def startsLine (u : Uart8251) : Bool := !u.queuedReceiveActive && !u.queuedReceiveBytes.isEmpty

variable {u : Uart8251}

theorem driveQueuedLine_line (u : Uart8251) :
    u.driveQueuedLine.queuedReceiveBytes
        = (if u.startsLine then u.queuedReceiveBytes.tail else u.queuedReceiveBytes)
      ∧ u.driveQueuedLine.queuedReceiveActive = (u.startsLine || u.queuedReceiveActive) := by
  unfold driveQueuedLine startsLine
  cases hactive : u.queuedReceiveActive with
  | true =>
    simp [hactive]
  | false =>
    cases hqueue : u.queuedReceiveBytes with
    | nil => simp [hactive, hqueue]
    | cons value rest => simp [startQueuedReceiveFrame, hqueue]

theorem receiveLineEdge_line (u : Uart8251) :
    u.receiveLineEdge.queuedReceiveBytes
        = (if u.startsLine then u.queuedReceiveBytes.tail else u.queuedReceiveBytes)
      ∧ (u.receiveLineEdge.queuedReceiveActive = true →
          (u.startsLine || u.queuedReceiveActive) = true) := by
  obtain ⟨hqueue, hactive⟩ := driveQueuedLine_line u
  obtain ⟨r, hr⟩ : ∃ r, u.driveQueuedLine.receiveClockEdge = u.driveQueuedLine.withSampler r :=
    ⟨_, receiveClockEdge_step _⟩
  rw [receiveLineEdge_eq, hr, ← hqueue, ← hactive]
  have hadvance : ∀ v : Uart8251,
      v.advanceQueuedReceiveLine.queuedReceiveBytes = v.queuedReceiveBytes
      ∧ (v.advanceQueuedReceiveLine.queuedReceiveActive = true → v.queuedReceiveActive = true) := by
    intro v
    unfold advanceQueuedReceiveLine
    split
    · exact ⟨rfl, id⟩
    · split
      · exact ⟨rfl, id⟩
      · split
        · exact ⟨rfl, fun h => Bool.noConfusion h⟩
        · exact ⟨rfl, id⟩
  exact hadvance _

/-- From `u` to `u'` the host's line has not moved, and no character has begun. -/
structure LineKept (u u' : Uart8251) : Prop where
  queue : u'.queuedReceiveBytes = u.queuedReceiveBytes
  active : u'.queuedReceiveActive = u.queuedReceiveActive
  rest : u'.receiverAtRest = false → u.receiverAtRest = false

theorem LineKept.trans {u' u'' : Uart8251} (h : LineKept u u') (h' : LineKept u' u'') :
    LineKept u u'' :=
  ⟨h'.queue.trans h.queue, h'.active.trans h.active, h.rest ∘ h'.rest⟩

theorem receiverAtRest_idle (hphase : u.receivePhase = .idle) : u.receiverAtRest = true := by
  simp [receiverAtRest, hphase]

theorem LineKept.idle {u' : Uart8251} (hqueue : u'.queuedReceiveBytes = u.queuedReceiveBytes)
    (hactive : u'.queuedReceiveActive = u.queuedReceiveActive) (hphase : u'.receivePhase = .idle) :
    LineKept u u' := by
  refine ⟨hqueue, hactive, fun h => ?_⟩
  rw [receiverAtRest_idle hphase] at h
  exact Bool.noConfusion h

/-- A command without the reset bit. -/
theorem acceptCommand_line {value : Byte} (hreset : hasBits value 0x40#8 = false) :
    LineKept u (u.acceptCommand value) := by
  unfold acceptCommand
  rw [if_neg (by simp [hreset])]
  extract_lets commanded cleared hunting driven
  have hcommanded : LineKept u commanded := ⟨rfl, rfl, id⟩
  have hcleared : LineKept commanded cleared := by
    simp only [cleared]
    split <;> exact ⟨rfl, rfl, id⟩
  have hhunting : LineKept cleared hunting := by
    simp only [hunting]
    split
    next hhunt =>
      have hsync : cleared.synchronous = true := by
        simp only [Bool.and_eq_true] at hhunt
        exact hhunt.1
      refine ⟨rfl, rfl, fun h => ?_⟩
      have hrest : receiverAtRest { cleared with
          syncHunt := true, syncDetected := false, syncHuntIndex := 0
          receivePhase := .syncData, receiveBitIndex := 0, receiveShift := 0#8 } = true := by
        unfold receiverAtRest
        rw [if_pos (by exact hsync)]
        rfl
      rw [hrest] at h
      exact Bool.noConfusion h
    next => exact ⟨rfl, rfl, id⟩
  have hdriven : LineKept hunting driven := by
    simp only [driven]
    split <;> exact ⟨rfl, rfl, id⟩
  refine ((hcommanded.trans hcleared).trans (hhunting.trans hdriven)).trans ?_
  split
  · exact .idle rfl rfl rfl
  · exact ⟨rfl, rfl, id⟩

/-- A register write other than the internal reset. -/
theorem write_line {registerIndex value : Byte}
    (hkeep : (Op.write registerIndex value).resets u = false) :
    LineKept u (u.write registerIndex value) := by
  have hstep := write_step hkeep
  generalize u.write registerIndex value = u' at hstep ⊢
  cases hstep with
  | mode => exact .idle rfl rfl rfl
  | data | sync => exact ⟨rfl, rfl, id⟩
  | command hreset => exact acceptCommand_line hreset

end Uart8251

/-- An 8251 whose bytes carry the number of their session. -/
structure Tagged where
  uart : Uart8251
  /-- The disconnects so far. -/
  session : Nat := 0
  /-- Of each byte of `queuedReceiveBytes`. -/
  queued : List Nat := []
  /-- Of the byte on the line. -/
  line : Nat := 0
  /-- Of the bytes on the line since the receiver was last at rest. -/
  seen : List Nat := []
  /-- Of the payload frame in the shift register. -/
  frame : Nat := 0
  /-- Of each byte of `transmittedBytes`. -/
  completed : List Nat := []
  /-- For each character that reached RXRDY the session, and those of the bytes seen for it. -/
  arrived : List (Nat × List Nat) := []

namespace Tagged

open Uart8251

def cleared (t : Tagged) : Tagged := { t with queued := [], seen := [], completed := [] }

/-- The tags of the bytes an RxC edge has the receiver see for the current character. -/
def seenNext (t : Tagged) : List Nat :=
  (if t.uart.receiverAtRest then [] else t.seen)
    ++ if t.uart.driveQueuedLine.queuedReceiveActive then
        [if t.uart.startsLine then t.queued.headD 0 else t.line]
      else []

/-- The tags move with the bytes. -/
def step (t : Tagged) (op : Op) : Tagged :=
  let next := { t with uart := t.uart.apply op }
  match op with
  | .reset => next.cleared
  | .write registerIndex value =>
    if (Op.write registerIndex value).resets t.uart then next.cleared else next
  | .transmitClockEdge =>
    { next with
      completed := t.completed ++
        if t.uart.completesPayload
            && decide (t.uart.transmittedBytes.length < hostTransmitQueueCapacity) then [t.frame]
        else []
      frame := if t.uart.startsPayload then t.session else t.frame }
  | .receiveClockEdge =>
    { next with
      queued := if t.uart.startsLine then t.queued.tail else t.queued
      line := if t.uart.startsLine then t.queued.headD 0 else t.line
      seen := t.seenNext
      arrived := t.arrived ++
        if !t.uart.receiveReady && next.uart.receiveReady then [(t.session, t.seenNext)] else [] }
  | .queueReceivedByte value =>
    { next with
      queued := t.queued ++ if (t.uart.queueReceivedByte value).1 then [t.session] else [] }
  | .clearQueuedReceiveBytes => { next with queued := [] }
  | .takeTransmittedByte => { next with completed := t.completed.tail }
  | _ => next

@[simp] theorem step_uart (t : Tagged) (op : Op) : (t.step op).uart = t.uart.apply op := by
  cases op with
  | write registerIndex value => exact (apply_ite Tagged.uart _ _ _).trans (ite_self _)
  | _ => rfl

@[simp] theorem step_session (t : Tagged) (op : Op) : (t.step op).session = t.session := by
  cases op with
  | write registerIndex value => exact (apply_ite Tagged.session _ _ _).trans (ite_self _)
  | _ => rfl

variable {t : Tagged}

/-! ## The receive direction -/

/-- Every byte queued, on the line or seen for the current character is of the present session, and
every character arrived was of its own. -/
structure ReceiveIsolated (t : Tagged) : Prop where
  queued : ∀ s ∈ t.queued, s = t.session
  length : t.queued.length = t.uart.queuedReceiveBytes.length
  line : t.uart.queuedReceiveActive = true → t.line = t.session
  seen : t.uart.receiverAtRest = false → ∀ s ∈ t.seen, s = t.session
  arrived : ∀ p ∈ t.arrived, ∀ s ∈ p.2, s = p.1

/-- What leaves the receiver alone. -/
theorem ReceiveIsolated.congr {t' : Tagged} (h : t.ReceiveIsolated)
    (hkept : LineKept t.uart t'.uart)
    (htags : t'.session = t.session ∧ t'.queued = t.queued ∧ t'.line = t.line ∧ t'.seen = t.seen
      ∧ t'.arrived = t.arrived) : t'.ReceiveIsolated := by
  obtain ⟨hsession, hqueued, hline, hseen, harrived⟩ := htags
  refine ⟨?_, ?_, ?_, ?_, ?_⟩
  · rw [hqueued, hsession]
    exact h.queued
  · rw [hqueued, hkept.queue]
    exact h.length
  · rw [hkept.active, hline, hsession]
    exact h.line
  · intro hbusy
    rw [hseen, hsession]
    exact h.seen (hkept.rest hbusy)
  · rw [harrived]
    exact h.arrived

/-- A receiver put to rest with nothing queued or on the line. -/
theorem ReceiveIsolated.cleared {t' : Tagged} (h : t.ReceiveIsolated)
    (hqueue : t'.uart.queuedReceiveBytes = []) (hactive : t'.uart.queuedReceiveActive = false)
    (hrest : t'.uart.receiverAtRest = true) (hqueued : t'.queued = [])
    (harrived : t'.arrived = t.arrived) : t'.ReceiveIsolated := by
  refine ⟨?_, by rw [hqueued, hqueue]; rfl, ?_, ?_, ?_⟩
  · rw [hqueued]
    intro s hs
    exact absurd hs List.not_mem_nil
  · rw [hactive]
    exact fun h => Bool.noConfusion h
  · rw [hrest]
    exact fun h => Bool.noConfusion h
  · rw [harrived]
    exact h.arrived

/-- The byte on the line during an edge. -/
theorem lineNext_session (h : t.ReceiveIsolated)
    (hcarried : (t.uart.startsLine || t.uart.queuedReceiveActive) = true) :
    (if t.uart.startsLine then t.queued.headD 0 else t.line) = t.session := by
  cases hstarts : t.uart.startsLine with
  | true =>
    cases hqueued : t.queued with
    | nil =>
      have hlength := h.length
      rw [hqueued] at hlength
      have hempty : t.uart.queuedReceiveBytes = [] := List.eq_nil_of_length_eq_zero hlength.symm
      simp [startsLine, hempty] at hstarts
    | cons tag rest =>
      rw [if_pos rfl]
      exact h.queued tag (by simp [hqueued])
  | false =>
    rw [hstarts, Bool.false_or] at hcarried
    rw [if_neg (by simp)]
    exact h.line hcarried

theorem seenNext_session (h : t.ReceiveIsolated) : ∀ s ∈ t.seenNext, s = t.session := by
  intro s hs
  unfold seenNext at hs
  rcases List.mem_append.mp hs with hs | hs
  · cases hrest : t.uart.receiverAtRest with
    | true => simp [hrest] at hs
    | false =>
      rw [if_neg (by simp [hrest])] at hs
      exact h.seen hrest s hs
  · rw [(driveQueuedLine_line t.uart).2] at hs
    by_cases hcarried : (t.uart.startsLine || t.uart.queuedReceiveActive) = true
    · rw [if_pos hcarried, List.mem_singleton] at hs
      rw [hs, lineNext_session h hcarried]
    · rw [if_neg hcarried] at hs
      exact absurd hs List.not_mem_nil

theorem ReceiveIsolated.edge (h : t.ReceiveIsolated) : (t.step .receiveClockEdge).ReceiveIsolated := by
  obtain ⟨hqueue, hactive⟩ := receiveLineEdge_line t.uart
  have hseen := seenNext_session h
  refine ⟨?_, ?_, ?_, fun _ => hseen, ?_⟩
  · intro s hs
    have hs' : s ∈ if t.uart.startsLine then t.queued.tail else t.queued := hs
    split at hs'
    · exact h.queued s (List.mem_of_mem_tail hs')
    · exact h.queued s hs'
  · have hlength : (if t.uart.startsLine then t.queued.tail else t.queued).length
        = t.uart.receiveLineEdge.queuedReceiveBytes.length := by
      rw [hqueue]
      split
      · rw [List.length_tail, List.length_tail, h.length]
      · exact h.length
    exact hlength
  · exact fun hline => lineNext_session h (hactive hline)
  · intro p hp
    have hp' : p ∈ t.arrived ++ if !t.uart.receiveReady && t.uart.receiveLineEdge.receiveReady then
        [(t.session, t.seenNext)] else [] := hp
    rcases List.mem_append.mp hp' with hp' | hp'
    · exact h.arrived p hp'
    · split at hp'
      · rw [List.mem_singleton] at hp'
        rw [hp']
        exact hseen
      · exact absurd hp' List.not_mem_nil

theorem ReceiveIsolated.queue (h : t.ReceiveIsolated) (value : Byte) :
    (t.step (.queueReceivedByte value)).ReceiveIsolated := by
  have hstep : t.step (.queueReceivedByte value) = { t with
      uart := (t.uart.queueReceivedByte value).2
      queued := t.queued ++ if (t.uart.queueReceivedByte value).1 then [t.session] else [] } := rfl
  rw [hstep]
  by_cases hfull : t.uart.queuedReceiveBytes.length ≥ hostReceiveQueueCapacity
  · have hresult : t.uart.queueReceivedByte value = (false, t.uart) := if_pos hfull
    rw [hresult, if_neg (by simp), List.append_nil]
    exact h
  · have hresult : t.uart.queueReceivedByte value = (true, { t.uart with
        queuedReceiveBytes := t.uart.queuedReceiveBytes ++ [value] }) := if_neg hfull
    rw [hresult, if_pos rfl]
    refine ⟨?_, ?_, h.line, h.seen, h.arrived⟩
    · intro s hs
      rcases List.mem_append.mp hs with hs | hs
      · exact h.queued s hs
      · exact List.mem_singleton.mp hs
    · simp [h.length]

/-- Every operation keeps the receive direction isolated. -/
theorem ReceiveIsolated.step (h : t.ReceiveIsolated) (op : Op) : (t.step op).ReceiveIsolated := by
  cases op with
  | reset => exact h.cleared rfl rfl (receiverAtRest_idle rfl) rfl rfl
  | read registerIndex =>
    refine h.congr ?_ ⟨rfl, rfl, rfl, rfl, rfl⟩
    have hread : LineKept t.uart (t.uart.read registerIndex).2 := by
      unfold Uart8251.read
      split <;> exact ⟨rfl, rfl, id⟩
    exact hread
  | write registerIndex value =>
    have hgoal : (if (Op.write registerIndex value).resets t.uart then
        Tagged.cleared { t with uart := t.uart.write registerIndex value }
        else { t with uart := t.uart.write registerIndex value }).ReceiveIsolated := by
      by_cases hresets : (Op.write registerIndex value).resets t.uart = true
      · obtain ⟨high, hu⟩ := write_resets hresets
        rw [if_pos hresets, hu]
        exact h.cleared rfl rfl (receiverAtRest_idle rfl) rfl rfl
      · rw [if_neg hresets]
        exact h.congr (write_line (Bool.eq_false_iff.mpr hresets)) ⟨rfl, rfl, rfl, rfl, rfl⟩
    exact hgoal
  | setCtsActive active => exact h.congr ⟨rfl, rfl, id⟩ ⟨rfl, rfl, rfl, rfl, rfl⟩
  | setDsrActive active => exact h.congr ⟨rfl, rfl, id⟩ ⟨rfl, rfl, rfl, rfl, rfl⟩
  | setRxd high => exact h.congr ⟨rfl, rfl, id⟩ ⟨rfl, rfl, rfl, rfl, rfl⟩
  | setSyncDetect active =>
    refine h.congr ?_ ⟨rfl, rfl, rfl, rfl, rfl⟩
    cases active <;> exact ⟨rfl, rfl, id⟩
  | transmitClockEdge =>
    obtain ⟨r, hr⟩ : ∃ r, t.uart.transmitClockEdge = t.uart.withTransmit r :=
      ⟨_, transmitClockEdge_step t.uart⟩
    have hkept : LineKept t.uart t.uart.transmitClockEdge := by
      rw [hr]
      exact ⟨rfl, rfl, id⟩
    exact h.congr hkept ⟨rfl, rfl, rfl, rfl, rfl⟩
  | receiveClockEdge => exact h.edge
  | queueReceivedByte value => exact h.queue value
  | clearQueuedReceiveBytes => exact h.cleared rfl rfl (receiverAtRest_idle rfl) rfl rfl
  | takeTransmittedByte =>
    obtain ⟨r, hr⟩ : ∃ r, t.uart.takeTransmittedByte.2 = t.uart.withTransmit r :=
      ⟨_, takeTransmittedByte_step t.uart⟩
    have hkept : LineKept t.uart t.uart.takeTransmittedByte.2 := by
      rw [hr]
      exact ⟨rfl, rfl, id⟩
    exact h.congr hkept ⟨rfl, rfl, rfl, rfl, rfl⟩

/-! ## The transmit direction -/

/-- The payload frame in the shift register and every completed byte are of the present session. -/
structure TransmitWhole (t : Tagged) : Prop where
  frame : t.uart.shiftPayload ≠ [] → t.frame = t.session
  completed : ∀ s ∈ t.completed, s = t.session
  length : t.completed.length = t.uart.transmittedBytes.length

theorem TransmitWhole.congr {t' : Tagged} (h : t.TransmitWhole)
    (hshift : t'.uart.shiftPayload ≠ [] → t.uart.shiftPayload ≠ [])
    (hbytes : t'.uart.transmittedBytes = t.uart.transmittedBytes)
    (htags : t'.session = t.session ∧ t'.frame = t.frame ∧ t'.completed = t.completed) :
    t'.TransmitWhole := by
  obtain ⟨hsession, hframe, hcompleted⟩ := htags
  refine ⟨fun hbusy => ?_, ?_, ?_⟩
  · rw [hframe, hsession]
    exact h.frame (hshift hbusy)
  · rw [hcompleted, hsession]
    exact h.completed
  · rw [hcompleted, hbytes]
    exact h.length

theorem TransmitWhole.cleared {t' : Tagged} (hshift : t'.uart.shiftPayload = [])
    (hbytes : t'.uart.transmittedBytes = []) (hcompleted : t'.completed = []) :
    t'.TransmitWhole := by
  refine ⟨fun hbusy => absurd hshift hbusy, ?_, by rw [hcompleted, hbytes]; rfl⟩
  rw [hcompleted]
  intro s hs
  exact absurd hs List.not_mem_nil

/-- A frame that an edge leaves in the shift register was there before, unless it has just begun. -/
theorem shiftPayload_edge (u : Uart8251) (hstarts : u.startsPayload = false)
    (hbusy : u.transmitClockEdge.shiftPayload ≠ []) : u.shiftPayload ≠ [] := by
  have hunder := transmitClockEdge_underWay u
  unfold underWay at hunder
  intro hnone
  rw [hnone, List.nil_append] at hunder
  have hlength := congrArg List.length hunder
  have hpos : 0 < u.transmitClockEdge.shiftPayload.length := List.length_pos_iff.mpr hbusy
  cases hbuffer : u.transmitBuffer with
  | none =>
    simp [hbuffer] at hlength
    omega
  | some value =>
    cases hnext : u.transmitClockEdge.transmitBuffer with
    | none => simp [startsPayload, hbuffer, hnext] at hstarts
    | some value' =>
      simp [hbuffer, hnext] at hlength
      omega

theorem TransmitWhole.edge (h : t.TransmitWhole) : (t.step .transmitClockEdge).TransmitWhole := by
  have hqueue := transmitClockEdge_transmittedBytes t.uart
  refine ⟨fun hbusy => ?_, ?_, ?_⟩
  · have hgoal : (if t.uart.startsPayload then t.session else t.frame) = t.session := by
      cases hstarts : t.uart.startsPayload with
      | true => rfl
      | false =>
        rw [if_neg (by simp)]
        exact h.frame (shiftPayload_edge t.uart hstarts hbusy)
    exact hgoal
  · intro s hs
    have hs' : s ∈ t.completed ++ if t.uart.completesPayload
        && decide (t.uart.transmittedBytes.length < hostTransmitQueueCapacity) then [t.frame]
        else [] := hs
    rcases List.mem_append.mp hs' with hs' | hs'
    · exact h.completed s hs'
    · by_cases hcompletes : (t.uart.completesPayload
          && decide (t.uart.transmittedBytes.length < hostTransmitQueueCapacity)) = true
      · rw [if_pos hcompletes, List.mem_singleton] at hs'
        have hpayload : t.uart.shiftPayload ≠ [] := by
          simp only [completesPayload, Bool.and_eq_true] at hcompletes
          simp [shiftPayload, hcompletes.1.1.1.2, hcompletes.1.2]
        rw [hs', h.frame hpayload]
        rfl
      · rw [if_neg hcompletes] at hs'
        exact absurd hs' List.not_mem_nil
  · have hgoal : (t.completed ++ if t.uart.completesPayload
          && decide (t.uart.transmittedBytes.length < hostTransmitQueueCapacity) then [t.frame]
          else []).length
        = t.uart.transmitClockEdge.transmittedBytes.length := by
      rw [hqueue, List.length_append, List.length_append, h.length, completedCharacter]
      cases t.uart.completesPayload with
      | false => simp
      | true =>
        by_cases hroom : t.uart.transmittedBytes.length < hostTransmitQueueCapacity
        · simp [hroom]
        · simp [hroom]
    exact hgoal

/-- A payload frame that is under way after a register write was so before. -/
theorem write_shiftPayload {u : Uart8251} {registerIndex value : Byte}
    (hkeep : (Op.write registerIndex value).resets u = false)
    (hbusy : (u.write registerIndex value).shiftPayload ≠ []) : u.shiftPayload ≠ [] := by
  have hstep := write_step hkeep
  generalize u.write registerIndex value = u' at hstep hbusy
  cases hstep with
  | mode => exact absurd rfl hbusy
  | data | sync => exact hbusy
  | command hreset =>
    obtain ⟨r, high, hr⟩ := acceptCommand_step hreset
    rw [hr] at hbusy
    exact hbusy

/-- Every operation keeps the transmit direction whole. -/
theorem TransmitWhole.step (h : t.TransmitWhole) (op : Op) : (t.step op).TransmitWhole := by
  have hbeside : op.besideTransmitter = true → op.taken t.uart = [] →
      (t.step op).session = t.session ∧ (t.step op).frame = t.frame
        ∧ (t.step op).completed = t.completed → (t.step op).TransmitWhole := by
    intro hop hnone htags
    obtain ⟨r, bytes, cts, dsr, hr, htaken⟩ := @beside_step t.uart op hop
    rw [hnone, List.nil_append] at htaken
    refine h.congr ?_ ?_ htags
    · rw [step_uart, hr]
      exact id
    · rw [step_uart, hr, htaken]
      rfl
  cases op with
  | reset => exact .cleared rfl rfl rfl
  | write registerIndex value =>
    have hgoal : (if (Op.write registerIndex value).resets t.uart then
        Tagged.cleared { t with uart := t.uart.write registerIndex value }
        else { t with uart := t.uart.write registerIndex value }).TransmitWhole := by
      by_cases hresets : (Op.write registerIndex value).resets t.uart = true
      · obtain ⟨high, hu⟩ := write_resets hresets
        rw [if_pos hresets, hu]
        exact .cleared rfl rfl rfl
      · rw [if_neg hresets]
        have hkeep := Bool.eq_false_iff.mpr hresets
        exact h.congr (write_shiftPayload hkeep) (write_transmittedBytes registerIndex value hkeep)
          ⟨rfl, rfl, rfl⟩
    exact hgoal
  | transmitClockEdge => exact h.edge
  | takeTransmittedByte =>
    have huart : (t.step .takeTransmittedByte).uart
        = { t.uart with transmittedBytes := t.uart.transmittedBytes.tail } :=
      congrArg Prod.snd (takeTransmittedByte_eq t.uart)
    refine ⟨fun hbusy => ?_, fun s hs => h.completed s (List.mem_of_mem_tail hs), ?_⟩
    · rw [huart] at hbusy
      exact h.frame hbusy
    · have hgoal : t.completed.tail.length = t.uart.transmittedBytes.tail.length := by
        rw [List.length_tail, List.length_tail, h.length]
      rw [huart]
      exact hgoal
  | read | setCtsActive | setDsrActive | setRxd | setSyncDetect | receiveClockEdge
  | queueReceivedByte | clearQueuedReceiveBytes => exact hbeside rfl rfl ⟨rfl, rfl, rfl⟩

end Tagged

/-! ## Sessions of a board -/

/-- A board in a run, with the ghost of its 8251. -/
structure Session where
  board : Board
  tags : Tagged
  /-- For each byte the host took the session at that moment, and that of the byte's frame. -/
  taken : List (Nat × Nat) := []

namespace Session

def power (bootRom : List Byte) : Session :=
  { board := Board.power bootRom, tags := { uart := (Board.power bootRom).uart } }

/-- The tags beside the operations an action has the 8251 perform; a disconnect ends the session. -/
def act (s : Session) (a : Action) : Session :=
  let tags := Run.run Tagged.step s.tags (s.board.uartOps a)
  { board := s.board.act a
    tags := match a with
      | .host (.setSerialConnected false) => { tags with session := tags.session + 1 }
      | _ => tags
    taken := s.taken ++ match a with
      | .host .takeSerialTransmittedByte =>
        if s.board.takeSerialTransmittedByte.1.isSome then
          [(s.tags.session, s.tags.completed.headD 0)]
        else []
      | _ => [] }

/-- A disconnect while a payload frame is in the shift register. -/
def cuts (b : Board) : Action → Bool
  | .host (.setSerialConnected false) => !b.uart.shiftPayload.isEmpty
  | _ => false

def nothingCut : Board → List Action → Bool
  | _, [] => true
  | b, a :: as => !cuts b a && nothingCut (b.act a) as

variable {s : Session}

/-- What every action of a run keeps: the ghost follows the chip, and both directions hold. -/
structure Follows (s : Session) : Prop where
  uart : s.tags.uart = s.board.uart
  received : s.tags.ReceiveIsolated

theorem run_uart (t : Tagged) (ops : List Uart8251.Op) :
    (Run.run Tagged.step t ops).uart = Run.run Uart8251.apply t.uart ops := by
  induction ops generalizing t with
  | nil => rfl
  | cons op ops ih => rw [Run.run_cons, ih, Tagged.step_uart, Run.run_cons]

/-- Only a disconnect touches the tags beyond what the 8251 does. -/
theorem act_tags {a : Action} (h : a ≠ .host (.setSerialConnected false)) :
    (s.act a).tags = Run.run Tagged.step s.tags (s.board.uartOps a) := by
  unfold Session.act
  dsimp only
  split
  · exact absurd rfl h
  · rfl

theorem disconnect_tags :
    (s.act (.host (.setSerialConnected false))).tags =
      let ran := Run.run Tagged.step s.tags (s.board.uartOps (.host (.setSerialConnected false)))
      { ran with session := ran.session + 1 } := rfl

theorem Follows.ops (h : s.Follows) (a : Action) :
    (Run.run Tagged.step s.tags (s.board.uartOps a)).uart = (s.board.act a).uart := by
  rw [run_uart, h.uart, Board.act_uart]

theorem Follows.act (h : s.Follows) (a : Action) : (s.act a).Follows := by
  have hops := h.ops a
  have hreceived : (Run.run Tagged.step s.tags (s.board.uartOps a)).ReceiveIsolated :=
    Run.run_invariant (fun _ op ht => ht.step op) h.received _
  by_cases hdisconnect : a = .host (.setSerialConnected false)
  · subst hdisconnect
    have htags := @disconnect_tags s
    have hdisconnected := Board.disconnect_uart s.board
    generalize Run.run Tagged.step s.tags _ = ran at hops hreceived htags
    have huart := hops.trans hdisconnected
    have hqueued : ran.queued = [] := by
      refine List.eq_nil_of_length_eq_zero ?_
      rw [hreceived.length, huart]
      rfl
    constructor
    · rw [htags]
      exact hops
    · rw [htags]
      refine hreceived.cleared ?_ ?_ ?_ hqueued rfl
      · exact congrArg Uart8251.queuedReceiveBytes huart
      · exact congrArg Uart8251.queuedReceiveActive huart
      · exact Uart8251.receiverAtRest_idle (congrArg Uart8251.receivePhase huart)
  · have htags := @act_tags s a hdisconnect
    exact ⟨htags ▸ hops, htags ▸ hreceived⟩

/-- The transmit direction of a run in which no disconnect has cut a frame. -/
structure Whole (s : Session) : Prop where
  transmit : s.tags.TransmitWhole
  taken : ∀ p ∈ s.taken, p.2 = p.1

/-- The byte the host takes is of the present session. -/
theorem taken_session (hfollows : s.Follows) (h : s.Whole) (a : Action) :
    ∀ p ∈ (s.act a).taken, p.2 = p.1 := by
  intro p hp
  rcases List.mem_append.mp hp with hp | hp
  · exact h.taken p hp
  · split at hp
    next =>
      split at hp
      next hsome =>
        rw [List.mem_singleton] at hp
        rw [hp]
        cases hcompleted : s.tags.completed with
        | nil =>
          have hlength := h.transmit.length
          rw [hcompleted, hfollows.uart] at hlength
          have hnone : s.board.uart.transmittedBytes = [] :=
            List.eq_nil_of_length_eq_zero hlength.symm
          simp [Board.takeSerialTransmittedByte, Uart8251.takeTransmittedByte_eq, hnone] at hsome
        | cons tag rest => exact h.transmit.completed tag (by simp [hcompleted])
      next => exact absurd hp List.not_mem_nil
    next => exact absurd hp List.not_mem_nil

theorem Whole.act (hfollows : s.Follows) (h : s.Whole) (a : Action)
    (hcut : cuts s.board a = false) : (s.act a).Whole := by
  refine ⟨?_, taken_session hfollows h a⟩
  have hops := hfollows.ops a
  have htransmit : (Run.run Tagged.step s.tags (s.board.uartOps a)).TransmitWhole :=
    Run.run_invariant (fun _ op ht => ht.step op) h.transmit _
  by_cases hdisconnect : a = .host (.setSerialConnected false)
  · subst hdisconnect
    have htags := @disconnect_tags s
    have hdisconnected := Board.disconnect_uart s.board
    generalize Run.run Tagged.step s.tags _ = ran at hops htransmit htags
    have huart := hops.trans hdisconnected
    have hempty : s.board.uart.shiftPayload = [] := by
      have hcut' : (!s.board.uart.shiftPayload.isEmpty) = false := hcut
      simpa using hcut'
    have hshift : ran.uart.shiftPayload = [] := by
      rw [huart]
      exact hempty
    have hbytes : ran.uart.transmittedBytes = [] := by rw [huart]
    have hcompleted : ran.completed = [] := by
      refine List.eq_nil_of_length_eq_zero ?_
      rw [htransmit.length, hbytes]
      rfl
    rw [htags]
    exact .cleared hshift hbytes hcompleted
  · have htags := @act_tags s a hdisconnect
    exact htags ▸ htransmit

/-- The chip at power-up: a reset, then the modem lines. -/
theorem power_uart (bootRom : List Byte) :
    ∃ cts dsr, (Board.power bootRom).uart = { ctsActive := cts, dsrActive := dsr } :=
  ⟨_, _, Board.act_uart (Board.setRomImage {} bootRom).2 .reset⟩

theorem power_follows (bootRom : List Byte) : (power bootRom).Follows := by
  obtain ⟨cts, dsr, huart⟩ := power_uart bootRom
  have htags : (power bootRom).tags = { uart := { ctsActive := cts, dsrActive := dsr } } :=
    congrArg (fun u => ({ uart := u } : Tagged)) huart
  refine ⟨rfl, htags ▸ ⟨fun tag htag => absurd htag List.not_mem_nil, rfl, ?_, ?_, ?_⟩⟩
  · exact fun h => Bool.noConfusion h
  · exact fun _ tag htag => absurd htag List.not_mem_nil
  · exact fun p hp => absurd hp List.not_mem_nil

theorem power_whole (bootRom : List Byte) : (power bootRom).Whole := by
  obtain ⟨cts, dsr, huart⟩ := power_uart bootRom
  refine ⟨.cleared ?_ ?_ rfl, fun p hp => absurd hp List.not_mem_nil⟩
  · exact congrArg Uart8251.shiftPayload huart
  · exact congrArg Uart8251.transmittedBytes huart

theorem run_board (s : Session) (actions : List Action) :
    (Run.run Session.act s actions).board = Run.run Board.act s.board actions := by
  induction actions generalizing s with
  | nil => rfl
  | cons a as ih => exact ih (s.act a)

theorem run_whole (hfollows : s.Follows) (h : s.Whole) (actions : List Action)
    (hcut : nothingCut s.board actions = true) : (Run.run Session.act s actions).Whole := by
  induction actions generalizing s with
  | nil => exact h
  | cons a as ih =>
    simp only [nothingCut, Bool.and_eq_true, Bool.not_eq_true'] at hcut
    exact ih (hfollows.act a) (h.act hfollows a hcut.1) hcut.2

/-- Characters that reach RXRDY always are of their own session; bytes taken are as long as no
disconnect cuts a frame. -/
theorem sessions_isolated (bootRom : List Byte) (actions : List Action) :
    let s := Run.run Session.act (power bootRom) actions
    s.board = Run.run Board.act (Board.power bootRom) actions
      ∧ s.tags.uart = s.board.uart
      ∧ (∀ p ∈ s.tags.arrived, ∀ session ∈ p.2, session = p.1)
      ∧ (nothingCut (Board.power bootRom) actions = true → ∀ p ∈ s.taken, p.2 = p.1) := by
  have hfollows : (Run.run Session.act (power bootRom) actions).Follows :=
    Run.run_invariant (fun _ a h => h.act a) (power_follows bootRom) actions
  refine ⟨run_board _ actions, hfollows.uart, hfollows.received.arrived, fun hcut => ?_⟩
  exact (run_whole (power_follows bootRom) (power_whole bootRom) actions hcut).taken

/-- A guest that has begun a frame when the host disconnects. -/
def cutFrame : List Action :=
  [.host (.setSerialConnected true),
    .host (.writeIo 0x13#16 0x56#8), .host (.writeIo 0x11#16 0x02#8),
    .host (.writeIo 0x41#16 0x4D#8), .host (.writeIo 0x41#16 0x01#8),
    .host (.writeIo 0x40#16 0x5A#8),
    .advance 16, .host (.setSerialConnected false), .advance 96,
    .host (.setSerialConnected true), .host .takeSerialTransmittedByte]

/-- The frame completes after the disconnect, and the next session takes its byte. -/
theorem cut_frame_taken :
    ¬ ∀ (bootRom : List Byte) (actions : List Action),
      ∀ p ∈ (Run.run Session.act (power bootRom) actions).taken, p.2 = p.1 := by
  intro hall
  have htaken : (Run.run Session.act (power []) cutFrame).taken = [(1, 0)] := by decide +kernel
  have hsame := hall [] cutFrame (1, 0) (by rw [htaken]; exact List.mem_singleton_self _)
  exact absurd hsame (by decide)

/-- Left alone until it has completed, a frame is taken in its own session. -/
theorem whole_frame_taken :
    let actions := cutFrame.take 7 ++ [.advance 96, .host .takeSerialTransmittedByte]
    nothingCut (Board.power []) actions = true
      ∧ (Run.run Session.act (power []) actions).taken ≠ []
      ∧ ∀ p ∈ (Run.run Session.act (power []) actions).taken, p.2 = p.1 := by
  have hcut : nothingCut (Board.power [])
      (cutFrame.take 7 ++ [.advance 96, .host .takeSerialTransmittedByte]) = true := by
    decide +kernel
  exact ⟨hcut, by decide +kernel, (sessions_isolated [] _).2.2.2 hcut⟩

end Session
end FK1
