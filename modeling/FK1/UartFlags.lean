import FK1.Lib.Record
import FK1.UartFrame
import FK1.UartOps

/-!
# FK1.UartFlags

The receiver of the 8251 as software sees it, over every run of the chip: the characters it reads, and
the error bits of the status register (`status_and_characters`).
-/

namespace FK1
namespace Uart8251

variable {u u' : Uart8251}

/-! ## Receptions -/

/-- What is passed to `receive_byte`. -/
structure Reception where
  character : Byte
  parityError : Bool
  framingError : Bool
  deriving DecidableEq, Repr

/-- Inside a synchronous character, unless the receiver hunts. -/
def completedSync (u : Uart8251) : Option Reception :=
  if u.syncHunt && u.syncCharacterCount != 0 then none
  else if u.receivePhase == .syncData then
    if u.characterBits ≤ u.shiftReceiveBit.receiveBitIndex ∧ u.parityEnabled = false then
      some ⟨u.character u.shiftReceiveBit.receiveShift, u.pendingReceiveParityError, false⟩
    else none
  else some ⟨u.character u.receiveShift, u.rxdHigh != u.parityHigh u.receiveParityOnes, false⟩

/-- The reception that the next receive edge completes. -/
def completed (u : Uart8251) : Option Reception :=
  if !u.receiverEnabled then none
  else if u.synchronous then u.startSyncCharacter.completedSync
  else if u.completesCharacter then
    some ⟨u.character u.receiveShift, u.pendingReceiveParityError, !u.rxdHigh⟩
  else none

/-- What software sees of the receiver. -/
structure Inbox where
  ready : Bool := false
  buffer : Byte := 0#8
  parityError : Bool := false
  overrunError : Bool := false
  framingError : Bool := false
  breakDetected : Bool := false
  deriving DecidableEq, Repr

def inbox (u : Uart8251) : Inbox :=
  { ready := u.receiveReady
    buffer := u.receiveBuffer
    parityError := u.receiveParityError
    overrunError := u.receiveOverrunError
    framingError := u.receiveFramingError
    breakDetected := u.breakDetected }

namespace Inbox

/-- A reception that finds a character waiting is lost. -/
def arrive (i : Inbox) (r : Reception) : Inbox :=
  if i.ready then { i with overrunError := true }
  else
    { ready := true
      buffer := r.character
      parityError := i.parityError || r.parityError
      overrunError := i.overrunError
      framingError := i.framingError || r.framingError
      breakDetected := i.breakDetected || (r.framingError && r.character == 0#8) }

def arriveAny (i : Inbox) : Option Reception → Inbox
  | none => i
  | some r => i.arrive r

def clearErrors (i : Inbox) : Inbox := { ready := i.ready, buffer := i.buffer }

end Inbox

theorem receiveByte_inbox (henabled : u.receiverEnabled = true) (value : Byte)
    (parityError framingError : Bool) :
    (u.receiveByte value parityError framingError).inbox =
      u.inbox.arrive ⟨u.character value, parityError, framingError⟩ := by
  have hframed : ∀ v : Uart8251, (if framingError && v.receiveBuffer == 0#8 then
      { v with breakDetected := true } else v).inbox = { v.inbox with
        breakDetected := v.breakDetected || (framingError && v.receiveBuffer == 0#8) } := by
    intro v
    split
    next hbreak => simp [inbox, hbreak]
    next hbreak => simp [inbox, hbreak]
  unfold receiveByte
  rw [henabled]
  cases hready : u.receiveReady with
  | true => simp [inbox, Inbox.arrive, hready]
  | false =>
    rw [if_neg (by decide), if_neg Bool.false_ne_true]
    refine (hframed _).trans ?_
    simp [inbox, Inbox.arrive, hready, character, characterMask, characterBits]

theorem shiftReceiveBit_kept (u : Uart8251) :
    u.shiftReceiveBit.inbox = u.inbox ∧ u.shiftReceiveBit.receiverEnabled = u.receiverEnabled ∧
      u.shiftReceiveBit.characterBits = u.characterBits ∧
      u.shiftReceiveBit.parityEnabled = u.parityEnabled ∧
      (∀ value, u.shiftReceiveBit.character value = u.character value) ∧
      u.shiftReceiveBit.syncHunt = u.syncHunt ∧
      u.shiftReceiveBit.syncCharacterCount = u.syncCharacterCount ∧
      u.shiftReceiveBit.pendingReceiveParityError = u.pendingReceiveParityError := by
  rw [shiftReceiveBit_eq]
  exact ⟨rfl, rfl, rfl, rfl, fun _ => rfl, rfl, rfl, rfl⟩

theorem finishSyncCharacter_inbox (henabled : u.receiverEnabled = true) :
    u.finishSyncCharacter.inbox =
      if u.syncHunt && u.syncCharacterCount != 0 then u.inbox
      else u.inbox.arrive ⟨u.character u.receiveShift, u.pendingReceiveParityError, false⟩ := by
  rw [← receiveByte_inbox henabled]
  unfold finishSyncCharacter
  cases u.syncHunt && u.syncCharacterCount != 0 with
  | true =>
    rw [if_pos rfl, if_pos rfl]
    split
    · dsimp only
      split <;> rfl
    · rfl
  | false => rfl

theorem takeSyncBit_inbox (henabled : u.receiverEnabled = true) :
    u.takeSyncBit.inbox = u.inbox.arriveAny u.completedSync := by
  obtain ⟨hinbox, hkept, hbits, hparity, hcharacter, hhunt, hcount, hpending⟩ := shiftReceiveBit_kept u
  unfold takeSyncBit completedSync
  by_cases hphase : (u.receivePhase == .syncData) = true
  · rw [if_pos hphase]
    dsimp only
    rw [hbits, hparity, if_pos hphase]
    by_cases hlast : u.characterBits ≤ u.shiftReceiveBit.receiveBitIndex
    · rw [if_pos hlast]
      cases hpar : u.parityEnabled with
      | true =>
        have hinbox' : ({ u.shiftReceiveBit with receivePhase := .syncParity } : Uart8251).inbox =
            u.inbox := hinbox
        rw [if_pos rfl, hinbox']
        split
        · rfl
        · rw [if_neg fun h => Bool.noConfusion h.2]
          rfl
      | false =>
        rw [if_neg Bool.false_ne_true, finishSyncCharacter_inbox (hkept.trans henabled), hinbox, hhunt,
          hcount, hpending, hcharacter]
        split
        · rfl
        · rw [if_pos ⟨hlast, rfl⟩]
          rfl
    · rw [if_neg hlast, hinbox]
      split
      · rfl
      · rw [if_neg fun h => hlast h.1]
        rfl
  · have hfinish := @finishSyncCharacter_inbox { u with
      pendingReceiveParityError := u.rxdHigh != u.parityHigh u.receiveParityOnes } henabled
    rw [if_neg hphase, hfinish, if_neg hphase]
    cases u.syncHunt && u.syncCharacterCount != 0 <;> rfl

theorem sampleAsyncReceive_inbox (henabled : u.receiverEnabled = true) :
    u.sampleAsyncReceive.inbox = u.inbox.arriveAny (if u.receivePhase = .stop then
      some ⟨u.character u.receiveShift, u.pendingReceiveParityError, !u.rxdHigh⟩ else none) := by
  cases hphase : u.receivePhase with
  | stop =>
    have hbyte := receiveByte_inbox henabled u.receiveShift u.pendingReceiveParityError !u.rxdHigh
    rw [sampleAsyncReceive]
    simp only [hphase, if_true]
    exact hbyte
  | data =>
    rw [sampleAsyncReceive_data hphase]
    rfl
  | start =>
    rw [sampleAsyncReceive]
    simp only [hphase]
    split <;> rfl
  | _ =>
    rw [sampleAsyncReceive]
    simp only [hphase]
    rfl

/-- A receive edge changes what software sees by the reception it completes, and by nothing else. -/
theorem receiveClockEdge_inbox (u : Uart8251) :
    u.receiveClockEdge.inbox = u.inbox.arriveAny u.completed := by
  unfold receiveClockEdge completed
  cases henabled : u.receiverEnabled with
  | false => rfl
  | true =>
    cases hsync : u.synchronous with
    | true =>
      have hstart : u.startSyncCharacter.receiverEnabled = true ∧
          u.startSyncCharacter.inbox = u.inbox := by
        unfold startSyncCharacter
        split <;> exact ⟨henabled, rfl⟩
      show u.sampleSyncReceive.inbox = u.inbox.arriveAny u.startSyncCharacter.completedSync
      rw [sampleSyncReceive_eq, takeSyncBit_inbox hstart.1, hstart.2]
    | false =>
      simp only [Bool.not_true, Bool.false_eq_true, if_false]
      by_cases hidle : u.receivePhase = .idle
      · have hmore : ¬u.completesCharacter := fun h => absurd (hidle.symm.trans h.1) (by decide)
        rw [if_pos (beq_iff_eq.mpr hidle), if_neg hmore]
        split <;> rfl
      · rw [if_neg (fun h => hidle (beq_iff_eq.mp h))]
        by_cases hcount : u.receiveClockCount > 1
        · have hmore : ¬u.completesCharacter := fun h => by
            have := h.2
            omega
          rw [if_pos hcount, if_neg hmore]
          rfl
        · have hsample := @sampleAsyncReceive_inbox { u with receiveClockCount := u.baudFactor } henabled
          have hlast : u.completesCharacter ↔ u.receivePhase = .stop :=
            ⟨fun h => h.1, fun h => ⟨h, by omega⟩⟩
          rw [if_neg hcount, hsample, if_congr hlast rfl rfl]
          rfl

/-! ## Operations -/

/-- The reception of an operation, if it is a receive edge that completes one. -/
def delivered : Uart8251 × Op → Option Reception
  | (u, .receiveClockEdge) => u.driveQueuedLine.completed
  | _ => none

/-- The reset pin, or a command with the reset bit. -/
def restarts : Uart8251 × Op → Bool
  | (_, .reset) => true
  | (u, .write registerIndex value) =>
    hasBits registerIndex 0x01#8 && u.initializationPhase == .command && hasBits value 0x40#8
  | _ => false

/-- A command with the error reset bit. -/
def resetsErrors : Uart8251 × Op → Bool
  | (u, .write registerIndex value) =>
    hasBits registerIndex 0x01#8 && u.initializationPhase == .command && hasBits value 0x10#8
  | _ => false

/-- A mode word. -/
def setsMode : Uart8251 × Op → Bool
  | (u, .write registerIndex _) => hasBits registerIndex 0x01#8 && u.initializationPhase == .mode
  | _ => false

/-- A read of the data register. -/
def readsData : Uart8251 × Op → Bool
  | (_, .read registerIndex) => !hasBits registerIndex 0x01#8
  | _ => false

def Inbox.after (i : Inbox) (entry : Uart8251 × Op) : Inbox :=
  if restarts entry then {}
  else
    let i := if resetsErrors entry then i.clearErrors else i
    if setsMode entry || readsData entry then { i with ready := false }
    else i.arriveAny (delivered entry)

theorem driveQueuedLine_inbox (u : Uart8251) : u.driveQueuedLine.inbox = u.inbox := by
  have hdrive : ∀ v : Uart8251, (if v.queuedReceiveActive then
      { v with rxdHigh := v.queuedReceiveFrame.getD v.queuedReceiveFrameIndex false }
      else v).inbox = v.inbox := by
    intro v
    split <;> rfl
  unfold driveQueuedLine
  refine (hdrive _).trans ?_
  split
  · unfold startQueuedReceiveFrame
    split <;> rfl
  · rfl

theorem receiveLineEdge_inbox (u : Uart8251) :
    u.receiveLineEdge.inbox = u.inbox.arriveAny u.driveQueuedLine.completed := by
  have hadvance : ∀ v : Uart8251, v.advanceQueuedReceiveLine.inbox = v.inbox := by
    intro v
    unfold advanceQueuedReceiveLine
    split
    · rfl
    · split
      · rfl
      · split <;> rfl
  rw [receiveLineEdge_eq, hadvance, receiveClockEdge_inbox, driveQueuedLine_inbox]

theorem acceptCommand_inbox (u : Uart8251) (value : Byte) :
    (u.acceptCommand value).inbox =
      if hasBits value 0x40#8 then {}
      else if hasBits value 0x10#8 then u.inbox.clearErrors else u.inbox := by
  unfold acceptCommand
  split
  · rfl
  · extract_lets commanded cleared hunting driven
    have hcleared : cleared.inbox = if hasBits value 0x10#8 then u.inbox.clearErrors else u.inbox := by
      simp only [cleared]
      split <;> rfl
    have hhunting : hunting.inbox = cleared.inbox := by
      simp only [hunting]
      split <;> rfl
    have hdriven : driven.inbox = hunting.inbox := by
      simp only [driven]
      split <;> rfl
    rw [← hcleared, ← hhunting, ← hdriven]
    split <;> rfl

theorem writeControl_inbox (u : Uart8251) {registerIndex : Byte}
    (hcontrol : hasBits registerIndex 0x01#8 = true) (value : Byte) :
    (u.writeControl value).inbox = u.inbox.after (u, .write registerIndex value) := by
  unfold writeControl Inbox.after restarts resetsErrors setsMode readsData delivered
  simp only [hcontrol, Bool.true_and]
  cases hphase : u.initializationPhase with
  | mode => rfl
  | sync1 => rfl
  | sync2 => rfl
  | command =>
    dsimp only
    rw [acceptCommand_inbox]
    cases hasBits value 0x40#8 <;> rfl

/-- Every operation of the chip, as software sees it. -/
theorem apply_inbox (u : Uart8251) (op : Op) : (u.apply op).inbox = u.inbox.after (u, op) := by
  cases op with
  | reset => rfl
  | read registerIndex =>
    unfold apply read Inbox.after restarts resetsErrors setsMode readsData delivered
    by_cases hstatus : hasBits registerIndex 0x01#8 = true
    · simp only [hstatus]
      rfl
    · rw [Bool.not_eq_true] at hstatus
      simp only [hstatus]
      rfl
  | write registerIndex value =>
    cases hcontrol : hasBits registerIndex 0x01#8 with
    | true =>
      have happly : u.apply (.write registerIndex value) = u.writeControl value := if_pos hcontrol
      rw [happly, writeControl_inbox u hcontrol]
    | false =>
      have happly : u.apply (.write registerIndex value) =
          { u with transmitBuffer := some (value &&& u.characterMask) } :=
        if_neg (by rw [hcontrol]; decide)
      unfold Inbox.after restarts resetsErrors setsMode readsData delivered
      rw [happly]
      simp only [hcontrol, Bool.false_and]
      rfl
  | receiveClockEdge => exact receiveLineEdge_inbox u
  | transmitClockEdge =>
    have hstep := transmitClockEdge_step u
    show u.transmitClockEdge.inbox = u.inbox
    rw [hstep]
    rfl
  | takeTransmittedByte =>
    have hstep := takeTransmittedByte_step u
    show u.takeTransmittedByte.2.inbox = u.inbox
    rw [hstep]
    rfl
  | setSyncDetect active =>
    show (u.setSyncDetect active).inbox = u.inbox
    unfold setSyncDetect
    dsimp only
    split <;> rfl
  | queueReceivedByte value =>
    show (u.queueReceivedByte value).2.inbox = u.inbox
    unfold queueReceivedByte
    split <;> rfl
  | _ => rfl

/-! ## Runs -/

/-- A reception that finds the buffer free. -/
def accepts (entry : Uart8251 × Op) : Option Reception :=
  if entry.1.receiveReady then none else delivered entry

def overruns (entry : Uart8251 × Op) : Bool := entry.1.receiveReady && (delivered entry).isSome

/-- What software reads while RxRDY is set. -/
def charactersRead : Uart8251 × Op → List Byte
  | (u, .read registerIndex) =>
    if !hasBits registerIndex 0x01#8 && u.receiveReady then [(u.read registerIndex).1] else []
  | _ => []

/-- What goes unread with a reset or a mode word. -/
def charactersDropped (entry : Uart8251 × Op) : List Byte :=
  if restarts entry || setsMode entry then entry.1.unread else []

theorem status_bits (u : Uart8251) :
    hasBits u.status 0x02#8 = u.receiveReady ∧ hasBits u.status 0x08#8 = u.receiveParityError ∧
      hasBits u.status 0x10#8 = u.receiveOverrunError ∧
      hasBits u.status 0x20#8 = u.receiveFramingError ∧
      hasBits u.status 0x40#8 = if u.synchronous then u.syncDetected else u.breakDetected := by
  have hbits : ∀ txReady rxReady txEmpty parity overrun framing detect dsr : Bool,
      let status := statusBit txReady 0x01#8 ||| statusBit rxReady 0x02#8 ||| statusBit txEmpty 0x04#8
        ||| statusBit parity 0x08#8 ||| statusBit overrun 0x10#8 ||| statusBit framing 0x20#8
        ||| statusBit detect 0x40#8 ||| statusBit dsr 0x80#8
      hasBits status 0x02#8 = rxReady ∧ hasBits status 0x08#8 = parity ∧
        hasBits status 0x10#8 = overrun ∧ hasBits status 0x20#8 = framing ∧
        hasBits status 0x40#8 = detect := by decide +kernel
  exact hbits _ _ _ _ _ _ _ _

theorem delivered_alone {entry : Uart8251 × Op} (h : (delivered entry).isSome = true) :
    restarts entry = false ∧ resetsErrors entry = false ∧ setsMode entry = false ∧
      readsData entry = false := by
  obtain ⟨u, op⟩ := entry
  cases op with
  | receiveClockEdge => exact ⟨rfl, rfl, rfl, rfl⟩
  | _ => cases h

/-- The character that waits for software. -/
def Inbox.unread (i : Inbox) : List Byte := if i.ready then [i.buffer] else []

theorem arriveAny_unread (u : Uart8251) (arrival : Option Reception) :
    (u.inbox.arriveAny arrival).unread =
      u.unread ++ (if u.receiveReady then none else arrival).toList.map Reception.character := by
  cases arrival with
  | none => cases hready : u.receiveReady <;> simp [Inbox.arriveAny, Inbox.unread, inbox, unread, hready]
  | some r =>
    cases hready : u.receiveReady <;>
      simp [Inbox.arriveAny, Inbox.arrive, Inbox.unread, inbox, unread, hready]

/-- What has been accepted is read, dropped, or waits. -/
theorem apply_unread (u : Uart8251) (op : Op) :
    u.unread ++ (accepts (u, op)).toList.map Reception.character =
      (charactersRead (u, op) ++ charactersDropped (u, op)) ++ (u.apply op).unread := by
  have hafter : (u.apply op).unread = (u.inbox.after (u, op)).unread :=
    congrArg Inbox.unread (apply_inbox u op)
  rw [hafter]
  unfold accepts Inbox.after charactersDropped
  cases op with
  | receiveClockEdge => exact (arriveAny_unread u _).symm
  | read registerIndex =>
    cases hstatus : hasBits registerIndex 0x01#8 <;> cases hready : u.receiveReady <;>
      simp [charactersRead, delivered, restarts, resetsErrors, setsMode, readsData, hstatus, hready,
        read, Inbox.unread, Inbox.arriveAny, unread, inbox]
  | write registerIndex value =>
    cases hrestarts : restarts (u, .write registerIndex value) <;>
      cases hmode : setsMode (u, .write registerIndex value) <;>
      cases herrors : resetsErrors (u, .write registerIndex value) <;>
      simp [charactersRead, delivered, readsData, Inbox.unread, Inbox.arriveAny, Inbox.clearErrors,
        unread, inbox]
  | reset => simp [charactersRead, delivered, restarts, setsMode, Inbox.unread]
  | _ => simp [charactersRead, delivered, restarts, resetsErrors, setsMode, readsData, Inbox.arriveAny,
      Inbox.unread, unread, inbox]

/-- The error flags are cleared. -/
def clearsErrors (entry : Uart8251 × Op) : Bool := restarts entry || resetsErrors entry

/-- RxRDY is cleared. -/
def clearsReady (entry : Uart8251 × Op) : Bool :=
  restarts entry || setsMode entry || readsData entry

theorem after_flags (entry : Uart8251 × Op) :
    entry.1.inbox.after entry =
      { ready := (accepts entry).isSome || (!clearsReady entry && entry.1.receiveReady)
        buffer :=
          if restarts entry then 0#8
          else ((accepts entry).map Reception.character).getD entry.1.receiveBuffer
        parityError := (accepts entry).any Reception.parityError
          || (!clearsErrors entry && entry.1.receiveParityError)
        overrunError := overruns entry || (!clearsErrors entry && entry.1.receiveOverrunError)
        framingError := (accepts entry).any Reception.framingError
          || (!clearsErrors entry && entry.1.receiveFramingError)
        breakDetected := (accepts entry).any (fun r => r.framingError && r.character == 0#8)
          || (!clearsErrors entry && entry.1.breakDetected) } := by
  unfold Inbox.after accepts overruns clearsReady clearsErrors
  cases harrival : delivered entry with
  | some r =>
    obtain ⟨hrestarts, herrors, hmode, hdata⟩ := delivered_alone (by rw [harrival]; rfl)
    rw [hrestarts, herrors, hmode, hdata]
    cases hready : entry.1.receiveReady <;>
      simp [Inbox.arriveAny, Inbox.arrive, inbox, hready, Bool.or_comm]
  | none =>
    cases restarts entry <;> cases resetsErrors entry <;> cases setsMode entry <;>
      cases readsData entry <;> simp [Inbox.arriveAny, Inbox.clearErrors, inbox]

/-- Over every run of the chip: the characters accepted are those software has read, in order, but for
what a reset or a mode word drops, and the one that waits; and each error bit of the status register is
set exactly if a reception with that error has come since the errors were last cleared. -/
theorem status_and_characters (ops : List Op) :
    let u := Run.run apply {} ops
    let history := Run.record apply {} ops
    (history.flatMap fun entry => (accepts entry).toList.map Reception.character) =
        (history.flatMap fun entry => charactersRead entry ++ charactersDropped entry) ++ u.unread ∧
      (hasBits u.status 0x02#8 = true ↔ Run.Since (fun entry => (accepts entry).isSome = true)
        (fun entry => clearsReady entry = true) history) ∧
      (hasBits u.status 0x08#8 = true ↔
        Run.Since (fun entry => (accepts entry).any Reception.parityError = true)
          (fun entry => clearsErrors entry = true) history) ∧
      (hasBits u.status 0x10#8 = true ↔ Run.Since (fun entry => overruns entry = true)
        (fun entry => clearsErrors entry = true) history) ∧
      (hasBits u.status 0x20#8 = true ↔
        Run.Since (fun entry => (accepts entry).any Reception.framingError = true)
          (fun entry => clearsErrors entry = true) history) ∧
      (u.synchronous = false → (hasBits u.status 0x40#8 = true ↔
        Run.Since
          (fun entry => (accepts entry).any (fun r => r.framingError && r.character == 0#8) = true)
          (fun entry => clearsErrors entry = true) history)) := by
  intro u history
  have hqueue : unread {} ++ (Run.record apply {} ops).flatMap
        (fun entry => (accepts entry).toList.map Reception.character) =
      (Run.record apply {} ops).flatMap (fun entry => charactersRead entry ++ charactersDropped entry)
        ++ (Run.run apply {} ops).unread :=
    Run.queue_of_record (I := fun _ => True) unread (fun _ _ _ => trivial)
      (fun v op _ _ => apply_unread v op) trivial ops fun _ _ => trivial
  have hflag : ∀ (flag : Inbox → Bool) (sets clears : Uart8251 × Op → Bool),
      (∀ entry, flag (entry.1.inbox.after entry) =
        (sets entry || (!clears entry && flag entry.1.inbox))) → flag {} = false →
      (flag u.inbox = true ↔
        Run.Since (fun entry => sets entry = true) (fun entry => clears entry = true) history) := by
    intro flag sets clears hafter hclear
    have hnot : ¬flag ({} : Uart8251).inbox = true := by
      rw [show ({} : Uart8251).inbox = {} from rfl, hclear]
      decide
    exact Run.clear_flag_of_record (I := fun _ => True) (s := ({} : Uart8251))
      (P := fun entry => sets entry = true) (Q := fun entry => clears entry = true)
      (fun v => flag v.inbox = true) (fun _ _ _ => trivial)
      (fun v op _ => by rw [apply_inbox, hafter (v, op)]; simp) trivial hnot ops
  obtain ⟨hready, hparity, hoverrun, hframing, hdetect⟩ := status_bits u
  rw [hready, hparity, hoverrun, hframing, hdetect]
  refine ⟨(List.nil_append _).symm.trans hqueue, ?_, ?_, ?_, ?_, fun hasync => ?_⟩
  · exact hflag Inbox.ready _ _ (fun entry => congrArg Inbox.ready (after_flags entry)) rfl
  · exact hflag Inbox.parityError _ _ (fun entry => congrArg Inbox.parityError (after_flags entry)) rfl
  · exact hflag Inbox.overrunError _ _ (fun entry => congrArg Inbox.overrunError (after_flags entry)) rfl
  · exact hflag Inbox.framingError _ _ (fun entry => congrArg Inbox.framingError (after_flags entry)) rfl
  · rw [if_neg (by rw [hasync]; decide)]
    exact hflag Inbox.breakDetected _ _ (fun entry => congrArg Inbox.breakDetected (after_flags entry)) rfl

end Uart8251
end FK1
