import FK1.UartFrame
import FK1.UartOps
import FK1.Lib.Record

/-!
# FK1.UartTransmit

Characters from the data register to the host's queue of completed bytes: the transmit buffer, the
shift register and the queue under writes, commands, CTS, clock edges and SYN fill.
-/

namespace FK1
namespace Uart8251

/-! ## Where a character is -/

/-- The payload character in the shift register. -/
def shiftPayload (u : Uart8251) : List Byte :=
  if u.transmitActive && u.transmitPayload then [u.transmitCharacter] else []

/-- The characters written that have not completed: shift register, then buffer. -/
def underWay (u : Uart8251) : List Byte := u.shiftPayload ++ u.transmitBuffer.toList

/-- The next TxC edge completes a payload frame. -/
def completesPayload (u : Uart8251) : Bool :=
  !hasBits u.commandWord 0x08#8 && decide (u.baudFactor ≤ u.transmitClockCount + 1)
    && u.transmitActive && decide (u.transmitFrame.length ≤ u.transmitFrameIndex)
    && u.transmitPayload

/-- The payload character a TxC edge completes. -/
def completedCharacter (u : Uart8251) : List Byte :=
  if u.completesPayload then [u.transmitCharacter] else []

/-- What the data register is written. -/
def Op.written : Op → List Byte
  | .write registerIndex value => if hasBits registerIndex 0x01#8 then [] else [value]
  | _ => []

/-- What completes on TxC. -/
def Op.completed (u : Uart8251) : Op → List Byte
  | .transmitClockEdge => u.completedCharacter
  | _ => []

variable {u : Uart8251} {value : Byte}

/-! ## One edge -/

theorem finishTransmitFrame_eq (u : Uart8251) :
    u.finishTransmitFrame =
      if u.transmitActive && decide (u.transmitFrame.length ≤ u.transmitFrameIndex) then
        { u with
          transmittedBytes := u.transmittedBytes ++
            if u.transmitPayload && decide (u.transmittedBytes.length < hostTransmitQueueCapacity) then
              [u.transmitCharacter] else []
          transmitActive := false }
      else u := by
  unfold finishTransmitFrame
  by_cases hend : (u.transmitActive && decide (u.transmitFrame.length ≤ u.transmitFrameIndex)) = true
  · rw [if_pos hend, if_pos hend]
    by_cases hpush :
        (u.transmitPayload && decide (u.transmittedBytes.length < hostTransmitQueueCapacity)) = true
    · simp only [if_pos hpush]
    · simp only [if_neg hpush, List.append_nil]
  · rw [if_neg hend, if_neg hend]

theorem shiftOrLoad_transmittedBytes (u : Uart8251) :
    u.shiftOrLoad.transmittedBytes = u.transmittedBytes := by
  unfold shiftOrLoad
  split
  · rfl
  · split
    · rfl
    · split
      · rfl
      · split <;> rfl

/-- Loading the shift register, from the buffer or with a SYN character, loses no character. -/
theorem shiftOrLoad_underWay (u : Uart8251) : u.shiftOrLoad.underWay = u.underWay := by
  unfold shiftOrLoad
  cases hactive : u.transmitActive with
  | true =>
    rw [if_pos rfl]
    simp [underWay, shiftPayload, shiftTransmitBit]
  | false =>
    rw [if_neg (by simp)]
    split
    · simp [underWay, shiftPayload, hactive]
    · cases hbuffer : u.transmitBuffer with
      | some value =>
        simp [underWay, shiftPayload, shiftTransmitBit, buildTransmitFrame, hactive, hbuffer]
      | none =>
        dsimp only
        split <;> simp [underWay, shiftPayload, shiftTransmitBit, buildTransmitFrame, hactive, hbuffer]

/-- A TxC edge either leaves the frame alone or lets the transmitter advance. -/
theorem transmitClockEdge_cases (u : Uart8251) :
    (u.completesPayload = false ∧ ∃ high count, u.transmitClockEdge =
      { u with txdHigh := high, transmitClockCount := count }) ∨
    (u.completesPayload = (u.transmitActive
        && decide (u.transmitFrame.length ≤ u.transmitFrameIndex) && u.transmitPayload)
      ∧ u.transmitClockEdge
        = (finishTransmitFrame { u with transmitClockCount := 0 }).shiftOrLoad) := by
  unfold transmitClockEdge completesPayload
  cases hbreak : hasBits u.commandWord 0x08#8 with
  | true => exact .inl ⟨by simp, false, u.transmitClockCount, by simp⟩
  | false =>
    rw [if_neg (by simp)]
    by_cases hmore : u.transmitClockCount + 1 ≥ u.baudFactor
    · refine .inr ⟨by simp [hmore], ?_⟩
      rw [if_pos hmore, advanceTransmitter_eq]
    · have hless : decide (u.baudFactor ≤ u.transmitClockCount + 1) = false := decide_eq_false hmore
      refine .inl ⟨by simp [hless], u.txdHigh, u.transmitClockCount + 1, ?_⟩
      rw [if_neg hmore]

/-- What one TxC edge does to the queue of completed bytes. -/
theorem transmitClockEdge_transmittedBytes (u : Uart8251) :
    u.transmitClockEdge.transmittedBytes = u.transmittedBytes ++
      if u.transmittedBytes.length < hostTransmitQueueCapacity then u.completedCharacter else [] := by
  rcases transmitClockEdge_cases u with ⟨hmore, high, count, hedge⟩ | ⟨hlast, hedge⟩
  · rw [hedge, completedCharacter, hmore]
    simp
  · rw [hedge, shiftOrLoad_transmittedBytes, finishTransmitFrame_eq, completedCharacter, hlast]
    dsimp only
    cases u.transmitActive && decide (u.transmitFrame.length ≤ u.transmitFrameIndex) with
    | false => simp
    | true =>
      cases u.transmitPayload with
      | false => simp
      | true => simp

/-- With room in the queue a completed character is kept. -/
theorem transmitClockEdge_room
    (hroom : (!u.completesPayload
      || decide (u.transmittedBytes.length < hostTransmitQueueCapacity)) = true) :
    u.transmitClockEdge.transmittedBytes = u.transmittedBytes ++ u.completedCharacter := by
  rw [transmitClockEdge_transmittedBytes]
  cases hcompletes : u.completesPayload with
  | false => simp [completedCharacter, hcompletes]
  | true => rw [if_pos (by simpa [hcompletes] using hroom)]

/-- A character leaves the shift register only by completing. -/
theorem transmitClockEdge_underWay (u : Uart8251) :
    u.underWay = u.completedCharacter ++ u.transmitClockEdge.underWay := by
  rcases transmitClockEdge_cases u with ⟨hmore, high, count, hedge⟩ | ⟨hlast, hedge⟩
  · rw [hedge, completedCharacter, hmore]
    rfl
  · rw [hedge, shiftOrLoad_underWay, finishTransmitFrame_eq, completedCharacter, hlast]
    dsimp only
    cases hactive : u.transmitActive with
    | false => simp [underWay, shiftPayload, hactive]
    | true =>
      cases decide (u.transmitFrame.length ≤ u.transmitFrameIndex) with
      | false => simp [underWay, shiftPayload, hactive]
      | true => cases hpayload : u.transmitPayload <;> simp [underWay, shiftPayload, hactive, hpayload]

/-! ## Commands -/

/-- A command without the reset bit sets the command word, TxD and receive registers. -/
def CommandStep (u : Uart8251) (value : Byte) (u' : Uart8251) : Prop :=
  ∃ r high, u' = { u.withReceive r with commandWord := value, txdHigh := high }

theorem CommandStep.receive {u' u'' : Uart8251} (h : CommandStep u value u')
    (h' : ReceiveStep u' u'') : CommandStep u value u'' := by
  obtain ⟨r, high, rfl⟩ := h
  exact ⟨u''.receiveState, high, h'⟩

theorem acceptCommand_step (hreset : hasBits value 0x40#8 = false) :
    CommandStep u value (u.acceptCommand value) := by
  unfold acceptCommand
  rw [if_neg (by simp [hreset])]
  extract_lets commanded cleared hunting driven
  have hcommanded : CommandStep u value commanded := ⟨u.receiveState, u.txdHigh, rfl⟩
  have hcleared : CommandStep u value cleared := by
    refine hcommanded.receive ?_
    simp only [cleared]
    split <;> rfl
  have hhunting : CommandStep u value hunting := by
    refine hcleared.receive ?_
    simp only [hunting]
    split <;> rfl
  have hdriven : CommandStep u value driven := by
    obtain ⟨r, high, hr⟩ := hhunting
    simp only [driven]
    split
    · exact ⟨r, true, by rw [hr]⟩
    · exact ⟨r, high, hr⟩
  refine hdriven.receive ?_
  split <;> rfl

/-! ## Conservation -/

/-- After the initialization sequence of `mode`, nothing written yet. -/
structure Initialized (mode : Byte) (u : Uart8251) : Prop where
  phase : u.initializationPhase = .command
  modeWord : u.modeWord = mode
  inactive : u.transmitActive = false
  empty : u.transmitBuffer = none
  queue : u.transmittedBytes = []

/-- No reset, the data register written only when TXRDY is set, room when a payload completes. -/
def Op.orderly (u : Uart8251) : Op → Bool
  | .reset => false
  | .write registerIndex value =>
    if hasBits registerIndex 0x01#8 then !hasBits value 0x40#8 else u.txReady
  | .transmitClockEdge =>
    !u.completesPayload || decide (u.transmittedBytes.length < hostTransmitQueueCapacity)
  | _ => true

/-- A run from `start`: the characters written and the bytes the host has taken. -/
inductive TransmitRun (start : Uart8251) : Uart8251 → List Byte → List Byte → Prop where
  | start : TransmitRun start start [] []
  | step {u written taken} (op : Op) (h : TransmitRun start u written taken) (hop : op.orderly u = true) :
      TransmitRun start (u.apply op) (written ++ op.written) (taken ++ op.taken u)

theorem TransmitRun.run {start u : Uart8251} {written taken : List Byte}
    (h : TransmitRun start u written taken) {ops : List Op}
    (hops : ∀ entry ∈ Run.record apply u ops, entry.2.orderly entry.1 = true) :
    TransmitRun start (Run.run apply u ops)
      (written ++ (Run.record apply u ops).flatMap fun entry => entry.2.written)
      (taken ++ (Run.record apply u ops).flatMap fun entry => entry.2.taken entry.1) := by
  refine Run.lists_of_record ?_ h hops
  intro u written taken op h hop
  exact .step op h hop

/-- Every character written has been taken, is queued, or is under way. -/
structure Conserved (mode : Byte) (u : Uart8251) (written taken : List Byte) : Prop where
  phase : u.initializationPhase = .command
  modeWord : u.modeWord = mode
  bytes : written.map (character { modeWord := mode })
    = taken ++ (u.transmittedBytes ++ u.underWay)

variable {mode : Byte} {written taken : List Byte}

theorem Conserved.start (h : Initialized mode u) : Conserved mode u [] [] := by
  refine ⟨h.phase, h.modeWord, ?_⟩
  simp [underWay, shiftPayload, h.inactive, h.empty, h.queue]

theorem Conserved.beside (h : Conserved mode u written taken) (op : Op)
    (hop : op.besideTransmitter = true) (hnone : op.written = []) :
    Conserved mode (u.apply op) (written ++ op.written) (taken ++ op.taken u) := by
  obtain ⟨hphase, hmode, hbytes⟩ := h
  obtain ⟨r, bytes, cts, dsr, hr, htaken⟩ := @beside_step u op hop
  rw [hr, hnone, List.append_nil]
  refine ⟨hphase, hmode, ?_⟩
  have hnew : written.map (character { modeWord := mode })
      = taken ++ op.taken u ++ (bytes ++ u.underWay) := by
    rw [hbytes, htaken]
    simp only [List.append_assoc]
  exact hnew

theorem Conserved.command (h : Conserved mode u written taken)
    (hreset : hasBits value 0x40#8 = false) : Conserved mode (u.acceptCommand value) written taken := by
  obtain ⟨r, high, hr⟩ := @acceptCommand_step u value hreset
  rw [hr]
  exact ⟨h.phase, h.modeWord, h.bytes⟩

theorem Conserved.data (h : Conserved mode u written taken) (hready : u.txReady = true) :
    Conserved mode { u with transmitBuffer := some (value &&& u.characterMask) }
      (written ++ [value]) taken := by
  obtain ⟨hphase, hmode, hbytes⟩ := h
  have hempty : u.transmitBuffer = none := by
    simp only [txReady, Bool.and_eq_true, Option.isNone_iff_eq_none] at hready
    exact hready.2
  have hcharacter : character { modeWord := mode } value = value &&& u.characterMask :=
    of_mode (character · value) (fun _ => rfl) hmode.symm
  refine ⟨hphase, hmode, ?_⟩
  have hnew : (written ++ [value]).map (character { modeWord := mode })
      = taken ++ (u.transmittedBytes ++ (u.shiftPayload ++ [value &&& u.characterMask])) := by
    rw [List.map_append, hbytes, List.map_singleton, hcharacter, underWay, hempty]
    simp only [Option.toList_none, List.append_nil, List.append_assoc]
  exact hnew

theorem Conserved.edge (h : Conserved mode u written taken)
    (hroom : (!u.completesPayload
      || decide (u.transmittedBytes.length < hostTransmitQueueCapacity)) = true) :
    Conserved mode u.transmitClockEdge written taken := by
  obtain ⟨hphase, hmode, hbytes⟩ := h
  obtain ⟨t, ht⟩ : ∃ t, u.transmitClockEdge = u.withTransmit t := ⟨_, transmitClockEdge_step u⟩
  have hconfig : u.transmitClockEdge.initializationPhase = .command
      ∧ u.transmitClockEdge.modeWord = mode := by
    rw [ht]
    exact ⟨hphase, hmode⟩
  refine ⟨hconfig.1, hconfig.2, ?_⟩
  rw [transmitClockEdge_room hroom, hbytes, transmitClockEdge_underWay u, List.append_assoc]

theorem Conserved.step (h : Conserved mode u written taken) (op : Op)
    (hop : op.orderly u = true) :
    Conserved mode (u.apply op) (written ++ op.written) (taken ++ op.taken u) := by
  cases op with
  | reset => exact Bool.noConfusion hop
  | write registerIndex value =>
    have hwrite : (if hasBits registerIndex 0x01#8 then !hasBits value 0x40#8 else u.txReady)
        = true := hop
    have hgoal : Conserved mode
        (if hasBits registerIndex 0x01#8 then u.writeControl value
          else { u with transmitBuffer := some (value &&& u.characterMask) })
        (written ++ if hasBits registerIndex 0x01#8 then [] else [value]) (taken ++ []) := by
      rw [List.append_nil]
      by_cases hcontrol : hasBits registerIndex 0x01#8 = true
      · rw [if_pos hcontrol, Bool.not_eq_true'] at hwrite
        rw [if_pos hcontrol, if_pos hcontrol, List.append_nil, writeControl, h.phase]
        exact h.command hwrite
      · rw [if_neg hcontrol] at hwrite
        rw [if_neg hcontrol, if_neg hcontrol]
        exact h.data hwrite
    exact hgoal
  | transmitClockEdge =>
    have hgoal : Conserved mode u.transmitClockEdge (written ++ []) (taken ++ []) := by
      rw [List.append_nil, List.append_nil]
      exact h.edge hop
    exact hgoal
  | read | setCtsActive | setDsrActive | setRxd | setSyncDetect | receiveClockEdge
  | queueReceivedByte | clearQueuedReceiveBytes | takeTransmittedByte =>
    exact h.beside _ rfl rfl

/-- What is written is what has been taken, then queued, then in the shift register, then in the
buffer. -/
theorem transmit_conservation (mode : Byte) (start u : Uart8251) (written taken : List Byte)
    (hstart : Initialized mode start) (h : TransmitRun start u written taken) :
    written.map (character { modeWord := mode })
      = taken ++ u.transmittedBytes ++ u.shiftPayload ++ u.transmitBuffer.toList := by
  have hconserved : Conserved mode u written taken := by
    induction h with
    | start => exact .start hstart
    | step op _ hop ih => exact ih.step op hop
  rw [hconserved.bytes, underWay]
  simp only [List.append_assoc]

/-- The initialization sequence after a reset: a synchronous mode takes one or two SYN characters. -/
def afterInitialization (mode sync1 sync2 : Byte) : Uart8251 :=
  let u := ({} : Uart8251).write 1#8 mode
  if !u.synchronous then u
  else if hasBits mode 0x80#8 then u.write 1#8 sync1
  else (u.write 1#8 sync1).write 1#8 sync2

theorem afterInitialization_initialized (mode sync1 sync2 : Byte) :
    Initialized mode (afterInitialization mode sync1 sync2) := by
  by_cases hsync : mode &&& 0x03#8 = 0#8
  · by_cases hsingle : hasBits mode 0x80#8 = true
    · simp [afterInitialization, write, writeControl, acceptMode, synchronous, hasBits] at hsingle ⊢
      simp [hsync, hsingle]
      constructor <;> rfl
    · simp [afterInitialization, write, writeControl, acceptMode, synchronous, hasBits] at hsingle ⊢
      simp [hsync, hsingle]
      constructor <;> rfl
  · simp [afterInitialization, write, writeControl, acceptMode, synchronous, hasBits, hsync]
    constructor <;> rfl

/-- Of three characters one has been taken, one is on the line and one waits in the buffer. -/
theorem transmit_conservation_three :
    let start := afterInitialization 0x4E#8 0#8 0#8
    let ops := [.write 1#8 0x01#8, .write 0#8 0x41#8] ++ List.replicate 20 Op.transmitClockEdge ++
      [.write 0#8 0x42#8] ++ List.replicate 170 .transmitClockEdge ++ [.write 0#8 0x43#8, .takeTransmittedByte]
    let u := Run.run apply start ops
    [0x41#8, 0x42#8, 0x43#8].map (character { modeWord := 0x4E#8 }) =
        [0x41#8] ++ u.transmittedBytes ++ u.shiftPayload ++ u.transmitBuffer.toList ∧
      u.transmitBuffer = some 0x43#8 := by
  intro start ops u
  have hops : ∀ entry ∈ Run.record apply start ops, entry.2.orderly entry.1 = true := by decide +kernel
  have hrun := (@TransmitRun.start start).run hops
  have htaken : (Run.record apply start ops).flatMap (fun entry => entry.2.taken entry.1) = [0x41#8] := by
    decide +kernel
  rw [htaken] at hrun
  exact ⟨transmit_conservation 0x4E#8 start u [0x41#8, 0x42#8, 0x43#8] [0x41#8]
    (afterInitialization_initialized _ _ _) hrun, by decide +kernel⟩

/-! ## Completed bytes and guest actions -/

/-- Register accesses and clock edges. -/
def Op.guest : Op → Bool
  | .read _ | .write _ _ | .transmitClockEdge | .receiveClockEdge => true
  | _ => false

/-- The internal-reset command. -/
def Op.resets (u : Uart8251) : Op → Bool
  | .write registerIndex value =>
    hasBits registerIndex 0x01#8 && hasBits value 0x40#8 && u.initializationPhase == .command
  | _ => false

/-- A step that discards nothing: no internal reset over waiting bytes, room at completion. -/
def Op.keepsCompleted (u : Uart8251) : Op → Bool
  | .reset => false
  | .write registerIndex value =>
    !(Op.write registerIndex value).resets u || u.transmittedBytes.isEmpty
  | .transmitClockEdge =>
    !u.completesPayload || decide (u.transmittedBytes.length < hostTransmitQueueCapacity)
  | _ => true

/-- A run from `start`: the payload characters completed on TxC and the bytes the host has taken. -/
inductive CompletionRun (start : Uart8251) : Uart8251 → List Byte → List Byte → Prop where
  | start : CompletionRun start start start.transmittedBytes []
  | step {u completed taken} (op : Op) (h : CompletionRun start u completed taken)
      (hop : op.keepsCompleted u = true) :
      CompletionRun start (u.apply op) (completed ++ op.completed u) (taken ++ op.taken u)

theorem CompletionRun.run {start u : Uart8251} {completed taken : List Byte}
    (h : CompletionRun start u completed taken) {ops : List Op}
    (hops : ∀ entry ∈ Run.record apply u ops, entry.2.keepsCompleted entry.1 = true) :
    CompletionRun start (Run.run apply u ops)
      (completed ++ (Run.record apply u ops).flatMap fun entry => entry.2.completed entry.1)
      (taken ++ (Run.record apply u ops).flatMap fun entry => entry.2.taken entry.1) := by
  refine Run.lists_of_record ?_ h hops
  intro u completed taken op h hop
  exact .step op h hop

/-- A register write that is no internal reset. -/
inductive WriteStep (u : Uart8251) (value : Byte) : Uart8251 → Prop where
  | data : WriteStep u value { u with transmitBuffer := some (value &&& u.characterMask) }
  | mode : WriteStep u value (u.acceptMode value)
  | sync (character0 character1 : Byte) (count : Nat) (phase : InitializationPhase) :
      WriteStep u value
        { u with
          syncCharacter0 := character0
          syncCharacter1 := character1
          syncCharacterCount := count
          initializationPhase := phase }
  | command (hreset : hasBits value 0x40#8 = false) : WriteStep u value (u.acceptCommand value)

theorem write_step {registerIndex : Byte} (hkeep : (Op.write registerIndex value).resets u = false) :
    WriteStep u value (u.write registerIndex value) := by
  have hresets : (hasBits registerIndex 0x01#8 && hasBits value 0x40#8
      && u.initializationPhase == .command) = false := hkeep
  unfold write
  by_cases hcontrol : hasBits registerIndex 0x01#8 = true
  · rw [if_pos hcontrol]
    rw [hcontrol, Bool.true_and] at hresets
    unfold writeControl
    cases hphase : u.initializationPhase with
    | mode => exact .mode
    | sync1 => exact .sync ..
    | sync2 => exact .sync ..
    | command =>
      have hreset : hasBits value 0x40#8 = false := by simpa [hphase] using hresets
      exact .command hreset
  · rw [if_neg hcontrol]
    exact .data

/-- The internal reset leaves the state of a reset but for the input lines. -/
theorem write_resets {registerIndex : Byte} (hresets : (Op.write registerIndex value).resets u = true) :
    ∃ high, u.write registerIndex value =
      { ctsActive := u.ctsActive, dsrActive := u.dsrActive, rxdHigh := high } := by
  have hall : (hasBits registerIndex 0x01#8 && hasBits value 0x40#8
      && u.initializationPhase == .command) = true := hresets
  simp only [Bool.and_eq_true, beq_iff_eq] at hall
  obtain ⟨⟨hcontrol, hreset⟩, hphase⟩ := hall
  refine ⟨if u.queuedReceiveActive then true else u.rxdHigh, ?_⟩
  rw [write, if_pos hcontrol]
  simp only [writeControl, hphase, acceptCommand, if_pos hreset]
  rfl

theorem write_transmittedBytes (registerIndex value : Byte)
    (hkeep : (Op.write registerIndex value).resets u = false) :
    (u.write registerIndex value).transmittedBytes = u.transmittedBytes := by
  have hstep := write_step hkeep
  generalize u.write registerIndex value = u' at hstep ⊢
  cases hstep with
  | data | mode | sync => rfl
  | command hreset =>
    obtain ⟨r, high, hr⟩ := acceptCommand_step hreset
    rw [hr]
    rfl

/-- One step of the queue: what is taken leaves at the front, what completes joins at the end. -/
theorem apply_transmittedBytes (op : Op) (hkeep : op.keepsCompleted u = true) :
    op.taken u ++ (u.apply op).transmittedBytes = u.transmittedBytes ++ op.completed u := by
  have hbeside : op.besideTransmitter = true → op.completed u = [] →
      op.taken u ++ (u.apply op).transmittedBytes = u.transmittedBytes ++ op.completed u := by
    intro hop hnone
    obtain ⟨r, bytes, cts, dsr, hr, htaken⟩ := @beside_step u op hop
    rw [hnone, List.append_nil, hr, htaken]
    rfl
  cases op with
  | reset => exact Bool.noConfusion hkeep
  | write registerIndex value =>
    have hwrite : (!(Op.write registerIndex value).resets u || u.transmittedBytes.isEmpty) = true :=
      hkeep
    have hqueue : (u.write registerIndex value).transmittedBytes = u.transmittedBytes := by
      cases hresets : (Op.write registerIndex value).resets u with
      | false => exact write_transmittedBytes registerIndex value hresets
      | true =>
        have hempty : u.transmittedBytes = [] := by simpa [hresets] using hwrite
        obtain ⟨high, hu⟩ := write_resets hresets
        rw [hu, hempty]
    exact hqueue.trans (List.append_nil _).symm
  | transmitClockEdge =>
    exact transmitClockEdge_room hkeep
  | read | setCtsActive | setDsrActive | setRxd | setSyncDetect | receiveClockEdge
  | queueReceivedByte | clearQueuedReceiveBytes | takeTransmittedByte => exact hbeside rfl rfl

/-- A guest action keeps the queue as a prefix unless it is an internal reset over waiting bytes. -/
theorem guest_transmittedBytes (op : Op) (hguest : op.guest = true) :
    u.transmittedBytes <+: (u.apply op).transmittedBytes ↔
      ¬(op.resets u = true ∧ u.transmittedBytes ≠ []) := by
  cases op with
  | write registerIndex value =>
    cases hresets : (Op.write registerIndex value).resets u with
    | false =>
      have hqueue := write_transmittedBytes registerIndex value hresets
      simp [apply, hqueue]
    | true =>
      obtain ⟨high, hu⟩ := write_resets hresets
      simp [apply, hu]
  | transmitClockEdge =>
    have hqueue := transmitClockEdge_transmittedBytes u
    refine ⟨fun _ h => Bool.noConfusion h.1, fun _ => ⟨_, hqueue.symm⟩⟩
  | read registerIndex =>
    obtain ⟨r, hr⟩ : ∃ r, (u.read registerIndex).2 = u.withReceive r := ⟨_, read_step u registerIndex⟩
    refine ⟨fun _ h => Bool.noConfusion h.1, fun _ => ⟨[], ?_⟩⟩
    simp only [apply, hr, List.append_nil]
    rfl
  | receiveClockEdge =>
    obtain ⟨r, hr⟩ : ∃ r, u.receiveLineEdge = u.withReceive r := ⟨_, receiveLineEdge_step u⟩
    refine ⟨fun _ h => Bool.noConfusion h.1, fun _ => ⟨[], ?_⟩⟩
    simp only [apply, hr, List.append_nil]
    rfl
  | reset | setCtsActive | setDsrActive | setRxd | setSyncDetect | queueReceivedByte
  | clearQueuedReceiveBytes | takeTransmittedByte => exact Bool.noConfusion hguest

/-- Completed bytes reach the host in order in every run without an internal reset over waiting
bytes, the one guest action that discards them. -/
theorem completed_bytes_kept (u : Uart8251) (op : Op) (hguest : op.guest = true) :
    (u.transmittedBytes <+: (u.apply op).transmittedBytes ↔
      ¬(op.resets u = true ∧ u.transmittedBytes ≠ [])) ∧
    ∀ start completed taken, CompletionRun start u completed taken →
      completed = taken ++ u.transmittedBytes := by
  refine ⟨guest_transmittedBytes op hguest, fun start completed taken h => ?_⟩
  clear hguest op
  induction h with
  | start => rfl
  | step op _ hop ih => rw [ih, List.append_assoc, List.append_assoc, apply_transmittedBytes op hop]

/-- Two characters have been sent, and one of them taken, when an edge sends a third on. -/
theorem completed_bytes_kept_two :
    let ops := [.write 1#8 0x4E#8, .write 1#8 0x01#8, .write 0#8 0x41#8] ++
      List.replicate 20 Op.transmitClockEdge ++ [.write 0#8 0x42#8] ++
      List.replicate 170 .transmitClockEdge ++ [.takeTransmittedByte, .write 0#8 0x43#8] ++
      List.replicate 160 .transmitClockEdge
    let u := Run.run apply {} ops
    u.transmittedBytes = [0x42#8] ∧ u.transmittedBytes <+: u.transmitClockEdge.transmittedBytes ∧
      [0x41#8, 0x42#8] = [0x41#8] ++ u.transmittedBytes := by
  intro ops u
  have hops : ∀ entry ∈ Run.record apply {} ops, entry.2.keepsCompleted entry.1 = true := by
    decide +kernel
  have hrun := (@CompletionRun.start {}).run hops
  have htaken : (Run.record apply {} ops).flatMap (fun entry => entry.2.taken entry.1) = [0x41#8] := by
    decide +kernel
  have hcompleted : (Run.record apply {} ops).flatMap (fun entry => entry.2.completed entry.1) =
      [0x41#8, 0x42#8] := by decide +kernel
  rw [htaken, hcompleted] at hrun
  obtain ⟨hkept, hall⟩ := completed_bytes_kept u .transmitClockEdge rfl
  exact ⟨by decide +kernel, hkept.mpr (by decide), hall _ _ _ hrun⟩

/-- 0x41 sent in the mode 0x4E, its frame just over. -/
def sentOne : Uart8251 :=
  Run.run apply {} ([.write 1#8 0x4E#8, .write 1#8 0x01#8, .write 0#8 0x41#8]
    ++ List.replicate 176 .transmitClockEdge)

theorem reset_discards_completed :
    ∃ (u : Uart8251) (op : Op), Run.Reachable apply {} u ∧ op.guest = true
      ∧ ¬u.transmittedBytes <+: (u.apply op).transmittedBytes := by
  have hdiscards : ¬sentOne.transmittedBytes
      <+: (sentOne.apply (.write 1#8 0x40#8)).transmittedBytes := by decide +kernel
  exact ⟨sentOne, .write 1#8 0x40#8, ⟨_, rfl⟩, rfl, hdiscards⟩

end Uart8251
end FK1
