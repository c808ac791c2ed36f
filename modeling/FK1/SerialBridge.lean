import FK1.GuestRun
import FK1.SerialTcp

/-!
# FK1.SerialBridge

`synchronize_serial` of `main.cpp` between the machine and the TCP link, and runs in which it
alternates with the guest in any way.

`accepted` and `taken` are ghosts: the bytes the machine has accepted and those taken from it, each
with the number of the link's connection.
-/

namespace FK1

/-- The machine, the serial link and the locals of `main` that `synchronize_serial` works on, when a
serial endpoint was given. -/
structure SerialBridge (σ : Type) where
  machine : Machine σ
  link : TcpSerialLink
  pendingSerialInput : Option Byte := none
  pendingSerialOutput : Option Byte := none
  status : String := "Ready"
  accepted : List (Nat × Byte) := []
  taken : List (Nat × Byte) := []

namespace SerialBridge

variable {σ : Type}

def board (s : SerialBridge σ) : Board := s.machine.board

def withBoard (s : SerialBridge σ) (board : Board) : SerialBridge σ :=
  { s with machine := { s.machine with board := board } }

/-- `poll`, and the loop over `take_status_message`: the last message stays in the status line. -/
def pollLink (s : SerialBridge σ) (answers : PollAnswers) : SerialBridge σ :=
  let link := s.link.poll answers
  { s with
    link := { link with messages := [] }
    status := link.messages.getLastD s.status }

def setSerialConnected (s : SerialBridge σ) (connected : Bool) : SerialBridge σ :=
  s.withBoard (s.board.setSerialConnected connected)

def resetPending (s : SerialBridge σ) : SerialBridge σ :=
  { s with pendingSerialInput := none, pendingSerialOutput := none }

/-- The machine follows the link after the first poll. -/
def followLink (s : SerialBridge σ) : SerialBridge σ :=
  if s.board.serialConnected != s.link.connected then
    let s := s.setSerialConnected s.link.connected
    if !s.link.connected then s.resetPending else s
  else s

/-! ## Input -/

/-- The machine has accepted `value`. -/
def logAccepted (s : SerialBridge σ) (value : Byte) : SerialBridge σ :=
  { s with accepted := s.accepted ++ Relay.stamp s.link.connections [value] }

def retryInput (s : SerialBridge σ) : SerialBridge σ :=
  match s.pendingSerialInput with
  | none => s
  | some value =>
    let (accepted, board) := s.board.queueSerialReceivedByte value
    let s := s.withBoard board
    if accepted then { s with pendingSerialInput := none }.logAccepted value else s

/-- The loop that moves bytes from the link to the machine; a round takes one byte of the link's
queue, so one more round than that is enough. -/
def inputLoop : Nat → SerialBridge σ → SerialBridge σ
  | 0, s => s
  | fuel + 1, s =>
    if s.pendingSerialInput.isSome then s
    else match s.link.takeReceivedByte with
      | (none, _) => s
      | (some byte, link) =>
        let (accepted, board) := s.board.queueSerialReceivedByte byte
        let s := { s with link := link }.withBoard board
        inputLoop fuel
          (if accepted then s.logAccepted byte else { s with pendingSerialInput := some byte })

/-! ## Output -/

def retryOutput (s : SerialBridge σ) : SerialBridge σ :=
  match s.pendingSerialOutput with
  | none => s
  | some value =>
    let (queued, link) := s.link.queueTransmit value
    if queued then { s with link := link, pendingSerialOutput := none } else s

/-- `byte` has been taken from the machine. -/
def logTaken (s : SerialBridge σ) (byte : Byte) : SerialBridge σ :=
  { s with taken := s.taken ++ Relay.stamp s.link.connections [byte] }

/-- The loop that moves bytes from the machine to the link. -/
def outputLoop : Nat → SerialBridge σ → SerialBridge σ
  | 0, s => s
  | fuel + 1, s =>
    if s.pendingSerialOutput.isSome then s
    else match s.board.takeSerialTransmittedByte with
      | (none, _) => s
      | (some byte, board) =>
        let (queued, link) := s.link.queueTransmit byte
        let s := (s.withBoard board).logTaken byte
        outputLoop fuel
          (if queued then { s with link := link } else { s with pendingSerialOutput := some byte })

/-! ## `synchronize_serial` -/

/-- The part between the two polls. -/
def transfer (s : SerialBridge σ) : SerialBridge σ :=
  let s := s.retryInput
  let s := inputLoop (s.link.incoming.length + 1) s
  let s := s.retryOutput
  let s := outputLoop (s.board.uart.transmittedBytes.length + 1) s
  s.withBoard (s.board.setSerialClearToSend s.pendingSerialOutput.isNone)

def synchronizeSerial (s : SerialBridge σ) (first second : PollAnswers) : SerialBridge σ :=
  let s := (s.pollLink first).followLink
  if !s.link.connected then s
  else
    let s := s.transfer.pollLink second
    if s.board.serialConnected != s.link.connected then
      (s.setSerialConnected s.link.connected).resetPending
    else s

/-- `main` with a serial endpoint, once the machine has been set up. -/
def startup (machine : Machine σ) (mode : TcpSerialMode) (endpoint : TcpEndpoint)
    (listener : ListenerAnswer) (answers : PollAnswers) : Except String (SerialBridge σ) :=
  match TcpSerialLink.start {} mode endpoint listener answers with
  | .error error => .error error
  | .ok link =>
    .ok ({ machine := machine, link := link : SerialBridge σ }.setSerialConnected link.connected)

/-- What happens while the main loop runs: the guest does anything but the serial operations. -/
inductive Event where
  | synchronize (first second : PollAnswers)
  | guest (op : { op : Machine.Op // op.serial = false })

def step (z : Z80 σ) (s : SerialBridge σ) : Event → SerialBridge σ
  | .synchronize first second => s.synchronizeSerial first second
  | .guest op => { s with machine := s.machine.step z op.val }

/-! ## What every step keeps -/

/-- Within a connection, the machine follows the link and nothing is lost between the two. -/
structure Joined (s : SerialBridge σ) : Prop where
  machine : s.board.serialConnected = true
  link : s.link.Up s.accepted s.taken s.pendingSerialInput.toList s.pendingSerialOutput.toList

/-- Between connections nothing is held. -/
structure Parted (s : SerialBridge σ) : Prop where
  machine : s.board.serialConnected = false
  input : s.pendingSerialInput = none
  output : s.pendingSerialOutput = none
  link : s.link.Down s.accepted s.taken

variable {s : SerialBridge σ}

theorem queueSerialReceivedByte_connected (b : Board) (value : Byte) :
    (b.queueSerialReceivedByte value).2.serialConnected = b.serialConnected := by
  unfold Board.queueSerialReceivedByte
  split <;> rfl

theorem setSerialClearToSend_connected (b : Board) (clear : Bool) :
    (b.setSerialClearToSend clear).serialConnected = b.serialConnected :=
  congrArg Board.SerialSide.connected (Board.refresh_serialSide _)

theorem setSerialConnected_connected (b : Board) (connected : Bool) :
    (b.setSerialConnected connected).serialConnected = connected :=
  congrArg Board.SerialSide.connected (Board.refresh_serialSide _)

theorem Joined.withBoard (h : s.Joined) {board : Board}
    (hboard : board.serialConnected = s.board.serialConnected) : (s.withBoard board).Joined :=
  ⟨hboard.trans h.machine, h.link⟩

theorem Joined.retryInput (h : s.Joined) : s.retryInput.Joined := by
  unfold SerialBridge.retryInput
  split
  · exact h
  next value hvalue =>
    have hqueue := queueSerialReceivedByte_connected s.board value
    generalize s.board.queueSerialReceivedByte value = result at hqueue
    obtain ⟨accepted, board⟩ := result
    dsimp only at hqueue ⊢
    split
    · have hlink := h.link
      rw [hvalue] at hlink
      exact ⟨hqueue.trans h.machine, hlink.accept⟩
    · exact h.withBoard hqueue

theorem Joined.inputLoop (h : s.Joined) (fuel : Nat) : (inputLoop fuel s).Joined := by
  induction fuel generalizing s with
  | zero => exact h
  | succ fuel ih =>
    unfold SerialBridge.inputLoop
    split
    · exact h
    next hsome =>
      have hnone : s.pendingSerialInput = none := by simpa using hsome
      cases htake : s.link.takeReceivedByte with
      | mk byte link =>
        cases byte with
        | none => exact h
        | some byte =>
          have hqueue := queueSerialReceivedByte_connected s.board byte
          have hlink := h.link
          rw [hnone] at hlink
          have htaken := hlink.takeReceivedByte htake
          dsimp only
          generalize s.board.queueSerialReceivedByte byte = result at hqueue
          obtain ⟨accepted, board⟩ := result
          cases accepted with
          | true =>
            refine ih ⟨hqueue.trans h.machine, ?_⟩
            have haccept := htaken.accept
            simpa [SerialBridge.logAccepted, SerialBridge.withBoard, hnone] using haccept
          | false => exact ih ⟨hqueue.trans h.machine, htaken⟩

theorem Joined.retryOutput (h : s.Joined) : s.retryOutput.Joined := by
  unfold SerialBridge.retryOutput
  split
  · exact h
  next value hvalue =>
    have hlink := h.link
    rw [hvalue] at hlink
    rcases hlink.queueTransmit with ⟨link', hqueue, hlink'⟩ | hqueue
    · rw [hqueue]
      exact ⟨h.machine, hlink'⟩
    · rw [hqueue]
      exact h

theorem Joined.outputLoop (h : s.Joined) (fuel : Nat) : (outputLoop fuel s).Joined := by
  induction fuel generalizing s with
  | zero => exact h
  | succ fuel ih =>
    unfold SerialBridge.outputLoop
    split
    · exact h
    next hsome =>
      have hnone : s.pendingSerialOutput = none := by simpa using hsome
      cases htake : s.board.takeSerialTransmittedByte with
      | mk byte board =>
        cases byte with
        | none => exact h
        | some byte =>
          have hboard : board.serialConnected = s.board.serialConnected :=
            (congrArg (fun result => result.2.serialConnected) htake).symm
          have hlink := h.link
          rw [hnone] at hlink
          have htaken := hlink.take byte
          dsimp only
          rcases htaken.queueTransmit with ⟨link', hqueue, hlink'⟩ | hqueue
          · rw [hqueue]
            refine ih ⟨hboard.trans h.machine, ?_⟩
            simpa [SerialBridge.logTaken, SerialBridge.withBoard, hnone] using hlink'
          · rw [hqueue]
            exact ih ⟨hboard.trans h.machine, htaken⟩

theorem Joined.transfer (h : s.Joined) : s.transfer.Joined := by
  have hinput := h.retryInput.inputLoop (s.retryInput.link.incoming.length + 1)
  have houtput := hinput.retryOutput.outputLoop
    ((SerialBridge.inputLoop (s.retryInput.link.incoming.length + 1) s.retryInput
      ).retryOutput.board.uart.transmittedBytes.length + 1)
  exact houtput.withBoard (setSerialClearToSend_connected _ _)

/-- The state between two events of a run. -/
def Linked (s : SerialBridge σ) : Prop := s.Joined ∨ s.Parted

theorem followLink_same (h : s.board.serialConnected = s.link.connected) : s.followLink = s := by
  rw [followLink, h]
  exact if_neg (by simp)

theorem followLink_up (hmachine : s.board.serialConnected = false) (hlink : s.link.connected = true) :
    s.followLink = s.setSerialConnected true := by
  simp [followLink, hmachine, hlink, setSerialConnected, withBoard]

theorem followLink_down (hmachine : s.board.serialConnected = true)
    (hlink : s.link.connected = false) :
    s.followLink = (s.setSerialConnected false).resetPending := by
  simp [followLink, hmachine, hlink, setSerialConnected, withBoard]

/-- The end of a connection: everything held is gone. -/
theorem parted_of_down (h : s.link.Down s.accepted s.taken) :
    (s.setSerialConnected false).resetPending.Parted :=
  ⟨setSerialConnected_connected _ _, rfl, rfl, h⟩

/-- After the first poll the machine follows the link, and a new connection finds nothing held. -/
theorem Linked.followLink (h : s.Linked) (answers : PollAnswers) :
    (s.pollLink answers).followLink.Linked := by
  rcases h with h | h
  · have hmachine : (s.pollLink answers).board.serialConnected = true := h.machine
    rcases h.link.poll answers with hup | hdown
    · rw [followLink_same (hmachine.trans hup.showMessages.state.symm)]
      exact .inl ⟨hmachine, hup.showMessages⟩
    · rw [followLink_down hmachine hdown.showMessages.state]
      exact .inr (parted_of_down hdown.showMessages)
  · have hmachine : (s.pollLink answers).board.serialConnected = false := h.machine
    rcases h.link.poll answers with hdown | hup
    · rw [followLink_same (hmachine.trans hdown.showMessages.state.symm)]
      exact .inr ⟨hmachine, h.input, h.output, hdown.showMessages⟩
    · rw [followLink_up hmachine hup.showMessages.state]
      refine .inl ⟨setSerialConnected_connected _ _, ?_⟩
      have hinput : (s.pollLink answers).pendingSerialInput = none := h.input
      have houtput : (s.pollLink answers).pendingSerialOutput = none := h.output
      have hlink : (s.pollLink answers).link.Up (s.pollLink answers).accepted
          (s.pollLink answers).taken [] [] := hup.showMessages
      simpa [setSerialConnected, withBoard, hinput, houtput] using hlink

theorem Linked.synchronizeSerial (h : s.Linked) (first second : PollAnswers) :
    (s.synchronizeSerial first second).Linked := by
  have hfollow := h.followLink first
  unfold SerialBridge.synchronizeSerial
  generalize (s.pollLink first).followLink = s at hfollow ⊢
  dsimp only
  rcases hfollow with h | h
  · rw [if_neg (by simp [h.link.state])]
    have htransfer := h.transfer
    have hmachine : (s.transfer.pollLink second).board.serialConnected = true := htransfer.machine
    rw [hmachine]
    rcases htransfer.link.poll second with hup | hdown
    · have hconnected : (s.transfer.pollLink second).link.connected = true := hup.showMessages.state
      rw [hconnected, if_neg (by decide)]
      exact .inl ⟨hmachine, hup.showMessages⟩
    · have hconnected : (s.transfer.pollLink second).link.connected = false :=
        hdown.showMessages.state
      rw [hconnected, if_pos (by decide)]
      exact .inr (parted_of_down hdown.showMessages)
  · rw [if_pos (by simp [h.link.state])]
    exact .inr h

theorem Linked.step (z : Z80 σ) (h : s.Linked) (event : Event) : (s.step z event).Linked := by
  cases event with
  | synchronize first second => exact h.synchronizeSerial first second
  | guest op =>
    have hconnected := (Machine.step_serialSettings z s.machine op.property).2.1
    rcases h with h | h
    · exact .inl ⟨hconnected.trans h.machine, h.link⟩
    · exact .inr ⟨hconnected.trans h.machine, h.input, h.output, h.link⟩

/-- `main` begins with nothing held, connected or not. -/
theorem startup_linked {machine : Machine σ} {mode : TcpSerialMode} {endpoint : TcpEndpoint}
    {listener : ListenerAnswer} {answers : PollAnswers}
    (hstart : startup machine mode endpoint listener answers = .ok s) : s.Linked := by
  unfold startup at hstart
  cases hlink : TcpSerialLink.start {} mode endpoint listener answers with
  | error error =>
    rw [hlink] at hstart
    cases hstart
  | ok link =>
    rw [hlink] at hstart
    cases hstart
    rcases TcpSerialLink.start_down_or_up hlink with hdown | hup
    · have hconnected : link.connected = false := hdown.state
      rw [hconnected]
      exact .inr ⟨setSerialConnected_connected _ _, rfl, rfl, hdown⟩
    · have hconnected : link.connected = true := hup.state
      rw [hconnected]
      exact .inl ⟨setSerialConnected_connected _ _, hup⟩

/-! ## The bridge is a relay -/

open Relay in
/-- Within a connection both directions are first-in first-out with nothing lost, in bounded queues;
in every connection the guest accepts what was received in it and the peer is sent what was taken in
it; and without a connection nothing is held. -/
theorem bridge_fifo (z : Z80 σ) (machine : Machine σ) (mode : TcpSerialMode)
    (endpoint : TcpEndpoint) (listener : ListenerAnswer) (answers : PollAnswers)
    (s₀ : SerialBridge σ) (hstart : startup machine mode endpoint listener answers = .ok s₀)
    (events : List Event) :
    let s := Run.run (step z) s₀ events
    (s.link.connected = true →
      during s.link.connections s.link.received = during s.link.connections s.accepted
          ++ (s.pendingSerialInput.toList ++ s.link.incoming)
        ∧ during s.link.connections s.taken = during s.link.connections s.link.sent
          ++ (s.link.outgoing ++ s.pendingSerialOutput.toList))
      ∧ s.link.incoming.length ≤ TcpSerialLink.queueCapacity
      ∧ s.link.outgoing.length ≤ TcpSerialLink.queueCapacity
      ∧ (∀ n, during n s.accepted <+: during n s.link.received
          ∧ during n s.link.sent <+: during n s.taken)
      ∧ (s.link.connected = false →
          s.link.incoming = [] ∧ s.link.outgoing = []
            ∧ s.pendingSerialInput = none ∧ s.pendingSerialOutput = none) := by
  have hlinked : (Run.run (step z) s₀ events).Linked :=
    Run.run_invariant (fun _ event h => h.step z event) (startup_linked hstart) events
  intro s
  rcases hlinked with h | h
  · refine ⟨fun _ => ⟨h.link.receives.conserved, h.link.sends.conserved⟩, h.link.incoming,
      h.link.outgoing, fun n => ⟨h.link.receives.order n, h.link.sends.order n⟩, fun hdown => ?_⟩
    exact Bool.noConfusion (h.link.state.symm.trans hdown)
  · refine ⟨fun hup => Bool.noConfusion (h.link.state.symm.trans hup), ?_, ?_,
      fun n => ⟨h.link.receives.order n, h.link.sends.order n⟩,
      fun _ => ⟨h.link.incoming, h.link.outgoing, h.input, h.output⟩⟩
    · rw [h.link.incoming]
      exact Nat.zero_le _
    · rw [h.link.outgoing]
      exact Nat.zero_le _

/-- A peer connects to a listening link and sends two bytes. -/
theorem bridge_fifo_two_bytes :
    let z : Z80 Unit := { power := (), instantReset := id, run := fun _ => .done 4 () }
    let events : List Event :=
      [.synchronize { accepting := .peer } { receives := [.bytes [0x41#8, 0x42#8]] },
        .guest ⟨.runCycles 8, rfl⟩, .synchronize {} {}]
    ∃ s₀, startup (Machine.power z []) .listen { host := "localhost", port := 7000 } .listening {}
        = .ok s₀
      ∧ (Run.run (step z) s₀ events).link.connected = true
      ∧ Relay.during 1 (Run.run (step z) s₀ events).accepted = [0x41#8, 0x42#8]
      ∧ ∀ n, Relay.during n (Run.run (step z) s₀ events).accepted
          <+: Relay.during n (Run.run (step z) s₀ events).link.received := by
  intro z events
  refine ⟨_, rfl, by decide +kernel, by decide +kernel, fun n => ?_⟩
  exact ((bridge_fifo z (Machine.power z []) .listen { host := "localhost", port := 7000 }
    .listening {} _ rfl events).2.2.2.1 n).1

end SerialBridge
end FK1
