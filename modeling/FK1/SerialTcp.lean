import FK1.Ppi8255
import FK1.Lib.Relay

/-!
# FK1.SerialTcp

`TcpSerialLink` as `serial_tcp.cpp` has it. What the operating system answers during a poll is an
argument, in `PollAnswers`; where the answers to `send` or `recv` run out, the next one would block.

`received`, `sent` and `connections` are ghosts: the bytes that came from the peer and went to it,
each with the number of its connection.
-/

namespace FK1

structure TcpEndpoint where
  host : String
  port : Nat
  deriving DecidableEq, Repr

inductive TcpSerialMode where
  | listen
  | connect
  deriving DecidableEq, Repr

inductive LinkState where
  | stopped
  | listening
  | reconnectWait
  | connecting
  | connected
  deriving DecidableEq, Repr

def endpointText (endpoint : TcpEndpoint) : String :=
  if endpoint.host.contains ':' then "[" ++ endpoint.host ++ "]:" ++ toString endpoint.port
  else endpoint.host ++ ":" ++ toString endpoint.port

/-! ## What the operating system answers -/

/-- `accept` on the listener, and `set_nonblocking` on what it accepted. -/
inductive AcceptAnswer where
  | nobody
  | blocking
  | peer
  deriving DecidableEq, Repr

/-- One address of `begin_connect`: `failed` is a failure of `socket`, `set_nonblocking` or
`connect`. -/
inductive ConnectAnswer where
  | failed (error : Int)
  | connected
  | wouldBlock
  deriving DecidableEq, Repr

/-- `getaddrinfo`; an unresolved endpoint comes with the text of its error. -/
inductive ResolveAnswer where
  | unresolved (error : String)
  | addresses (attempts : List ConnectAnswer)
  deriving DecidableEq, Repr

/-- `select` on a connecting socket, and `getsockopt` with the result and the error it reads. -/
inductive SelectAnswer where
  | nothing
  | ready (succeeded : Bool) (error : Int)
  deriving DecidableEq, Repr

/-- `send`: a count of 0 is a result of 0. -/
inductive SendAnswer where
  | bytes (count : Nat)
  | wouldBlock
  | failed
  deriving DecidableEq, Repr

/-- `recv`: what the peer's stream goes on with, empty when it has been closed. -/
inductive RecvAnswer where
  | bytes (values : List Byte)
  | wouldBlock
  | failed
  deriving DecidableEq, Repr

/-- The answers of one poll. `now` is the clock it compares with `retry_at`, `later` the clock when it
schedules a retry, both in milliseconds. -/
structure PollAnswers where
  now : Nat := 0
  later : Nat := 0
  accepting : AcceptAnswer := .nobody
  resolution : ResolveAnswer := .addresses []
  selecting : SelectAnswer := .nothing
  sends : List SendAnswer := []
  receives : List RecvAnswer := []
  deriving DecidableEq, Repr

/-- `open_listener`. -/
inductive ListenerAnswer where
  | unresolved (error : String)
  | refused (error : Int)
  | listening
  deriving DecidableEq, Repr

structure TcpSerialLink where
  mode : TcpSerialMode := .listen
  endpoint : TcpEndpoint := { host := "", port := 0 }
  state : LinkState := .stopped
  retryAt : Nat := 0
  incoming : List Byte := []
  outgoing : List Byte := []
  messages : List String := []
  connections : Nat := 0
  received : List (Nat × Byte) := []
  sent : List (Nat × Byte) := []
  deriving DecidableEq, Repr

namespace TcpSerialLink

def queueCapacity : Nat := 4096

/-- The buffers of `send_pending` and `receive_pending`. -/
def bufferSize : Nat := 1024

/-- One second. -/
def retryDelay : Nat := 1000

def connected (link : TcpSerialLink) : Bool := link.state == .connected

/-! ## Connecting and disconnecting -/

def markConnected (link : TcpSerialLink) : TcpSerialLink :=
  { link with
    incoming := []
    outgoing := []
    state := .connected
    messages := link.messages ++ ["Serial link connected"]
    connections := link.connections + 1 }

def scheduleReconnect (link : TcpSerialLink) (later : Nat) (message : String) : TcpSerialLink :=
  { link with
    incoming := []
    outgoing := []
    state := .reconnectWait
    retryAt := later + retryDelay
    messages := link.messages ++ [message] }

def disconnectPeer (link : TcpSerialLink) (later : Nat) : TcpSerialLink :=
  let link := { link with
    incoming := []
    outgoing := []
    messages := link.messages ++ ["Serial link disconnected"] }
  match link.mode with
  | .listen => { link with state := .listening }
  | .connect => { link with state := .reconnectWait, retryAt := later + retryDelay }

def connectFailed (error : Int) : String :=
  "Serial connect failed (socket error " ++ toString error ++ "); retrying"

/-- The loop of `begin_connect` over the addresses. -/
def tryAddresses (link : TcpSerialLink) (later : Nat) : Int → List ConnectAnswer → TcpSerialLink
  | lastError, [] => link.scheduleReconnect later (connectFailed lastError)
  | _, .failed error :: rest => tryAddresses link later error rest
  | _, .connected :: _ => link.markConnected
  | _, .wouldBlock :: _ => { link with state := .connecting }

def beginConnect (link : TcpSerialLink) (answers : PollAnswers) : Except String TcpSerialLink :=
  match answers.resolution with
  | .unresolved error => .error error
  | .addresses attempts => .ok (link.tryAddresses answers.later 0 attempts)

def openListener (link : TcpSerialLink) : ListenerAnswer → Except String TcpSerialLink
  | .unresolved error => .error error
  | .refused error =>
    .error ("cannot listen on TCP endpoint " ++ endpointText link.endpoint ++ " (socket error "
      ++ toString error ++ ")")
  | .listening =>
    .ok { link with
      state := .listening
      messages := link.messages ++ ["Serial listening on " ++ endpointText link.endpoint] }

def start (link : TcpSerialLink) (mode : TcpSerialMode) (endpoint : TcpEndpoint)
    (listener : ListenerAnswer) (answers : PollAnswers) : Except String TcpSerialLink :=
  if link.state != .stopped then .error "TCP serial link is already started"
  else
    let link := { link with mode := mode, endpoint := endpoint }
    match mode with
    | .listen => link.openListener listener
    | .connect =>
      { link with
        messages := link.messages ++ ["Serial connecting to " ++ endpointText link.endpoint]
      }.beginConnect answers

/-! ## Polling -/

def pollListener (link : TcpSerialLink) : AcceptAnswer → TcpSerialLink
  | .peer => link.markConnected
  | _ => link

def pollConnecting (link : TcpSerialLink) (later : Nat) : SelectAnswer → TcpSerialLink
  | .nothing => link
  | .ready succeeded error =>
    if succeeded && error == 0 then link.markConnected
    else link.scheduleReconnect later (connectFailed error)

/-- The first `count` bytes of `outgoing` have been sent. -/
def popSent (link : TcpSerialLink) (count : Nat) : TcpSerialLink :=
  { link with
    outgoing := link.outgoing.drop count
    sent := link.sent ++ Relay.stamp link.connections (link.outgoing.take count) }

def sendPending (link : TcpSerialLink) (later : Nat) : List SendAnswer → TcpSerialLink
  | [] => link
  | answer :: rest =>
    if link.outgoing.isEmpty then link
    else
      let count := min bufferSize link.outgoing.length
      match answer with
      | .bytes accepted =>
        if min accepted count = 0 then link.disconnectPeer later
        else (link.popSent (min accepted count)).sendPending later rest
      | .wouldBlock => link
      | .failed => link.disconnectPeer later

def pushReceived (link : TcpSerialLink) (values : List Byte) : TcpSerialLink :=
  { link with
    incoming := link.incoming ++ values
    received := link.received ++ Relay.stamp link.connections values }

def receivePending (link : TcpSerialLink) (later : Nat) : List RecvAnswer → TcpSerialLink
  | [] => link
  | answer :: rest =>
    if link.incoming.length ≥ queueCapacity then link
    else
      let capacity := min bufferSize (queueCapacity - link.incoming.length)
      match answer with
      | .bytes values =>
        if (values.take capacity).isEmpty then link.disconnectPeer later
        else (link.pushReceived (values.take capacity)).receivePending later rest
      | .wouldBlock => link
      | .failed => link.disconnectPeer later

def poll (link : TcpSerialLink) (answers : PollAnswers) : TcpSerialLink :=
  match link.state with
  | .listening => link.pollListener answers.accepting
  | .reconnectWait =>
    if answers.now ≥ link.retryAt then
      match link.beginConnect answers with
      | .ok link => link
      | .error error => link.scheduleReconnect answers.later (error ++ "; retrying")
    else link
  | .connecting => link.pollConnecting answers.later answers.selecting
  | .connected =>
    let link := link.sendPending answers.later answers.sends
    if link.state == .connected then link.receivePending answers.later answers.receives else link
  | .stopped => link

/-! ## The queues -/

def queueTransmit (link : TcpSerialLink) (value : Byte) : Bool × TcpSerialLink :=
  if !link.connected || link.outgoing.length ≥ queueCapacity then (false, link)
  else (true, { link with outgoing := link.outgoing ++ [value] })

def takeReceivedByte (link : TcpSerialLink) : Option Byte × TcpSerialLink :=
  match link.incoming with
  | [] => (none, link)
  | value :: rest => (some value, { link with incoming := rest })

def takeStatusMessage (link : TcpSerialLink) : Option String × TcpSerialLink :=
  match link.messages with
  | [] => (none, link)
  | message :: rest => (some message, { link with messages := rest })

/-! ## What a poll keeps -/

open Relay

/-- Without a connection the queues are empty. `accepted` and `taken` are the logs of the other end:
what the machine has accepted, and what was taken from it. -/
structure Down (link : TcpSerialLink) (accepted taken : List (Nat × Byte)) : Prop where
  state : link.connected = false
  incoming : link.incoming = []
  outgoing : link.outgoing = []
  receives : Ordered link.connections link.received accepted
  sends : Ordered link.connections taken link.sent

/-- Within a connection `input` is held behind the incoming queue, and `output` before the outgoing
one. -/
structure Up (link : TcpSerialLink) (accepted taken : List (Nat × Byte)) (input output : List Byte) :
    Prop where
  state : link.connected = true
  incoming : link.incoming.length ≤ queueCapacity
  outgoing : link.outgoing.length ≤ queueCapacity
  receives : Holds link.connections link.received accepted (input ++ link.incoming)
  sends : Holds link.connections taken link.sent (link.outgoing ++ output)

variable {link : TcpSerialLink} {accepted taken : List (Nat × Byte)} {input output : List Byte}

theorem connected_of_state {state : LinkState} (hstate : link.state = state)
    (h : link.connected = false) : state ≠ .connected := by
  rintro rfl
  simp [connected, hstate] at h

theorem Down.of_state (h : link.Down accepted taken) {state : LinkState}
    (hstate : state ≠ .connected) (retryAt : Nat) (messages : List String) :
    Down { link with state := state, retryAt := retryAt, messages := messages } accepted taken := by
  refine ⟨?_, h.incoming, h.outgoing, h.receives, h.sends⟩
  simp [connected, hstate]

theorem Down.showMessages (h : link.Down accepted taken) :
    Down { link with messages := [] } accepted taken :=
  ⟨h.state, h.incoming, h.outgoing, h.receives, h.sends⟩

theorem Up.showMessages (h : link.Up accepted taken input output) :
    Up { link with messages := [] } accepted taken input output :=
  ⟨h.state, h.incoming, h.outgoing, h.receives, h.sends⟩

theorem Down.markConnected (h : link.Down accepted taken) :
    link.markConnected.Up accepted taken [] [] :=
  ⟨rfl, Nat.zero_le _, Nat.zero_le _, h.receives.restart, h.sends.restart⟩

theorem Down.scheduleReconnect (h : link.Down accepted taken) (later : Nat) (message : String) :
    (link.scheduleReconnect later message).Down accepted taken :=
  ⟨rfl, rfl, rfl, h.receives, h.sends⟩

/-- A connection that ends. -/
theorem Up.disconnectPeer (h : link.Up accepted taken input output) (later : Nat) :
    (link.disconnectPeer later).Down accepted taken := by
  have hreceives := h.receives.toOrdered
  have hsends := h.sends.toOrdered
  unfold TcpSerialLink.disconnectPeer
  cases hmode : link.mode with
  | listen => exact ⟨rfl, rfl, rfl, hreceives, hsends⟩
  | connect => exact ⟨rfl, rfl, rfl, hreceives, hsends⟩

theorem Down.tryAddresses (h : link.Down accepted taken) (later : Nat) (lastError : Int)
    (attempts : List ConnectAnswer) :
    (link.tryAddresses later lastError attempts).Down accepted taken
      ∨ (link.tryAddresses later lastError attempts).Up accepted taken [] [] := by
  induction attempts generalizing lastError with
  | nil => exact .inl (h.scheduleReconnect later _)
  | cons attempt rest ih =>
    cases attempt with
    | failed error => exact ih error
    | connected => exact .inr h.markConnected
    | wouldBlock => exact .inl (h.of_state (by decide) _ _)

theorem Down.beginConnect (h : link.Down accepted taken) {answers : PollAnswers}
    {link' : TcpSerialLink} (hlink : link.beginConnect answers = .ok link') :
    link'.Down accepted taken ∨ link'.Up accepted taken [] [] := by
  unfold TcpSerialLink.beginConnect at hlink
  cases hresolution : answers.resolution with
  | unresolved error =>
    rw [hresolution] at hlink
    cases hlink
  | addresses attempts =>
    rw [hresolution] at hlink
    cases hlink
    exact h.tryAddresses answers.later 0 attempts

/-- A new link. -/
theorem start_down_or_up {mode : TcpSerialMode} {endpoint : TcpEndpoint} {listener : ListenerAnswer}
    {answers : PollAnswers} (hstart : start {} mode endpoint listener answers = .ok link) :
    link.Down [] [] ∨ link.Up [] [] [] [] := by
  unfold start at hstart
  rw [if_neg (by decide)] at hstart
  cases mode with
  | listen =>
    cases listener with
    | unresolved error => cases hstart
    | refused error => cases hstart
    | listening =>
      cases hstart
      exact .inl ⟨rfl, rfl, rfl, .nil _, .nil _⟩
  | connect =>
    refine Down.beginConnect ?_ hstart
    exact ⟨rfl, rfl, rfl, .nil _, .nil _⟩

/-- A poll without a connection may make one. -/
theorem Down.poll (h : link.Down accepted taken) (answers : PollAnswers) :
    (link.poll answers).Down accepted taken ∨ (link.poll answers).Up accepted taken [] [] := by
  unfold TcpSerialLink.poll
  cases hstate : link.state with
  | stopped => exact .inl h
  | listening =>
    cases answers.accepting with
    | nobody => exact .inl h
    | blocking => exact .inl h
    | peer => exact .inr h.markConnected
  | reconnectWait =>
    dsimp only
    split
    · cases hlink : link.beginConnect answers with
      | error error => exact .inl (h.scheduleReconnect answers.later _)
      | ok link' => exact h.beginConnect hlink
    · exact .inl h
  | connecting =>
    cases answers.selecting with
    | nothing => exact .inl h
    | ready succeeded error =>
      dsimp only [pollConnecting]
      split
      · exact .inr h.markConnected
      · exact .inl (h.scheduleReconnect answers.later _)
  | connected => exact absurd rfl (connected_of_state hstate h.state)

theorem Up.popSent (h : link.Up accepted taken input output) (count : Nat) :
    (link.popSent count).Up accepted taken input output := by
  refine ⟨h.state, h.incoming, ?_, h.receives, ?_⟩
  · exact Nat.le_trans (List.length_drop ▸ Nat.sub_le _ _) h.outgoing
  · have hsplit := h.sends
    rw [← List.take_append_drop count link.outgoing, List.append_assoc] at hsplit
    exact hsplit.leave

theorem Up.sendPending (h : link.Up accepted taken input output) (later : Nat)
    (answers : List SendAnswer) :
    (link.sendPending later answers).Up accepted taken input output
      ∨ (link.sendPending later answers).Down accepted taken := by
  induction answers generalizing link with
  | nil => exact .inl h
  | cons answer rest ih =>
    unfold TcpSerialLink.sendPending
    split
    · exact .inl h
    · cases answer with
      | bytes accepted' =>
        dsimp only
        split
        · exact .inr (h.disconnectPeer later)
        · exact ih (h.popSent _)
      | wouldBlock => exact .inl h
      | failed => exact .inr (h.disconnectPeer later)

theorem Up.pushReceived (h : link.Up accepted taken input output) {values : List Byte}
    (hroom : link.incoming.length + values.length ≤ queueCapacity) :
    (link.pushReceived values).Up accepted taken input output := by
  have hlength : (link.incoming ++ values).length ≤ queueCapacity := by
    rw [List.length_append]
    exact hroom
  refine ⟨h.state, hlength, h.outgoing, ?_, h.sends⟩
  · have henter := h.receives.enter values
    rw [List.append_assoc] at henter
    exact henter

theorem Up.receivePending (h : link.Up accepted taken input output) (later : Nat)
    (answers : List RecvAnswer) :
    (link.receivePending later answers).Up accepted taken input output
      ∨ (link.receivePending later answers).Down accepted taken := by
  induction answers generalizing link with
  | nil => exact .inl h
  | cons answer rest ih =>
    unfold TcpSerialLink.receivePending
    split
    · exact .inl h
    next hroom =>
      cases answer with
      | bytes values =>
        dsimp only
        split
        · exact .inr (h.disconnectPeer later)
        · refine ih (h.pushReceived ?_)
          rw [List.length_take]
          omega
      | wouldBlock => exact .inl h
      | failed => exact .inr (h.disconnectPeer later)

/-- A poll within a connection moves bytes in order, and may end it. -/
theorem Up.poll (h : link.Up accepted taken input output) (answers : PollAnswers) :
    (link.poll answers).Up accepted taken input output ∨ (link.poll answers).Down accepted taken := by
  have hstate : link.state = .connected := by simpa [connected] using h.state
  unfold TcpSerialLink.poll
  rw [hstate]
  dsimp only
  rcases h.sendPending answers.later answers.sends with hsent | hsent
  · split
    · exact hsent.receivePending answers.later answers.receives
    · exact .inl hsent
  · have hdown := hsent.state
    rw [if_neg (by simpa [connected] using hdown)]
    exact .inr hsent

/-! ## What the queues keep -/

variable {value : Byte}

theorem Up.takeReceivedByte (h : link.Up accepted taken [] output) {link' : TcpSerialLink}
    (htake : link.takeReceivedByte = (some value, link')) : link'.Up accepted taken [value] output := by
  unfold TcpSerialLink.takeReceivedByte at htake
  cases hincoming : link.incoming with
  | nil =>
    rw [hincoming] at htake
    cases htake
  | cons value' rest =>
    rw [hincoming] at htake
    cases htake
    have hreceives := h.receives
    have hlength := h.incoming
    rw [hincoming] at hreceives hlength
    rw [List.length_cons] at hlength
    exact ⟨h.state, Nat.le_of_succ_le hlength, h.outgoing, hreceives, h.sends⟩

/-- The machine accepts the byte held. -/
theorem Up.accept (h : link.Up accepted taken [value] output) :
    link.Up (accepted ++ stamp link.connections [value]) taken [] output :=
  { h with receives := h.receives.leave }

/-- A byte is taken from the machine. -/
theorem Up.take (h : link.Up accepted taken input []) (value : Byte) :
    link.Up accepted (taken ++ stamp link.connections [value]) input [value] := by
  have hsends := h.sends.enter [value]
  rw [List.append_nil] at hsends
  exact { h with sends := hsends }

/-- The byte held goes into the queue, or the queue has no room. -/
theorem Up.queueTransmit (h : link.Up accepted taken input [value]) :
    (∃ link', link.queueTransmit value = (true, link') ∧ link'.Up accepted taken input [])
      ∨ link.queueTransmit value = (false, link) := by
  unfold TcpSerialLink.queueTransmit
  by_cases hroom : link.outgoing.length ≥ queueCapacity
  · exact .inr (if_pos (by simp [hroom]))
  · refine .inl ⟨_, if_neg (by simp [h.state, hroom]), h.state, h.incoming, ?_, h.receives, ?_⟩
    · have hlength : (link.outgoing ++ [value]).length ≤ queueCapacity := by
        rw [List.length_append, List.length_singleton]
        omega
      exact hlength
    · have hsends := h.sends
      rw [← List.append_nil (link.outgoing ++ [value])] at hsends
      exact hsends

end TcpSerialLink
end FK1
