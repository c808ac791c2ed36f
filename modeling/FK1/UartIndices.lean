import FK1.Lib.Run
import FK1.UartOps
import FK1.UartFrame

/-!
# FK1.UartIndices

The indices of the 8251: into the frames, the receive shift register and the SYN characters.

* `shiftTransmitBit?` to `call?` — the functions of the chip with every access checked.
* `Indices.InRange`             — what keeps the accesses in range; every call keeps it.
-/

namespace FK1
namespace Uart8251

open Run

/-! ## Checked functions -/

/-- `transmit_frame_[transmit_frame_index_]`. -/
def shiftTransmitBit? (u : Uart8251) : Option Uart8251 :=
  given (u.transmitFrameIndex < u.transmitFrame.length ∧ u.transmitFrame.length ≤ 12) u.shiftTransmitBit

/-- `shiftOrLoad`, with `sync_characters_[sync_transmit_index_]` and the modulus. -/
def shiftOrLoad? (u : Uart8251) : Option Uart8251 :=
  if u.transmitActive then u.shiftTransmitBit?
  else if !u.transmitterEnabled || !u.ctsActive then some { u with txdHigh := true }
  else match u.transmitBuffer with
    | some value => ({ u with transmitBuffer := none }.buildTransmitFrame value true).shiftTransmitBit?
    | none =>
      if u.synchronous && u.syncCharacterCount != 0 then
        (given (u.syncTransmitIndex < u.syncCharacterCount ∧ u.syncCharacterCount ≤ 2)
          (u.syncCharacter u.syncTransmitIndex)).bind fun value =>
        (given (u.syncCharacterCount ≠ 0)
          { u with syncTransmitIndex := (u.syncTransmitIndex + 1) % u.syncCharacterCount }).bind fun u =>
        (u.buildTransmitFrame value false).shiftTransmitBit?
      else some { u with txdHigh := true }

def transmitClockEdge? (u : Uart8251) : Option Uart8251 :=
  if hasBits u.commandWord 0x08#8 then some { u with txdHigh := false }
  else if u.transmitClockCount + 1 ≥ u.baudFactor then
    { u with transmitClockCount := 0 }.finishTransmitFrame.shiftOrLoad?
  else some { u with transmitClockCount := u.transmitClockCount + 1 }

/-- The shift by `receive_bit_index_`; low bits, which shift nothing, are checked too. -/
def shiftReceiveBit? (u : Uart8251) : Option Uart8251 :=
  given (u.receiveBitIndex < u.characterBits ∧ u.characterBits ≤ 8) u.shiftReceiveBit

/-- The other phases have no access. -/
def sampleAsyncReceive? (u : Uart8251) : Option Uart8251 :=
  match u.receivePhase with
  | .data => u.shiftReceiveBit?.map fun u =>
    if u.receiveBitIndex ≥ u.characterBits then
      { u with receivePhase := if u.parityEnabled then .parity else .stop }
    else u
  | _ => some u.sampleAsyncReceive

/-- `sync_characters_[sync_hunt_index_]`. -/
def finishSyncCharacter? (u : Uart8251) : Option Uart8251 :=
  if u.syncHunt && u.syncCharacterCount != 0 then
    given (u.syncHuntIndex < u.syncCharacterCount ∧ u.syncCharacterCount ≤ 2) u.finishSyncCharacter
  else some u.finishSyncCharacter

def takeSyncBit? (u : Uart8251) : Option Uart8251 :=
  if u.receivePhase == .syncData then
    u.shiftReceiveBit?.bind fun u =>
    if u.receiveBitIndex ≥ u.characterBits then
      if u.parityEnabled then some { u with receivePhase := .syncParity } else u.finishSyncCharacter?
    else some u
  else
    { u with
      pendingReceiveParityError := u.rxdHigh != u.parityHigh u.receiveParityOnes }.finishSyncCharacter?

def sampleSyncReceive? (u : Uart8251) : Option Uart8251 := u.startSyncCharacter.takeSyncBit?

def receiveClockEdge? (u : Uart8251) : Option Uart8251 :=
  if !u.receiverEnabled then some u
  else if u.synchronous then u.sampleSyncReceive?
  else if u.receivePhase == .idle then
    if !u.rxdHigh then
      some { u with
        receivePhase := .start
        receiveClockCount := if u.baudFactor > 1 then u.baudFactor / 2 else 1 }
    else some u
  else if u.receiveClockCount > 1 then some { u with receiveClockCount := u.receiveClockCount - 1 }
  else { u with receiveClockCount := u.baudFactor }.sampleAsyncReceive?

/-- `queued_receive_frame_[queued_receive_frame_index_]`. -/
def driveQueuedLine? (u : Uart8251) : Option Uart8251 :=
  let u := if !u.queuedReceiveActive && !u.queuedReceiveBytes.isEmpty then u.startQueuedReceiveFrame
    else u
  if u.queuedReceiveActive then
    given (u.queuedReceiveFrameIndex < u.queuedReceiveFrame.length ∧ u.queuedReceiveFrame.length ≤ 12)
      { u with rxdHigh := u.queuedReceiveFrame.getD u.queuedReceiveFrameIndex false }
  else some u

def receiveLineEdge? (u : Uart8251) : Option Uart8251 :=
  u.driveQueuedLine?.bind fun u => u.receiveClockEdge?.map advanceQueuedReceiveLine

/-- The public calls: those of `Op`, and `receive_byte`. -/
inductive Call where
  | op (op : Op)
  | receiveByte (value : Byte) (parityError framingError : Bool)
  deriving DecidableEq, Repr

def call (u : Uart8251) : Call → Uart8251
  | .op op => u.apply op
  | .receiveByte value parityError framingError => u.receiveByte value parityError framingError

def call? (u : Uart8251) : Call → Option Uart8251
  | .op .transmitClockEdge => u.transmitClockEdge?
  | .op .receiveClockEdge => u.receiveLineEdge?
  | c => some (u.call c)

/-! ## The indices -/

structure Indices where
  initializationPhase : InitializationPhase
  receivePhase : ReceivePhase
  characterBits : Nat
  receiveBitIndex : Nat
  syncCharacterCount : Nat
  syncTransmitIndex : Nat
  syncHuntIndex : Nat
  transmitFrameSize : Nat
  queuedReceiveActive : Bool
  queuedReceiveFrameSize : Nat
  queuedReceiveFrameIndex : Nat

def indices (u : Uart8251) : Indices :=
  { initializationPhase := u.initializationPhase
    receivePhase := u.receivePhase
    characterBits := u.characterBits
    receiveBitIndex := u.receiveBitIndex
    syncCharacterCount := u.syncCharacterCount
    syncTransmitIndex := u.syncTransmitIndex
    syncHuntIndex := u.syncHuntIndex
    transmitFrameSize := u.transmitFrame.length
    queuedReceiveActive := u.queuedReceiveActive
    queuedReceiveFrameSize := u.queuedReceiveFrame.length
    queuedReceiveFrameIndex := u.queuedReceiveFrameIndex }

/-- The receiver takes data bits. -/
def Indices.Shifting (i : Indices) : Prop := i.receivePhase = .data ∨ i.receivePhase = .syncData

/-- An index into the SYN characters, which stays 0 until there are some. -/
def Indices.Syn (i : Indices) (index : Nat) : Prop := index = 0 ∨ index < i.syncCharacterCount

structure Indices.InRange (i : Indices) : Prop where
  transmitFrame : i.transmitFrameSize ≤ 12
  queuedFrame : i.queuedReceiveActive = true →
    i.queuedReceiveFrameIndex < i.queuedReceiveFrameSize ∧ i.queuedReceiveFrameSize ≤ 12
  receiveBit : i.Shifting → i.receiveBitIndex < i.characterBits
  noSyn : i.initializationPhase = .mode ∨ i.initializationPhase = .sync1 → i.syncCharacterCount = 0
  syncCount : i.syncCharacterCount ≤ 2
  syncTransmit : i.Syn i.syncTransmitIndex
  syncHunt : i.Syn i.syncHuntIndex

def InRange (u : Uart8251) : Prop := u.indices.InRange

variable {u u' : Uart8251}

theorem Indices.Syn.lt {i : Indices} {index : Nat} (h : i.Syn index) (hcount : i.syncCharacterCount ≠ 0) :
    index < i.syncCharacterCount := by
  obtain rfl | hlt := h
  · exact Nat.pos_of_ne_zero hcount
  · exact hlt

theorem characterBits_pos (u : Uart8251) : 0 < u.characterBits :=
  Nat.lt_of_lt_of_le (by decide) (characterBits_bounds u).1

/-! ## The receiver -/

/-- The receiver moves its phase, its bit index and its place in the SYN characters. -/
theorem InRange.receiver (h : u.InRange) (phase : ReceivePhase) (index hunt : Nat)
    (hindices : u'.indices =
      { u.indices with receivePhase := phase, receiveBitIndex := index, syncHuntIndex := hunt })
    (hbit : phase = .data ∨ phase = .syncData → index < u.characterBits)
    (hhunt : u.indices.Syn hunt) : u'.InRange := by
  unfold InRange
  rw [hindices]
  exact { h with receiveBit := hbit, syncHunt := hhunt }

theorem receiveByte_indices (u : Uart8251) (value : Byte) (parityError framingError : Bool) :
    (u.receiveByte value parityError framingError).indices = u.indices := by
  unfold receiveByte
  split
  · rfl
  · split
    · rfl
    · dsimp only
      split <;> rfl

theorem shiftReceiveBit_indices (u : Uart8251) :
    u.shiftReceiveBit.indices = { u.indices with receiveBitIndex := u.receiveBitIndex + 1 } := by
  unfold shiftReceiveBit
  dsimp only
  split <;> rfl

theorem shiftReceiveBit_passes (h : u.InRange) (hphase : u.indices.Shifting) :
    u.shiftReceiveBit? = some u.shiftReceiveBit :=
  if_pos ⟨h.receiveBit hphase, (characterBits_bounds u).2⟩

/-- A data bit that is not the last leaves room for the next one. -/
theorem shiftReceiveBit_inRange (h : u.InRange)
    (hmore : ¬u.shiftReceiveBit.receiveBitIndex ≥ u.shiftReceiveBit.characterBits) :
    u.shiftReceiveBit.InRange := by
  have hshift := shiftReceiveBit_indices u
  have hindex : u.shiftReceiveBit.receiveBitIndex = u.receiveBitIndex + 1 :=
    congrArg Indices.receiveBitIndex hshift
  have hbits : u.shiftReceiveBit.characterBits = u.characterBits :=
    congrArg Indices.characterBits hshift
  refine h.receiver u.receivePhase (u.receiveBitIndex + 1) u.syncHuntIndex hshift ?_ h.syncHunt
  intro _
  omega

theorem withPhase_indices {i : Indices} (h : u.indices = i) (phase : ReceivePhase) :
    { u with receivePhase := phase }.indices = { i with receivePhase := phase } :=
  congrArg (fun i : Indices => { i with receivePhase := phase }) h

theorem InRange.idle (h : u.InRange) (hsame : u'.indices = u.indices) :
    { u' with receivePhase := .idle }.InRange :=
  h.receiver .idle u.receiveBitIndex u.syncHuntIndex (withPhase_indices hsame .idle) nofun h.syncHunt

theorem sampleAsyncReceive_passes (h : u.InRange) :
    Passes InRange u.sampleAsyncReceive? u.sampleAsyncReceive := by
  unfold sampleAsyncReceive? sampleAsyncReceive
  cases hphase : u.receivePhase with
  | data =>
    dsimp only
    rw [shiftReceiveBit_passes h (.inl hphase), Option.map_some]
    refine ⟨rfl, ?_⟩
    split
    · refine h.receiver (if u.shiftReceiveBit.parityEnabled then .parity else .stop)
        (u.receiveBitIndex + 1) u.syncHuntIndex ?_ ?_ h.syncHunt
      · exact withPhase_indices (shiftReceiveBit_indices u) _
      · split <;> nofun
    · rename_i hmore
      exact shiftReceiveBit_inRange h hmore
  | start =>
    refine ⟨rfl, ?_⟩
    dsimp only
    split
    · exact h.idle rfl
    · exact h.receiver .data 0 u.syncHuntIndex rfl (fun _ => characterBits_pos _) h.syncHunt
  | parity => exact ⟨rfl, h.receiver .stop u.receiveBitIndex u.syncHuntIndex rfl nofun h.syncHunt⟩
  | stop => exact ⟨rfl, h.idle (receiveByte_indices ..)⟩
  | idle => exact ⟨rfl, h.idle rfl⟩
  | syncData => exact ⟨rfl, h.idle rfl⟩
  | syncParity => exact ⟨rfl, h.idle rfl⟩

/-- After a whole character the receiver takes the next one, with a place in the SYN characters. The bit
index may be past the last bit before that. -/
theorem finishSyncCharacter_indices (h : { u with receivePhase := .syncParity }.InRange) :
    ∃ hunt, u.indices.Syn hunt ∧ u.finishSyncCharacter.indices =
      { u.indices with receivePhase := .syncData, receiveBitIndex := 0, syncHuntIndex := hunt } := by
  have hrest : ∀ (v : Uart8251) (hunt : Nat), v.indices = { u.indices with syncHuntIndex := hunt } →
      { v with
        receivePhase := .syncData
        receiveShift := 0#8
        receiveBitIndex := 0
        receiveParityOnes := 0
        pendingReceiveParityError := false }.indices =
        { u.indices with receivePhase := .syncData, receiveBitIndex := 0, syncHuntIndex := hunt } :=
    fun v hunt hv => congrArg (fun i : Indices =>
      { i with receivePhase := .syncData, receiveBitIndex := 0 }) hv
  unfold finishSyncCharacter
  split
  · rename_i hhunt
    have hcount : u.syncCharacterCount ≠ 0 := by
      simp only [Bool.and_eq_true, bne_iff_ne] at hhunt
      exact hhunt.2
    have hlt : u.syncHuntIndex < u.syncCharacterCount := h.syncHunt.lt hcount
    split
    · dsimp only
      split
      · exact ⟨0, .inl rfl, hrest _ 0 rfl⟩
      · rename_i hmore
        exact ⟨u.syncHuntIndex + 1, .inr (Nat.lt_of_not_le hmore), hrest _ _ rfl⟩
    · rename_i hmiss
      refine ⟨if u.receiveShift == u.syncCharacter 0 then 1 else 0, ?_, hrest _ _ rfl⟩
      split
      · -- The first SYN where another was awaited: there are two.
        rename_i hfirst
        have hplace : u.syncHuntIndex ≠ 0 := fun hzero => hmiss (by rw [hzero]; exact hfirst)
        refine .inr ?_
        show 1 < u.syncCharacterCount
        omega
      · exact .inl rfl
  · exact ⟨u.syncHuntIndex, h.syncHunt, hrest _ _ (receiveByte_indices ..)⟩

theorem finishSyncCharacter_passes (h : { u with receivePhase := .syncParity }.InRange) :
    Passes InRange u.finishSyncCharacter? u.finishSyncCharacter := by
  obtain ⟨hunt, hsyn, hindices⟩ := finishSyncCharacter_indices h
  have hafter := h.receiver .syncData 0 hunt hindices (fun _ => characterBits_pos _) hsyn
  refine ⟨?_, hafter⟩
  unfold finishSyncCharacter?
  split
  · rename_i hhunt
    simp only [Bool.and_eq_true, bne_iff_ne] at hhunt
    exact if_pos ⟨h.syncHunt.lt hhunt.2, h.syncCount⟩
  · rfl

theorem takeSyncBit_passes (h : u.InRange) : Passes InRange u.takeSyncBit? u.takeSyncBit := by
  have hparity : ∀ {v : Uart8251} {index : Nat},
      v.indices = { u.indices with receiveBitIndex := index } →
        { v with receivePhase := .syncParity }.InRange := by
    intro v index hv
    exact h.receiver .syncParity index u.syncHuntIndex (withPhase_indices hv _) nofun h.syncHunt
  unfold takeSyncBit? takeSyncBit
  split
  · rename_i hphase
    have hshift := shiftReceiveBit_indices u
    rw [shiftReceiveBit_passes h (.inr (beq_iff_eq.mp hphase)), Option.bind_some]
    dsimp only
    split
    · split
      · exact ⟨rfl, hparity hshift⟩
      · exact finishSyncCharacter_passes (hparity hshift)
    · rename_i hmore
      exact ⟨rfl, shiftReceiveBit_inRange h hmore⟩
  · exact finishSyncCharacter_passes (hparity rfl)

theorem sampleSyncReceive_passes (h : u.InRange) :
    Passes InRange u.sampleSyncReceive? u.sampleSyncReceive := by
  have hstart : u.startSyncCharacter.InRange := by
    unfold startSyncCharacter
    split
    · exact h.receiver .syncData 0 u.syncHuntIndex rfl (fun _ => characterBits_pos _) h.syncHunt
    · exact h
  exact takeSyncBit_passes hstart

theorem receiveClockEdge_passes (h : u.InRange) :
    Passes InRange u.receiveClockEdge? u.receiveClockEdge := by
  unfold receiveClockEdge? receiveClockEdge
  split
  · exact ⟨rfl, h⟩
  · split
    · exact sampleSyncReceive_passes h
    · split
      · split
        · exact ⟨rfl, h.receiver .start u.receiveBitIndex u.syncHuntIndex rfl nofun h.syncHunt⟩
        · exact ⟨rfl, h⟩
      · split
        · exact ⟨rfl, h⟩
        · exact @sampleAsyncReceive_passes { u with receiveClockCount := u.baudFactor } h

/-! ## The queued line -/

theorem startQueuedReceiveFrame_inRange (h : u.InRange) : u.startQueuedReceiveFrame.InRange := by
  unfold startQueuedReceiveFrame
  split
  · exact h
  · rename_i value rest _
    have hframe := frameBits_bounds u value
    exact { h with queuedFrame := fun _ => ⟨by show 0 < (u.frameBits value).length; omega, hframe.2⟩ }

theorem driveQueuedLine_passes (h : u.InRange) :
    Passes InRange u.driveQueuedLine? u.driveQueuedLine := by
  have hdrive : ∀ v : Uart8251, v.InRange →
      Passes InRange
        (if v.queuedReceiveActive then
          given (v.queuedReceiveFrameIndex < v.queuedReceiveFrame.length ∧
              v.queuedReceiveFrame.length ≤ 12)
            { v with rxdHigh := v.queuedReceiveFrame.getD v.queuedReceiveFrameIndex false }
        else some v)
        (if v.queuedReceiveActive then
          { v with rxdHigh := v.queuedReceiveFrame.getD v.queuedReceiveFrameIndex false }
        else v) := by
    intro v hv
    split
    · rename_i hactive
      exact .given (hv.queuedFrame hactive) hv
    · exact ⟨rfl, hv⟩
  unfold driveQueuedLine? driveQueuedLine
  refine hdrive _ ?_
  split
  · exact startQueuedReceiveFrame_inRange h
  · exact h

theorem advanceQueuedReceiveLine_inRange (h : u.InRange) : u.advanceQueuedReceiveLine.InRange := by
  unfold advanceQueuedReceiveLine
  split
  · exact h
  · split
    · exact h
    · rename_i hactive _
      split
      · exact { h with queuedFrame := nofun }
      · rename_i hmore
        have hqueued : u.queuedReceiveActive = true := by simpa using hactive
        have hframe := h.queuedFrame hqueued
        exact { h with queuedFrame := fun _ => ⟨Nat.lt_of_not_le hmore, hframe.2⟩ }

theorem receiveLineEdge_passes (h : u.InRange) :
    Passes InRange u.receiveLineEdge? u.receiveLineEdge := by
  have hdrive := driveQueuedLine_passes h
  have hreceive := receiveClockEdge_passes hdrive.2
  refine hdrive.bind ⟨?_, advanceQueuedReceiveLine_inRange hreceive.2⟩
  rw [hreceive.1]
  rfl

/-! ## The transmitter -/

/-- The transmitter loads its frame and moves its place in the SYN characters. -/
theorem InRange.transmitter (h : u.InRange) (size index : Nat)
    (hindices : u'.indices = { u.indices with transmitFrameSize := size, syncTransmitIndex := index })
    (hsize : size ≤ 12) (hindex : u.indices.Syn index) : u'.InRange := by
  unfold InRange
  rw [hindices]
  exact { h with transmitFrame := hsize, syncTransmit := hindex }

/-- A frame just laid out has a first bit. -/
theorem loadFrame_passes (h : u.InRange) (value : Byte) (payload : Bool) :
    Passes InRange (u.buildTransmitFrame value payload).shiftTransmitBit?
      (u.buildTransmitFrame value payload).shiftTransmitBit := by
  have hframe := frameBits_bounds u value
  refine .given ⟨?_, hframe.2⟩ ?_
  · show 0 < (u.frameBits value).length
    omega
  · exact h.transmitter (u.frameBits value).length u.syncTransmitIndex rfl hframe.2 h.syncTransmit

theorem finishTransmitFrame_inRange (h : u.InRange) :
    u.finishTransmitFrame.InRange ∧
      (u.finishTransmitFrame.transmitActive = true →
        u.finishTransmitFrame.transmitFrameIndex < u.finishTransmitFrame.transmitFrame.length) := by
  unfold finishTransmitFrame
  split
  · refine ⟨?_, nofun⟩
    dsimp only
    split <;> exact h
  · rename_i hmore
    refine ⟨h, fun hactive => ?_⟩
    rw [hactive, Bool.true_and, decide_eq_true_eq] at hmore
    exact Nat.lt_of_not_le hmore

theorem shiftOrLoad_passes (h : u.InRange)
    (hshift : u.transmitActive = true → u.transmitFrameIndex < u.transmitFrame.length) :
    Passes InRange u.shiftOrLoad? u.shiftOrLoad := by
  unfold shiftOrLoad? shiftOrLoad
  split
  · rename_i hactive
    exact .given ⟨hshift hactive, h.transmitFrame⟩ h
  · split
    · exact ⟨rfl, h⟩
    · cases hbuffer : u.transmitBuffer with
      | some value => exact @loadFrame_passes { u with transmitBuffer := none } h value true
      | none =>
        dsimp only
        split
        · rename_i hsyn
          simp only [Bool.and_eq_true, bne_iff_ne] at hsyn
          have hlt : u.syncTransmitIndex < u.syncCharacterCount := h.syncTransmit.lt hsyn.2
          have hmod := Nat.mod_lt (u.syncTransmitIndex + 1) (Nat.pos_of_ne_zero hsyn.2)
          have hnext : { u with
              transmitBuffer := none
              syncTransmitIndex := (u.syncTransmitIndex + 1) % u.syncCharacterCount }.InRange :=
            h.transmitter u.transmitFrame.length _ rfl h.transmitFrame (.inr hmod)
          rw [given, if_pos ⟨hlt, h.syncCount⟩, Option.bind_some]
          refine (Passes.given hsyn.2 hnext).bind ?_
          exact loadFrame_passes hnext _ false
        · exact ⟨rfl, h⟩

theorem transmitClockEdge_passes (h : u.InRange) :
    Passes InRange u.transmitClockEdge? u.transmitClockEdge := by
  unfold transmitClockEdge? transmitClockEdge
  split
  · exact ⟨rfl, h⟩
  · split
    · obtain ⟨hafter, hshift⟩ := @finishTransmitFrame_inRange { u with transmitClockCount := 0 } h
      exact shiftOrLoad_passes hafter hshift
    · exact ⟨rfl, h⟩

/-! ## Control words -/

theorem acceptMode_inRange (h : u.InRange) (value : Byte) (hmode : u.initializationPhase = .mode) :
    (u.acceptMode value).InRange := by
  have hcount : u.syncCharacterCount = 0 := h.noSyn (.inl hmode)
  have hsyn : ∀ index, u.indices.Syn index → (u.acceptMode value).indices.Syn index := by
    intro index hindex
    obtain hzero | hlt := hindex
    · exact .inl hzero
    · rw [show u.indices.syncCharacterCount = 0 from hcount] at hlt
      omega
  exact
    { transmitFrame := h.transmitFrame
      queuedFrame := h.queuedFrame
      receiveBit := nofun
      noSyn := fun _ => rfl
      syncCount := Nat.zero_le 2
      syncTransmit := hsyn _ h.syncTransmit
      syncHunt := hsyn _ h.syncHunt }

/-- More SYN characters leave every place in range. -/
theorem InRange.store (h : u.InRange) (phase : InitializationPhase) (count : Nat)
    (hindices : u'.indices =
      { u.indices with initializationPhase := phase, syncCharacterCount := count })
    (hphase : ¬(phase = .mode ∨ phase = .sync1)) (hcount : u.syncCharacterCount ≤ count)
    (htwo : count ≤ 2) : u'.InRange := by
  have hsyn : ∀ index, u.indices.Syn index → index = 0 ∨ index < count := by
    intro index hindex
    exact hindex.imp id fun hlt => Nat.lt_of_lt_of_le hlt hcount
  unfold InRange
  rw [hindices]
  exact
    { h with
      noSyn := fun hinitial => absurd hinitial hphase
      syncCount := htwo
      syncTransmit := hsyn _ h.syncTransmit
      syncHunt := hsyn _ h.syncHunt }

theorem init_inRange : InRange {} :=
  { transmitFrame := Nat.zero_le 12
    queuedFrame := nofun
    receiveBit := nofun
    noSyn := fun _ => rfl
    syncCount := Nat.zero_le 2
    syncTransmit := .inl rfl
    syncHunt := .inl rfl }

theorem acceptCommand_inRange (h : u.InRange) (value : Byte) : (u.acceptCommand value).InRange := by
  have herrors : ∀ v : Uart8251, v.InRange →
      (if hasBits value 0x10#8 then
        { v with
          receiveParityError := false
          receiveOverrunError := false
          receiveFramingError := false
          breakDetected := false }
      else v).InRange := by
    intro v hv
    split <;> exact hv
  have hhunt : ∀ v : Uart8251, v.InRange →
      (if v.synchronous && hasBits value 0x80#8 then
        { v with
          syncHunt := true
          syncDetected := false
          syncHuntIndex := 0
          receivePhase := .syncData
          receiveBitIndex := 0
          receiveShift := 0#8 }
      else v).InRange := by
    intro v hv
    split
    · exact hv.receiver .syncData 0 0 rfl (fun _ => characterBits_pos _) (.inl rfl)
    · exact hv
  have htransmitter : ∀ v : Uart8251, v.InRange →
      (if !v.transmitterEnabled then { v with txdHigh := true } else v).InRange := by
    intro v hv
    split <;> exact hv
  have hreceiver : ∀ v : Uart8251, v.InRange →
      (if !v.receiverEnabled then { v with receivePhase := .idle } else v).InRange := by
    intro v hv
    split
    · exact hv.idle rfl
    · exact hv
  unfold acceptCommand
  split
  · exact init_inRange
  · exact hreceiver _ (htransmitter _ (hhunt _ (herrors _ h)))

theorem writeControl_inRange (h : u.InRange) (value : Byte) : (u.writeControl value).InRange := by
  unfold writeControl
  cases hphase : u.initializationPhase with
  | mode => exact acceptMode_inRange h value hphase
  | sync1 =>
    have hcount : u.syncCharacterCount = 0 := h.noSyn (.inr hphase)
    dsimp only
    refine h.store (if hasBits u.modeWord 0x80#8 then .command else .sync2) 1 rfl ?_ ?_ (by decide)
    · split <;> rintro (hmode | hsync1) <;> contradiction
    · rw [hcount]
      exact Nat.zero_le 1
  | sync2 => exact h.store .command 2 rfl (by decide) h.syncCount (Nat.le_refl 2)
  | command => exact acceptCommand_inRange h value

/-! ## Every call -/

theorem apply_inRange (h : u.InRange) (op : Op) (htransmit : op ≠ .transmitClockEdge)
    (hreceive : op ≠ .receiveClockEdge) : (u.apply op).InRange := by
  cases op with
  | reset => exact init_inRange
  | read registerIndex =>
    show (u.read registerIndex).2.InRange
    unfold read
    split <;> exact h
  | write registerIndex value =>
    show (u.write registerIndex value).InRange
    unfold write
    split
    · exact writeControl_inRange h value
    · exact h
  | setCtsActive active => exact h
  | setDsrActive active => exact h
  | setRxd high => exact h
  | setSyncDetect active =>
    show (u.setSyncDetect active).InRange
    unfold setSyncDetect
    dsimp only
    split <;> exact h
  | transmitClockEdge => exact absurd rfl htransmit
  | receiveClockEdge => exact absurd rfl hreceive
  | queueReceivedByte value =>
    show (u.queueReceivedByte value).2.InRange
    unfold queueReceivedByte
    split <;> exact h
  | clearQueuedReceiveBytes => exact { h with queuedFrame := nofun, receiveBit := nofun }
  | takeTransmittedByte =>
    show u.takeTransmittedByte.2.InRange
    unfold takeTransmittedByte
    split <;> exact h

theorem call_passes (h : u.InRange) (c : Call) : Passes InRange (u.call? c) (u.call c) := by
  cases c with
  | op op =>
    cases op with
    | transmitClockEdge => exact transmitClockEdge_passes h
    | receiveClockEdge => exact receiveLineEdge_passes h
    | _ => exact ⟨rfl, apply_inRange h _ nofun nofun⟩
  | receiveByte value parityError framingError =>
    refine ⟨rfl, ?_⟩
    show (u.receiveByte value parityError framingError).indices.InRange
    rw [receiveByte_indices]
    exact h

/-- Whatever is called after power-up, no check fails; a queued frame that is active has its index in
range, as has every place in the SYN characters. -/
theorem indices_in_range (calls : List Call) :
    let u := run call {} calls
    calls.foldlM call? {} = some u ∧
      (u.queuedReceiveActive = true →
        u.queuedReceiveFrameIndex < u.queuedReceiveFrame.length ∧ u.queuedReceiveFrame.length ≤ 12) ∧
      u.transmitFrame.length ≤ 12 ∧ u.characterBits ≤ 8 ∧ u.syncCharacterCount ≤ 2 := by
  intro u
  obtain ⟨hchecked, h⟩ := run_passes (fun u c hu => call_passes (u := u) hu c) init_inRange calls
  exact ⟨hchecked, h.queuedFrame, h.transmitFrame, (characterBits_bounds u).2, h.syncCount⟩

-- A frame that has been sent has no next bit.
example : shiftTransmitBit? { transmitFrame := [false], transmitFrameIndex := 1 } = none := rfl

end Uart8251
end FK1
