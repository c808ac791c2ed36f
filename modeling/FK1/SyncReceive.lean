import FK1.UartFrame
import FK1.UartOps

/-!
# FK1.SyncReceive

The synchronous receiver of the 8251, bit by bit: one bit of the line a receive clock, whole characters
from where Enter Hunt has put the boundary, and a character complete with its last bit.
-/

namespace FK1
namespace Uart8251

variable {u u' u'' : Uart8251} {value : Byte} {i j : Nat}

/-! ## The line -/

/-- One receive clock while the line is at `high`. -/
def receiveBit (u : Uart8251) (high : Bool) : Uart8251 := (u.setRxd high).receiveLineEdge

def receiveBits (u : Uart8251) (bits : List Bool) : Uart8251 := bits.foldl receiveBit u

/-- Characters on the line, with the data register read after each. -/
def receiveCharacters (u : Uart8251) : List Byte → List Byte × Uart8251
  | [] => ([], u)
  | value :: rest =>
    let next := (u.receiveBits (u.frameBits value)).read 0x00#8
    let others := receiveCharacters next.2 rest
    (next.1 :: others.1, others.2)

/-- The receiver is enabled in a synchronous mode, and the line is not driven by the host queue. -/
structure Listening (u : Uart8251) : Prop where
  enabled : u.receiverEnabled = true
  sync : u.synchronous = true
  inactive : u.queuedReceiveActive = false
  empty : u.queuedReceiveBytes = []

/-- From `u` to `u'` the receiver has sampled the line. -/
def Sampled (u u' : Uart8251) : Prop := ∃ high r, u' = (u.setRxd high).withSampler r

theorem Sampled.trans (h : Sampled u u') (h' : Sampled u' u'') : Sampled u u'' := by
  obtain ⟨high, r, rfl⟩ := h
  obtain ⟨high', r', rfl⟩ := h'
  exact ⟨high', r', rfl⟩

theorem Sampled.refl (u : Uart8251) : Sampled u u := ⟨u.rxdHigh, u.receiveState, rfl⟩

theorem Sampled.listening (h : Sampled u u') (hu : u.Listening) : u'.Listening := by
  obtain ⟨high, r, rfl⟩ := h
  exact ⟨hu.enabled, hu.sync, hu.inactive, hu.empty⟩

/-- What no sample changes. -/
theorem Sampled.config (h : Sampled u u') :
    u'.modeWord = u.modeWord ∧ u'.syncCharacterCount = u.syncCharacterCount ∧
      u'.syncCharacter = u.syncCharacter := by
  obtain ⟨high, r, rfl⟩ := h
  exact ⟨rfl, rfl, rfl⟩

theorem receiveBit_eq (h : u.Listening) (high : Bool) :
    u.receiveBit high = (u.setRxd high).sampleSyncReceive := by
  have hedge : (u.setRxd high).receiveClockEdge = (u.setRxd high).sampleSyncReceive := by
    rw [receiveClockEdge, if_neg, if_pos]
    · exact h.sync
    · rw [show (u.setRxd high).receiverEnabled = true from h.enabled]
      decide
  have hdrive : (u.setRxd high).driveQueuedLine = u.setRxd high := by
    simp [driveQueuedLine, setRxd, h.inactive, h.empty]
  have hidle : ∀ v : Uart8251, v.queuedReceiveActive = false → v.advanceQueuedReceiveLine = v := by
    intro v hv
    simp [advanceQueuedReceiveLine, hv]
  rw [receiveBit, receiveLineEdge_eq, hdrive, hedge]
  refine hidle _ ?_
  have hstep := sampleSyncReceive_step (u.setRxd high)
  rw [hstep]
  exact h.inactive

theorem receiveBit_sampled (h : u.Listening) (high : Bool) : Sampled u (u.receiveBit high) := by
  rw [receiveBit_eq h]
  exact ⟨high, _, sampleSyncReceive_step (u.setRxd high)⟩

theorem receiveBits_sampled (h : u.Listening) (bits : List Bool) : Sampled u (u.receiveBits bits) := by
  induction bits generalizing u with
  | nil => exact .refl u
  | cons high bits ih =>
    have hone := receiveBit_sampled h high
    exact hone.trans (ih (hone.listening h))

theorem receiveBits_append (u : Uart8251) (first second : List Bool) :
    u.receiveBits (first ++ second) = (u.receiveBits first).receiveBits second :=
  List.foldl_append

theorem read_sampled (u : Uart8251) : Sampled u (u.read 0x00#8).2 :=
  ⟨u.rxdHigh, (u.read 0x00#8).2.receiveState, rfl⟩

theorem receiveCharacters_sampled (h : u.Listening) (characters : List Byte) :
    Sampled u (u.receiveCharacters characters).2 := by
  induction characters generalizing u with
  | nil => exact .refl u
  | cons value rest ih =>
    have hone := (receiveBits_sampled h (u.frameBits value)).trans (read_sampled _)
    exact hone.trans (ih (hone.listening h))

/-! ## Inside a character -/

/-- The bits of a synchronous character on the line. -/
def characterLength (u : Uart8251) : Nat := u.characterBits + (if u.parityEnabled then 1 else 0)

/-- The bit on the line goes into the shift register. -/
def bitTaken (u : Uart8251) (phase : ReceivePhase) : Uart8251 :=
  u.withSample
    { phase := phase
      clockCount := u.receiveClockCount
      shift := if u.rxdHigh then u.receiveShift ||| bitMask u.receiveBitIndex else u.receiveShift
      bitIndex := u.receiveBitIndex + 1
      parityOnes := if u.rxdHigh then u.receiveParityOnes + 1 else u.receiveParityOnes
      pendingParityError := u.pendingReceiveParityError }

theorem sampleSyncReceive_data (hphase : u.receivePhase = .syncData) :
    u.sampleSyncReceive =
      if u.characterBits ≤ u.receiveBitIndex + 1 then
        if u.parityEnabled then u.bitTaken .syncParity
        else (u.bitTaken .syncData).finishSyncCharacter
      else u.bitTaken .syncData := by
  have hshift : u.shiftReceiveBit = u.bitTaken .syncData := by
    rw [shiftReceiveBit_eq, ← hphase]
    rfl
  have hbits : (u.bitTaken .syncData).characterBits = u.characterBits := rfl
  have hparity : (u.bitTaken .syncData).parityEnabled = u.parityEnabled := rfl
  have hindex : (u.bitTaken .syncData).receiveBitIndex = u.receiveBitIndex + 1 := rfl
  simp [sampleSyncReceive, hphase, hshift, hbits, hparity, hindex]
  rfl

theorem sampleSyncReceive_parity (hphase : u.receivePhase = .syncParity) :
    u.sampleSyncReceive = { u with
      pendingReceiveParityError := u.rxdHigh != u.parityHigh u.receiveParityOnes }.finishSyncCharacter := by
  simp [sampleSyncReceive, hphase]

/-- The receiver has had `j` bits of a character. -/
inductive AtBit (u : Uart8251) : Nat → Prop where
  | data (j : Nat) (hj : j < u.characterBits) (hphase : u.receivePhase = .syncData)
      (hindex : u.receiveBitIndex = j) : AtBit u j
  | parity (hparity : u.parityEnabled = true) (hphase : u.receivePhase = .syncParity) :
      AtBit u u.characterBits

theorem AtBit.lt (h : AtBit u j) : j < u.characterLength := by
  unfold characterLength
  cases h with
  | data j hj => omega
  | parity hparity =>
    rw [if_pos hparity]
    omega

theorem finishSyncCharacter_atBit (u : Uart8251) : AtBit u.finishSyncCharacter 0 := by
  have hbits := characterBits_bounds u.finishSyncCharacter
  exact .data 0 (by omega) rfl rfl

/-- One bit: the next bit of the same character, with nothing decided, or the next character. -/
theorem AtBit.receiveBit (hlistening : u.Listening) (h : AtBit u j) (high : Bool) :
    if j + 1 = u.characterLength then AtBit (u.receiveBit high) 0
    else AtBit (u.receiveBit high) (j + 1) ∧ (u.receiveBit high).syncDetected = u.syncDetected := by
  rw [receiveBit_eq hlistening]
  generalize hv : u.setRxd high = v
  have hlength : u.characterLength = v.characterLength := by
    rw [← hv]
    rfl
  have hdetected : u.syncDetected = v.syncDetected := by
    rw [← hv]
    rfl
  have hat : AtBit v j := by
    rw [← hv]
    cases h with
    | data j hj hphase hindex => exact .data j hj hphase hindex
    | parity hparity hphase => exact .parity (u := u.setRxd high) hparity hphase
  rw [hlength, hdetected]
  cases hat with
  | data j hj hphase hindex =>
    rw [sampleSyncReceive_data hphase, hindex]
    by_cases hlast : v.characterBits ≤ j + 1
    · rw [if_pos hlast]
      cases hparity : v.parityEnabled with
      | true =>
        rw [if_neg (by simp [characterLength, hparity]; omega), if_pos rfl]
        have hend : j + 1 = v.characterBits := by omega
        rw [hend]
        exact ⟨AtBit.parity (u := v.bitTaken .syncParity) hparity rfl, rfl⟩
      | false =>
        rw [if_pos (by simp [characterLength, hparity]; omega), if_neg (by decide)]
        exact finishSyncCharacter_atBit _
    · have hinside : j + 1 < v.characterBits := by omega
      rw [if_neg hlast, if_neg (by unfold characterLength; omega)]
      exact ⟨.data (j + 1) hinside rfl (congrArg (· + 1) hindex), rfl⟩
  | parity hparity hphase =>
    rw [if_pos (by simp [characterLength, hparity]), sampleSyncReceive_parity hphase]
    exact finishSyncCharacter_atBit _

theorem Sampled.lengths (h : Sampled u u') :
    u'.characterBits = u.characterBits ∧ u'.parityEnabled = u.parityEnabled ∧
      u'.characterLength = u.characterLength ∧ u'.frameBits = u.frameBits ∧
      u'.character = u.character := by
  obtain ⟨high, r, rfl⟩ := h
  exact ⟨rfl, rfl, rfl, rfl, rfl⟩

/-- Bits before the end of a character decide nothing. -/
theorem AtBit.receiveBits_inside (hlistening : u.Listening) (h : AtBit u j) {bits : List Bool}
    (hinside : j + bits.length < u.characterLength) :
    AtBit (u.receiveBits bits) (j + bits.length) ∧
      (u.receiveBits bits).syncDetected = u.syncDetected := by
  induction bits generalizing u j with
  | nil => exact ⟨h, rfl⟩
  | cons high bits ih =>
    rw [List.length_cons] at hinside ⊢
    have hone := receiveBit_sampled hlistening high
    have hnext := h.receiveBit hlistening high
    rw [if_neg (by omega)] at hnext
    obtain ⟨hat, hdetected⟩ := hnext
    obtain ⟨hat', hdetected'⟩ := ih (hone.listening hlistening) hat
      (by rw [hone.lengths.2.2.1]; omega)
    rw [show j + (bits.length + 1) = j + 1 + bits.length by omega]
    exact ⟨hat', hdetected'.trans hdetected⟩

theorem AtBit.receiveBits (hlistening : u.Listening) (h : AtBit u j) (bits : List Bool) :
    AtBit (u.receiveBits bits) ((j + bits.length) % u.characterLength) := by
  induction bits generalizing u j with
  | nil =>
    rw [List.length_nil, Nat.add_zero, Nat.mod_eq_of_lt h.lt]
    exact h
  | cons high bits ih =>
    have hone := receiveBit_sampled hlistening high
    have hnext := h.receiveBit hlistening high
    have hlength := hone.lengths.2.2.1
    rw [List.length_cons]
    by_cases hend : j + 1 = u.characterLength
    · rw [if_pos hend] at hnext
      have hat := ih (hone.listening hlistening) hnext
      rw [hlength, Nat.zero_add] at hat
      rw [show j + (bits.length + 1) = bits.length + u.characterLength by omega, Nat.add_mod_right]
      exact hat
    · rw [if_neg hend] at hnext
      have hat := ih (hone.listening hlistening) hnext.1
      rw [hlength] at hat
      rw [show j + (bits.length + 1) = j + 1 + bits.length by omega]
      exact hat

theorem frameBits_sync (hsync : u.synchronous = true) (value : Byte) :
    u.frameBits value = bitsBelow value u.characterBits ++
      (if u.parityEnabled then [u.parityHigh ((bitsBelow value u.characterBits).count true)] else []) := by
  simp [frameBits, hsync, dataBits, bitsBelow]

theorem frameBits_sync_length (hsync : u.synchronous = true) (value : Byte) :
    (u.frameBits value).length = u.characterLength := by
  rw [frameBits_sync hsync, characterLength]
  split <;> simp [bitsBelow_length]

theorem read_atBit (h : AtBit u j) : AtBit (u.read 0x00#8).2 j := by
  cases h with
  | data j hj hphase hindex => exact .data j hj hphase hindex
  | parity hparity hphase => exact AtBit.parity (u := (u.read 0x00#8).2) hparity hphase

theorem AtBit.receiveCharacters (hlistening : u.Listening) (h : AtBit u j) (characters : List Byte) :
    AtBit (u.receiveCharacters characters).2 j := by
  induction characters generalizing u with
  | nil => exact h
  | cons value rest ih =>
    have hframe := h.receiveBits hlistening (u.frameBits value)
    rw [frameBits_sync_length hlistening.sync, Nat.add_mod_right, Nat.mod_eq_of_lt h.lt] at hframe
    have hone := (receiveBits_sampled hlistening (u.frameBits value)).trans (read_sampled _)
    exact ih (hone.listening hlistening) (read_atBit hframe)

/-! ## Whole characters -/

/-- The receiver is at a character boundary. -/
structure AtCharacter (u : Uart8251) : Prop where
  phase : u.receivePhase = .syncData
  index : u.receiveBitIndex = 0
  shift : u.receiveShift = 0#8

/-- The receive registers after the first `i` data bits of `value`. -/
def afterData (u : Uart8251) (value : Byte) (i : Nat) : SampleState :=
  { phase := .syncData
    clockCount := u.receiveClockCount
    shift := lowBits value i
    bitIndex := i
    parityOnes := u.receiveParityOnes + (bitsBelow value i).count true
    pendingParityError := u.pendingReceiveParityError }

theorem setRxd_withSample_listening (h : u.Listening) (high : Bool) (s : SampleState) :
    ((u.setRxd high).withSample s).Listening :=
  ⟨h.enabled, h.sync, h.inactive, h.empty⟩

/-- One data bit. -/
theorem afterData_bitTaken (u : Uart8251) (value : Byte) (hi : i < 8) (high : Bool)
    (phase : ReceivePhase) :
    ((((u.setRxd high).withSample (u.afterData value i)).setRxd (hasBits value (bitMask i))).bitTaken
        phase) =
      (u.setRxd (hasBits value (bitMask i))).withSample
        { u.afterData value (i + 1) with phase := phase } := by
  have hones : (if hasBits value (bitMask i) then
      u.receiveParityOnes + (bitsBelow value i).count true + 1
      else u.receiveParityOnes + (bitsBelow value i).count true) =
      u.receiveParityOnes + (bitsBelow value (i + 1)).count true := by
    rw [bitsBelow_succ, List.count_append]
    cases hasBits value (bitMask i) <;> simp [Nat.add_assoc]
  unfold afterData
  rw [lowBits_succ value hi, ← hones]
  rfl

theorem receiveBits_data (hlistening : u.Listening) (h : u.AtCharacter) (value : Byte)
    (hi : i < u.characterBits) :
    ∃ high, u.receiveBits (bitsBelow value i) = (u.setRxd high).withSample (u.afterData value i) := by
  induction i with
  | zero =>
    have hself : u = (u.setRxd u.rxdHigh).withSample
        { phase := u.receivePhase, clockCount := u.receiveClockCount, shift := u.receiveShift
          bitIndex := u.receiveBitIndex, parityOnes := u.receiveParityOnes
          pendingParityError := u.pendingReceiveParityError } := rfl
    rw [h.phase, h.shift, h.index] at hself
    refine ⟨u.rxdHigh, ?_⟩
    rw [afterData, lowBits_zero]
    exact hself
  | succ i ih =>
    obtain ⟨high, hbits⟩ := ih (by omega)
    have hbounds := characterBits_bounds u
    refine ⟨hasBits value (bitMask i), ?_⟩
    rw [bitsBelow_succ, receiveBits_append, hbits]
    show ((u.setRxd high).withSample (u.afterData value i)).receiveBit _ = _
    rw [receiveBit_eq (setRxd_withSample_listening hlistening high _), sampleSyncReceive_data rfl,
      if_neg, afterData_bitTaken u value (by omega)]
    · rfl
    · show ¬u.characterBits ≤ i + 1
      omega

/-- A whole character: its data bits and, where there is one, the parity bit. -/
theorem receiveBits_character (hlistening : u.Listening) (h : u.AtCharacter) (value : Byte)
    (parityBit : Bool) :
    ∃ high s, u.receiveBits (bitsBelow value u.characterBits ++
        if u.parityEnabled then [parityBit] else []) =
        ((u.setRxd high).withSample s).finishSyncCharacter ∧
      s.shift = u.character value ∧
      s.pendingParityError =
        if u.parityEnabled then
          parityBit != u.parityHigh
            (u.receiveParityOnes + (bitsBelow value u.characterBits).count true)
        else u.pendingReceiveParityError := by
  have hbounds := characterBits_bounds u
  obtain ⟨n, hn⟩ : ∃ n, u.characterBits = n + 1 := ⟨u.characterBits - 1, by omega⟩
  obtain ⟨high, hdata⟩ := receiveBits_data hlistening h value (i := n) (by omega)
  have hlast (phase : ReceivePhase) := afterData_bitTaken u value (by omega : n < 8) high phase
  have hfull : lowBits value (n + 1) = u.character value := by
    rw [character, characterMask, hn]
    rfl
  have hbit : u.receiveBits (bitsBelow value u.characterBits) =
      if u.parityEnabled then
        (u.setRxd (hasBits value (bitMask n))).withSample
          { u.afterData value (n + 1) with phase := .syncParity }
      else ((u.setRxd (hasBits value (bitMask n))).withSample
        (u.afterData value (n + 1))).finishSyncCharacter := by
    rw [hn, bitsBelow_succ, receiveBits_append, hdata]
    show ((u.setRxd high).withSample (u.afterData value n)).receiveBit _ = _
    rw [receiveBit_eq (setRxd_withSample_listening hlistening high _), sampleSyncReceive_data rfl,
      if_pos, hlast, hlast]
    · rfl
    · show u.characterBits ≤ n + 1
      omega
  cases hparity : u.parityEnabled with
  | false =>
    rw [hparity, if_neg (by decide)] at hbit
    rw [if_neg (by decide), if_neg (by decide), List.append_nil, hbit]
    exact ⟨_, _, rfl, hfull, rfl⟩
  | true =>
    rw [hparity, if_pos rfl] at hbit
    rw [if_pos rfl, if_pos rfl, receiveBits_append, hbit]
    refine ⟨parityBit, { u.afterData value (n + 1) with
      phase := .syncParity
      pendingParityError := parityBit != u.parityHigh
        (u.receiveParityOnes + (bitsBelow value u.characterBits).count true) }, ?_, hfull, rfl⟩
    show Uart8251.receiveBit _ parityBit = _
    rw [receiveBit_eq (setRxd_withSample_listening hlistening _ _), sampleSyncReceive_parity rfl, hn]
    rfl

/-- The receiver is at the boundary of a character that it will check. -/
structure AtFresh (u : Uart8251) : Prop extends u.AtCharacter where
  ones : u.receiveParityOnes = 0
  pending : u.pendingReceiveParityError = false

theorem finishSyncCharacter_fresh (u : Uart8251) : u.finishSyncCharacter.AtFresh :=
  ⟨⟨rfl, rfl, rfl⟩, rfl, rfl⟩

end Uart8251
end FK1
