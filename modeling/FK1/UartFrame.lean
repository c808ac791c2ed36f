import FK1.Uart8251
import FK1.Lib.Oversample

/-!
# FK1.UartFrame

One asynchronous frame seen by the receiver: the bits `frameBits` lays out, what the receive shift
register holds while it waits for a bit, and one receive edge on a line that carries the frame.
-/

namespace FK1
namespace Uart8251

open Oversample

/-! ## The bits of a frame -/

/-- The `count` low bits of `value`, least significant first. -/
def bitsBelow (value : Byte) (count : Nat) : List Bool :=
  (List.range count).map fun bit => hasBits value (bitMask bit)

/-- `value` reduced to its `count` low bits. -/
def lowBits (value : Byte) (count : Nat) : Byte := value &&& BitVec.ofNat 8 (2 ^ count - 1)

/-- What is left of a character in a frame. -/
def character (u : Uart8251) (value : Byte) : Byte := value &&& u.characterMask

/-- The position of the first stop bit in an asynchronous frame. -/
def firstStop (u : Uart8251) : Nat := u.characterBits + (if u.parityEnabled then 1 else 0) + 1

variable {u u' : Uart8251} {value : Byte} {i position : Nat}

theorem characterBits_bounds (u : Uart8251) : 5 ≤ u.characterBits ∧ u.characterBits ≤ 8 := by
  have h : ((u.modeWord >>> 2) &&& 0x03#8).toNat ≤ 3 := by
    rw [BitVec.toNat_and]
    exact Nat.and_le_right
  unfold characterBits
  omega

/-- What depends on the mode word alone agrees for two chips in one mode. -/
theorem of_mode {α : Type} (f : Uart8251 → α) (hf : ∀ u, f u = f { modeWord := u.modeWord })
    (hmode : u'.modeWord = u.modeWord) : f u' = f u := by
  rw [hf u', hf u, hmode]

theorem baudFactor_pos (u : Uart8251) : 0 < u.baudFactor := by
  unfold baudFactor
  split <;> decide

theorem stopBits_bounds (u : Uart8251) : 1 ≤ u.stopBits ∧ u.stopBits ≤ 2 := by
  unfold stopBits
  split <;> omega

/-- No frame is shorter than five data bits, or longer than the array has room for. -/
theorem frameBits_bounds (u : Uart8251) (value : Byte) :
    5 ≤ (u.frameBits value).length ∧ (u.frameBits value).length ≤ 12 := by
  have hdata : (u.dataBits value).length = u.characterBits := by simp [dataBits]
  have hbits := characterBits_bounds u
  have hstop := stopBits_bounds u
  simp only [frameBits, List.length_append, hdata]
  refine ⟨by omega, ?_⟩
  cases u.synchronous <;> cases u.parityEnabled <;> simp <;> omega

theorem bitsBelow_succ (value : Byte) (count : Nat) :
    bitsBelow value (count + 1) = bitsBelow value count ++ [hasBits value (bitMask count)] := by
  simp [bitsBelow, List.range_succ]

theorem bitsBelow_length (value : Byte) (count : Nat) : (bitsBelow value count).length = count := by
  simp [bitsBelow]

theorem getElem?_bitsBelow {count : Nat} (hi : i < count) :
    (bitsBelow value count)[i]? = some (hasBits value (bitMask i)) := by
  simp [bitsBelow, hi]

theorem lowBits_zero (value : Byte) : lowBits value 0 = 0#8 := by
  simp [lowBits]

theorem lowBits_succ (value : Byte) (hi : i < 8) :
    lowBits value (i + 1) =
      if hasBits value (bitMask i) then lowBits value i ||| bitMask i else lowBits value i := by
  have h : ∀ (value : Byte) (i : Fin 8), lowBits value (i.val + 1) =
      if hasBits value (bitMask i.val) then lowBits value i.val ||| bitMask i.val
      else lowBits value i.val := by decide +kernel
  exact h value ⟨i, hi⟩

theorem character_idem (u : Uart8251) (value : Byte) :
    u.character value &&& u.characterMask = u.character value := by
  rw [character, BitVec.and_assoc, BitVec.and_self]

theorem frameBits_async (hasync : u.synchronous = false) (value : Byte) :
    u.frameBits value = false :: (bitsBelow value u.characterBits
      ++ ((if u.parityEnabled then [u.parityHigh ((bitsBelow value u.characterBits).count true)]
          else [])
        ++ List.replicate u.stopBits true)) := by
  simp [frameBits, hasync, dataBits, bitsBelow]

theorem frameBits_length (hasync : u.synchronous = false) (value : Byte) :
    (u.frameBits value).length = u.firstStop + u.stopBits := by
  rw [frameBits_async hasync, firstStop]
  split <;> simp [bitsBelow_length] <;> omega

theorem frameBits_start (hasync : u.synchronous = false) (value : Byte) :
    (u.frameBits value).getD 0 true = false := by
  rw [frameBits_async hasync]
  rfl

theorem frameBits_data (hasync : u.synchronous = false) (value : Byte) (hi : i < u.characterBits) :
    (u.frameBits value).getD (i + 1) true = hasBits value (bitMask i) := by
  rw [frameBits_async hasync, List.getD_cons_succ, List.getD_eq_getElem?_getD,
    List.getElem?_append_left (by rw [bitsBelow_length]; exact hi), getElem?_bitsBelow hi,
    Option.getD_some]

theorem frameBits_parity (hasync : u.synchronous = false) (value : Byte)
    (hparity : u.parityEnabled = true) :
    (u.frameBits value).getD (u.characterBits + 1) true
      = u.parityHigh ((bitsBelow value u.characterBits).count true) := by
  rw [frameBits_async hasync, List.getD_cons_succ, List.getD_eq_getElem?_getD,
    List.getElem?_append_right (by rw [bitsBelow_length]), bitsBelow_length, if_pos hparity]
  simp

theorem frameBits_stop (hasync : u.synchronous = false) (value : Byte) (hi : u.firstStop ≤ i) :
    (u.frameBits value).getD i true = true := by
  obtain ⟨k, rfl⟩ : ∃ k, i = u.firstStop + k := ⟨i - u.firstStop, by omega⟩
  rw [frameBits_async hasync, List.getD_eq_getElem?_getD]
  cases hp : u.parityEnabled with
  | false =>
    have hk : u.firstStop + k = (bitsBelow value u.characterBits).length + k + 1 := by
      simp [firstStop, hp, bitsBelow_length]
      omega
    rw [hk, List.getElem?_cons_succ, List.getElem?_append_right (by omega)]
    by_cases hlt : k < u.stopBits <;> simp [hlt]
  | true =>
    have hk : u.firstStop + k = (bitsBelow value u.characterBits).length + (k + 1) + 1 := by
      simp [firstStop, hp, bitsBelow_length]
      omega
    rw [hk, List.getElem?_cons_succ, List.getElem?_append_right (by omega), if_pos rfl,
      Nat.add_sub_cancel_left, List.singleton_append, List.getElem?_cons_succ]
    by_cases hlt : k < u.stopBits <;> simp [hlt]

/-! ## The receiver inside a frame -/

/-- The receive registers while the receiver waits to sample one bit of the frame of `value`. -/
inductive Sampling (u : Uart8251) (value : Byte) : Nat → Prop where
  | start (hphase : u.receivePhase = .start) : Sampling u value 0
  | data (i : Nat) (hi : i < u.characterBits) (hphase : u.receivePhase = .data)
      (hindex : u.receiveBitIndex = i) (hshift : u.receiveShift = lowBits value i)
      (hones : u.receiveParityOnes = (bitsBelow value i).count true)
      (hpending : u.pendingReceiveParityError = false) : Sampling u value (i + 1)
  | parity (hparity : u.parityEnabled = true) (hphase : u.receivePhase = .parity)
      (hshift : u.receiveShift = u.character value)
      (hones : u.receiveParityOnes = (bitsBelow value u.characterBits).count true) :
      Sampling u value (u.characterBits + 1)
  | stop (hphase : u.receivePhase = .stop) (hshift : u.receiveShift = u.character value)
      (hpending : u.pendingReceiveParityError = false) : Sampling u value u.firstStop

/-- The edge, counted from the frame's first, that samples the first stop bit. -/
def lastSample (u : Uart8251) : Nat := u.baudFactor * u.firstStop + u.baudFactor / 2

/-- The receiver after `position` edges of a frame of `value`: it has yet to see the start bit,
waits for the middle of a bit, or has had the first stop bit. -/
inductive Receiving (u : Uart8251) (value : Byte) (position : Nat) : Prop where
  | waiting (hphase : u.receivePhase = .idle) (hzero : position = 0)
  | sampling (index : Nat) (hbit : Sampling u value index)
      (hclock : Awaiting u.baudFactor position index u.receiveClockCount)
  | done (hphase : u.receivePhase = .idle)
      (hlate : u.lastSample < position)

/-- The receive registers other than the buffer and its flags. -/
structure SampleState where
  phase : ReceivePhase
  clockCount : Nat
  shift : Byte
  bitIndex : Nat
  parityOnes : Nat
  pendingParityError : Bool

def sampleState (u : Uart8251) : SampleState :=
  { phase := u.receivePhase
    clockCount := u.receiveClockCount
    shift := u.receiveShift
    bitIndex := u.receiveBitIndex
    parityOnes := u.receiveParityOnes
    pendingParityError := u.pendingReceiveParityError }

def withSample (u : Uart8251) (s : SampleState) : Uart8251 :=
  { u with
    receivePhase := s.phase
    receiveClockCount := s.clockCount
    receiveShift := s.shift
    receiveBitIndex := s.bitIndex
    receiveParityOnes := s.parityOnes
    pendingReceiveParityError := s.pendingParityError }

/-- A character has arrived. -/
def withCharacter (u : Uart8251) (byte : Byte) : Uart8251 :=
  { u with
    receivePhase := .idle
    receiveClockCount := u.baudFactor
    receiveBuffer := byte
    receiveReady := true }

/-- The next edge samples a stop bit: `receive_byte` is about to be called. -/
def completesCharacter (u : Uart8251) : Prop := u.receivePhase = .stop ∧ u.receiveClockCount ≤ 1

instance (u : Uart8251) : Decidable u.completesCharacter := by
  unfold completesCharacter
  infer_instance

theorem shiftReceiveBit_eq (u : Uart8251) :
    u.shiftReceiveBit = { u with
      receiveShift := if u.rxdHigh then u.receiveShift ||| bitMask u.receiveBitIndex
        else u.receiveShift
      receiveParityOnes := if u.rxdHigh then u.receiveParityOnes + 1 else u.receiveParityOnes
      receiveBitIndex := u.receiveBitIndex + 1 } := by
  unfold shiftReceiveBit
  by_cases hhigh : u.rxdHigh = true
  · simp only [if_pos hhigh]
  · simp only [if_neg hhigh]

theorem sampleAsyncReceive_data (hphase : u.receivePhase = .data) :
    u.sampleAsyncReceive = u.withSample
      { phase := if u.characterBits ≤ u.receiveBitIndex + 1 then
            if u.parityEnabled then .parity else .stop
          else .data
        clockCount := u.receiveClockCount
        shift := if u.rxdHigh then u.receiveShift ||| bitMask u.receiveBitIndex else u.receiveShift
        bitIndex := u.receiveBitIndex + 1
        parityOnes := if u.rxdHigh then u.receiveParityOnes + 1 else u.receiveParityOnes
        pendingParityError := u.pendingReceiveParityError } := by
  have hbits : u.shiftReceiveBit.characterBits = u.characterBits := by
    rw [shiftReceiveBit_eq]
    rfl
  have hparity : u.shiftReceiveBit.parityEnabled = u.parityEnabled := by
    rw [shiftReceiveBit_eq]
    rfl
  have hindex : u.shiftReceiveBit.receiveBitIndex = u.receiveBitIndex + 1 := by
    rw [shiftReceiveBit_eq]
  simp only [sampleAsyncReceive, hphase, hbits, hparity, hindex, ge_iff_le]
  by_cases hlast : u.characterBits ≤ u.receiveBitIndex + 1
  · rw [if_pos hlast, if_pos hlast, shiftReceiveBit_eq]
    rfl
  · rw [if_neg hlast, if_neg hlast, shiftReceiveBit_eq, ← hphase]
    rfl

/-- Sampling a bit before the first stop bit moves the receiver to the next one. -/
theorem Sampling.next (hasync : u.synchronous = false) (h : Sampling u value i)
    (hline : u.rxdHigh = (u.frameBits value).getD i true) (hi : i ≠ u.firstStop) :
    ∃ s, u.sampleAsyncReceive = u.withSample s ∧ s.clockCount = u.receiveClockCount ∧
      Sampling (u.withSample s) value (i + 1) := by
  have hbits := characterBits_bounds u
  cases h with
  | start hphase =>
    rw [frameBits_start hasync] at hline
    refine ⟨⟨.data, u.receiveClockCount, 0#8, 0, 0, false⟩, ?_, rfl, ?_⟩
    · simp [sampleAsyncReceive, hphase, hline, withSample]
    · exact .data 0 (show 0 < u.characterBits by omega) rfl rfl (lowBits_zero value).symm rfl rfl
  | data i hi' hphase hindex hshift hones hpending =>
    rw [frameBits_data hasync value hi'] at hline
    have hshift' : (if u.rxdHigh then u.receiveShift ||| bitMask u.receiveBitIndex
        else u.receiveShift) = lowBits value (i + 1) := by
      rw [lowBits_succ value (by omega), hline, hindex, hshift]
    have hones' : (if u.rxdHigh then u.receiveParityOnes + 1 else u.receiveParityOnes)
        = (bitsBelow value (i + 1)).count true := by
      rw [bitsBelow_succ, List.count_append, hline, hones]
      cases hasBits value (bitMask i) <;> simp
    refine ⟨_, sampleAsyncReceive_data hphase, rfl, ?_⟩
    rw [hshift', hones', hindex, hpending]
    by_cases hlast : i + 1 < u.characterBits
    · rw [if_neg (by omega)]
      exact .data (i + 1) hlast rfl rfl rfl rfl rfl
    · obtain hend : i + 1 = u.characterBits := by omega
      rw [if_pos (by omega), hend]
      cases hparity : u.parityEnabled with
      | true => exact .parity hparity rfl rfl rfl
      | false =>
        have hstop : u.firstStop = u.characterBits + 1 := by simp [firstStop, hparity]
        rw [← hstop]
        exact .stop rfl rfl rfl
  | parity hparity hphase hshift hones =>
    rw [frameBits_parity hasync value hparity] at hline
    refine ⟨⟨.stop, u.receiveClockCount, u.character value, u.receiveBitIndex,
      u.receiveParityOnes, false⟩, ?_, rfl, ?_⟩
    · have hpending : (u.rxdHigh != u.parityHigh u.receiveParityOnes) = false := by
        rw [hline, hones, bne_self_eq_false]
      simp [sampleAsyncReceive, hphase, withSample, hpending, hshift]
    · have hstop : u.firstStop = u.characterBits + 1 + 1 := by simp [firstStop, hparity]
      rw [← hstop]
      exact .stop rfl rfl rfl
  | stop hphase hshift hpending => exact absurd rfl hi

theorem receiveByte_ready (henabled : u.receiverEnabled = true) (hready : u.receiveReady = false) :
    u.receiveByte value false false =
      { u with receiveBuffer := value &&& u.characterMask, receiveReady := true } := by
  simp [receiveByte, henabled, hready]

theorem receiveClockEdge_active (henabled : u.receiverEnabled = true)
    (hasync : u.synchronous = false) (hphase : u.receivePhase ≠ .idle) :
    u.receiveClockEdge = if u.receiveClockCount > 1 then
        { u with receiveClockCount := u.receiveClockCount - 1 }
      else { u with receiveClockCount := u.baudFactor }.sampleAsyncReceive := by
  simp [receiveClockEdge, henabled, hasync, hphase]

theorem Sampling.not_idle (h : Sampling u value i) : u.receivePhase ≠ .idle := by
  cases h with
  | start hphase => simp [hphase]
  | data i hi hphase => simp [hphase]
  | parity hparity hphase => simp [hphase]
  | stop hphase => simp [hphase]

/-- The phase is `stop` exactly while the first stop bit is awaited. -/
theorem Sampling.stop_iff (h : Sampling u value i) : u.receivePhase = .stop ↔ i = u.firstStop := by
  cases h with
  | start hphase => simp [hphase, firstStop]
  | data i hi hphase =>
    simp [hphase, firstStop]
    omega
  | parity hparity hphase => simp [hphase, firstStop, hparity]
  | stop hphase => simp [hphase]

theorem Sampling.le_firstStop (h : Sampling u value i) : i ≤ u.firstStop := by
  cases h with
  | start => exact Nat.zero_le _
  | data i hi =>
    unfold firstStop
    omega
  | parity hparity =>
    simp [firstStop, hparity]
  | stop => exact Nat.le_refl _

/-- The registers a sample depends on, whatever else moves. -/
theorem Sampling.transfer (hmode : u'.modeWord = u.modeWord)
    (hsample : u'.sampleState = u.sampleState) (h : Sampling u value i) : Sampling u' value i := by
  simp only [sampleState, SampleState.mk.injEq] at hsample
  obtain ⟨hphase', -, hshift', hindex', hones', hpending'⟩ := hsample
  have hbits : u'.characterBits = u.characterBits := of_mode characterBits (fun _ => rfl) hmode
  have hparity' : u'.parityEnabled = u.parityEnabled := of_mode parityEnabled (fun _ => rfl) hmode
  have hcharacter : u'.character value = u.character value :=
    of_mode (character · value) (fun _ => rfl) hmode
  have hstop : u'.firstStop = u.firstStop := of_mode firstStop (fun _ => rfl) hmode
  cases h with
  | start hphase => exact .start (hphase'.trans hphase)
  | data i hi hphase hindex hshift hones hpending =>
    exact .data i (hbits ▸ hi) (hphase'.trans hphase) (hindex'.trans hindex)
      (hshift'.trans hshift) (hones'.trans hones) (hpending'.trans hpending)
  | parity hparity hphase hshift hones =>
    rw [← hbits]
    refine .parity (hparity'.trans hparity) (hphase'.trans hphase) ?_ ?_
    · rw [hshift', hshift, hcharacter]
    · rw [hones', hones, hbits]
  | stop hphase hshift hpending =>
    rw [← hstop]
    refine .stop (hphase'.trans hphase) ?_ (hpending'.trans hpending)
    rw [hshift', hshift, hcharacter]

theorem Receiving.transfer (hmode : u'.modeWord = u.modeWord)
    (hsample : u'.sampleState = u.sampleState) (h : Receiving u value position) :
    Receiving u' value position := by
  have hphase' : u'.receivePhase = u.receivePhase := congrArg SampleState.phase hsample
  have hcount' : u'.receiveClockCount = u.receiveClockCount := congrArg SampleState.clockCount hsample
  have hfactor : u'.baudFactor = u.baudFactor := of_mode baudFactor (fun _ => rfl) hmode
  have hlast : u'.lastSample = u.lastSample := of_mode lastSample (fun _ => rfl) hmode
  cases h with
  | waiting hphase hzero => exact .waiting (hphase'.trans hphase) hzero
  | sampling index hbit hclock =>
    refine .sampling index (hbit.transfer hmode hsample) ?_
    rw [hfactor, hcount']
    exact hclock
  | done hphase hlate => exact .done (hphase'.trans hphase) (hlast ▸ hlate)

theorem Sampling.reclock (h : Sampling u value i) (count : Nat) :
    Sampling { u with receiveClockCount := count } value i := by
  cases h with
  | start hphase => exact .start hphase
  | data i hi hphase hindex hshift hones hpending =>
    exact .data i hi hphase hindex hshift hones hpending
  | parity hparity hphase hshift hones => exact .parity hparity hphase hshift hones
  | stop hphase hshift hpending => exact .stop hphase hshift hpending

/-- The receiver rests on an idle line. -/
theorem receiveClockEdge_rest (hasync : u.synchronous = false) (hphase : u.receivePhase = .idle)
    (hhigh : u.rxdHigh = true) : u.receiveClockEdge = u := by
  simp [receiveClockEdge, hasync, hphase, hhigh]

/-- Sampling the first stop bit delivers the character. -/
theorem Sampling.finish (henabled : u.receiverEnabled = true) (h : Sampling u value u.firstStop)
    (hhigh : u.rxdHigh = true) (hready : u.receiveReady = false) :
    u.sampleAsyncReceive =
      { u with receivePhase := .idle, receiveBuffer := u.character value, receiveReady := true } := by
  have hphase : u.receivePhase = .stop := h.stop_iff.mpr rfl
  obtain ⟨hshift, hpending⟩ : u.receiveShift = u.character value
      ∧ u.pendingReceiveParityError = false := by
    generalize hi : u.firstStop = i at h
    cases h with
    | start hphase' => simp [hphase'] at hphase
    | data i _ hphase' => simp [hphase'] at hphase
    | parity _ hphase' => simp [hphase'] at hphase
    | stop _ hshift hpending => exact ⟨hshift, hpending⟩
  simp only [sampleAsyncReceive, hphase, hhigh, hpending, Bool.not_true,
    receiveByte_ready henabled hready, hshift, character_idem]

/-- The stop bit is sampled at one position. -/
theorem Receiving.completes_iff (h : Receiving u value position) :
    u.completesCharacter ↔ position = u.lastSample := by
  cases h with
  | waiting hphase hzero =>
    have hpos : 0 < u.baudFactor := baudFactor_pos u
    have hfirst : 0 < u.baudFactor * u.firstStop := Nat.mul_pos hpos (Nat.succ_pos _)
    simp [completesCharacter, hphase, lastSample, hzero]
    omega
  | sampling index hbit hclock =>
    constructor
    · rintro ⟨hphase, hcount⟩
      obtain rfl := hbit.stop_iff.mp hphase
      exact hclock.position_eq hcount
    · intro hposition
      obtain ⟨heq, hpos, hle⟩ := hclock
      have hmul : u.baudFactor * index ≤ u.baudFactor * u.firstStop :=
        Nat.mul_le_mul_left _ hbit.le_firstStop
      unfold lastSample at hposition
      have hindex : index = u.firstStop :=
        Nat.eq_of_mul_eq_mul_left (baudFactor_pos u) (by omega)
      exact ⟨hbit.stop_iff.mpr hindex, by omega⟩
  | done hphase hlate =>
    simp [completesCharacter, hphase]
    omega

theorem Receiving.idle_of_late (h : Receiving u value position) (hlate : u.lastSample < position) :
    u.receivePhase = .idle := by
  cases h with
  | waiting hphase => exact hphase
  | sampling index hbit hclock =>
    have hmul : u.baudFactor * index ≤ u.baudFactor * u.firstStop :=
      Nat.mul_le_mul_left _ hbit.le_firstStop
    obtain ⟨heq, hpos, _⟩ := hclock
    unfold lastSample at hlate
    omega
  | done hphase => exact hphase

/-- The first stop bit is sampled before the frame ends. -/
theorem lastSample_lt (u : Uart8251) :
    u.lastSample < u.baudFactor * (u.firstStop + u.stopBits) := by
  have hstop : u.baudFactor * 1 ≤ u.baudFactor * u.stopBits :=
    Nat.mul_le_mul_left _ (stopBits_bounds u).1
  have hpos := baudFactor_pos u
  unfold lastSample
  rw [Nat.mul_add]
  omega

/-- One receive edge while the line carries the frame of `value`. -/
theorem Receiving.edge (henabled : u.receiverEnabled = true) (hasync : u.synchronous = false)
    (hfactor : 2 ≤ u.baudFactor) (h : Receiving u value position)
    (hline : u.rxdHigh = (u.frameBits value).getD (position / u.baudFactor) true)
    (hready : u.completesCharacter → u.receiveReady = false) :
    (¬u.completesCharacter ∧ ∃ s, u.receiveClockEdge = u.withSample s
        ∧ Receiving (u.withSample s) value (position + 1)) ∨
    (u.completesCharacter ∧ u.receiveClockEdge = u.withCharacter (u.character value)
      ∧ Receiving (u.withCharacter (u.character value)) value (position + 1)) := by
  cases h with
  | waiting hphase hzero =>
    subst hzero
    rw [Nat.zero_div, frameBits_start hasync] at hline
    refine .inl ⟨by simp [completesCharacter, hphase], { u.sampleState with
      phase := .start, clockCount := u.baudFactor / 2 }, ?_, ?_⟩
    · have hone : 1 < u.baudFactor := hfactor
      simp [receiveClockEdge, henabled, hasync, hphase, hline, hone, withSample, sampleState]
    · exact .sampling 0 (.start rfl) (Awaiting.start hfactor)
  | sampling index hbit hclock =>
    rw [receiveClockEdge_active henabled hasync hbit.not_idle]
    by_cases hcount : u.receiveClockCount > 1
    · refine .inl ⟨fun h => absurd h.2 (by omega), { u.sampleState with
        clockCount := u.receiveClockCount - 1 }, ?_, ?_⟩
      · rw [if_pos hcount]
        rfl
      · exact .sampling index (hbit.reclock _) (hclock.tick hcount)
    · have hle : u.receiveClockCount ≤ 1 := by omega
      rw [if_neg hcount]
      rw [hclock.sampled hfactor hle] at hline
      by_cases hindex : index = u.firstStop
      · subst hindex
        have hcompletes : u.completesCharacter := ⟨hbit.stop_iff.mpr rfl, hle⟩
        have hlate : u.lastSample < position + 1 := by
          rw [hclock.position_eq hle]
          exact Nat.lt_succ_self _
        refine .inr ⟨hcompletes, ?_, .done rfl hlate⟩
        rw [frameBits_stop hasync value (Nat.le_refl _)] at hline
        exact (hbit.reclock u.baudFactor).finish henabled hline (hready hcompletes)
      · obtain ⟨s, hs, hcount', hnext⟩ := @Sampling.next { u with receiveClockCount := u.baudFactor }
          value index hasync (hbit.reclock _) hline hindex
        refine .inl ⟨fun h => hindex (hbit.stop_iff.mp h.1), s, hs, .sampling (index + 1) hnext ?_⟩
        have hreload : Awaiting u.baudFactor (position + 1) (index + 1) s.clockCount :=
          hcount' ▸ hclock.reload hle
        exact hreload
  | done hphase hlate =>
    have hbit : u.firstStop ≤ position / u.baudFactor := by
      have hle : u.baudFactor * u.firstStop ≤ position := by
        unfold lastSample at hlate
        omega
      rw [Nat.le_div_iff_mul_le (by omega), Nat.mul_comm]
      exact hle
    rw [frameBits_stop hasync value hbit] at hline
    refine .inl ⟨by simp [completesCharacter, hphase], u.sampleState,
      receiveClockEdge_rest hasync hphase hline, .done hphase (Nat.lt_succ_of_lt hlate)⟩

/-! ## Characters under way -/

/-- The receiver holds a character the guest has not read. -/
def unread (u : Uart8251) : List Byte := if u.receiveReady then [u.receiveBuffer] else []

/-- The byte of a frame while it is not yet in the buffer. -/
def pending (u : Uart8251) (value : Byte) (position : Nat) : List Byte :=
  if position ≤ u.lastSample then [value] else []

def withBuffer (u : Uart8251) (buffer : Byte) (ready : Bool) : Uart8251 :=
  { u with receiveBuffer := buffer, receiveReady := ready }

/-- One receive edge of a served receiver: the character of the frame is pending or unread. -/
theorem Receiving.follow (henabled : u.receiverEnabled = true) (hasync : u.synchronous = false)
    (hfactor : 2 ≤ u.baudFactor) (h : Receiving u value position)
    (hline : u.rxdHigh = (u.frameBits value).getD (position / u.baudFactor) true)
    (hserved : u.receiveReady = true → ¬u.completesCharacter) :
    ∃ s buffer ready, u.receiveClockEdge = (u.withSample s).withBuffer buffer ready
      ∧ Receiving ((u.withSample s).withBuffer buffer ready) value (position + 1)
      ∧ (if ready then [buffer] else []) ++ (u.pending value (position + 1)).map u.character
        = u.unread ++ (u.pending value position).map u.character := by
  have hposition := h.completes_iff
  have hready : u.completesCharacter → u.receiveReady = false := by
    intro hcompletes
    cases hr : u.receiveReady with
    | false => rfl
    | true => exact absurd hcompletes (hserved hr)
  rcases h.edge henabled hasync hfactor hline hready with ⟨hmore, s, hs, hnext⟩ | ⟨hlast, hs, hnext⟩
  · refine ⟨s, u.receiveBuffer, u.receiveReady, hs, hnext, ?_⟩
    have hne : position ≠ u.lastSample := fun h => hmore (hposition.mpr h)
    have hpending : u.pending value (position + 1) = u.pending value position := by
      unfold pending
      by_cases hle : position ≤ u.lastSample
      · rw [if_pos hle, if_pos (by omega)]
      · rw [if_neg hle, if_neg (by omega)]
    rw [hpending]
    rfl
  · refine ⟨{ u.sampleState with phase := .idle, clockCount := u.baudFactor }, u.character value,
      true, hs, hnext, ?_⟩
    have heq : position = u.lastSample := hposition.mp hlast
    have hbefore : u.pending value position = [value] := if_pos (by omega)
    have hafter : u.pending value (position + 1) = [] := if_neg (by omega)
    have hempty : u.unread = [] := by rw [unread, hready hlast]; rfl
    rw [hbefore, hafter, hempty]
    rfl

end Uart8251
end FK1
