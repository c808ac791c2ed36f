import FK1.Lib.Sampler
import FK1.UartFlags

/-!
# FK1.UartLine

The asynchronous receiver of the 8251 on any line: noise, wrong parity, missing stop bits and breaks as
well as proper frames. What it passes on is what `Sampler.frames` finds on the line (`line_decoded`).
-/

namespace FK1
namespace Uart8251

open Sampler

variable {u u' : Uart8251}

/-! ## Frames -/

/-- The clocks from the first low level to the next look at the line: half a bit, or at x1 a whole one. -/
def halfBit (u : Uart8251) : Nat := if u.baudFactor > 1 then u.baudFactor / 2 else 1

/-- The first bit is the least significant. -/
def characterOf (data : List Bool) : Byte := (BitVec.ofBoolListLE data).setWidth 8

/-- The levels of a frame from the first data bit to the first stop bit. -/
def reception (u : Uart8251) (bits : List Bool) : Reception :=
  let data := bits.take u.characterBits
  { character := characterOf data
    parityError :=
      u.parityEnabled && bits.getD u.characterBits true != u.parityHigh (data.count true)
    framingError := !bits.getD (u.firstStop - 1) true }

theorem getLsbD_characterOf (data : List Bool) (i : Nat) :
    (characterOf data).getLsbD i = (decide (i < 8) && data.getD i false) := by
  simp [characterOf, BitVec.getLsbD_setWidth]

theorem characterOf_append {data : List Bool} (hlt : data.length < 8) (level : Bool) :
    characterOf (data ++ [level]) =
      if level then characterOf data ||| bitMask data.length else characterOf data := by
  refine BitVec.eq_of_getLsbD_eq fun i hi => ?_
  have hmask : ∀ bit i : Fin 8, (bitMask bit.val).getLsbD i.val = decide (i.val = bit.val) := by decide
  have hbit := hmask ⟨data.length, hlt⟩ ⟨i, hi⟩
  dsimp only at hbit
  have hlast : (data ++ [level]).getD i false =
      (data.getD i false || (decide (i = data.length) && level)) := by
    rcases Nat.lt_trichotomy i data.length with h | rfl | h
    · simp [List.getD_eq_getElem?_getD, List.getElem?_append_left h, Nat.ne_of_lt h]
    · simp
    · rw [List.getD_eq_default _ _ (by simp; omega), List.getD_eq_default _ _ (by omega)]
      simp
      omega
  rw [getLsbD_characterOf, hlast]
  cases level with
  | false => rw [if_neg Bool.false_ne_true, getLsbD_characterOf, Bool.and_false, Bool.or_false]
  | true =>
    rw [if_pos rfl, BitVec.getLsbD_or, getLsbD_characterOf, hbit]
    simp [hi]

theorem character_characterOf {data : List Bool} (hle : data.length ≤ u.characterBits) :
    u.character (characterOf data) = characterOf data := by
  refine BitVec.eq_of_getLsbD_eq fun i hi => ?_
  rw [character, BitVec.getLsbD_and, getLsbD_characterOf, characterMask, BitVec.getLsbD_ofNat,
    Nat.testBit_two_pow_sub_one]
  by_cases hdata : i < data.length
  · have hbits : i < u.characterBits := by omega
    simp [hi, hbits]
  · rw [List.getD_eq_default _ _ (by omega)]
    simp

/-! ## The receiver inside a frame -/

/-- The phase of the receiver, as a sampler of the line. -/
inductive At (u : Uart8251) : Phase → Prop where
  | waiting (hphase : u.receivePhase = .idle) : At u .waiting
  | starting (hphase : u.receivePhase = .start) : At u (.starting u.receiveClockCount)
  | data (bits : List Bool) (hphase : u.receivePhase = .data) (hbits : bits.length < u.characterBits)
      (hindex : u.receiveBitIndex = bits.length) (hshift : u.receiveShift = characterOf bits)
      (hones : u.receiveParityOnes = bits.count true) (hpending : u.pendingReceiveParityError = false) :
      At u (.taking bits u.receiveClockCount)
  | parity (bits : List Bool) (hphase : u.receivePhase = .parity) (hparity : u.parityEnabled = true)
      (hbits : bits.length = u.characterBits) (hshift : u.receiveShift = characterOf bits)
      (hones : u.receiveParityOnes = bits.count true) : At u (.taking bits u.receiveClockCount)
  | stop (bits : List Bool) (hphase : u.receivePhase = .stop) (hbits : bits.length + 1 = u.firstStop)
      (hshift : u.receiveShift = characterOf (bits.take u.characterBits))
      (hpending : u.pendingReceiveParityError = (u.parityEnabled &&
        bits.getD u.characterBits true != u.parityHigh ((bits.take u.characterBits).count true))) :
      At u (.taking bits u.receiveClockCount)

/-- The registers a phase depends on, whatever else moves. -/
theorem At.transfer {phase : Phase} (hmode : u'.modeWord = u.modeWord)
    (hsample : u'.sampleState = u.sampleState) (h : At u phase) : At u' phase := by
  simp only [sampleState, SampleState.mk.injEq] at hsample
  obtain ⟨hphase', hcount', hshift', hindex', hones', hpending'⟩ := hsample
  have hbits' : u'.characterBits = u.characterBits := of_mode characterBits (fun _ => rfl) hmode
  have hparity' : u'.parityEnabled = u.parityEnabled := of_mode parityEnabled (fun _ => rfl) hmode
  have hhigh' : ∀ ones, u'.parityHigh ones = u.parityHigh ones :=
    fun ones => of_mode (parityHigh · ones) (fun _ => rfl) hmode
  have hstop' : u'.firstStop = u.firstStop := of_mode firstStop (fun _ => rfl) hmode
  cases h with
  | waiting hphase => exact .waiting (hphase'.trans hphase)
  | starting hphase => exact hcount' ▸ .starting (hphase'.trans hphase)
  | data bits hphase hbits hindex hshift hones hpending =>
    rw [← hcount']
    exact .data bits (hphase'.trans hphase) (hbits' ▸ hbits) (hindex'.trans hindex)
      (hshift'.trans hshift) (hones'.trans hones) (hpending'.trans hpending)
  | parity bits hphase hparity hbits hshift hones =>
    rw [← hcount']
    exact .parity bits (hphase'.trans hphase) (hparity'.trans hparity) (hbits.trans hbits'.symm)
      (hshift'.trans hshift) (hones'.trans hones)
  | stop bits hphase hbits hshift hpending =>
    rw [← hcount']
    refine .stop bits (hphase'.trans hphase) (hbits.trans hstop'.symm) ?_ ?_
    · rw [hshift', hshift, hbits']
    · rw [hpending', hpending, hbits', hparity', hhigh']

/-- Between two looks at the line. -/
theorem At.count {bits : List Bool} (h : At u (.taking bits u.receiveClockCount)) (count : Nat) :
    At { u with receiveClockCount := count } (.taking bits count) := by
  cases h with
  | data bits hphase hbits hindex hshift hones hpending =>
    exact @At.data { u with receiveClockCount := count } bits hphase hbits hindex hshift hones hpending
  | parity bits hphase hparity hbits hshift hones =>
    exact @At.parity { u with receiveClockCount := count } bits hphase hparity hbits hshift hones
  | stop bits hphase hbits hshift hpending =>
    exact @At.stop { u with receiveClockCount := count } bits hphase hbits hshift hpending

theorem completed_async (henabled : u.receiverEnabled = true) (hasync : u.synchronous = false) :
    u.completed = if u.completesCharacter then
      some ⟨u.character u.receiveShift, u.pendingReceiveParityError, !u.rxdHigh⟩ else none := by
  rw [completed, henabled, hasync]
  rfl

/-- A level that does not end the frame. -/
theorem At.next {bits : List Bool} (h : At u (.taking bits u.receiveClockCount))
    (hmore : bits.length + 1 < u.firstStop) :
    At u.sampleAsyncReceive (.taking (bits ++ [u.rxdHigh]) u.receiveClockCount) := by
  have hbounds := characterBits_bounds u
  cases h with
  | data _ hphase hbits hindex hshift hones hpending =>
    have hlength : (bits ++ [u.rxdHigh]).length = bits.length + 1 := by simp
    have hshift' : (if u.rxdHigh then u.receiveShift ||| bitMask u.receiveBitIndex else u.receiveShift) =
        characterOf (bits ++ [u.rxdHigh]) := by
      rw [characterOf_append (by omega), hshift, hindex]
    have hones' : (if u.rxdHigh then u.receiveParityOnes + 1 else u.receiveParityOnes) =
        (bits ++ [u.rxdHigh]).count true := by
      rw [List.count_append, hones]
      cases u.rxdHigh <;> simp
    rw [sampleAsyncReceive_data hphase, hshift', hones', hindex, hpending]
    by_cases hmoreData : u.characterBits ≤ bits.length + 1
    · have hfull : bits.length + 1 = u.characterBits := by omega
      rw [if_pos hmoreData]
      cases hparity : u.parityEnabled with
      | true =>
        rw [if_pos rfl]
        exact @At.parity (u.withSample _) (bits ++ [u.rxdHigh]) rfl hparity (hlength.trans hfull) rfl rfl
      | false =>
        have hstop : u.firstStop = u.characterBits + 1 := by simp [firstStop, hparity]
        have htake : (bits ++ [u.rxdHigh]).take u.characterBits = bits ++ [u.rxdHigh] :=
          List.take_of_length_le (by omega)
        rw [if_neg Bool.false_ne_true]
        refine @At.stop (u.withSample _) (bits ++ [u.rxdHigh]) rfl ?_ ?_ ?_
        · exact (by omega : (bits ++ [u.rxdHigh]).length + 1 = u.firstStop)
        · exact congrArg characterOf htake.symm
        · have hpar : ∀ s, (u.withSample s).parityEnabled = false := fun _ => hparity
          rw [hpar]
          rfl
    · rw [if_neg hmoreData]
      exact @At.data (u.withSample _) (bits ++ [u.rxdHigh]) rfl
        (by rw [hlength]; exact (by omega : bits.length + 1 < u.characterBits)) hlength.symm rfl rfl rfl
  | parity _ hphase hparity hbits hshift hones =>
    have hstop : u.firstStop = u.characterBits + 2 := by simp [firstStop, hparity]
    have hsample : u.sampleAsyncReceive = { u with
        pendingReceiveParityError := u.rxdHigh != u.parityHigh u.receiveParityOnes
        receivePhase := .stop } := by
      rw [sampleAsyncReceive, hphase]
    have htake : (bits ++ [u.rxdHigh]).take u.characterBits = bits := by
      rw [← hbits, List.take_left]
    have hlevel : (bits ++ [u.rxdHigh]).getD u.characterBits true = u.rxdHigh := by
      rw [← hbits]
      simp
    rw [hsample]
    refine @At.stop { u with
      pendingReceiveParityError := u.rxdHigh != u.parityHigh u.receiveParityOnes
      receivePhase := .stop } (bits ++ [u.rxdHigh]) rfl ?_ ?_ ?_
    · have hlength : (bits ++ [u.rxdHigh]).length + 1 = u.firstStop := by simp; omega
      exact hlength
    · exact hshift.trans (congrArg characterOf htake.symm)
    · show (u.rxdHigh != u.parityHigh u.receiveParityOnes) = (u.parityEnabled &&
        (bits ++ [u.rxdHigh]).getD u.characterBits true !=
          u.parityHigh (((bits ++ [u.rxdHigh]).take u.characterBits).count true))
      rw [hparity, htake, hlevel, hones, Bool.true_and]
  | stop _ hphase hbits hshift hpending => omega

/-- The level that ends the frame. -/
theorem At.last {bits : List Bool} (h : At u (.taking bits u.receiveClockCount))
    (hlast : ¬bits.length + 1 < u.firstStop) :
    u.receivePhase = .stop ∧
      (⟨u.character u.receiveShift, u.pendingReceiveParityError, !u.rxdHigh⟩ : Reception) =
        u.reception (bits ++ [u.rxdHigh]) := by
  have hstop : u.characterBits + (if u.parityEnabled then 1 else 0) + 1 = u.firstStop := rfl
  cases h with
  | data _ hphase hbits hindex hshift hones hpending => omega
  | parity _ hphase hparity hbits hshift hones =>
    rw [hparity, if_pos rfl] at hstop
    omega
  | stop _ hphase hbits hshift hpending =>
    have hle : u.characterBits ≤ bits.length := by omega
    have htake : (bits ++ [u.rxdHigh]).take u.characterBits = bits.take u.characterBits :=
      List.take_append_of_le_length hle
    have hlevel : (bits ++ [u.rxdHigh]).getD (u.firstStop - 1) true = u.rxdHigh := by
      rw [show u.firstStop - 1 = bits.length by omega]
      simp
    have hparity : (u.parityEnabled && (bits ++ [u.rxdHigh]).getD u.characterBits true !=
        u.parityHigh ((bits.take u.characterBits).count true)) = u.pendingReceiveParityError := by
      rw [hpending]
      cases hpar : u.parityEnabled with
      | false => rfl
      | true =>
        rw [hpar, if_pos rfl] at hstop
        rw [List.getD_append _ _ _ _ (by omega)]
    refine ⟨hphase, ?_⟩
    unfold reception
    dsimp only
    rw [htake, hlevel, hparity, hshift, character_characterOf (by rw [List.length_take]; omega)]

theorem At.taking {bits : List Bool} {count : Nat} (h : At u (.taking bits count)) :
    count = u.receiveClockCount ∧ u.receivePhase ≠ .idle ∧
      (u.receivePhase = .stop ↔ ¬bits.length + 1 < u.firstStop) := by
  have hstop : u.characterBits + (if u.parityEnabled then 1 else 0) + 1 = u.firstStop := rfl
  cases h with
  | data _ hphase hbits =>
    rw [hphase]
    exact ⟨rfl, by decide, iff_of_false (by decide) (by omega)⟩
  | parity _ hphase hparity hbits =>
    rw [hparity, if_pos rfl] at hstop
    rw [hphase]
    exact ⟨rfl, by decide, iff_of_false (by decide) (by omega)⟩
  | stop _ hphase hbits =>
    rw [hphase]
    exact ⟨rfl, by decide, iff_of_true rfl (by omega)⟩

/-- One receive edge takes one step of the sampler, and passes on the frame that this completes. -/
theorem At.edge (henabled : u.receiverEnabled = true) (hasync : u.synchronous = false) {phase : Phase}
    (h : At u phase) :
    u.completed = (step u.halfBit u.baudFactor u.firstStop phase u.rxdHigh).2.map u.reception ∧
      At u.receiveClockEdge (step u.halfBit u.baudFactor u.firstStop phase u.rxdHigh).1 := by
  rw [completed_async henabled hasync]
  cases phase with
  | waiting =>
    obtain ⟨hphase⟩ := h
    have hmore : ¬u.completesCharacter := fun h => absurd (hphase.symm.trans h.1) (by decide)
    rw [if_neg hmore]
    cases hlevel : u.rxdHigh with
    | true =>
      rw [receiveClockEdge_rest hasync hphase hlevel]
      exact ⟨rfl, .waiting hphase⟩
    | false =>
      have hfall : u.receiveClockEdge =
          { u with receivePhase := .start, receiveClockCount := u.halfBit } := by
        simp [receiveClockEdge, henabled, hasync, hphase, hlevel, halfBit]
      rw [hfall]
      exact ⟨rfl, @At.starting { u with receivePhase := .start, receiveClockCount := u.halfBit } rfl⟩
  | starting count =>
    obtain ⟨hcount, hphase⟩ : count = u.receiveClockCount ∧ u.receivePhase = .start := by
      cases h with
      | starting hphase => exact ⟨rfl, hphase⟩
    subst hcount
    have hmore : ¬u.completesCharacter := fun h => absurd (hphase.symm.trans h.1) (by decide)
    rw [if_neg hmore, receiveClockEdge_active henabled hasync (by rw [hphase]; decide)]
    by_cases hcount : 1 < u.receiveClockCount
    · rw [if_pos hcount, step, if_pos hcount]
      exact ⟨rfl, @At.starting { u with receiveClockCount := u.receiveClockCount - 1 } hphase⟩
    · rw [if_neg hcount, step, if_neg hcount]
      refine ⟨rfl, ?_⟩
      unfold sampleAsyncReceive
      simp only [hphase]
      by_cases hlevel : u.rxdHigh = true
      · rw [if_pos hlevel, if_pos hlevel]
        exact .waiting rfl
      · rw [if_neg hlevel, if_neg hlevel]
        refine @At.data { u with
          receiveClockCount := u.baudFactor
          receivePhase := .data
          receiveShift := 0#8
          receiveBitIndex := 0
          receiveParityOnes := 0
          pendingReceiveParityError := false } [] rfl ?_ rfl rfl rfl rfl
        exact Nat.lt_of_lt_of_le (by decide) (characterBits_bounds u).1
  | taking bits count =>
    obtain ⟨rfl, hactive, hstop⟩ := h.taking
    rw [receiveClockEdge_active henabled hasync hactive]
    by_cases hcount : 1 < u.receiveClockCount
    · have hmore : ¬u.completesCharacter := fun h => absurd h.2 (by omega)
      rw [if_neg hmore, if_pos hcount, step, if_pos hcount]
      exact ⟨rfl, h.count _⟩
    · have hlook := h.count u.baudFactor
      rw [if_neg hcount, step, if_neg hcount]
      by_cases hlast : bits.length + 1 < u.firstStop
      · have hmore : ¬u.completesCharacter := fun h => hstop.mp h.1 hlast
        rw [if_neg hmore, if_pos hlast]
        exact ⟨rfl, At.next hlook hlast⟩
      · obtain ⟨hphase, hreception⟩ := At.last hlook hlast
        have hcompletes : u.completesCharacter := ⟨hphase, by omega⟩
        rw [if_pos hcompletes, if_neg hlast]
        refine ⟨congrArg some hreception, .waiting ?_⟩
        unfold sampleAsyncReceive
        simp only [hstop.mpr hlast]

/-! ## Runs -/

/-- The level that a receive edge looks at. -/
def levels : Uart8251 × Op → List Bool
  | (u, .receiveClockEdge) => [u.driveQueuedLine.rxdHigh]
  | _ => []

/-- What a receiver in this phase finds at first, and an idle one in the stretches that follow. -/
def found (u : Uart8251) (phase : Phase) : List (List (Uart8251 × Op)) → List (List Bool)
  | [] => []
  | first :: rest => emits u.halfBit u.baudFactor u.firstStop phase (first.flatMap levels) ++
      rest.flatMap fun part => emits u.halfBit u.baudFactor u.firstStop .waiting (part.flatMap levels)

end Uart8251
end FK1
