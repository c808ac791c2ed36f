import FK1.SyncReceive
import FK1.Lib.Run

/-!
# FK1.SyncHunt

The SYN hunt of the 8251. After Enter Hunt the receiver takes the line in whole characters, counted from
the command, and compares each with the SYN characters as they were written. So it finds SYN only where
a character boundary falls on it, and only a SYN value that fits the character.
-/

namespace FK1
namespace Uart8251

open Run

variable {u u' : Uart8251}

/-! ## Hunting

`some index`: the hunt goes on and compares the next character with SYN character `index`; `none`: the
SYN characters have been found.
-/

/-- What a complete character makes of the hunt. -/
def huntNext (u : Uart8251) (index : Nat) (byte : Byte) : Option Nat :=
  if byte = u.syncCharacter index then
    if u.syncCharacterCount ≤ index + 1 then none else some (index + 1)
  else some (if byte = u.syncCharacter 0 then 1 else 0)

def hunt (u : Uart8251) (state : Option Nat) (bytes : List Byte) : Option Nat :=
  bytes.foldl (fun state byte => state.bind (u.huntNext · byte)) state

def InHunt (u : Uart8251) : Option Nat → Prop
  | some index => u.syncHunt = true ∧ u.syncHuntIndex = index ∧ u.syncDetected = false
  | none => u.syncHunt = false ∧ u.syncDetected = true

theorem InHunt.detected_iff {state : Option Nat} (h : u.InHunt state) :
    u.syncDetected = true ↔ state = none := by
  cases state with
  | none => simp [h.2]
  | some index => simp [h.2.2]

theorem finishSyncCharacter_hunting {index : Nat} (hcount : u.syncCharacterCount ≠ 0)
    (h : u.InHunt (some index)) :
    u.finishSyncCharacter.InHunt (u.huntNext index u.receiveShift) ∧
      u.finishSyncCharacter.receiveParityError = u.receiveParityError := by
  obtain ⟨hhunt, hindex, hdetected⟩ := h
  unfold finishSyncCharacter huntNext
  rw [if_pos (by simp [hhunt, hcount]), hindex]
  by_cases hmatch : u.receiveShift = u.syncCharacter index
  · rw [if_pos (beq_iff_eq.mpr hmatch), if_pos hmatch]
    by_cases hlast : u.syncCharacterCount ≤ index + 1
    · simp only [ge_iff_le, hlast, if_true]
      exact ⟨⟨rfl, rfl⟩, trivial⟩
    · simp only [ge_iff_le, hlast, if_false]
      exact ⟨⟨hhunt, rfl, hdetected⟩, trivial⟩
  · rw [if_neg (by simpa using hmatch), if_neg hmatch]
    refine ⟨⟨hhunt, ?_, hdetected⟩, rfl⟩
    by_cases hfirst : u.receiveShift = u.syncCharacter 0 <;> simp [hfirst]

/-- After the hunt a character goes to the data register. -/
theorem finishSyncCharacter_received (hhunt : u.syncHunt = false) :
    u.finishSyncCharacter.syncHunt = false ∧
      u.finishSyncCharacter.syncDetected = u.syncDetected := by
  unfold finishSyncCharacter
  rw [if_neg (by simp [hhunt])]
  unfold receiveByte
  repeat' split
  all_goals exact ⟨hhunt, rfl⟩

/-- A character on the line, whatever its parity bit: what it makes of the hunt. -/
theorem receiveBits_hunt {state : Option Nat} (hlistening : u.Listening) (h : u.AtCharacter)
    (hcount : u.syncCharacterCount ≠ 0) (hstate : u.InHunt state) (value : Byte) (parityBit : Bool) :
    let u' := u.receiveBits (bitsBelow value u.characterBits ++
      if u.parityEnabled then [parityBit] else [])
    u'.AtFresh ∧ u'.InHunt (state.bind (u.huntNext · (u.character value))) ∧
      (state ≠ none → u'.receiveParityError = u.receiveParityError) := by
  intro u'
  obtain ⟨high, s, hbits, hshift, -⟩ := receiveBits_character hlistening h value parityBit
  have hu' : u' = ((u.setRxd high).withSample s).finishSyncCharacter := hbits
  rw [hu']
  refine ⟨finishSyncCharacter_fresh _, ?_⟩
  cases state with
  | none =>
    obtain ⟨hhunt, hdetected⟩ := hstate
    obtain ⟨hhunt', hdetected'⟩ := finishSyncCharacter_received
      (u := (u.setRxd high).withSample s) hhunt
    exact ⟨⟨hhunt', hdetected'.trans hdetected⟩, fun hne => absurd rfl hne⟩
  | some index =>
    have hsampled : ((u.setRxd high).withSample s).InHunt (some index) := hstate
    have hhunting :=
      finishSyncCharacter_hunting (u := (u.setRxd high).withSample s) hcount hsampled
    rw [show ((u.setRxd high).withSample s).receiveShift = u.character value from hshift] at hhunting
    exact ⟨hhunting.1, fun _ => hhunting.2⟩

/-! ## The line after Enter Hunt -/

/-- The receiver after Enter Hunt and whole characters: a boundary, and a hunt in `state`. -/
structure AtHunt (state : Option Nat) (u : Uart8251) : Prop where
  listening : u.Listening
  boundary : u.AtCharacter
  count : u.syncCharacterCount ≠ 0
  state : u.InHunt state

theorem AtHunt.receive {state : Option Nat} (h : AtHunt state u) (value : Byte) (parityBit : Bool) :
    let u' := u.receiveBits (bitsBelow value u.characterBits ++
      if u.parityEnabled then [parityBit] else [])
    AtHunt (state.bind (u.huntNext · (u.character value))) u' ∧ Sampled u u' ∧
      (state ≠ none → u'.receiveParityError = u.receiveParityError) := by
  intro u'
  obtain ⟨hfresh, hstate, herror⟩ := receiveBits_hunt h.listening h.boundary h.count h.state value
    parityBit
  have hsampled : Sampled u u' := receiveBits_sampled h.listening _
  refine ⟨⟨hsampled.listening h.listening, hfresh.toAtCharacter, ?_, hstate⟩, hsampled, herror⟩
  rw [hsampled.config.2.1]
  exact h.count

theorem Sampled.huntNext (h : Sampled u u') : u'.huntNext = u.huntNext := by
  obtain ⟨high, r, rfl⟩ := h
  rfl

theorem Sampled.hunt (h : Sampled u u') : u'.hunt = u.hunt := by
  obtain ⟨high, r, rfl⟩ := h
  rfl

theorem hunt_none (u : Uart8251) (bytes : List Byte) : u.hunt none bytes = none := by
  induction bytes with
  | nil => rfl
  | cons byte bytes ih => exact ih

theorem hunt_append (u : Uart8251) (state : Option Nat) (first second : List Byte) :
    u.hunt state (first ++ second) = u.hunt (u.hunt state first) second := List.foldl_append

/-- All data bits high, as on an idle line. -/
def mark (u : Uart8251) : Byte := u.character 0xFF#8

theorem bitsBelow_mark {n : Nat} (hn : n ≤ 8) : bitsBelow 0xFF#8 n = List.replicate n true := by
  have h : ∀ n : Fin 9, bitsBelow 0xFF#8 n.val = List.replicate n.val true := by decide
  exact h ⟨n, by omega⟩

/-- Whole characters of marks. -/
theorem AtHunt.marks {state : Option Nat} (h : AtHunt state u) (m : Nat) :
    AtHunt (u.hunt state (List.replicate m u.mark))
        (u.receiveBits (List.replicate (m * u.characterLength) true)) ∧
      (u.hunt state (List.replicate m u.mark) ≠ none →
        (u.receiveBits (List.replicate (m * u.characterLength) true)).receiveParityError =
          u.receiveParityError) := by
  induction m generalizing u state with
  | zero =>
    rw [Nat.zero_mul]
    exact ⟨h, fun _ => rfl⟩
  | succ m ih =>
    have hbounds := characterBits_bounds u
    have hone : bitsBelow 0xFF#8 u.characterBits ++ (if u.parityEnabled then [true] else []) =
        List.replicate u.characterLength true := by
      rw [bitsBelow_mark hbounds.2, characterLength, ← List.replicate_append_replicate]
      cases u.parityEnabled <;> rfl
    obtain ⟨hnext, hsampled, herror⟩ := h.receive 0xFF#8 true
    rw [hone] at hnext hsampled herror
    obtain ⟨hrest, herror'⟩ := ih hnext
    obtain ⟨-, -, hlength, -, hcharacter⟩ := hsampled.lengths
    have hmark : (u.receiveBits (List.replicate u.characterLength true)).mark = u.mark := by
      rw [mark, mark, hcharacter]
    rw [hsampled.hunt, hmark, hlength] at hrest herror'
    have hbits : u.receiveBits (List.replicate ((m + 1) * u.characterLength) true) =
        (u.receiveBits (List.replicate u.characterLength true)).receiveBits
          (List.replicate (m * u.characterLength) true) := by
      rw [← receiveBits_append, List.replicate_append_replicate, Nat.succ_mul, Nat.add_comm]
    have hhunt : u.hunt state (List.replicate (m + 1) u.mark) =
        u.hunt (state.bind (u.huntNext · u.mark)) (List.replicate m u.mark) := rfl
    rw [hbits, hhunt]
    refine ⟨hrest, fun hne => (herror' hne).trans (herror ?_)⟩
    intro hnone
    rw [hnone] at hne
    exact hne (hunt_none u _)

theorem AtHunt.read {state : Option Nat} (h : AtHunt state u) : AtHunt state (u.read 0x00#8).2 := by
  refine ⟨(read_sampled u).listening h.listening, ⟨h.boundary.phase, h.boundary.index, h.boundary.shift⟩,
    h.count, ?_⟩
  have hstate := h.state
  cases state <;> exact hstate

/-- The frames of characters, each read as it comes. -/
theorem AtHunt.characters {state : Option Nat} (h : AtHunt state u) (values : List Byte) :
    AtHunt (u.hunt state (values.map u.character)) (u.receiveCharacters values).2 ∧
      (u.hunt state (values.map u.character) ≠ none →
        (u.receiveCharacters values).2.receiveParityError = u.receiveParityError) := by
  induction values generalizing u state with
  | nil => exact ⟨h, fun _ => rfl⟩
  | cons value values ih =>
    obtain ⟨hnext, hsampled, herror⟩ := h.receive value
      (u.parityHigh ((bitsBelow value u.characterBits).count true))
    rw [← frameBits_sync h.listening.sync] at hnext hsampled herror
    have hread := hsampled.trans (read_sampled _)
    obtain ⟨hrest, herror'⟩ := ih hnext.read
    rw [hread.hunt, hread.lengths.2.2.2.2] at hrest herror'
    refine ⟨hrest, fun hne => (herror' hne).trans (herror ?_)⟩
    intro hnone
    rw [hnone] at hne
    exact hne (hunt_none u _)

/-! ## Characters with their parity -/

theorem finishSyncCharacter_parity (hpending : u.pendingReceiveParityError = false) :
    u.finishSyncCharacter.receiveParityError = u.receiveParityError := by
  unfold finishSyncCharacter receiveByte
  rw [hpending]
  dsimp only
  repeat' split
  all_goals simp

/-- The frame of a character has the parity that the receiver expects at a fresh boundary. -/
theorem receiveBits_frame (hlistening : u.Listening) (h : u.AtFresh) (value : Byte) :
    ∃ high s, u.receiveBits (u.frameBits value) =
        ((u.setRxd high).withSample s).finishSyncCharacter ∧
      s.shift = u.character value ∧ s.pendingParityError = false := by
  obtain ⟨high, s, hbits, hshift, hpending⟩ := receiveBits_character hlistening h.toAtCharacter value
    (u.parityHigh ((bitsBelow value u.characterBits).count true))
  rw [← frameBits_sync hlistening.sync] at hbits
  refine ⟨high, s, hbits, hshift, hpending.trans ?_⟩
  rw [h.ones, h.pending, Nat.zero_add, bne_self_eq_false]
  split <;> rfl

theorem read_fresh (h : u.AtFresh) : (u.read 0x00#8).2.AtFresh :=
  ⟨⟨h.phase, h.index, h.shift⟩, h.ones, h.pending⟩

/-- Frames with the right parity set no parity error. -/
theorem AtFresh.characters (hlistening : u.Listening) (h : u.AtFresh) (values : List Byte) :
    (u.receiveCharacters values).2.receiveParityError = u.receiveParityError := by
  induction values generalizing u with
  | nil => rfl
  | cons value values ih =>
    obtain ⟨high, s, hbits, -, hpending⟩ := receiveBits_frame hlistening h value
    have hsampled := (receiveBits_sampled hlistening (u.frameBits value)).trans (read_sampled _)
    have hfresh : ((u.receiveBits (u.frameBits value)).read 0x00#8).2.AtFresh := by
      rw [hbits]
      exact read_fresh (finishSyncCharacter_fresh _)
    have herror : (u.receiveBits (u.frameBits value)).receiveParityError = u.receiveParityError := by
      rw [hbits, finishSyncCharacter_parity hpending]
      rfl
    exact (ih (hsampled.listening hlistening) hfresh).trans herror

/-- After the hunt the data register gives the characters, one by one. -/
theorem AtFresh.received (hlistening : u.Listening) (h : u.AtFresh) (hhunt : u.syncHunt = false)
    (hready : u.receiveReady = false) (values : List Byte) :
    (u.receiveCharacters values).1 = values.map u.character := by
  induction values generalizing u with
  | nil => rfl
  | cons value values ih =>
    obtain ⟨high, s, hbits, hshift, hpending⟩ := receiveBits_frame hlistening h value
    have hsampled := (receiveBits_sampled hlistening (u.frameBits value)).trans (read_sampled _)
    generalize hw : (u.setRxd high).withSample s = w at hbits
    have hshift' : w.receiveShift = u.character value := by
      rw [← hw]
      exact hshift
    have hpending' : w.pendingReceiveParityError = false := by
      rw [← hw]
      exact hpending
    have hhunt' : w.syncHunt = false := by
      rw [← hw]
      exact hhunt
    have hbyte : w.receiveByte w.receiveShift w.pendingReceiveParityError false =
        { w with receiveBuffer := w.receiveShift &&& w.characterMask, receiveReady := true } := by
      refine (congrArg (w.receiveByte w.receiveShift · false) hpending').trans
        (receiveByte_ready ?_ ?_)
      · rw [← hw]
        exact hlistening.enabled
      · rw [← hw]
        exact hready
    have hmask : w.receiveShift &&& w.characterMask = u.character value := by
      rw [hshift', ← hw]
      exact character_idem u value
    have hdone : w.finishSyncCharacter.receiveBuffer = u.character value ∧
        w.finishSyncCharacter.syncHunt = false := by
      unfold finishSyncCharacter
      rw [if_neg (by simp [hhunt']), hbyte, hmask]
      exact ⟨rfl, hhunt'⟩
    have hfresh : ((u.receiveBits (u.frameBits value)).read 0x00#8).2.AtFresh := by
      rw [hbits]
      exact read_fresh (finishSyncCharacter_fresh _)
    have hrest := ih (hsampled.listening hlistening) hfresh (by rw [hbits]; exact hdone.2) rfl
    rw [hsampled.lengths.2.2.2.2] at hrest
    show _ :: _ = _ :: _
    rw [hrest, hbits]
    exact congrArg (· :: _) hdone.1

/-! ## Where the hunt ends -/

/-- The SYN characters, as they were written. -/
def syncCharacters (u : Uart8251) : List Byte := (List.range u.syncCharacterCount).map u.syncCharacter

theorem character_mark (u : Uart8251) : u.character u.mark = u.mark := character_idem u 0xFF#8

theorem huntNext_single (hcount : u.syncCharacterCount = 1) (byte : Byte) :
    u.huntNext 0 byte = if byte = u.syncCharacter 0 then none else some 0 := by
  unfold huntNext
  by_cases hfirst : byte = u.syncCharacter 0 <;> simp [hfirst, hcount]

theorem huntNext_pair (hcount : u.syncCharacterCount = 2) (byte : Byte) :
    u.huntNext 0 byte = some (if byte = u.syncCharacter 0 then 1 else 0) ∧
      u.huntNext 1 byte = if byte = u.syncCharacter 1 then none
        else some (if byte = u.syncCharacter 0 then 1 else 0) := by
  unfold huntNext
  rw [hcount]
  by_cases hfirst : byte = u.syncCharacter 0 <;> simp [hfirst]

theorem hunt_snoc (u : Uart8251) (state : Option Nat) (bytes : List Byte) (byte : Byte) :
    u.hunt state (bytes ++ [byte]) = (u.hunt state bytes).bind (u.huntNext · byte) :=
  hunt_append u state bytes [byte]

theorem hunt_single (hcount : u.syncCharacterCount = 1) (m : Nat) :
    u.hunt (some 0) (List.replicate m u.mark) =
      if m ≠ 0 ∧ u.mark = u.syncCharacter 0 then none else some 0 := by
  induction m with
  | zero => simp [hunt]
  | succ m ih =>
    rw [List.replicate_succ', hunt_snoc, ih]
    have hnext := huntNext_single hcount u.mark
    grind

theorem hunt_pair (hcount : u.syncCharacterCount = 2) (m : Nat) :
    u.hunt (some 0) (List.replicate m u.mark) =
      if m ≠ 0 ∧ u.mark = u.syncCharacter 0 then
        if m ≠ 1 ∧ u.mark = u.syncCharacter 1 then none else some 1
      else some 0 := by
  induction m with
  | zero => simp [hunt]
  | succ m ih =>
    rw [List.replicate_succ', hunt_snoc, ih]
    obtain ⟨hfirst, hsecond⟩ := huntNext_pair hcount u.mark
    grind

/-- Marks and then the SYN characters: the last of these ends the hunt. -/
theorem hunt_ends_iff (hcount : u.syncCharacterCount = 1 ∨ u.syncCharacterCount = 2) (m : Nat) :
    (u.hunt (some 0) (List.replicate m u.mark ++ u.syncCharacters.dropLast.map u.character) ≠ none ∧
      u.hunt (some 0) (List.replicate m u.mark ++ u.syncCharacters.map u.character) = none) ↔
    (∀ syn ∈ u.syncCharacters, u.character syn = syn) ∧
      (m = 0 ∨ ∃ syn ∈ u.syncCharacters, syn ≠ u.mark) := by
  have hmark := character_mark u
  rcases hcount with hcount | hcount
  · have hlist : u.syncCharacters = [u.syncCharacter 0] := by
      simp [syncCharacters, hcount]
    have hnext := huntNext_single hcount (u.character (u.syncCharacter 0))
    rw [hlist]
    simp only [List.dropLast_singleton, List.map_nil, List.append_nil, List.map_cons, hunt_snoc,
      hunt_single hcount, List.mem_singleton, forall_eq, exists_eq_left]
    by_cases hidle : m ≠ 0 ∧ u.mark = u.syncCharacter 0
    · simp [hidle.1, ← hidle.2]
    · rw [if_neg hidle, Option.bind_some, hnext]
      by_cases hfit : u.character (u.syncCharacter 0) = u.syncCharacter 0
      · simp [hfit]
        tauto
      · simp [hfit]
  · have hlist : u.syncCharacters = [u.syncCharacter 0, u.syncCharacter 1] := by
      simp [syncCharacters, hcount, List.range_succ]
    have hnext := huntNext_pair hcount (u.character (u.syncCharacter 0))
    have hnext' := huntNext_pair hcount (u.character (u.syncCharacter 1))
    rw [hlist]
    have hsplit : List.replicate m u.mark ++
        [u.syncCharacter 0, u.syncCharacter 1].map u.character =
        (List.replicate m u.mark ++ [u.character (u.syncCharacter 0)]) ++
          [u.character (u.syncCharacter 1)] := by simp
    rw [hsplit]
    have hdrop : ([u.syncCharacter 0, u.syncCharacter 1].dropLast).map u.character =
        [u.character (u.syncCharacter 0)] := rfl
    rw [hdrop]
    simp only [hunt_snoc, hunt_pair hcount, List.mem_cons, List.not_mem_nil, or_false,
      forall_eq_or_imp, forall_eq, exists_eq_or_imp, exists_eq_left]
    clear hlist hsplit hdrop
    generalize u.syncCharacter 0 = first at *
    generalize u.syncCharacter 1 = second at *
    obtain ⟨hfirst0, hfirst1⟩ := hnext
    obtain ⟨hsecond0, hsecond1⟩ := hnext'
    by_cases hidle : m ≠ 0 ∧ u.mark = first
    · -- Marks look like the first SYN character, which then fits.
      obtain ⟨hm, rfl⟩ := hidle
      rw [if_pos ⟨hm, rfl⟩]
      rw [hmark, if_pos rfl] at hfirst1
      by_cases hsame : u.mark = second
      · by_cases hone : m = 1
        · rw [if_neg (fun h => h.1 hone), hmark, Option.bind_some, hfirst1, if_pos hsame]
          simp [hm, ← hsame]
        · rw [if_pos ⟨hone, hsame⟩]
          simp [hm, ← hsame]
      · rw [if_neg (fun h => hsame h.2), hmark, Option.bind_some, hfirst1, if_neg hsame,
          Option.bind_some, hsecond1]
        by_cases hfit : u.character second = second
        · simp [hfit, hm, Ne.symm hsame]
        · simp [hfit]
    · rw [if_neg hidle, Option.bind_some, hfirst0, Option.bind_some]
      by_cases hfit : u.character first = first
      · rw [if_pos hfit, hsecond1]
        by_cases hfit' : u.character second = second
        · simp [hfit, hfit']
          tauto
        · simp [hfit']
      · rw [if_neg hfit, hsecond0]
        simp [hfit]

/-! ## Finding SYN -/

/-- After `k` marks. -/
def marked (u : Uart8251) (k : Nat) : Uart8251 := u.receiveBits (List.replicate k true)

/-- After `k` marks and all SYN characters but the last. -/
def beforeLast (u : Uart8251) (k : Nat) : Uart8251 :=
  ((u.marked k).receiveCharacters u.syncCharacters.dropLast).2

/-- The bits of the last SYN character. -/
def lastSyn (u : Uart8251) : List Bool := u.frameBits (u.syncCharacters.getLastD 0#8)

/-- After `k` marks and the SYN characters. -/
def afterSyn (u : Uart8251) (k : Nat) : Uart8251 :=
  ((u.marked k).receiveCharacters u.syncCharacters).2

/-- With `k` marks, the SYN characters and the payload on the line after Enter Hunt: the last SYN bit
sets `syncDetected`, the characters read are the payload, and no parity error is flagged. -/
structure HuntFinds (u : Uart8251) (k : Nat) (payload : List Byte) : Prop where
  before : ((u.beforeLast k).receiveBits u.lastSyn.dropLast).syncDetected = false
  after : ((u.beforeLast k).receiveBits u.lastSyn).syncDetected = true
  characters : ((u.afterSyn k).receiveCharacters payload).1 = payload.map u.character
  parity : ((u.afterSyn k).receiveCharacters payload).2.receiveParityError = u.receiveParityError

theorem AtCharacter.atBit (h : u.AtCharacter) : AtBit u 0 := by
  have hbounds := characterBits_bounds u
  exact .data 0 (by omega) h.phase h.index

theorem receiveCharacters_append (u : Uart8251) (first second : List Byte) :
    (u.receiveCharacters (first ++ second)).2 =
      ((u.receiveCharacters first).2.receiveCharacters second).2 := by
  induction first generalizing u with
  | nil => rfl
  | cons value first ih => exact ih _

theorem marked_sampled (hlistening : u.Listening) (k : Nat) : Sampled u (u.marked k) :=
  receiveBits_sampled hlistening _

theorem beforeLast_sampled (hlistening : u.Listening) (k : Nat) : Sampled u (u.beforeLast k) :=
  (marked_sampled hlistening k).trans
    (receiveCharacters_sampled ((marked_sampled hlistening k).listening hlistening) _)

theorem lastSyn_length (hlistening : u.Listening) : u.lastSyn.length = u.characterLength :=
  frameBits_sync_length hlistening.sync _

theorem beforeLast_atBit (hlistening : u.Listening) (h : u.AtCharacter) (k : Nat) :
    AtBit (u.beforeLast k) (k % u.characterLength) := by
  have hmarks := h.atBit.receiveBits hlistening (List.replicate k true)
  rw [List.length_replicate, Nat.zero_add] at hmarks
  exact hmarks.receiveCharacters ((marked_sampled hlistening k).listening hlistening) _

/-- Where the last SYN bit does not end a character, it decides nothing. -/
theorem HuntFinds.aligned {k : Nat} {payload : List Byte} (hfinds : u.HuntFinds k payload)
    (hlistening : u.Listening) (h : u.AtCharacter) : k % u.characterLength = 0 := by
  obtain ⟨hbefore, hafter, -, -⟩ := hfinds
  have hsampled := beforeLast_sampled hlistening k
  have hlistening' := hsampled.listening hlistening
  have hlength := hsampled.lengths.2.2.1
  have hbounds := characterBits_bounds u
  have hpos : 0 < u.characterLength := by
    unfold characterLength
    omega
  have hsyn := lastSyn_length hlistening
  have hne : u.lastSyn ≠ [] := by
    intro hnil
    rw [hnil, List.length_nil] at hsyn
    omega
  have hat := (beforeLast_atBit hlistening h k).receiveBits hlistening' u.lastSyn.dropLast
  rw [List.length_dropLast, hsyn, hlength] at hat
  have hlast := receiveBits_sampled hlistening' u.lastSyn.dropLast
  have hstep := hat.receiveBit (hlast.listening hlistening') (u.lastSyn.getLast hne)
  by_cases hzero : k % u.characterLength = 0
  · exact hzero
  · have hmod := Nat.mod_lt k hpos
    have hposition : (k % u.characterLength + (u.characterLength - 1)) % u.characterLength =
        k % u.characterLength - 1 := by
      rw [show k % u.characterLength + (u.characterLength - 1) =
        k % u.characterLength - 1 + u.characterLength by omega, Nat.add_mod_right,
        Nat.mod_eq_of_lt (by omega)]
    rw [hposition, if_neg (by rw [hlast.lengths.2.2.1, hlength]; omega)] at hstep
    have hbits : (u.beforeLast k).receiveBits u.lastSyn =
        ((u.beforeLast k).receiveBits u.lastSyn.dropLast).receiveBit (u.lastSyn.getLast hne) := by
      have hsplit := congrArg (u.beforeLast k).receiveBits (List.dropLast_concat_getLast hne)
      rw [receiveBits_append] at hsplit
      exact hsplit.symm
    rw [hbits, hstep.2, hbefore] at hafter
    cases hafter

/-- After marks and the SYN characters but the last, on the character boundary. -/
theorem AtHunt.beforeLast (hhunt : AtHunt (some 0) u) (m : Nat) :
    let state := u.hunt (some 0)
      (List.replicate m u.mark ++ u.syncCharacters.dropLast.map u.character)
    AtHunt state (u.beforeLast (m * u.characterLength)) ∧
      (state ≠ none →
        (u.beforeLast (m * u.characterLength)).receiveParityError = u.receiveParityError) := by
  intro state
  obtain ⟨hmarks, herror⟩ := hhunt.marks m
  have hsampled := marked_sampled hhunt.listening (m * u.characterLength)
  obtain ⟨hearly, herror'⟩ := hmarks.characters u.syncCharacters.dropLast
  change AtHunt ((u.marked _).hunt _ (List.map (u.marked _).character _)) _ at hearly
  change (u.marked _).hunt _ (List.map (u.marked _).character _) ≠ none → _ = _ at herror'
  rw [hsampled.hunt, hsampled.lengths.2.2.2.2, ← hunt_append] at hearly herror'
  refine ⟨hearly, fun hne => (herror' hne).trans (herror ?_)⟩
  intro hnone
  have hgone : state = none := by
    show u.hunt (some 0) (_ ++ _) = none
    rw [hunt_append, hnone, hunt_none]
  exact hne hgone

/-- The last SYN character, on the character boundary. -/
theorem AtHunt.lastSyn (hhunt : AtHunt (some 0) u) (hcount : u.syncCharacterCount ≠ 0) (m : Nat) :
    let found := (u.beforeLast (m * u.characterLength)).receiveBits u.lastSyn
    AtHunt (u.hunt (some 0) (List.replicate m u.mark ++ u.syncCharacters.map u.character)) found ∧
      found.AtFresh ∧
      u.afterSyn (m * u.characterLength) = (found.read 0x00#8).2 ∧
      (u.hunt (some 0) (List.replicate m u.mark ++ u.syncCharacters.dropLast.map u.character) ≠ none →
        found.receiveParityError = u.receiveParityError) := by
  intro found
  obtain ⟨hearly, herror⟩ := hhunt.beforeLast m
  have hsampled := beforeLast_sampled hhunt.listening (m * u.characterLength)
  obtain ⟨hbits, hparity, -, hframe, hcharacter⟩ := hsampled.lengths
  have hne : u.syncCharacters ≠ [] := by
    intro hnil
    have hlength := congrArg List.length hnil
    rw [syncCharacters, List.length_map, List.length_range, List.length_nil] at hlength
    exact hcount hlength
  have hsplit : u.syncCharacters.dropLast ++ [u.syncCharacters.getLastD 0#8] = u.syncCharacters := by
    rw [List.getLastD_eq_getLast?, List.getLast?_eq_some_getLast hne, Option.getD_some]
    exact List.dropLast_concat_getLast hne
  generalize hlast : u.syncCharacters.getLastD 0#8 = final at hsplit
  have hsyn : u.lastSyn = bitsBelow final (u.beforeLast (m * u.characterLength)).characterBits ++
      if (u.beforeLast (m * u.characterLength)).parityEnabled then
        [u.parityHigh ((bitsBelow final u.characterBits).count true)] else [] := by
    rw [Uart8251.lastSyn, hlast, frameBits_sync hhunt.listening.sync, hbits, hparity]
  obtain ⟨hfresh, -, -⟩ := receiveBits_hunt hearly.listening hearly.boundary hearly.count hearly.state
    final (u.parityHigh ((bitsBelow final u.characterBits).count true))
  obtain ⟨hfound, -, herror'⟩ := hearly.receive final
    (u.parityHigh ((bitsBelow final u.characterBits).count true))
  rw [← hsyn] at hfresh hfound herror'
  have hall : u.hunt (some 0) (List.replicate m u.mark ++ u.syncCharacters.map u.character) =
      (u.hunt (some 0) (List.replicate m u.mark ++ u.syncCharacters.dropLast.map u.character)).bind
        (u.huntNext · (u.character final)) := by
    rw [← hunt_snoc, List.append_assoc]
    congr 2
    rw [← List.map_singleton (f := u.character), ← List.map_append, hsplit]
  rw [hsampled.huntNext, hcharacter, ← hall] at hfound
  have hafter : u.afterSyn (m * u.characterLength) = (found.read 0x00#8).2 := by
    have happend := receiveCharacters_append (u.marked (m * u.characterLength))
      u.syncCharacters.dropLast [final]
    rw [hsplit] at happend
    have hone (v : Uart8251) : (v.receiveCharacters [final]).2 =
        ((v.receiveBits (v.frameBits final)).read 0x00#8).2 := rfl
    have hlastBits : (u.beforeLast (m * u.characterLength)).frameBits final = u.lastSyn := by
      rw [hframe, Uart8251.lastSyn, hlast]
    calc u.afterSyn (m * u.characterLength)
        = ((u.beforeLast (m * u.characterLength)).receiveCharacters [final]).2 := happend
      _ = (found.read 0x00#8).2 := by rw [hone, hlastBits]
  exact ⟨hfound, hfresh, hafter, fun hne => (herror' hne).trans (herror hne)⟩

/-- On the character boundary the hunt is that of the whole characters. -/
theorem huntFinds_of_aligned (hhunt : AtHunt (some 0) u)
    (hcount : u.syncCharacterCount = 1 ∨ u.syncCharacterCount = 2) (m : Nat) (payload : List Byte) :
    u.HuntFinds (m * u.characterLength) payload ↔
      (∀ syn ∈ u.syncCharacters, u.character syn = syn) ∧
        (m = 0 ∨ ∃ syn ∈ u.syncCharacters, syn ≠ u.mark) := by
  rw [← hunt_ends_iff hcount m]
  have hlistening := hhunt.listening
  obtain ⟨hearly, -⟩ := hhunt.beforeLast m
  obtain ⟨hfound, hfresh, hafter, herror⟩ := hhunt.lastSyn (by omega) m
  have hinside : ((u.beforeLast (m * u.characterLength)).receiveBits u.lastSyn.dropLast).syncDetected =
      (u.beforeLast (m * u.characterLength)).syncDetected := by
    have hsampled := beforeLast_sampled hlistening (m * u.characterLength)
    have hpos := (hearly.boundary.atBit).lt
    refine (hearly.boundary.atBit.receiveBits_inside hearly.listening ?_).2
    rw [List.length_dropLast, lastSyn_length hlistening, hsampled.lengths.2.2.1] at *
    omega
  constructor
  · rintro ⟨hbefore, hdone, -, -⟩
    rw [hinside] at hbefore
    refine ⟨fun hnone => ?_, hfound.state.detected_iff.mp hdone⟩
    rw [hearly.state.detected_iff.mpr hnone] at hbefore
    cases hbefore
  · rintro ⟨hopen, hdone⟩
    have hfound' := hfound.state
    rw [hdone] at hfound'
    have hread := read_sampled ((u.beforeLast (m * u.characterLength)).receiveBits u.lastSyn)
    have hlistening' := hread.listening hfound.listening
    have hcharacter : ((((u.beforeLast (m * u.characterLength)).receiveBits u.lastSyn).read
        0x00#8).2).character = u.character := by
      have hbits := receiveBits_sampled hearly.listening u.lastSyn
      exact (((beforeLast_sampled hlistening _).trans hbits).trans hread).lengths.2.2.2.2
    refine ⟨?_, hfound'.2, ?_, ?_⟩
    · rw [hinside]
      have hnot := mt hearly.state.detected_iff.mp hopen
      rwa [Bool.not_eq_true] at hnot
    · rw [hafter, (read_fresh hfresh).received hlistening' hfound'.1 rfl, hcharacter]
    · rw [hafter, (read_fresh hfresh).characters hlistening']
      exact herror hopen

theorem mul_characterLength_eq_zero (u : Uart8251) (m : Nat) : m * u.characterLength = 0 ↔ m = 0 := by
  have hbounds := characterBits_bounds u
  have hpos : u.characterLength ≠ 0 := by
    unfold characterLength
    omega
  simp [hpos]

/-- Where the hunt begins at `u`: the lines on which it finds SYN. -/
theorem AtHunt.finds_iff (hhunt : AtHunt (some 0) u)
    (hcount : u.syncCharacterCount = 1 ∨ u.syncCharacterCount = 2) (k : Nat) (payload : List Byte) :
    u.HuntFinds k payload ↔
      k % u.characterLength = 0 ∧ (∀ syn ∈ u.syncCharacters, u.character syn = syn) ∧
        (k = 0 ∨ ∃ syn ∈ u.syncCharacters, syn ≠ u.mark) := by
  have hwhole : k % u.characterLength = 0 → k = k / u.characterLength * u.characterLength :=
    fun hzero => (Nat.div_mul_cancel (Nat.dvd_of_mod_eq_zero hzero)).symm
  constructor
  · intro hfinds
    have hzero := hfinds.aligned hhunt.listening hhunt.boundary
    refine ⟨hzero, ?_⟩
    rw [hwhole hzero] at hfinds ⊢
    rw [mul_characterLength_eq_zero]
    exact (huntFinds_of_aligned hhunt hcount _ payload).mp hfinds
  · rintro ⟨hzero, hcondition⟩
    rw [hwhole hzero] at hcondition ⊢
    rw [mul_characterLength_eq_zero] at hcondition
    exact (huntFinds_of_aligned hhunt hcount _ payload).mpr hcondition

/-! ## Enter Hunt -/

/-- A command word with EH and RxE and without IR. -/
structure HuntCommand (command : Byte) : Prop where
  hunt : hasBits command 0x80#8 = true
  enable : hasBits command 0x04#8 = true
  notReset : hasBits command 0x40#8 = false

/-- The chip is initialized in a synchronous mode, and the host queue leaves the line alone. -/
structure SyncReady (u : Uart8251) : Prop where
  phase : u.initializationPhase = .command
  sync : u.synchronous = true
  inactive : u.queuedReceiveActive = false
  empty : u.queuedReceiveBytes = []

theorem SyncReady.acceptCommand (h : u.SyncReady) {command : Byte} (hcommand : HuntCommand command) :
    ∃ parity overrun framing broken txd, u.acceptCommand command = { u with
      commandWord := command
      receiveParityError := parity
      receiveOverrunError := overrun
      receiveFramingError := framing
      breakDetected := broken
      syncHunt := true
      syncDetected := false
      syncHuntIndex := 0
      receivePhase := .syncData
      receiveBitIndex := 0
      receiveShift := 0#8
      txdHigh := txd } := by
  have hsync : u.modeWord &&& 3#8 = 0#8 := by simpa [synchronous] using h.sync
  unfold Uart8251.acceptCommand
  rw [if_neg (by rw [hcommand.notReset]; decide)]
  by_cases hreset : hasBits command 0x10#8 = true
  · by_cases htransmit : hasBits command 0x01#8 = true <;>
      simp [hreset, htransmit, hcommand.hunt, hcommand.enable, synchronous, hsync, transmitterEnabled,
        receiverEnabled, h.phase]
  · by_cases htransmit : hasBits command 0x01#8 = true <;>
      simp [hreset, htransmit, hcommand.hunt, hcommand.enable, synchronous, hsync, transmitterEnabled,
        receiverEnabled, h.phase]

theorem SyncReady.enterHunt (h : u.SyncReady) (hcount : u.syncCharacterCount ≠ 0) {command : Byte}
    (hcommand : HuntCommand command) :
    AtHunt (some 0) (u.write 0x01#8 command) ∧
      (u.write 0x01#8 command).syncCharacterCount = u.syncCharacterCount ∧
      (u.write 0x01#8 command).syncCharacters = u.syncCharacters ∧
      (u.write 0x01#8 command).modeWord = u.modeWord := by
  have hwrite : u.write 0x01#8 command = u.acceptCommand command := by
    have hcontrol : hasBits 0x01#8 0x01#8 = true := by decide
    rw [write, if_pos hcontrol, writeControl, h.phase]
  obtain ⟨parity, overrun, framing, broken, txd, haccept⟩ := h.acceptCommand hcommand
  rw [hwrite, haccept]
  have henabled : (u.initializationPhase == .command && hasBits command 0x04#8) = true := by
    rw [h.phase, hcommand.enable]
    rfl
  exact ⟨⟨⟨henabled, h.sync, h.inactive, h.empty⟩, ⟨rfl, rfl, rfl⟩, hcount, ⟨rfl, rfl, rfl⟩⟩, rfl, rfl, rfl⟩

/-- A synchronous chip past its initialization has one or two SYN characters. -/
def HasSyn (u : Uart8251) : Prop :=
  u.initializationPhase = .command → u.synchronous = true →
    u.syncCharacterCount = 1 ∨ u.syncCharacterCount = 2

theorem HasSyn.receive (h : u.HasSyn) (hstep : ReceiveStep u u') : u'.HasSyn := by
  obtain ⟨r, rfl⟩ : ∃ r, u' = u.withReceive r := ⟨_, hstep⟩
  exact h

theorem HasSyn.transmit (h : u.HasSyn) (hstep : TransmitStep u u') : u'.HasSyn := by
  obtain ⟨t, rfl⟩ : ∃ t, u' = u.withTransmit t := ⟨_, hstep⟩
  exact h

theorem HasSyn.writeControl (h : u.HasSyn) (value : Byte) : (u.writeControl value).HasSyn := by
  unfold Uart8251.writeControl
  cases hphase : u.initializationPhase with
  | mode =>
    intro hcommand hsync
    have hmode : (u.acceptMode value).initializationPhase =
        if (u.acceptMode value).synchronous then .sync1 else .command := rfl
    rw [hsync, if_pos rfl] at hmode
    rw [hmode] at hcommand
    cases hcommand
  | sync1 => exact fun _ _ => .inl rfl
  | sync2 => exact fun _ _ => .inr rfl
  | command =>
    show (u.acceptCommand value).HasSyn
    unfold Uart8251.acceptCommand
    split
    · intro hcommand
      cases hcommand
    · dsimp only
      repeat' split
      all_goals exact h

theorem HasSyn.apply (h : u.HasSyn) (op : Op) : (u.apply op).HasSyn := by
  cases op with
  | reset =>
    intro hcommand
    cases hcommand
  | read registerIndex => exact h.receive (read_step u registerIndex)
  | write registerIndex value =>
    show (u.write registerIndex value).HasSyn
    unfold Uart8251.write
    split
    · exact h.writeControl value
    · exact h
  | setCtsActive active => exact h
  | setDsrActive active => exact h
  | setRxd high => exact h
  | setSyncDetect active => exact h.receive (setSyncDetect_step u active)
  | transmitClockEdge => exact h.transmit (transmitClockEdge_step u)
  | receiveClockEdge => exact h.receive (receiveLineEdge_step u)
  | queueReceivedByte value => exact h.receive (queueReceivedByte_step u value)
  | clearQueuedReceiveBytes => exact h
  | takeTransmittedByte => exact h.transmit (takeTransmittedByte_step u)

theorem hasSyn_reachable (h : Reachable apply {} u) : u.HasSyn := by
  have hinit : HasSyn {} := by
    intro hcommand
    cases hcommand
  exact h.invariant (I := HasSyn) hinit fun u op hu => hu.apply op

/-- In any reachable state of a synchronous mode, Enter Hunt finds SYN after `k` marks if and only if the
marks are whole characters, every SYN value fits the character, and marks are not all there is to SYN. -/
theorem enterHunt_finds_iff (hreach : Reachable apply {} u) (hready : u.SyncReady) {command : Byte}
    (hcommand : HuntCommand command) (k : Nat) (payload : List Byte) :
    (u.write 0x01#8 command).HuntFinds k payload ↔
      k % u.characterLength = 0 ∧ (∀ syn ∈ u.syncCharacters, u.character syn = syn) ∧
        (k = 0 ∨ ∃ syn ∈ u.syncCharacters, syn ≠ u.mark) := by
  have hcount := hasSyn_reachable hreach hready.phase hready.sync
  obtain ⟨hhunt, hcount', hsyn, hmode⟩ := hready.enterHunt (by omega) hcommand
  have hlength : (u.write 0x01#8 command).characterLength = u.characterLength :=
    of_mode characterLength (fun _ => rfl) hmode
  have hcharacter : (u.write 0x01#8 command).character = u.character :=
    of_mode character (fun _ => rfl) hmode
  rw [hhunt.finds_iff (by rw [hcount']; exact hcount), hlength, hsyn, mark, hcharacter]
  rfl

/-- Eight-bit characters, SYN 16h: a character of marks before it. -/
theorem enterHunt_finds_after_marks :
    ((run apply {} [.write 0x01#8 0x8C#8, .write 0x01#8 0x16#8]).write 0x01#8 0x84#8).HuntFinds 8
      [0x41#8] :=
  (enterHunt_finds_iff ⟨_, rfl⟩ ⟨by decide, by decide, by decide, by decide⟩
    ⟨by decide, by decide, by decide⟩ 8 [0x41#8]).mpr (by decide)

/-! ## Lines on which the hunt fails -/

/-- The SYN characters as the transmitter frames them. -/
def synPattern (u : Uart8251) : List Bool := u.syncCharacters.flatMap u.frameBits

/-- The framed SYN characters do not occur on the line before they are sent. -/
def SynUnique (u : Uart8251) (k : Nat) (payload : List Byte) : Prop :=
  ∀ j < k, ¬u.synPattern <+:
    (List.replicate k true ++ u.synPattern ++ payload.flatMap u.frameBits).drop j

instance (u : Uart8251) (k : Nat) (payload : List Byte) : Decidable (u.SynUnique k payload) := by
  unfold SynUnique
  infer_instance

/-- A chip with one SYN character, just put into hunt. -/
def hunting (mode syn : Byte) : Uart8251 :=
  (run apply {} [.write 0x01#8 mode, .write 0x01#8 syn]).write 0x01#8 0x84#8

/-- SYN 96h in five-bit characters, sent as 16h and compared as 96h; and SYN 16h after one mark. -/
theorem hunt_misses_syn :
    ((hunting 0x80#8 0x96#8).SynUnique 0 [] ∧ ¬(hunting 0x80#8 0x96#8).HuntFinds 0 []) ∧
      (hunting 0x8C#8 0x16#8).SynUnique 1 [0x41#8] ∧
        ¬(hunting 0x8C#8 0x16#8).HuntFinds 1 [0x41#8] := by
  have hcommand : HuntCommand 0x84#8 := ⟨by decide, by decide, by decide⟩
  have hfive : AtHunt (some 0) (hunting 0x80#8 0x96#8) :=
    (SyncReady.enterHunt ⟨by decide, by decide, by decide, by decide⟩ (by decide) hcommand).1
  have height : AtHunt (some 0) (hunting 0x8C#8 0x16#8) :=
    (SyncReady.enterHunt ⟨by decide, by decide, by decide, by decide⟩ (by decide) hcommand).1
  refine ⟨⟨by decide, fun hfinds => ?_⟩, by decide, fun hfinds => ?_⟩
  · obtain ⟨-, hfits, -⟩ := (hfive.finds_iff (.inl (by decide)) 0 []).mp hfinds
    revert hfits
    decide
  · obtain ⟨haligned, -, -⟩ := (height.finds_iff (.inl (by decide)) 1 [0x41#8]).mp hfinds
    revert haligned
    decide

end Uart8251
end FK1
