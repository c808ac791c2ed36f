import FK1.Lib.Record
import FK1.Ppi8255

/-!
# FK1.AtKeyboard

The converter of AT scan codes of `keyboard.cpp`: two languages, dead keys, and bytes typed as two
hexadecimal digits while Scroll Lock is held.

* `hex_entry`: the digits of a run come out in pairs.
* `hex_types_any`: any bytes can be typed.
* `dead_keys`: which accent waits, and in which language the keys are.
-/

namespace FK1

/-- A key press as the host reports it. -/
structure KeyPress where
  scan : Byte
  extended : Bool := false
  shift : Bool := false
  caps : Bool := false
  control : Bool := false
  num : Bool := false
  scroll : Bool := false
  deriving DecidableEq, Repr

structure AtKeyboard where
  czech : Bool := false
  acute : Bool := false
  caron : Bool := false
  hexPending : Bool := false
  hexHigh : Byte := 0#8
  deriving DecidableEq, Repr

namespace AtKeyboard

/-! ## Tables -/

def bytes (values : List Nat) : List Byte := values.map (BitVec.ofNat 8)

def usMp : List Byte := bytes
  [0x00, 0x00, 0x00, 0x80, 0xD2, 0xD0, 0xD1, 0x00, 0x00, 0x00, 0x00, 0x82, 0x00, 0x09, 0x60, 0x00,
    0x00, 0x00, 0x00, 0x00, 0x00, 0x71, 0x31, 0x00, 0x00, 0x00, 0x7A, 0x73, 0x61, 0x77, 0x32, 0x00,
    0x00, 0x63, 0x78, 0x64, 0x65, 0x34, 0x33, 0x00, 0x00, 0x20, 0x76, 0x66, 0x74, 0x72, 0x35, 0x00,
    0x00, 0x6E, 0x62, 0x68, 0x67, 0x79, 0x36, 0x00, 0x00, 0x00, 0x6D, 0x6A, 0x75, 0x37, 0x38, 0x00,
    0x00, 0x2C, 0x6B, 0x69, 0x6F, 0x30, 0x39, 0x00, 0x00, 0x2E, 0x2F, 0x6C, 0x3B, 0x70, 0x2D, 0x00,
    0x00, 0x00, 0x27, 0x00, 0x5B, 0x3D, 0x00, 0x00, 0x00, 0x00, 0x0D, 0x5D, 0x00, 0x5C, 0x00, 0x00,
    0x00, 0x00, 0x00, 0x00, 0x00, 0x00, 0x08, 0x00, 0x00, 0x31, 0x00, 0x34, 0x37, 0x00, 0x00, 0x00,
    0x30, 0x2E, 0x32, 0x35, 0x36, 0x38, 0x1B, 0x00, 0x00, 0x2B, 0x33, 0x2D, 0x2A, 0x39, 0x00, 0x00,
    0x00, 0x00, 0x00, 0x84, 0x11, 0x00, 0xC4, 0x1E, 0x00, 0x00, 0x00, 0x16, 0x7F, 0xC2, 0x00, 0xC3,
    0xC1, 0x00, 0x00, 0x00, 0x00, 0x03, 0x00, 0x00, 0x12, 0x0F, 0x00, 0xC4, 0x15, 0x00, 0x00, 0x00,
    0x00, 0x7F, 0xC2, 0x00, 0xC3, 0xC1, 0x00, 0x00, 0x00, 0x00, 0x00, 0x00, 0x00, 0x00]

def usVp : List Byte := bytes
  [0x00, 0x00, 0x00, 0x81, 0xD2, 0xD0, 0xD1, 0x00, 0x00, 0x00, 0x00, 0x83, 0x00, 0x09, 0x7E, 0x00,
    0x00, 0x00, 0x00, 0x00, 0x00, 0x51, 0x21, 0x00, 0x00, 0x00, 0x5A, 0x53, 0x41, 0x57, 0x40, 0x00,
    0x00, 0x43, 0x58, 0x44, 0x45, 0x24, 0x23, 0x00, 0x00, 0x20, 0x56, 0x46, 0x54, 0x52, 0x25, 0x00,
    0x00, 0x4E, 0x42, 0x48, 0x47, 0x59, 0x5E, 0x00, 0x00, 0x00, 0x4D, 0x4A, 0x55, 0x26, 0x2A, 0x00,
    0x00, 0x3C, 0x4B, 0x49, 0x4F, 0x29, 0x28, 0x00, 0x00, 0x3E, 0x3F, 0x4C, 0x3A, 0x50, 0x5F, 0x00,
    0x00, 0x00, 0x22, 0x00, 0x7B, 0x2B, 0x00, 0x00, 0x00, 0x00, 0x0D, 0x7D, 0x00, 0x7C, 0x00, 0x00,
    0x00, 0x00, 0x00, 0x00, 0x00, 0x00, 0x08, 0x00, 0x00, 0x31, 0x00, 0x34, 0x37, 0x00, 0x00, 0x00,
    0x30, 0x2E, 0x32, 0x35, 0x36, 0x38, 0x1B, 0x00, 0x00, 0x2B, 0x33, 0x2D, 0x2A, 0x39, 0x00, 0x00,
    0x00, 0x00, 0x00, 0x85]

def czMp : List Byte := bytes
  [0x00, 0x00, 0x00, 0x00, 0xD2, 0xD0, 0xD1, 0x00, 0x00, 0x00, 0x00, 0x00, 0x00, 0x09, 0x3B, 0x00,
    0x00, 0x00, 0x00, 0x00, 0x00, 0x71, 0x2B, 0x00, 0x00, 0x00, 0x7A, 0x73, 0x61, 0x77, 0xC5, 0x00,
    0x00, 0x63, 0x78, 0x64, 0x65, 0xC3, 0xD3, 0x00, 0x00, 0x20, 0x76, 0x66, 0x74, 0x72, 0xD2, 0x00,
    0x00, 0x6E, 0x62, 0x68, 0x67, 0x79, 0xDA, 0x00, 0x00, 0x00, 0x6D, 0x6A, 0x75, 0xD9, 0xC1, 0x00,
    0x00, 0x2C, 0x6B, 0x69, 0x6F, 0xD7, 0xC9, 0x00, 0x00, 0x2E, 0x2D, 0x6C, 0xCA, 0x70, 0x3D, 0x00,
    0x00, 0x00, 0xFF, 0x00, 0xD5, 0x27, 0x00, 0x00, 0x00, 0x00, 0x0D, 0x29, 0x00, 0xFD, 0x00, 0x00,
    0x00, 0x00, 0x00, 0x00, 0x00, 0x00, 0x08, 0x00, 0x00, 0x31, 0x00, 0x34, 0x37, 0x00, 0x00, 0x00,
    0x30, 0x2E, 0x32, 0x35, 0x36, 0x38, 0x1B, 0x00, 0x00, 0x2B, 0x33, 0x2D, 0x2A, 0x39, 0x00, 0x00,
    0x00, 0x00, 0x00, 0x00]

def czVp : List Byte := bytes
  [0x00, 0x00, 0x00, 0x00, 0xD2, 0xD0, 0xD1, 0x00, 0x00, 0x00, 0x00, 0x00, 0x00, 0x09, 0xFE, 0x00,
    0x00, 0x00, 0x00, 0x00, 0x00, 0x51, 0x31, 0x00, 0x00, 0x00, 0x5A, 0x53, 0x41, 0x57, 0x32, 0x00,
    0x00, 0x43, 0x58, 0x44, 0x45, 0x34, 0x33, 0x00, 0x00, 0x20, 0x56, 0x46, 0x54, 0x52, 0x35, 0x00,
    0x00, 0x4E, 0x42, 0x48, 0x47, 0x59, 0x36, 0x00, 0x00, 0x00, 0x4D, 0x4A, 0x55, 0x37, 0x38, 0x00,
    0x00, 0x3F, 0x4B, 0x49, 0x4F, 0x30, 0x39, 0x00, 0x00, 0x3A, 0x5F, 0x4C, 0x3A, 0x50, 0x25, 0x00,
    0x00, 0x00, 0x21, 0x00, 0x2F, 0x3B, 0x00, 0x00, 0x00, 0x00, 0x0D, 0x28, 0x00, 0x27, 0x00, 0x00,
    0x00, 0x00, 0x00, 0x00, 0x00, 0x00, 0x08, 0x00, 0x00, 0x31, 0x00, 0x34, 0x37, 0x00, 0x00, 0x00,
    0x30, 0x2E, 0x32, 0x35, 0x36, 0x38, 0x1B, 0x00, 0x00, 0x2B, 0x33, 0x2D, 0x2A, 0x39, 0x00, 0x00,
    0x00, 0x00, 0x00, 0x00]

def czHac : List Byte := bytes
  [0xD8, 0x00, 0xC3, 0xC4, 0xC5, 0x00, 0x00, 0x00, 0x00, 0x00, 0x00, 0xCB, 0x00, 0xCE, 0xCD, 0x00,
    0x00, 0xD2, 0xD3, 0xD4, 0xC8, 0x00, 0x00, 0x00, 0x00, 0xDA]

def czCar : List Byte := bytes
  [0xC1, 0xC2, 0xC0, 0x00, 0xD7, 0x00, 0x00, 0xDC, 0xC9, 0x00, 0x00, 0xCC, 0xD6, 0x00, 0xCF, 0xDB,
    0x00, 0x00, 0xC7, 0xDD, 0xD5, 0x00, 0x00, 0x00, 0xD9, 0xDF]

/-! ## Translation -/

def reset (_ : AtKeyboard) : AtKeyboard := {}

def releaseScroll (k : AtKeyboard) : AtKeyboard := { k with hexPending := false }

/-- The table of a key that is not extended. -/
def table (k : AtKeyboard) (p : KeyPress) : List Byte :=
  if k.czech then (if p.shift != p.caps then czVp else czMp)
  else if p.shift != p.caps then usVp else usMp

/-- The value of a hexadecimal digit. -/
def digitOf (code : Byte) : Option Byte :=
  if 0x41#8 ≤ code ∧ code ≤ 0x46#8 then some (code - 0x41#8 + 10#8)
  else if 0x61#8 ≤ code ∧ code ≤ 0x66#8 then some (code - 0x61#8 + 10#8)
  else if 0x30#8 ≤ code ∧ code ≤ 0x39#8 then some (code - 0x30#8)
  else none

def extendedCode (p : KeyPress) : Option Byte :=
  if p.scan = 0x5A#8 then some 0x0D#8
  else if p.scan = 0x4A#8 then some 0x2F#8
  else if p.num ∨ p.scan < 0x69#8 ∨ 0x7D#8 < p.scan then none
  else some (usMp.getD (p.scan.toNat + 27 + if p.shift then 21 else 0) 0#8)

/-- The code with its accent, if the letter has one. -/
def withAccent (accents : List Byte) (shift : Bool) (code : Byte) : Byte :=
  let character := code &&& 0x7F#8
  if 0x40#8 < character ∧ character < 0x7B#8 then
    -- `unsigned` arithmetic: what is below the letters wraps around.
    let index := ((character &&& 0xDF#8).setWidth 32 - 0x41#32).toNat
    let accent := if index < 26 then accents.getD index 0#8 else 0#8
    if accent ≠ 0#8 then accent + (if shift then 0x20#8 else 0#8) else code
  else code

def accented (k : AtKeyboard) (shift : Bool) (code : Byte) : Byte × AtKeyboard :=
  (withAccent (if k.acute then czCar else czHac) shift code,
    if k.acute then { k with acute := false } else { k with caron := false })

def controlCode (code : Byte) : Option Byte :=
  let character := code &&& 0x7F#8
  if character < 0x3F#8 then none
  else if character ≠ 0x3F#8 then some (character &&& 0x1F#8)
  else some code

def hexDigit (k : AtKeyboard) (digit : Byte) : Option Byte × AtKeyboard :=
  if !k.hexPending then (none, { k with hexHigh := digit, hexPending := true })
  else (some (k.hexHigh * 16#8 + digit), { k with hexPending := false })

def plainCode (k : AtKeyboard) (p : KeyPress) : Option Byte × AtKeyboard :=
  if usVp.length ≤ p.scan.toNat then (none, k)
  else if k.czech ∧ p.scan = 0x55#8 then
    (none, if p.shift then { k with caron := true } else { k with acute := true })
  else
    let code := (k.table p).getD p.scan.toNat 0#8
    if code = 0#8 then (none, k)
    else if p.scroll then
      match digitOf code with
      | none => (none, k)
      | some digit => k.hexDigit digit
    else if k.czech ∧ (k.acute ∨ k.caron) then
      (some (k.accented p.shift code).1, (k.accented p.shift code).2)
    else if p.control then (controlCode code, k)
    else (some code, k)

/-- OUTPUT swaps the case of KOI-8 letters. -/
def output (czech : Bool) (code : Byte) : Byte :=
  if czech ∧ 0xC0#8 ≤ code then code ^^^ 0x20#8 else code

def translate (k : AtKeyboard) (p : KeyPress) : Option Byte × AtKeyboard :=
  if p.scan = 0x11#8 then (none, { k with czech := !k.czech })
  else
    let k := if p.scroll then k else { k with hexPending := false }
    let (code, k) := if p.extended then (extendedCode p, k) else k.plainCode p
    match code with
    | none => (none, k)
    | some code =>
      let code := output k.czech code
      if p.extended ∧ code = 0#8 then (none, k) else (some code, k)

/-! ## Lookups -/

theorem usVp_length : usVp.length = 132 := by decide +kernel

/-- No key is looked up outside its table. -/
theorem lookups_in_tables (k : AtKeyboard) (p : KeyPress) :
    (¬usVp.length ≤ p.scan.toNat → p.scan.toNat < (k.table p).length) ∧
      (p.scan ≤ 0x7D#8 → p.scan.toNat + 27 + (if p.shift then 21 else 0) < usMp.length) ∧
      czHac.length = 26 ∧ czCar.length = 26 := by
  have hlengths : usMp.length = 174 ∧ czMp.length = 132 ∧ czVp.length = 132 ∧ czHac.length = 26 ∧
      czCar.length = 26 := by decide +kernel
  obtain ⟨husMp, hczMp, hczVp, hhac, hcar⟩ := hlengths
  refine ⟨fun hrange => ?_, fun hscan => ?_, hhac, hcar⟩
  · rw [usVp_length] at hrange
    unfold table
    split <;> split <;> simp only [usVp_length, husMp, hczMp, hczVp] <;> omega
  · have hle : p.scan.toNat ≤ 125 := hscan
    rw [husMp]
    split <;> omega

/-! ## Runs -/

inductive KeyEvent where
  | press (p : KeyPress)
  | releaseScroll
  | reset
  deriving DecidableEq, Repr

def step (k : AtKeyboard) : KeyEvent → AtKeyboard
  | .press p => (k.translate p).2
  | .releaseScroll => k.releaseScroll
  | .reset => k.reset

/-- The codes for the keyboard. -/
def emitted : AtKeyboard × KeyEvent → List Byte
  | (k, .press p) => (k.translate p).1.toList
  | _ => []

variable {k : AtKeyboard} {p : KeyPress}

/-- The plain code of a key that is neither the language key nor a dead key. -/
def keyCode (k : AtKeyboard) (p : KeyPress) : Option Byte :=
  if p.scan = 0x11#8 ∨ p.extended ∨ usVp.length ≤ p.scan.toNat ∨ (k.czech ∧ p.scan = 0x55#8)
      ∨ (k.table p).getD p.scan.toNat 0#8 = 0#8 then none
  else some ((k.table p).getD p.scan.toNat 0#8)

/-- A dead key. -/
def deadKey (k : AtKeyboard) (p : KeyPress) : Bool := !p.extended && k.czech && p.scan == 0x55#8

/-- What `translate` does, by the kind of the key. -/
theorem plainCode_of_keyCode {code : Byte} (h : k.keyCode p = some code) :
    p.scan ≠ 0x11#8 ∧ p.extended = false ∧
      ∀ k' : AtKeyboard, k'.czech = k.czech → k'.plainCode p =
        if p.scroll then
          match digitOf code with
          | none => (none, k')
          | some digit => k'.hexDigit digit
        else if k'.czech ∧ (k'.acute ∨ k'.caron) then
          (some (k'.accented p.shift code).1, (k'.accented p.shift code).2)
        else if p.control then (controlCode code, k')
        else (some code, k') := by
  unfold keyCode at h
  split at h
  next => cases h
  next hkey =>
    simp only [not_or] at hkey
    obtain ⟨hscan, hextended, hrange, hdead, hcode⟩ := hkey
    cases h
    refine ⟨hscan, Bool.eq_false_iff.mpr hextended, fun k' hczech => ?_⟩
    have htable : k'.table p = k.table p := by
      unfold table
      rw [hczech]
    unfold plainCode
    rw [if_neg hrange, if_neg (by rw [hczech]; exact hdead), htable]
    dsimp only
    rw [if_neg hcode]

/-- The state before a key that is not the language key: a digit waits under Scroll Lock only. -/
def held (k : AtKeyboard) (p : KeyPress) : AtKeyboard :=
  if p.scroll then k else { k with hexPending := false }

theorem translate_state (hscan : p.scan ≠ 0x11#8) :
    (k.translate p).2 = if p.extended then k.held p else ((k.held p).plainCode p).2 := by
  have hlast : ∀ r : Option Byte × AtKeyboard, (match r.1 with
      | none => ((none : Option Byte), r.2)
      | some code =>
        if p.extended = true ∧ output r.2.czech code = 0#8 then (none, r.2)
        else (some (output r.2.czech code), r.2)).2 = r.2 := by
    rintro ⟨code, k'⟩
    cases code with
    | none => rfl
    | some code =>
      dsimp only
      split <;> rfl
  unfold translate
  rw [if_neg hscan]
  refine (hlast _).trans ?_
  cases p.extended <;> rfl

theorem held_kept (k : AtKeyboard) (p : KeyPress) : (k.held p).czech = k.czech ∧
    (k.held p).acute = k.acute ∧ (k.held p).caron = k.caron := by
  unfold held
  split <;> exact ⟨rfl, rfl, rfl⟩

theorem plainCode_czech (k : AtKeyboard) (p : KeyPress) : (k.plainCode p).2.czech = k.czech := by
  unfold plainCode
  dsimp only
  split
  · rfl
  split
  · split <;> rfl
  split
  · rfl
  split
  · split
    · rfl
    · unfold hexDigit
      split <;> rfl
  split
  · unfold accented
    dsimp only
    split <;> rfl
  · split <;> rfl

theorem translate_plain (hscan : p.scan ≠ 0x11#8) (hextended : p.extended = false) :
    k.translate p = (((k.held p).plainCode p).1.map (output k.czech), ((k.held p).plainCode p).2) := by
  have hczech : ((k.held p).plainCode p).2.czech = k.czech :=
    (plainCode_czech _ p).trans (held_kept k p).1
  unfold translate
  rw [if_neg hscan]
  simp only [hextended, Bool.false_eq_true, if_false, false_and]
  have hheld : k.held p = if p.scroll = true then k else { k with hexPending := false } := rfl
  rw [← hheld]
  generalize (k.held p).plainCode p = r at hczech ⊢
  obtain ⟨code, k'⟩ := r
  cases code with
  | none => rfl
  | some code =>
    dsimp only at hczech ⊢
    rw [hczech]
    rfl

theorem plainCode_of_none (h : k.keyCode p = none) (hscan : p.scan ≠ 0x11#8)
    (hextended : p.extended = false) {k' : AtKeyboard} (hczech : k'.czech = k.czech) :
    k'.plainCode p = (none,
      if k.deadKey p then
        if p.shift then { k' with caron := true } else { k' with acute := true }
      else k') := by
  have htable : k'.table p = k.table p := by
    unfold table
    rw [hczech]
  unfold plainCode deadKey
  rw [hczech, htable, hextended]
  by_cases hrange : usVp.length ≤ p.scan.toNat
  · have hne : p.scan ≠ 0x55#8 := by
      intro he
      rw [he, usVp_length] at hrange
      exact absurd hrange (by decide)
    rw [if_pos hrange]
    simp [hne]
  · rw [if_neg hrange]
    by_cases hdead : k.czech = true ∧ p.scan = 0x55#8
    · rw [if_pos hdead]
      simp [hdead.1, hdead.2]
    · have hcode : (k.table p).getD p.scan.toNat 0#8 = 0#8 := Decidable.byContradiction fun hcode => by
        have hplain : ¬p.extended = true := by rw [hextended]; decide
        rw [keyCode, if_neg (by simp only [not_or]; exact ⟨hscan, hplain, hrange, hdead, hcode⟩)] at h
        cases h
      have hnot : ¬((!false && k.czech && p.scan == 0x55#8) = true) := by simpa using hdead
      rw [if_neg hdead, hcode, if_neg hnot]
      rfl

/-! ## Hexadecimal digits -/

/-- The digit that a press under Scroll Lock types. -/
def typedDigit (k : AtKeyboard) (p : KeyPress) : Option Byte :=
  if p.scroll then (k.keyCode p).bind digitOf else none

/-- The digits of an event, with the language. -/
def typedDigits : AtKeyboard × KeyEvent → List (Byte × Bool)
  | (k, .press p) => ((k.typedDigit p).map (·, k.czech)).toList
  | _ => []

/-- What comes from keys that are not extended. -/
def hexBytes : AtKeyboard × KeyEvent → List Byte
  | (k, .press p) => if p.extended then [] else emitted (k, .press p)
  | _ => []

/-- Two digits are a byte, as OUTPUT puts it out in the language of the second. -/
def paired : List (Byte × Bool) → List Byte
  | high :: low :: digits => output low.2 (high.1 * 16#8 + low.1) :: paired digits
  | _ => []

/-- The digit that waits for its second half. -/
def pendingDigit (k : AtKeyboard) : List (Byte × Bool) :=
  if k.hexPending then [(k.hexHigh, k.czech)] else []

theorem paired_language (digit : Byte) (czech czech' : Bool) (digits : List (Byte × Bool)) :
    paired ((digit, czech) :: digits) = paired ((digit, czech') :: digits) := by
  cases digits <;> rfl

/-- One press under Scroll Lock. -/
theorem translate_scroll (k : AtKeyboard) (p : KeyPress) (hscroll : p.scroll = true) :
    match k.typedDigit p with
    | none => hexBytes (k, .press p) = [] ∧ (k.translate p).2.hexPending = k.hexPending ∧
        (k.translate p).2.hexHigh = k.hexHigh
    | some digit =>
      hexBytes (k, .press p) =
          (if k.hexPending then [output k.czech (k.hexHigh * 16#8 + digit)] else []) ∧
        (k.translate p).2.hexPending = !k.hexPending ∧
        (k.hexPending = false → (k.translate p).2.hexHigh = digit) := by
  unfold typedDigit hexBytes emitted
  rw [if_pos hscroll]
  by_cases hscan : p.scan = 0x11#8
  · have hcode : k.keyCode p = none := if_pos (.inl hscan)
    rw [hcode]
    simp [translate, hscan]
  cases hextended : p.extended with
  | true =>
    have hcode : k.keyCode p = none := if_pos (.inr (.inl hextended))
    rw [hcode]
    simp only [translate, if_neg hscan, hscroll, hextended, if_true, Option.bind_none, true_and]
    split
    · exact ⟨rfl, rfl⟩
    · split <;> exact ⟨rfl, rfl⟩
  | false =>
    simp only [translate, if_neg hscan, hscroll, hextended, if_true, Bool.false_eq_true, if_false]
    cases hcode : k.keyCode p with
    | none =>
      rw [plainCode_of_none hcode hscan hextended rfl]
      dsimp only [Option.bind_none]
      refine ⟨rfl, ?_⟩
      split
      · split <;> exact ⟨rfl, rfl⟩
      · exact ⟨rfl, rfl⟩
    | some code =>
      obtain ⟨-, -, hplain⟩ := plainCode_of_keyCode hcode
      rw [hplain k rfl, if_pos hscroll]
      cases hdigit : digitOf code with
      | none =>
        simp [hdigit]
      | some digit =>
        unfold hexDigit
        cases k.hexPending <;> simp [hdigit, output]

/-- A press moves the digits it types into the byte it completes, or into what waits. -/
theorem translate_digits (k : AtKeyboard) (p : KeyPress) (hscroll : p.scroll = true)
    (digits : List (Byte × Bool)) :
    paired (k.pendingDigit ++ (typedDigits (k, .press p) ++ digits)) =
      hexBytes (k, .press p) ++ paired ((k.translate p).2.pendingDigit ++ digits) := by
  have hpress := translate_scroll k p hscroll
  have hdigits : typedDigits (k, .press p) = ((k.typedDigit p).map (·, k.czech)).toList := rfl
  rw [hdigits]
  unfold pendingDigit
  cases htyped : k.typedDigit p with
  | none =>
    rw [htyped] at hpress
    obtain ⟨hbytes, hpending, hhigh⟩ := hpress
    rw [hbytes, hpending, hhigh]
    cases k.hexPending with
    | false => rfl
    | true => exact paired_language _ _ _ _
  | some digit =>
    rw [htyped] at hpress
    obtain ⟨hbytes, hpending, hhigh⟩ := hpress
    rw [hbytes, hpending]
    cases hwaits : k.hexPending with
    | false =>
      rw [hhigh hwaits]
      exact paired_language _ _ _ _
    | true => rfl

/-- While Scroll Lock is held, from whatever state: the keys that are not extended send exactly the bytes
whose digits are typed, two digits a byte, whatever keys, dead keys and changes of language come between;
an odd digit waits. OUTPUT flips the case bit of the bytes from C0h on that are completed in Czech. -/
theorem hex_entry (k : AtKeyboard) (presses : List KeyPress) :
    let history := Run.record step k (presses.map fun p => .press { p with scroll := true })
    history.flatMap hexBytes = paired (k.pendingDigit ++ history.flatMap typedDigits) := by
  dsimp only
  induction presses generalizing k with
  | nil =>
    unfold pendingDigit
    cases k.hexPending <;> rfl
  | cons p presses ih =>
    rw [List.map_cons, Run.record_cons, List.flatMap_cons, List.flatMap_cons,
      translate_digits k { p with scroll := true } rfl, ih]
    rfl

/-! ## Any byte -/

/-- The keys of the sixteen digits. -/
def digitScans : List Byte :=
  bytes [0x45, 0x16, 0x1E, 0x26, 0x25, 0x2E, 0x36, 0x3D, 0x3E, 0x46, 0x1C, 0x32, 0x21, 0x23, 0x24, 0x2B]

def digitKey (czech : Bool) (digit : Byte) : KeyPress :=
  { scan := digitScans.getD digit.toNat 0#8, shift := czech, scroll := true }

/-- The two keys of a byte. -/
def byteKeys (czech : Bool) (value : Byte) : List KeyEvent :=
  [.press (digitKey czech (output czech value >>> 4)),
    .press (digitKey czech (output czech value &&& 0x0F#8))]

theorem output_output (czech : Bool) (value : Byte) : output czech (output czech value) = value := by
  cases czech with
  | false => rfl
  | true =>
    revert value
    decide +kernel

theorem digitKey_typed (k : AtKeyboard) (digit : Fin 16) :
    k.typedDigit (digitKey k.czech (BitVec.ofNat 8 digit)) = some (BitVec.ofNat 8 digit) := by
  have htables : ∀ (czech : Bool) (digit : Fin 16),
      ({ czech := czech } : AtKeyboard).typedDigit (digitKey czech (BitVec.ofNat 8 digit)) =
        some (BitVec.ofNat 8 digit) := by decide +kernel
  exact htables k.czech digit

/-- Only the language key changes the language. -/
theorem translate_czech (k : AtKeyboard) (p : KeyPress) :
    (k.translate p).2.czech = if p.scan = 0x11#8 then !k.czech else k.czech := by
  by_cases hscan : p.scan = 0x11#8
  · rw [translate, if_pos hscan, if_pos hscan]
  rw [translate_state hscan, if_neg hscan]
  split
  · exact (held_kept k p).1
  · exact (plainCode_czech _ p).trans (held_kept k p).1

/-- A digit key with nothing before it waits; with a digit before it, it sends the byte. -/
theorem digitKey_sent (k : AtKeyboard) (digit : Fin 16) :
    let p := digitKey k.czech (BitVec.ofNat 8 digit)
    emitted (k, .press p) =
        (if k.hexPending then [output k.czech (k.hexHigh * 16#8 + BitVec.ofNat 8 digit)] else []) ∧
      (k.translate p).2.hexPending = !k.hexPending ∧
      (k.hexPending = false → (k.translate p).2.hexHigh = BitVec.ofNat 8 digit) ∧
      (k.translate p).2.czech = k.czech := by
  intro p
  have hpress := translate_scroll k p rfl
  rw [digitKey_typed] at hpress
  have hscan : ∀ digit : Fin 16, digitScans.getD (BitVec.ofNat 8 digit).toNat 0#8 ≠ 0x11#8 := by decide
  obtain ⟨hbytes, hpending, hhigh⟩ := hpress
  exact ⟨hbytes, hpending, hhigh, (translate_czech k p).trans (if_neg (hscan digit))⟩

/-- Pressed with nothing waiting, the two keys of a byte send it. -/
theorem byteKeys_sent (k : AtKeyboard) (hnone : k.hexPending = false) (value : Byte) :
    (Run.record step k (byteKeys k.czech value)).flatMap emitted = [value] ∧
      (Run.run step k (byteKeys k.czech value)).hexPending = false ∧
      (Run.run step k (byteKeys k.czech value)).czech = k.czech := by
  have hdigits : ∀ value : Byte, ∃ high low : Fin 16, value >>> 4 = BitVec.ofNat 8 high ∧
      value &&& 0x0F#8 = BitVec.ofNat 8 low ∧
        (BitVec.ofNat 8 high : Byte) * 16#8 + BitVec.ofNat 8 low = value := by
    intro value
    refine ⟨⟨value.toNat / 16, by omega⟩, ⟨value.toNat % 16, by omega⟩, ?_⟩
    revert value
    decide +kernel
  obtain ⟨high, low, hhigh, hlow, hvalue⟩ := hdigits (output k.czech value)
  unfold byteKeys
  rw [hhigh, hlow]
  obtain ⟨hnothing, hwaits, hfirst, hczech⟩ := digitKey_sent k high
  have hsecond := digitKey_sent (k.translate (digitKey k.czech (BitVec.ofNat 8 high))).2 low
  rw [hczech, hwaits, hfirst hnone, hnone] at hsecond
  obtain ⟨hbyte, hdone, -, hkept⟩ := hsecond
  rw [hnone] at hnothing
  refine ⟨?_, hdone, hkept⟩
  show emitted (k, _) ++ (emitted _ ++ []) = [value]
  rw [hnothing]
  refine (congrArg ([] ++ ·) (List.append_nil _)).trans ?_
  refine hbyte.trans ?_
  rw [Bool.not_false, if_pos rfl, hvalue, output_output]

/-- From any state, the keys of any bytes send exactly these, once Scroll Lock has been released. -/
theorem hex_types_any (k : AtKeyboard) (values : List Byte) :
    (Run.record step k (.releaseScroll :: values.flatMap (byteKeys k.czech))).flatMap emitted =
      values := by
  have hrun : ∀ (values : List Byte) (k' : AtKeyboard), k'.hexPending = false → k'.czech = k.czech →
      (Run.record step k' (values.flatMap (byteKeys k.czech))).flatMap emitted = values := by
    intro values
    induction values with
    | nil => exact fun _ _ _ => rfl
    | cons value values ih =>
      intro k' hnone hczech
      obtain ⟨hsent, hdone, hkept⟩ := byteKeys_sent k' hnone value
      rw [hczech] at hsent hdone hkept
      rw [List.flatMap_cons, Run.record_append, List.flatMap_append, hsent, ih _ hdone hkept]
      rfl
  exact hrun values k.releaseScroll rfl rfl

/-! ## Dead keys -/

/-- A key that takes an accent: one with a code, in Czech, without Scroll Lock. -/
def takesAccent : AtKeyboard × KeyEvent → Bool
  | (k, .press p) => k.czech && !p.scroll && (k.keyCode p).isSome
  | _ => false

/-- The dead key, with Shift for the caron and without for the acute. -/
def pressesDead (shift : Bool) : AtKeyboard × KeyEvent → Bool
  | (k, .press p) => k.deadKey p && p.shift == shift
  | _ => false

def resets : AtKeyboard × KeyEvent → Bool
  | (_, .reset) => true
  | _ => false

theorem keyCode_deadKey {code : Byte} (h : k.keyCode p = some code) : k.deadKey p = false := by
  unfold keyCode at h
  split at h
  next => cases h
  next hkey =>
    simp only [not_or] at hkey
    unfold deadKey
    simpa [Bool.eq_false_iff.mpr hkey.2.1] using hkey.2.2.2.1

theorem translate_accents (k : AtKeyboard) (p : KeyPress) :
    (k.translate p).2.acute =
        (pressesDead false (k, .press p) || (!takesAccent (k, .press p) && k.acute)) ∧
      (k.translate p).2.caron =
        (pressesDead true (k, .press p) ||
          (!(takesAccent (k, .press p) && !k.acute) && k.caron)) := by
  unfold pressesDead takesAccent
  dsimp only
  by_cases hscan : p.scan = 0x11#8
  · have hcode : k.keyCode p = none := if_pos (.inl hscan)
    have hdead : k.deadKey p = false := by simp [deadKey, hscan]
    simp [translate, hscan, hcode, hdead]
  obtain ⟨hczech, hacute, hcaron⟩ := held_kept k p
  rw [translate_state hscan]
  cases hextended : p.extended with
  | true =>
    have hcode : k.keyCode p = none := if_pos (.inr (.inl hextended))
    have hdead : k.deadKey p = false := by simp [deadKey, hextended]
    simp [hcode, hdead, hacute, hcaron]
  | false =>
    rw [if_neg Bool.false_ne_true]
    cases hcode : k.keyCode p with
    | none =>
      rw [plainCode_of_none hcode hscan hextended hczech]
      cases k.deadKey p with
      | false => simp [hacute, hcaron]
      | true => cases p.shift <;> simp [hacute, hcaron]
    | some code =>
      obtain ⟨-, -, hplain⟩ := plainCode_of_keyCode hcode
      rw [hplain _ hczech, keyCode_deadKey hcode, hczech, hacute, hcaron]
      cases hscroll : p.scroll with
      | true =>
        have hdigit : ∀ digit, ((k.held p).hexDigit digit).2.acute = k.acute ∧
            ((k.held p).hexDigit digit).2.caron = k.caron := by
          intro digit
          unfold hexDigit
          split <;> exact ⟨hacute, hcaron⟩
        rw [if_pos rfl]
        split
        · simp [hacute, hcaron]
        · simp [(hdigit _).1, (hdigit _).2]
      | false =>
        rw [if_neg Bool.false_ne_true]
        split
        next htakes =>
          obtain ⟨htaken, hwaits⟩ := htakes
          unfold accented
          rw [hacute, htaken]
          cases k.acute <;> simp [hcaron]
        next hplain =>
          have hsame : (if p.control = true then (controlCode code, k.held p)
              else (some code, k.held p)).2 = k.held p := by split <;> rfl
          rw [hsame, hacute, hcaron]
          revert hplain
          cases k.czech <;> cases k.acute <;> cases k.caron <;> simp

/-- The key that takes an accent sends its letter with it. -/
theorem translate_accented {code : Byte} (hcode : k.keyCode p = some code)
    (htakes : takesAccent (k, .press p) = true) (hwaits : (k.acute || k.caron) = true) :
    emitted (k, .press p) =
      [output true (withAccent (if k.acute then czCar else czHac) p.shift code)] := by
  obtain ⟨hscan, hextended, hplain⟩ := plainCode_of_keyCode hcode
  obtain ⟨hczech, hacute, hcaron⟩ := held_kept k p
  obtain ⟨⟨htaken, hscroll⟩, -⟩ : (k.czech = true ∧ p.scroll = false) ∧ _ := by
    simpa [takesAccent] using htakes
  have hplain' := hplain (k.held p) hczech
  rw [hscroll, if_neg Bool.false_ne_true, hczech, hacute, hcaron,
    if_pos ⟨htaken, by simpa using hwaits⟩] at hplain'
  have hsent : emitted (k, .press p) = (k.translate p).1.toList := rfl
  rw [hsent, translate_plain hscan hextended, hplain', htaken, accented, hacute]
  rfl

/-- A dead key waits exactly if it has been pressed since the last key that took its accent, and since
the last reset. An acute is taken before a caron. -/
theorem dead_keys (events : List KeyEvent) :
    let k := Run.run step {} events
    let history := Run.record step {} events
    (k.acute = true ↔ Run.Since (fun entry => pressesDead false entry = true)
        (fun entry => (takesAccent entry || resets entry) = true) history) ∧
      (k.caron = true ↔ Run.Since (fun entry => pressesDead true entry = true)
        (fun entry => ((takesAccent entry && !entry.1.acute) || resets entry) = true) history) ∧
      ∀ (p : KeyPress) (code : Byte), k.keyCode p = some code → takesAccent (k, .press p) = true →
        (k.acute || k.caron) = true →
        emitted (k, .press p) =
          [output true (withAccent (if k.acute then czCar else czHac) p.shift code)] := by
  intro k history
  have hstep : ∀ (k : AtKeyboard) (e : KeyEvent),
      ((k.step e).acute = true ↔ pressesDead false (k, e) = true ∨
        (¬(takesAccent (k, e) || resets (k, e)) = true ∧ k.acute = true)) ∧
      ((k.step e).caron = true ↔ pressesDead true (k, e) = true ∨
        (¬((takesAccent (k, e) && !k.acute) || resets (k, e)) = true ∧ k.caron = true)) := by
    intro k e
    cases e with
    | press p =>
      obtain ⟨hacute, hcaron⟩ := translate_accents k p
      unfold step
      rw [hacute, hcaron]
      cases takesAccent (k, .press p) <;> cases k.acute <;> simp [resets]
    | releaseScroll => simp [step, releaseScroll, pressesDead, takesAccent, resets]
    | reset => simp [step, reset, pressesDead, resets]
  have hacute := Run.clear_flag_of_record (I := fun _ : AtKeyboard => True)
    (P := fun entry => pressesDead false entry = true)
    (Q := fun entry => (takesAccent entry || resets entry) = true)
    (s := ({} : AtKeyboard)) (fun k : AtKeyboard => k.acute = true) (fun _ _ _ => trivial)
    (fun k e _ => (hstep k e).1) trivial Bool.false_ne_true events
  have hcaron := Run.clear_flag_of_record (I := fun _ : AtKeyboard => True)
    (P := fun entry => pressesDead true entry = true)
    (Q := fun entry => ((takesAccent entry && !entry.1.acute) || resets entry) = true)
    (s := ({} : AtKeyboard)) (fun k : AtKeyboard => k.caron = true) (fun _ _ _ => trivial)
    (fun k e _ => (hstep k e).2) trivial Bool.false_ne_true events
  refine ⟨hacute, hcaron, fun p code hcode htakes hwaits => ?_⟩
  exact translate_accented hcode htakes hwaits

/-- An acute on the first of two letters. -/
example : (Run.record step { czech := true }
    [.press { scan := 0x55#8 }, .press { scan := 0x1C#8 }, .press { scan := 0x1C#8 }]).flatMap emitted =
      [0xE1#8, 0x61#8] := by
  decide +kernel

end AtKeyboard
end FK1
