import Mathlib.Logic.Function.Iterate
import Mathlib.Order.Basic

/-!
# FK1.Lib.Crc

Cyclic redundancy checks in a register of `w` bits that shifts towards its most significant bit.

* `shift`, `feed`, `run` — the register shifted once; one bit of a message, and a string of bits.
* `update`, `digest`     — a symbol of `d` bits added to the top and shifted in; a string of symbols.
* `run_eq_shift`         — a string that fits the register is shifted in as a whole.
* `run_bits`             — the register's own bits clear it.
* `run_burst`            — with an odd polynomial, strings that differ within `w` bits leave different
  registers.
-/

namespace Crc

variable {w d : Nat} (poly : BitVec w)

def shift (crc : BitVec w) : BitVec w := if crc.msb then (crc <<< 1) ^^^ poly else crc <<< 1

def feed (crc : BitVec w) (bit : Bool) : BitVec w :=
  if crc.msb ^^ bit then (crc <<< 1) ^^^ poly else crc <<< 1

def run (crc : BitVec w) (message : List Bool) : BitVec w := message.foldl (feed poly) crc

def update (crc : BitVec w) (symbol : BitVec d) : BitVec w :=
  (shift poly)^[d] (crc ^^^ (symbol.setWidth w <<< (w - d)))

def digest (crc : BitVec w) (symbols : List (BitVec d)) : BitVec w := symbols.foldl (update poly) crc

/-- The bits of a symbol, most significant first. -/
def bits (symbol : BitVec d) : List Bool := (List.range d).map symbol.getMsbD

/-- A string of bits at the top of a register. -/
def pack (w : Nat) (message : List Bool) : BitVec w :=
  (BitVec.ofBoolListBE message).setWidth w <<< (w - message.length)

variable {poly} {crc crc' : BitVec w} {message message' before after : List Bool}

theorem run_append (message message' : List Bool) :
    run poly crc (message ++ message') = run poly (run poly crc message) message' :=
  List.foldl_append

@[simp] theorem length_bits (symbol : BitVec d) : (bits symbol).length = d := by
  rw [bits, List.length_map, List.length_range]

theorem bits_append {e : Nat} (high : BitVec d) (low : BitVec e) :
    bits (high ++ low) = bits high ++ bits low := by
  rw [bits, List.range_add, List.map_append, List.map_map]
  refine congrArg₂ (· ++ ·) (List.map_congr_left fun i hi => ?_) (List.map_congr_left fun i _ => ?_)
  · rw [BitVec.getMsbD_append, if_neg (Nat.not_le_of_lt (List.mem_range.mp hi))]
  · rw [Function.comp, BitVec.getMsbD_append, if_pos (Nat.le_add_right ..), Nat.add_sub_cancel_left]

theorem bits_injective : Function.Injective (bits (d := d)) := by
  intro a b h
  refine BitVec.eq_of_getMsbD_eq fun i hi => ?_
  have hbit := congrArg (fun message : List Bool => message.getD i false) h
  simpa [bits, hi] using hbit

/-! ## Packed strings -/

theorem getMsbD_pack (h : message.length ≤ w) (i : Nat) :
    (pack w message).getMsbD i = message.getD i false := by
  have hoffset : w - message.length ≤ i + (w - message.length) := by omega
  have hindex : i + (w - message.length) + message.length - w = i := by omega
  rw [pack, BitVec.getMsbD_shiftLeft, BitVec.getMsbD_setWidth, decide_eq_true hoffset,
    Bool.true_and, BitVec.getMsbD_ofBoolListBE, hindex]

theorem pack_nil : pack w [] = 0#w :=
  BitVec.eq_of_getMsbD_eq fun i _ => by simp [getMsbD_pack]

theorem pack_cons {bit : Bool} (h : (bit :: message).length ≤ w) :
    (pack w (bit :: message)).msb = bit ∧ pack w (bit :: message) <<< 1 = pack w message := by
  have hrest : message.length ≤ w := by
    rw [List.length_cons] at h
    omega
  refine ⟨?_, BitVec.eq_of_getMsbD_eq fun i _ => ?_⟩
  · rw [BitVec.msb_eq_getMsbD_zero, getMsbD_pack h, List.getD_cons_zero]
  · rw [BitVec.getMsbD_shiftLeft, getMsbD_pack h, getMsbD_pack hrest, List.getD_cons_succ]

theorem pack_inj (hlength : message.length = message'.length) (h : message.length ≤ w)
    (heq : pack w message = pack w message') : message = message' := by
  refine List.ext_getElem hlength fun i hi hi' => ?_
  have hbit := congrArg (fun register : BitVec w => register.getMsbD i) heq
  simpa [getMsbD_pack h, getMsbD_pack (hlength ▸ h), hi, hi'] using hbit

theorem pack_bits (symbol : BitVec d) (h : d ≤ w) :
    pack w (bits symbol) = symbol.setWidth w <<< (w - d) := by
  refine BitVec.eq_of_getMsbD_eq fun i _ => ?_
  have hoffset : w - d ≤ i + (w - d) := by omega
  have hindex : i + (w - d) + d - w = i := by omega
  rw [getMsbD_pack ((length_bits symbol).trans_le h), BitVec.getMsbD_shiftLeft, BitVec.getMsbD_setWidth,
    decide_eq_true hoffset, Bool.true_and, hindex]
  by_cases hi : i < d
  · simp [bits, hi]
  · simp [bits, hi, BitVec.getMsbD_of_ge symbol i (Nat.le_of_not_lt hi)]

/-! ## Shifting a string in -/

/-- The bit that is fed in is the bit that would have come out. -/
theorem shift_xor_pack {bit : Bool} (h : (bit :: message).length ≤ w) :
    shift poly (crc ^^^ pack w (bit :: message)) = feed poly crc bit ^^^ pack w message := by
  obtain ⟨hmsb, hrest⟩ := pack_cons h
  rw [shift, feed, BitVec.msb_xor, BitVec.shiftLeft_xor_distrib, hmsb, hrest]
  split
  · rw [BitVec.xor_assoc, BitVec.xor_comm (pack w message), BitVec.xor_assoc]
  · rfl

theorem run_eq_shift (h : message.length ≤ w) :
    run poly crc message = (shift poly)^[message.length] (crc ^^^ pack w message) := by
  induction message generalizing crc with
  | nil => rw [pack_nil, BitVec.xor_zero]; rfl
  | cons bit message ih =>
    have hrest : message.length ≤ w := by
      rw [List.length_cons] at h
      omega
    rw [List.length_cons, Function.iterate_succ_apply, shift_xor_pack h, ← ih hrest]
    rfl

theorem update_eq_run (symbol : BitVec d) (h : d ≤ w) :
    update poly crc symbol = run poly crc (bits symbol) := by
  rw [run_eq_shift ((length_bits symbol).trans_le h), length_bits, pack_bits symbol h]
  rfl

theorem digest_eq_run (h : d ≤ w) (symbols : List (BitVec d)) :
    digest poly crc symbols = run poly crc (symbols.flatMap bits) := by
  induction symbols generalizing crc with
  | nil => rfl
  | cons symbol symbols ih =>
    rw [List.flatMap_cons, run_append, ← update_eq_run symbol h, ← ih]
    rfl

/-- The register's own bits clear it. -/
theorem run_bits (crc : BitVec w) : run poly crc (bits crc) = 0#w := by
  have hpack : pack w (bits crc) = crc := by
    rw [pack_bits crc (Nat.le_refl w), Nat.sub_self, BitVec.shiftLeft_zero, BitVec.setWidth_eq]
  have hzero : shift poly 0#w = 0#w := by
    rw [shift, BitVec.msb_zero]
    exact BitVec.zero_shiftLeft 1
  rw [run_eq_shift (Nat.le_of_eq (length_bits crc)), hpack, BitVec.xor_self]
  exact Function.iterate_fixed hzero _

/-! ## Odd polynomials -/

/-- What has come out is the least significant bit of what is left. -/
theorem getLsbD_feed (hodd : poly.getLsbD 0 = true) (bit : Bool) :
    (feed poly crc bit).getLsbD 0 = (crc.msb ^^ bit) := by
  have hlow : (crc <<< 1).getLsbD 0 = false := by simp
  rw [feed]
  cases crc.msb ^^ bit with
  | true => rw [if_pos rfl, BitVec.getLsbD_xor, hlow, hodd]; rfl
  | false => rw [if_neg Bool.false_ne_true, hlow]

theorem feed_inj (hodd : poly.getLsbD 0 = true) {bit : Bool}
    (h : feed poly crc bit = feed poly crc' bit) : crc = crc' := by
  have hmsb : crc.msb = crc'.msb := by
    have hlow := congrArg (fun register : BitVec w => register.getLsbD 0) h
    simp only [getLsbD_feed hodd] at hlow
    exact Bool.xor_left_inj.mp hlow
  have hrest : crc <<< 1 = crc' <<< 1 := by
    rw [feed, feed, hmsb] at h
    split at h
    · exact (BitVec.xor_left_inj poly).mp h
    · exact h
  refine BitVec.eq_of_getMsbD_eq fun i _ => ?_
  cases i with
  | zero => rw [← BitVec.msb_eq_getMsbD_zero, hmsb, BitVec.msb_eq_getMsbD_zero]
  | succ i =>
    have hbit := congrArg (fun register : BitVec w => register.getMsbD i) hrest
    simpa only [BitVec.getMsbD_shiftLeft] using hbit

theorem shift_injective (hodd : poly.getLsbD 0 = true) : Function.Injective (shift poly) := by
  have hshift : shift poly = fun crc => feed poly crc false := by
    funext crc
    rw [shift, feed, Bool.xor_false]
  intro crc crc' h
  rw [hshift] at h
  exact feed_inj hodd h

theorem run_inj (hodd : poly.getLsbD 0 = true) (h : run poly crc message = run poly crc' message) :
    crc = crc' := by
  induction message generalizing crc crc' with
  | nil => exact h
  | cons bit message ih => exact feed_inj hodd (ih h)

/-- An error burst no longer than the register changes it, whatever follows. -/
theorem run_burst (hodd : poly.getLsbD 0 = true) (hlength : message.length = message'.length)
    (hw : message.length ≤ w) (hne : message ≠ message') :
    run poly crc (before ++ message ++ after) ≠ run poly crc (before ++ message' ++ after) := by
  intro heq
  simp only [run_append] at heq
  have hburst := run_inj hodd heq
  rw [run_eq_shift hw, run_eq_shift (hlength.symm.trans_le hw), hlength] at hburst
  have hpack := (BitVec.xor_right_inj _).mp ((shift_injective hodd).iterate _ hburst)
  exact hne (pack_inj hlength hw hpack)

/-! ## Symbols -/

variable {symbols symbols' : List (BitVec d)}

theorem length_flatMap_bits : (symbols.flatMap bits).length = symbols.length * d := by
  simp [List.length_flatMap, List.map_const']

theorem flatMap_bits_inj (hlength : symbols.length = symbols'.length)
    (h : symbols.flatMap bits = symbols'.flatMap bits) : symbols = symbols' := by
  induction symbols generalizing symbols' with
  | nil => exact (List.eq_nil_of_length_eq_zero hlength.symm).symm
  | cons symbol symbols ih =>
    cases symbols' with
    | nil => cases hlength
    | cons symbol' symbols' =>
      rw [List.flatMap_cons, List.flatMap_cons] at h
      obtain ⟨hhead, htail⟩ := List.append_inj h (by rw [length_bits, length_bits])
      rw [bits_injective hhead, ih (Nat.succ.inj hlength) htail]

theorem digest_residue (h : d ≤ w) {check : List (BitVec d)}
    (hcheck : check.flatMap bits = bits (digest poly crc symbols)) :
    digest poly crc (symbols ++ check) = 0#w := by
  rw [digest, List.foldl_append]
  show digest poly (digest poly crc symbols) check = 0#w
  rw [digest_eq_run h check, hcheck]
  exact run_bits _

/-- An error within consecutive symbols that fit the register changes it. -/
theorem digest_burst (hodd : poly.getLsbD 0 = true) (h : d ≤ w) (crc : BitVec w) {position n : Nat}
    (hw : n * d ≤ w) (hlength : symbols.length = symbols'.length)
    (hburst : ∀ i, i < position ∨ position + n ≤ i → symbols[i]? = symbols'[i]?)
    (hne : symbols ≠ symbols') : digest poly crc symbols ≠ digest poly crc symbols' := by
  have hbefore : symbols.take position = symbols'.take position := by
    refine List.ext_getElem? fun i => ?_
    by_cases hi : i < position
    · rw [List.getElem?_take_of_lt hi, List.getElem?_take_of_lt hi, hburst i (.inl hi)]
    · rw [List.getElem?_take_eq_none (by omega), List.getElem?_take_eq_none (by omega)]
  have hafter : symbols.drop (position + n) = symbols'.drop (position + n) := by
    refine List.ext_getElem? fun i => ?_
    rw [List.getElem?_drop, List.getElem?_drop, hburst _ (.inr (Nat.le_add_right ..))]
  have hsplit : ∀ symbols : List (BitVec d), symbols =
      symbols.take position ++ (symbols.drop position).take n ++ symbols.drop (position + n) := by
    intro symbols
    rw [← List.drop_drop, List.append_assoc, List.take_append_drop, List.take_append_drop]
  rw [hsplit symbols, hsplit symbols', hbefore, hafter] at hne ⊢
  have hmiddle : (symbols.drop position).take n ≠ (symbols'.drop position).take n := by
    intro heq
    exact hne (by rw [heq])
  have hcount : ((symbols.drop position).take n).length = ((symbols'.drop position).take n).length := by
    simp only [List.length_take, List.length_drop, hlength]
  have hbits : (((symbols.drop position).take n).flatMap bits).length ≤ w := by
    rw [length_flatMap_bits]
    exact Nat.le_trans (Nat.mul_le_mul_right d (List.length_take_le ..)) hw
  simp only [digest_eq_run h, List.flatMap_append]
  refine run_burst hodd ?_ hbits fun heq => hmiddle (flatMap_bits_inj hcount heq)
  rw [length_flatMap_bits, length_flatMap_bits, hcount]

end Crc
