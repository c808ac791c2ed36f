import FK1.Board
import FK1.Lib.Quadrature

/-!
# FK1.MouseMotion

The mouse by itself: the codes its lines show, what one motion edge does to lines, queued counts and
edge budget, and the loop of `advance_mouse` as the list of states it goes through.

* `MouseState.Lined`   — the phase counters agree with the lines of the raw byte.
* `MouseState.moves`   — the states after each edge; the loop ends at the last one, `rested`.
* `MouseState.advance` — what a time step makes of the mouse; it adds up (`advance_add`).
-/

namespace FK1

open Quadrature

/-! ## Lines and codes -/

/-- BX and AX, which are PD1 and PD0. -/
def xLines (raw : Byte) : BitVec 2 := raw.setWidth 2

/-- BY and AY, which are PD3 and PD2. -/
def yLines (raw : Byte) : BitVec 2 := (raw >>> 2).setWidth 2

/-- Motion to the right on BX/AX: 00, 10, 11, 01. -/
def rightCode (lines : BitVec 2) : BitVec 2 :=
  if lines = 0b00#2 then 0b10#2
  else if lines = 0b10#2 then 0b11#2
  else if lines = 0b11#2 then 0b01#2
  else 0b00#2

/-- Motion down on BY/AY: 00, 01, 11, 10. -/
def downCode (lines : BitVec 2) : BitVec 2 :=
  if lines = 0b00#2 then 0b01#2
  else if lines = 0b01#2 then 0b11#2
  else if lines = 0b11#2 then 0b10#2
  else 0b00#2

/-- From `old` to `raw` exactly one of the lines PD0 to PD3 changes, and nothing else does. -/
def OneLine (old raw : Byte) : Prop := ∃ line < 4, raw = old ^^^ (1#8 <<< line)

/-- The two lines of an axis in phase `p`. -/
def phaseLines (p : Fin 4) : BitVec 2 := (quadratureStates p).setWidth 2

theorem phaseLines_right (p : Fin 4) :
    turn rightCode (phaseLines p) (phaseLines (p + 3)) = some 1 ∧
      turn rightCode (phaseLines p) (phaseLines (p + 1)) = some (-1) := by
  revert p; decide

theorem phaseLines_down (p : Fin 4) :
    turn downCode (phaseLines p) (phaseLines (p + 1)) = some 1 ∧
      turn downCode (phaseLines p) (phaseLines (p + 3)) = some (-1) := by
  revert p; decide

theorem turn_same (next : BitVec 2 → BitVec 2) (lines : BitVec 2) : turn next lines lines = some 0 :=
  if_pos rfl

theorem xLines_or (a b : Byte) : xLines (a ||| b) = xLines a ||| xLines b := BitVec.setWidth_or

theorem xLines_and (a b : Byte) : xLines (a &&& b) = xLines a &&& xLines b := BitVec.setWidth_and

theorem yLines_or (a b : Byte) : yLines (a ||| b) = yLines a ||| yLines b := by
  simp [yLines, BitVec.ushiftRight_or_distrib]

theorem yLines_and (a b : Byte) : yLines (a &&& b) = yLines a &&& yLines b := by
  simp [yLines, BitVec.ushiftRight_and_distrib]

/-- Storing the lines of an axis leaves the other axis alone. -/
theorem xLines_store (raw : Byte) (p : Fin 4) :
    xLines ((raw &&& 0xFC#8) ||| quadratureStates p) = phaseLines p ∧
      yLines ((raw &&& 0xFC#8) ||| quadratureStates p) = yLines raw := by
  have hmask : xLines 0xFC#8 = 0#2 ∧ yLines 0xFC#8 = BitVec.allOnes 2 := by decide
  have hphase : yLines (quadratureStates p) = 0#2 := by revert p; decide
  rw [xLines_or, xLines_and, yLines_or, yLines_and, hmask.1, hmask.2, hphase,
    BitVec.and_allOnes, BitVec.and_zero, BitVec.zero_or, BitVec.or_zero]
  exact ⟨rfl, rfl⟩

theorem yLines_store (raw : Byte) (p : Fin 4) :
    yLines ((raw &&& 0xF3#8) ||| (quadratureStates p <<< 2)) = phaseLines p ∧
      xLines ((raw &&& 0xF3#8) ||| (quadratureStates p <<< 2)) = xLines raw := by
  have hmask : xLines 0xF3#8 = BitVec.allOnes 2 ∧ yLines 0xF3#8 = 0#2 := by decide
  have hphase : xLines (quadratureStates p <<< 2) = 0#2 ∧
      yLines (quadratureStates p <<< 2) = phaseLines p := by revert p; decide
  rw [xLines_or, xLines_and, yLines_or, yLines_and, hmask.1, hmask.2, hphase.1, hphase.2,
    BitVec.and_allOnes, BitVec.and_zero, BitVec.zero_or, BitVec.or_zero]
  exact ⟨rfl, rfl⟩

/-- The bits outside `keep` go from `lines` to `lines'`, which differ in one of the four lines. -/
theorem oneLine_store {raw keep lines lines' : Byte} (hraw : raw &&& ~~~keep = lines)
    (hapart : keep &&& (lines ||| lines') = 0#8) (hone : ∃ line < 4, lines ^^^ lines' = 1#8 <<< line) :
    OneLine raw ((raw &&& keep) ||| lines') := by
  obtain ⟨line, hline, hone⟩ := hone
  refine ⟨line, hline, ?_⟩
  rw [← hone]
  refine BitVec.eq_of_getLsbD_eq fun i hi => ?_
  have hraw : (raw.getLsbD i && !keep.getLsbD i) = lines.getLsbD i := by
    rw [← hraw, BitVec.getLsbD_and, BitVec.getLsbD_not, decide_eq_true hi, Bool.true_and]
  have hapart : (keep.getLsbD i && (lines.getLsbD i || lines'.getLsbD i)) = false := by
    rw [← BitVec.getLsbD_or, ← BitVec.getLsbD_and, hapart, BitVec.getLsbD_zero]
  rw [BitVec.getLsbD_or, BitVec.getLsbD_and, BitVec.getLsbD_xor, BitVec.getLsbD_xor]
  cases hkeep : keep.getLsbD i with
  | false =>
    rw [hkeep, Bool.not_false, Bool.and_true] at hraw
    simp [hraw]
  | true =>
    rw [hkeep, Bool.true_and, Bool.or_eq_false_iff] at hapart
    simp [hapart]

theorem xLines_mask (raw : Byte) : raw &&& ~~~0xFC#8 = (xLines raw).setWidth 8 := by
  revert raw; decide +kernel

theorem yLines_mask (raw : Byte) : raw &&& ~~~0xF3#8 = (yLines raw).setWidth 8 <<< 2 := by
  revert raw; decide +kernel

theorem phaseLines_extend (p : Fin 4) : (phaseLines p).setWidth 8 = quadratureStates p := by
  revert p; decide

theorem quadratureStates_apart (p q : Fin 4) :
    0xFC#8 &&& (quadratureStates p ||| quadratureStates q) = 0#8 ∧
      0xF3#8 &&& (quadratureStates p <<< 2 ||| quadratureStates q <<< 2) = 0#8 := by
  revert p q; decide

/-- The following and the preceding phase differ in one line. -/
theorem quadratureStates_next (p : Fin 4) {d : Fin 4} (hd : d = 1 ∨ d = 3) :
    (∃ line < 4, quadratureStates p ^^^ quadratureStates (p + d) = 1#8 <<< line) ∧
      ∃ line < 4, quadratureStates p <<< 2 ^^^ quadratureStates (p + d) <<< 2 = 1#8 <<< line := by
  revert p d; decide

theorem oneLine_x {raw : Byte} {p d : Fin 4} (h : xLines raw = phaseLines p) (hd : d = 1 ∨ d = 3) :
    OneLine raw ((raw &&& 0xFC#8) ||| quadratureStates (p + d)) := by
  have hraw : raw &&& ~~~0xFC#8 = quadratureStates p := by rw [xLines_mask, h, phaseLines_extend]
  exact oneLine_store hraw (quadratureStates_apart p _).1 (quadratureStates_next p hd).1

theorem oneLine_y {raw : Byte} {p d : Fin 4} (h : yLines raw = phaseLines p) (hd : d = 1 ∨ d = 3) :
    OneLine raw ((raw &&& 0xF3#8) ||| (quadratureStates (p + d) <<< 2)) := by
  have hraw : raw &&& ~~~0xF3#8 = quadratureStates p <<< 2 := by rw [yLines_mask, h, phaseLines_extend]
  exact oneLine_store hraw (quadratureStates_apart p _).2 (quadratureStates_next p hd).2

/-- One of the lines the edge detector watches. -/
theorem OneLine.detected {old raw : Byte} (h : OneLine old raw) : (raw ^^^ old) &&& 0x3F#8 ≠ 0#8 := by
  obtain ⟨line, hline, rfl⟩ := h
  rw [BitVec.xor_comm, ← BitVec.xor_assoc, BitVec.xor_self, BitVec.zero_xor]
  revert line; decide

/-! ## One edge -/

namespace Board

@[simp] theorem updateMouseSignals_mouse (b : Board) (signals : Byte) :
    (b.updateMouseSignals signals).mouse = { b.mouse with signalsRaw := signals } := by
  unfold updateMouseSignals
  dsimp only
  split <;> rfl

end Board

namespace MouseState

/-- The condition of the loop of `advance_mouse`. -/
def Due (m : MouseState) : Prop :=
  m.edgeTickAccumulator ≥ mouseEdgeIntervalTicks ∧ (m.pendingX ≠ 0 ∨ m.pendingY ≠ 0)

instance (m : MouseState) : Decidable m.Due := inferInstanceAs (Decidable (_ ∧ _))

/-- The axis whose turn it is. -/
def usesY (m : MouseState) : Bool :=
  m.pendingX == 0 || (m.pendingX != 0 && m.pendingY != 0 && m.yNext)

/-- The mouse after one motion edge. -/
def edge (m : MouseState) : MouseState := { Board.power [] with mouse := m }.mouseEdge.mouse

/-- The counts still to be shown. -/
def work (m : MouseState) : Nat := m.pendingX.natAbs + m.pendingY.natAbs

/-- The phase counters agree with the lines. -/
structure Lined (m : MouseState) : Prop where
  x : xLines m.signalsRaw = phaseLines m.xPhase
  y : yLines m.signalsRaw = phaseLines m.yPhase

/-- The counts are within the limits `queue_mouse_delta` clamps to. -/
structure Limited (m : MouseState) : Prop where
  x : m.pendingX.natAbs ≤ 1000000
  y : m.pendingY.natAbs ≤ 1000000

def withBudget (m : MouseState) (ticks : Nat) : MouseState := { m with edgeTickAccumulator := ticks }

@[simp] theorem withBudget_budget (m : MouseState) (ticks : Nat) :
    (m.withBudget ticks).edgeTickAccumulator = ticks := rfl

@[simp] theorem withBudget_work (m : MouseState) (ticks : Nat) : (m.withBudget ticks).work = m.work := rfl

@[simp] theorem withBudget_withBudget (m : MouseState) (s t : Nat) :
    (m.withBudget s).withBudget t = m.withBudget t := rfl

variable {m : MouseState}

theorem work_eq_zero : m.work = 0 ↔ m.pendingX = 0 ∧ m.pendingY = 0 := by
  unfold work
  omega

theorem due_iff : m.Due ↔ 12000 ≤ m.edgeTickAccumulator ∧ 0 < m.work := by
  have hwork : 0 < m.work ↔ m.pendingX ≠ 0 ∨ m.pendingY ≠ 0 := by
    unfold work
    omega
  rw [hwork]
  exact Iff.rfl

theorem edge_of_x (h : m.usesY = false) :
    m.edge = { m with
      edgeTickAccumulator := m.edgeTickAccumulator - 12000
      yNext := if m.pendingX != 0 && m.pendingY != 0 then !m.yNext else m.yNext
      pendingX := m.pendingX + (if m.pendingX > 0 then -1 else 1)
      xPhase := m.xPhase + (if m.pendingX > 0 then 3 else 1)
      signalsRaw := (m.signalsRaw &&& 0xFC#8) |||
        quadratureStates (m.xPhase + (if m.pendingX > 0 then 3 else 1)) } := by
  unfold usesY at h
  simp only [edge, Board.mouseEdge, h]
  simp [mouseEdgeIntervalTicks]

theorem edge_of_y (h : m.usesY = true) :
    m.edge = { m with
      edgeTickAccumulator := m.edgeTickAccumulator - 12000
      yNext := if m.pendingX != 0 && m.pendingY != 0 then !m.yNext else m.yNext
      pendingY := m.pendingY + (if m.pendingY > 0 then -1 else 1)
      yPhase := m.yPhase + (if m.pendingY > 0 then 1 else 3)
      signalsRaw := (m.signalsRaw &&& 0xF3#8) |||
        (quadratureStates (m.yPhase + (if m.pendingY > 0 then 1 else 3)) <<< 2) } := by
  unfold usesY at h
  simp only [edge, Board.mouseEdge, h]
  simp [mouseEdgeIntervalTicks]

theorem edge_budget (m : MouseState) :
    m.edge.edgeTickAccumulator = m.edgeTickAccumulator - 12000 := by
  cases h : m.usesY with
  | false => rw [edge_of_x h]
  | true => rw [edge_of_y h]

/-- An edge is the same whatever the budget. -/
theorem edge_withBudget (m : MouseState) (ticks : Nat) :
    (m.withBudget ticks).edge = m.edge.withBudget (ticks - 12000) := by
  cases h : m.usesY with
  | false =>
    rw [edge_of_x h, edge_of_x (show (m.withBudget ticks).usesY = false from h)]
    rfl
  | true =>
    rw [edge_of_y h, edge_of_y (show (m.withBudget ticks).usesY = true from h)]
    rfl

/-- The axis of an edge has a count left. -/
theorem pending_of_usesY (hwork : 0 < m.work) :
    if m.usesY then m.pendingY ≠ 0 else m.pendingX ≠ 0 := by
  unfold work at hwork
  by_cases hx : m.pendingX = 0
  · have hy : m.pendingY ≠ 0 := by omega
    simpa [usesY, hx] using hy
  · by_cases hy : m.pendingY = 0 <;> simp [usesY, hx, hy]

/-- An edge brings one of the counts nearer to zero by one. -/
theorem edge_counts (hwork : 0 < m.work) :
    m.edge.work + 1 = m.work ∧ m.edge.pendingX.natAbs ≤ m.pendingX.natAbs ∧
      m.edge.pendingY.natAbs ≤ m.pendingY.natAbs := by
  have haxis := pending_of_usesY hwork
  cases h : m.usesY with
  | false =>
    rw [h] at haxis
    have hx : m.pendingX ≠ 0 := haxis
    rw [edge_of_x h]
    unfold work
    dsimp only
    split <;> omega
  | true =>
    rw [h] at haxis
    have hy : m.pendingY ≠ 0 := haxis
    rw [edge_of_y h]
    unfold work
    dsimp only
    split <;> omega

theorem edge_limited (h : m.Limited) (hwork : 0 < m.work) : m.edge.Limited := by
  obtain ⟨-, hx, hy⟩ := edge_counts hwork
  exact ⟨Nat.le_trans hx h.x, Nat.le_trans hy h.y⟩

theorem edge_lined (h : m.Lined) : m.edge.Lined := by
  cases haxis : m.usesY with
  | false =>
    rw [edge_of_x haxis]
    obtain ⟨hx, hy⟩ := xLines_store m.signalsRaw (m.xPhase + (if m.pendingX > 0 then 3 else 1))
    exact ⟨hx, hy.trans h.y⟩
  | true =>
    rw [edge_of_y haxis]
    obtain ⟨hy, hx⟩ := yLines_store m.signalsRaw (m.yPhase + (if m.pendingY > 0 then 1 else 3))
    exact ⟨hx.trans h.x, hy⟩

theorem edge_oneLine (h : m.Lined) : OneLine m.signalsRaw m.edge.signalsRaw := by
  cases haxis : m.usesY with
  | false =>
    rw [edge_of_x haxis]
    refine oneLine_x h.x ?_
    split
    · exact .inr rfl
    · exact .inl rfl
  | true =>
    rw [edge_of_y haxis]
    refine oneLine_y h.y ?_
    split
    · exact .inl rfl
    · exact .inr rfl

/-- The decoders count what the edge takes from the queues. -/
theorem edge_turns (h : m.Lined) :
    turn rightCode (xLines m.signalsRaw) (xLines m.edge.signalsRaw) =
        some (m.pendingX - m.edge.pendingX) ∧
      turn downCode (yLines m.signalsRaw) (yLines m.edge.signalsRaw) =
        some (m.pendingY - m.edge.pendingY) := by
  have hedge := edge_lined h
  rw [h.x, h.y, hedge.x, hedge.y]
  cases haxis : m.usesY with
  | false =>
    obtain ⟨hright, hleft⟩ := phaseLines_right m.xPhase
    rw [edge_of_x haxis]
    dsimp only
    rw [turn_same, Int.sub_self]
    refine ⟨?_, rfl⟩
    split
    · rw [hright]; congr 1; omega
    · rw [hleft]; congr 1; omega
  | true =>
    obtain ⟨hdown, hup⟩ := phaseLines_down m.yPhase
    rw [edge_of_y haxis]
    dsimp only
    rw [turn_same, Int.sub_self]
    refine ⟨rfl, ?_⟩
    split
    · rw [hdown]; congr 1; omega
    · rw [hup]; congr 1; omega

/-! ## The loop of `advance_mouse` -/

/-- The states after each round of the loop. -/
def movesFrom : Nat → MouseState → List MouseState
  | 0, _ => []
  | fuel + 1, m => if m.Due then m.edge :: movesFrom fuel m.edge else []

def moves (m : MouseState) : List MouseState :=
  movesFrom (m.edgeTickAccumulator / mouseEdgeIntervalTicks) m

/-- Where the loop ends. -/
def rested (m : MouseState) : MouseState := m.moves.getLast?.getD m

theorem moves_of_due (h : m.Due) : m.moves = m.edge :: m.edge.moves := by
  have hbudget : 12000 ≤ m.edgeTickAccumulator := (due_iff.mp h).1
  have hfuel : m.edgeTickAccumulator / mouseEdgeIntervalTicks =
      m.edge.edgeTickAccumulator / mouseEdgeIntervalTicks + 1 := by
    rw [edge_budget]
    simp only [mouseEdgeIntervalTicks]
    omega
  rw [moves, hfuel, movesFrom, if_pos h, moves]

theorem moves_of_idle (h : ¬m.Due) : m.moves = [] := by
  unfold moves
  cases m.edgeTickAccumulator / mouseEdgeIntervalTicks with
  | zero => rfl
  | succ fuel => rw [movesFrom, if_neg h]

theorem rested_of_due (h : m.Due) : m.rested = m.edge.rested := by
  rw [rested, moves_of_due h, List.getLast?_cons, Option.getD_some, rested]

theorem rested_of_idle (h : ¬m.Due) : m.rested = m := by
  rw [rested, moves_of_idle h]
  rfl

/-- Induction along the loop: each round leaves less to show. -/
theorem loop_induction {P : MouseState → Prop} (idle : ∀ m, ¬m.Due → P m)
    (due : ∀ m, m.Due → P m.edge → P m) (m : MouseState) : P m := by
  induction hn : m.work using Nat.strongRecOn generalizing m with
  | ind n ih =>
    by_cases h : m.Due
    · have hwork := (edge_counts (due_iff.mp h).2).1
      exact due m h (ih m.edge.work (by omega) m.edge rfl)
    · exact idle m h

theorem rested_idle (m : MouseState) : ¬m.rested.Due := by
  induction m using loop_induction with
  | idle m h => rwa [rested_of_idle h]
  | due m h ih => rwa [rested_of_due h]

theorem rested_lined (h : m.Lined) : m.rested.Lined := by
  induction m using loop_induction with
  | idle m hidle => rwa [rested_of_idle hidle]
  | due m hdue ih =>
    rw [rested_of_due hdue]
    exact ih (edge_lined h)

theorem rested_limited (h : m.Limited) : m.rested.Limited := by
  induction m using loop_induction with
  | idle m hidle => rwa [rested_of_idle hidle]
  | due m hdue ih =>
    rw [rested_of_due hdue]
    exact ih (edge_limited h (due_iff.mp hdue).2)

/-- Each edge costs one interval and shows one count. -/
theorem moves_cost (m : MouseState) :
    12000 * m.moves.length + m.rested.edgeTickAccumulator = m.edgeTickAccumulator ∧
      m.moves.length + m.rested.work = m.work := by
  induction m using loop_induction with
  | idle m h =>
    rw [moves_of_idle h, rested_of_idle h]
    exact ⟨Nat.zero_add _, Nat.zero_add _⟩
  | due m h ih =>
    obtain ⟨hbudget, hwork⟩ := due_iff.mp h
    have hcount := (edge_counts hwork).1
    have hcost := edge_budget m
    rw [moves_of_due h, rested_of_due h, List.length_cons]
    omega

/-- The decoders count what the loop takes from the queues. -/
theorem moves_turned (h : m.Lined) :
    Turned rightCode (xLines m.signalsRaw) (m.moves.map fun m' => xLines m'.signalsRaw)
        (xLines m.rested.signalsRaw) (m.pendingX - m.rested.pendingX) ∧
      Turned downCode (yLines m.signalsRaw) (m.moves.map fun m' => yLines m'.signalsRaw)
        (yLines m.rested.signalsRaw) (m.pendingY - m.rested.pendingY) := by
  induction m using loop_induction with
  | idle m hidle =>
    rw [moves_of_idle hidle, rested_of_idle hidle, Int.sub_self, Int.sub_self]
    exact ⟨.nil _, .nil _⟩
  | due m hdue ih =>
    obtain ⟨hx, hy⟩ := edge_turns h
    obtain ⟨hxs, hys⟩ := ih (edge_lined h)
    rw [moves_of_due hdue, rested_of_due hdue]
    have hsum : ∀ a b c : Int, a - b + (b - c) = a - c := fun a b c => by omega
    constructor
    · have hturned := Turned.cons hx hxs
      rwa [hsum] at hturned
    · have hturned := Turned.cons hy hys
      rwa [hsum] at hturned

/-! ## A time step -/

/-- `advance_mouse` up to its loop. -/
def credited (m : MouseState) (masterTicks : Nat) : MouseState :=
  m.withBudget (m.edgeTickAccumulator + min masterTicks (maxUint64 - m.edgeTickAccumulator))

/-- `advance_mouse` after its loop: an idle mouse keeps one interval at most. -/
def settled (m : MouseState) : MouseState :=
  if m.pendingX = 0 ∧ m.pendingY = 0 then
    m.withBudget (min m.edgeTickAccumulator mouseEdgeIntervalTicks)
  else m

def advance (m : MouseState) (masterTicks : Nat) : MouseState := (m.credited masterTicks).rested.settled

/-- Between two calls of `advance_mouse` no edge is due, and an idle mouse has one edge in hand. -/
structure Paced (m : MouseState) : Prop where
  budget : m.edgeTickAccumulator ≤ 12000
  idle : ¬m.Due

theorem settled_of_work (h : 0 < m.work) : m.settled = m := by
  rw [settled, if_neg (fun hzero => ?_)]
  have hwork := work_eq_zero.mpr hzero
  omega

theorem settled_of_idle (h : m.work = 0) :
    m.settled = m.withBudget (min m.edgeTickAccumulator 12000) :=
  if_pos (work_eq_zero.mp h)

@[simp] theorem settled_work (m : MouseState) : m.settled.work = m.work := by
  unfold settled
  split <;> rfl

theorem idle_of_work (h : m.work = 0) : ¬m.Due := by
  intro hdue
  have hwork := (due_iff.mp hdue).2
  omega

theorem rested_of_work (h : m.work = 0) : m.rested = m := rested_of_idle (idle_of_work h)

/-- With enough budget for every count the budget does not matter. -/
theorem settled_of_rich (n : Nat) {s t : Nat} (hn : m.work = n) (hs : 12000 * (n + 1) ≤ s)
    (ht : 12000 * (n + 1) ≤ t) :
    (m.withBudget s).rested.settled = (m.withBudget t).rested.settled := by
  induction n generalizing m s t with
  | zero =>
    rw [rested_of_work (by simpa using hn), rested_of_work (by simpa using hn),
      settled_of_idle (by simpa using hn), settled_of_idle (by simpa using hn)]
    simp only [withBudget_budget, withBudget_withBudget]
    congr 1
    omega
  | succ n ih =>
    have hdue : ∀ ticks, 12000 ≤ ticks → (m.withBudget ticks).Due := fun ticks hticks =>
      due_iff.mpr ⟨hticks, by rw [withBudget_work]; omega⟩
    have hwork : m.edge.work = n := by
      have hcount := (edge_counts (m := m) (by omega)).1
      omega
    rw [rested_of_due (hdue s (by omega)), rested_of_due (hdue t (by omega)), edge_withBudget,
      edge_withBudget]
    exact ih hwork (by omega) (by omega)

/-- Between calls the 64-bit budget does not saturate before everything queued is shown. -/
theorem advance_eq (hp : m.Paced) (hl : m.Limited) (ticks : Nat) :
    m.advance ticks = (m.withBudget (m.edgeTickAccumulator + ticks)).rested.settled := by
  have hbudget := hp.budget
  have hx := hl.x
  have hy := hl.y
  by_cases hsmall : m.edgeTickAccumulator + ticks ≤ maxUint64
  · have hmin : min ticks (maxUint64 - m.edgeTickAccumulator) = ticks := by omega
    rw [advance, credited, hmin]
  · have hrich : 12000 * (m.work + 1) ≤ maxUint64 := by
      simp only [maxUint64, work]
      omega
    exact settled_of_rich m.work rfl (by omega) (by omega)

/-- Time that comes in two parts. -/
theorem settled_split (m : MouseState) (extra : Nat) :
    let first := m.rested.settled
    (first.withBudget (first.edgeTickAccumulator + extra)).rested.settled =
      (m.withBudget (m.edgeTickAccumulator + extra)).rested.settled := by
  induction m using loop_induction with
  | idle m h =>
    dsimp only
    rw [rested_of_idle h]
    by_cases hwork : m.work = 0
    · rw [settled_of_idle hwork, rested_of_work (by simpa using hwork),
        rested_of_work (by simpa using hwork), settled_of_idle (by simpa using hwork),
        settled_of_idle (by simpa using hwork)]
      simp only [withBudget_budget, withBudget_withBudget]
      congr 1
      omega
    · rw [settled_of_work (m := m) (by omega)]
  | due m h ih =>
    dsimp only at ih ⊢
    obtain ⟨hbudget, hwork⟩ := due_iff.mp h
    have hdue : (m.withBudget (m.edgeTickAccumulator + extra)).Due :=
      due_iff.mpr ⟨Nat.le_add_right_of_le hbudget, hwork⟩
    have hrest : m.edgeTickAccumulator + extra - 12000 = m.edge.edgeTickAccumulator + extra := by
      rw [edge_budget]
      omega
    rw [rested_of_due h, ih, rested_of_due hdue, edge_withBudget, hrest]

theorem settled_paced (h : ¬m.Due) : m.settled.Paced := by
  have hidle := mt due_iff.mpr h
  by_cases hwork : m.work = 0
  · rw [settled_of_idle hwork]
    exact ⟨Nat.min_le_right .., idle_of_work hwork⟩
  · rw [settled_of_work (by omega)]
    exact ⟨by omega, h⟩

theorem settled_limited (h : m.Limited) : m.settled.Limited := by
  unfold settled
  split
  · exact ⟨h.x, h.y⟩
  · exact h

theorem settled_lined (h : m.Lined) : m.settled.Lined := by
  unfold settled
  split
  · exact ⟨h.x, h.y⟩
  · exact h

theorem advance_paced (m : MouseState) (ticks : Nat) : (m.advance ticks).Paced :=
  settled_paced (rested_idle _)

theorem advance_limited (h : m.Limited) (ticks : Nat) : (m.advance ticks).Limited :=
  settled_limited (rested_limited (m := m.credited ticks) ⟨h.x, h.y⟩)

theorem advance_lined (h : m.Lined) (ticks : Nat) : (m.advance ticks).Lined :=
  settled_lined (rested_lined (m := m.credited ticks) ⟨h.x, h.y⟩)

/-- The raw byte ends as the last edge leaves it. -/
theorem advance_signals (m : MouseState) (ticks : Nat) :
    (m.advance ticks).signalsRaw =
      (((m.credited ticks).moves.map fun m' => m'.signalsRaw).getLast?).getD m.signalsRaw := by
  have hrested : (m.advance ticks).signalsRaw = (m.credited ticks).rested.signalsRaw := by
    rw [advance, settled]
    split <;> rfl
  rw [hrested, rested, List.getLast?_map]
  cases (m.credited ticks).moves.getLast? <;> rfl

/-- The decoders count what a time step takes from the queues. -/
theorem advance_turned (h : m.Lined) (ticks : Nat) :
    Turned rightCode (xLines m.signalsRaw) ((m.credited ticks).moves.map fun m' => xLines m'.signalsRaw)
        (xLines (m.advance ticks).signalsRaw) (m.pendingX - (m.advance ticks).pendingX) ∧
      Turned downCode (yLines m.signalsRaw) ((m.credited ticks).moves.map fun m' => yLines m'.signalsRaw)
        (yLines (m.advance ticks).signalsRaw) (m.pendingY - (m.advance ticks).pendingY) := by
  have hturned := moves_turned (m := m.credited ticks) ⟨h.x, h.y⟩
  rw [advance, settled]
  split
  · exact hturned
  · exact hturned

/-- The edges of a time step are the counts it has shown. -/
theorem moves_length (m : MouseState) (ticks : Nat) :
    (m.credited ticks).moves.length + (m.advance ticks).work = m.work := by
  rw [advance, settled_work]
  exact (moves_cost (m.credited ticks)).2

/-- The edges of a time step are paid from the budget and the time. -/
theorem moves_paid (m : MouseState) (ticks : Nat) :
    12000 * (m.credited ticks).moves.length + (m.advance ticks).edgeTickAccumulator ≤
      m.edgeTickAccumulator + ticks := by
  have hcost := (moves_cost (m.credited ticks)).1
  have hcredit : (m.credited ticks).edgeTickAccumulator ≤ m.edgeTickAccumulator + ticks :=
    Nat.add_le_add_left (Nat.min_le_left ..) _
  have hsettled : (m.advance ticks).edgeTickAccumulator ≤ (m.credited ticks).rested.edgeTickAccumulator := by
    rw [advance, settled]
    split
    · exact Nat.min_le_left ..
    · exact Nat.le_refl _
  omega

/-- Splitting a time step leaves the same mouse. -/
theorem advance_add (hp : m.Paced) (hl : m.Limited) (s t : Nat) :
    (m.advance s).advance t = m.advance (s + t) := by
  rw [advance_eq (advance_paced m s) (advance_limited hl s), advance_eq hp hl, advance_eq hp hl,
    ← Nat.add_assoc]
  exact settled_split (m.withBudget (m.edgeTickAccumulator + s)) t

theorem advance_zero (hp : m.Paced) (hl : m.Limited) : m.advance 0 = m := by
  have hsame : m.withBudget (m.edgeTickAccumulator + 0) = m := rfl
  have hmin : min m.edgeTickAccumulator mouseEdgeIntervalTicks = m.edgeTickAccumulator :=
    Nat.min_eq_left hp.budget
  rw [advance_eq hp hl, hsame, rested_of_idle hp.idle, settled, hmin]
  split
  · rfl
  · rfl

end MouseState

end FK1
