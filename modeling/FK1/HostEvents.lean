import FK1.AtKeyboard
import FK1.Backpressure
import FK1.MountedDrives
import FK1.MouseQuadrature

/-!
# FK1.HostEvents

The loop of `main.cpp`: keys, mouse capture, pause, disk dialogs, and the requests of the user
interface, on a machine with any guest program.

* `MainLoop.held_keys`: the key that repeats is one the host holds down.
* `MainLoop.pressed_buttons`: so are the buttons of the mouse, while it is captured.
-/

namespace FK1

/-! ## Keys -/

/-- The keys of `translate_key`: the SDL scan code, the AT scan code, and whether it is extended. -/
def keyTable : List (Nat × Byte × Bool) := [
  -- `SDL_SCANCODE_A` to `SDL_SCANCODE_Z`
  (4, 0x1C#8, false), (5, 0x32#8, false), (6, 0x21#8, false), (7, 0x23#8, false), (8, 0x24#8, false),
  (9, 0x2B#8, false), (10, 0x34#8, false), (11, 0x33#8, false), (12, 0x43#8, false),
  (13, 0x3B#8, false), (14, 0x42#8, false), (15, 0x4B#8, false), (16, 0x3A#8, false),
  (17, 0x31#8, false), (18, 0x44#8, false), (19, 0x4D#8, false), (20, 0x15#8, false),
  (21, 0x2D#8, false), (22, 0x1B#8, false), (23, 0x2C#8, false), (24, 0x3C#8, false),
  (25, 0x2A#8, false), (26, 0x1D#8, false), (27, 0x22#8, false), (28, 0x35#8, false),
  (29, 0x1A#8, false),
  -- `SDL_SCANCODE_1` to `SDL_SCANCODE_9`, `SDL_SCANCODE_0`
  (30, 0x16#8, false), (31, 0x1E#8, false), (32, 0x26#8, false), (33, 0x25#8, false),
  (34, 0x2E#8, false), (35, 0x36#8, false), (36, 0x3D#8, false), (37, 0x3E#8, false),
  (38, 0x46#8, false), (39, 0x45#8, false),
  -- return, escape, backspace, tab, space, minus, equals
  (40, 0x5A#8, false), (41, 0x76#8, false), (42, 0x66#8, false), (43, 0x0D#8, false),
  (44, 0x29#8, false), (45, 0x4E#8, false), (46, 0x55#8, false),
  -- left bracket, right bracket, backslash, non-US hash, semicolon, apostrophe, grave
  (47, 0x54#8, false), (48, 0x5B#8, false), (49, 0x5D#8, false), (50, 0x5D#8, false),
  (51, 0x4C#8, false), (52, 0x52#8, false), (53, 0x0E#8, false),
  -- comma, period, slash
  (54, 0x41#8, false), (55, 0x49#8, false), (56, 0x4A#8, false),
  -- F1, F2, F3, F5, F6, F7
  (58, 0x05#8, false), (59, 0x06#8, false), (60, 0x04#8, false), (62, 0x03#8, false),
  (63, 0x0B#8, false), (64, 0x83#8, false),
  -- insert, home, page up, delete, end, page down, right, left, down, up
  (73, 0x70#8, true), (74, 0x6C#8, true), (75, 0x7D#8, true), (76, 0x71#8, true), (77, 0x69#8, true),
  (78, 0x7A#8, true), (79, 0x74#8, true), (80, 0x6B#8, true), (81, 0x72#8, true), (82, 0x75#8, true),
  -- keypad: divide, multiply, minus, plus, enter, 1 to 9, 0, period
  (84, 0x4A#8, true), (85, 0x7C#8, false), (86, 0x7B#8, false), (87, 0x79#8, false),
  (88, 0x5A#8, true), (89, 0x69#8, false), (90, 0x72#8, false), (91, 0x7A#8, false),
  (92, 0x6B#8, false), (93, 0x73#8, false), (94, 0x74#8, false), (95, 0x6C#8, false),
  (96, 0x75#8, false), (97, 0x7D#8, false), (98, 0x70#8, false), (99, 0x71#8, false),
  -- left Alt, right Alt
  (226, 0x11#8, false), (230, 0x11#8, false)]

def scancodeF4 : Nat := 61

def scancodeScrollLock : Nat := 71

/-- `SDL_KeyboardEvent`, with the state of Scroll Lock. -/
structure SdlKey where
  scancode : Nat
  /-- `key == SDLK_F12`. -/
  isF12 : Bool := false
  isRepeat : Bool := false
  shift : Bool := false
  caps : Bool := false
  control : Bool := false
  num : Bool := false
  scroll : Bool := false
  deriving DecidableEq, Repr

def translateKey (keyboard : AtKeyboard) (key : SdlKey) : Option Byte × AtKeyboard :=
  match keyTable.lookup key.scancode with
  | none => (none, keyboard)
  | some (scan, extended) =>
    keyboard.translate
      { scan := scan
        extended := extended
        shift := key.shift
        caps := key.caps
        control := key.control
        num := key.num
        scroll := key.scroll }

/-! ## The loop -/

inductive SdlButton where
  | left
  | right
  | other
  deriving DecidableEq, Repr

/-- An event of SDL, with what the user interface and SDL answer while it is handled: whether the
interface wants the keyboard, and whether the pointer can be captured or released. -/
inductive SdlEvent where
  | quit
  | keyDown (key : SdlKey) (wantCaptureKeyboard : Bool) (answer : Bool)
  | keyUp (scancode : Nat)
  | mouseMotion (x y : Int)
  | mouseButtonDown (button : SdlButton) (answer : Bool)
  | mouseButtonUp (button : SdlButton)
  | focusLost (answer : Bool)
  deriving DecidableEq, Repr

/-- The operations of the keyboard and the mouse. -/
def HostOp.input : HostOp → Bool
  | .keyboardKeyDown _ _ | .keyboardKeyUp _ => true
  | .setMouseSignals _ | .mouseMotion _ _ | .setMouseButton _ _ => true
  | _ => false

/-- An operation of the serial link or the printer. -/
def HostOp.device : HostOp → Bool
  | .setSerialConnected _ | .setSerialClearToSend _ => true
  | .queueSerialReceivedByte _ | .takeSerialTransmittedByte => true
  | .takePrinterByte | .setPrinterOnline _ => true
  | _ => false

/-- What the user interface does with the drives. -/
def UiAction.dialog : UiAction → Bool
  | .resetMachine | .togglePause | .machine _ _ => false
  | _ => true

/-- What happens in the main loop: an event, `run_cycles`, an operation of the serial link or the
printer, a dialog or a click on the drives, or another request of the user interface. -/
inductive LoopStep where
  | event (e : SdlEvent)
  | runCycles
  | device (op : { op : HostOp // op.device = true })
  | ui (action : { action : UiAction // action.dialog = true })
  | resetMachine
  | togglePause
  | requestCapture (capture answer : Bool)
  | hover (screenHovered : Bool)
  | requestQuit

/-- The user interface on its machine, with the CPU and what else `main` keeps. -/
structure MainLoop (σ : Type) extends Frontend where
  cpu : σ
  synchronizedInstructionCycles : Nat := 0
  cpuCycleOverrun : Nat := 0
  acknowledged : List Board := []
  atKeyboard : AtKeyboard := {}
  running : Bool := true
  mouseCaptured : Bool := false
  screenHovered : Bool := false

namespace MainLoop

variable {σ : Type}

def machine (s : MainLoop σ) : Machine σ :=
  { board := s.board
    cpu := s.cpu
    synchronizedInstructionCycles := s.synchronizedInstructionCycles
    cpuCycleOverrun := s.cpuCycleOverrun
    acknowledged := s.acknowledged }

def withMachine (s : MainLoop σ) (m : Machine σ) : MainLoop σ :=
  { s with
    board := m.board
    cpu := m.cpu
    synchronizedInstructionCycles := m.synchronizedInstructionCycles
    cpuCycleOverrun := m.cpuCycleOverrun
    acknowledged := m.acknowledged }

def host (s : MainLoop σ) (op : HostOp) : MainLoop σ := { s with board := s.board.host op }

def act (s : MainLoop σ) (action : UiAction) : MainLoop σ :=
  { s with toFrontend := s.toFrontend.act action }

/-- `set_mouse_capture`; `answer` is that of `SDL_SetWindowRelativeMouseMode`. -/
def setMouseCapture (s : MainLoop σ) (capture answer : Bool) : MainLoop σ :=
  if s.mouseCaptured == capture || !answer then s
  else
    let s := { s with
      mouseCaptured := capture
      status := if capture then "Mouse captured" else "Mouse released" }
    if !capture then
      (s.host (.setMouseButton .button1 false)).host (.setMouseButton .button2 false)
    else s

/-- A button of the captured mouse. -/
def setButton (s : MainLoop σ) (button : SdlButton) (pressed : Bool) : MainLoop σ :=
  match button with
  | .left => s.host (.setMouseButton .button1 pressed)
  | .right => s.host (.setMouseButton .button2 pressed)
  | .other => s

def pressKey (s : MainLoop σ) (key : SdlKey) : MainLoop σ :=
  let (code, keyboard) := translateKey s.atKeyboard key
  let s := { s with atKeyboard := keyboard }
  match code with
  | none => s
  | some code => s.host (.keyboardKeyDown key.scancode code)

def handle (s : MainLoop σ) : SdlEvent → MainLoop σ
  | .quit => { s with running := false }
  | .keyDown key wantCaptureKeyboard answer =>
    if key.isRepeat then s
    else if key.isF12 then s.setMouseCapture (!s.mouseCaptured) answer
    else if wantCaptureKeyboard then s
    else if key.scancode = scancodeF4 then s.act .togglePause
    else s.pressKey key
  | .keyUp scancode =>
    let s := if scancode = scancodeScrollLock then { s with atKeyboard := s.atKeyboard.releaseScroll }
      else s
    s.host (.keyboardKeyUp scancode)
  | .mouseMotion x y => if s.mouseCaptured then s.host (.mouseMotion x y) else s
  | .mouseButtonDown button answer =>
    -- The first click only grabs the pointer.
    if !s.mouseCaptured then if s.screenHovered then s.setMouseCapture true answer else s
    else s.setButton button true
  | .mouseButtonUp button => if s.mouseCaptured then s.setButton button false else s
  | .focusLost answer => s.setMouseCapture false answer

def step (z : Z80 σ) (s : MainLoop σ) : LoopStep → MainLoop σ
  | .event e => s.handle e
  | .runCycles =>
    if s.paused then s else s.withMachine (s.machine.runCycles z cyclesPerFrame)
  | .device op => s.host op.val
  | .ui action => s.act action.val
  | .resetMachine =>
    { s.withMachine (s.machine.reset z) with paused := false, status := "Machine reset" }
  | .togglePause => s.act .togglePause
  | .requestCapture capture answer => s.setMouseCapture capture answer
  | .hover screenHovered => { s with screenHovered := screenHovered }
  | .requestQuit => { s with running := false }

/-- The loop as `main` enters it. -/
def enter (z : Z80 σ) (frontend : Frontend) : MainLoop σ :=
  { frontend with cpu := z.instantReset z.power }

end MainLoop

/-! ## The keyboard on the board -/

namespace Keyboard

/-- The keyboard under an action. -/
def act (k : Keyboard) : Action → Keyboard
  | .host (.keyboardKeyDown keyId code) => (k.keyDown keyId code).2
  | .host (.keyboardKeyUp keyId) => k.keyUp keyId
  | .advance cpuCycles => (k.advance (cpuCycles * masterTicksPerCpuCycle)).2
  | .reset => k.reset
  | _ => k

/-- The keyboard holds `keyId`. -/
def holds (k : Keyboard) (keyId : Nat) : Bool := k.keyHeld && k.heldKeyId == keyId

variable {k : Keyboard} {keyId : Nat}

theorem holds_keyDown (pressed : Nat) (code : Byte) :
    (k.keyDown pressed code).2.holds keyId = (pressed == keyId) := by
  unfold keyDown
  split
  next h => simp [holds, h.1, h.2]
  next => rfl

theorem holds_keyUp (released : Nat) :
    (k.keyUp released).holds keyId = (!(released == keyId) && k.holds keyId) := by
  unfold keyUp
  split
  next h =>
    by_cases hkey : released = keyId
    · simp [holds, hkey]
    · have hother : k.heldKeyId ≠ keyId := fun he => hkey (h.2.symm.trans he)
      simp [holds, hother]
  next h =>
    by_cases hkey : released = keyId
    · subst hkey
      have hnot : k.holds released = false := by
        simpa [holds] using h
      simp [hnot]
    · simp [hkey]

theorem holds_advance (masterTicks : Nat) : (k.advance masterTicks).2.holds keyId = k.holds keyId := by
  unfold advance
  split
  · dsimp only
    split <;> rfl
  · rfl

end Keyboard

namespace Board

theorem DiskStep.keyboard {b b' : Board} (h : DiskStep b b') : b'.keyboard = b.keyboard := by
  obtain ⟨_, _, _, _, _, _, rfl, _⟩ := h
  rfl

theorem refresh_keyboard (b : Board) : b.refreshInterruptSources.keyboard = b.keyboard :=
  (refresh_diskStep b).keyboard

theorem advanceKeyboard_keyboard (b : Board) (masterTicks : Nat) :
    (b.advanceKeyboard masterTicks).keyboard = (b.keyboard.advance masterTicks).2 := by
  have hdeliver : ∀ (repeats : Nat) (b : Board),
      (advanceKeyboard.deliver repeats b).keyboard = b.keyboard := by
    intro repeats
    induction repeats with
    | zero => exact fun _ => rfl
    | succ repeats ih => exact fun b => (ih _).trans (refresh_keyboard _)
  exact hdeliver _ _

theorem advanceTime_keyboard (b : Board) (cpuCycles : Nat) :
    (b.advanceTime cpuCycles).keyboard =
      (b.keyboard.advance (cpuCycles * masterTicksPerCpuCycle)).2 := by
  unfold advanceTime
  extract_lets masterTicks b₀ b₁ b₂ b₃
  have hfloppy : b₁.keyboard = b.keyboard :=
    (processFloppyBytes_diskStep (b₀.floppy.visitBytes masterTicks) b₀).keyboard
  have htimer : ∀ v : Board, (v.advanceTimer masterTicks).keyboard = v.keyboard := by
    intro v
    unfold advanceTimer
    dsimp only
    split
    · rfl
    · exact applyTimerEdges_view (fun h => h.keyboard) (fun _ _ => rfl) _ _
  have hflush : ∀ v : Board, v.flushPendingDiskWrites.keyboard = v.keyboard :=
    fun v => flush_view (fun h => h.keyboard) (fun _ _ => rfl) (fun _ _ => rfl) v
  have hframe : ∀ v : Board, (v.advanceFrame masterTicks).keyboard = v.keyboard := by
    intro v
    unfold advanceFrame
    dsimp only
    split <;> rfl
  have hmouse : ∀ v : Board, (v.advanceMouse masterTicks).keyboard = v.keyboard := by
    intro v
    obtain ⟨_, _, h⟩ := advanceMouse_frame v masterTicks
    rw [h]
  rw [refresh_keyboard, hframe]
  show ((b₂.advanceTimer masterTicks).flushPendingDiskWrites).keyboard = _
  rw [hflush, htimer]
  show ((b₁.advanceKeyboard masterTicks).advanceMouse masterTicks).keyboard = _
  rw [hmouse, advanceKeyboard_keyboard, hfloppy]

theorem readIo_keyboard (b : Board) (port : Word) : (b.readIo port).2.keyboard = b.keyboard := by
  unfold readIo
  dsimp only
  rw [refresh_keyboard]
  split <;> rfl

theorem writeIo_keyboard (b : Board) (port : Word) (value : Byte) :
    (b.writeIo port value).keyboard = b.keyboard := by
  unfold writeIo
  dsimp only
  rw [refresh_keyboard]
  split
  · unfold writePrinterKeyboard
    dsimp only
    split <;> rfl
  · unfold writeTimer
    dsimp only
    split <;> rfl
  · rfl
  · rfl
  · rfl
  · rw [writeDiskAux_eq]
  · rw [synchronizeControlOutputs_eq]
  · rfl

/-- The machine's keyboard is the keyboard by itself. -/
theorem act_keyboard (b : Board) (a : Action) : (b.act a).keyboard = b.keyboard.act a := by
  cases a with
  | advance cpuCycles => exact advanceTime_keyboard b cpuCycles
  | reset => exact refresh_keyboard _
  | host op =>
    cases op with
    | readIo port => exact readIo_keyboard b port
    | writeIo port value => exact writeIo_keyboard b port value
    | keyboardKeyDown keyId code =>
      simp only [act, Board.host, keyboardKeyDown]
      split
      · exact refresh_keyboard _
      · rfl
    | takePrinterByte =>
      simp only [act, Board.host, takePrinterByte]
      split <;> rfl
    | queueSerialReceivedByte value =>
      simp only [act, Board.host, queueSerialReceivedByte]
      split <;> rfl
    | setSerialConnected | setSerialClearToSend => exact refresh_keyboard _
    | setMouseSignals signals =>
      refine (refresh_keyboard _).trans ?_
      obtain ⟨_, _, h⟩ := updateMouseSignals_frame _ signals
      rw [h]
      rfl
    | mouseMotion deltaX deltaY =>
      refine (refresh_keyboard _).trans ?_
      obtain ⟨_, _, h⟩ := advanceMouse_frame _ 0
      rw [h]
      rfl
    | setMouseButton button pressed =>
      refine (refresh_keyboard _).trans ?_
      obtain ⟨_, _, h⟩ := updateMouseSignals_frame b _
      rw [h]
      rfl
    | writeMemory address value =>
      simp only [act, Board.host, writeMemory]
      repeat' split
      all_goals rfl
    | setRomImage image =>
      simp only [act, Board.host, setRomImage]
      split <;> rfl
    | _ => rfl

end Board

/-! ## The buttons of the mouse -/

namespace MouseState

variable {m : MouseState}

/-- The two lines of the buttons; a pressed button pulls its line low. -/
def buttons (m : MouseState) : Byte := m.signalsRaw &&& 0x30#8

def isPressed (m : MouseState) : MouseButton → Bool
  | .button1 => m.buttons &&& 0x10#8 == 0#8
  | .button2 => m.buttons &&& 0x20#8 == 0#8

theorem edge_buttons (m : MouseState) : m.edge.buttons = m.buttons := by
  have hx : ∀ (raw : Byte) (p : Fin 4),
      (raw &&& 0xFC#8 ||| quadratureStates p) &&& 0x30#8 = raw &&& 0x30#8 := by decide +kernel
  have hy : ∀ (raw : Byte) (p : Fin 4),
      (raw &&& 0xF3#8 ||| quadratureStates p <<< 2) &&& 0x30#8 = raw &&& 0x30#8 := by decide +kernel
  cases h : m.usesY with
  | false =>
    rw [edge_of_x h]
    exact hx _ _
  | true =>
    rw [edge_of_y h]
    exact hy _ _

theorem advance_buttons (m : MouseState) (masterTicks : Nat) :
    (m.advance masterTicks).buttons = m.buttons := by
  have hrested : ∀ m : MouseState, m.rested.buttons = m.buttons := by
    intro m
    induction m using loop_induction with
    | idle m h => rw [rested_of_idle h]
    | due m h ih => rw [rested_of_due h, ih, edge_buttons]
  have hsettled : ∀ m : MouseState, m.settled.buttons = m.buttons := by
    intro m
    unfold settled
    split <;> rfl
  rw [advance, hsettled, hrested]
  rfl

theorem isPressed_pressed (pressed button : MouseButton) (down : Bool) :
    (m.pressed pressed down).isPressed button =
      if pressed = button then down else m.isPressed button := by
  have hdown : ∀ raw : Byte,
      (raw &&& ~~~0x10#8 &&& 0x30#8 &&& 0x10#8 == 0#8) = true ∧
      (raw &&& ~~~0x20#8 &&& 0x30#8 &&& 0x20#8 == 0#8) = true ∧
      (raw &&& ~~~0x10#8 &&& 0x30#8 &&& 0x20#8 == 0#8) = (raw &&& 0x30#8 &&& 0x20#8 == 0#8) ∧
      (raw &&& ~~~0x20#8 &&& 0x30#8 &&& 0x10#8 == 0#8) = (raw &&& 0x30#8 &&& 0x10#8 == 0#8) := by
    decide +kernel
  have hup : ∀ raw : Byte,
      ((raw ||| 0x10#8) &&& 0x30#8 &&& 0x10#8 == 0#8) = false ∧
      ((raw ||| 0x20#8) &&& 0x30#8 &&& 0x20#8 == 0#8) = false ∧
      ((raw ||| 0x10#8) &&& 0x30#8 &&& 0x20#8 == 0#8) = (raw &&& 0x30#8 &&& 0x20#8 == 0#8) ∧
      ((raw ||| 0x20#8) &&& 0x30#8 &&& 0x10#8 == 0#8) = (raw &&& 0x30#8 &&& 0x10#8 == 0#8) := by
    decide +kernel
  obtain ⟨hd1, hd2, hd12, hd21⟩ := hdown m.signalsRaw
  obtain ⟨hu1, hu2, hu12, hu21⟩ := hup m.signalsRaw
  cases pressed <;> cases button <;> cases down
  · exact hu1
  · exact hd1
  · exact hu12
  · exact hd12
  · exact hu21
  · exact hd21
  · exact hu2
  · exact hd2

end MouseState

/-! ## What leaves the keys and the buttons alone -/

def Action.input : Action → Bool
  | .host op => op.input
  | .advance _ => false
  | .reset => true

theorem byGuest_input {a : Action} (h : a.byGuest = true) : a.input = false := by
  cases a with
  | host op =>
    cases op with
    | writeMemory | readIo | writeIo => rfl
    | _ => cases h
  | advance => rfl
  | reset => cases h

/-- The held key and the pressed buttons of `b'` are those of `b`. -/
structure SameInputs (b b' : Board) : Prop where
  keys : ∀ keyId, b'.keyboard.holds keyId = b.keyboard.holds keyId
  buttons : b'.mouse.buttons = b.mouse.buttons

theorem SameInputs.trans {b b' b'' : Board} (h : SameInputs b b') (h' : SameInputs b' b'') :
    SameInputs b b'' :=
  ⟨fun keyId => (h'.keys keyId).trans (h.keys keyId), h'.buttons.trans h.buttons⟩

theorem act_inputs {a : Action} (h : a.input = false) (b : Board) : SameInputs b (b.act a) := by
  refine ⟨fun keyId => ?_, ?_⟩
  · rw [Board.act_keyboard]
    cases a with
    | advance cpuCycles => exact Keyboard.holds_advance _
    | reset => cases h
    | host op =>
      cases op with
      | keyboardKeyDown | keyboardKeyUp => cases h
      | _ => rfl
  · rw [Board.act_mouse]
    cases a with
    | advance cpuCycles => exact MouseState.advance_buttons _ _
    | reset => cases h
    | host op =>
      cases op with
      | setMouseSignals | mouseMotion | setMouseButton => cases h
      | _ => rfl

theorem runCycles_inputs {σ : Type} (z : Z80 σ) (m : Machine σ) (cycles : Nat) :
    SameInputs m.board (m.runCycles z cycles).board := by
  rw [← Machine.runCyclesActions_run]
  exact Run.run_allowed (I := SameInputs m.board) (fun v _ hv ha => hv.trans (act_inputs (byGuest_input ha) v))
    ⟨fun _ => rfl, rfl⟩ (Machine.runCyclesActions_guest z m cycles)

theorem ejectFloppy_inputs (b : Board) (drive : Nat) : SameInputs b (b.ejectFloppy drive).2 :=
  @act_inputs (.host (.ejectFloppy drive)) rfl b

theorem insertFloppy_inputs (b : Board) (drive : Nat) (disk : FloppyDiskImage)
    (access : FloppyAccess) : SameInputs b (b.insertFloppy drive disk access).2 :=
  @act_inputs (.host (.insertFloppy drive disk access)) rfl b

theorem failEject_inputs (b : Board) (drive : Nat) (disk : FloppyDiskImage) (mounted : MountedDisk)
    (error : String) (events : List FileEvent) :
    SameInputs b (failEject b drive disk mounted error events).board :=
  insertFloppy_inputs b drive disk mounted.access

theorem eject8sd_inputs (b : Board) (drive : Nat) (mounted : MountedDisk) (error : String)
    (saving : WriteAnswers) : SameInputs b (eject8sd b drive mounted error saving).board := by
  have hejected := ejectFloppy_inputs b drive
  unfold eject8sd
  split
  next hempty =>
    rw [hempty] at hejected
    exact hejected
  next hdisk =>
    rw [hdisk] at hejected
    split
    · split
      · exact hejected.trans (failEject_inputs ..)
      · split
        · exact hejected.trans (failEject_inputs ..)
        · exact hejected
    · exact hejected

theorem replace8sd_inputs (b : Board) (drive : Fin 2) (path : Path) (access : FloppyAccess)
    (mounted : MountedDisk) (error : String) (answers : ReplaceAnswers) :
    SameInputs b (replace8sd b drive path access mounted error answers).board := by
  have hejected : SameInputs b (ejectMounted b drive mounted error answers.saving).board := by
    unfold ejectMounted
    split
    · exact eject8sd_inputs ..
    · exact ⟨fun _ => rfl, rfl⟩
  obtain ⟨-, -, -, hboard, -⟩ | ⟨-, -, hr⟩ | ⟨-, -, -, -, hboard, -⟩ | ⟨-, -, -, ⟨disk, hboard⟩, -⟩ :=
    replace8sd_cases b drive mounted error path access answers
  · rw [hboard]
    exact ⟨fun _ => rfl, rfl⟩
  · rw [hr]
    exact hejected
  · rw [hboard]
    exact hejected
  · rw [hboard]
    exact hejected.trans (insertFloppy_inputs ..)

theorem mountChosen_inputs (s : Frontend) (drive : Fin 2) (path : Path) (access : FloppyAccess)
    (creatingBlank : Bool) (answers : ReplaceAnswers) :
    SameInputs s.board (s.mountChosen drive path access creatingBlank answers).board := by
  have hreplaced := replace8sd_inputs s.board drive path access (s.disks drive) "" answers
  unfold Frontend.mountChosen
  dsimp only
  split <;> exact hreplaced

theorem openChosen_inputs (s : Frontend) (drive : Fin 2) (path : Path) (access : FloppyAccess)
    (operation : DiskDialogOperation) (answers : Frontend.DialogAnswers) :
    SameInputs s.board (s.openChosen drive path access operation answers).board := by
  have hsame : SameInputs s.board s.board := ⟨fun _ => rfl, rfl⟩
  unfold Frontend.openChosen
  split
  · exact hsame
  · split
    · exact hsame
    · split
      · split
        · exact hsame
        · exact mountChosen_inputs s drive path access true answers.replacing
      · exact mountChosen_inputs s drive path access false answers.replacing

theorem processResult_inputs (s : Frontend) (result : DiskDialogResult)
    (answers : Frontend.DialogAnswers) : SameInputs s.board (s.processResult result answers).board := by
  have htaken : ∀ s : Frontend, SameInputs s.board (s.takeResult result answers).board := by
    intro s
    unfold Frontend.takeResult
    split
    · exact ⟨fun _ => rfl, rfl⟩
    · split
      · exact ⟨fun _ => rfl, rfl⟩
      · split
        · exact openChosen_inputs ..
        · exact ⟨fun _ => rfl, rfl⟩
  exact htaken { s with nativeFileDialogOpen := false }

theorem processResults_inputs (s : Frontend) (results : List DiskDialogResult)
    (answers : List Frontend.DialogAnswers) :
    SameInputs s.board (s.processResults results answers).board := by
  induction results generalizing s answers with
  | nil => exact ⟨fun _ => rfl, rfl⟩
  | cons result results ih => exact (processResult_inputs s result _).trans (ih _ answers.tail)

theorem dialog_inputs (s : Frontend) {action : UiAction} (h : action.dialog = true) :
    SameInputs s.board (s.act action).board := by
  have hsame : SameInputs s.board s.board := ⟨fun _ => rfl, rfl⟩
  cases action with
  | resetMachine | togglePause | machine => cases h
  | showDiskDialog drive access operation =>
    rw [Frontend.act, Frontend.showDiskDialog_board]
    exact hsame
  | openButton drive =>
    rw [Frontend.act, Frontend.showDiskDialog_board]
    exact hsame
  | writableBox drive checked => exact hsame
  | fileDialogCallback choice =>
    show SameInputs s.board (s.fileDialogCallback choice).board
    unfold Frontend.fileDialogCallback
    split <;> exact hsame
  | processFileDialogResults answers =>
    exact processResults_inputs { s with fileDialogResults := [] } s.fileDialogResults answers
  | ejectDisk drive saving =>
    unfold Frontend.act
    dsimp only
    split
    · exact eject8sd_inputs ..
    · exact hsame

/-! ### Startup -/

/-- Nothing is held or pressed. -/
structure Released (b : Board) : Prop where
  keys : ∀ keyId, b.keyboard.holds keyId = false
  buttons : ∀ button, b.mouse.isPressed button = false

theorem isPressed_same {b b' : Board} (h : SameInputs b b') (button : MouseButton) :
    b'.mouse.isPressed button = b.mouse.isPressed button := by
  unfold MouseState.isPressed
  rw [h.buttons]

theorem Released.same {b b' : Board} (hb : Released b) (h : SameInputs b b') : Released b' :=
  ⟨fun keyId => (h.keys keyId).trans (hb.keys keyId),
    fun button => (isPressed_same h button).trans (hb.buttons button)⟩

theorem power_released (bootRom : List Byte) : Released (Board.power bootRom) := by
  have hblank : Released {} := ⟨fun _ => rfl, fun button => by cases button <;> rfl⟩
  have hrom : Released ((({} : Board).setRomImage bootRom).2) :=
    hblank.same (@act_inputs (.host (.setRomImage bootRom)) rfl {})
  refine ⟨fun keyId => ?_, fun button => ?_⟩
  · show ((({} : Board).setRomImage bootRom).2.act .reset).keyboard.holds keyId = false
    rw [Board.act_keyboard]
    rfl
  · show ((({} : Board).setRomImage bootRom).2.act .reset).mouse.isPressed button = false
    rw [Board.act_mouse]
    exact hrom.buttons button

theorem mountDisk_inputs {s s' : Frontend} {drive : Fin 2} {disk : MountedDisk}
    {answers : ReplaceAnswers} (h : mountDisk s drive disk answers = .ok s') :
    SameInputs s.board s'.board := by
  unfold mountDisk at h
  split at h
  · cases h
    exact ⟨fun _ => rfl, rfl⟩
  · dsimp only at h
    split at h
    · cases h
      exact replace8sd_inputs ..
    · cases h

theorem configure_inputs {b b' : Board} {options : Options} {rom : ReadAnswers}
    (h : configure b options rom = .ok b') : SameInputs b b' := by
  have hwidth : ∀ {b₁ : Board} {ticks : Nat}, (if options.showRomInfo = true then .error .success
      else if (b₁.setFloppyIndexPulseWidth ticks).1 = true then
        .ok (b₁.setFloppyIndexPulseWidth ticks).2
      else .error (.failure "invalid Index pulse width")) = (.ok b' : Except Exit Board) →
      SameInputs b₁ b' := by
    intro b₁ ticks h
    split at h
    · cases h
    · split at h
      · cases h
        exact @act_inputs (.host (.setFloppyIndexPulseWidth ticks)) rfl b₁
      · cases h
  unfold configure at h
  cases hpath : options.romPath with
  | none =>
    rw [hpath] at h
    exact hwidth h
  | some path =>
    rw [hpath] at h
    dsimp only at h
    cases hread : readRomFile path rom with
    | error error =>
      rw [hread] at h
      cases h
    | ok image =>
      rw [hread] at h
      dsimp only at h
      by_cases haccepted : (b.setRomImage image).1 = true
      · rw [if_pos haccepted] at h
        exact (@act_inputs (.host (.setRomImage image)) rfl b).trans (hwidth h)
      · rw [if_neg haccepted] at h
        cases h

theorem startPrinter_inputs {b b' : Board} {options : Options} {opened : Bool}
    (h : startPrinter b options opened = .ok b') : SameInputs b b' := by
  unfold startPrinter at h
  split at h
  · cases h
    exact ⟨fun _ => rfl, rfl⟩
  · split at h
    · cases h
      exact @act_inputs (.host (.setPrinterOnline true)) rfl b
    · cases h

theorem startSerial_inputs {b b' : Board} {options : Options} {answers : StartupAnswers}
    (h : startSerial b options answers = .ok b') : SameInputs b b' := by
  unfold startSerial at h
  split at h
  · cases h
    exact ⟨fun _ => rfl, rfl⟩
  · split at h
    · cases h
    next link _ =>
      cases h
      exact @act_inputs (.host (.setSerialConnected link.connected)) rfl b

theorem startup_released {bootRom : List Byte} {arguments : List String} {answers : StartupAnswers}
    {s : Frontend} (h : startup bootRom arguments answers = .ok s) : Released s.board := by
  unfold startup at h
  split at h
  · cases h
  · unfold start at h
    split at h
    · cases h
    · split at h
      · cases h
      · simp only [bind_eq_ok] at h
        obtain ⟨board, hboard, s₁, hA, s₂, hB, board₁, hprinter, board₂, hserial, hs⟩ := h
        have hconfigured : Released board := (power_released bootRom).same (configure_inputs hboard)
        have hmounted : Released s₂.board :=
          (hconfigured.same (mountDisk_inputs hA)).same (mountDisk_inputs hB)
        have hstarted : Released board₂ :=
          (hmounted.same (startPrinter_inputs hprinter)).same (startSerial_inputs hserial)
        split at hs
        · cases hs
          exact hstarted
        · cases hs

namespace MainLoop

variable {σ : Type} {z : Z80 σ} {s : MainLoop σ}

/-! ## What the user asks for -/

/-- The key that is pressed with a code. -/
def keyPressed : MainLoop σ × LoopStep → Option Nat
  | (s, .event (.keyDown key wantCaptureKeyboard _)) =>
    if key.isRepeat || key.isF12 || wantCaptureKeyboard || key.scancode == scancodeF4 then none
    else if (translateKey s.atKeyboard key).1.isSome then some key.scancode
    else none
  | _ => none

/-- `keyId` is released, the machine is reset, or another key takes its place. -/
def endsKey (keyId : Nat) : MainLoop σ × LoopStep → Bool
  | (_, .event (.keyUp scancode)) => scancode == keyId
  | (_, .resetMachine) => true
  | entry => (keyPressed entry).any (· != keyId)

/-- The capture or release of the mouse that is asked for and granted. -/
def captureGranted : MainLoop σ × LoopStep → Option Bool
  | (s, .event (.keyDown key _ answer)) =>
    if !key.isRepeat && key.isF12 && answer then some (!s.mouseCaptured) else none
  | (s, .event (.mouseButtonDown _ answer)) =>
    if !s.mouseCaptured && s.screenHovered && answer then some true else none
  | (_, .event (.focusLost answer)) => if answer then some false else none
  | (_, .requestCapture capture answer) => if answer then some capture else none
  | _ => none

def SdlButton.is (button : SdlButton) : MouseButton → Bool
  | .button1 => button == .left
  | .button2 => button == .right

/-- A button goes down on the captured mouse. -/
def buttonDown (button : MouseButton) : MainLoop σ × LoopStep → Bool
  | (s, .event (.mouseButtonDown pressed _)) => s.mouseCaptured && SdlButton.is pressed button
  | _ => false

/-- It goes up, or the mouse is released. -/
def buttonUp (button : MouseButton) (entry : MainLoop σ × LoopStep) : Bool :=
  (match entry with
    | (s, .event (.mouseButtonUp released)) => s.mouseCaptured && SdlButton.is released button
    | _ => false)
    || (entry.1.mouseCaptured && captureGranted entry == some false)

/-! ## What a step does -/

theorem host_board (s : MainLoop σ) (op : HostOp) : (s.host op).board = s.board.act (.host op) := rfl

theorem host_same (s : MainLoop σ) {op : HostOp} (h : op.device = true) :
    SameInputs s.board (s.host op).board := by
  refine @act_inputs (.host op) ?_ s.board
  cases op with
  | keyboardKeyDown | keyboardKeyUp | setMouseSignals | mouseMotion | setMouseButton => cases h
  | _ => rfl

theorem setMouseCapture_inputs (s : MainLoop σ) (capture answer : Bool) :
    (s.setMouseCapture capture answer).mouseCaptured =
        (if answer then capture else s.mouseCaptured) ∧
      (∀ keyId, (s.setMouseCapture capture answer).board.keyboard.holds keyId =
        s.board.keyboard.holds keyId) ∧
      ∀ button, (s.setMouseCapture capture answer).board.mouse.isPressed button =
        (!(s.mouseCaptured && answer && !capture) && s.board.mouse.isPressed button) := by
  unfold setMouseCapture
  cases answer with
  | false => simp
  | true =>
    cases hcapture : s.mouseCaptured <;> cases capture
    · simp [hcapture]
    · simp
    · refine ⟨rfl, fun keyId => ?_, fun button => ?_⟩
      · simp only [beq_iff_eq, Bool.true_eq_false, Bool.not_true, Bool.or_false, Bool.not_false,
          if_true, if_false, host_board, Board.act_keyboard]
        rfl
      · simp only [beq_iff_eq, Bool.true_eq_false, Bool.not_true, Bool.or_false, Bool.not_false,
          if_true, if_false, host_board, Board.act_mouse]
        show (((s.board.mouse.pressed .button1 false).pressed .button2 false).isPressed button) = _
        rw [MouseState.isPressed_pressed, MouseState.isPressed_pressed]
        cases button <;> rfl
    · simp [hcapture]

/-- What a step does to the keys, the buttons and the capture. -/
structure Moves (s s' : MainLoop σ) (l : LoopStep) : Prop where
  keys : ∀ keyId, s'.board.keyboard.holds keyId =
    ((keyPressed (s, l) == some keyId) || (!endsKey keyId (s, l) && s.board.keyboard.holds keyId))
  buttons : ∀ button, s'.board.mouse.isPressed button =
    (buttonDown button (s, l) || (!buttonUp button (s, l) && s.board.mouse.isPressed button))
  captured : s'.mouseCaptured = (captureGranted (s, l)).getD s.mouseCaptured

/-- A step that is about neither. -/
theorem moves_same {s s' : MainLoop σ} {l : LoopStep} (h : SameInputs s.board s'.board)
    (hkey : keyPressed (s, l) = none) (hend : ∀ keyId, endsKey keyId (s, l) = false)
    (hdown : ∀ button, buttonDown button (s, l) = false)
    (hup : ∀ button, buttonUp button (s, l) = false) (hgranted : captureGranted (s, l) = none)
    (hcaptured : s'.mouseCaptured = s.mouseCaptured) : Moves s s' l := by
  refine ⟨fun keyId => ?_, fun button => ?_, ?_⟩
  · rw [h.keys, hkey, hend]
    rfl
  · rw [isPressed_same h, hdown, hup]
    rfl
  · rw [hgranted, hcaptured]
    rfl

/-- A step that asks for the capture or the release of the mouse. -/
theorem moves_capture {l : LoopStep} {capture answer : Bool} (hkey : keyPressed (s, l) = none)
    (hend : ∀ keyId, endsKey keyId (s, l) = false) (hdown : ∀ button, buttonDown button (s, l) = false)
    (hup : ∀ button, buttonUp button (s, l) = (s.mouseCaptured && captureGranted (s, l) == some false))
    (hgranted : captureGranted (s, l) = if answer then some capture else none) :
    Moves s (s.setMouseCapture capture answer) l := by
  obtain ⟨hcaptured, hkeys, hbuttons⟩ := setMouseCapture_inputs s capture answer
  refine ⟨fun keyId => ?_, fun button => ?_, ?_⟩
  · rw [hkeys, hkey, hend]
    rfl
  · rw [hbuttons, hdown, hup, hgranted]
    cases answer <;> cases capture <;> simp
  · rw [hcaptured, hgranted]
    cases answer <;> rfl

theorem moves_button {l : LoopStep} (button : SdlButton) (down : Bool) (hkey : keyPressed (s, l) = none)
    (hend : ∀ keyId, endsKey keyId (s, l) = false)
    (hdown : ∀ b, buttonDown b (s, l) = (down && SdlButton.is button b))
    (hup : ∀ b, buttonUp b (s, l) = (!down && SdlButton.is button b))
    (hgranted : captureGranted (s, l) = none) : Moves s (s.setButton button down) l := by
  have hboard : ∀ (pressed : MouseButton) keyId,
      (s.host (.setMouseButton pressed down)).board.keyboard.holds keyId =
        s.board.keyboard.holds keyId := by
    intro pressed keyId
    rw [host_board, Board.act_keyboard]
    rfl
  have hbutton : ∀ pressed b : MouseButton,
      (s.host (.setMouseButton pressed down)).board.mouse.isPressed b =
        if pressed = b then down else s.board.mouse.isPressed b := by
    intro pressed b
    rw [host_board, Board.act_mouse]
    exact MouseState.isPressed_pressed pressed b down
  refine ⟨fun keyId => ?_, fun b => ?_, ?_⟩
  · rw [hkey, hend]
    cases button with
    | left => exact hboard _ keyId
    | right => exact hboard _ keyId
    | other => rfl
  · rw [hdown, hup]
    cases button with
    | left =>
      refine (hbutton _ b).trans ?_
      cases b <;> cases down <;> simp [SdlButton.is]
    | right =>
      refine (hbutton _ b).trans ?_
      cases b <;> cases down <;> simp [SdlButton.is]
    | other =>
      have hother : SdlButton.is .other b = false := by cases b <;> rfl
      rw [hother]
      simp [setButton]
  · rw [hgranted]
    cases button <;> rfl

/-- A key that is neither a repeat, F12, F4, nor the interface's. -/
theorem pressKey_moves {key : SdlKey} {answer : Bool} (hrepeat : key.isRepeat = false)
    (hf12 : key.isF12 = false) (hf4 : key.scancode ≠ scancodeF4) :
    Moves s (s.pressKey key) (.event (.keyDown key false answer)) := by
  have hpressed : keyPressed (s, .event (.keyDown key false answer)) =
      if (translateKey s.atKeyboard key).1.isSome then some key.scancode else none := by
    simp [keyPressed, hrepeat, hf12, hf4]
  have hends : ∀ keyId, endsKey keyId (s, .event (.keyDown key false answer)) =
      (keyPressed (s, .event (.keyDown key false answer))).any (· != keyId) := fun _ => rfl
  have hgranted : captureGranted (s, .event (.keyDown key false answer)) = none := by
    simp [captureGranted, hf12]
  have hdown : ∀ button, buttonDown button (s, .event (.keyDown key false answer)) = false :=
    fun _ => rfl
  have hup : ∀ button, buttonUp button (s, .event (.keyDown key false answer)) = false := by
    intro button
    simp [buttonUp, hgranted]
  unfold pressKey
  generalize translateKey s.atKeyboard key = result at hpressed ⊢
  obtain ⟨code, keyboard⟩ := result
  cases code with
  | none =>
    refine moves_same ⟨fun _ => rfl, rfl⟩ hpressed (fun keyId => ?_) hdown hup hgranted rfl
    rw [hends, hpressed]
    rfl
  | some code =>
    refine ⟨fun keyId => ?_, fun button => ?_, ?_⟩
    · rw [hends, hpressed]
      refine (congrArg (fun k => Keyboard.holds k keyId) (Board.act_keyboard s.board
        (.host (.keyboardKeyDown key.scancode code)))).trans ?_
      refine (Keyboard.holds_keyDown key.scancode code).trans ?_
      by_cases hkey : key.scancode = keyId <;> simp [hkey]
    · rw [hdown, hup]
      exact congrArg (fun m => MouseState.isPressed m button) (Board.act_mouse s.board
        (.host (.keyboardKeyDown key.scancode code)))
    · rw [hgranted]
      rfl

theorem toggle_moves {l : LoopStep} (hkey : keyPressed (s, l) = none)
    (hend : ∀ keyId, endsKey keyId (s, l) = false) (hdown : ∀ button, buttonDown button (s, l) = false)
    (hup : ∀ button, buttonUp button (s, l) = false) (hgranted : captureGranted (s, l) = none) :
    Moves s (s.act .togglePause) l :=
  moves_same ⟨fun _ => rfl, rfl⟩ hkey hend hdown hup hgranted rfl

theorem keyDown_moves (key : SdlKey) (wantCaptureKeyboard answer : Bool) :
    Moves s (s.handle (.keyDown key wantCaptureKeyboard answer))
      (.event (.keyDown key wantCaptureKeyboard answer)) := by
  simp only [handle]
  have hends : ∀ keyId, endsKey keyId (s, .event (.keyDown key wantCaptureKeyboard answer)) =
      (keyPressed (s, .event (.keyDown key wantCaptureKeyboard answer))).any (· != keyId) :=
    fun _ => rfl
  split
  next hrepeat =>
    have hkey : keyPressed (s, .event (.keyDown key wantCaptureKeyboard answer)) = none := by
      simp [keyPressed, hrepeat]
    have hgranted : captureGranted (s, .event (.keyDown key wantCaptureKeyboard answer)) = none := by
      simp [captureGranted, hrepeat]
    refine moves_same ⟨fun _ => rfl, rfl⟩ hkey (fun keyId => ?_) (fun _ => rfl) (fun button => ?_)
      hgranted rfl
    · rw [hends, hkey]
      rfl
    · simp [buttonUp, hgranted]
  next hrepeat =>
    split
    next hf12 =>
      have hkey : keyPressed (s, .event (.keyDown key wantCaptureKeyboard answer)) = none := by
        simp [keyPressed, hf12]
      refine moves_capture hkey (fun keyId => ?_) (fun _ => rfl) (fun button => ?_) ?_
      · rw [hends, hkey]
        rfl
      · simp [buttonUp]
      · simp [captureGranted, hrepeat, hf12]
    next hf12 =>
      have hgranted :
          captureGranted (s, .event (.keyDown key wantCaptureKeyboard answer)) = none := by
        simp [captureGranted, hf12]
      have hup : ∀ button,
          buttonUp button (s, .event (.keyDown key wantCaptureKeyboard answer)) = false := by
        intro button
        simp [buttonUp, hgranted]
      split
      next hwants =>
        have hkey : keyPressed (s, .event (.keyDown key wantCaptureKeyboard answer)) = none := by
          simp [keyPressed, hwants]
        refine moves_same ⟨fun _ => rfl, rfl⟩ hkey (fun keyId => ?_) (fun _ => rfl) hup hgranted rfl
        rw [hends, hkey]
        rfl
      next hwants =>
        split
        next hf4 =>
          have hkey : keyPressed (s, .event (.keyDown key wantCaptureKeyboard answer)) = none := by
            simp [keyPressed, hf4]
          refine toggle_moves hkey (fun keyId => ?_) (fun _ => rfl) hup hgranted
          rw [hends, hkey]
          rfl
        next hf4 =>
          rw [Bool.not_eq_true] at hrepeat hf12 hwants
          subst hwants
          exact pressKey_moves hrepeat hf12 hf4

theorem keyUp_moves (scancode : Nat) :
    Moves s (s.handle (.keyUp scancode)) (.event (.keyUp scancode)) := by
  have hboard : (s.handle (.keyUp scancode)).board =
      s.board.act (.host (.keyboardKeyUp scancode)) := by
    unfold handle
    dsimp only
    split <;> rfl
  refine ⟨fun keyId => ?_, fun button => ?_, ?_⟩
  · rw [hboard, Board.act_keyboard]
    exact Keyboard.holds_keyUp scancode
  · rw [hboard, Board.act_mouse]
    show _ = (false || (!(false || (s.mouseCaptured && false)) && _))
    rw [Bool.and_false]
    rfl
  · unfold handle
    dsimp only
    split <;> rfl

theorem motion_moves (x y : Int) :
    Moves s (s.handle (.mouseMotion x y)) (.event (.mouseMotion x y)) := by
  have hup : ∀ button, buttonUp button (s, .event (.mouseMotion x y)) = false := by
    intro button
    simp [buttonUp, captureGranted]
  simp only [handle]
  split
  · refine moves_same ⟨fun keyId => ?_, ?_⟩ rfl (fun _ => rfl) (fun _ => rfl) hup rfl rfl
    · rw [host_board, Board.act_keyboard]
      rfl
    · rw [host_board, Board.act_mouse]
      exact MouseState.advance_buttons _ 0
  · exact moves_same ⟨fun _ => rfl, rfl⟩ rfl (fun _ => rfl) (fun _ => rfl) hup rfl rfl

theorem buttonDown_moves (button : SdlButton) (answer : Bool) :
    Moves s (s.handle (.mouseButtonDown button answer)) (.event (.mouseButtonDown button answer)) := by
  simp only [handle]
  cases hcaptured : s.mouseCaptured with
  | true =>
    have hgranted : captureGranted (s, .event (.mouseButtonDown button answer)) = none := by
      simp [captureGranted, hcaptured]
    refine moves_button button true rfl (fun _ => rfl) (fun b => ?_) (fun b => ?_) hgranted
    · simp [buttonDown, hcaptured]
    · simp [buttonUp, hgranted]
  | false =>
    have hdown : ∀ b, buttonDown b (s, .event (.mouseButtonDown button answer)) = false := by
      intro b
      simp [buttonDown, hcaptured]
    have hup : ∀ b, buttonUp b (s, .event (.mouseButtonDown button answer)) = false := by
      intro b
      simp [buttonUp, hcaptured]
    simp only [Bool.not_false, if_true]
    split
    next hhovered =>
      refine moves_capture rfl (fun _ => rfl) hdown (fun b => ?_) ?_
      · simp [buttonUp]
      · simp [captureGranted, hcaptured, hhovered]
    next hhovered =>
      refine moves_same ⟨fun _ => rfl, rfl⟩ rfl (fun _ => rfl) hdown hup ?_ rfl
      simp [captureGranted, hhovered]

theorem buttonUp_moves (button : SdlButton) :
    Moves s (s.handle (.mouseButtonUp button)) (.event (.mouseButtonUp button)) := by
  simp only [handle]
  split
  next hcaptured =>
    refine moves_button button false rfl (fun _ => rfl) (fun b => ?_) (fun b => ?_) rfl
    · rfl
    · simp [buttonUp, captureGranted, hcaptured]
  next hcaptured =>
    refine moves_same ⟨fun _ => rfl, rfl⟩ rfl (fun _ => rfl) (fun _ => rfl) (fun b => ?_) rfl rfl
    simp [buttonUp, hcaptured]

theorem reset_moves (z : Z80 σ) : Moves s (s.step z .resetMachine) .resetMachine := by
  have hboard : (s.step z .resetMachine).board = s.board.act .reset := rfl
  have hup : ∀ button, buttonUp button (s, LoopStep.resetMachine) = false := by
    intro button
    simp [buttonUp, captureGranted]
  refine ⟨fun keyId => ?_, fun button => ?_, rfl⟩
  · rw [hboard, Board.act_keyboard]
    rfl
  · rw [hboard, Board.act_mouse, hup]
    rfl

/-- Every step of the loop. -/
theorem step_moves (z : Z80 σ) (l : LoopStep) : Moves s (s.step z l) l := by
  have hquiet : ∀ {l : LoopStep}, captureGranted (s, l) = none →
      (∀ button, buttonUp button (s, l) = (s.mouseCaptured && captureGranted (s, l) == some false)) →
      ∀ button, buttonUp button (s, l) = false := by
    intro l hgranted hup button
    simp [hup, hgranted]
  cases l with
  | event e =>
    cases e with
    | quit =>
      exact moves_same ⟨fun _ => rfl, rfl⟩ rfl (fun _ => rfl) (fun _ => rfl)
        (hquiet rfl fun _ => rfl) rfl rfl
    | keyDown key wantCaptureKeyboard answer => exact keyDown_moves key wantCaptureKeyboard answer
    | keyUp scancode => exact keyUp_moves scancode
    | mouseMotion x y => exact motion_moves x y
    | mouseButtonDown button answer => exact buttonDown_moves button answer
    | mouseButtonUp button => exact buttonUp_moves button
    | focusLost answer =>
      exact moves_capture rfl (fun _ => rfl) (fun _ => rfl) (fun _ => rfl) rfl
  | runCycles =>
    simp only [step]
    split
    · exact moves_same ⟨fun _ => rfl, rfl⟩ rfl (fun _ => rfl) (fun _ => rfl)
        (hquiet rfl fun _ => rfl) rfl rfl
    · exact moves_same (runCycles_inputs z s.machine cyclesPerFrame) rfl (fun _ => rfl)
        (fun _ => rfl) (hquiet rfl fun _ => rfl) rfl rfl
  | device op =>
    exact moves_same (host_same s op.property) rfl (fun _ => rfl) (fun _ => rfl)
      (hquiet rfl fun _ => rfl) rfl rfl
  | ui action =>
    exact moves_same (dialog_inputs s.toFrontend action.property) rfl (fun _ => rfl) (fun _ => rfl)
      (hquiet rfl fun _ => rfl) rfl rfl
  | resetMachine => exact reset_moves z
  | togglePause =>
    exact toggle_moves rfl (fun _ => rfl) (fun _ => rfl) (hquiet rfl fun _ => rfl) rfl
  | requestCapture capture answer =>
    exact moves_capture rfl (fun _ => rfl) (fun _ => rfl) (fun _ => rfl) rfl
  | hover screenHovered =>
    exact moves_same ⟨fun _ => rfl, rfl⟩ rfl (fun _ => rfl) (fun _ => rfl)
      (hquiet rfl fun _ => rfl) rfl rfl
  | requestQuit =>
    exact moves_same ⟨fun _ => rfl, rfl⟩ rfl (fun _ => rfl) (fun _ => rfl)
      (hquiet rfl fun _ => rfl) rfl rfl

theorem captured_history (z : Z80 σ) (s : MainLoop σ) (steps : List LoopStep) :
    (Run.run (step z) s steps).mouseCaptured =
      Run.last captureGranted s.mouseCaptured (Run.record (step z) s steps) :=
  Run.register_of_record (I := fun _ => True) (fun s : MainLoop σ => s.mouseCaptured) captureGranted
    (fun _ _ _ => trivial) (fun _ l _ => (step_moves z l).captured) trivial steps

/-- A mouse that is not captured has no button down. -/
def Free (s : MainLoop σ) : Prop :=
  s.mouseCaptured = false → ∀ button, s.board.mouse.isPressed button = false

/-- A click on the captured mouse asks for nothing else. -/
theorem buttonDown_captured {l : LoopStep} {button : MouseButton}
    (h : buttonDown button (s, l) = true) :
    s.mouseCaptured = true ∧ captureGranted (s, l) = none := by
  unfold buttonDown at h
  split at h
  next heq =>
    cases heq
    have hcaptured : s.mouseCaptured = true := (Bool.and_eq_true_iff.mp h).1
    exact ⟨hcaptured, by simp [captureGranted, hcaptured]⟩
  · cases h

theorem step_free (z : Z80 σ) (l : LoopStep) (h : s.Free) : (s.step z l).Free := by
  intro hfree button
  obtain ⟨-, hbuttons, hcaptured⟩ := @step_moves σ s z l
  rw [hcaptured] at hfree
  have hdown : buttonDown button (s, l) = false := by
    by_contra hpressed
    obtain ⟨hs, hgranted⟩ := buttonDown_captured (Bool.eq_true_of_not_eq_false hpressed)
    rw [hgranted, hs] at hfree
    cases hfree
  rw [hbuttons, hdown, Bool.false_or]
  cases hs : s.mouseCaptured with
  | false => rw [h hs button, Bool.and_false]
  | true =>
    have hreleased : captureGranted (s, l) = some false := by
      cases hgranted : captureGranted (s, l) with
      | none =>
        rw [hgranted, hs] at hfree
        cases hfree
      | some capture =>
        rw [hgranted] at hfree
        exact congrArg some hfree
    have hup : buttonUp button (s, l) = true := by simp [buttonUp, hs, hreleased]
    rw [hup]
    rfl

/-! ## Whole runs -/

variable {bootRom : List Byte} {arguments : List String} {answers : StartupAnswers}
  {frontend : Frontend}

/-- The machine holds a key exactly if it has been pressed since it was last released, since the last
reset, and since the last other key. -/
theorem held_keys (z : Z80 σ) (hstartup : startup bootRom arguments answers = .ok frontend)
    (steps : List LoopStep) (keyId : Nat) :
    (Run.run (step z) (enter z frontend) steps).board.keyboard.holds keyId = true ↔
      Run.Since (fun entry => keyPressed entry = some keyId) (fun entry => endsKey keyId entry = true)
        (Run.record (step z) (enter z frontend) steps) := by
  refine Run.clear_flag_of_record (I := fun _ => True)
    (fun s : MainLoop σ => s.board.keyboard.holds keyId = true) (fun _ _ _ => trivial)
    (fun s l _ => ?_) trivial ?_ steps
  · rw [(step_moves z l).keys keyId]
    simp
  · exact Bool.eq_false_iff.mp ((startup_released hstartup).keys keyId)

/-- A key stays down while the machine runs and another key goes up. -/
theorem held_keys_running :
    let z : Z80 Unit := { power := (), instantReset := id, run := fun _ => .done 255 () }
    ∃ frontend, startup [] [] { window := true } = .ok frontend ∧
      (Run.run (step z) (enter z frontend) [.event (.keyDown { scancode := 4 } false false), .runCycles,
        .event (.keyUp 5)]).board.keyboard.holds 4 = true := by
  intro z
  have hheld : ∀ frontend, startup [] [] { window := true } = .ok frontend →
      (Run.run (step z) (enter z frontend) [.event (.keyDown { scancode := 4 } false false), .runCycles,
        .event (.keyUp 5)]).board.keyboard.holds 4 = true := by
    intro frontend hstartup
    refine (held_keys z hstartup _ 4).mpr ⟨[], _, [_, _], rfl, ?_, ?_⟩
    · have hcode : (translateKey (enter z frontend).atKeyboard { scancode := 4 }).1.isSome = true := by
        rw [show (enter z frontend).atKeyboard = {} from rfl]
        decide +kernel
      simp [keyPressed, hcode, scancodeF4]
    · simp [endsKey, keyPressed]
  exact ⟨_, rfl, hheld _ rfl⟩

/-- The mouse is captured as was last asked and granted. While it is not, no button of the machine's
mouse is down; a button is down exactly if it has been pressed on the captured mouse since it was last
released, and since the mouse was. -/
theorem pressed_buttons (z : Z80 σ) (hstartup : startup bootRom arguments answers = .ok frontend)
    (steps : List LoopStep) :
    let s := Run.run (step z) (enter z frontend) steps
    let history := Run.record (step z) (enter z frontend) steps
    s.mouseCaptured = Run.last captureGranted false history ∧
      (s.mouseCaptured = false → ∀ button, s.board.mouse.isPressed button = false) ∧
      ∀ button, s.board.mouse.isPressed button = true ↔
        Run.Since (fun entry => buttonDown button entry = true)
          (fun entry => buttonUp button entry = true) history := by
  intro s history
  have hreleased := (startup_released hstartup).buttons
  have hfree : (enter z frontend).Free := fun _ => hreleased
  refine ⟨captured_history z _ steps, ?_, fun button => ?_⟩
  · exact Run.run_invariant (I := Free) (fun _ l h => step_free z l h) hfree steps
  · refine Run.clear_flag_of_record (I := fun _ => True)
      (fun s : MainLoop σ => s.board.mouse.isPressed button = true) (fun _ _ _ => trivial)
      (fun s l _ => ?_) trivial ?_ steps
    · rw [(step_moves z l).buttons button]
      simp
    · exact Bool.eq_false_iff.mp (hreleased button)

/-- The first click captures the mouse, the second is one of its button, and goes up as the window loses
the focus. -/
theorem pressed_buttons_clicked :
    let z : Z80 Unit := { power := (), instantReset := id, run := fun _ => .done 255 () }
    let clicks : List LoopStep := [.hover true, .event (.mouseButtonDown .left true),
      .event (.mouseButtonDown .left true)]
    ∃ frontend, startup [] [] { window := true } = .ok frontend ∧
      (Run.run (step z) (enter z frontend) clicks).board.mouse.isPressed .button1 = true ∧
      (Run.run (step z) (enter z frontend) (clicks ++ [.event (.focusLost true)])).board.mouse.isPressed
        .button1 = false := by
  intro z clicks
  have hclicked : ∀ frontend, startup [] [] { window := true } = .ok frontend →
      (Run.run (step z) (enter z frontend) clicks).board.mouse.isPressed .button1 = true ∧
        (Run.run (step z) (enter z frontend) (clicks ++ [.event (.focusLost true)])).board.mouse.isPressed
          .button1 = false := by
    intro frontend hstartup
    refine ⟨((pressed_buttons z hstartup clicks).2.2 .button1).mpr ⟨[_, _], _, [], rfl, rfl, ?_⟩, ?_⟩
    · exact fun entry hentry => absurd hentry List.not_mem_nil
    · exact (pressed_buttons z hstartup _).2.1 rfl .button1
  exact ⟨_, rfl, hclicked _ rfl⟩

end MainLoop
end FK1
