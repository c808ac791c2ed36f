import FK1.Ppi8255

/-!
# FK1.Keyboard

The keyboard of `keyboard.cpp`: the held key and its autorepeat timer.
-/

namespace FK1

structure Keyboard where
  ticksUntilRepeat : Nat := 6000000
  heldKeyId : Nat := 0
  heldCode : Byte := 0#8
  keyHeld : Bool := false
  deriving DecidableEq, Repr

namespace Keyboard

def repeatDelayTicks : Nat := 6000000

def repeatIntervalTicks : Nat := 3000000

def reset (_ : Keyboard) : Keyboard := {}

def keyDown (k : Keyboard) (keyId : Nat) (code : Byte) : Option Byte × Keyboard :=
  if k.keyHeld ∧ k.heldKeyId = keyId then (none, k)
  else
    (some code,
      { heldKeyId := keyId, heldCode := code, ticksUntilRepeat := repeatDelayTicks, keyHeld := true })

def keyUp (k : Keyboard) (keyId : Nat) : Keyboard :=
  if k.keyHeld ∧ k.heldKeyId = keyId then
    { k with keyHeld := false, ticksUntilRepeat := repeatDelayTicks }
  else k

/-- The number of repeats that fall into `masterTicks`, and the keyboard after them. -/
def advance (k : Keyboard) (masterTicks : Nat) : Nat × Keyboard :=
  if !k.keyHeld || masterTicks < k.ticksUntilRepeat then
    (0, if k.keyHeld then { k with ticksUntilRepeat := k.ticksUntilRepeat - masterTicks } else k)
  else
    let masterTicks := masterTicks - k.ticksUntilRepeat
    (1 + masterTicks / repeatIntervalTicks,
      { k with ticksUntilRepeat := repeatIntervalTicks - masterTicks % repeatIntervalTicks })

def repeatCode (k : Keyboard) : Byte := k.heldCode

end Keyboard
end FK1
