import WordMachine.Word

/-!
# The keyboard ring

Key codes go to sixteen consecutive words in turn, starting again at the first after the last.  The
keyboard holds only its place in the ring; the program that runs on the machine reads the keys from
memory.
-/

namespace WordMachine

/-- The keyboard: the slot for the next key. -/
structure Keyboard where
  index : Fin 16
  deriving DecidableEq

namespace Keyboard

def powerOn : Keyboard where
  index := 0

def start : Word := 0x9000

/-- The address of the slot for the next key. -/
def slot (keyboard : Keyboard) : Word :=
  start + UInt16.ofNat keyboard.index

def advance (keyboard : Keyboard) : Keyboard where
  index := keyboard.index + 1

end Keyboard

end WordMachine
