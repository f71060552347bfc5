import WordMachine.Device.Display
import WordMachine.Device.Keyboard
import WordMachine.Device.NetworkCard
import WordMachine.Event

/-!
# Peripherals

The devices of a machine, which watch its memory.  A store is passed on to the display and to the
network card, and marks the row of eight words that it falls into as touched.
-/

namespace WordMachine

structure Peripherals where
  display : Display
  keyboard : Keyboard
  network : NetworkCard
  /-- Whether the row of eight words with a given number has been stored to. -/
  touched : Vector Bool 8192
  deriving DecidableEq

namespace Peripherals

/-- The devices of a machine known as `hub`, at power-on. -/
def powerOn (hub : Word) : Peripherals where
  display := Display.powerOn
  keyboard := Keyboard.powerOn
  network := NetworkCard.powerOn hub
  touched := Vector.replicate 8192 false

/-- The number of the row that an address falls into. -/
def rowOf (address : Word) : Fin 8192 :=
  ⟨address.toNat / 8, by have := address.toNat_lt; omega⟩

/-- The address of the first word of a row. -/
def rowStart (row : Nat) : Word :=
  UInt16.ofNat (8 * row)

/-- Marks the row of an address as touched. -/
def touch (touched : Vector Bool 8192) (address : Word) : Vector Bool 8192 :=
  if touched.get (rowOf address) then touched else touched.set (rowOf address) true

def onWrite (address value : Word) : Peripherals → Peripherals
  | ⟨display, keyboard, network, touched⟩ =>
    ⟨display.onWrite address value, keyboard, network.onWrite address value,
      touch touched address⟩

/-- The addresses of the first words of the rows selected by a test on row numbers, in ascending
order. -/
def rowsWhere (p : Fin 8192 → Bool) : List Word :=
  ((List.finRange 8192).filter p).map fun row => rowStart row.val

/-- The addresses of the first words of the touched rows, in ascending order. -/
def touchedRows (devices : Peripherals) : List Word :=
  rowsWhere devices.touched.get

/-- Returns every device to power-on, except that the display counts as drawn to. -/
def reset (devices : Peripherals) : Peripherals :=
  { powerOn devices.network.hub with display := devices.display.clear }

end Peripherals

instance : Watcher Peripherals where
  observe
    | .wrote address value => Peripherals.onWrite address value
    | _ => id

/-- A watcher that contains a set of devices. -/
class Hosted (σ : Type) extends Watcher σ where
  devices : σ → Peripherals
  onDevices : (Peripherals → Peripherals) → σ → σ

instance : Hosted Peripherals where
  devices := id
  onDevices f := f

end WordMachine
