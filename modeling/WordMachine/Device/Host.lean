import WordMachine.Device.Peripherals
import WordMachine.Machine.Basic

/-!
# The host's side of the devices

The host presses keys, delivers packets and collects the packets that were sent.  It does so with
ordinary stores, so the devices see them like those of the program.  Both rings move on before the
store, and stay moved when it fails.
-/

namespace WordMachine

/-- Why an operation of the host fails. -/
inductive DeviceFault
  | memory (fault : MemoryFault)
  /-- A packet comes from hub zero, which is nobody. -/
  | invalidSender
  deriving DecidableEq

def DeviceFault.message : DeviceFault → String
  | memory fault => "memory error: " ++ fault.message
  | invalidSender => "sender id 0 is not a valid hub id"

namespace Bus

variable {σ : Type} [Hosted σ]

def devices (bus : Bus σ) : Peripherals :=
  Hosted.devices bus.watcher

def onDevices (f : Peripherals → Peripherals) : Bus σ → Bus σ
  | ⟨memory, watcher⟩ => ⟨memory, Hosted.onDevices f watcher⟩

def onNetwork (f : NetworkCard → NetworkCard) : Bus σ → Bus σ :=
  onDevices fun devices => { devices with network := f devices.network }

/-- Puts a key code into the next slot of the keyboard ring. -/
def pressKey (key : Word) : EStateM DeviceFault (Bus σ) Unit := fun bus =>
  let slot := bus.devices.keyboard.slot
  let bus := bus.onDevices fun devices => { devices with keyboard := devices.keyboard.advance }
  EStateM.adaptExcept DeviceFault.memory (write slot.toNat key.toNat) bus

/-- Puts a packet into the next pair of the inbound ring. -/
def receive (packet : Packet) : EStateM DeviceFault (Bus σ) Unit := fun bus =>
  if packet.peer = 0 then
    .error .invalidSender bus
  else
    let slot := bus.devices.network.inboundSlot
    let deliver : EStateM MemoryFault (Bus σ) Unit := do
      write slot.toNat packet.peer.toNat
      write (slot.toNat + 1) packet.data.toNat
      modify (announce (.delivered packet.peer packet.data slot))
    EStateM.adaptExcept DeviceFault.memory deliver (bus.onNetwork NetworkCard.advanceInbound)

/-- Zeroes the pair with its data word at an address. -/
def zeroPair (data : Word) : EStateM MemoryFault (Bus σ) Unit := do
  write (data.toNat - 1) 0
  write data.toNat 0

/-- Zeroes pairs in turn.  When one fails, it and those after it are marked again. -/
def zeroPairs : List Word → EStateM MemoryFault (Bus σ) Unit
  | [] => pure ()
  | data :: rest => fun bus =>
    match zeroPair data bus with
    | .ok _ bus => zeroPairs rest bus
    | .error fault bus => .error fault (bus.onNetwork (·.requeue (data :: rest)))

/-- Collects the packets that were sent and zeroes their pairs.  When a pair cannot be zeroed, the
packets stay in the outbox. -/
def drain : EStateM DeviceFault (Bus σ) (List Packet) := fun bus =>
  let marked := bus.devices.network.unzeroed.toList
  match zeroPairs marked (bus.onNetwork (·.takeUnzeroed.2)) with
  | .ok _ bus => .ok bus.devices.network.outbox (bus.onNetwork (·.takeOutbox.2))
  | .error fault bus => .error (.memory fault) bus

end Bus

namespace Machine

variable {σ : Type} [Hosted σ]

def devices (m : Machine σ) : Peripherals :=
  m.bus.devices

def onDevices (f : Peripherals → Peripherals) : Machine σ → Machine σ :=
  onWatcher (Hosted.onDevices f)

def pressKey (key : Word) : EStateM DeviceFault (Machine σ) Unit :=
  onBus (Bus.pressKey key)

def receive (packet : Packet) : EStateM DeviceFault (Machine σ) Unit :=
  onBus (Bus.receive packet)

def drain : EStateM DeviceFault (Machine σ) (List Packet) :=
  onBus Bus.drain

/-- Resets machine and devices and loads a program. -/
def restart (program : List Word) : EStateM MemoryFault (Machine σ) Unit := fun m =>
  load program (m.reset.onDevices Peripherals.reset)

end Machine

end WordMachine
