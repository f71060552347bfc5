import WordMachine.Event

/-!
# The memory bus

Memory together with its watcher.  Every access through the bus that succeeds is told to the
watcher; one that fails changes nothing and is not told.  Looking at memory directly, and clearing
it, is silent.
-/

namespace WordMachine

/-- Memory and whoever watches it. -/
structure Bus (σ : Type) where
  memory : Memory
  watcher : σ

namespace Bus

variable {σ : Type} [Watcher σ]

def announce (event : Event) : Bus σ → Bus σ
  | ⟨memory, watcher⟩ => ⟨memory, Watcher.observe event watcher⟩

def read (address : Nat) : EStateM MemoryFault (Bus σ) Word
  | ⟨memory, watcher⟩ =>
    match memory.get? address with
    | some value =>
      .ok value ⟨memory, Watcher.observe (.read (UInt16.ofNat address) value) watcher⟩
    | none => .error (.outOfRange address memory.capacity) ⟨memory, watcher⟩

/-- Stores a word.  That the value fits is checked before the address. -/
def write (address value : Nat) : EStateM MemoryFault (Bus σ) Unit
  | ⟨memory, watcher⟩ =>
    if addressSpace ≤ value then
      .error (.valueTooLarge address value) ⟨memory, watcher⟩
    else if h : address < memory.capacity then
      let word := UInt16.ofNat value
      .ok () ⟨memory.set address word h,
        Watcher.observe (.wrote (UInt16.ofNat address) word) watcher⟩
    else
      .error (.outOfRange address memory.capacity) ⟨memory, watcher⟩

/-- Stores words at consecutive addresses, up to the first that fails. -/
def writeAll (address : Nat) : List Word → EStateM MemoryFault (Bus σ) Unit
  | [] => pure ()
  | word :: words => do
    write address word.toNat
    writeAll (address + 1) words

/-- Stores one value at `count` consecutive addresses, up to the first that fails. -/
def fill (address value : Nat) : Nat → EStateM MemoryFault (Bus σ) Unit
  | 0 => pure ()
  | count + 1 => do
    write address value
    fill (address + 1) value count

/-- Stores a program from address zero on.  A program that does not fit is refused as a whole. -/
def load (program : List Word) : EStateM MemoryFault (Bus σ) Unit := fun bus =>
  if bus.memory.capacity < program.length then
    .error (.outOfRange (program.length - 1) bus.memory.capacity) bus
  else
    writeAll 0 program bus

/-- Zeroes memory without telling the watcher. -/
def clear : Bus σ → Bus σ
  | ⟨memory, watcher⟩ => ⟨memory.clear, watcher⟩

end Bus

end WordMachine
