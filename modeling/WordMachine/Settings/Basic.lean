import WordMachine.Device.Host
import WordMachine.Runner

/-!
# Settings

How a machine is built and run.  Settings come in layers: the defaults, those of a settings text,
and those given for one invocation, each of which may leave fields open.
-/

namespace WordMachine

/-- How a machine is built and run. -/
structure Settings where
  /-- Words of memory; a machine has at most a full address space. -/
  memoryWords : Nat := addressSpace
  /-- Instructions in a batch of a continuous run. -/
  batchSize : Nat := 1000
  /-- The pause between batches in milliseconds. -/
  tick : Nat := 1
  /-- The hub by which the machine is known on the network. -/
  hub : Nat := 1
  deriving DecidableEq

/-- Settings of which each may be left open. -/
structure Overrides where
  memoryWords : Option Nat := none
  batchSize : Option Nat := none
  tick : Option Nat := none
  hub : Option Nat := none
  deriving DecidableEq

/-- The settings by name. -/
inductive SettingField
  | memoryWords | batchSize | tick | hub
  deriving DecidableEq

namespace SettingField

/-- The fields in the order of a positional settings text. -/
def all : List SettingField :=
  [memoryWords, batchSize, tick, hub]

def name : SettingField → String
  | memoryWords => "memory_words"
  | batchSize => "batch_size"
  | tick => "tick_ms"
  | hub => "hub_id"

/-- The least number that is too large for the field. -/
def limit : SettingField → Nat
  | hub => UInt16.size
  | _ => UInt64.size

/-- The field with a given name. -/
def ofName? (text : String) : Option SettingField :=
  all.find? (·.name == text)

end SettingField

namespace Overrides

def get? (overrides : Overrides) : SettingField → Option Nat
  | .memoryWords => overrides.memoryWords
  | .batchSize => overrides.batchSize
  | .tick => overrides.tick
  | .hub => overrides.hub

def set (overrides : Overrides) (field : SettingField) (value : Nat) : Overrides :=
  match field with
  | .memoryWords => { overrides with memoryWords := some value }
  | .batchSize => { overrides with batchSize := some value }
  | .tick => { overrides with tick := some value }
  | .hub => { overrides with hub := some value }

/-- Gives an open field a value that is within the limit of the field. -/
def set? (overrides : Overrides) (field : SettingField) (value : Nat) : Option Overrides :=
  if (overrides.get? field).isSome then none
  else if value < field.limit then some (overrides.set field value)
  else none

end Overrides

namespace Settings

/-- Puts a layer of settings over these. -/
def override (settings : Settings) (overrides : Overrides) : Settings where
  memoryWords := overrides.memoryWords.getD settings.memoryWords
  batchSize := overrides.batchSize.getD settings.batchSize
  tick := overrides.tick.getD settings.tick
  hub := overrides.hub.getD settings.hub

/-- How continuous runs are divided.  A batch has at least one instruction. -/
def runSettings (settings : Settings) : RunSettings where
  batchSize := max settings.batchSize 1
  tick := settings.tick

def devices (settings : Settings) : Peripherals :=
  Peripherals.powerOn (UInt16.ofNat settings.hub)

/-- The machine that the settings describe. -/
def build (settings : Settings) : Machine Peripherals :=
  Machine.powerOn settings.memoryWords settings.devices

end Settings

end WordMachine
