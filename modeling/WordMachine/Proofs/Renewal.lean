import WordMachine.Embedded
import WordMachine.Proofs.Tally

/-!
# A reset erases history

A reset blanks the machine and its devices and loads the program again.  What comes of it is the
machine that would have been built anew, except that the display counts as drawn to: `restart_eq`
says so of every machine, and nothing but the program, the capacity and the hub is left in the
answer.  A debugger keeps its own settings over a reset, namely the batch size and the two flags of
its user, and these are all that can tell two of them apart afterwards.
-/

namespace WordMachine

namespace Peripherals

/-- The devices, with the display counted as drawn to. -/
def drawn (devices : Peripherals) : Peripherals :=
  { devices with display := { devices.display with dirty := true } }

/-- A store does the same to the devices whether the display counts as drawn to or not. -/
theorem respects_drawn : Watcher.Respects drawn := by
  intro event devices
  cases event with
  | wrote address value =>
    obtain ⟨⟨cells, dirty⟩, keyboard, network, touched⟩ := devices
    change drawn (onWrite address value _) = onWrite address value (drawn _)
    simp only [onWrite, drawn, Display.onWrite]
    cases Display.offset? address <;> rfl
  | _ => rfl

end Peripherals

namespace Machine

/-- What comes of building a machine and loading a program. -/
def build (program : List Word) (capacity : Nat) (hub : Word) :
    EStateM.Result MemoryFault (Machine Peripherals) Unit :=
  load program (powerOn capacity (Peripherals.powerOn hub))

/-- The machine with its display counted as drawn to. -/
def drawn (m : Machine Peripherals) : Machine Peripherals :=
  m.onDevices Peripherals.drawn

theorem restart_eq (program : List Word) (m : Machine Peripherals) :
    restart program m =
      mapState drawn (build program m.memory.capacity m.devices.network.hub) := by
  let blank : Machine Peripherals :=
    powerOn m.memory.capacity (Peripherals.powerOn m.devices.network.hub)
  have hblank : m.reset.onDevices Peripherals.reset = blank.mapWatcher Peripherals.drawn := rfl
  have htracks := tracks_onBus (Bus.tracks_load Peripherals.respects_drawn program) blank
  rw [restart, hblank]
  exact htracks

theorem build_of_fits
    {program : List Word} {capacity : Nat} (hub : Word) (hcapacity : capacity ≤ addressSpace)
    (h : program.length ≤ capacity) : ∃ m, build program capacity hub = .ok () m := by
  let blank : Bus Peripherals := ⟨.blank capacity, Peripherals.powerOn hub⟩
  have hfits : program.length ≤ (Memory.blank capacity).capacity := by
    rw [Memory.capacity_blank, Nat.min_eq_left hcapacity]
    exact h
  have hload : Bus.load program ⟨.blank capacity, Peripherals.powerOn hub⟩ = .ok () _ :=
    blank.load_of_fits hfits
  refine ⟨{ bus := blank.commitAll (Bus.layout 0 program) }, ?_⟩
  simp only [build, load, powerOn, onBus, hload]

theorem build_of_long
    {program : List Word} {capacity : Nat} (hub : Word) (h : capacity < program.length) :
    (finalState (build program capacity hub)).memory = .blank capacity := by
  let blank : Bus Peripherals := ⟨.blank capacity, Peripherals.powerOn hub⟩
  have hlong : (Memory.blank capacity).capacity < program.length := by
    rw [Memory.capacity_blank]
    exact Nat.lt_of_le_of_lt (Nat.min_le_left _ _) h
  have hload : Bus.load program ⟨.blank capacity, Peripherals.powerOn hub⟩ = .error _ blank :=
    blank.load_of_long hlong
  simp only [build, load, powerOn, onBus, hload]
  rfl

end Machine

namespace Debugger

variable {σ : Type} [Hosted σ]

/-- The debugger without the flags of its user and without its last text. -/
def bare (debugger : Debugger σ) : Debugger σ :=
  { debugger with capture := false, quit := false, status := "" }

theorem bare_deliver (debugger : Debugger σ) :
    debugger.deliver.bare = debugger.bare.deliver.bare := by
  have hmachine : debugger.bare.machine = debugger.machine := rfl
  simp only [deliver, onMachine_eq, hmachine]
  cases Machine.drain debugger.machine <;> rfl

theorem bare_deliver_congr
    {debugger debugger' : Debugger σ} (h : debugger.bare = debugger'.bare) :
    debugger.deliver.bare = debugger'.deliver.bare := by
  rw [bare_deliver, h, ← bare_deliver]

/-- Neither the flags of the user nor the last text have a say in what comes of a command. -/
theorem bare_perform (command : Command) (debugger : Debugger σ) :
    (command.perform debugger).bare = (command.perform debugger.bare).bare := by
  have hmachine : debugger.bare.machine = debugger.machine := rfl
  cases command with
  | step =>
    simp only [Command.perform, step, onMachine_eq, hmachine]
    cases debugger.machine.step with
    | ok instruction m => exact bare_deliver_congr rfl
    | error fault m => exact bare_deliver_congr rfl
  | tick =>
    have hbare : debugger.bare.running = debugger.running := rfl
    by_cases hrunning : debugger.running = true
    · simp only [Command.perform, tick, onMachine_eq, hmachine, hbare, if_pos hrunning]
      have hbatch : debugger.bare.batchSize = debugger.batchSize := rfl
      rw [hbatch]
      cases debugger.machine.run debugger.batchSize with
      | ok count m => exact bare_deliver_congr rfl
      | error fault m => exact bare_deliver_congr rfl
    · simp only [Command.perform, tick, hbare, if_neg hrunning]
      rfl
  | pressKey key =>
    simp only [Command.perform, pressKey, onMachine_eq, hmachine]
    cases debugger.machine.pressKey key <;> rfl
  | reset =>
    have hprogram : debugger.bare.program = debugger.program := rfl
    simp only [Command.perform, reset, onMachine_eq, hmachine, hprogram]
    cases debugger.machine.restart debugger.program <;> rfl
  | deliver => exact bare_deliver debugger
  | toggleCapture =>
    simp only [Command.perform, toggleCapture]
    split <;> rfl
  | run | pause | scroll rows => rfl

/-- The debugger after a list of commands. -/
def performAll (debugger : Debugger σ) (commands : List Command) : Debugger σ :=
  commands.foldl (fun debugger command => command.perform debugger) debugger

theorem bare_performAll_congr
    {debugger debugger' : Debugger σ} (h : debugger.bare = debugger'.bare)
    (commands : List Command) :
    (debugger.performAll commands).bare = (debugger'.performAll commands).bare := by
  induction commands generalizing debugger debugger' with
  | nil => exact h
  | cons command commands ih =>
    apply ih
    rw [bare_perform, h, ← bare_perform]

/-- The debugger with other flags of its user. -/
def flagged (capture quit : Bool) (debugger : Debugger σ) : Debugger σ :=
  { debugger with capture, quit }

theorem deliver_flagged (capture quit : Bool) (debugger : Debugger σ) :
    (debugger.flagged capture quit).deliver = debugger.deliver.flagged capture quit := by
  have hmachine : (debugger.flagged capture quit).machine = debugger.machine := rfl
  simp only [deliver, onMachine_eq, hmachine]
  cases Machine.drain debugger.machine <;> rfl

theorem deliver_flagged_congr {capture quit : Bool} {debugger debugger' : Debugger σ}
    (h : debugger' = debugger.flagged capture quit) :
    debugger'.deliver = debugger.deliver.flagged capture quit := by
  rw [h, deliver_flagged]

/-- Only giving the keys to the machine or taking them back has to do with the flags of the user. -/
theorem perform_flagged {command : Command} (hcommand : command ≠ .toggleCapture)
    (capture quit : Bool) (debugger : Debugger σ) :
    command.perform (debugger.flagged capture quit) =
      (command.perform debugger).flagged capture quit := by
  have hmachine : (debugger.flagged capture quit).machine = debugger.machine := rfl
  cases command with
  | step =>
    simp only [Command.perform, step, onMachine_eq, hmachine]
    cases debugger.machine.step with
    | ok instruction m => exact deliver_flagged_congr rfl
    | error fault m => exact deliver_flagged_congr rfl
  | tick =>
    have hrunning : (debugger.flagged capture quit).running = debugger.running := rfl
    have hbatch : (debugger.flagged capture quit).batchSize = debugger.batchSize := rfl
    simp only [Command.perform, tick, onMachine_eq, hmachine, hrunning, hbatch]
    split
    · cases debugger.machine.run debugger.batchSize with
      | ok count m => exact deliver_flagged_congr rfl
      | error fault m => exact deliver_flagged_congr rfl
    · rfl
  | pressKey key =>
    simp only [Command.perform, pressKey, onMachine_eq, hmachine]
    cases debugger.machine.pressKey key <;> rfl
  | reset =>
    have hprogram : (debugger.flagged capture quit).program = debugger.program := rfl
    simp only [Command.perform, reset, onMachine_eq, hmachine, hprogram]
    cases debugger.machine.restart debugger.program <;> rfl
  | deliver => exact deliver_flagged capture quit debugger
  | toggleCapture => contradiction
  | run | pause | scroll rows => rfl

theorem performAll_flagged {commands : List Command} (hcommands : Command.toggleCapture ∉ commands)
    (capture quit : Bool) (debugger : Debugger σ) :
    (debugger.flagged capture quit).performAll commands =
      (debugger.performAll commands).flagged capture quit := by
  induction commands generalizing debugger with
  | nil => rfl
  | cons command commands ih =>
    have hcommand : command ≠ .toggleCapture :=
      fun heq => hcommands (heq ▸ List.mem_cons_self)
    have hrest : Command.toggleCapture ∉ commands :=
      fun hmem => hcommands (List.mem_cons_of_mem command hmem)
    change (command.perform (debugger.flagged capture quit)).performAll commands = _
    rw [perform_flagged hcommand, ih hrest]
    rfl

/-- A reset leaves of a debugger its batch size and the flags of its user. -/
theorem reset_eq_of_same
    {debugger debugger' : Debugger Peripherals} (hprogram : debugger'.program = debugger.program)
    (hcapacity : debugger'.machine.memory.capacity = debugger.machine.memory.capacity)
    (hhub : debugger'.machine.devices.network.hub = debugger.machine.devices.network.hub) :
    debugger'.reset =
      { debugger.reset with
        batchSize := debugger'.batchSize
        capture := debugger'.capture
        quit := debugger'.quit } := by
  have hrestart : debugger'.machine.restart debugger.program =
      debugger.machine.restart debugger.program := by
    rw [Machine.restart_eq, Machine.restart_eq, hcapacity, hhub]
  simp only [reset, onMachine_eq, hprogram, hrestart]
  cases debugger.machine.restart debugger.program <;> rfl

theorem machine_reset (debugger : Debugger Peripherals) :
    debugger.reset.machine =
      (finalState (Machine.build debugger.program debugger.machine.memory.capacity
        debugger.machine.devices.network.hub)).drawn := by
  rw [debugger.reset_worked.machine, Machine.restart_eq, finalState_mapState]

end Debugger

namespace Embedded

theorem reset_eq (embedded : Embedded Peripherals) :
    embedded.reset =
      match Machine.build embedded.program embedded.machine.memory.capacity
        embedded.machine.devices.network.hub with
      | .ok _ m => .ok () { embedded with machine := m.drawn }
      | .error fault m => .error (.memory fault) { embedded with machine := m.drawn } := by
  simp only [reset, onMachine, Machine.restart_eq]
  cases Machine.build embedded.program embedded.machine.memory.capacity
    embedded.machine.devices.network.hub <;> rfl

theorem finalState_reset (embedded : Embedded Peripherals) :
    finalState embedded.reset =
      ⟨(finalState (Machine.build embedded.program embedded.machine.memory.capacity
        embedded.machine.devices.network.hub)).drawn, embedded.program⟩ := by
  rw [reset_eq]
  cases Machine.build embedded.program embedded.machine.memory.capacity
    embedded.machine.devices.network.hub <;> rfl

/-- A listing that can be read and that fits is loaded into a machine built anew. -/
theorem loadListing_of_fits
    {text : String} {listing : Listing} (htext : Listing.ofString text = .ok listing)
    {embedded : Embedded Peripherals}
    (hfits : listing.words.length ≤ embedded.machine.memory.capacity) :
    ∃ m, Machine.build listing.words embedded.machine.memory.capacity
        embedded.machine.devices.network.hub = .ok () m ∧
      embedded.loadListing text = .ok listing.words.length ⟨m.drawn, listing.words⟩ := by
  obtain ⟨m, hm⟩ := Machine.build_of_fits embedded.machine.devices.network.hub
    embedded.machine.memory.capacity_le hfits
  have hreset : reset { embedded with program := listing.words } =
      .ok () ⟨m.drawn, listing.words⟩ := by
    rw [reset_eq, hm]
  refine ⟨m, hm, ?_⟩
  rw [loadListing, htext]
  exact bind_of_ok hreset

theorem loadListing_of_error
    {text : String} {fault : ListingFault} (htext : Listing.ofString text = .error fault)
    (embedded : Embedded Peripherals) :
    embedded.loadListing text = .error (.listing fault) embedded := by
  rw [loadListing, htext]

end Embedded

/-- What a reset leaves depends on the program, the capacity and the hub alone: it is the machine
that would be built anew, with the display counted as drawn to, and blank if the program does not
fit.  Two embedded machines cannot be told apart afterwards, and a listing that is loaded leaves the
same machine whatever came before; one that cannot be read leaves everything as it is.  Two
debuggers that execute batches of the same size have the same machine after every later list of
commands, and show the same text unless the list gives the keys to the machine or takes them back;
they are the same if the flags of their users are. -/
theorem reset_forgets :
    (∀ debugger debugger' : Debugger Peripherals, debugger'.program = debugger.program →
      debugger'.machine.memory.capacity = debugger.machine.memory.capacity →
      debugger'.machine.devices.network.hub = debugger.machine.devices.network.hub →
      let capacity := debugger.machine.memory.capacity
      let hub := debugger.machine.devices.network.hub
      debugger'.reset.machine = debugger.reset.machine ∧
      debugger.reset.machine = (finalState (Machine.build debugger.program capacity hub)).drawn ∧
      (capacity < debugger.program.length → debugger.reset.machine.memory = .blank capacity) ∧
      (debugger'.batchSize = debugger.batchSize →
        (∀ commands,
          (debugger'.reset.performAll commands).bare =
            (debugger.reset.performAll commands).bare) ∧
        (∀ commands, Command.toggleCapture ∉ commands →
          debugger'.reset.performAll commands =
            { debugger.reset.performAll commands with
              capture := debugger'.capture, quit := debugger'.quit }) ∧
        (debugger'.capture = debugger.capture → debugger'.quit = debugger.quit →
          debugger'.reset = debugger.reset))) ∧
    (∀ embedded embedded' : Embedded Peripherals, embedded'.program = embedded.program →
      embedded'.machine.memory.capacity = embedded.machine.memory.capacity →
      embedded'.machine.devices.network.hub = embedded.machine.devices.network.hub →
      let capacity := embedded.machine.memory.capacity
      let hub := embedded.machine.devices.network.hub
      embedded'.reset = embedded.reset ∧
      finalState embedded.reset =
        ⟨(finalState (Machine.build embedded.program capacity hub)).drawn, embedded.program⟩ ∧
      (capacity < embedded.program.length →
        (finalState embedded.reset).machine.memory = .blank capacity)) ∧
    (∀ text listing, Listing.ofString text = .ok listing →
      ∀ embedded : Embedded Peripherals,
        listing.words.length ≤ embedded.machine.memory.capacity →
        ∃ m, Machine.build listing.words embedded.machine.memory.capacity
            embedded.machine.devices.network.hub = .ok () m ∧
          embedded.loadListing text = .ok listing.words.length ⟨m.drawn, listing.words⟩) ∧
    ∀ text fault, Listing.ofString text = .error fault → ∀ embedded : Embedded Peripherals,
      embedded.loadListing text = .error (.listing fault) embedded := by
  refine ⟨?_, ?_, ?_, ?_⟩
  · intro debugger debugger' hprogram hcapacity hhub capacity hub
    have hreset := Debugger.reset_eq_of_same hprogram hcapacity hhub
    refine ⟨by rw [hreset], debugger.machine_reset, ?_, ?_⟩
    · intro hlong
      rw [debugger.machine_reset]
      exact Machine.build_of_long hub hlong
    · intro hbatch
      have hself : debugger.reset = _ := Debugger.reset_eq_of_same rfl rfl rfl
      have hflagged : debugger'.reset =
          debugger.reset.flagged debugger'.capture debugger'.quit := by
        rw [hreset, hbatch]
        exact congrArg (Debugger.flagged _ _) hself.symm
      have hbare : debugger'.reset.bare = debugger.reset.bare := by
        rw [hflagged]
        rfl
      refine ⟨Debugger.bare_performAll_congr hbare, ?_, ?_⟩
      · intro commands hcommands
        rw [hflagged, Debugger.performAll_flagged hcommands]
        rfl
      · intro hcapture hquit
        rw [hreset, hbatch, hcapture, hquit]
        exact hself.symm
  · intro embedded embedded' hprogram hcapacity hhub capacity hub
    refine ⟨?_, embedded.finalState_reset, ?_⟩
    · rw [Embedded.reset_eq, Embedded.reset_eq, hprogram, hcapacity, hhub]
    · intro hlong
      rw [embedded.finalState_reset]
      exact Machine.build_of_long hub hlong
  · intro text listing htext embedded hfits
    exact Embedded.loadListing_of_fits htext hfits
  · intro text fault htext embedded
    exact Embedded.loadListing_of_error htext embedded

/-- A reset leaves a debugger the flag that keys are captured, and the size of its batches.  So what
giving the keys to the machine says after a reset still tells whether they were given to it before,
and a tick executes as many instructions as ever. -/
theorem reset_remembers_settings :
    let machine := Machine.powerOn 4 (Peripherals.powerOn 1)
    let debugger : Debugger Peripherals := .start machine [] 1
    let captured := debugger.performAll [.toggleCapture]
    let hasty : Debugger Peripherals := .start machine [] 2
    captured.program = debugger.program ∧ captured.machine = debugger.machine ∧
    captured.batchSize = debugger.batchSize ∧
    (debugger.performAll [.reset, .toggleCapture]).status = "Keyboard captured. Esc to release." ∧
    (captured.performAll [.reset, .toggleCapture]).status = "Keyboard released." ∧
    hasty.program = debugger.program ∧ hasty.machine = debugger.machine ∧
    (debugger.performAll [.reset, .run, .tick]).machine.steps = 1 ∧
    (hasty.performAll [.reset, .run, .tick]).machine.steps = 2 :=
  ⟨rfl, rfl, rfl, rfl, rfl, rfl, rfl, rfl, rfl⟩

end WordMachine
