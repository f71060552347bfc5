import WordMachine.Device.Host
import WordMachine.Proofs.Reading

/-!
# Watching changes nothing

Actions are written for any watcher, so what they do cannot depend on it.  `Tracks` says that an
action on one state does what another does to the state behind it.  It is closed under sequencing,
and every action of bus and machine tracks itself along a map of watchers that respects what they
are told.
-/

namespace WordMachine

section Tracks

variable {S T ε α β : Type}

/-- Along `f`, one action does what the other does. -/
def Tracks (f : S → T) (action : EStateM ε S α) (action' : EStateM ε T α) : Prop :=
  ∀ s, action' (f s) = mapState f (action s)

namespace Tracks

variable {f : S → T} {action : EStateM ε S α} {action' : EStateM ε T α}

theorem pure (f : S → T) (a : α) :
    Tracks f (pure a : EStateM ε S α) (pure a) := by
  intro s
  rfl

theorem throw (f : S → T) (e : ε) :
    Tracks f (throw e : EStateM ε S α) (throw e) := by
  intro s
  rfl

theorem modify {g : S → S} {g' : T → T} (h : ∀ s, g' (f s) = f (g s)) :
    Tracks f (modify g : EStateM ε S Unit) (modify g') := by
  intro s
  exact congrArg (EStateM.Result.ok ()) (h s)

theorem bind
    {next : α → EStateM ε S β} {next' : α → EStateM ε T β} (haction : Tracks f action action')
    (hnext : ∀ a, Tracks f (next a) (next' a)) :
    Tracks f (action >>= next) (action' >>= next') := by
  intro s
  have hs := haction s
  cases hresult : action s with
  | ok a s' =>
    rw [hresult] at hs
    rw [bind_of_ok hresult, bind_of_ok hs]
    exact hnext a s'
  | error e s' =>
    rw [hresult] at hs
    rw [bind_of_error hresult, bind_of_error hs]
    rfl

theorem adaptExcept {ε' : Type} (g : ε → ε') (h : Tracks f action action') :
    Tracks f (EStateM.adaptExcept g action) (EStateM.adaptExcept g action') := by
  intro s
  simp only [EStateM.adaptExcept, h s]
  cases action s <;> rfl

end Tracks

end Tracks

/-- A map of watchers that respects what they are told. -/
def Watcher.Respects {σ τ : Type} [Watcher σ] [Watcher τ] (f : σ → τ) : Prop :=
  ∀ event watcher, f (observe event watcher) = observe event (f watcher)

/-- A map of watchers that respects what they are told and the devices among them. -/
structure Hosted.Respects {σ τ : Type} [Hosted σ] [Hosted τ] (f : σ → τ) : Prop where
  observes : Watcher.Respects f
  devices : ∀ watcher, Hosted.devices (f watcher) = Hosted.devices watcher
  onDevices : ∀ change watcher, f (onDevices change watcher) = onDevices change (f watcher)

namespace Bus

variable {σ τ : Type} {f : σ → τ}

/-- The bus with another watcher. -/
def mapWatcher (f : σ → τ) (bus : Bus σ) : Bus τ :=
  ⟨bus.memory, f bus.watcher⟩

section

variable [Watcher σ] [Watcher τ] (hf : Watcher.Respects f)

include hf

theorem tracks_read (address : Nat) :
    Tracks (mapWatcher f) (Bus.read address) (Bus.read address) := by
  rintro ⟨memory, watcher⟩
  cases hget : memory.get? address with
  | none => simp [Bus.read, mapWatcher, mapState, hget]
  | some value => simp [Bus.read, mapWatcher, mapState, hget, hf _ watcher]

theorem tracks_write (address value : Nat) :
    Tracks (mapWatcher f) (write address value) (write address value) := by
  rintro ⟨memory, watcher⟩
  change write address value ⟨memory, f watcher⟩ = _
  simp only [write]
  by_cases hvalue : addressSpace ≤ value
  · rw [if_pos hvalue, if_pos hvalue]
    rfl
  · rw [if_neg hvalue, if_neg hvalue]
    by_cases haddress : address < memory.capacity
    · rw [dif_pos haddress, dif_pos haddress]
      simp [mapState, mapWatcher, hf _ watcher]
    · rw [dif_neg haddress, dif_neg haddress]
      rfl

theorem tracks_writeAll (address : Nat) (words : List Word) :
    Tracks (mapWatcher f) (writeAll address words) (writeAll address words) := by
  induction words generalizing address with
  | nil => exact .pure _ ()
  | cons word words ih => exact (tracks_write hf _ _).bind fun _ => ih (address + 1)

theorem tracks_load (program : List Word) :
    Tracks (mapWatcher f) (load program) (load program) := by
  intro bus
  by_cases hfits : bus.memory.capacity < program.length
  · have hfits' : (bus.mapWatcher f).memory.capacity < program.length := hfits
    rw [load, load, if_pos hfits, if_pos hfits']
    rfl
  · have hfits' : ¬(bus.mapWatcher f).memory.capacity < program.length := hfits
    rw [load, load, if_neg hfits, if_neg hfits']
    exact tracks_writeAll hf 0 program bus

end

section

variable [Hosted σ] [Hosted τ] (hf : Hosted.Respects f)

include hf

theorem onDevices_mapWatcher (change : Peripherals → Peripherals) (bus : Bus σ) :
    (bus.mapWatcher f).onDevices change = (bus.onDevices change).mapWatcher f :=
  congrArg (Bus.mk bus.memory) (hf.onDevices change bus.watcher).symm

theorem onNetwork_mapWatcher (change : NetworkCard → NetworkCard) (bus : Bus σ) :
    (bus.mapWatcher f).onNetwork change = (bus.onNetwork change).mapWatcher f :=
  onDevices_mapWatcher hf _ bus

theorem devices_mapWatcher (bus : Bus σ) : (bus.mapWatcher f).devices = bus.devices :=
  hf.devices bus.watcher

theorem tracks_pressKey (key : Word) :
    Tracks (mapWatcher f) (pressKey key) (pressKey key) := by
  intro bus
  simp only [pressKey, devices_mapWatcher hf, onDevices_mapWatcher hf]
  exact ((tracks_write hf.observes _ _).adaptExcept _) _

theorem tracks_receive (packet : Packet) :
    Tracks (mapWatcher f) (receive packet) (receive packet) := by
  intro bus
  simp only [receive, devices_mapWatcher hf, onNetwork_mapWatcher hf]
  split
  · rfl
  · refine Tracks.adaptExcept _ ?_ _
    refine (tracks_write hf.observes _ _).bind fun _ => ?_
    refine (tracks_write hf.observes _ _).bind fun _ => ?_
    exact .modify fun bus => congrArg (Bus.mk bus.memory) (hf.observes _ bus.watcher).symm

theorem tracks_zeroPairs (marked : List Word) :
    Tracks (mapWatcher f) (zeroPairs marked) (zeroPairs marked) := by
  induction marked with
  | nil => exact .pure _ ()
  | cons data rest ih =>
    intro bus
    have hpair : Tracks (mapWatcher f) (zeroPair data) (zeroPair data) :=
      (tracks_write hf.observes _ _).bind fun _ => tracks_write hf.observes _ _
    simp only [zeroPairs, hpair bus]
    cases zeroPair data bus with
    | ok _ bus' => exact ih bus'
    | error fault bus' =>
      exact congrArg (EStateM.Result.error fault) (onNetwork_mapWatcher hf _ bus')

theorem tracks_drain :
    Tracks (mapWatcher f) (drain : EStateM DeviceFault (Bus σ) (List Packet))
      (drain : EStateM DeviceFault (Bus τ) (List Packet)) := by
  intro bus
  have hzero := tracks_zeroPairs hf bus.devices.network.unzeroed.toList
    (bus.onNetwork (·.takeUnzeroed.2))
  simp only [drain, devices_mapWatcher hf, onNetwork_mapWatcher hf, hzero]
  cases zeroPairs bus.devices.network.unzeroed.toList (bus.onNetwork (·.takeUnzeroed.2)) with
  | ok _ bus' => simp only [mapState, devices_mapWatcher hf, onNetwork_mapWatcher hf]
  | error fault bus' => rfl

end

end Bus

namespace Machine

variable {σ τ : Type} {f : σ → τ}

/-- The machine with another watcher. -/
def mapWatcher (f : σ → τ) (m : Machine σ) : Machine τ :=
  ⟨m.registers, m.bus.mapWatcher f, m.steps, m.skip, m.span⟩

theorem tracks_onBus
    {ε α : Type} {operation : EStateM ε (Bus σ) α} {operation' : EStateM ε (Bus τ) α}
    (h : Tracks (Bus.mapWatcher f) operation operation') :
    Tracks (mapWatcher f) (onBus operation) (onBus operation') := by
  rintro ⟨registers, bus, steps, skip, span⟩
  simp only [onBus, mapWatcher, h bus]
  cases operation bus <;> rfl

theorem tracks_onRegisters (change : Registers → Registers) :
    Tracks (mapWatcher f) (modify (onRegisters change) : Action σ Unit)
      (modify (onRegisters change)) :=
  .modify fun _ => rfl

section

variable [Watcher σ] [Watcher τ] (hf : Watcher.Respects f)

include hf

theorem tracks_fetch (address : Word) :
    Tracks (mapWatcher f) (fetch address) (fetch address) :=
  (tracks_onBus (Bus.tracks_read hf _)).adaptExcept _

theorem tracks_writeBus (address value : Nat) :
    Tracks (mapWatcher f) (EStateM.adaptExcept Fault.memory (onBus (Bus.write address value)))
      (EStateM.adaptExcept Fault.memory (onBus (Bus.write address value))) :=
  (tracks_onBus (Bus.tracks_write hf _ _)).adaptExcept _

theorem tracks_nextWord :
    Tracks (mapWatcher f) (nextWord : Action σ Word) (nextWord : Action τ Word) := by
  intro m
  exact tracks_fetch hf (m.registers.pc + m.span) { m with span := m.span + 1 }

theorem tracks_resolveAt (operand : Operand) (address : Word) :
    Tracks (mapWatcher f) (resolveAt operand address) (resolveAt operand address) :=
  (tracks_fetch hf address).bind fun _ => .pure _ _

omit hf [Watcher σ] [Watcher τ] in
theorem tracks_register (r : Register) :
    Tracks (mapWatcher f) (register r : Action σ Word) (register r) := by
  intro m
  rfl

theorem tracks_resolve (operand : Operand) :
    Tracks (mapWatcher f) (resolve operand) (resolve operand) := by
  cases operand with
  | register r => exact (tracks_register r).bind fun _ => .pure _ _
  | indirect r => exact (tracks_register r).bind fun _ => tracks_resolveAt hf _ _
  | indexed r =>
    refine (tracks_nextWord hf).bind fun _ => ?_
    exact (tracks_register r).bind fun _ => tracks_resolveAt hf _ _
  | pop => exact (tracks_register .sp).bind fun _ => tracks_resolveAt hf _ _
  | peek => exact (tracks_register .sp).bind fun _ => tracks_resolveAt hf _ _
  | push => exact (tracks_register .sp).bind fun _ => tracks_resolveAt hf _ _
  | absolute => exact (tracks_nextWord hf).bind fun _ => tracks_resolveAt hf _ _
  | immediate => exact (tracks_nextWord hf).bind fun _ => .pure _ _
  | literal value => exact .pure _ _

omit hf [Watcher σ] [Watcher τ] in
theorem tracks_moveStack (operand : Operand) :
    Tracks (mapWatcher f) (moveStack operand : Action σ Unit) (moveStack operand) := by
  cases operand with
  | pop => exact tracks_onRegisters _
  | push => exact tracks_onRegisters _
  | _ => exact .pure _ ()

omit hf [Watcher σ] [Watcher τ] in
theorem tracks_overflow (word : Option Word) :
    Tracks (mapWatcher f) (overflow word : Action σ Unit) (overflow word) := by
  cases word with
  | some word => exact tracks_onRegisters _
  | none => exact .pure _ ()

theorem tracks_store (target : Resolved) (value : Word) :
    Tracks (mapWatcher f) (store target value) (store target value) := by
  obtain ⟨operand, place, _⟩ := target
  cases place with
  | register r => exact tracks_onRegisters _
  | memory address => exact tracks_writeBus hf _ _
  | nowhere => exact .throw _ _

theorem tracks_executeBasic (op : BasicOp) (target source : Resolved) :
    Tracks (mapWatcher f) (executeBasic op target source) (executeBasic op target source) := by
  cases happly : op.apply target.value source.value with
  | test passed =>
    simp only [executeBasic, happly]
    refine (tracks_moveStack _).bind fun _ => (tracks_moveStack _).bind fun _ => ?_
    exact .modify fun _ => rfl
  | store result before after =>
    simp only [executeBasic, happly]
    by_cases hplace : target.place = .nowhere
    · simp only [hplace, if_true]
      exact Tracks.throw _ _
    · simp only [hplace, if_false]
      refine (tracks_moveStack _).bind fun _ => (tracks_moveStack _).bind fun _ => ?_
      refine (tracks_overflow _).bind fun _ => ?_
      exact (tracks_store hf target result).bind fun _ => tracks_overflow _

theorem tracks_call (destination : Word) :
    Tracks (mapWatcher f) (call destination) (call destination) := by
  intro m
  have hrest : Tracks (mapWatcher f)
      (do
        modify (onRegisters (·.push.2))
        let top ← register .sp
        EStateM.adaptExcept Fault.memory
          (onBus (Bus.write top.toNat (m.registers.pc + m.span).toNat))
        modify (onRegisters (·.set .pc destination)) : Action σ Unit)
      (do
        modify (onRegisters (·.push.2))
        let top ← register .sp
        EStateM.adaptExcept Fault.memory
          (onBus (Bus.write top.toNat (m.registers.pc + m.span).toNat))
        modify (onRegisters (·.set .pc destination))) := by
    refine (tracks_onRegisters _).bind fun _ => (tracks_register _).bind fun _ => ?_
    exact (tracks_writeBus hf _ _).bind fun _ => tracks_onRegisters _
  exact hrest m

theorem tracks_executeSpecial (op : SpecialOp) (operand : Resolved) :
    Tracks (mapWatcher f) (executeSpecial op operand) (executeSpecial op operand) := by
  refine (tracks_moveStack _).bind fun _ => ?_
  cases op with
  | jsr => exact tracks_call hf _
  | reserved code => exact .pure _ ()

omit hf [Watcher σ] [Watcher τ] in
theorem tracks_unlessSkipped
    {execution : Action σ Unit} {execution' : Action τ Unit}
    (h : Tracks (mapWatcher f) execution execution') :
    Tracks (mapWatcher f)
      (do
        if ← takeSkip then
          return true
        execution
        return false)
      (do
        if ← takeSkip then
          return true
        execution'
        return false) := by
  have htake : Tracks (mapWatcher f) (takeSkip : Action σ Bool) takeSkip := fun _ => rfl
  refine htake.bind fun skipped => ?_
  cases skipped with
  | true => exact .pure _ true
  | false => exact h.bind fun _ => .pure _ false

theorem tracks_perform (instruction : Instruction) :
    Tracks (mapWatcher f) (perform instruction) (perform instruction) := by
  cases instruction with
  | basic op a b =>
    refine (tracks_resolve hf a).bind fun target => (tracks_resolve hf b).bind fun source => ?_
    exact tracks_unlessSkipped (tracks_executeBasic hf op target source)
  | special op a =>
    refine (tracks_resolve hf a).bind fun operand => ?_
    exact tracks_unlessSkipped (tracks_executeSpecial hf op operand)

theorem announce_mapWatcher (event : Event) (m : Machine σ) :
    (m.mapWatcher f).announce event = (m.announce event).mapWatcher f := by
  simp only [announce, onWatcher, mapWatcher, Bus.mapWatcher, hf event]

/-- A step does the same whoever watches. -/
theorem tracks_step : Tracks (mapWatcher f) (step : Action σ Instruction) step := by
  have hspan : Tracks (mapWatcher f) (modify fun m => { m with span := 1 } : Action σ Unit)
      (modify fun m => { m with span := 1 }) := .modify fun _ => rfl
  refine hspan.bind fun _ => (tracks_register _).bind fun pc => ?_
  refine (tracks_fetch hf pc).bind fun word => ?_
  refine (tracks_perform hf (Instruction.decode word)).bind fun skipped => ?_
  refine Tracks.bind ?_ fun _ => .pure _ _
  exact .modify fun m => by simp only [retire, mapWatcher, Bus.mapWatcher, Bus.announce, hf _]

theorem tracks_runAfter (done count : Nat) :
    Tracks (mapWatcher f) (runAfter done count : Action σ Unit) (runAfter done count) := by
  induction count generalizing done with
  | zero => exact .pure _ ()
  | succ count ih =>
    intro m
    simp only [runAfter, tracks_step hf m]
    cases step m with
    | ok _ m' => exact ih (done + 1) m'
    | error fault m' =>
      exact congrArg (EStateM.Result.error fault) (announce_mapWatcher hf _ m')

theorem tracks_run (count : Nat) :
    Tracks (mapWatcher f) (run count : Action σ Nat) (run count) :=
  (tracks_runAfter hf 0 count).bind fun _ => .pure _ count

end

end Machine

end WordMachine
