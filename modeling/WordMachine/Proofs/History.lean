import WordMachine.Proofs.Frame
import WordMachine.Proofs.Watching

/-!
# What is told

Memory changes only by stores that the watcher is told of, in the order in which they are made.
`Bus.Hears` says that a bus has come from another by a list of events, and `Logged` keeps the list
beside any other watcher, so that the events of an operation can be looked at afterwards.
-/

namespace WordMachine

namespace Event

/-- The store that an event tells of, if it tells of one. -/
def store? : Event → Option (Word × Word)
  | .wrote address value => some (address, value)
  | _ => none

/-- Whether an event tells of an access to memory. -/
def isAccess : Event → Bool
  | .read .. | .wrote .. => true
  | _ => false

/-- The stores that events tell of. -/
def stores (events : List Event) : List (Word × Word) :=
  events.filterMap store?

@[simp]
theorem stores_append (first second : List Event) :
    stores (first ++ second) = stores first ++ stores second :=
  List.filterMap_append

@[simp]
theorem stores_reads (memory : Memory) (addresses : List Word) :
    stores (memory.reads addresses) = [] := by
  rw [stores, List.filterMap_eq_nil_iff]
  intro event hevent
  obtain ⟨address, -, rfl⟩ := List.mem_map.mp hevent
  rfl

/-- Events that tell of no access tell of no store. -/
theorem stores_of_no_access
    {events : List Event} (h : ∀ event ∈ events, event.isAccess = false) : stores events = [] := by
  rw [stores, List.filterMap_eq_nil_iff]
  intro event hevent
  have hno := h event hevent
  cases event with
  | wrote address value => contradiction
  | _ => rfl

@[simp]
theorem stores_wrote (stores : List (Word × Word)) :
    Event.stores (stores.map fun store => .wrote store.1 store.2) = stores := by
  rw [Event.stores, List.filterMap_map]
  exact List.filterMap_some

end Event

namespace Memory

@[simp]
theorem putAll_nil (memory : Memory) : memory.putAll [] = memory :=
  rfl

@[simp]
theorem putAll_cons (memory : Memory) (store : Word × Word) (stores : List (Word × Word)) :
    memory.putAll (store :: stores) = (memory.put store.1 store.2).putAll stores :=
  rfl

@[simp]
theorem putAll_append (memory : Memory) (first second : List (Word × Word)) :
    memory.putAll (first ++ second) = (memory.putAll first).putAll second :=
  List.foldl_append

@[simp]
theorem capacity_putAll (memory : Memory) (stores : List (Word × Word)) :
    (memory.putAll stores).capacity = memory.capacity := by
  induction stores generalizing memory with
  | nil => rfl
  | cons store stores ih => rw [putAll_cons, ih, capacity_put]

theorem wordAt_putAll_of_ne
    {memory : Memory} {stores : List (Word × Word)} {address : Word}
    (h : ∀ store ∈ stores, store.1 ≠ address) :
    (memory.putAll stores).wordAt address = memory.wordAt address := by
  induction stores generalizing memory with
  | nil => rfl
  | cons store stores ih =>
    rw [putAll_cons, ih fun other hother => h other (List.mem_cons_of_mem store hother)]
    exact wordAt_put_of_ne _ _ (h store List.mem_cons_self).symm

@[simp]
theorem lacks_put (memory : Memory) (address value other : Word) :
    (memory.put address value).lacks other = memory.lacks other := by
  simp [lacks]

@[simp]
theorem lacks_putAll (memory : Memory) (stores : List (Word × Word)) (address : Word) :
    (memory.putAll stores).lacks address = memory.lacks address := by
  simp [lacks]

end Memory

/-- The state in which an action ends, with a result or with a fault. -/
def finalState {S ε α : Type} : EStateM.Result ε S α → S
  | .ok _ s => s
  | .error _ s => s

@[simp]
theorem finalState_mapState {S T ε α : Type} (f : S → T) (result : EStateM.Result ε S α) :
    finalState (mapState f result) = f (finalState result) := by
  cases result <;> rfl

@[simp]
theorem finalState_adaptExcept
    {S ε ε' α : Type} (g : ε → ε') (action : EStateM ε S α) (s : S) :
    finalState (EStateM.adaptExcept g action s) = finalState (action s) := by
  simp only [EStateM.adaptExcept]
  cases action s <;> rfl

theorem finalState_bind_pure
    {S ε α β : Type} (action : EStateM ε S α) (answer : β) (s : S) :
    finalState ((action >>= fun _ => pure answer) s) = finalState (action s) := by
  cases haction : action s with
  | ok a s' =>
    rw [bind_of_ok haction]
    rfl
  | error e s' =>
    rw [bind_of_error haction]
    rfl

/-- The stores that the next step of a program makes: at most one, and none if the step is skipped
or fails. -/
def Guest.stores (guest : Guest) : List (Word × Word) :=
  match guest.accesses.find? guest.memory.lacks, guest.skip, guest.effect with
  | none, false, .completes _ stored _ => stored.toList
  | _, _, _ => []

/-- The stores that a batch of steps of a program makes, up to the first step that fails. -/
def Guest.batchStores : Guest → Nat → List (Word × Word)
  | _, 0 => []
  | guest, count + 1 =>
    guest.stores ++
      match guest.step with
      | .ok _ guest' => guest'.batchStores count
      | .error _ _ => []

/-- A watcher with the events that it has been told, the earliest first. -/
structure Logged (σ : Type) where
  /-- The watcher. -/
  watcher : σ
  /-- The events. -/
  events : List Event

instance {σ : Type} [Watcher σ] : Watcher (Logged σ) where
  observe event logged := ⟨Watcher.observe event logged.watcher, logged.events ++ [event]⟩

instance {σ : Type} [Hosted σ] : Hosted (Logged σ) where
  devices logged := Hosted.devices logged.watcher
  onDevices change logged := ⟨Hosted.onDevices change logged.watcher, logged.events⟩

namespace Logged

variable {σ : Type}

/-- A watcher with nothing told to it so far. -/
def start (watcher : σ) : Logged σ :=
  ⟨watcher, []⟩

theorem observes_watcher [Watcher σ] : Watcher.Respects (watcher : Logged σ → σ) :=
  fun _ _ => rfl

theorem respects_watcher [Hosted σ] : Hosted.Respects (watcher : Logged σ → σ) where
  observes := observes_watcher
  devices _ := rfl
  onDevices _ _ := rfl

theorem tell_eq [Watcher σ] (events : List Event) (logged : Logged σ) :
    Watcher.tell events logged =
      ⟨Watcher.tell events logged.watcher, logged.events ++ events⟩ := by
  induction events generalizing logged with
  | nil => simp
  | cons event events ih =>
    change Watcher.tell events (Watcher.observe event logged) = _
    rw [ih]
    simp [Watcher.observe, Watcher.tell]

end Logged

namespace Bus

variable {σ : Type} [Watcher σ]

/-- The second bus has come from the first by the given events: the stores among them are made and
the watcher is told of all, and each store is to a word that memory has. -/
structure Hears (events : List Event) (bus bus' : Bus σ) : Prop where
  memory : bus'.memory = bus.memory.putAll (Event.stores events)
  watcher : bus'.watcher = Watcher.tell events bus.watcher
  committed : ∀ store ∈ Event.stores events, bus.memory.lacks store.1 = false

theorem Hears.refl (bus : Bus σ) : Hears [] bus bus where
  memory := rfl
  watcher := rfl
  committed _ h := by contradiction

theorem Hears.trans
    {first second : List Event} {bus bus' bus'' : Bus σ}
    (h : Hears first bus bus') (h' : Hears second bus' bus'') :
    Hears (first ++ second) bus bus'' where
  memory := by rw [h'.memory, h.memory, Event.stores_append, Memory.putAll_append]
  watcher := by rw [h'.watcher, h.watcher, Watcher.tell_append]
  committed := by
    intro store hstore
    rw [Event.stores_append, List.mem_append] at hstore
    rcases hstore with hfirst | hsecond
    · exact h.committed store hfirst
    · have hlacks := h'.committed store hsecond
      rwa [h.memory, Memory.lacks_putAll] at hlacks

theorem hears_reads (bus : Bus σ) (addresses : List Word) :
    Hears (bus.memory.reads addresses) bus
      ⟨bus.memory, Watcher.tell (bus.memory.reads addresses) bus.watcher⟩ where
  memory := by rw [Event.stores_reads, Memory.putAll_nil]
  watcher := rfl
  committed := by simp

theorem hears_announce (bus : Bus σ) {event : Event} (h : event.isAccess = false) :
    Hears [event] bus (bus.announce event) := by
  have hstores : Event.stores [event] = [] := Event.stores_of_no_access (by simpa using h)
  constructor
  · rw [hstores]
    rfl
  · rfl
  · rw [hstores]
    intro store hstore
    contradiction

theorem hears_commit
    (bus : Bus σ) {store : Word × Word} (h : bus.memory.lacks store.1 = false) :
    Hears [.wrote store.1 store.2] bus (bus.commit store) where
  memory := rfl
  watcher := rfl
  committed := by
    intro other hother
    obtain rfl : other = store := by simpa [Event.stores, Event.store?] using hother
    exact h

theorem hears_commitAll
    (bus : Bus σ) {stores : List (Word × Word)}
    (h : ∀ store ∈ stores, bus.memory.lacks store.1 = false) :
    Hears (stores.map fun store => .wrote store.1 store.2) bus (bus.commitAll stores) := by
  induction stores generalizing bus with
  | nil => exact .refl bus
  | cons store stores ih =>
    refine (hears_commit bus (h store List.mem_cons_self)).trans (ih (bus.commit store) ?_)
    intro other hother
    rw [← h other (List.mem_cons_of_mem store hother)]
    exact bus.memory.lacks_put store.1 store.2 other.1

theorem Hears.forget
    {events : List Event} {bus bus' : Bus (Logged σ)} (h : Hears events bus bus') :
    Hears events (bus.mapWatcher Logged.watcher) (bus'.mapWatcher Logged.watcher) ∧
      bus'.watcher.events = bus.watcher.events ++ events := by
  have hwatcher := h.watcher
  rw [Logged.tell_eq] at hwatcher
  exact ⟨⟨h.memory, congrArg Logged.watcher hwatcher, h.committed⟩,
    congrArg Logged.events hwatcher⟩

/-- Whatever the action does to the bus, the watcher is told of it, and it stores only to
addresses that are allowed. -/
def Tells {ε α : Type} (allowed : Word → Prop) (action : EStateM ε (Bus σ) α) : Prop :=
  ∀ bus, ∃ events, Hears events bus (finalState (action bus)) ∧
    ∀ store ∈ Event.stores events, allowed store.1

theorem Tells.bind
    {ε α β : Type} {allowed : Word → Prop} {action : EStateM ε (Bus σ) α}
    {next : α → EStateM ε (Bus σ) β} (haction : Tells allowed action)
    (hnext : ∀ a, Tells allowed (next a)) : Tells allowed (action >>= next) := by
  intro bus
  obtain ⟨first, hfirst, hallowed⟩ := haction bus
  cases hresult : action bus with
  | ok a bus' =>
    rw [hresult] at hfirst
    obtain ⟨second, hsecond, hallowed'⟩ := hnext a bus'
    rw [bind_of_ok hresult]
    refine ⟨first ++ second, hfirst.trans hsecond, fun store hstore => ?_⟩
    rw [Event.stores_append, List.mem_append] at hstore
    exact hstore.elim (hallowed store) (hallowed' store)
  | error e bus' =>
    rw [hresult] at hfirst
    rw [bind_of_error hresult]
    exact ⟨first, hfirst, hallowed⟩

theorem tells_write
    {allowed : Word → Prop} {address : Nat} (value : Nat)
    (hallowed : ∀ word : Word, word.toNat = address → allowed word) :
    Tells allowed (write address value : EStateM MemoryFault (Bus σ) Unit) := by
  intro bus
  by_cases hvalue : value < addressSpace
  · by_cases haddress : address < bus.memory.capacity
    · obtain ⟨hlacks, hwrite⟩ := write_of_lt bus haddress hvalue
      rw [hwrite]
      refine ⟨_, hears_commit bus hlacks, fun store hstore => ?_⟩
      obtain rfl := List.mem_singleton.mp hstore
      apply hallowed
      exact Nat.mod_eq_of_lt (Nat.lt_of_lt_of_le haddress bus.memory.capacity_le)
    · simp only [write, if_neg (Nat.not_le.mpr hvalue), dif_neg haddress]
      exact ⟨[], .refl bus, fun _ h => by contradiction⟩
  · simp only [write, if_pos (Nat.not_lt.mp hvalue)]
    exact ⟨[], .refl bus, fun _ h => by contradiction⟩

/-- The stores that lay words out from an address on. -/
def layout (address : Nat) : List Word → List (Word × Word)
  | [] => []
  | word :: words => (UInt16.ofNat address, word) :: layout (address + 1) words

omit [Watcher σ] in
theorem lacks_of_mem_layout
    {memory : Memory} {address : Nat} {words : List Word}
    (h : address + words.length ≤ memory.capacity) :
    ∀ store ∈ layout address words, memory.lacks store.1 = false := by
  induction words generalizing address with
  | nil =>
    intro store hstore
    contradiction
  | cons word words ih =>
    rw [List.length_cons] at h
    intro store hstore
    rcases List.mem_cons.mp hstore with rfl | hstore
    · have hword : (UInt16.ofNat address).toNat = address :=
        Nat.mod_eq_of_lt (Nat.lt_of_lt_of_le (by omega) memory.capacity_le)
      rw [Memory.lacks_eq_false_iff, hword]
      omega
    · exact ih (by omega) store hstore

theorem writeAll_of_fits
    (bus : Bus σ) {address : Nat} {words : List Word}
    (h : address + words.length ≤ bus.memory.capacity) :
    writeAll address words bus = .ok () (bus.commitAll (layout address words)) := by
  induction words generalizing address bus with
  | nil => rfl
  | cons word words ih =>
    rw [List.length_cons] at h
    have hlt : address < bus.memory.capacity := by omega
    obtain ⟨-, hwrite⟩ := write_of_lt bus hlt word.toNat_lt_addressSpace
    have hrest : address + 1 + words.length ≤
        (bus.commit (UInt16.ofNat address, word)).memory.capacity := by
      rw [commit, Memory.capacity_put]
      omega
    rw [UInt16.ofNat_toNat] at hwrite
    rw [writeAll, bind_of_ok hwrite, ih _ hrest]
    rfl

/-- A program that fits is laid out from address zero on. -/
theorem load_of_fits
    (bus : Bus σ) {program : List Word} (h : program.length ≤ bus.memory.capacity) :
    load program bus = .ok () (bus.commitAll (layout 0 program)) := by
  rw [load, if_neg (Nat.not_lt.mpr h)]
  exact writeAll_of_fits bus (by omega)

theorem load_of_long
    (bus : Bus σ) {program : List Word} (h : bus.memory.capacity < program.length) :
    load program bus = .error (.outOfRange (program.length - 1) bus.memory.capacity) bus :=
  if_pos h

theorem tells_load (program : List Word) :
    Tells (fun _ => True) (load program : EStateM MemoryFault (Bus σ) Unit) := by
  intro bus
  by_cases hlong : bus.memory.capacity < program.length
  · rw [load_of_long bus hlong]
    exact ⟨[], .refl bus, fun _ _ => trivial⟩
  · have hfits : program.length ≤ bus.memory.capacity := Nat.not_lt.mp hlong
    rw [load_of_fits bus hfits]
    exact ⟨_, bus.hears_commitAll (lacks_of_mem_layout (by omega)), fun _ _ => trivial⟩

end Bus

namespace Machine

variable {σ : Type} [Watcher σ]

omit [Watcher σ] in
theorem finalState_onBus
    {ε α : Type} (operation : EStateM ε (Bus σ) α) (m : Machine σ) :
    (finalState (onBus operation m)).bus = finalState (operation m.bus) := by
  obtain ⟨registers, bus, steps, skip, span⟩ := m
  simp only [onBus]
  cases operation bus <;> rfl

theorem hears_consulted (m : Machine σ) (addresses : List Word) (span : Word) :
    Bus.Hears (m.memory.reads addresses) m.bus (m.consulted addresses span).bus :=
  m.bus.hears_reads addresses

theorem hears_retire
    (pc word : Word) (instruction : Instruction) (skipped : Bool) (m : Machine σ) :
    Bus.Hears
      [.stepped ⟨pc, word, m.span, skipped, instruction,
        (retire pc word instruction skipped m).steps,
        (retire pc word instruction skipped m).registers⟩]
      m.bus (retire pc word instruction skipped m).bus :=
  m.bus.hears_announce rfl

/-- What is reported of a step: its completion, if it is completed. -/
def reports (m : Machine σ) : EStateM.Result Fault (Machine σ) Instruction → List Event
  | .ok instruction m' =>
    [.stepped ⟨m.registers.pc, m.memory.wordAt m.registers.pc, instruction.words, m.skip,
      instruction, m'.steps, m'.registers⟩]
  | .error _ _ => []

/-- A step tells of the words that it reads, up to the first that memory lacks, then of its store,
if it makes one, and then of its completion, if it is completed. -/
theorem step_reports (m : Machine σ) :
    Bus.Hears
      (m.memory.reads (m.memory.reached m.guest.accesses) ++
        m.guest.stores.map (fun store => .wrote store.1 store.2) ++ m.reports (step m))
      m.bus (finalState (step m)).bus := by
  cases hfind : m.guest.accesses.find? m.guest.memory.lacks with
  | some address =>
    obtain ⟨span, hstep⟩ := step_of_lacks hfind
    have hstores : m.guest.stores = [] := by
      simp [Guest.stores, hfind]
    rw [hstep, hstores, reports, List.map_nil, List.append_nil, List.append_nil]
    exact m.hears_consulted _ span
  | none =>
    have hall : m.memory.reached m.guest.accesses = m.guest.accesses :=
      Memory.reached_of_find?_eq_none hfind
    have hreads := m.hears_consulted m.guest.accesses m.guest.instruction.words
    rw [step_eq_outcome m hfind, outcome, hall]
    cases hskip : m.skip with
    | true =>
      have hguest : m.guest.skip = true := hskip
      have hstores : m.guest.stores = [] := by
        simp [Guest.stores, hguest]
      rw [if_pos rfl, hstores, reports, List.map_nil, List.append_nil, hskip]
      exact hreads.trans (hears_retire _ _ _ true
        { m.consulted m.guest.accesses m.guest.instruction.words with skip := false })
    | false =>
      have hguest : m.guest.skip = false := hskip
      rw [if_neg Bool.false_ne_true]
      cases heffect : m.guest.effect with
      | fails fault registers =>
        have hstores : m.guest.stores = [] := by
          simp [Guest.stores, heffect]
        rw [hstores, reports, List.map_nil, List.append_nil, List.append_nil]
        exact hreads
      | completes registers stored skip =>
        have hstores : m.guest.stores = stored.toList := by
          simp [Guest.stores, hfind, hguest, heffect]
        have hreached : ∀ address ∈ m.guest.accesses, m.guest.memory.lacks address = false := by
          simpa using hfind
        have hhit := (Instruction.completion_of_effect heffect).hit
          fun address haddress => hreached address (List.mem_cons_of_mem _ haddress)
        have hhit' : ∀ store ∈ stored.toList, m.memory.lacks store.1 = false :=
          fun store hstore => hhit store (Option.mem_toList.mp hstore)
        have hwrites :=
          (m.consulted m.guest.accesses m.guest.instruction.words).bus.hears_commitAll hhit'
        rw [hstores, reports, hskip]
        exact (hreads.trans hwrites).trans (hears_retire _ _ _ false ⟨_, _, _, _, _⟩)

theorem step_tells (m : Machine σ) :
    ∃ reports : List Event, (∀ event ∈ reports, event.isAccess = false) ∧
      Bus.Hears
        (m.memory.reads (m.memory.reached m.guest.accesses) ++
          m.guest.stores.map (fun store => .wrote store.1 store.2) ++ reports)
        m.bus (finalState (step m)).bus := by
  refine ⟨m.reports (step m), ?_, m.step_reports⟩
  cases step m with
  | ok instruction m' =>
    intro event hevent
    rw [List.mem_singleton.mp hevent]
    rfl
  | error fault m' => exact fun _ h => by contradiction

/-- A step reads, then makes at most one store, and then reports that it is completed. -/
theorem step_hears (m : Machine σ) :
    ∃ events, Bus.Hears events m.bus (finalState (step m)).bus ∧
      Event.stores events = m.guest.stores := by
  obtain ⟨reports, hreports, hhears⟩ := step_tells m
  refine ⟨_, hhears, ?_⟩
  rw [Event.stores_append, Event.stores_append, Event.stores_reads, Event.stores_wrote,
    Event.stores_of_no_access hreports, List.nil_append, List.append_nil]

theorem runAfter_hears (done count : Nat) (m : Machine σ) :
    ∃ events, Bus.Hears events m.bus (finalState (runAfter done count m)).bus ∧
      Event.stores events = m.guest.batchStores count := by
  induction count generalizing done m with
  | zero => exact ⟨[], .refl m.bus, rfl⟩
  | succ count ih =>
    obtain ⟨first, hfirst, hstores⟩ := step_hears m
    simp only [runAfter, Guest.batchStores]
    cases hstep : step m with
    | ok instruction m' =>
      rw [hstep] at hfirst
      obtain ⟨second, hsecond, hstores'⟩ := ih (done + 1) m'
      refine ⟨first ++ second, hfirst.trans hsecond, ?_⟩
      rw [Event.stores_append, hstores, hstores', guest_step_of_ok hstep]
    | error fault m' =>
      rw [hstep] at hfirst
      refine ⟨_, hfirst.trans (m'.bus.hears_announce rfl), ?_⟩
      rw [Event.stores_append, hstores, guest_step_of_error hstep]
      rfl

theorem run_hears (count : Nat) (m : Machine σ) :
    ∃ events, Bus.Hears events m.bus (finalState (run count m)).bus ∧
      Event.stores events = m.guest.batchStores count := by
  have hrun : finalState (run count m) = finalState (runAfter 0 count m) :=
    finalState_bind_pure (runAfter 0 count) count m
  rw [hrun]
  exact runAfter_hears 0 count m

end Machine

end WordMachine
