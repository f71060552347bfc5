import Mathlib.Data.List.Induction
import WordMachine.Proofs.History

/-!
# What a watcher can rely on

A watcher is told of reads and stores in the order in which they happen, and of no others.  So what
it is told is a faithful history: the stores, made once more over the words of the beginning, give
the words of the end, and each read tells of the word that was last stored at its address.
`Memory.Bears` is the part of this that concerns reads; it is kept when one phase follows another,
and a request as well as a single step is made up of such phases.
-/

namespace WordMachine

/-- The latest store to the address, among the events, is of the word. -/
def Event.Latest (events : List Event) (address word : Word) : Prop :=
  ∃ earlier later, events = earlier ++ .wrote address word :: later ∧
    ∀ other, .wrote address other ∉ later

namespace Memory

/-- Each read among the events is at an address that memory has, and tells of the word that memory
holds there once the stores before the read are made. -/
def Bears (memory : Memory) (events : List Event) : Prop :=
  ∀ before address word after, events = before ++ .read address word :: after →
    memory.lacks address = false ∧
      word = (memory.putAll (Event.stores before)).wordAt address

variable {memory : Memory}

theorem bears_of_no_read
    {events : List Event} (h : ∀ address word, .read address word ∉ events) :
    memory.Bears events := by
  intro before address word after heq
  apply (h address word _).elim
  rw [heq]
  exact List.mem_append_right before List.mem_cons_self

/-- What is told in two phases holds if the second starts from the memory that the first ends
with. -/
theorem Bears.append
    {first second : List Event} (hfirst : memory.Bears first)
    (hsecond : (memory.putAll (Event.stores first)).Bears second) :
    memory.Bears (first ++ second) := by
  intro before address word after heq
  rcases List.append_eq_append_iff.mp heq with ⟨middle, rfl, htail⟩ | ⟨middle, hhead, htail⟩
  · obtain ⟨hhit, hword⟩ := hsecond middle address word after htail
    rw [lacks_putAll] at hhit
    rw [Event.stores_append, putAll_append]
    exact ⟨hhit, hword⟩
  · rcases List.cons_eq_append_iff.mp htail with ⟨rfl, hsecond'⟩ | ⟨rest, rfl, -⟩
    · obtain ⟨hhit, hword⟩ := hsecond [] address word after hsecond'
      rw [List.append_nil] at hhead
      rw [lacks_putAll] at hhit
      rw [← hhead]
      exact ⟨hhit, hword⟩
    · exact hfirst before address word rest hhead

theorem bears_reads
    {addresses : List Word} (h : ∀ address ∈ addresses, memory.lacks address = false) :
    memory.Bears (memory.reads addresses) := by
  intro before address word after heq
  have hread : Event.read address word ∈ memory.reads addresses := by
    rw [heq]
    exact List.mem_append_right before List.mem_cons_self
  obtain ⟨other, hmem, hother⟩ := List.mem_map.mp hread
  obtain ⟨rfl, rfl⟩ := Event.read.inj hother
  have hbefore : Event.stores before = [] := by
    have hstores := Event.stores_reads memory addresses
    rw [heq, Event.stores_append] at hstores
    exact (List.append_eq_nil_iff.mp hstores).1
  rw [hbefore]
  exact ⟨h other hmem, rfl⟩

theorem lacks_of_mem_reached
    {addresses : List Word} {address : Word} (h : address ∈ memory.reached addresses) :
    memory.lacks address = false := by
  have hhit := List.mem_takeWhile_imp h
  simpa using hhit

/-- Once the stores that events tell of are made, a word is the one last stored, or still the one of
the beginning. -/
theorem latest_or_untouched
    (events : List Event) {address : Word} (h : memory.lacks address = false) :
    Event.Latest events address ((memory.putAll (Event.stores events)).wordAt address) ∨
      ((∀ word, .wrote address word ∉ events) ∧
        (memory.putAll (Event.stores events)).wordAt address = memory.wordAt address) := by
  induction events using List.reverseRecOn with
  | nil =>
    right
    exact ⟨fun word => List.not_mem_nil, rfl⟩
  | append_singleton events event ih =>
    by_cases hstore : ∃ word, event = .wrote address word
    · left
      obtain ⟨word, rfl⟩ := hstore
      have hhit : (memory.putAll (Event.stores events)).lacks address = false := by
        rw [lacks_putAll, h]
      have hword : (memory.putAll (Event.stores (events ++ [.wrote address word]))).wordAt address =
          word := by
        rw [Event.stores_append, putAll_append]
        exact wordAt_put_self hhit word
      rw [hword]
      exact ⟨events, [], rfl, fun other => List.not_mem_nil⟩
    · have hnot : ∀ word, Event.wrote address word ∉ [event] := by
        intro word hmem
        exact hstore ⟨word, (List.mem_singleton.mp hmem).symm⟩
      have hsame : (memory.putAll (Event.stores (events ++ [event]))).wordAt address =
          (memory.putAll (Event.stores events)).wordAt address := by
        rw [Event.stores_append, putAll_append]
        apply wordAt_putAll_of_ne
        rintro ⟨other, word⟩ hmem rfl
        obtain ⟨event', hevent', hstored⟩ := List.mem_filterMap.mp hmem
        obtain rfl := List.mem_singleton.mp hevent'
        apply hstore
        cases event' with
        | wrote address' word' =>
          obtain ⟨rfl, rfl⟩ := Prod.mk.inj (Option.some.inj hstored)
          exact ⟨word', rfl⟩
        | _ => contradiction
      rw [hsame]
      rcases ih with ⟨earlier, later, heq, hlater⟩ | ⟨hnone, hword⟩
      · left
        refine ⟨earlier, later ++ [event], ?_, fun other hmem => ?_⟩
        · rw [← List.cons_append, ← List.append_assoc, ← heq]
        · rcases List.mem_append.mp hmem with hmem | hmem
          · exact hlater other hmem
          · exact hnot other hmem
      · right
        refine ⟨fun word hmem => ?_, hword⟩
        rcases List.mem_append.mp hmem with hmem | hmem
        · exact hnone word hmem
        · exact hnot word hmem

end Memory

namespace Bus

variable {σ : Type} [Watcher σ]

/-- The second bus has come from the first by the given events, and the reads among them are
faithful. -/
structure Testifies (events : List Event) (bus bus' : Bus σ) : Prop extends
    Hears events bus bus' where
  bears : bus.memory.Bears events

theorem Testifies.refl (bus : Bus σ) : Testifies [] bus bus where
  toHears := .refl bus
  bears := Memory.bears_of_no_read fun _ _ => List.not_mem_nil

theorem Testifies.trans
    {first second : List Event} {bus bus' bus'' : Bus σ} (h : Testifies first bus bus')
    (h' : Testifies second bus' bus'') : Testifies (first ++ second) bus bus'' where
  toHears := h.toHears.trans h'.toHears
  bears := by
    apply h.bears.append
    rw [← h.memory]
    exact h'.bears

theorem testifies_commitAll
    (bus : Bus σ) {stores : List (Word × Word)}
    (h : ∀ store ∈ stores, bus.memory.lacks store.1 = false) :
    Testifies (stores.map fun store => .wrote store.1 store.2) bus (bus.commitAll stores) where
  toHears := bus.hears_commitAll h
  bears := by
    apply Memory.bears_of_no_read
    intro address word hmem
    obtain ⟨store, -, hstore⟩ := List.mem_map.mp hmem
    contradiction

theorem testifies_announce (bus : Bus σ) {event : Event} (h : event.isAccess = false) :
    Testifies [event] bus (bus.announce event) where
  toHears := bus.hears_announce h
  bears := by
    apply Memory.bears_of_no_read
    intro address word hmem
    rw [← List.mem_singleton.mp hmem] at h
    contradiction

theorem testifies_reads
    (bus : Bus σ) {addresses : List Word}
    (h : ∀ address ∈ addresses, bus.memory.lacks address = false) :
    Testifies (bus.memory.reads addresses) bus
      ⟨bus.memory, Watcher.tell (bus.memory.reads addresses) bus.watcher⟩ where
  toHears := bus.hears_reads addresses
  bears := Memory.bears_reads h

/-- The operation is completed and the watcher is told of it, or it fails and has done nothing. -/
def Accesses {α : Type} (operation : EStateM MemoryFault (Bus σ) α) : Prop :=
  ∀ bus,
    (∃ answer bus' events, operation bus = .ok answer bus' ∧ Testifies events bus bus') ∨
      ∃ fault, operation bus = .error fault bus

theorem accesses_read (address : Nat) : Accesses (σ := σ) (read address) := by
  intro bus
  by_cases haddress : address < bus.memory.capacity
  · left
    have hnumber : (UInt16.ofNat address).toNat = address :=
      Nat.mod_eq_of_lt (Nat.lt_of_lt_of_le haddress bus.memory.capacity_le)
    have hhit : bus.memory.lacks (UInt16.ofNat address) = false := by
      rw [Memory.lacks_eq_false_iff, hnumber]
      exact haddress
    have hget := Memory.get?_eq_some_wordAt hhit
    rw [hnumber] at hget
    have hreached : ∀ other ∈ [UInt16.ofNat address], bus.memory.lacks other = false := by
      intro other hother
      rw [List.mem_singleton.mp hother]
      exact hhit
    refine ⟨bus.memory.wordAt (UInt16.ofNat address), _, _, ?_, bus.testifies_reads hreached⟩
    simp only [read, hget]
    rfl
  · right
    have hget : bus.memory.get? address = none :=
      Memory.get?_eq_none_iff.mpr (Nat.not_lt.mp haddress)
    exact ⟨.outOfRange address bus.memory.capacity, by simp only [read, hget]⟩

theorem accesses_write (address value : Nat) : Accesses (σ := σ) (write address value) := by
  intro bus
  by_cases hvalue : value < addressSpace
  · by_cases haddress : address < bus.memory.capacity
    · left
      obtain ⟨hhit, hwrite⟩ := write_of_lt bus haddress hvalue
      have hstore : ∀ store ∈ [(UInt16.ofNat address, UInt16.ofNat value)],
          bus.memory.lacks store.1 = false := by
        intro store hmem
        rw [List.mem_singleton.mp hmem]
        exact hhit
      exact ⟨(), _, _, hwrite, bus.testifies_commitAll hstore⟩
    · right
      refine ⟨.outOfRange address bus.memory.capacity, ?_⟩
      rw [write, if_neg (Nat.not_le.mpr hvalue), dif_neg haddress]
  · right
    refine ⟨.valueTooLarge address value, ?_⟩
    rw [write, if_pos (Nat.not_lt.mp hvalue)]

theorem accesses_load (program : List Word) : Accesses (σ := σ) (load program) := by
  intro bus
  by_cases hlong : bus.memory.capacity < program.length
  · right
    exact ⟨_, bus.load_of_long hlong⟩
  · left
    have hfits : program.length ≤ bus.memory.capacity := Nat.not_lt.mp hlong
    exact ⟨(), _, _, bus.load_of_fits hfits,
      bus.testifies_commitAll (lacks_of_mem_layout (by omega))⟩

end Bus

namespace Guest

variable {guest guest' : Guest}

theorem stores_of_skip (h : guest.skip = true) : guest.stores = [] := by
  simp [stores, h]

theorem stores_of_step_error {fault : Fault} (h : guest.step = .error fault guest') :
    guest.stores = [] := by
  rw [stores]
  split
  · rename_i hfind hskip heffect
    rw [step_of_completes hfind hskip heffect] at h
    contradiction
  · rfl

/-- A step that is completed and not skipped makes the store of its instruction, if it has one. -/
theorem stores_of_step_ok
    {instruction : Instruction} (hskip : guest.skip = false)
    (h : guest.step = .ok instruction guest') :
    ∃ written : Option (Word × Word), guest.stores = written.toList ∧
      instruction.slot? guest.registers guest.memory = written.map Prod.fst ∧
      ∀ store ∈ written,
        instruction.stored? guest.registers guest.memory = some store.2 := by
  rw [step] at h
  split at h
  · contradiction
  · rename_i hfind
    rw [if_neg (ne_true_of_eq_false hskip)] at h
    split at h
    · rename_i registers written skip heffect
      injection h with hinstruction _
      rw [← hinstruction]
      refine ⟨written, by simp [stores, hfind, hskip, heffect], ?_⟩
      exact (Instruction.completion_of_effect heffect).store_eq
    · contradiction

/-- A step makes at most one store: that of its instruction, if it is completed and not skipped. -/
theorem stores_eq (guest : Guest) :
    ∃ written : Option (Word × Word), guest.stores = written.toList ∧
      (guest.skip = true → written = none) ∧
      (∀ fault guest', guest.step = .error fault guest' → written = none) ∧
      ∀ instruction guest', guest.step = .ok instruction guest' → guest.skip = false →
        instruction.slot? guest.registers guest.memory = written.map Prod.fst ∧
          ∀ store ∈ written,
            instruction.stored? guest.registers guest.memory = some store.2 := by
  by_cases hdone : ∃ instruction guest', guest.step = .ok instruction guest' ∧ guest.skip = false
  · obtain ⟨instruction, guest', hstep, hskip⟩ := hdone
    obtain ⟨written, hstores, hwritten⟩ := stores_of_step_ok hskip hstep
    refine ⟨written, hstores, ?_, ?_, ?_⟩
    · intro hskip'
      rw [hskip] at hskip'
      contradiction
    · intro fault other herror
      rw [hstep] at herror
      contradiction
    · intro instruction' other hok _
      rw [hstep] at hok
      obtain ⟨rfl, -⟩ := EStateM.Result.ok.inj hok
      exact hwritten
  · have hnone : guest.stores = [] := by
      cases hstep : guest.step with
      | ok instruction guest' =>
        apply stores_of_skip
        by_contra hskip
        exact hdone ⟨instruction, guest', hstep, Bool.eq_false_iff.mpr hskip⟩
      | error fault guest' => exact stores_of_step_error hstep
    refine ⟨none, hnone, fun _ => rfl, fun _ _ _ => rfl, ?_⟩
    intro instruction guest' hstep hskip
    exact (hdone ⟨instruction, guest', hstep, hskip⟩).elim

end Guest

namespace Machine

variable {σ : Type} [Watcher σ]

theorem step_testifies (m : Machine σ) :
    ∃ events, Bus.Testifies events m.bus (finalState (step m)).bus := by
  obtain ⟨reports, hreports, hhears⟩ := step_tells m
  refine ⟨_, hhears, ?_⟩
  have hreads : m.memory.Bears (m.memory.reads (m.memory.reached m.guest.accesses)) :=
    Memory.bears_reads fun address hmem => Memory.lacks_of_mem_reached hmem
  rw [List.append_assoc]
  apply hreads.append
  apply Memory.bears_of_no_read
  intro address word hmem
  rcases List.mem_append.mp hmem with hmem | hmem
  · obtain ⟨store, -, hstore⟩ := List.mem_map.mp hmem
    contradiction
  · have hno := hreports _ hmem
    contradiction

theorem runAfter_testifies (done count : Nat) (m : Machine σ) :
    ∃ events, Bus.Testifies events m.bus (finalState (runAfter done count m)).bus := by
  induction count generalizing done m with
  | zero => exact ⟨[], .refl m.bus⟩
  | succ count ih =>
    obtain ⟨first, hfirst⟩ := step_testifies m
    simp only [runAfter]
    cases hstep : step m with
    | ok instruction m' =>
      rw [hstep] at hfirst
      obtain ⟨second, hsecond⟩ := ih (done + 1) m'
      exact ⟨first ++ second, hfirst.trans hsecond⟩
    | error fault m' =>
      rw [hstep] at hfirst
      exact ⟨_, hfirst.trans (m'.bus.testifies_announce rfl)⟩

end Machine

/-- What can be asked of a machine short of a reset. -/
inductive Request
  /-- Reads a word through the bus. -/
  | read (address : Nat)
  /-- Stores a word through the bus. -/
  | write (address value : Nat)
  /-- Looks at a word of memory itself. -/
  | peek (address : Nat)
  /-- Loads a program. -/
  | load (program : List Word)
  /-- Executes one instruction. -/
  | step
  /-- Executes a batch of instructions. -/
  | run (count : Nat)

namespace Request

variable {σ τ : Type}

/-- Whether the request is one access or one load. -/
def isAccess : Request → Bool
  | read _ | write .. | load _ => true
  | peek _ | step | run _ => false

variable [Watcher σ] [Watcher τ]

/-- Carries out a request, whose answer is of no interest here. -/
def attempt : Request → Action σ Unit
  | read address => discard (EStateM.adaptExcept Fault.memory (Machine.onBus (Bus.read address)))
  | write address value =>
    EStateM.adaptExcept Fault.memory (Machine.onBus (Bus.write address value))
  | peek address => discard (return (← get).memory.get? address)
  | load program => EStateM.adaptExcept Fault.memory (Machine.load program)
  | step => discard Machine.step
  | run count => discard (Machine.run count)

/-- The machine after requests, whether they fail or not. -/
def performAll (m : Machine σ) (requests : List Request) : Machine σ :=
  requests.foldl (fun m request => finalState (request.attempt m)) m

/-- The events that the watcher of a machine is told of in the course of requests. -/
def told (m : Machine σ) (requests : List Request) : List Event :=
  (performAll (m.mapWatcher Logged.start) requests).watcher.events

theorem tracks_attempt {f : σ → τ} (hf : Watcher.Respects f) (request : Request) :
    Tracks (Machine.mapWatcher f) request.attempt request.attempt := by
  cases request with
  | read address =>
    refine Tracks.bind ?_ fun _ => .pure _ ()
    exact (Machine.tracks_onBus (Bus.tracks_read hf address)).adaptExcept _
  | write address value => exact (Machine.tracks_onBus (Bus.tracks_write hf _ _)).adaptExcept _
  | peek address =>
    intro m
    rfl
  | load program => exact (Machine.tracks_onBus (Bus.tracks_load hf program)).adaptExcept _
  | step => exact (Machine.tracks_step hf).bind fun _ => .pure _ ()
  | run count => exact (Machine.tracks_run hf count).bind fun _ => .pure _ ()

theorem performAll_mapWatcher
    {f : σ → τ} (hf : Watcher.Respects f) (m : Machine σ) (requests : List Request) :
    performAll (m.mapWatcher f) requests = (performAll m requests).mapWatcher f := by
  induction requests generalizing m with
  | nil => rfl
  | cons request requests ih =>
    change performAll (finalState (request.attempt (m.mapWatcher f))) requests = _
    rw [tracks_attempt hf, finalState_mapState, ih]
    rfl

/-- An access through a machine is one through its bus. -/
theorem onBus_of_accesses
    {α : Type} {operation : EStateM MemoryFault (Bus σ) α}
    (h : Bus.Accesses operation) (m : Machine σ) :
    (∃ answer m' events,
      EStateM.adaptExcept Fault.memory (Machine.onBus operation) m = .ok answer m' ∧
        Bus.Testifies events m.bus m'.bus) ∨
    ∃ fault, EStateM.adaptExcept Fault.memory (Machine.onBus operation) m = .error fault m := by
  obtain ⟨registers, bus, steps, skip, span⟩ := m
  rcases h bus with ⟨answer, bus', events, hok, htestifies⟩ | ⟨fault, herror⟩
  · left
    exact ⟨answer, ⟨registers, bus', steps, skip, span⟩, events,
      by simp only [EStateM.adaptExcept, Machine.onBus, hok], htestifies⟩
  · right
    exact ⟨.memory fault, by simp only [EStateM.adaptExcept, Machine.onBus, herror]⟩

/-- An access or a load is told of, or it is refused and nothing has happened. -/
theorem attempt_of_isAccess {request : Request} (h : request.isAccess = true) (m : Machine σ) :
    (∃ m' events, request.attempt m = .ok () m' ∧ Bus.Testifies events m.bus m'.bus) ∨
      ∃ fault, request.attempt m = .error fault m := by
  cases request with
  | read address =>
    rcases onBus_of_accesses (Bus.accesses_read address) m with
      ⟨answer, m', events, hok, htestifies⟩ | ⟨fault, herror⟩
    · exact .inl ⟨m', events, bind_of_ok hok, htestifies⟩
    · exact .inr ⟨fault, bind_of_error herror⟩
  | write address value =>
    rcases onBus_of_accesses (Bus.accesses_write address value) m with
      ⟨answer, m', events, hok, htestifies⟩ | hrefused
    · exact .inl ⟨m', events, hok, htestifies⟩
    · exact .inr hrefused
  | load program =>
    rcases onBus_of_accesses (Bus.accesses_load program) m with
      ⟨answer, m', events, hok, htestifies⟩ | hrefused
    · exact .inl ⟨m', events, hok, htestifies⟩
    · exact .inr hrefused
  | peek address => contradiction
  | step => contradiction
  | run count => contradiction

/-- The watcher is told of all that a request does to the bus. -/
theorem attempt_testifies (request : Request) (m : Machine σ) :
    ∃ events, Bus.Testifies events m.bus (finalState (request.attempt m)).bus := by
  by_cases haccess : request.isAccess = true
  · rcases attempt_of_isAccess haccess m with ⟨m', events, hok, htestifies⟩ | ⟨fault, herror⟩
    · rw [hok]
      exact ⟨events, htestifies⟩
    · rw [herror]
      exact ⟨[], .refl m.bus⟩
  · cases request with
    | step =>
      have hstep : finalState (step.attempt m) = finalState m.step :=
        finalState_bind_pure Machine.step () m
      rw [hstep]
      exact m.step_testifies
    | run count =>
      have hrun : finalState ((run count).attempt m) = finalState (Machine.runAfter 0 count m) :=
        (finalState_bind_pure (Machine.run count) () m).trans
          (finalState_bind_pure (Machine.runAfter 0 count) count m)
      rw [hrun]
      exact m.runAfter_testifies 0 count
    | peek address => exact ⟨[], .refl m.bus⟩
    | _ => contradiction

theorem performAll_testifies (m : Machine σ) (requests : List Request) :
    ∃ events, Bus.Testifies events m.bus (performAll m requests).bus := by
  induction requests generalizing m with
  | nil => exact ⟨[], .refl m.bus⟩
  | cons request requests ih =>
    obtain ⟨first, hfirst⟩ := request.attempt_testifies m
    obtain ⟨second, hsecond⟩ := ih (finalState (request.attempt m))
    exact ⟨first ++ second, hfirst.trans hsecond⟩

/-- The log does not change what is done. -/
theorem performAll_logged (m : Machine σ) (requests : List Request) :
    (performAll (m.mapWatcher Logged.start) requests).mapWatcher Logged.watcher =
      performAll m requests := by
  rw [← performAll_mapWatcher Logged.observes_watcher]
  rfl

/-- What is told in the course of requests is what is told of one after the other. -/
theorem told_append (m : Machine σ) (first second : List Request) :
    told m (first ++ second) = told m first ++ told (performAll m first) second := by
  let resume (logged : Logged σ) : Logged σ := ⟨logged.watcher, told m first ++ logged.events⟩
  have hresume : Watcher.Respects resume := by
    intro event logged
    change Logged.mk _ (told m first ++ (logged.events ++ [event])) = Logged.mk _ _
    rw [← List.append_assoc]
    rfl
  have hfirst : performAll (m.mapWatcher Logged.start) first =
      ((performAll m first).mapWatcher Logged.start).mapWatcher resume := by
    rw [← performAll_logged m first]
    simp only [Machine.mapWatcher, Bus.mapWatcher, Logged.start, resume, List.append_nil]
    rfl
  have hall : performAll (m.mapWatcher Logged.start) (first ++ second) =
      (performAll ((performAll m first).mapWatcher Logged.start) second).mapWatcher resume := by
    rw [← performAll_mapWatcher hresume, ← hfirst]
    exact List.foldl_append
  rw [told, hall]
  rfl

/-- The watcher is told of all that requests do to the bus. -/
theorem told_testifies (m : Machine σ) (requests : List Request) :
    Bus.Testifies (told m requests) m.bus (performAll m requests).bus := by
  obtain ⟨events, htestifies⟩ := performAll_testifies (m.mapWatcher Logged.start) requests
  obtain ⟨hhears, hevents⟩ := htestifies.toHears.forget
  have htold : told m requests = events := hevents
  rw [← performAll_logged, htold]
  exact ⟨hhears, htestifies.bears⟩

theorem told_of_refused
    {m m' : Machine σ} {request : Request} {fault : Fault} (haccess : request.isAccess = true)
    (h : request.attempt m = .error fault m') : told m [request] = [] := by
  rcases attempt_of_isAccess haccess (m.mapWatcher Logged.start) with
    ⟨n, events, hok, -⟩ | ⟨fault', herror⟩
  · have hplain := tracks_attempt Logged.observes_watcher request (m.mapWatcher Logged.start)
    rw [hok] at hplain
    change request.attempt m = _ at hplain
    rw [h] at hplain
    contradiction
  · change (finalState (request.attempt (m.mapWatcher Logged.start))).watcher.events = []
    rw [herror]
    rfl

/-- A step tells of its reads and then of its store, if it makes one. -/
theorem told_step (m : Machine σ) :
    ∃ reports : List Event, (∀ event ∈ reports, event.isAccess = false) ∧
      told m [step] = m.memory.reads (m.memory.reached m.guest.accesses) ++
        m.guest.stores.map (fun store => .wrote store.1 store.2) ++ reports := by
  obtain ⟨reports, hreports, hhears⟩ := Machine.step_tells (m.mapWatcher Logged.start)
  refine ⟨reports, hreports, ?_⟩
  have hstep : finalState (step.attempt (m.mapWatcher Logged.start)) =
      finalState (Machine.step (m.mapWatcher Logged.start)) :=
    finalState_bind_pure Machine.step () _
  change (finalState (step.attempt (m.mapWatcher Logged.start))).bus.watcher.events = _
  rw [hstep, hhears.forget.2]
  rfl

/-- Whatever is asked of a machine, its watcher is told a faithful history, which alone makes up
what becomes of the watcher.  The stores, made once more over the words of the beginning, give those
of the end.  A read tells of the word that was latest stored at its address, or that was there at
the beginning.  A refused access, a look at memory itself and a refused load leave no trace.  A step
tells of its reads in their order, up to the first that fails: that of the instruction, then for
each operand that of its own word and that of its place, if it has one.  The store comes last, is
that of the instruction, and is missing if the step fails or is skipped. -/
theorem told_faithful (m : Machine σ) (requests : List Request) :
    let events := told m requests
    let last := performAll m requests
    last.watcher = Watcher.tell events m.watcher ∧
    last.memory = m.memory.putAll (Event.stores events) ∧
    (∀ before address word after, events = before ++ .read address word :: after →
      Event.Latest before address word ∨
        ((∀ other, .wrote address other ∉ before) ∧
          m.memory.get? address.toNat = some word)) ∧
    (∀ request, told m (requests ++ [request]) = events ++ told last [request]) ∧
    (∀ request fault rest, request.isAccess = true → request.attempt last = .error fault rest →
      told last [request] = []) ∧
    (∀ address, told last [peek address] = []) ∧
    ∃ (written : Option (Word × Word)) (reports : List Event),
      told last [step] =
        last.memory.reads (last.memory.reached last.guest.accesses) ++
          written.toList.map (fun store => .wrote store.1 store.2) ++ reports ∧
      (∀ event ∈ reports, event.isAccess = false) ∧
      (last.skip = true → written = none) ∧
      (∀ fault rest, last.step = .error fault rest → written = none) ∧
      ∀ instruction rest, last.step = .ok instruction rest → last.skip = false →
        instruction.slot? last.registers last.memory = written.map Prod.fst ∧
          ∀ store ∈ written,
            instruction.stored? last.registers last.memory = some store.2 := by
  intro events last
  have htold := told_testifies m requests
  refine ⟨htold.watcher, htold.memory, ?_, fun request => told_append m requests [request], ?_,
    fun _ => rfl, ?_⟩
  · intro before address word after heq
    obtain ⟨hhit, rfl⟩ := htold.bears before address word after heq
    rcases Memory.latest_or_untouched before hhit with hlatest | ⟨hnone, hword⟩
    · exact .inl hlatest
    · right
      rw [hword]
      exact ⟨hnone, Memory.get?_eq_some_wordAt hhit⟩
  · intro request fault rest haccess herror
    exact told_of_refused haccess herror
  · obtain ⟨reports, hreports, hstep⟩ := told_step last
    obtain ⟨written, hstores, hskip, hfails, hcompletes⟩ := last.guest.stores_eq
    rw [hstores] at hstep
    refine ⟨written, reports, hstep, hreports, hskip, ?_, ?_⟩
    · intro fault rest herror
      exact hfails fault rest.guest (Machine.guest_step_of_error herror)
    · intro instruction rest hok
      exact hcompletes instruction rest.guest (Machine.guest_step_of_ok hok)

end Request

end WordMachine
