import WordMachine.Proofs.History

/-!
# Programs do not notice who watches

Devices react to stores, but a program gets to know nothing of it.  What comes of a step, of a batch
or of a load is a function of what the program can observe, so a machine with devices and one that
nobody watches give the same answers and go through the same states, as long as the host does not
store anything itself.
-/

namespace WordMachine

namespace Guest

/-- What comes of the steps of a batch, one after the other, up to the first that fails. -/
def batch : Nat → Guest → List (EStateM.Result Fault Guest Instruction)
  | 0, _ => []
  | count + 1, guest =>
    guest.step ::
      match guest.step with
      | .ok _ guest' => guest'.batch count
      | .error _ _ => []

/-- What comes of a batch as a whole: what comes of its last step, if it has steps. -/
def run (count : Nat) (guest : Guest) : EStateM.Result Fault Guest Unit :=
  match (guest.batch count).getLast? with
  | none => .ok () guest
  | some (.ok _ guest') => .ok () guest'
  | some (.error fault guest') => .error fault guest'

/-- What comes of loading a program. -/
def load (program : List Word) (guest : Guest) : EStateM.Result Fault Guest Unit :=
  if guest.memory.capacity < program.length then
    .error (.memory (.outOfRange (program.length - 1) guest.memory.capacity)) guest
  else
    .ok () { guest with memory := guest.memory.putAll (Bus.layout 0 program) }

theorem run_succ (count : Nat) (guest : Guest) :
    guest.run (count + 1) =
      match guest.step with
      | .ok _ guest' => guest'.run count
      | .error fault guest' => .error fault guest' := by
  rw [run, batch, List.getLast?_cons]
  cases hstep : guest.step with
  | ok instruction guest' =>
    simp only [run]
    cases (guest'.batch count).getLast? with
    | none => rfl
    | some last => cases last <;> rfl
  | error fault guest' => rfl

end Guest

namespace Machine

variable {σ : Type} [Watcher σ]

/-- What comes of the steps of a batch, one after the other, up to the first that fails. -/
def batch : Nat → Machine σ → List (EStateM.Result Fault (Machine σ) Instruction)
  | 0, _ => []
  | count + 1, m =>
    step m ::
      match step m with
      | .ok _ m' => batch count m'
      | .error _ _ => []

/-- The program observes the steps of a batch as a function of what it can observe before. -/
theorem guest_batch (count : Nat) (m : Machine σ) :
    (batch count m).map (mapState guest) = m.guest.batch count := by
  induction count generalizing m with
  | zero => rfl
  | succ count ih =>
    rw [batch, List.map_cons, Guest.batch, guest_step]
    congr 1
    cases hstep : step m with
    | ok instruction m' =>
      rw [guest_step_of_ok hstep]
      exact ih m'
    | error fault m' =>
      rw [guest_step_of_error hstep]
      rfl

/-- A batch comes to what its steps come to. -/
theorem guest_runAfter (done count : Nat) (m : Machine σ) :
    mapState guest (runAfter done count m) = m.guest.run count := by
  induction count generalizing done m with
  | zero => rfl
  | succ count ih =>
    simp only [runAfter, Guest.run_succ]
    cases hstep : step m with
    | ok instruction m' =>
      rw [guest_step_of_ok hstep]
      exact ih (done + 1) m'
    | error fault m' =>
      rw [guest_step_of_error hstep]
      rfl

theorem guest_load (program : List Word) (m : Machine σ) :
    mapState guest (EStateM.adaptExcept Fault.memory (load program) m) =
      m.guest.load program := by
  obtain ⟨registers, bus, steps, skip, span⟩ := m
  by_cases hlong : bus.memory.capacity < program.length
  · have hload : Guest.load program ⟨registers, bus.memory, steps, skip⟩ =
        .error (.memory (.outOfRange (program.length - 1) bus.memory.capacity))
          ⟨registers, bus.memory, steps, skip⟩ := if_pos hlong
    simp only [load, EStateM.adaptExcept, onBus, bus.load_of_long hlong]
    exact hload.symm
  · have hload : Guest.load program ⟨registers, bus.memory, steps, skip⟩ =
        .ok () ⟨registers, bus.memory.putAll (Bus.layout 0 program), steps, skip⟩ := if_neg hlong
    have hfits : program.length ≤ bus.memory.capacity := Nat.not_lt.mp hlong
    simp only [load, EStateM.adaptExcept, onBus, bus.load_of_fits hfits]
    refine Eq.trans ?_ hload.symm
    rw [← bus.memory_commitAll]
    rfl

end Machine

/-- What can be asked of a processor and its memory. -/
inductive Order
  /-- Loads a program. -/
  | load (program : List Word)
  /-- Executes one instruction. -/
  | step
  /-- Executes a batch of instructions. -/
  | run (count : Nat)

/-- What an order is answered when it does not fail. -/
inductive Answer
  | loaded
  | executed (instruction : Instruction)
  | ran (count : Nat)

/-- What is seen of an order: what comes of each of its steps and of the whole, with registers,
memory, step count and pending skip after each. -/
structure Observation where
  /-- What comes of the single steps. -/
  steps : List (EStateM.Result Fault Guest Instruction)
  /-- What comes of the order. -/
  answer : EStateM.Result Fault Guest Answer

namespace Order

variable {σ τ : Type} [Watcher σ] [Watcher τ]

/-- Carries out an order. -/
def carryOut : Order → Action σ Answer
  | load program => do
    EStateM.adaptExcept Fault.memory (Machine.load program)
    return .loaded
  | step => do
    let instruction ← Machine.step
    return .executed instruction
  | run count => do
    let completed ← Machine.run count
    return .ran completed

/-- What comes of the single steps of an order. -/
def steps (m : Machine σ) : Order → List (EStateM.Result Fault (Machine σ) Instruction)
  | load _ => []
  | step => m.batch 1
  | run count => m.batch count

/-- What is seen of an order that a machine carries out. -/
def observe (m : Machine σ) (order : Order) : Observation where
  steps := (order.steps m).map (mapState Machine.guest)
  answer := mapState Machine.guest (order.carryOut m)

/-- What is seen of orders that a machine carries out in turn, whether they fail or not. -/
def observeAll (m : Machine σ) : List Order → List Observation
  | [] => []
  | order :: orders => order.observe m :: observeAll (finalState (order.carryOut m)) orders

theorem mapState_bind_pure
    {ε S T α β : Type} (f : S → T) (g : α → β) (action : EStateM ε S α) (s : S) :
    mapState f ((action >>= fun a => pure (g a)) s) =
      match mapState f (action s) with
      | .ok a t => .ok (g a) t
      | .error e t => .error e t := by
  cases h : action s with
  | ok a s' =>
    rw [bind_of_ok h]
    rfl
  | error e s' =>
    rw [bind_of_error h]
    rfl

/-- Machines that a program cannot tell apart are seen to do the same. -/
theorem observe_congr
    {m : Machine σ} {n : Machine τ} (h : m.guest = n.guest) (order : Order) :
    order.observe m = order.observe n := by
  cases order with
  | load program =>
    simp only [observe, steps, carryOut, mapState_bind_pure, Machine.guest_load, h]
    rfl
  | step =>
    simp only [observe, steps, carryOut, mapState_bind_pure, Machine.guest_batch,
      Machine.guest_step, h]
  | run count =>
    simp only [observe, steps, carryOut, Machine.run, mapState_bind_pure, Machine.guest_batch,
      Machine.guest_runAfter, h]

/-- Peripherals never influence the program.  Of two machines that it cannot tell apart, one with
devices in whatever state and one that nobody watches, the same is seen whatever orders they carry
out: the same answers and the same failures, and after each step the same registers, words of
memory, step count and pending skip. -/
theorem observeAll_eq_of_guest_eq
    {m : Machine Peripherals} {n : Machine Unit} (h : m.guest = n.guest) (orders : List Order) :
    observeAll m orders = observeAll n orders := by
  induction orders generalizing m n with
  | nil => rfl
  | cons order orders ih =>
    have hobserve := observe_congr h order
    have hguest :
        (finalState (order.carryOut m)).guest = (finalState (order.carryOut n)).guest := by
      have hanswer := congrArg (finalState ∘ Observation.answer) hobserve
      simpa only [Function.comp_apply, observe, finalState_mapState] using hanswer
    rw [observeAll, observeAll, hobserve, ih hguest]

/-- A program that sends a packet and then goes on into words that are no part of it. -/
theorem observeAll_eq_of_guest_eq_sending :
    let m : Machine Peripherals := Machine.powerOn 0x6082 (Peripherals.powerOn 7)
    let n : Machine Unit := Machine.powerOn 0x6082 ()
    let orders : List Order := [.load [0xb9e1, 0x6080, 0x8de1, 0x6081], .run 2, .step, .run 60000]
    m.guest = n.guest ∧ observeAll m orders = observeAll n orders :=
  ⟨rfl, observeAll_eq_of_guest_eq rfl _⟩

end Order

end WordMachine
