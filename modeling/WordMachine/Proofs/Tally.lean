import WordMachine.Debugger.Basic
import WordMachine.Proofs.Session

/-!
# The debugger's tally of packets

A debugger collects packets after every step and every batch, and counts those that it is given.  A
round is what was sent between two collections.  The outbox holds only the latest packets of a
round, so those that a longer round has lost are not in the tally.
-/

namespace WordMachine

/-- What the user of a debugger can do. -/
inductive Command
  /-- Executes one instruction. -/
  | step
  /-- Lets ticks execute instructions. -/
  | run
  /-- Keeps ticks from executing instructions. -/
  | pause
  /-- Executes a batch while running. -/
  | tick
  /-- Collects packets. -/
  | deliver
  /-- Types on the keyboard of the machine. -/
  | pressKey (key : Word)
  /-- Gives the keys to the machine or takes them back. -/
  | toggleCapture
  /-- Scrolls the view of memory. -/
  | scroll (rows : Nat)
  /-- Begins the session anew. -/
  | reset
  deriving DecidableEq

namespace Command

variable {σ : Type} [Hosted σ]

/-- The debugger after a command. -/
def perform (debugger : Debugger σ) : Command → Debugger σ
  | step => debugger.step
  | run => debugger.run
  | pause => debugger.pause
  | tick => debugger.tick
  | deliver => debugger.deliver
  | pressKey key => debugger.pressKey key
  | toggleCapture => debugger.toggleCapture
  | scroll rows => { debugger with scroll := rows }
  | reset => debugger.reset

/-- What a command does to the machine before packets are collected. -/
def operations (debugger : Debugger σ) : Command → List Operation
  | step => [.step]
  | tick => if debugger.running then [.run debugger.batchSize] else []
  | pressKey key => [.pressKey key]
  | reset => [.reset false, .load debugger.program]
  | run | pause | deliver | toggleCapture | scroll _ => []

/-- Whether packets are collected at the end of a command. -/
def collects (debugger : Debugger σ) : Command → Bool
  | step | deliver => true
  | tick => debugger.running
  | run | pause | pressKey _ | toggleCapture | scroll _ | reset => false

end Command

namespace Debugger

variable {σ : Type}

theorem onMachine_eq
    {ε α : Type} (operation : EStateM ε (Machine σ) α) (debugger : Debugger σ) :
    onMachine operation debugger =
      mapState (fun machine => { debugger with machine }) (operation debugger.machine) := by
  cases debugger with
  | mk machine =>
    simp only [onMachine]
    cases operation machine <;> rfl

/-- The second debugger has the machine, and the tally of the first. -/
structure Worked (debugger worked : Debugger σ) (machine : Machine σ) : Prop where
  machine : worked.machine = machine
  sentTotal : worked.sentTotal = debugger.sentTotal
  lastSent : worked.lastSent = debugger.lastSent

theorem toggleCapture_worked (debugger : Debugger σ) :
    debugger.Worked debugger.toggleCapture debugger.machine := by
  rw [toggleCapture]
  split <;> exact ⟨rfl, rfl, rfl⟩

variable [Hosted σ]

theorem step_worked (debugger : Debugger σ) :
    ∃ worked, debugger.step = worked.deliver ∧
      debugger.Worked worked (finalState debugger.machine.step) := by
  simp only [step, onMachine_eq]
  cases debugger.machine.step with
  | ok instruction m => exact ⟨_, rfl, rfl, rfl, rfl⟩
  | error fault m => exact ⟨_, rfl, rfl, rfl, rfl⟩

theorem tick_worked {debugger : Debugger σ} (h : debugger.running = true) :
    ∃ worked, debugger.tick = worked.deliver ∧
      debugger.Worked worked (finalState (debugger.machine.run debugger.batchSize)) := by
  simp only [tick, if_pos h, onMachine_eq]
  cases debugger.machine.run debugger.batchSize with
  | ok count m => exact ⟨_, rfl, rfl, rfl, rfl⟩
  | error fault m => exact ⟨_, rfl, rfl, rfl, rfl⟩

theorem pressKey_worked (key : Word) (debugger : Debugger σ) :
    debugger.Worked (debugger.pressKey key) (finalState (debugger.machine.pressKey key)) := by
  simp only [pressKey, onMachine_eq]
  cases debugger.machine.pressKey key with
  | ok _ m => exact ⟨rfl, rfl, rfl⟩
  | error fault m => exact ⟨rfl, rfl, rfl⟩

/-- A reset begins the tally anew. -/
theorem reset_worked (debugger : Debugger σ) :
    ({ debugger with sentTotal := 0, lastSent := none } : Debugger σ).Worked debugger.reset
      (finalState (debugger.machine.restart debugger.program)) := by
  simp only [reset, onMachine_eq]
  cases debugger.machine.restart debugger.program with
  | ok _ m => exact ⟨rfl, rfl, rfl⟩
  | error fault m => exact ⟨rfl, rfl, rfl⟩

end Debugger

/-- A command works on the machine with the tally as it is, or with none after a reset, and then
collects packets if it does so at all. -/
theorem Command.perform_eq
    {σ : Type} [Hosted σ] (debugger : Debugger σ) (command : Command) :
    ∃ worked : Debugger σ,
      command.perform debugger =
        (if command.collects debugger then worked.deliver else worked) ∧
      worked.machine =
        (command.operations debugger).foldl (fun m operation => operation.perform m)
          debugger.machine ∧
      worked.sentTotal = (if command = reset then 0 else debugger.sentTotal) ∧
      worked.lastSent = if command = reset then none else debugger.lastSent := by
  cases command with
  | step =>
    obtain ⟨worked, hstep, hmachine, htotal, hlast⟩ := debugger.step_worked
    exact ⟨worked, hstep, hmachine, htotal, hlast⟩
  | tick =>
    by_cases hrunning : debugger.running = true
    · obtain ⟨worked, htick, hmachine, htotal, hlast⟩ := Debugger.tick_worked hrunning
      refine ⟨worked, htick.trans (if_pos hrunning).symm, ?_, htotal, hlast⟩
      rw [operations, if_pos hrunning]
      exact hmachine
    · have hidle : debugger.tick = debugger := if_neg hrunning
      refine ⟨debugger, hidle.trans (if_neg hrunning).symm, ?_, rfl, rfl⟩
      rw [operations, if_neg hrunning]
      rfl
  | pressKey key =>
    obtain ⟨hmachine, htotal, hlast⟩ := debugger.pressKey_worked key
    exact ⟨_, rfl, hmachine, htotal, hlast⟩
  | reset =>
    obtain ⟨hmachine, htotal, hlast⟩ := debugger.reset_worked
    exact ⟨_, rfl, hmachine, htotal, hlast⟩
  | toggleCapture =>
    obtain ⟨hmachine, htotal, hlast⟩ := debugger.toggleCapture_worked
    exact ⟨_, rfl, hmachine, htotal, hlast⟩
  | run | pause | scroll rows => exact ⟨_, rfl, rfl, rfl, rfl⟩
  | deliver => exact ⟨debugger, rfl, rfl, rfl, rfl⟩

/-- While the card follows memory, the packets of the outbox are collected and counted. -/
theorem Debugger.deliver_of_follows
    {debugger : Debugger Peripherals}
    (h : debugger.machine.devices.network.Follows debugger.machine.memory) :
    debugger.deliver =
      ({ debugger with machine := Operation.drain.perform debugger.machine }).count
        debugger.machine.devices.network.outbox := by
  rw [deliver, onMachine_eq, (Operation.perform_drain h).1]
  rfl

/-- A debugger with the packets that its machine has sent since the session began: those of the
rounds that ended with packets being collected, and those that were sent since. -/
structure Debugging where
  /-- The debugger. -/
  debugger : Debugger Peripherals
  /-- The packets of each round, the earliest round first. -/
  rounds : List (List Packet)
  /-- The packets that were sent since packets were last collected. -/
  waiting : List Packet

namespace Debugging

/-- A session of debugging on a machine that has sent nothing so far. -/
def start (machine : Machine Peripherals) (program : List Word) (batchSize : Nat) : Debugging where
  debugger := .start machine program batchSize
  rounds := []
  waiting := []

/-- The machine with what waits to be collected from it. -/
def session (state : Debugging) : Session :=
  ⟨state.debugger.machine, state.waiting, []⟩

/-- All packets that were sent, in the order in which they were sent. -/
def sent (state : Debugging) : List Packet :=
  state.rounds.flatten ++ state.waiting

/-- The packets that wait once a command has worked on the machine. -/
def waitingAfter (state : Debugging) (command : Command) : List Packet :=
  (state.session.nexts (command.operations state.debugger)).sent

/-- The state after one more command. -/
def next (state : Debugging) (command : Command) : Debugging :=
  let rounds := if command = .reset then [] else state.rounds
  let waiting := state.waitingAfter command
  if command.collects state.debugger then
    ⟨command.perform state.debugger, rounds ++ [waiting], []⟩
  else
    ⟨command.perform state.debugger, rounds, waiting⟩

/-- The state after more commands. -/
def after (state : Debugging) (commands : List Command) : Debugging :=
  commands.foldl next state

/-- The outbox holds the latest of what waits, and the tally is of the latest of each round. -/
structure Tallied (state : Debugging) : Prop where
  sound : state.session.Sound
  total : state.debugger.sentTotal = (state.rounds.map latest).flatten.length
  last : state.debugger.lastSent = state.rounds.flatten.getLast?

variable {state : Debugging}

theorem tallied_start
    {machine : Machine Peripherals}
    (hfollows : machine.devices.network.Follows machine.memory)
    (houtbox : machine.devices.network.outbox = []) (program : List Word) (batchSize : Nat) :
    (start machine program batchSize).Tallied where
  sound := ⟨hfollows, houtbox.trans latest_nil.symm⟩
  total := rfl
  last := rfl

/-- What is collected are the latest packets of the round that ends. -/
theorem Tallied.collect
    {worked : Debugger Peripherals} {rounds : List (List Packet)} {waiting : List Packet}
    (h : (⟨worked, rounds, waiting⟩ : Debugging).Tallied) :
    (⟨worked.deliver, rounds ++ [waiting], []⟩ : Debugging).Tallied := by
  have houtbox : worked.machine.devices.network.outbox = latest waiting := h.sound.outbox
  have htotal : worked.sentTotal = (rounds.map latest).flatten.length := h.total
  have hlast : worked.lastSent = rounds.flatten.getLast? := h.last
  obtain ⟨-, -, hfollows, hempty, -⟩ := Operation.perform_drain h.sound.follows
  rw [Debugger.deliver_of_follows h.sound.follows, houtbox]
  constructor
  case sound => exact ⟨hfollows, hempty.trans latest_nil.symm⟩
  case total =>
    simp only [Debugger.count, htotal, List.map_append, List.flatten_append, List.map_singleton,
      List.flatten_singleton, List.length_append]
  case last =>
    simp only [Debugger.count, hlast, getLast?_latest, List.flatten_append, List.flatten_singleton,
      List.getLast?_append]

/-- A command leaves the tally right. -/
theorem Tallied.next (h : state.Tallied) (command : Command) : (state.next command).Tallied := by
  obtain ⟨worked, hperform, hmachine, htotal, hlast⟩ := command.perform_eq state.debugger
  let rounds := if command = .reset then [] else state.rounds
  have hworked : (⟨worked, rounds, state.waitingAfter command⟩ : Debugging).Tallied := by
    constructor
    case sound =>
      obtain ⟨hfollows, houtbox⟩ := h.sound.nexts (command.operations state.debugger)
      rw [Session.machine_nexts] at hfollows houtbox
      rw [session, hmachine]
      exact ⟨hfollows, houtbox⟩
    case total =>
      rw [htotal, h.total]
      simp only [rounds]
      split <;> rfl
    case last =>
      rw [hlast, h.last]
      simp only [rounds]
      split <;> rfl
  rw [Debugging.next, hperform]
  cases command.collects state.debugger with
  | true => exact hworked.collect
  | false => exact hworked

theorem Tallied.after (h : state.Tallied) (commands : List Command) :
    (state.after commands).Tallied := by
  induction commands generalizing state with
  | nil => exact h
  | cons command commands ih => exact ih (h.next command)

/-- Until a reset nothing waits when a command has ended, since keys send nothing. -/
theorem waiting_next_eq_nil
    (h : state.waiting = []) {command : Command} (hreset : command ≠ .reset) :
    (state.next command).waiting = [] := by
  cases hcollects : command.collects state.debugger with
  | true => rw [next, if_pos hcollects]
  | false =>
    rw [next, if_neg (ne_true_of_eq_false hcollects)]
    change state.waitingAfter command = []
    cases command with
    | step | deliver => contradiction
    | reset => exact (hreset rfl).elim
    | tick =>
      have hnone : Command.tick.operations state.debugger = [] :=
        if_neg (ne_true_of_eq_false hcollects)
      rw [waitingAfter, hnone]
      exact h
    | pressKey key =>
      have hinput : (Operation.pressKey key).isInput = true := rfl
      have hsends := Operation.sends_of_isInput state.debugger.machine hinput
      change state.waiting ++ _ = []
      rw [h, List.nil_append]
      exact hsends
    | run | pause | toggleCapture | scroll rows => exact h

theorem waiting_after_eq_nil
    (h : state.waiting = []) {commands : List Command}
    (hcommands : ∀ command ∈ commands, command ≠ .reset) : (state.after commands).waiting = [] := by
  induction commands generalizing state with
  | nil => exact h
  | cons command commands ih =>
    have hreset := hcommands command List.mem_cons_self
    exact ih (waiting_next_eq_nil h hreset) fun other hother =>
      hcommands other (List.mem_cons_of_mem command hother)

theorem length_flatten_latest_le (rounds : List (List Packet)) :
    (rounds.map latest).flatten.length ≤ rounds.flatten.length := by
  induction rounds with
  | nil => exact Nat.le_refl 0
  | cons round rounds ih =>
    simp only [List.map_cons, List.flatten_cons, List.length_append, length_latest] at ih ⊢
    omega

/-- The latest packets of the rounds are all packets just when nothing waits and no round has more
than the outbox holds. -/
theorem length_flatten_latest_eq_iff {rounds : List (List Packet)} {waiting : List Packet} :
    (rounds.map latest).flatten.length = (rounds.flatten ++ waiting).length ↔
      (∀ round ∈ rounds, round.length ≤ NetworkCard.outboxLimit) ∧ waiting = [] := by
  induction rounds with
  | nil => simp [eq_comm]
  | cons round rounds ih =>
    have hle := length_flatten_latest_le rounds
    rw [List.forall_mem_cons, and_assoc, ← ih]
    simp only [List.map_cons, List.flatten_cons, List.length_append, length_latest] at hle ⊢
    omega

end Debugging

/-- The next `count` instructions of the program all store 3 to the same data word, whose receiver
word is not zero. -/
structure Guest.Sending (guest : Guest) (count : Nat) : Prop where
  full : guest.memory.capacity = addressSpace
  executes : guest.skip = false
  data : IsData guest.registers.a
  receiver : guest.memory.wordAt (guest.registers.a - 1) ≠ 0
  code : ∀ k < count, guest.memory.wordAt (guest.registers.pc + UInt16.ofNat k) = 0x8c81
  apart : ∀ k < count, guest.registers.pc + UInt16.ofNat k ≠ guest.registers.a

namespace Guest.Sending

variable {guest : Guest} {count : Nat}

/-- Each of the instructions makes its store and leaves the others to be executed. -/
theorem step (h : guest.Sending (count + 1)) :
    ∃ instruction guest', guest.step = .ok instruction guest' ∧ guest'.Sending count ∧
      guest.stores = [(guest.registers.a, 3)] ∧
      guest'.memory = guest.memory.put guest.registers.a 3 := by
  have hword : guest.memory.wordAt guest.registers.pc = 0x8c81 := by
    have hcode : guest.memory.wordAt (guest.registers.pc + 0) = 0x8c81 :=
      h.code 0 (Nat.succ_pos count)
    rwa [UInt16.add_zero] at hcode
  have hinstruction : guest.instruction = .basic .set (.indirect .a) (.literal 3) := by
    rw [instruction, hword]
    rfl
  have heffect : guest.effect =
      .completes guest.registers (some (guest.registers.a, 3)) false := by
    rw [effect, hinstruction]
    rfl
  have hfind := Memory.find?_lacks_of_full h.full guest.accesses
  have hstep := Guest.step_of_completes hfind h.executes heffect
  rw [hinstruction] at hstep
  have hpred : guest.registers.a - 1 ≠ guest.registers.a := by
    intro heq
    apply h.data.not_pred
    rw [heq]
    exact h.data
  refine ⟨_, _, hstep, ?_, ?_, rfl⟩
  · constructor
    case full => exact (Memory.capacity_putAll _ _).trans h.full
    case executes => rfl
    case data => exact h.data
    case receiver =>
      change (guest.memory.put _ _).wordAt (guest.registers.a - 1) ≠ 0
      rw [Memory.wordAt_put_of_ne _ _ hpred]
      exact h.receiver
    case code =>
      intro k hk
      have hne := h.apart (k + 1) (Nat.succ_lt_succ hk)
      have hcode := h.code (k + 1) (Nat.succ_lt_succ hk)
      rw [Word.add_ofNat_succ] at hne hcode
      exact (Memory.wordAt_put_of_ne _ _ hne).trans hcode
    case apart =>
      intro k hk
      have hne := h.apart (k + 1) (Nat.succ_lt_succ hk)
      rw [Word.add_ofNat_succ] at hne
      exact hne
  · simp [stores, hfind, h.executes, heffect]

/-- So a batch of them sends as many packets as it has instructions. -/
theorem length_sends (h : guest.Sending count) :
    (guest.memory.sends (guest.batchStores count)).length = count := by
  induction count generalizing guest with
  | zero => rfl
  | succ count ih =>
    obtain ⟨instruction, guest', hstep, hrest, hstores, hmemory⟩ := h.step
    have hsend : guest.memory.send? (guest.registers.a, 3) =
        some ⟨guest.memory.wordAt (guest.registers.a - 1), 3⟩ :=
      if_pos ⟨h.data, h.receiver⟩
    have hlength := ih hrest
    rw [hmemory] at hlength
    rw [batchStores, hstores, hstep, List.singleton_append, Memory.sends, hsend, List.length_append,
      hlength]
    exact Nat.add_comm 1 count

end Guest.Sending

namespace Debugging

/-- A tick that runs is a round of its own. -/
theorem rounds_run_tick
    (machine : Machine Peripherals) (program : List Word) (batchSize : Nat) :
    ((start machine program batchSize).after [.run, .tick]).rounds =
      [machine.memory.sends (machine.guest.batchStores (max batchSize 1))] := by
  rw [← Operation.stores_run]
  rfl

/-- A machine whose first 300 words store 3 to a data word with hub 14 as its receiver. -/
def flooding : Machine Peripherals where
  registers := { a := 0x6081 }
  bus :=
    { memory :=
        { words := Array.ofFn fun n : Fin 65536 =>
            if n.val < 300 then 0x8c81 else if n.val = 0x6080 then 14 else 0
          size_le := Nat.le_of_eq Array.size_ofFn }
      watcher :=
        { Peripherals.powerOn 1 with
          network :=
            { NetworkCard.powerOn 1 with outbound := (Vector.replicate 128 0).set 0 14 } } }

theorem capacity_flooding : flooding.guest.memory.capacity = addressSpace := by
  simp only [flooding, Machine.guest, Machine.memory, Memory.capacity, Array.size_ofFn,
    addressSpace]

theorem getD_flooding {n : Nat} (h : n < addressSpace) :
    flooding.memory.getD n = if n < 300 then 0x8c81 else if n = 0x6080 then 14 else 0 := by
  have hlt : n < 65536 := h
  simp [flooding, Machine.memory, Memory.getD, Memory.get?, hlt]

theorem sending_flooding : flooding.guest.Sending 300 := by
  have hword {k : Nat} (hk : k < 300) :
      flooding.guest.registers.pc + UInt16.ofNat k = UInt16.ofNat k ∧
        (UInt16.ofNat k).toNat = k :=
    ⟨UInt16.zero_add _, UInt16.toNat_ofNat_of_lt' (Nat.lt_trans hk (by decide))⟩
  constructor
  case full => exact capacity_flooding
  case executes => rfl
  case data => decide
  case receiver =>
    have hpeer : flooding.memory.getD 0x6080 = 14 := getD_flooding (by decide)
    have hpred : flooding.guest.registers.a - 1 = 0x6080 := by decide
    rw [hpred]
    exact ne_of_eq_of_ne hpeer (by decide)
  case code =>
    intro k hk
    obtain ⟨hpc, hk'⟩ := hword hk
    have hcode := getD_flooding (Nat.lt_trans hk (by decide))
    rw [if_pos hk] at hcode
    rw [hpc, Memory.wordAt, hk']
    exact hcode
  case apart =>
    intro k hk heq
    obtain ⟨hpc, hk'⟩ := hword hk
    have hsame : k = (0x6081 : Word).toNat := by
      rw [← hk', ← hpc, heq]
      rfl
    rw [hsame] at hk
    exact absurd hk (by decide)

theorem follows_flooding : flooding.devices.network.Follows flooding.memory where
  mirror k := by
    have hlt := k.isLt
    have hcopy : flooding.devices.network.outbound.get k = if k = 0 then 14 else 0 := by
      have hset := vector_get_set (Vector.replicate 128 (0 : Word)) 0 k 14
      have hzero : (Vector.replicate 128 (0 : Word)).get k = 0 := Vector.getElem_replicate hlt
      rw [hzero] at hset
      exact hset
    have hinside : 0x6080 + k.val < addressSpace := by
      rw [addressSpace]
      omega
    have hfar : ¬0x6080 + k.val < 300 := by omega
    rw [hcopy, getD_flooding hinside, if_neg hfar]
    congr 1
    rw [eq_iff_iff, Fin.ext_iff]
    change k.val = 0 ↔ _
    omega
  marked _ hdata := (WordSet.not_mem_empty hdata).elim

/-- Whatever the user does, the tally is of the packets of each round that the outbox still had at
its end, and the packet shown is the last of all rounds.  The tally is of all packets that were sent
just when no round had more than the outbox holds and nothing waits; before a reset nothing ever
does. -/
theorem tally_after
    {machine : Machine Peripherals}
    (hfollows : machine.devices.network.Follows machine.memory)
    (houtbox : machine.devices.network.outbox = []) (program : List Word) (batchSize : Nat)
    (commands : List Command) :
    let state := (start machine program batchSize).after commands
    state.debugger.sentTotal = (state.rounds.map latest).flatten.length ∧
    state.debugger.lastSent = state.rounds.flatten.getLast? ∧
    (state.debugger.sentTotal = state.sent.length ↔
      (∀ round ∈ state.rounds, round.length ≤ 256) ∧ state.waiting = []) ∧
    ((∀ command ∈ commands, command ≠ .reset) → state.waiting = []) := by
  intro state
  have htallied := (tallied_start hfollows houtbox program batchSize).after commands
  refine ⟨htallied.total, htallied.last, ?_, waiting_after_eq_nil rfl⟩
  · rw [htallied.total]
    exact length_flatten_latest_eq_iff

/-- A tick of 300 instructions, each of which sends a packet, has 256 of them in the tally. -/
theorem tally_after_flooding :
    flooding.devices.network.Follows flooding.memory ∧ flooding.devices.network.outbox = [] ∧
      ∃ round : List Packet, round.length = 300 ∧
        let state := (start flooding (List.replicate 300 0x8c81) 300).after [.run, .tick]
        state.rounds = [round] ∧ state.sent.length = 300 ∧ state.debugger.sentTotal = 256 ∧
          state.debugger.lastSent = round.getLast? := by
  have hrounds := rounds_run_tick flooding (List.replicate 300 0x8c81) 300
  have hlength := sending_flooding.length_sends
  obtain ⟨htotal, hlast, -, hwaiting⟩ :=
    tally_after follows_flooding rfl (List.replicate 300 0x8c81) 300 [.run, .tick]
  refine ⟨follows_flooding, rfl, _, hlength, hrounds, ?_, ?_, ?_⟩
  · rw [sent, hrounds, hwaiting (by simp), List.flatten_singleton, List.append_nil]
    exact hlength
  · rw [htotal, hrounds, List.map_singleton, List.flatten_singleton, length_latest]
    exact congrArg (min · 256) hlength
  · rw [hlast, hrounds, List.flatten_singleton]
    rfl

/-- The tally is not of all packets that were sent, not even without a reset. -/
theorem not_sentTotal_eq_length_sent :
    ¬∀ (machine : Machine Peripherals) (program : List Word) (batchSize : Nat)
      (commands : List Command), machine.devices.network.Follows machine.memory →
      machine.devices.network.outbox = [] → (∀ command ∈ commands, command ≠ .reset) →
      let state := (start machine program batchSize).after commands
      state.debugger.sentTotal = state.sent.length ∧
        state.debugger.lastSent = state.sent.getLast? := by
  intro hall
  have htotal := (hall flooding (List.replicate 300 0x8c81) 300 [.run, .tick] follows_flooding rfl
    (by simp)).1
  have htallied := (tallied_start follows_flooding rfl (List.replicate 300 0x8c81) 300).after
    [.run, .tick]
  rw [htallied.total] at htotal
  have hshort := (length_flatten_latest_eq_iff.mp htotal).1
  rw [rounds_run_tick] at hshort
  have hle := hshort _ List.mem_cons_self
  have hlength := sending_flooding.length_sends
  exact absurd (Nat.le_trans (Nat.le_of_eq hlength.symm) hle) (by decide)

end Debugging

end WordMachine
