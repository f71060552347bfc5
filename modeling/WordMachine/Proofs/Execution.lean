import WordMachine.Proofs.Reading

/-!
# What a step does

What comes of an instruction is a function of registers and memory: either it is completed, with new
registers and at most one store, or it fails.  `looksAt_step` says that a step reads its words and
operands and then does just this.  Everything else about steps is told from `effect`.
-/

namespace WordMachine

namespace Memory

/-- Stores a word at an address.  A store past the capacity changes nothing. -/
def put (memory : Memory) (address value : Word) : Memory :=
  if h : address.toNat < memory.capacity then memory.set address.toNat value h else memory

/-- Stores words at addresses, one after the other. -/
def putAll (memory : Memory) (stores : List (Word × Word)) : Memory :=
  stores.foldl (fun memory store => memory.put store.1 store.2) memory

@[simp]
theorem capacity_put (memory : Memory) (address value : Word) :
    (memory.put address value).capacity = memory.capacity := by
  rw [put]
  split <;> simp

theorem get?_put (memory : Memory) (address value : Word) (other : Nat) :
    (memory.put address value).get? other =
      if other = address.toNat ∧ other < memory.capacity then some value
      else memory.get? other := by
  rw [put]
  split
  · rename_i hlt
    rw [get?_set]
    congr 1
    rw [eq_iff_iff]
    constructor
    · rintro rfl
      exact ⟨rfl, hlt⟩
    · exact And.left
  · rename_i hge
    rw [if_neg]
    rintro ⟨rfl, hlt⟩
    exact hge hlt

theorem getD_put (memory : Memory) (address value : Word) (n : Nat) :
    (memory.put address value).getD n =
      if n = address.toNat ∧ n < memory.capacity then value else memory.getD n := by
  rw [getD, get?_put]
  split <;> rfl

theorem wordAt_put_of_ne
    (memory : Memory) {address other : Word} (value : Word) (h : other ≠ address) :
    (memory.put address value).wordAt other = memory.wordAt other := by
  rw [wordAt, getD_put, if_neg]
  · rfl
  · rintro ⟨hsame, -⟩
    exact h (UInt16.toNat_inj.mp hsame)

theorem wordAt_put_self {memory : Memory} {address : Word} (h : memory.lacks address = false)
    (value : Word) : (memory.put address value).wordAt address = value := by
  rw [wordAt, getD_put, if_pos ⟨rfl, lacks_eq_false_iff.mp h⟩]

theorem put_of_hit
    {memory : Memory} {address : Word} (h : memory.lacks address = false) (value : Word) :
    memory.put address value =
      memory.set address.toNat value (lacks_eq_false_iff.mp h) :=
  dif_pos _

end Memory

namespace Registers

/-- The registers after an operand has moved the stack pointer, if it does. -/
def moveStack (registers : Registers) : Operand → Registers
  | .pop => registers.pop.2
  | .push => registers.push.2
  | _ => registers

theorem get_moveStack_of_ne
    (registers : Registers) (operand : Operand) {r : Register} (hne : r ≠ .sp) :
    (registers.moveStack operand).get r = registers.get r := by
  cases operand with
  | pop => exact registers.get_set_of_ne (registers.sp + 1) hne
  | push => exact registers.get_set_of_ne (registers.sp - 1) hne
  | _ => rfl

@[simp]
theorem pc_moveStack (registers : Registers) (operand : Operand) :
    (registers.moveStack operand).pc = registers.pc :=
  registers.get_moveStack_of_ne operand (r := .pc) (by decide)

/-- The word that a call pushes to, once its operand has moved the stack pointer. -/
def callSlot (registers : Registers) (operand : Operand) : Word :=
  (registers.moveStack operand).sp - 1

theorem push_moveStack (registers : Registers) (operand : Operand) :
    (registers.moveStack operand).push.2 = registers.set .sp (registers.callSlot operand) := by
  cases operand <;> rfl

/-- The registers with a word in the overflow register, if there is a word for it. -/
def overflow (registers : Registers) : Option Word → Registers
  | some word => registers.set .o word
  | none => registers

end Registers

theorem Operand.mem_accesses_of_place
    {registers : Registers} {memory : Memory} {start address : Word} {operand : Operand}
    (h : operand.place registers memory start = .memory address) :
    address ∈ operand.accesses registers memory start := by
  refine List.mem_append_right _ ?_
  cases operand <;> simp_all [place, address?]

/-- What comes of an instruction. -/
inductive Effect
  /-- It is completed, with a store if it makes one, and the next instruction is skipped or not. -/
  | completes (registers : Registers) (stored : Option (Word × Word)) (skip : Bool)
  /-- It fails. -/
  | fails (fault : Fault) (registers : Registers)

namespace Instruction

/-- The length as a machine word. -/
def words (instruction : Instruction) : Word :=
  UInt16.ofNat instruction.length

theorem words_basic (op : BasicOp) (a b : Operand) :
    (basic op a b).words = 1 + a.ownWords + b.ownWords := by
  cases ha : a.usesNextWord <;> cases hb : b.usesNextWord <;>
    simp [words, length, operands, Operand.ownWords, ha, hb]

theorem words_special (op : SpecialOp) (a : Operand) :
    (special op a).words = 1 + a.ownWords := by
  cases ha : a.usesNextWord <;> simp [words, length, operands, Operand.ownWords, ha]

/-- The addresses at which the operands of the instruction are read. -/
def accesses (registers : Registers) (memory : Memory) : Instruction → List Word
  | basic _ a b =>
    a.accesses registers memory (registers.pc + 1) ++
      b.accesses registers memory (registers.pc + (1 + a.ownWords))
  | special _ a => a.accesses registers memory (registers.pc + 1)

end Instruction

/-- What comes of a basic instruction whose operands are resolved. -/
def BasicOp.effect (op : BasicOp) (registers : Registers) (target source : Resolved) : Effect :=
  let moved := (registers.moveStack target.operand).moveStack source.operand
  match op.apply target.value source.value, target.place with
  | .test passed, _ => .completes moved none (!passed)
  | .store result before after, .register r =>
    .completes (((moved.overflow before).set r result).overflow after) none false
  | .store result before after, .memory address =>
    .completes ((moved.overflow before).overflow after) (some (address, result)) false
  | .store _ _ _, .nowhere => .fails (.invalidTarget target.operand.code) registers

/-- What comes of a special instruction whose operand is resolved; `back` is the address of the next
instruction. -/
def SpecialOp.effect
    (op : SpecialOp) (registers : Registers) (memory : Memory) (operand : Resolved) (back : Word) :
    Effect :=
  let moved := registers.moveStack operand.operand
  match op with
  | .jsr =>
    if memory.lacks (moved.sp - 1) then
      .fails (.memory (.outOfRange (moved.sp - 1).toNat memory.capacity)) moved.push.2
    else
      .completes (moved.push.2.set .pc operand.value) (some (moved.sp - 1, back)) false
  | .reserved _ => .completes moved none false

/-- What comes of an instruction when it is executed, before the program counter moves on. -/
def Instruction.effect (registers : Registers) (memory : Memory) : Instruction → Effect
  | basic op a b =>
    op.effect registers (a.resolved registers memory (registers.pc + 1))
      (b.resolved registers memory (registers.pc + (1 + a.ownWords)))
  | special op a =>
    op.effect registers memory (a.resolved registers memory (registers.pc + 1))
      (registers.pc + (special op a).words)

/-- What a program can observe of its machine. -/
structure Guest where
  /-- The register file. -/
  registers : Registers
  /-- The words of memory. -/
  memory : Memory
  /-- Completed instructions. -/
  steps : Nat
  /-- Whether the next instruction is to be skipped. -/
  skip : Bool

namespace Guest

/-- The instruction that the program counter points to. -/
def instruction (guest : Guest) : Instruction :=
  Instruction.decode (guest.memory.wordAt guest.registers.pc)

/-- The addresses at which the next step reads, unless it fails before. -/
def accesses (guest : Guest) : List Word :=
  guest.registers.pc :: guest.instruction.accesses guest.registers guest.memory

/-- What comes of the instruction that the program counter points to, when it is executed. -/
def effect (guest : Guest) : Effect :=
  guest.instruction.effect guest.registers guest.memory

end Guest

namespace Bus

variable {σ : Type} [Watcher σ]

/-- Stores a word in memory and tells the watcher. -/
def commit (bus : Bus σ) (store : Word × Word) : Bus σ where
  memory := bus.memory.put store.1 store.2
  watcher := Watcher.observe (.wrote store.1 store.2) bus.watcher

/-- Stores words one after the other. -/
def commitAll (bus : Bus σ) (stores : List (Word × Word)) : Bus σ :=
  stores.foldl commit bus

theorem memory_commitAll (bus : Bus σ) (stores : List (Word × Word)) :
    (bus.commitAll stores).memory = bus.memory.putAll stores := by
  induction stores generalizing bus with
  | nil => rfl
  | cons store stores ih => exact ih (bus.commit store)

theorem write_eq_commit
    (bus : Bus σ) {address : Word} (h : bus.memory.lacks address = false) (value : Word) :
    write address.toNat value.toNat bus = .ok () (bus.commit (address, value)) := by
  have hlt := Memory.lacks_eq_false_iff.mp h
  have hfits : ¬addressSpace ≤ value.toNat := Nat.not_le.mpr value.toNat_lt_addressSpace
  obtain ⟨memory, watcher⟩ := bus
  simp only [write, commit]
  rw [if_neg hfits, dif_pos hlt, Memory.put_of_hit h]
  simp

/-- A store of numbers, when memory takes it. -/
theorem write_of_lt
    (bus : Bus σ) {address value : Nat} (haddress : address < bus.memory.capacity)
    (hvalue : value < addressSpace) :
    bus.memory.lacks (UInt16.ofNat address) = false ∧
      write address value bus =
        .ok () (bus.commit (UInt16.ofNat address, UInt16.ofNat value)) := by
  have haddress' : (UInt16.ofNat address).toNat = address :=
    Nat.mod_eq_of_lt (Nat.lt_of_lt_of_le haddress bus.memory.capacity_le)
  have hvalue' : (UInt16.ofNat value).toNat = value := Nat.mod_eq_of_lt hvalue
  have hlacks : bus.memory.lacks (UInt16.ofNat address) = false := by
    rw [Memory.lacks_eq_false_iff, haddress']
    exact haddress
  have hwrite := write_eq_commit bus hlacks (UInt16.ofNat value)
  rw [haddress', hvalue'] at hwrite
  exact ⟨hlacks, hwrite⟩

theorem write_of_lacks
    (bus : Bus σ) {address : Word} (h : bus.memory.lacks address = true) (value : Word) :
    write address.toNat value.toNat bus =
      .error (.outOfRange address.toNat bus.memory.capacity) bus := by
  have hge : ¬address.toNat < bus.memory.capacity := by
    simpa [Memory.lacks] using h
  have hfits : ¬addressSpace ≤ value.toNat := Nat.not_le.mpr value.toNat_lt_addressSpace
  obtain ⟨memory, watcher⟩ := bus
  simp only [write]
  rw [if_neg hfits, dif_neg hge]

end Bus

namespace Machine

variable {σ : Type} [Watcher σ]

/-- The part of the machine that a program can observe. -/
def guest (m : Machine σ) : Guest :=
  ⟨m.registers, m.memory, m.steps, m.skip⟩

omit [Watcher σ] in
theorem moveStack_eq (operand : Operand) (m : Machine σ) :
    moveStack operand m = .ok () (m.onRegisters (·.moveStack operand)) := by
  cases operand <;> rfl

omit [Watcher σ] in
theorem overflow_eq (word : Option Word) (m : Machine σ) :
    overflow word m = .ok () (m.onRegisters (·.overflow word)) := by
  cases word <;> rfl

theorem writeBus_of_hit
    {m : Machine σ} {address : Word} (h : m.memory.lacks address = false) (value : Word) :
    EStateM.adaptExcept Fault.memory (onBus (Bus.write address.toNat value.toNat)) m =
      .ok () { m with bus := m.bus.commit (address, value) } := by
  obtain ⟨registers, bus, steps, skip, span⟩ := m
  simp [EStateM.adaptExcept, onBus, Bus.write_eq_commit bus h]

theorem writeBus_of_lacks
    {m : Machine σ} {address : Word} (h : m.memory.lacks address = true) (value : Word) :
    EStateM.adaptExcept Fault.memory (onBus (Bus.write address.toNat value.toNat)) m =
      .error (.memory (.outOfRange address.toNat m.memory.capacity)) m := by
  obtain ⟨registers, bus, steps, skip, span⟩ := m
  simp [EStateM.adaptExcept, onBus, Bus.write_of_lacks bus h, memory]

/-- The result of an instruction whose effect is known. -/
def settle (m : Machine σ) : Effect → EStateM.Result Fault (Machine σ) Unit
  | .completes registers stored skip =>
    .ok () ⟨registers, m.bus.commitAll stored.toList, m.steps, skip, m.span⟩
  | .fails fault registers => .error fault { m with registers }

theorem executeBasic_eq_settle
    (op : BasicOp) (target source : Resolved) (m : Machine σ) (hskip : m.skip = false)
    (hhit : ∀ address, target.place = .memory address → m.memory.lacks address = false) :
    executeBasic op target source m = m.settle (op.effect m.registers target source) := by
  obtain ⟨registers, bus, steps, skip, span⟩ := m
  subst hskip
  cases happly : op.apply target.value source.value with
  | test passed =>
    simp [executeBasic, BasicOp.effect, settle, happly, moveStack_eq, bind, EStateM.bind,
      modify_apply, onRegisters, Bus.commitAll]
  | store result before after =>
    cases hplace : target.place with
    | register r =>
      simp [executeBasic, BasicOp.effect, settle, happly, hplace, store, moveStack_eq, overflow_eq,
        bind, EStateM.bind, modify_apply, onRegisters, Bus.commitAll]
    | memory address =>
      have hwrite (registers : Registers) := writeBus_of_hit
        (m := ⟨registers, bus, steps, false, span⟩) (hhit address hplace) result
      simp [executeBasic, BasicOp.effect, settle, happly, hplace, store, moveStack_eq, overflow_eq,
        bind, EStateM.bind, onRegisters, hwrite, Bus.commitAll]
    | nowhere =>
      simp [executeBasic, BasicOp.effect, settle, happly, hplace, bind, EStateM.bind, throw_apply]

theorem executeSpecial_eq_settle
    (op : SpecialOp) (operand : Resolved) (m : Machine σ) (hskip : m.skip = false) :
    executeSpecial op operand m =
      m.settle (op.effect m.registers m.memory operand (m.registers.pc + m.span)) := by
  obtain ⟨registers, bus, steps, skip, span⟩ := m
  subst hskip
  cases op with
  | jsr =>
    let pushed := (registers.moveStack operand.operand).push.2
    have hcall : executeSpecial .jsr operand ⟨registers, bus, steps, false, span⟩ =
        (EStateM.adaptExcept Fault.memory
            (onBus (Bus.write pushed.sp.toNat (pushed.pc + span).toNat)) >>= fun _ =>
          modify (onRegisters (·.set .pc operand.value))) ⟨pushed, bus, steps, false, span⟩ := by
      simp only [executeSpecial, moveStack_eq, bind, EStateM.bind]
      rfl
    have hpc : pushed.pc = registers.pc :=
      registers.pc_moveStack operand.operand
    rw [hcall]
    cases hlacks : bus.memory.lacks pushed.sp with
    | true =>
      have hwrite := writeBus_of_lacks (m := ⟨pushed, bus, steps, false, span⟩) hlacks
      have heffect : SpecialOp.effect .jsr registers bus.memory operand (registers.pc + span) =
          .fails (.memory (.outOfRange pushed.sp.toNat bus.memory.capacity)) pushed :=
        if_pos hlacks
      rw [bind_of_error (hwrite _)]
      simp only [memory, heffect, settle]
    | false =>
      have hwrite := writeBus_of_hit (m := ⟨pushed, bus, steps, false, span⟩) hlacks
      have heffect : SpecialOp.effect .jsr registers bus.memory operand (registers.pc + span) =
          .completes (pushed.set .pc operand.value) (some (pushed.sp, registers.pc + span)) false :=
        if_neg (ne_true_of_eq_false hlacks)
      rw [bind_of_ok (hwrite _), hpc]
      simp only [memory, heffect, settle]
      rfl
  | reserved code =>
    simp [executeSpecial, SpecialOp.effect, settle, moveStack_eq, bind, EStateM.bind, pure,
      EStateM.pure, onRegisters, Bus.commitAll]

/-- The execution of an instruction with its operands as they were resolved. -/
def execute (registers : Registers) (memory : Memory) : Instruction → Action σ Unit
  | .basic op a b =>
    executeBasic op (a.resolved registers memory (registers.pc + 1))
      (b.resolved registers memory (registers.pc + (1 + a.ownWords)))
  | .special op a => executeSpecial op (a.resolved registers memory (registers.pc + 1))

theorem execute_eq_settle
    (m : Machine σ) (instruction : Instruction) (hspan : m.span = instruction.words)
    (hskip : m.skip = false)
    (hhit : (instruction.accesses m.registers m.memory).find? m.memory.lacks = none) :
    execute m.registers m.memory instruction m =
      m.settle (instruction.effect m.registers m.memory) := by
  cases instruction with
  | basic op a b =>
    refine executeBasic_eq_settle op _ _ m hskip fun address hplace => ?_
    have hmem := List.mem_append_left
      (b.accesses m.registers m.memory (m.registers.pc + (1 + a.ownWords)))
      (Operand.mem_accesses_of_place hplace)
    simpa using List.find?_eq_none.mp hhit address hmem
  | special op a =>
    rw [Instruction.effect, ← hspan]
    exact executeSpecial_eq_settle op _ m hskip

/-- The rest of a step whose operands are resolved and whose execution is the given action. -/
def conclude (pc word : Word) (instruction : Instruction) (execution : Action σ Unit) :
    Action σ Instruction := do
  let skipped ← (do
    if ← takeSkip then
      return true
    execution
    return false)
  modify (retire pc word instruction skipped)
  return instruction

theorem conclude_of_skip
    {m : Machine σ} (hskip : m.skip = true) (pc word : Word) (instruction : Instruction)
    (execution : Action σ Unit) :
    conclude pc word instruction execution m =
      .ok instruction (retire pc word instruction true { m with skip := false }) := by
  simp [conclude, takeSkip, hskip, bind, EStateM.bind, pure, EStateM.pure, modify_apply]

theorem conclude_of_ok
    {m m' : Machine σ} {execution : Action σ Unit} (hskip : m.skip = false)
    (h : execution m = .ok () m') (pc word : Word) (instruction : Instruction) :
    conclude pc word instruction execution m =
      .ok instruction (retire pc word instruction false m') := by
  obtain ⟨registers, bus, steps, skip, span⟩ := m
  subst hskip
  simp [conclude, takeSkip, h, bind, EStateM.bind, pure, EStateM.pure, modify_apply]

theorem conclude_of_error
    {m m' : Machine σ} {execution : Action σ Unit} {fault : Fault} (hskip : m.skip = false)
    (h : execution m = .error fault m') (pc word : Word) (instruction : Instruction) :
    conclude pc word instruction execution m = .error fault m' := by
  obtain ⟨registers, bus, steps, skip, span⟩ := m
  subst hskip
  simp [conclude, takeSkip, h, bind, EStateM.bind]

theorem perform_basic_bind (pc word : Word) (op : BasicOp) (a b : Operand) :
    (do
      let skipped ← perform (.basic op a b)
      modify (retire pc word (.basic op a b) skipped)
      return .basic op a b : Action σ Instruction) =
    (do
      let target ← resolve a
      let source ← resolve b
      conclude pc word (.basic op a b) (executeBasic op target source)) := by
  simp only [perform, conclude, bind_assoc]

theorem perform_special_bind (pc word : Word) (op : SpecialOp) (a : Operand) :
    (do
      let skipped ← perform (.special op a)
      modify (retire pc word (.special op a) skipped)
      return .special op a : Action σ Instruction) =
    (do
      let operand ← resolve a
      conclude pc word (.special op a) (executeSpecial op operand)) := by
  simp only [perform, conclude, bind_assoc]

theorem looksAt_perform
    (m : Machine σ) (pc word : Word) (instruction : Instruction) (hspan : m.span = 1) :
    LooksAt
      (do
        let skipped ← perform instruction
        modify (retire pc word instruction skipped)
        return instruction)
      m (instruction.accesses m.registers m.memory)
      (conclude pc word instruction (execute m.registers m.memory instruction)
        (m.consulted (instruction.accesses m.registers m.memory) instruction.words)) := by
  cases instruction with
  | basic op a b =>
    rw [perform_basic_bind, Instruction.words_basic]
    have hsource := looksAt_resolve
      (m.consulted (a.accesses m.registers m.memory (m.registers.pc + m.span))
        (m.span + a.ownWords)) b
    simp only [memory_consulted, registers_consulted, span_consulted] at hsource
    let rest (target : Resolved) : Action σ Instruction := do
      let source ← resolve b
      conclude pc word (.basic op a b) (executeBasic op target source)
    have hboth : LooksAt (resolve a >>= rest) m _ _ :=
      (looksAt_resolve m a).bind (hsource.andThen _) rfl
    rw [consulted_consulted, hspan] at hboth
    exact hboth
  | special op a =>
    rw [perform_special_bind, Instruction.words_special]
    have hoperand := (looksAt_resolve m a).andThen fun operand =>
      conclude pc word (.special op a) (executeSpecial op operand)
    rw [hspan] at hoperand
    exact hoperand

/-- A step looks at its accesses, and then executes the instruction with the operands resolved. -/
theorem looksAt_step (m : Machine σ) :
    LooksAt step m m.guest.accesses
      (conclude m.registers.pc (m.memory.wordAt m.registers.pc) m.guest.instruction
        (execute m.registers m.memory m.guest.instruction)
        (m.consulted m.guest.accesses m.guest.instruction.words)) := by
  let rest (word : Word) : Action σ Instruction := do
    let skipped ← perform (Instruction.decode word)
    modify (retire m.registers.pc word (Instruction.decode word) skipped)
    return Instruction.decode word
  have hstep : LooksAt (fetch m.registers.pc >>= rest) { m with span := 1 } m.guest.accesses
      (conclude m.registers.pc (m.memory.wordAt m.registers.pc) m.guest.instruction
        (execute m.registers m.memory m.guest.instruction)
        (m.consulted m.guest.accesses m.guest.instruction.words)) :=
    LooksAt.bind (looksAt_fetch _ _) (looksAt_perform _ _ _ m.guest.instruction rfl) rfl
  exact ⟨hstep.proceeds, hstep.fails⟩

/-- What a step comes to if memory lacks none of its accesses. -/
def outcome (m : Machine σ) : EStateM.Result Fault (Machine σ) Instruction :=
  let ready := m.consulted m.guest.accesses m.guest.instruction.words
  let word := m.memory.wordAt m.registers.pc
  if m.skip then
    .ok m.guest.instruction
      (retire m.registers.pc word m.guest.instruction true { ready with skip := false })
  else
    match m.guest.effect with
    | .completes registers stored skip =>
      .ok m.guest.instruction (retire m.registers.pc word m.guest.instruction false
        ⟨registers, ready.bus.commitAll stored.toList, m.steps, skip, ready.span⟩)
    | .fails fault registers => .error fault { ready with registers }

theorem step_eq_outcome
    (m : Machine σ) (hhit : m.guest.accesses.find? m.guest.memory.lacks = none) :
    step m = m.outcome := by
  rw [(looksAt_step m).proceeds hhit]
  have hoperands :
      (m.guest.instruction.accesses m.registers m.memory).find? m.memory.lacks = none :=
    List.find?_eq_none.mpr fun address hmem =>
      List.find?_eq_none.mp hhit address (List.mem_cons_of_mem _ hmem)
  let ready := m.consulted m.guest.accesses m.guest.instruction.words
  cases hskip : m.skip with
  | true =>
    have hready : ready.skip = true := hskip
    rw [outcome, if_pos hskip]
    exact conclude_of_skip hready _ _ _ _
  | false =>
    have hready : ready.skip = false := hskip
    have hexecute := execute_eq_settle ready m.guest.instruction rfl hready hoperands
    rw [outcome, if_neg (ne_true_of_eq_false hskip)]
    cases heffect : m.guest.effect with
    | completes registers stored skip =>
      exact conclude_of_ok hready (hexecute.trans (congrArg ready.settle heffect)) _ _ _
    | fails fault registers =>
      exact conclude_of_error hready (hexecute.trans (congrArg ready.settle heffect)) _ _ _

/-- A step that memory lacks an access for fails there, and has changed nothing but what the watcher
was told. -/
theorem step_of_lacks
    {m : Machine σ} {address : Word}
    (h : m.guest.accesses.find? m.guest.memory.lacks = some address) :
    ∃ span, step m =
      .error (.memory (.outOfRange address.toNat m.memory.capacity))
        (m.consulted (m.memory.reached m.guest.accesses) span) :=
  (looksAt_step m).fails address h

end Machine

end WordMachine
