import WordMachine.Proofs.Frame

/-!
# The stack of a program

The stack grows downward from wherever the stack pointer stood, and the pointer wraps.  A program
that moves it only by pushing a word, by calling, and by taking the top off has a list for a stack:
`Stacks` says what a step of such a program does to the list, and `Holds` that pointer and memory
are as the list says.  A return takes off what a call has pushed.
-/

namespace WordMachine

/-- What lies on a stack. -/
inductive StackEntry
  /-- A word that was pushed. -/
  | value (word : Word)
  /-- The way back from a call, told by the address of the call and its length. -/
  | back (site : Word) (length : Nat)

/-- The entry as memory holds it. -/
def StackEntry.word : StackEntry → Word
  | value word => word
  | back site length => site + UInt16.ofNat length

/-- Whether the operand is a form of the top of the stack. -/
def Operand.isStack : Operand → Bool
  | pop | peek | push => true
  | _ => false

/-- Both forms of the top of the stack have the word at the stack pointer as their value. -/
theorem Operand.value_top
    {source : Operand} (h : source = pop ∨ source = peek) (registers : Registers) (memory : Memory)
    (start : Word) : source.value registers memory start = memory.wordAt registers.sp := by
  rcases h with rfl | rfl <;> rfl

theorem Registers.moveStack_of_isStack_eq_false
    (registers : Registers) {operand : Operand} (h : operand.isStack = false) :
    registers.moveStack operand = registers := by
  cases operand with
  | pop | peek | push => contradiction
  | _ => rfl

/-- Where an instruction that does not set the stack pointer leaves it. -/
theorem Frame.pointer
    {guest guest' : Guest} {instruction : Instruction} (h : Frame guest guest' instruction)
    (htarget : instruction.target? ≠ some (.register .sp)) :
    guest'.registers.sp =
      (instruction.moved guest.registers).sp - if instruction.calls then 1 else 0 := by
  rw [Instruction.sp_moved]
  exact h.stack htarget

/-- A move to a target off the stack moves the stack pointer as its source asks. -/
theorem Frame.pointer_of_move
    {guest guest' : Guest} {target source : Operand}
    (h : Frame guest guest' (.basic .set target source)) (htarget : target.isStack = false)
    (hpointer : target ≠ .register .sp) :
    guest'.registers.sp = (guest.registers.moveStack source).sp := by
  have hmoved := h.pointer fun heq => hpointer (Option.some.inj heq)
  rw [Instruction.moved, Registers.moveStack_of_isStack_eq_false _ htarget] at hmoved
  exact hmoved.trans (UInt16.sub_zero _)

namespace Guest

/-- The next step, if it is executed, stores to none of so many words from an address on. -/
def Spares (guest : Guest) (top : Word) (depth : Nat) : Prop :=
  ∀ slot, guest.instruction.slot? guest.registers guest.memory = some slot →
    ∀ k < depth, slot ≠ top + UInt16.ofNat k

/-- What a step does to the entries of the stack, the latest first, while the program moves the
stack pointer only by pushing, calling and taking the top off. -/
inductive Stacks (guest guest' : Guest) : List StackEntry → List StackEntry → Prop
  /-- An instruction that is skipped, whatever it is. -/
  | skipped {live : List StackEntry} (hskip : guest.skip = true) : Stacks guest guest' live live
  /-- An instruction that leaves the stack pointer alone and stores to none of the entries. -/
  | other {live : List StackEntry} (hskip : guest.skip = false)
      (hpointer : guest'.registers.sp = guest.registers.sp)
      (hspares : guest.Spares guest.registers.sp live.length) : Stacks guest guest' live live
  | push {live : List StackEntry} {source : Operand} (hskip : guest.skip = false)
      (hinstruction : guest.instruction = .basic .set .push source)
      (hsource : source.isStack = false) (hroom : live.length < addressSpace) :
      Stacks guest guest' live
        (.value (source.value guest.registers guest.memory (guest.registers.pc + 1)) :: live)
  | call {live : List StackEntry} {destination : Operand} (hskip : guest.skip = false)
      (hinstruction : guest.instruction = .special .jsr destination)
      (hdestination : destination.isStack = false) (hroom : live.length < addressSpace) :
      Stacks guest guest' live (.back guest.registers.pc guest.instruction.length :: live)
  | pop {entry : StackEntry} {live : List StackEntry} {target : Operand}
      (hskip : guest.skip = false) (hinstruction : guest.instruction = .basic .set target .pop)
      (htarget : target.isStack = false) (hpointer : target ≠ .register .sp)
      (hspares : guest.Spares (guest.registers.sp + 1) live.length) :
      Stacks guest guest' (entry :: live) live

/-- The stack pointer has gone down from `bottom` by one for each entry, and memory has the entries
from there on. -/
structure Holds (bottom : Word) (live : List StackEntry) (guest : Guest) : Prop where
  pointer : guest.registers.sp = bottom - UInt16.ofNat live.length
  words : ∀ k (hk : k < live.length),
    guest.memory.get? (guest.registers.sp + UInt16.ofNat k).toNat = some live[k].word

variable {bottom : Word} {entry : StackEntry} {live live' : List StackEntry} {guest guest' : Guest}

theorem holds_nil (guest : Guest) : Holds guest.registers.sp [] guest where
  pointer := (UInt16.sub_zero _).symm
  words k hk := by contradiction

theorem Holds.keep
    (h : Holds bottom live guest) (hpointer : guest'.registers.sp = guest.registers.sp)
    (hwords : ∀ k < live.length,
      guest'.memory.get? (guest.registers.sp + UInt16.ofNat k).toNat =
        guest.memory.get? (guest.registers.sp + UInt16.ofNat k).toNat) :
    Holds bottom live guest' where
  pointer := hpointer.trans h.pointer
  words k hk := by
    rw [hpointer, hwords k hk]
    exact h.words k hk

theorem Holds.push
    (h : Holds bottom live guest) (hroom : live.length < addressSpace)
    (hpointer : guest'.registers.sp = guest.registers.sp - 1)
    (htop : guest'.memory.get? (guest.registers.sp - 1).toNat = some entry.word)
    (hothers : ∀ n, n ≠ (guest.registers.sp - 1).toNat →
      guest'.memory.get? n = guest.memory.get? n) :
    Holds bottom (entry :: live) guest' := by
  constructor
  · rw [hpointer, h.pointer, List.length_cons, UInt16.ofNat_add]
    grind
  · intro k hk
    rw [hpointer]
    cases k with
    | zero =>
      change guest'.memory.get? (guest.registers.sp - 1 + 0).toNat = some entry.word
      rw [UInt16.add_zero]
      exact htop
    | succ k =>
      have hk' : k < live.length := Nat.lt_of_succ_lt_succ hk
      have hne := guest.registers.sp.add_ofNat_ne_sub_one (Nat.lt_of_le_of_lt hk' hroom)
      rw [Word.add_ofNat_succ, UInt16.sub_add_cancel,
        hothers _ fun heq => hne (UInt16.toNat_inj.mp heq)]
      exact h.words k hk'

theorem Holds.pop
    (h : Holds bottom (entry :: live) guest)
    (hpointer : guest'.registers.sp = guest.registers.sp + 1)
    (hwords : ∀ k < live.length,
      guest'.memory.get? (guest.registers.sp + 1 + UInt16.ofNat k).toNat =
        guest.memory.get? (guest.registers.sp + 1 + UInt16.ofNat k).toNat) :
    Holds bottom live guest' := by
  constructor
  · rw [hpointer, h.pointer, List.length_cons, UInt16.ofNat_add]
    grind
  · intro k hk
    have hword := h.words (k + 1) (Nat.succ_lt_succ hk)
    rw [Word.add_ofNat_succ] at hword
    rw [hpointer, hwords k hk]
    exact hword

/-- Memory has the latest entry where the stack pointer is. -/
theorem Holds.top (h : Holds bottom (entry :: live) guest) :
    guest.memory.lacks guest.registers.sp = false ∧
      guest.memory.wordAt guest.registers.sp = entry.word := by
  have hword := h.words 0 (Nat.succ_pos live.length)
  change guest.memory.get? (guest.registers.sp + 0).toNat = some entry.word at hword
  rw [UInt16.add_zero] at hword
  constructor
  · rw [Memory.lacks_eq_false_iff]
    apply Nat.lt_of_not_le
    intro hle
    rw [Memory.get?_eq_none_iff.mpr hle] at hword
    contradiction
  · rw [Memory.wordAt, Memory.getD, hword]
    rfl

theorem Spares.get?_eq
    {top : Word} {depth k : Nat} (h : guest.Spares top depth)
    (hframe : Frame guest guest' guest.instruction) (hk : k < depth) :
    guest'.memory.get? (top + UInt16.ofNat k).toNat =
      guest.memory.get? (top + UInt16.ofNat k).toNat :=
  hframe.memory _ fun slot hslot heq => h slot hslot k hk (UInt16.toNat_inj.mp heq).symm

/-- An instruction that makes room for one word and stores to it puts an entry on top. -/
theorem Holds.put_on
    (h : Holds bottom live guest) {instruction : Instruction}
    (hframe : Frame guest guest' instruction) (hroom : live.length < addressSpace)
    (hpointer : guest'.registers.sp = guest.registers.sp - 1)
    (hslot : instruction.slot? guest.registers guest.memory = some (guest.registers.sp - 1))
    (hstores : ∀ word, instruction.Stores guest.registers guest.memory word → word = entry.word) :
    Holds bottom (entry :: live) guest' := by
  obtain ⟨word, hword, htop⟩ := hframe.stored _ hslot
  obtain rfl := hstores word hword
  refine h.push hroom hpointer htop fun n hn => hframe.memory n fun slot hslot' => ?_
  obtain rfl := Option.some.inj (hslot.symm.trans hslot')
  exact hn

/-- A push leaves its source on top of the stack. -/
theorem Holds.step_push
    (h : Holds bottom live guest) {source : Operand}
    (hframe : Frame guest guest' (.basic .set .push source))
    (hsource : source.isStack = false) (hroom : live.length < addressSpace) :
    Holds bottom
      (.value (source.value guest.registers guest.memory (guest.registers.pc + 1)) :: live)
      guest' := by
  have hpointer := hframe.pointer (by simp [Instruction.target?])
  rw [Instruction.moved, Registers.moveStack_of_isStack_eq_false _ hsource] at hpointer
  refine h.put_on hframe hroom (hpointer.trans (UInt16.sub_zero _)) rfl fun word hword => ?_
  have hown : 1 + Operand.push.ownWords = 1 := rfl
  have hvalue := Instruction.stores_set hword
  rwa [hown] at hvalue

/-- A call leaves the way back on top of the stack. -/
theorem Holds.step_call
    (h : Holds bottom live guest) {destination : Operand}
    (hframe : Frame guest guest' (.special .jsr destination))
    (hdestination : destination.isStack = false) (hroom : live.length < addressSpace) :
    Holds bottom
      (.back guest.registers.pc (Instruction.special .jsr destination).length :: live) guest' := by
  have hpointer := hframe.pointer (by simp [Instruction.target?])
  rw [Instruction.moved, Registers.moveStack_of_isStack_eq_false _ hdestination] at hpointer
  refine h.put_on hframe hroom hpointer ?_ fun word hword => hword
  rw [Instruction.slot?, Registers.callSlot,
    Registers.moveStack_of_isStack_eq_false _ hdestination]

/-- Taking the top off leaves the rest, unless the word is stored to it. -/
theorem Holds.step_pop
    (h : Holds bottom (entry :: live) guest) {target : Operand}
    (hframe : Frame guest guest' (.basic .set target .pop))
    (hinstruction : guest.instruction = .basic .set target .pop)
    (htarget : target.isStack = false) (hpointer : target ≠ .register .sp)
    (hspares : guest.Spares (guest.registers.sp + 1) live.length) : Holds bottom live guest' := by
  refine h.pop (hframe.pointer_of_move htarget hpointer) fun k hk => ?_
  rw [← hinstruction] at hframe
  exact hspares.get?_eq hframe hk

/-- A step does to pointer and memory what it does to the list. -/
theorem Holds.step
    (h : Holds bottom live guest) {instruction : Instruction}
    (hstep : guest.step = .ok instruction guest') (hstacks : Stacks guest guest' live live') :
    Holds bottom live' guest' := by
  have hframe (hskip : guest.skip = false) : Frame guest guest' guest.instruction := by
    have hframe := frame_of_step hskip hstep
    rwa [hframe.decoded] at hframe
  cases hstacks with
  | skipped hskip =>
    obtain rfl := eq_of_step_of_skip hskip hstep
    exact h.keep rfl fun _ _ => rfl
  | other hskip hpointer hspares =>
    exact h.keep hpointer fun k hk => hspares.get?_eq (hframe hskip) hk
  | push hskip hinstruction hsource hroom =>
    have hframe := hframe hskip
    rw [hinstruction] at hframe
    exact h.step_push hframe hsource hroom
  | call hskip hinstruction hdestination hroom =>
    have hframe := hframe hskip
    rw [hinstruction] at hframe ⊢
    exact h.step_call hframe hdestination hroom
  | pop hskip hinstruction htarget hpointer hspares =>
    have hframe := hframe hskip
    rw [hinstruction] at hframe
    exact h.step_pop hframe hinstruction htarget hpointer hspares

/-- After the step the target, where it is resolved before the step, has the word. -/
def Receives (guest guest' : Guest) (target : Operand) (word : Word) : Prop :=
  (∀ r, target = .register r → guest'.registers.get r = word) ∧
  ∀ address,
    target.address? guest.registers (guest.memory.wordAt (guest.registers.pc + 1)) = some address →
      guest'.memory.get? address.toNat = some word

/-- A move gives the value of its source to its target. -/
theorem receives_of_set
    (hskip : guest.skip = false) {target source : Operand}
    (hstep : guest.step = .ok (.basic .set target source) guest') :
    guest.Receives guest' target
      (source.value guest.registers guest.memory
        (guest.registers.pc + (1 + target.ownWords))) := by
  have hframe := frame_of_step hskip hstep
  constructor
  · rintro r rfl
    exact Instruction.stores_set (hframe.target r rfl fun _ => rfl)
  · intro address haddress
    obtain ⟨word, hword, hstored⟩ := hframe.stored address haddress
    obtain rfl := Instruction.stores_set hword
    exact hstored

end Guest

namespace Machine

variable {σ : Type} [Watcher σ]

/-- A run of steps from a machine whose program keeps to the discipline of a stack, with what is
live on the stack, the latest first. -/
inductive StackRun (first : Machine σ) : List StackEntry → Machine σ → Prop
  | start : StackRun first [] first
  | next {live live' : List StackEntry} {m m' : Machine σ} {instruction : Instruction}
      (hrun : StackRun first live m) (hstep : step m = .ok instruction m')
      (hstacks : m.guest.Stacks m'.guest live live') : StackRun first live' m'

theorem StackRun.holds
    {first m : Machine σ} {live : List StackEntry} (h : StackRun first live m) :
    m.guest.Holds first.registers.sp live := by
  induction h with
  | start => exact Guest.holds_nil first.guest
  | next hrun hstep hstacks ih => exact ih.step (guest_step_of_ok hstep) hstacks

/-- The two forms of the top of the stack give the word there, and change nothing. -/
theorem resolve_top
    {m : Machine σ} {source : Operand} (hsource : source = .pop ∨ source = .peek) {word : Word}
    (hhit : m.memory.lacks m.registers.sp = false)
    (hword : m.memory.wordAt m.registers.sp = word) :
    ∃ m', resolve source m = .ok ⟨source, .memory m.registers.sp, word⟩ m' ∧
      m'.guest = m.guest := by
  subst hword
  have hfind : [m.registers.sp].find? m.memory.lacks = none := by simp [hhit]
  rcases hsource with rfl | rfl <;> exact ⟨_, (looksAt_resolve m _).proceeds hfind, rfl⟩

/-- While a program keeps to the discipline of a stack, the stack pointer is below where it began by
one for each entry, wrapping, and memory has the entries from there on, the latest first.  The forms
of the top of the stack give the latest entry; one that is moved to a target is the word there
afterwards, and the pointer moves on only if it was taken off.  So a return goes on behind the call
whose entry it takes off. -/
theorem stack_of_run
    {first m : Machine σ} {live : List StackEntry} (hrun : StackRun first live m) :
    m.registers.sp = first.registers.sp - UInt16.ofNat live.length ∧
    (∀ k (hk : k < live.length),
      m.memory.get? (m.registers.sp + UInt16.ofNat k).toNat = some live[k].word) ∧
    ∀ entry rest, live = entry :: rest → ∀ source, source = .pop ∨ source = .peek →
      (∃ m', resolve source m = .ok ⟨source, .memory m.registers.sp, entry.word⟩ m' ∧
        m'.guest = m.guest) ∧
      ∀ target m', target.isStack = false → target ≠ .register .sp → m.skip = false →
        step m = .ok (.basic .set target source) m' →
        m.guest.Receives m'.guest target entry.word ∧
        m'.registers.sp = m.registers.sp + (if source = .pop then 1 else 0) ∧
        ∀ site length, entry = .back site length → target = .register .pc →
          m'.registers.pc = site + UInt16.ofNat length := by
  have hholds := hrun.holds
  refine ⟨hholds.pointer, hholds.words, ?_⟩
  rintro entry rest rfl source hsource
  obtain ⟨hhit, htop⟩ := hholds.top
  constructor
  · exact resolve_top hsource hhit htop
  · intro target m' htarget hpointer hskip hstep
    have hreceives := Guest.receives_of_set hskip (guest_step_of_ok hstep)
    rw [Operand.value_top hsource, htop] at hreceives
    refine ⟨hreceives, ?_, ?_⟩
    · have hmoved := (step_frame hskip hstep).pointer_of_move htarget hpointer
      rcases hsource with rfl | rfl
      · exact hmoved
      · exact hmoved.trans (UInt16.add_zero _).symm
    · rintro site length rfl rfl
      exact hreceives.1 .pc rfl

/-- A call from the first word, with the stack pointer at zero, and its return. -/
theorem stack_of_run_call_return :
    ∃ first m₁ m₂ : Machine Unit, first.registers.sp = 0 ∧ first.registers.pc = 0 ∧
      StackRun first [.back 0 1] m₁ ∧ m₁.registers.sp = 0xffff ∧
      m₁.memory.get? 0xffff = some 1 ∧ m₁.registers.pc = 5 ∧
      step m₁ = .ok (.basic .set (.register .pc) .pop) m₂ ∧
      m₂.registers.sp = 0 ∧ m₂.registers.pc = 1 := by
  obtain ⟨returns, hreturns, hword⟩ : ∃ memory : Memory,
      memory.capacity = addressSpace ∧ ∀ address, memory.wordAt address = 0x61c1 := by
    refine ⟨⟨Array.replicate 65536 0x61c1, Nat.le_of_eq Array.size_replicate⟩,
      Array.size_replicate, fun address => ?_⟩
    have hlt := address.toNat_lt
    simp [Memory.wordAt, Memory.getD, Memory.get?, hlt]
  let first : Machine Unit := { bus := ⟨returns.put 0 0x9410, ()⟩ }
  have hfull : first.guest.memory.capacity = addressSpace :=
    (returns.capacity_put 0 0x9410).trans hreturns
  have hcall : first.guest.instruction = .special .jsr (.literal 5) := by
    have hfirst := Memory.wordAt_put_self (Memory.lacks_eq_false_of_full hreturns 0) 0x9410
    exact (congrArg Instruction.decode hfirst).trans rfl
  have heffect : first.guest.effect =
      .completes { sp := 0xffff, pc := 5 } (some (0xffff, 1)) false := by
    rw [Guest.effect, hcall]
    exact if_neg (ne_true_of_eq_false (Memory.lacks_eq_false_of_full hfull 0xffff))
  obtain ⟨m₁, hstep₁, hm₁⟩ := exists_step_of_guest_step
    (Guest.step_of_completes (Memory.find?_lacks_of_full hfull _) rfl heffect)
  have hpc₁ : m₁.registers.pc = 5 := by
    have hregisters := congrArg Guest.registers hm₁
    rw [hcall] at hregisters
    exact congrArg Registers.pc hregisters
  have hmemory₁ : m₁.memory = (returns.put 0 0x9410).put 0xffff 1 := congrArg Guest.memory hm₁
  have hreturn : m₁.guest.instruction = .basic .set (.register .pc) .pop := by
    have hfifth : m₁.memory.wordAt m₁.registers.pc = 0x61c1 := by
      rw [hmemory₁, hpc₁, Memory.wordAt_put_of_ne _ _ (by decide),
        Memory.wordAt_put_of_ne _ _ (by decide), hword]
    exact (congrArg Instruction.decode hfifth).trans rfl
  have hrun : StackRun first [.back 0 1] m₁ := by
    have hstacks : first.guest.Stacks m₁.guest [] [.back 0 first.guest.instruction.length] :=
      .call rfl hcall rfl (by decide)
    rw [hcall] at hstacks
    exact .next .start hstep₁ hstacks
  have hfull₁ : m₁.guest.memory.capacity = addressSpace := by
    change m₁.memory.capacity = addressSpace
    rw [hmemory₁, Memory.capacity_put, Memory.capacity_put, hreturns]
  have hskip₁ : m₁.skip = false := congrArg Guest.skip hm₁
  have heffect₁ : ∃ registers, m₁.guest.effect = .completes registers none false := by
    rw [Guest.effect, hreturn]
    exact ⟨_, rfl⟩
  obtain ⟨registers, heffect₁⟩ := heffect₁
  obtain ⟨m₂, hstep₂, -⟩ := exists_step_of_guest_step
    (Guest.step_of_completes (Memory.find?_lacks_of_full hfull₁ _) hskip₁ heffect₁)
  rw [hreturn] at hstep₂
  obtain ⟨hsp, hwords, htop⟩ := stack_of_run hrun
  obtain ⟨-, hmove⟩ := htop _ [] rfl .pop (.inl rfl)
  obtain ⟨-, hsp₂, hback⟩ := hmove (.register .pc) m₂ rfl (by decide) hskip₁ hstep₂
  have hwrapped : m₁.registers.sp = 0xffff := hsp
  have hpushed := hwords 0 Nat.one_pos
  rw [hwrapped] at hpushed hsp₂
  exact ⟨first, m₁, m₂, rfl, rfl, hrun, hwrapped, hpushed, hpc₁, hstep₂, hsp₂, hback 0 1 rfl rfl⟩

end Machine

end WordMachine
