import WordMachine.Debugger.Basic
import WordMachine.Proofs.Faults
import WordMachine.Proofs.History
import WordMachine.Proofs.Sweep

/-!
# The listing of a debugger foretells what its machine will do

The debugger lists instructions from the program counter on, by the length of each.  Its machine
goes on by the words that it reads for each instruction, skipped or not.  As long as no instruction
jumps and none stores to the words of the listing, both go over the same instructions: this is
`code_foretells`.
-/

namespace WordMachine

namespace Memory

/-- The addresses of the words of the instruction at an address. -/
def extent (memory : Memory) (address : Word) : List Word :=
  (List.range (Instruction.decode (memory.wordAt address)).length).map (address + UInt16.ofNat ·)

theorem mem_extent_self (memory : Memory) (address : Word) : address ∈ memory.extent address :=
  List.mem_map.mpr ⟨0, List.mem_range.mpr (Instruction.length_pos _), UInt16.add_zero address⟩

theorem extent_congr
    {memory memory' : Memory} {address : Word}
    (h : memory'.wordAt address = memory.wordAt address) :
    memory'.extent address = memory.extent address := by
  rw [extent, h, extent]

end Memory

namespace Machine

section Window

variable {σ τ : Type}

/-- The words of an instruction come first in the window at its address. -/
theorem take_window (m : Machine σ) (address : Word) :
    (m.window address).take (Instruction.decode (m.memory.wordAt address)).length =
      (m.memory.extent address).map m.memory.wordAt := by
  have hwindow : m.window address =
      ((List.range 3).map (address + UInt16.ofNat ·)).map m.memory.wordAt := by
    have hfirst : address + UInt16.ofNat 0 = address := UInt16.add_zero address
    simp only [List.range_succ, List.range_zero, List.nil_append, List.cons_append, List.map_cons,
      List.map_nil, hfirst]
    rfl
  rw [hwindow, ← List.map_take, ← List.map_take, List.take_range,
    Nat.min_eq_left (Instruction.length_le _), Memory.extent]

theorem head_window (m : Machine σ) (address : Word) :
    Disassembly.head (m.window address) =
      Disassembly.head ((m.memory.extent address).map m.memory.wordAt) := by
  rw [← take_window]
  exact (Disassembly.head_take _ _).symm

/-- Machines with the same words at the addresses of an instruction show the same of it. -/
theorem head_window_congr
    {m : Machine σ} {n : Machine τ} {address : Word}
    (h : ∀ other ∈ m.memory.extent address, n.memory.wordAt other = m.memory.wordAt other) :
    Disassembly.head (n.window address) = Disassembly.head (m.window address) := by
  have hextent := Memory.extent_congr (h address (m.memory.mem_extent_self address))
  rw [head_window, head_window, hextent, List.map_congr_left h]

end Window

variable {σ : Type} [Watcher σ]

/-- The second machine has come from the first by an instruction, completed or skipped, that has
left the program counter on the next one. -/
structure Advances (instruction : Instruction) (m m' : Machine σ) : Prop where
  decoded : instruction = .decode (m.memory.wordAt m.pc)
  inside : m.pc.toNat < m.memory.capacity
  next : m'.pc = m.pc + UInt16.ofNat instruction.length
  memory : m'.memory = m.memory.putAll m.guest.stores

theorem advances_of_step
    {m m' : Machine σ} {instruction : Instruction} (h : step m = .ok instruction m')
    (hstraight : m.skip = false → instruction.jumps = false) : Advances instruction m m' := by
  obtain rfl := instruction_of_step h
  have hguest := guest_step_of_ok h
  constructor
  case decoded => rfl
  case inside =>
    have hreached := Guest.reached_of_fault?_eq_none (fault?_of_step_ok h)
    exact Memory.lacks_eq_false_iff.mp (hreached m.pc List.mem_cons_self)
  case next =>
    cases hskip : m.skip with
    | true =>
      have hadvanced := Guest.eq_of_step_of_skip hskip hguest
      have hregisters : m'.registers = m.registers.advance m.guest.instruction.words :=
        congrArg Guest.registers hadvanced
      exact congrArg Registers.pc hregisters
    | false =>
      have hjumps := hstraight hskip
      have hnot : ¬(m.guest.instruction.target? = some (.register .pc) ∨
          m.guest.instruction.calls = true) := by
        rw [← Instruction.jumps_iff, hjumps]
        exact Bool.false_ne_true
      rw [not_or] at hnot
      exact (Guest.frame_of_step hskip hguest).next hnot.1 (Bool.eq_false_iff.mpr hnot.2)
  case memory =>
    obtain ⟨events, hhears, hstores⟩ := step_hears m
    rw [h] at hhears
    rw [← hstores]
    exact hhears.memory

/-- Steps one after the other, none of which fails and none of which executes a jump. -/
structure StraightRun
    (first : Machine σ) (count : Nat) (machines : Nat → Machine σ)
    (instructions : Nat → Instruction) : Prop where
  start : machines 0 = first
  step : ∀ k < count, step (machines k) = .ok (instructions k) (machines (k + 1))
  straight : ∀ k < count, (machines k).skip = false → (instructions k).jumps = false

namespace StraightRun

variable {first : Machine σ} {count : Nat} {machines : Nat → Machine σ}
  {instructions : Nat → Instruction}

theorem advances (h : StraightRun first count machines instructions) {k : Nat} (hk : k < count) :
    Advances (instructions k) (machines k) (machines (k + 1)) :=
  advances_of_step (h.step k hk) (h.straight k hk)

theorem capacity
    (h : StraightRun first count machines instructions) {k : Nat} (hk : k ≤ count) :
    (machines k).memory.capacity = first.memory.capacity := by
  induction k with
  | zero => rw [h.start]
  | succ k ih => rw [(h.advances hk).memory, Memory.capacity_putAll, ih (Nat.le_of_succ_le hk)]

theorem inside
    (h : StraightRun first count machines instructions) {k : Nat} (hk : k < count) :
    (machines k).pc.toNat < first.memory.capacity := by
  rw [← h.capacity (Nat.le_of_lt hk)]
  exact (h.advances hk).inside

/-- Words that no step stores to stay as they are. -/
theorem wordAt
    (h : StraightRun first count machines instructions) {address : Word}
    (hspares : ∀ k < count, ∀ store ∈ (machines k).guest.stores, store.1 ≠ address)
    {k : Nat} (hk : k ≤ count) :
    (machines k).memory.wordAt address = first.memory.wordAt address := by
  induction k with
  | zero => rw [h.start]
  | succ k ih =>
    rw [(h.advances hk).memory, Memory.wordAt_putAll_of_ne (hspares k hk),
      ih (Nat.le_of_succ_le hk)]

end StraightRun

end Machine

namespace Debugger

open Machine (StraightRun)

variable {σ : Type}

section Listing

variable {m : Machine σ} {address : Word}

theorem codeFrom_of_inside
    (h : address.toNat < m.memory.capacity) (isCurrent : Bool) (lines : Nat) :
    codeFrom m address isCurrent (lines + 1) =
      ⟨address, (Disassembly.head (m.window address)).1, isCurrent⟩ ::
        codeFrom m
          (address + UInt16.ofNat (Instruction.decode (m.memory.wordAt address)).length) false
          lines :=
  if_pos h

theorem codeFrom_of_outside
    (h : ¬address.toNat < m.memory.capacity) (isCurrent : Bool) (lines : Nat) :
    codeFrom m address isCurrent lines = [] := by
  cases lines with
  | zero => rfl
  | succ lines => exact if_neg h

end Listing

/-- The addresses of the words that a listing shows. -/
def shown (debugger : Debugger σ) (lines : Nat) : List Word :=
  (debugger.code lines).flatMap fun line => debugger.machine.memory.extent line.address

variable [Watcher σ] {debugger : Debugger σ} {n : Nat} {machines : Nat → Machine σ}
  {instructions : Nat → Instruction}

/-- A run that a listing foretells: none of its steps stores to a word that the listing shows. -/
structure Foreseen
    (debugger : Debugger σ) (n : Nat) (machines : Nat → Machine σ)
    (instructions : Nat → Instruction) : Prop where
  run : StraightRun debugger.machine n machines instructions
  spares : ∀ k < n, ∀ store ∈ (machines k).guest.stores, store.1 ∉ debugger.shown n

/-- The words of a line of the listing are still there when the machine comes to it. -/
theorem Foreseen.extent
    (h : Foreseen debugger n machines instructions) {k : Nat} (hk : k < n) {isCurrent : Bool}
    (hdrop : (debugger.code n).drop k =
      codeFrom debugger.machine (machines k).pc isCurrent (n - k)) :
    ∀ other ∈ debugger.machine.memory.extent (machines k).pc,
      (machines k).memory.wordAt other = debugger.machine.memory.wordAt other := by
  intro other hother
  obtain ⟨rest, hrest⟩ := Nat.exists_eq_add_of_lt (Nat.sub_pos_of_lt hk)
  rw [hrest, codeFrom_of_inside (h.run.inside hk)] at hdrop
  have hline : ⟨(machines k).pc, _, isCurrent⟩ ∈ debugger.code n :=
    List.mem_of_mem_drop (hdrop ▸ List.mem_cons_self)
  have hshown : other ∈ debugger.shown n := List.mem_flatMap.mpr ⟨_, hline, hother⟩
  refine h.run.wordAt (fun j hj store hstore heq => ?_) (Nat.le_of_lt hk)
  exact h.spares j hj store hstore (heq ▸ hshown)

/-- What is left of a listing behind as many lines as the machine has made steps is the listing
from its program counter on. -/
theorem Foreseen.drop_code
    (h : Foreseen debugger n machines instructions) {k : Nat} (hk : k ≤ n) (lines : Nat) :
    (debugger.code lines).drop k =
      codeFrom debugger.machine (machines k).pc (k == 0) (lines - k) := by
  induction k generalizing lines with
  | zero =>
    rw [h.run.start]
    rfl
  | succ k ih =>
    have hstep := h.run.advances hk
    have hbefore := ih (Nat.le_of_succ_le hk)
    have hword := h.extent hk (hbefore n) _ (Memory.mem_extent_self _ _)
    have hnext : (machines k).pc + UInt16.ofNat
        (Instruction.decode (debugger.machine.memory.wordAt (machines k).pc)).length =
          (machines (k + 1)).pc := by
      rw [hstep.next, hstep.decoded, hword]
    rw [← List.drop_drop, hbefore]
    cases hlines : lines - k with
    | zero =>
      have hrest : lines - (k + 1) = 0 := by omega
      rw [hrest]
      rfl
    | succ rest =>
      have hrest : lines - (k + 1) = rest := by omega
      rw [codeFrom_of_inside (h.run.inside hk), List.drop_succ_cons, List.drop_zero, hnext, hrest]
      rfl

theorem Foreseen.getElem?_code
    (h : Foreseen debugger n machines instructions) {k : Nat} (hk : k ≤ n) (lines : Nat) :
    (debugger.code lines)[k]? =
      (codeFrom debugger.machine (machines k).pc (k == 0) (lines - k)).head? := by
  rw [← h.drop_code hk, List.head?_drop]

/-- As long as no step fails, jumps or stores to a word that the listing shows, the lines of the
listing are the instructions of the steps, and one more line is the instruction to come, if there
is memory for one. -/
theorem code_foretells (h : Foreseen debugger n machines instructions) :
    (∀ k < n, (debugger.code n)[k]? =
      some ⟨(machines k).pc,
        (instructions k).text ((machines k).window (machines k).pc).tail, k == 0⟩) ∧
    ((debugger.code (n + 1))[n]?).map CodeLine.address =
      if (machines n).pc.toNat < (machines n).memory.capacity then some (machines n).pc
      else none := by
  constructor
  · intro k hk
    have hdrop := h.drop_code (Nat.le_of_lt hk) n
    have hhead := Machine.head_window_congr (h.extent hk hdrop)
    obtain ⟨rest, hrest⟩ := Nat.exists_eq_add_of_lt (Nat.sub_pos_of_lt hk)
    rw [h.getElem?_code (Nat.le_of_lt hk), hrest, codeFrom_of_inside (h.run.inside hk), ← hhead,
      (h.run.advances hk).decoded]
    rfl
  · rw [h.getElem?_code (Nat.le_refl n), Nat.add_sub_cancel_left, h.run.capacity (Nat.le_refl n)]
    split
    · rename_i hinside
      rw [codeFrom_of_inside hinside]
      rfl
    · rename_i houtside
      rw [codeFrom_of_outside houtside]
      rfl

/-- A test that fails and a jump that it skips, at the end of memory. -/
theorem code_foretells_skipped_jump :
    ∃ (debugger : Debugger Unit) (machines : Nat → Machine Unit) (instructions : Nat → Instruction),
      Foreseen debugger 2 machines instructions ∧
      instructions 1 = .basic .set (.register .pc) .immediate ∧
      (debugger.code 2)[1]? = some ⟨1, "SET PC, 0x1234", false⟩ ∧
      ((debugger.code 3)[2]?).map CodeLine.address = none := by
  let test := Instruction.basic .ife (.register .a) (.literal 1)
  let jump := Instruction.basic .set (.register .pc) .immediate
  obtain ⟨first, second, third, htest, hjump, hskip, hfirst, hsecond, hpc, hwindow, hend⟩ :
      ∃ first second third : Machine Unit,
        first.step = .ok test second ∧ second.step = .ok jump third ∧ second.skip = true ∧
        first.guest.stores = [] ∧ second.guest.stores = [] ∧
        second.pc = 1 ∧ second.window 1 = [0x7dc1, 0x1234, 0] ∧
        third.memory.capacity ≤ third.pc.toNat :=
    ⟨{ bus := ⟨⟨#[0x840c, 0x7dc1, 0x1234], by decide⟩, ()⟩ }, _, _, rfl, rfl, rfl, rfl, rfl, rfl,
      rfl, by decide⟩
  let machines : Nat → Machine Unit
    | 0 => first
    | 1 => second
    | _ => third
  let instructions : Nat → Instruction
    | 0 => test
    | _ => jump
  have hforeseen : Foreseen (start first [] 1) 2 machines instructions := by
    constructor
    case run =>
      constructor
      case start => rfl
      case step =>
        intro k hk
        match k with
        | 0 => exact htest
        | 1 => exact hjump
      case straight =>
        intro k hk
        match k with
        | 0 => exact fun _ => rfl
        | 1 => exact fun hnot => absurd (hskip.symm.trans hnot) (by decide)
    case spares =>
      intro k hk store hstore
      match k with
      | 0 => exact absurd (hfirst ▸ hstore) List.not_mem_nil
      | 1 => exact absurd (hsecond ▸ hstore) List.not_mem_nil
  obtain ⟨hlines, hnext⟩ := code_foretells hforeseen
  have htext : jump.text [0x1234, 0] = "SET PC, 0x1234" := by decide +kernel
  have hline := hlines 1 (by decide)
  change _ = some (CodeLine.mk second.pc (jump.text (second.window second.pc).tail) false) at hline
  rw [hpc, hwindow, List.tail_cons, htext] at hline
  exact ⟨start first [] 1, machines, instructions, hforeseen, rfl, hline,
    hnext.trans (if_neg hend.not_gt)⟩

end Debugger

end WordMachine
