import Mathlib.Data.List.TakeWhile
import WordMachine.Machine.Step

/-!
# What a step reads

Before an instruction is executed its words and its operands are read, and nothing else happens:
the watcher is told of the reads, and the words read are counted.  `LooksAt` says this of an
action together with the addresses that it looks at in turn; the first one that memory lacks ends
the action.  The places and the values of operands are told from registers and memory alone, so
`looksAt_resolve` leaves no trace of the order in which they were found.
-/

namespace WordMachine

/-- A result with its state seen through a function. -/
def mapState {S T ε α : Type} (f : S → T) : EStateM.Result ε S α → EStateM.Result ε T α
  | .ok a s => .ok a (f s)
  | .error e s => .error e (f s)

theorem modify_apply {S ε : Type} (f : S → S) (s : S) :
    (modify f : EStateM ε S Unit) s = .ok () (f s) :=
  rfl

theorem throw_apply {S ε α : Type} (e : ε) (s : S) :
    (throw e : EStateM ε S α) s = .error e s :=
  rfl

theorem bind_of_ok
    {S ε α β : Type} {action : EStateM ε S α} {next : α → EStateM ε S β} {s s' : S} {answer : α}
    (h : action s = .ok answer s') : (action >>= next) s = next answer s' := by
  simp [bind, EStateM.bind, h]

theorem bind_of_error
    {S ε α β : Type} {action : EStateM ε S α} {next : α → EStateM ε S β} {s s' : S} {e : ε}
    (h : action s = .error e s') : (action >>= next) s = .error e s' := by
  simp [bind, EStateM.bind, h]

theorem adaptExcept_of_ok
    {S ε ε' α : Type} {f : ε → ε'} {action : EStateM ε S α} {s s' : S} {answer : α}
    (h : action s = .ok answer s') : EStateM.adaptExcept f action s = .ok answer s' := by
  simp [EStateM.adaptExcept, h]

theorem adaptExcept_of_error
    {S ε ε' α : Type} {f : ε → ε'} {action : EStateM ε S α} {s s' : S} {e : ε}
    (h : action s = .error e s') : EStateM.adaptExcept f action s = .error (f e) s' := by
  simp [EStateM.adaptExcept, h]

/-- An entry of a list with one more entry is the last one, or it was there before. -/
theorem split_snoc
    {α : Type} {entries before later : List α} {last entry : α}
    (h : entries ++ [last] = before ++ entry :: later) :
    (before = entries ∧ entry = last ∧ later = []) ∨
      ∃ rest, later = rest ++ [last] ∧ entries = before ++ entry :: rest := by
  rcases List.eq_nil_or_concat later with rfl | ⟨rest, final, rfl⟩
  · obtain ⟨rfl, hlast⟩ := List.append_inj' h rfl
    exact .inl ⟨rfl, (List.singleton_inj.mp hlast).symm, rfl⟩
  · rw [List.concat_eq_append, ← List.cons_append, ← List.append_assoc] at h
    obtain ⟨hentries, hlast⟩ := List.append_inj' h rfl
    rw [List.singleton_inj.mp hlast, List.concat_eq_append]
    exact .inr ⟨rest, rfl, hentries⟩

/-- With one more entry there is one with a property and none after it without another just if the
last one has the first property, or it has the second and there was such an entry before. -/
theorem exists_split_snoc
    {α : Type} {P : List α → α → Prop} {Q : α → Prop} {entries : List α} {last : α} :
    (∃ before entry later, entries ++ [last] = before ++ entry :: later ∧
        P before entry ∧ ∀ other ∈ later, Q other) ↔
      P entries last ∨
        (∃ before entry later, entries = before ++ entry :: later ∧
          P before entry ∧ ∀ other ∈ later, Q other) ∧ Q last := by
  constructor
  · rintro ⟨before, entry, later, heq, hentry, hlater⟩
    rcases split_snoc heq with ⟨rfl, rfl, -⟩ | ⟨rest, rfl, hentries⟩
    · exact .inl hentry
    · rw [List.forall_mem_append, List.forall_mem_singleton] at hlater
      exact .inr ⟨⟨before, entry, rest, hentries, hentry, hlater.1⟩, hlater.2⟩
  · rintro (hlast | ⟨⟨before, entry, later, rfl, hentry, hlater⟩, hlast⟩)
    · exact ⟨entries, last, [], rfl, hlast, fun _ h => by contradiction⟩
    · refine ⟨before, entry, later ++ [last], by simp, hentry, ?_⟩
      rw [List.forall_mem_append, List.forall_mem_singleton]
      exact ⟨hlater, hlast⟩

namespace Watcher

variable {σ : Type} [Watcher σ]

/-- The state of a watcher after a list of events. -/
def tell (events : List Event) (watcher : σ) : σ :=
  events.foldl (fun watcher event => observe event watcher) watcher

@[simp]
theorem tell_nil (watcher : σ) : tell [] watcher = watcher :=
  rfl

@[simp]
theorem tell_append (first second : List Event) (watcher : σ) :
    tell (first ++ second) watcher = tell second (tell first watcher) :=
  List.foldl_append

end Watcher

namespace Memory

/-- The word at an address, where words past the capacity count as zero. -/
def wordAt (memory : Memory) (address : Word) : Word :=
  memory.getD address.toNat

/-- Whether an address is past the capacity. -/
def lacks (memory : Memory) (address : Word) : Bool :=
  memory.capacity ≤ address.toNat

/-- The addresses of a list before the first that memory lacks. -/
def reached (memory : Memory) (addresses : List Word) : List Word :=
  addresses.takeWhile fun address => !memory.lacks address

/-- The events of reading at each of the given addresses. -/
def reads (memory : Memory) (addresses : List Word) : List Event :=
  addresses.map fun address => .read address (memory.wordAt address)

theorem lacks_eq_false_iff {memory : Memory} {address : Word} :
    memory.lacks address = false ↔ address.toNat < memory.capacity := by
  simp [lacks]

/-- A memory of full size lacks no word. -/
theorem lacks_eq_false_of_full
    {memory : Memory} (h : memory.capacity = addressSpace) (address : Word) :
    memory.lacks address = false := by
  rw [lacks_eq_false_iff, h]
  exact address.toNat_lt_addressSpace

theorem find?_lacks_of_full
    {memory : Memory} (h : memory.capacity = addressSpace) (addresses : List Word) :
    addresses.find? memory.lacks = none := by
  rw [List.find?_eq_none]
  intro address _
  exact ne_true_of_eq_false (lacks_eq_false_of_full h address)

theorem reached_of_find?_eq_none
    {memory : Memory} {addresses : List Word} (h : addresses.find? memory.lacks = none) :
    memory.reached addresses = addresses := by
  apply List.takeWhile_eq_self_iff.mpr
  simpa using h

theorem reached_append_of_find?_eq_none
    {memory : Memory} {first second : List Word}
    (hfirst : first.find? memory.lacks = none) :
    memory.reached (first ++ second) = first ++ memory.reached second := by
  apply List.takeWhile_append_of_pos
  simpa using hfirst

theorem reached_append_of_find?_eq_some
    {memory : Memory} {first second : List Word} {address : Word}
    (hfirst : first.find? memory.lacks = some address) :
    memory.reached (first ++ second) = memory.reached first := by
  have hlacks : memory.lacks address = true := List.find?_some hfirst
  rw [reached, List.takeWhile_append, if_neg, reached]
  intro hlength
  have hself := List.IsPrefix.eq_of_length (List.takeWhile_prefix _) hlength
  have hmem := List.takeWhile_eq_self_iff.mp hself address (List.mem_of_find?_eq_some hfirst)
  simp [hlacks] at hmem

theorem get?_eq_some_wordAt
    {memory : Memory} {address : Word} (h : memory.lacks address = false) :
    memory.get? address.toNat = some (memory.wordAt address) := by
  have hlt := lacks_eq_false_iff.mp h
  simp [wordAt, getD, get?, Array.getElem?_eq_getElem hlt]

theorem get?_eq_none_of_lacks
    {memory : Memory} {address : Word} (h : memory.lacks address = true) :
    memory.get? address.toNat = none := by
  rw [get?_eq_none_iff]
  simpa [lacks] using h

end Memory

namespace Operand

/-- The number of words of its own that follow the operand. -/
def ownWords (operand : Operand) : Word :=
  if operand.usesNextWord then 1 else 0

theorem add_ownWords_of_plain {operand : Operand} (h : operand.usesNextWord = false) (span : Word) :
    span + operand.ownWords = span := by
  simp [ownWords, h]

/-- The address that the operand stands for, if it is a word of memory; `own` is the operand's own
word. -/
def address? (registers : Registers) (own : Word) : Operand → Option Word
  | indirect r => some (registers.get r)
  | indexed r => some (own + registers.get r)
  | pop | peek => some registers.sp
  | push => some (registers.sp - 1)
  | absolute => some own
  | register _ | immediate | literal _ => none

/-- Where the operand can be stored to, with its own word, if it has one, at `start`. -/
def place (registers : Registers) (memory : Memory) (start : Word) (operand : Operand) : Place :=
  match operand with
  | register r => .register r
  | operand =>
    match operand.address? registers (memory.wordAt start) with
    | some address => .memory address
    | none => .nowhere

/-- The value of the operand, with its own word, if it has one, at `start`. -/
def value (registers : Registers) (memory : Memory) (start : Word) (operand : Operand) : Word :=
  match operand with
  | register r => registers.get r
  | immediate => memory.wordAt start
  | literal value => value.toUInt16
  | operand =>
    match operand.address? registers (memory.wordAt start) with
    | some address => memory.wordAt address
    | none => 0

/-- The operand as resolved with its own word, if it has one, at `start`. -/
def resolved
    (registers : Registers) (memory : Memory) (start : Word) (operand : Operand) : Resolved where
  operand := operand
  place := operand.place registers memory start
  value := operand.value registers memory start

/-- The addresses at which the operand is read: that of its own word, then its own address. -/
def accesses
    (registers : Registers) (memory : Memory) (start : Word) (operand : Operand) : List Word :=
  (if operand.usesNextWord then [start] else []) ++
    (operand.address? registers (memory.wordAt start)).toList

end Operand

namespace Machine

variable {σ α β : Type} [Watcher σ]

/-- The machine after reads at the given addresses, when `span` words of the
instruction are read. -/
def consulted (m : Machine σ) (addresses : List Word) (span : Word) : Machine σ :=
  { m.onWatcher (Watcher.tell (m.memory.reads addresses)) with span }

/-- The action looks at the given addresses in turn.  It fails at the first that memory lacks, and
has the given result if memory lacks none of them. -/
structure LooksAt
    (action : Action σ α) (m : Machine σ) (addresses : List Word)
    (result : EStateM.Result Fault (Machine σ) α) : Prop where
  proceeds : addresses.find? m.memory.lacks = none → action m = result
  fails : ∀ address, addresses.find? m.memory.lacks = some address →
    ∃ span, action m =
      .error (.memory (.outOfRange address.toNat m.memory.capacity))
        (m.consulted (m.memory.reached addresses) span)

@[simp]
theorem memory_consulted (m : Machine σ) (addresses : List Word) (span : Word) :
    (m.consulted addresses span).memory = m.memory :=
  rfl

@[simp]
theorem registers_consulted (m : Machine σ) (addresses : List Word) (span : Word) :
    (m.consulted addresses span).registers = m.registers :=
  rfl

@[simp]
theorem span_consulted (m : Machine σ) (addresses : List Word) (span : Word) :
    (m.consulted addresses span).span = span :=
  rfl

@[simp]
theorem consulted_consulted
    (m : Machine σ) (first second : List Word) (span span' : Word) :
    (m.consulted first span).consulted second span' = m.consulted (first ++ second) span' := by
  simp [consulted, onWatcher, memory, Memory.reads]

theorem looksAt_nil (action : Action σ α) (m : Machine σ) : LooksAt action m [] (action m) where
  proceeds _ := rfl
  fails _ h := by simp at h

/-- Two phases of reading in a row are one phase. -/
theorem LooksAt.bind
    {action : Action σ α} {next : α → Action σ β} {m : Machine σ}
    {first second addresses : List Word} {span : Word} {answer : α}
    {result : EStateM.Result Fault (Machine σ) β}
    (haction : LooksAt action m first (.ok answer (m.consulted first span)))
    (hnext : LooksAt (next answer) (m.consulted first span) second result)
    (haddresses : addresses = first ++ second) :
    LooksAt (action >>= next) m addresses result := by
  subst haddresses
  constructor
  · intro hnone
    obtain ⟨hfirst, hsecond⟩ : first.find? m.memory.lacks = none ∧
        second.find? m.memory.lacks = none := by
      simpa using hnone
    rw [bind_of_ok (haction.proceeds hfirst), hnext.proceeds hsecond]
  · intro address hsome
    rw [List.find?_append] at hsome
    cases hfirst : first.find? m.memory.lacks with
    | some missing =>
      obtain ⟨span', hspan⟩ := haction.fails missing hfirst
      obtain rfl : missing = address := by simpa [hfirst] using hsome
      refine ⟨span', ?_⟩
      rw [bind_of_error hspan, Memory.reached_append_of_find?_eq_some hfirst]
    | none =>
      rw [hfirst, Option.none_or] at hsome
      obtain ⟨span', hspan⟩ := hnext.fails address hsome
      refine ⟨span', ?_⟩
      rw [bind_of_ok (haction.proceeds hfirst), hspan, consulted_consulted, memory_consulted,
        Memory.reached_append_of_find?_eq_none hfirst]

theorem LooksAt.andThen
    {action : Action σ α} {m : Machine σ} {addresses : List Word} {span : Word} {answer : α}
    (h : LooksAt action m addresses (.ok answer (m.consulted addresses span)))
    (next : α → Action σ β) :
    LooksAt (action >>= next) m addresses (next answer (m.consulted addresses span)) :=
  h.bind (looksAt_nil _ _) (List.append_nil addresses).symm

theorem LooksAt.congr
    {action action' : Action σ α} {m : Machine σ} {addresses : List Word}
    {result : EStateM.Result Fault (Machine σ) α}
    (h : LooksAt action m addresses result) (heq : action' m = action m) :
    LooksAt action' m addresses result where
  proceeds hnone := heq.trans (h.proceeds hnone)
  fails address hsome := by
    rw [heq]
    exact h.fails address hsome

theorem looksAt_fetch (m : Machine σ) (address : Word) :
    LooksAt (fetch address) m [address]
      (.ok (m.memory.wordAt address) (m.consulted [address] m.span)) := by
  obtain ⟨registers, ⟨memory, watcher⟩, steps, skip, span⟩ := m
  constructor
  · intro hnone
    have hget := Memory.get?_eq_some_wordAt (by simpa using hnone)
    simp only [Machine.memory] at hget ⊢
    simp [fetch, EStateM.adaptExcept, onBus, Bus.read, hget, consulted, onWatcher, Memory.reads,
      Watcher.tell, Machine.memory]
  · intro missing hsome
    obtain ⟨hlacks, rfl⟩ : memory.lacks address = true ∧ address = missing := by
      simpa [List.find?_cons_eq_some, Machine.memory] using hsome
    refine ⟨span, ?_⟩
    simp [fetch, EStateM.adaptExcept, onBus, Bus.read, Memory.get?_eq_none_of_lacks hlacks,
      consulted, onWatcher, Memory.reads, Memory.reached, hlacks, Machine.memory]

theorem looksAt_nextWord (m : Machine σ) :
    LooksAt nextWord m [m.registers.pc + m.span]
      (.ok (m.memory.wordAt (m.registers.pc + m.span))
        (m.consulted [m.registers.pc + m.span] (m.span + 1))) := by
  have hfetch := looksAt_fetch { m with span := m.span + 1 } (m.registers.pc + m.span)
  exact ⟨hfetch.proceeds, hfetch.fails⟩

theorem looksAt_resolveAt (m : Machine σ) (operand : Operand) (address : Word) :
    LooksAt (resolveAt operand address) m [address]
      (.ok ⟨operand, .memory address, m.memory.wordAt address⟩ (m.consulted [address] m.span)) :=
  LooksAt.bind (looksAt_fetch m address) (looksAt_nil _ _) rfl

/-- Resolving an operand looks at its accesses and answers with its place and its value. -/
theorem looksAt_resolve (m : Machine σ) (operand : Operand) :
    LooksAt (resolve operand) m
      (operand.accesses m.registers m.memory (m.registers.pc + m.span))
      (.ok (operand.resolved m.registers m.memory (m.registers.pc + m.span))
        (m.consulted (operand.accesses m.registers m.memory (m.registers.pc + m.span))
          (m.span + operand.ownWords))) := by
  cases operand with
  | register r =>
    rw [Operand.add_ownWords_of_plain rfl]
    exact (looksAt_nil (pure _) m).congr rfl
  | indirect r =>
    rw [Operand.add_ownWords_of_plain rfl]
    exact (looksAt_resolveAt m _ _).congr rfl
  | indexed r =>
    exact LooksAt.bind (looksAt_nextWord m) ((looksAt_resolveAt _ _ _).congr rfl) rfl
  | pop =>
    rw [Operand.add_ownWords_of_plain rfl]
    exact (looksAt_resolveAt m _ _).congr rfl
  | peek =>
    rw [Operand.add_ownWords_of_plain rfl]
    exact (looksAt_resolveAt m _ _).congr rfl
  | push =>
    rw [Operand.add_ownWords_of_plain rfl]
    exact (looksAt_resolveAt m _ _).congr rfl
  | absolute => exact LooksAt.bind (looksAt_nextWord m) (looksAt_resolveAt _ _ _) rfl
  | immediate => exact LooksAt.bind (looksAt_nextWord m) (looksAt_nil _ _) rfl
  | literal value =>
    rw [Operand.add_ownWords_of_plain rfl]
    exact (looksAt_nil (pure _) m).congr rfl

end Machine

end WordMachine
