import WordMachine.Proofs.Coherence

/-!
# What a drain zeroes

A pair is due to be zeroed when a packet was sent from it and its receiver was not stored again
since.  Whether it is can be told from the stores since power-on or the last reset, where the zeroes
of a drain count like any other stores, and the card marks the pairs that are due and no others.  So
a drain zeroes these pairs, and after it none is due until the next packet is sent.
-/

namespace WordMachine

namespace Memory

theorem get?_putAll_of_ne
    {memory : Memory} {stores : List (Word × Word)} {n : Nat}
    (h : ∀ store ∈ stores, n ≠ store.1.toNat) :
    (memory.putAll stores).get? n = memory.get? n := by
  induction stores generalizing memory with
  | nil => rfl
  | cons store stores ih =>
    rw [putAll_cons, ih fun other hother => h other (List.mem_cons_of_mem store hother), get?_put,
      if_neg fun hboth => h store List.mem_cons_self hboth.1]

/-- Stores that have the same value leave it at each of their addresses. -/
theorem get?_putAll_of_mem
    {memory : Memory} {stores : List (Word × Word)} {address value : Word}
    (hvalue : ∀ store ∈ stores, store.2 = value) (hmem : (address, value) ∈ stores)
    (hhit : memory.lacks address = false) :
    (memory.putAll stores).get? address.toNat = some value := by
  induction stores using List.reverseRecOn with
  | nil => contradiction
  | append_singleton stores store ih =>
    have hlt : address.toNat < (memory.putAll stores).capacity := by
      rw [capacity_putAll]
      exact lacks_eq_false_iff.mp hhit
    rw [putAll_append, putAll_cons, putAll_nil, get?_put, hvalue store (by simp)]
    by_cases hsame : address = store.1
    · rw [if_pos ⟨congrArg UInt16.toNat hsame, hlt⟩]
    · rw [if_neg fun hboth => hsame (UInt16.toNat_inj.mp hboth.1)]
      apply ih
      · exact fun other hother => hvalue other (List.mem_append_left _ hother)
      · rcases List.mem_append.mp hmem with hearlier | hlast
        · exact hearlier
        · rw [← List.mem_singleton.mp hlast] at hsame
          exact (hsame rfl).elim

end Memory

/-- Among the stores, made one after the other to the memory, one to the data word sent a packet,
and none after it is to the receiver word. -/
def Due (memory : Memory) (stores : List (Word × Word)) (data : Word) : Prop :=
  ∃ before value later, stores = before ++ (data, value) :: later ∧
    (memory.putAll before).send? (data, value) ≠ none ∧ ∀ store ∈ later, store.1 ≠ data - 1

section

variable {memory : Memory} {stores later : List (Word × Word)} {data : Word}

theorem not_due_nil : ¬Due memory [] data := by
  rintro ⟨before, value, later, heq, -⟩
  simp at heq

theorem due_cons {store : Word × Word} :
    Due memory (store :: stores) data ↔
      Due (memory.put store.1 store.2) stores data ∨
        (data = store.1 ∧ memory.send? store ≠ none ∧
          ∀ other ∈ stores, other.1 ≠ data - 1) := by
  constructor
  · rintro ⟨before, value, later, heq, hsend, hlater⟩
    cases before with
    | nil =>
      cases heq
      exact .inr ⟨rfl, hsend, hlater⟩
    | cons first before =>
      injection heq with hfirst hstores
      subst hfirst
      exact .inl ⟨before, value, later, hstores, hsend, hlater⟩
  · rintro (⟨before, value, later, rfl, hsend, hlater⟩ | ⟨rfl, hsend, hlater⟩)
    · exact ⟨store :: before, value, later, rfl, hsend, hlater⟩
    · exact ⟨[], store.2, stores, rfl, hsend, hlater⟩

/-- More stores send more packets, and those to receiver words take back what was due. -/
theorem due_append :
    Due memory (stores ++ later) data ↔
      Due (memory.putAll stores) later data ∨
        (Due memory stores data ∧ ∀ store ∈ later, store.1 ≠ data - 1) := by
  induction stores generalizing memory with
  | nil =>
    rw [List.nil_append, Memory.putAll_nil]
    exact ⟨.inl, fun h => h.resolve_right fun hnil => not_due_nil hnil.1⟩
  | cons store stores ih =>
    rw [List.cons_append, due_cons, due_cons, ih, Memory.putAll_cons, List.forall_mem_append]
    simp only [or_and_right, and_assoc, or_assoc]

/-- Only the data words of pairs can be due. -/
theorem Due.isData (h : Due memory stores data) : IsData data := by
  obtain ⟨before, value, later, -, hsend, -⟩ := h
  by_contra hdata
  exact hsend (if_neg fun hboth => hdata hboth.1)

theorem not_due_of_sends_eq_nil (h : memory.sends stores = []) : ¬Due memory stores data := by
  induction stores generalizing memory with
  | nil => exact not_due_nil
  | cons store stores ih =>
    obtain ⟨hstore, hstores⟩ := List.append_eq_nil_iff.mp h
    rw [due_cons]
    rintro (hdue | ⟨-, hsend, -⟩)
    · exact ih hstores hdue
    · exact hsend (Option.toList_eq_nil_iff.mp hstore)

end

/-- A pair is marked after stores if they make it due, or if it was marked before and its receiver
is not stored. -/
theorem NetworkCard.Follows.mem_unzeroed_onWrites
    {card : NetworkCard} {memory : Memory} (h : card.Follows memory)
    {stores : List (Word × Word)} (hhit : ∀ store ∈ stores, memory.lacks store.1 = false)
    {data : Word} :
    data ∈ (card.onWrites stores).unzeroed ↔
      Due memory stores data ∨
        (data ∈ card.unzeroed ∧ ∀ store ∈ stores, store.1 ≠ data - 1) := by
  induction stores generalizing card memory with
  | nil =>
    change data ∈ card.unzeroed ↔ _
    simp [not_due_nil]
  | cons store stores ih =>
    have hrest := ih (h.onWrite (hhit store List.mem_cons_self) store.2) (Memory.hit_rest hhit)
    change data ∈ ((card.onWrite store.1 store.2).onWrites stores).unzeroed ↔ _
    rw [hrest, h.mem_unzeroed_onWrite, due_cons, List.forall_mem_cons,
      @ne_comm Word store.1]
    simp only [or_and_right, and_assoc, or_assoc]

/-- The zeroes of a drain are at the words of the marked pairs. -/
theorem forall_mem_zeroes {marked : List Word} {P : Word × Word → Prop} :
    (∀ store ∈ zeroes marked, P store) ↔ ∀ data ∈ marked, P (data - 1, 0) ∧ P (data, 0) := by
  rw [zeroes, List.forall_mem_flatMap]
  simp only [List.forall_mem_cons, List.not_mem_nil, false_implies, implies_true, and_true]

/-- A drain of a card with an empty outbox and nothing marked does nothing. -/
theorem Machine.drain_of_idle
    {m : Machine Peripherals} (houtbox : m.devices.network.outbox = [])
    (hunzeroed : m.devices.network.unzeroed = WordSet.empty) : m.drain = .ok [] m := by
  obtain ⟨registers, ⟨memory, display, keyboard, network, touched⟩, steps, skip, span⟩ := m
  obtain ⟨hub, inbound, outbound, outbox, unzeroed⟩ := network
  cases houtbox
  cases hunzeroed
  rfl

namespace Operation

/-- The stores since the last reset, when one more operation follows on earlier ones. -/
def record (m : Machine Peripherals) (stores : List (Word × Word)) (operation : Operation) :
    List (Word × Word) :=
  if operation.isReset then [] else stores ++ operation.stores m

/-- A drain is at work on memory and devices alone. -/
theorem perform_drain_eq (m : Machine Peripherals) :
    drain.perform m = { m with bus := finalState (Bus.drain m.bus) } := by
  obtain ⟨registers, bus, steps, skip, span⟩ := m
  simp only [perform, Machine.drain, Machine.onBus]
  cases Bus.drain bus <;> rfl

end Operation

namespace Session

/-- The stores since the last reset, when more operations follow on earlier ones. -/
def records (session : Session) (stores : List (Word × Word)) :
    List Operation → List (Word × Word)
  | [] => stores
  | operation :: operations =>
    (session.next operation).records (operation.record session.machine stores) operations

/-- The stores of a session since power-on or its last reset.  A reset clears every word, so what
was stored or sent before it does not matter any more. -/
def history (capacity : Nat) (hub : Word) (operations : List Operation) : List (Word × Word) :=
  (powerOn capacity hub).records [] operations

variable {session : Session} {capacity : Nat} {stores : List (Word × Word)}

/-- Memory is what the stores made of blank memory, and the marked pairs are those that are due. -/
structure Remembers (session : Session) (capacity : Nat) (stores : List (Word × Word)) : Prop where
  memory : session.machine.memory = (Memory.blank capacity).putAll stores
  marked : ∀ data, data ∈ session.machine.devices.network.unzeroed ↔
    Due (Memory.blank capacity) stores data

theorem remembers_powerOn (capacity : Nat) (hub : Word) :
    (powerOn capacity hub).Remembers capacity [] where
  memory := rfl
  marked _ := iff_of_false WordSet.not_mem_empty not_due_nil

theorem Remembers.next_reset (h : session.Remembers capacity stores) (devicesFirst : Bool) :
    (session.next (.reset devicesFirst)).Remembers capacity [] := by
  obtain ⟨hmemory, hdevices⟩ := Operation.perform_reset session.machine devicesFirst
  have hblank : Memory.blank (min capacity addressSpace) = Memory.blank capacity := by
    simp only [Memory.blank, Nat.min_assoc, Nat.min_self]
  constructor
  · change ((Operation.reset devicesFirst).perform session.machine).memory = _
    rw [hmemory, h.memory, Memory.clear, Memory.capacity_putAll, Memory.capacity_blank, hblank]
    rfl
  · intro data
    change data ∈ ((Operation.reset devicesFirst).perform session.machine).devices.network.unzeroed
      ↔ _
    rw [hdevices]
    exact iff_of_false WordSet.not_mem_empty not_due_nil

/-- After a drain nothing is due: each pair that was due has its receiver stored, and no zero that
is stored sends a packet. -/
theorem Remembers.next_drain
    (h : session.Remembers capacity stores) (hsound : session.Sound) :
    (session.next .drain).Remembers capacity
      (stores ++ Operation.drain.stores session.machine) := by
  obtain ⟨-, hmemory, -, -, hunzeroed⟩ := Operation.perform_drain hsound.follows
  rw [Operation.stores_drain hsound.follows]
  constructor
  · rw [Memory.putAll_append, ← h.memory]
    exact hmemory
  · intro data
    change data ∈ (Operation.drain.perform session.machine).devices.network.unzeroed ↔ _
    rw [hunzeroed]
    refine iff_of_false WordSet.not_mem_empty ?_
    rw [due_append, ← h.memory, ← h.marked]
    rintro (hdue | ⟨hmarked, hreceiver⟩)
    · exact not_due_of_sends_eq_nil (Memory.sends_zeroes hsound.follows.zeroable) hdue
    · exact hreceiver (data - 1, 0)
        (List.mem_flatMap.mpr ⟨data, hmarked, List.mem_cons_self⟩) rfl

theorem Remembers.next_of_not_empties
    (h : session.Remembers capacity stores) (hsound : session.Sound) {operation : Operation}
    (hempties : operation.empties = false) :
    (session.next operation).Remembers capacity
      (stores ++ operation.stores session.machine) := by
  obtain ⟨card, htraffic, hnetwork, hmemory, hhit, -⟩ :=
    Operation.perform_traffic session.machine hempties
  constructor
  · rw [Memory.putAll_append, ← h.memory]
    exact hmemory
  · intro data
    change data ∈ (operation.perform session.machine).devices.network.unzeroed ↔ _
    rw [hnetwork, (htraffic.follows hsound.follows).mem_unzeroed_onWrites hhit, htraffic.unzeroed,
      due_append, ← h.memory, h.marked]

theorem Remembers.next
    (h : session.Remembers capacity stores) (hsound : session.Sound) (operation : Operation) :
    (session.next operation).Remembers capacity (operation.record session.machine stores) := by
  cases operation with
  | reset devicesFirst => exact h.next_reset devicesFirst
  | drain => exact h.next_drain hsound
  | _ => exact h.next_of_not_empties hsound rfl

theorem Remembers.nexts
    (h : session.Remembers capacity stores) (hsound : session.Sound)
    (operations : List Operation) :
    (session.nexts operations).Remembers capacity (session.records stores operations) := by
  induction operations generalizing session stores with
  | nil => exact h
  | cons operation operations ih => exact ih (h.next hsound operation) (hsound.next operation)

theorem remembers_after (capacity : Nat) (hub : Word) (operations : List Operation) :
    (after capacity hub operations).Remembers capacity (history capacity hub operations) :=
  (remembers_powerOn capacity hub).nexts (sound_powerOn capacity hub) operations

theorem records_snoc (session : Session) (stores : List (Word × Word))
    (operations : List Operation) (operation : Operation) :
    session.records stores (operations ++ [operation]) =
      operation.record (session.nexts operations).machine (session.records stores operations) := by
  induction operations generalizing session stores with
  | nil => rfl
  | cons first operations ih => exact ih (session.next first) (first.record session.machine stores)

/-- An operation other than a reset makes due what its stores do, and leaves due what they spare. -/
theorem due_after_snoc {hub : Word} {operations : List Operation} {operation : Operation}
    (hreset : operation.isReset = false) {data : Word} :
    Due (Memory.blank capacity) (history capacity hub (operations ++ [operation])) data ↔
      Due (after capacity hub operations).machine.memory
          (operation.stores (after capacity hub operations).machine) data ∨
        (Due (Memory.blank capacity) (history capacity hub operations) data ∧
          ∀ store ∈ operation.stores (after capacity hub operations).machine,
            store.1 ≠ data - 1) := by
  have hnexts : (powerOn capacity hub).nexts operations = after capacity hub operations := rfl
  have hhistory : history capacity hub (operations ++ [operation]) =
      history capacity hub operations ++
        operation.stores (after capacity hub operations).machine := by
    rw [history, records_snoc, hnexts, Operation.record, hreset, history]
    rfl
  rw [hhistory, due_append, ← (remembers_after capacity hub operations).memory]

end Session

/-- What a drain makes of a machine in which the given pairs are due: it zeroes both words of each,
keeps every other word of memory and all that the processor has, and leaves nothing in the outbox
and nothing marked. -/
structure Drained (due : Word → Prop) (m m' : Machine Peripherals) : Prop where
  zeroed : ∀ data, due data → IsData data ∧
    m'.memory.get? (data - 1).toNat = some 0 ∧ m'.memory.get? data.toNat = some 0
  kept : ∀ n, (∀ data, due data → n ≠ (data - 1).toNat ∧ n ≠ data.toNat) →
    m'.memory.get? n = m.memory.get? n
  spared : ∀ data, IsData data → ¬due data →
    m'.memory.get? (data - 1).toNat = m.memory.get? (data - 1).toNat ∧
      m'.memory.get? data.toNat = m.memory.get? data.toNat
  registers : m'.registers = m.registers
  steps : m'.steps = m.steps
  skip : m'.skip = m.skip
  outbox : m'.devices.network.outbox = []
  unzeroed : m'.devices.network.unzeroed = WordSet.empty

theorem drained_of_follows
    {m : Machine Peripherals} (h : m.devices.network.Follows m.memory) :
    Drained (· ∈ m.devices.network.unzeroed) m (Operation.drain.perform m) := by
  obtain ⟨-, hmemory, -, houtbox, hunzeroed⟩ := Operation.perform_drain h
  have hvalue : ∀ store ∈ zeroes m.devices.network.unzeroed.toList, store.2 = 0 :=
    forall_mem_zeroes.mpr fun data hdata => ⟨rfl, rfl⟩
  have hkept : ∀ n,
      (∀ data ∈ m.devices.network.unzeroed, n ≠ (data - 1).toNat ∧ n ≠ data.toNat) →
        (Operation.drain.perform m).memory.get? n = m.memory.get? n := by
    intro n hn
    rw [hmemory]
    exact Memory.get?_putAll_of_ne (forall_mem_zeroes.mpr hn)
  constructor
  case zeroed =>
    intro data hdata
    obtain ⟨hisdata, hhit, -⟩ := h.marked data hdata
    rw [hmemory]
    refine ⟨hisdata, ?_, ?_⟩
    · exact Memory.get?_putAll_of_mem hvalue
        (List.mem_flatMap.mpr ⟨data, hdata, by simp⟩) (hisdata.lacks_pred hhit)
    · exact Memory.get?_putAll_of_mem hvalue
        (List.mem_flatMap.mpr ⟨data, hdata, by simp⟩) hhit
  case kept => exact hkept
  case spared =>
    intro data hdata hnot
    have hpred := hdata.toNat_pred
    -- The pairs do not overlap, since a data word is at an odd address behind its receiver word.
    constructor <;>
    · apply hkept
      intro other hother
      obtain ⟨hisdata, -⟩ := h.marked other hother
      have hpred' := hisdata.toNat_pred
      have hne : data.toNat ≠ other.toNat := fun heq => hnot (UInt16.toNat_inj.mp heq ▸ hother)
      obtain ⟨hstart, hend, hodd⟩ := hdata
      obtain ⟨hstart', hend', hodd'⟩ := hisdata
      omega
  case registers => rw [Operation.perform_drain_eq]
  case steps => rw [Operation.perform_drain_eq]
  case skip => rw [Operation.perform_drain_eq]
  case outbox => exact houtbox
  case unzeroed => exact hunzeroed

namespace Session

/-- At any point of a session a drain succeeds and zeroes just the pairs that are due by the stores
since the last reset.  A second drain straight after it gives no packets, stores nothing, and
changes nothing. -/
theorem drain_zeroes_due (capacity : Nat) (hub : Word) (operations : List Operation) :
    let m := (after capacity hub operations).machine
    ∃ packets m', m.drain = .ok packets m' ∧
      Drained (Due (Memory.blank capacity) (history capacity hub operations)) m m' ∧
      m'.drain = .ok [] m' ∧ Operation.drain.stores m' = [] := by
  intro m
  have hfollows := (sound_after capacity hub operations).follows
  have hmarked : (· ∈ m.devices.network.unzeroed) =
      Due (Memory.blank capacity) (history capacity hub operations) :=
    funext fun data => propext ((remembers_after capacity hub operations).marked data)
  obtain ⟨hdrain, -, hfollows', houtbox, hunzeroed⟩ := Operation.perform_drain hfollows
  refine ⟨_, _, hdrain, hmarked ▸ drained_of_follows hfollows, ?_, ?_⟩
  · exact Machine.drain_of_idle houtbox hunzeroed
  · rw [Operation.stores_drain hfollows', hunzeroed]
    rfl

/-- The pair from which an instruction has sent a packet is due, and is zeroed by a drain. -/
theorem drain_zeroes_due_prepared :
    Due (Memory.blank addressSpace) (history addressSpace 1 (prepared ++ [.step])) 0x6081 ∧
      ∃ packets m', (after addressSpace 1 (prepared ++ [.step])).machine.drain = .ok packets m' ∧
        m'.memory.get? 0x6080 = some 0 ∧ m'.memory.get? 0x6081 = some 0 := by
  have hdue : Due (Memory.blank addressSpace)
      (history addressSpace 1 (prepared ++ [.step])) 0x6081 := by
    refine (due_after_snoc rfl).mpr (.inl ?_)
    have hsend := Option.ne_none_iff_exists'.mpr ⟨_, send?_prepared⟩
    rw [stores_step_prepared, due_cons]
    exact .inr ⟨rfl, hsend, nofun⟩
  obtain ⟨packets, m', hdrain, hdrained, -⟩ :=
    drain_zeroes_due addressSpace 1 (prepared ++ [.step])
  obtain ⟨-, hreceiver, hdata⟩ := hdrained.zeroed _ hdue
  exact ⟨hdue, packets, m', hdrain, hreceiver, hdata⟩

end Session

end WordMachine
