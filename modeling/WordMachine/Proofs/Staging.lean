import WordMachine.Proofs.Session

/-!
# Packets whose pairs are staged

A program stages a packet when it stores the receiver of a pair before each store of its data word.
Then what it sends is told from its stores alone, and no drain between them takes anything away: a
drain zeroes only pairs whose receiver was not stored again since their packet was sent.
-/

namespace WordMachine

/-- The word last stored to an address, and zero if there is none. -/
def lastStored (stores : List (Word × Word)) (address : Word) : Word :=
  stores.foldl (fun word store => if store.1 = address then store.2 else word) 0

theorem lastStored_snoc (stores : List (Word × Word)) (store : Word × Word) (address : Word) :
    lastStored (stores ++ [store]) address =
      if store.1 = address then store.2 else lastStored stores address :=
  List.foldl_append

/-- The packets that stores send after earlier ones, if nothing else happens to memory. -/
def packetsAfter (earlier : List (Word × Word)) : List (Word × Word) → List Packet
  | [] => []
  | store :: stores =>
    (Packet.sent? (lastStored earlier (store.1 - 1)) store).toList ++
      packetsAfter (earlier ++ [store]) stores

/-- One packet for each store to a data word whose receiver was last stored as other than zero. -/
def packets (stores : List (Word × Word)) : List Packet :=
  packetsAfter [] stores

theorem packetsAfter_append (earlier first second : List (Word × Word)) :
    packetsAfter earlier (first ++ second) =
      packetsAfter earlier first ++ packetsAfter (earlier ++ first) second := by
  induction first generalizing earlier with
  | nil => rw [List.append_nil]; rfl
  | cons store first ih =>
    rw [List.cons_append, packetsAfter, packetsAfter, ih, List.append_assoc, List.append_assoc,
      List.singleton_append]

theorem packets_snoc (stores : List (Word × Word)) (store : Word × Word) :
    packets (stores ++ [store]) =
      packets stores ++ (Packet.sent? (lastStored stores (store.1 - 1)) store).toList := by
  rw [packets, packetsAfter_append, List.nil_append, packets, packetsAfter, packetsAfter,
    List.append_nil]

theorem length_packets_le (stores : List (Word × Word)) :
    (packets stores).length ≤ stores.length := by
  induction stores using List.reverseRecOn with
  | nil => exact Nat.le_refl 0
  | append_singleton stores store ih =>
    rw [packets_snoc, List.length_append, List.length_append, List.length_singleton]
    exact Nat.add_le_add ih (Option.length_toList_le)

/-- Since the last store to a data word its receiver word has been stored. -/
def Awaits (stores : List (Word × Word)) (data : Word) : Prop :=
  ∃ earlier receiver between, stores = earlier ++ (data - 1, receiver) :: between ∧
    ∀ store ∈ between, store.1 ≠ data

/-- Between any two stores to a data word, and before the first, there is one to its receiver
word. -/
def Staged (stores : List (Word × Word)) : Prop :=
  ∀ before data word later, stores = before ++ (data, word) :: later → IsData data →
    Awaits before data

theorem Awaits.of_snoc
    {stores : List (Word × Word)} {store : Word × Word} {data : Word}
    (h : Awaits (stores ++ [store]) data) :
    store.1 = data - 1 ∨ (Awaits stores data ∧ store.1 ≠ data) := by
  obtain ⟨earlier, receiver, between, heq, hbetween⟩ := h
  rcases split_snoc heq with ⟨-, hstore, -⟩ | ⟨rest, rfl, hstores⟩
  · left
    rw [← hstore]
  · rw [List.forall_mem_append, List.forall_mem_singleton] at hbetween
    exact .inr ⟨⟨earlier, receiver, rest, hstores, hbetween.1⟩, hbetween.2⟩

theorem Staged.of_append
    {first second : List (Word × Word)} (h : Staged (first ++ second)) : Staged first := by
  intro before data word later heq
  apply h before data word (later ++ second)
  rw [heq, List.append_assoc, List.cons_append]

theorem staged_nil : Staged [] := by
  intro before data word later heq
  simp at heq

theorem staged_snoc {stores : List (Word × Word)} {store : Word × Word} :
    Staged (stores ++ [store]) ↔ Staged stores ∧ (IsData store.1 → Awaits stores store.1) := by
  constructor
  · intro h
    exact ⟨h.of_append, h stores store.1 store.2 [] rfl⟩
  · rintro ⟨hstaged, hlast⟩ before data word later heq
    rcases split_snoc heq with ⟨rfl, rfl, -⟩ | ⟨rest, -, hstores⟩
    · exact hlast
    · exact hstaged before data word rest hstores

theorem ne_pred_of_mem_zeroes
    {marked : List Word} {data : Word} (hdata : IsData data)
    (hmarked : ∀ other ∈ marked, IsData other)
    (hnot : data ∉ marked) : ∀ store ∈ zeroes marked, store.1 ≠ data - 1 := by
  intro store hstore heq
  obtain ⟨other, hother, hmem⟩ := List.mem_flatMap.mp hstore
  rcases List.mem_cons.mp hmem with rfl | hmem
  · have hsame : other = data := by grind
    exact hnot (hsame ▸ hother)
  · rw [List.mem_singleton.mp hmem] at heq
    exact hdata.not_pred (heq ▸ hmarked other hother)

namespace NetworkCard

/-- The pairs that await their data word are as they were stored, and no drain would zero them. -/
def Spares (card : NetworkCard) (memory : Memory) (stores : List (Word × Word)) : Prop :=
  ∀ data, IsData data → Awaits stores data →
    memory.wordAt (data - 1) = lastStored stores (data - 1) ∧ data ∉ card.unzeroed

variable {card : NetworkCard} {memory : Memory} {stores : List (Word × Word)}

theorem Spares.onWrite
    (h : card.Spares memory stores) (hfollows : card.Follows memory) {store : Word × Word}
    (hhit : memory.lacks store.1 = false) :
    (card.onWrite store.1 store.2).Spares (memory.put store.1 store.2) (stores ++ [store]) := by
  intro data hdata hawaits
  rw [lastStored_snoc, hfollows.mem_unzeroed_onWrite]
  by_cases hreceiver : store.1 = data - 1
  · rw [if_pos hreceiver, ← hreceiver]
    refine ⟨Memory.wordAt_put_self hhit store.2, ?_⟩
    rintro (⟨rfl, -⟩ | ⟨-, hother⟩)
    · exact hdata.not_pred (hreceiver ▸ hdata)
    · exact hother rfl
  · obtain ⟨hawaits, hne⟩ := hawaits.of_snoc.resolve_left hreceiver
    obtain ⟨hword, hunmarked⟩ := h data hdata hawaits
    rw [if_neg hreceiver, Memory.wordAt_put_of_ne _ _ (Ne.symm hreceiver)]
    refine ⟨hword, ?_⟩
    rintro (⟨rfl, -⟩ | ⟨hmarked, -⟩)
    · exact hne rfl
    · exact hunmarked hmarked

/-- What a store sends is told from the stores before it. -/
theorem Spares.send?_eq
    (h : card.Spares memory stores) {store : Word × Word} (hstaged : Staged (stores ++ [store])) :
    memory.send? store = Packet.sent? (lastStored stores (store.1 - 1)) store := by
  by_cases hdata : IsData store.1
  · rw [Memory.send?, (h store.1 hdata ((staged_snoc.mp hstaged).2 hdata)).1]
  · rw [Memory.send?, Packet.sent?, Packet.sent?, if_neg fun hboth => hdata hboth.1,
      if_neg fun hboth => hdata hboth.1]

/-- Stores to the rings and the zeroing of marked pairs do not touch the pairs that await their data
word. -/
theorem Spares.of_unchanged
    (h : card.Spares memory stores) {card' : NetworkCard} {memory' : Memory}
    (hmemory : ∀ data, IsData data → data ∉ card.unzeroed →
      memory'.wordAt (data - 1) = memory.wordAt (data - 1))
    (hcard : ∀ data, data ∈ card'.unzeroed → data ∈ card.unzeroed) :
    card'.Spares memory' stores := by
  intro data hdata hawaits
  obtain ⟨hword, hunmarked⟩ := h data hdata hawaits
  rw [hmemory data hdata hunmarked]
  exact ⟨hword, fun hmarked => hunmarked (hcard data hmarked)⟩

end NetworkCard

namespace Operation

/-- The store that an operation is, if it is one. -/
def store? : Operation → Option (Word × Word)
  | write address value => some (UInt16.ofNat address, UInt16.ofNat value)
  | _ => none

/-- The stores among operations. -/
def written (operations : List Operation) : List (Word × Word) :=
  operations.filterMap store?

/-- The operation is a store that memory takes, or input to the machine, or a drain. -/
def Served (capacity : Nat) : Operation → Prop
  | write address value => address < capacity ∧ address < addressSpace ∧ value < addressSpace
  | pressKey _ | receive _ | drain => True
  | load _ | step | run _ | reset _ => False

theorem written_snoc (operations : List Operation) (operation : Operation) :
    written (operations ++ [operation]) = written operations ++ operation.store?.toList := by
  rw [written, written, List.filterMap_append]
  cases h : operation.store? <;> simp [h]

/-- From one drain to the next no more packets are sent than the outbox holds. -/
def Paced (operations : List Operation) : Prop :=
  ∀ before between later, operations = before ++ between ++ later → drain ∉ between →
    (packets (written (before ++ between))).length ≤
      (packets (written before)).length + NetworkCard.outboxLimit

theorem Paced.of_append
    {first second : List Operation} (h : Paced (first ++ second)) : Paced first := by
  intro before between later heq hdrain
  apply h before between (later ++ second) _ hdrain
  rw [heq, List.append_assoc]

theorem paced_of_length
    {operations : List Operation} (h : operations.length ≤ NetworkCard.outboxLimit) :
    Paced operations := by
  intro before between later heq _
  have hpackets := length_packets_le (written (before ++ between))
  have hwritten : (written (before ++ between)).length ≤ (before ++ between).length :=
    List.length_filterMap_le _ _
  have hlength : operations.length = (before ++ between).length + later.length := by
    rw [heq, List.length_append]
  omega

end Operation

namespace Session

variable {session : Session} {stores : List (Word × Word)}

/-- The pairs that await their data word are spared, and nothing that was sent is lost. -/
structure Keeps (session : Session) (stores : List (Word × Word)) : Prop where
  spares : session.machine.devices.network.Spares session.machine.memory stores
  tally : session.collected ++ session.sent = packets stores

theorem keeps_powerOn (capacity : Nat) (hub : Word) : (powerOn capacity hub).Keeps [] where
  spares data _ hawaits := by
    obtain ⟨earlier, receiver, between, heq, -⟩ := hawaits
    simp at heq
  tally := rfl

/-- A store to a data word sends what was last stored to its receiver word. -/
theorem Keeps.next_write
    (h : session.Keeps stores) (hsound : session.Sound) {address value : Nat}
    (haddress : address < session.machine.memory.capacity) (hvalue : value < addressSpace)
    (hstaged : Staged (stores ++ [(UInt16.ofNat address, UInt16.ofNat value)])) :
    (session.next (.write address value)).Keeps
      (stores ++ [(UInt16.ofNat address, UInt16.ofNat value)]) := by
  have hwrite : (Operation.write address value).empties = false := rfl
  obtain ⟨card, htraffic, hnetwork, hmemory, hhit, -⟩ :=
    Operation.perform_traffic session.machine hwrite
  obtain ⟨hsent, hcollected⟩ := session.next_of_not_empties hwrite
  rw [Operation.stores_write haddress hvalue] at hnetwork hmemory hhit hsent
  have hspares : card.Spares session.machine.memory stores := by
    have hunzeroed := htraffic.unzeroed
    intro data hdata hawaits
    rw [hunzeroed]
    exact h.spares data hdata hawaits
  constructor
  · change (Operation.perform session.machine _).devices.network.Spares
      (Operation.perform session.machine _).memory _
    rw [hnetwork, hmemory]
    exact hspares.onWrite (htraffic.follows hsound.follows) (hhit _ List.mem_cons_self)
  · rw [hsent, hcollected, packets_snoc, ← List.append_assoc, h.tally]
    congr 1
    rw [← hspares.send?_eq hstaged]
    exact List.append_nil _

/-- Input to the machine leaves the outbound pairs alone. -/
theorem Keeps.next_input
    (h : session.Keeps stores) (hsound : session.Sound) {operation : Operation}
    (hinput : operation.isInput = true) : (session.next operation).Keeps stores := by
  have hempties := Operation.empties_of_isInput hinput
  obtain ⟨card, htraffic, hnetwork, hmemory, hhit, hrings⟩ :=
    Operation.perform_traffic session.machine hempties
  obtain ⟨hsent, hcollected⟩ := session.next_of_not_empties hempties
  have hoff (data : Word) (hdata : IsData data) (word : Word)
      (hring : IsInbound word ∨ IsKey word) : word ≠ data - 1 := by
    have hpred := hdata.toNat_pred
    obtain ⟨hstart, hend, hodd⟩ := hdata
    rintro rfl
    rcases hring with ⟨hlow, hhigh⟩ | ⟨hlow, hhigh⟩ <;> omega
  have hnone := Operation.sends_of_isInput session.machine hinput
  constructor
  · apply h.spares.of_unchanged
    · intro data hdata _
      change (operation.perform session.machine).memory.wordAt _ = _
      rw [hmemory]
      apply Memory.wordAt_putAll_of_ne
      intro store hstore
      exact hoff data hdata store.1 (hrings hinput store hstore)
    · intro data hdata
      change data ∈ (operation.perform session.machine).devices.network.unzeroed at hdata
      rw [hnetwork] at hdata
      have hmem := (htraffic.follows hsound.follows).mem_unzeroed_of_onWrites hhit hnone hdata
      rw [htraffic.unzeroed] at hmem
      exact hmem
  · rw [hsent, hcollected, hnone, List.append_nil, h.tally]

/-- A drain that comes before the outbox overflows gives all that was sent. -/
theorem Keeps.next_drain
    (h : session.Keeps stores) (hsound : session.Sound)
    (hlength : session.sent.length ≤ NetworkCard.outboxLimit) :
    (session.next .drain).Keeps stores ∧ (session.next .drain).collected = packets stores := by
  obtain ⟨hdrain, hmemory, -, -, hunzeroed⟩ := Operation.perform_drain hsound.follows
  have hcollected : (session.next .drain).collected = packets stores := by
    rw [← h.tally]
    simp only [next, hdrain]
    rw [hsound.outbox, latest_eq_self hlength]
  refine ⟨⟨?_, ?_⟩, hcollected⟩
  · apply h.spares.of_unchanged
    · intro data hdata hunmarked
      change (Operation.drain.perform session.machine).memory.wordAt _ = _
      rw [hmemory]
      apply Memory.wordAt_putAll_of_ne
      exact ne_pred_of_mem_zeroes hdata
        (fun other hother => (hsound.follows.marked other hother).1) hunmarked
    · intro data hdata
      change data ∈ (Operation.drain.perform session.machine).devices.network.unzeroed at hdata
      rw [hunzeroed] at hdata
      exact (WordSet.not_mem_empty hdata).elim
  · have hsent : (session.next .drain).sent = [] := by
      change [] ++ session.machine.memory.sends (Operation.drain.stores session.machine) = []
      rw [Operation.stores_drain hsound.follows, Memory.sends_zeroes hsound.follows.zeroable]
      rfl
    rw [hcollected, hsent, List.append_nil]

/-- What was sent before the last drain is collected. -/
def Collects (session : Session) (operations : List Operation) : Prop :=
  ∃ before between, operations = before ++ between ∧ .drain ∉ between ∧
    session.collected = packets (Operation.written before)

theorem collects_powerOn (capacity : Nat) (hub : Word) : (powerOn capacity hub).Collects [] :=
  ⟨[], [], rfl, List.not_mem_nil, rfl⟩

/-- An operation other than a drain prolongs the stretch since the last drain. -/
theorem Collects.next
    {operations : List Operation} (h : session.Collects operations) {operation : Operation}
    (hempties : operation.empties = false) :
    (session.next operation).Collects (operations ++ [operation]) := by
  obtain ⟨before, between, heq, hdrain, hcollected⟩ := h
  refine ⟨before, between ++ [operation], ?_, ?_, ?_⟩
  · rw [heq, List.append_assoc]
  · intro hmem
    rcases List.mem_append.mp hmem with hbetween | hlast
    · exact hdrain hbetween
    · rw [← List.mem_singleton.mp hlast] at hempties
      contradiction
  · rw [(session.next_of_not_empties hempties).2]
    exact hcollected

theorem collects_next_drain
    {operations : List Operation}
    (hall : (session.next .drain).collected = packets (Operation.written operations)) :
    (session.next .drain).Collects (operations ++ [.drain]) := by
  refine ⟨operations ++ [.drain], [], (List.append_nil _).symm, List.not_mem_nil, ?_⟩
  rw [hall, Operation.written_snoc]
  exact congrArg packets (List.append_nil _).symm

theorem Keeps.length_sent_le
    {operations later : List Operation} (h : session.Keeps (Operation.written operations))
    (hcollects : session.Collects operations) (hpaced : Operation.Paced (operations ++ later)) :
    session.sent.length ≤ NetworkCard.outboxLimit := by
  obtain ⟨before, between, heq, hdrain, hcollected⟩ := hcollects
  have hpace := hpaced before between later (by rw [heq]) hdrain
  have htally := congrArg List.length h.tally
  rw [List.length_append, hcollected, heq] at htally
  omega

theorem keeps_after
    (capacity : Nat) (hub : Word) {operations : List Operation}
    (hserved : ∀ operation ∈ operations, operation.Served capacity)
    (hstaged : Staged (Operation.written operations)) (hpaced : Operation.Paced operations) :
    (after capacity hub operations).Keeps (Operation.written operations) ∧
      (after capacity hub operations).Collects operations := by
  induction operations using List.reverseRecOn with
  | nil => exact ⟨keeps_powerOn capacity hub, collects_powerOn capacity hub⟩
  | append_singleton operations operation ih =>
    have hstaged' : Staged (Operation.written operations) := by
      rw [Operation.written_snoc] at hstaged
      exact hstaged.of_append
    obtain ⟨hkeeps, hcollects⟩ :=
      ih (fun other hother => hserved other (List.mem_append_left _ hother)) hstaged'
        hpaced.of_append
    have hsound := sound_after capacity hub operations
    have hlength := hkeeps.length_sent_le hcollects hpaced
    rw [after_snoc, Operation.written_snoc]
    have hoperation := hserved operation (List.mem_append_right _ List.mem_cons_self)
    cases operation with
    | write address value =>
      obtain ⟨haddress, hspace, hvalue⟩ := hoperation
      have hcapacity : address < (after capacity hub operations).machine.memory.capacity := by
        rw [capacity_after]
        exact Nat.lt_min.mpr ⟨haddress, hspace⟩
      rw [Operation.written_snoc] at hstaged
      exact ⟨hkeeps.next_write hsound hcapacity hvalue hstaged, hcollects.next rfl⟩
    | pressKey key =>
      exact ⟨(List.append_nil _).symm ▸ hkeeps.next_input hsound rfl, hcollects.next rfl⟩
    | receive packet =>
      exact ⟨(List.append_nil _).symm ▸ hkeeps.next_input hsound rfl, hcollects.next rfl⟩
    | drain =>
      obtain ⟨hnext, hall⟩ := hkeeps.next_drain hsound hlength
      exact ⟨(List.append_nil _).symm ▸ hnext, collects_next_drain hall⟩
    | _ => exact hoperation.elim

/-- When a program stages what it sends and the host drains before the outbox overflows, every drain
succeeds, and what the drains give together with what is left in the outbox is told from the stores
alone: the drains and the input between them make no difference. -/
theorem collected_after
    (capacity : Nat) (hub : Word) {operations : List Operation}
    (hserved : ∀ operation ∈ operations, operation.Served capacity)
    (hstaged : Staged (Operation.written operations)) (hpaced : Operation.Paced operations) :
    (∀ before later, operations = before ++ .drain :: later →
      ∃ given m', (after capacity hub before).machine.drain = .ok given m') ∧
    (after capacity hub operations).collected ++
        (after capacity hub operations).machine.devices.network.outbox =
      packets (Operation.written operations) := by
  constructor
  · intro before later _
    exact ⟨_, _, (Operation.perform_drain (sound_after capacity hub before).follows).1⟩
  · obtain ⟨hkeeps, hcollects⟩ := keeps_after capacity hub hserved hstaged hpaced
    rw [← List.append_nil operations] at hpaced
    have hlength := hkeeps.length_sent_le hcollects hpaced
    rw [(sound_after capacity hub operations).outbox, latest_eq_self hlength]
    exact hkeeps.tally

/-- A drain and a key come between a receiver and its data word. -/
theorem collected_after_drain_between :
    let operations : List Operation :=
      [.write 0x6080 14, .drain, .pressKey 0x41, .write 0x6081 3]
    (∀ operation ∈ operations, operation.Served 0x6100) ∧
      Staged (Operation.written operations) ∧ Operation.Paced operations ∧
      (after 0x6100 1 operations).collected ++
        (after 0x6100 1 operations).machine.devices.network.outbox = [⟨14, 3⟩] := by
  intro operations
  have hserved : ∀ operation ∈ operations, operation.Served 0x6100 := by
    simp [operations, Operation.Served, addressSpace]
  have hreceiver : Staged [(0x6080, 14)] :=
    staged_snoc.mpr ⟨staged_nil, fun hdata => absurd hdata (by decide)⟩
  have hstaged : Staged (Operation.written operations) :=
    staged_snoc.mpr ⟨hreceiver, fun _ => ⟨[], 14, [], rfl, by simp⟩⟩
  have hpaced : Operation.Paced operations := Operation.paced_of_length (by decide)
  exact ⟨hserved, hstaged, hpaced, (collected_after 0x6100 1 hserved hstaged hpaced).2⟩

end Session

end WordMachine
