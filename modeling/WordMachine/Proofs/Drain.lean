import WordMachine.Proofs.Mirrors

/-!
# Collecting packets

A drain zeroes the marked pairs with ordinary stores, which the card sees like any other.  While the
card follows memory every marked pair is in memory, so the drain succeeds; and each receiver word is
zeroed before its data word, so none of the stores sends a packet.
-/

namespace WordMachine

/-- The stores that zero the pairs with data words at the given addresses. -/
def zeroes (marked : List Word) : List (Word × Word) :=
  marked.flatMap fun data => [(data - 1, 0), (data, 0)]

theorem IsData.lacks_pred
    {memory : Memory} {data : Word} (h : IsData data) (hhit : memory.lacks data = false) :
    memory.lacks (data - 1) = false := by
  rw [Memory.lacks_eq_false_iff] at hhit ⊢
  rw [h.toNat_pred]
  omega

theorem lacks_of_mem_zeroes
    {memory : Memory} {marked : List Word}
    (h : ∀ data ∈ marked, IsData data ∧ memory.lacks data = false) :
    ∀ store ∈ zeroes marked, memory.lacks store.1 = false := by
  intro store hstore
  obtain ⟨data, hdata, hmem⟩ := List.mem_flatMap.mp hstore
  obtain ⟨hisdata, hhit⟩ := h data hdata
  rcases List.mem_cons.mp hmem with rfl | hmem
  · exact hisdata.lacks_pred hhit
  · rw [List.mem_singleton.mp hmem]
    exact hhit

/-- Zeroing pairs sends nothing. -/
theorem Memory.sends_zeroes
    {memory : Memory} {marked : List Word}
    (h : ∀ data ∈ marked, IsData data ∧ memory.lacks data = false) :
    memory.sends (zeroes marked) = [] := by
  induction marked generalizing memory with
  | nil => rfl
  | cons data marked ih =>
    obtain ⟨hdata, hhit⟩ := h data List.mem_cons_self
    have hreceiver : memory.send? (data - 1, 0) = none :=
      if_neg fun hboth => hdata.not_pred hboth.1
    have hpair : (memory.put (data - 1) 0).send? (data, 0) = none :=
      if_neg fun hboth => hboth.2 (Memory.wordAt_put_self (hdata.lacks_pred hhit) 0)
    have hrest : ((memory.put (data - 1) 0).put data 0).sends (zeroes marked) = [] := by
      apply ih
      intro other hother
      rw [lacks_put, lacks_put]
      exact h other (List.mem_cons_of_mem data hother)
    change (memory.send? (data - 1, 0)).toList ++
      (((memory.put (data - 1) 0).send? (data, 0)).toList ++ _) = []
    rw [hreceiver, hpair]
    exact hrest

namespace NetworkCard

variable {card : NetworkCard} {memory : Memory}

theorem Follows.zeroable (h : card.Follows memory) :
    ∀ data ∈ card.unzeroed.toList, IsData data ∧ memory.lacks data = false := by
  intro data hdata
  obtain ⟨hisdata, hhit, -⟩ := h.marked data hdata
  exact ⟨hisdata, hhit⟩

/-- Stores that send nothing mark nothing. -/
theorem Follows.mem_unzeroed_of_onWrites
    (h : card.Follows memory) {stores : List (Word × Word)}
    (hhit : ∀ store ∈ stores, memory.lacks store.1 = false) (hsends : memory.sends stores = [])
    {data : Word} (hdata : data ∈ (card.onWrites stores).unzeroed) : data ∈ card.unzeroed := by
  induction stores generalizing card memory with
  | nil => exact hdata
  | cons store stores ih =>
    obtain ⟨hstore, hstores⟩ := List.append_eq_nil_iff.mp hsends
    have hnone : memory.send? store = none := by
      cases hsend : memory.send? store with
      | none => rfl
      | some packet =>
        rw [hsend] at hstore
        contradiction
    have hmem := ih (h.onWrite (hhit store List.mem_cons_self) store.2) (Memory.hit_rest hhit)
      hstores hdata
    rw [h.mem_unzeroed_onWrite] at hmem
    rcases hmem with ⟨-, hsome⟩ | ⟨hmem, -⟩
    · exact (hsome hnone).elim
    · exact hmem

theorem Follows.takeUnzeroed (h : card.Follows memory) : card.takeUnzeroed.2.Follows memory where
  mirror := h.mirror
  marked _ hdata := (WordSet.not_mem_empty hdata).elim

theorem Follows.takeOutbox (h : card.Follows memory) : card.takeOutbox.2.Follows memory where
  mirror := h.mirror
  marked := h.marked

end NetworkCard

namespace Bus

variable {σ : Type} [Hosted σ]

theorem zeroPair_eq
    (bus : Bus σ) {data : Word} (hdata : IsData data) (hhit : bus.memory.lacks data = false) :
    zeroPair data bus = .ok () ((bus.commit (data - 1, 0)).commit (data, 0)) := by
  have hreceiver := write_eq_commit bus (hdata.lacks_pred hhit) 0
  have hhit' : (bus.commit (data - 1, 0)).memory.lacks data = false := by
    rw [← hhit]
    exact bus.memory.lacks_put (data - 1) 0 data
  have hword := write_eq_commit (bus.commit (data - 1, 0)) hhit' 0
  rw [hdata.toNat_pred] at hreceiver
  exact (bind_of_ok hreceiver).trans hword

/-- Pairs that are in memory are zeroed one after the other. -/
theorem zeroPairs_append
    (bus : Bus σ) {marked : List Word}
    (h : ∀ data ∈ marked, IsData data ∧ bus.memory.lacks data = false) (rest : List Word) :
    zeroPairs (marked ++ rest) bus = zeroPairs rest (bus.commitAll (zeroes marked)) := by
  induction marked generalizing bus with
  | nil => rfl
  | cons data marked ih =>
    obtain ⟨hdata, hhit⟩ := h data List.mem_cons_self
    have hrest := ih ((bus.commit (data - 1, 0)).commit (data, 0)) fun other hother => by
      change IsData other ∧ ((bus.memory.put (data - 1) 0).put data 0).lacks other = false
      rw [Memory.lacks_put, Memory.lacks_put]
      exact h other (List.mem_cons_of_mem data hother)
    simp only [List.cons_append, zeroPairs, zeroPair_eq bus hdata hhit]
    exact hrest

/-- Pairs that are in memory are all zeroed. -/
theorem zeroPairs_eq
    (bus : Bus σ) {marked : List Word}
    (h : ∀ data ∈ marked, IsData data ∧ bus.memory.lacks data = false) :
    zeroPairs marked bus = .ok () (bus.commitAll (zeroes marked)) := by
  have hall := zeroPairs_append bus h []
  rwa [List.append_nil] at hall

/-- The bus after the marked pairs are zeroed. -/
def zeroed (bus : Bus σ) : Bus σ :=
  (bus.onNetwork (·.takeUnzeroed.2)).commitAll (zeroes bus.devices.network.unzeroed.toList)

/-- A drain whose marked pairs are in memory succeeds. -/
theorem drain_eq
    (bus : Bus σ)
    (h : ∀ data ∈ bus.devices.network.unzeroed, IsData data ∧ bus.memory.lacks data = false) :
    drain bus =
      .ok bus.zeroed.devices.network.outbox (bus.zeroed.onNetwork (·.takeOutbox.2)) := by
  have hzero := zeroPairs_eq (bus.onNetwork (·.takeUnzeroed.2)) h
  simp only [drain, hzero]
  rfl

end Bus

namespace Bus

/-- While the card follows memory, a drain gives what is in the outbox, zeroes the marked pairs, and
leaves nothing in the outbox and nothing marked. -/
theorem drain_of_follows
    (bus : Bus Peripherals) (h : bus.watcher.network.Follows bus.memory) :
    ∃ bus', drain bus = .ok bus.watcher.network.outbox bus' ∧
      bus'.memory = bus.memory.putAll (zeroes bus.watcher.network.unzeroed.toList) ∧
      bus'.watcher.network.Follows bus'.memory ∧
      bus'.watcher.network.outbox = [] ∧ bus'.watcher.network.unzeroed = WordSet.empty := by
  have hhit := lacks_of_mem_zeroes h.zeroable
  have hsends := Memory.sends_zeroes h.zeroable
  have hnetwork : bus.zeroed.watcher.network =
      bus.watcher.network.takeUnzeroed.2.onWrites
        (zeroes bus.watcher.network.unzeroed.toList) :=
    congrArg Peripherals.network (devices_commitAll (bus.onNetwork (·.takeUnzeroed.2)) _)
  have hmemory : bus.zeroed.memory =
      bus.memory.putAll (zeroes bus.watcher.network.unzeroed.toList) :=
    memory_commitAll (bus.onNetwork (·.takeUnzeroed.2)) _
  have houtbox : bus.zeroed.watcher.network.outbox = bus.watcher.network.outbox := by
    rw [hnetwork, h.takeUnzeroed.outbox_onWrites hhit, hsends]
    rfl
  have hdrain := drain_eq bus h.zeroable
  change drain bus = .ok bus.zeroed.watcher.network.outbox _ at hdrain
  rw [houtbox] at hdrain
  refine ⟨_, hdrain, hmemory, ?_, rfl, ?_⟩
  · change bus.zeroed.watcher.network.takeOutbox.2.Follows bus.zeroed.memory
    rw [hnetwork, hmemory]
    exact (h.takeUnzeroed.onWrites hhit).takeOutbox
  · change bus.zeroed.watcher.network.unzeroed = WordSet.empty
    apply WordSet.eq_of_mem_iff
    intro data
    refine ⟨fun hdata => ?_, fun hdata => (WordSet.not_mem_empty hdata).elim⟩
    rw [hnetwork] at hdata
    exact h.takeUnzeroed.mem_unzeroed_of_onWrites hhit hsends hdata

/-- The zeroes of a drain come to display and touched rows like any stores. -/
theorem records_drain (bus : Bus Peripherals) (h : bus.watcher.network.Follows bus.memory) :
    (finalState (drain bus)).watcher.display =
        bus.watcher.display.onWrites (zeroes bus.watcher.network.unzeroed.toList) ∧
      (finalState (drain bus)).watcher.touched =
        Peripherals.touchAll bus.watcher.touched
          (zeroes bus.watcher.network.unzeroed.toList) := by
  have hzeroed := devices_commitAll (bus.onNetwork (·.takeUnzeroed.2))
    (zeroes bus.watcher.network.unzeroed.toList)
  rw [drain_eq bus h.zeroable]
  exact ⟨congrArg Peripherals.display hzeroed, congrArg Peripherals.touched hzeroed⟩

end Bus

end WordMachine
