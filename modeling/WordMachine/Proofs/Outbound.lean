import WordMachine.Proofs.History

/-!
# The network card and memory

The card decides from its own copy of the outbound words whether a store sends a packet.  `Follows`
says that the copy agrees with memory and that every marked pair could be zeroed at any time.  While
the card follows memory, its outbox takes up just the packets that the stores send.
-/

namespace WordMachine

theorem vector_get_set {α : Type} {n : Nat} (entries : Vector α n) (k j : Fin n) (value : α) :
    (entries.set k.val value k.isLt).get j = if j = k then value else entries.get j := by
  by_cases hj : j = k
  · subst hj
    rw [if_pos rfl]
    exact Vector.getElem_set_self j.isLt
  · rw [if_neg hj]
    exact Vector.getElem_set_ne k.isLt j.isLt fun hk => hj (Fin.ext hk.symm)

namespace Memory

theorem hit_rest
    {memory : Memory} {store : Word × Word} {stores : List (Word × Word)}
    (h : ∀ other ∈ store :: stores, memory.lacks other.1 = false) :
    ∀ other ∈ stores, (memory.put store.1 store.2).lacks other.1 = false := by
  intro other hother
  rw [lacks_put]
  exact h other (List.mem_cons_of_mem store hother)

end Memory

/-- The data words of the outbound pairs. -/
def IsData (address : Word) : Prop :=
  0x6080 ≤ address.toNat ∧ address.toNat < 0x6100 ∧ address.toNat % 2 = 1

instance (address : Word) : Decidable (IsData address) :=
  inferInstanceAs (Decidable (_ ∧ _))

theorem IsData.toNat_pred {address : Word} (h : IsData address) :
    (address - 1).toNat = address.toNat - 1 := by
  obtain ⟨hstart, -, -⟩ := h
  apply UInt16.toNat_sub_of_le
  rw [UInt16.le_iff_toNat_le]
  change 1 ≤ address.toNat
  omega

theorem IsData.not_pred {address : Word} (h : IsData address) : ¬IsData (address - 1) := by
  intro hpred
  have hodd := hpred.2.2
  rw [h.toNat_pred] at hodd
  have := h.2.2
  omega

/-- The packet that a store sends when the word before its address holds `peer`. -/
def Packet.sent? (peer : Word) (store : Word × Word) : Option Packet :=
  if IsData store.1 ∧ peer ≠ 0 then some ⟨peer, store.2⟩ else none

namespace Memory

/-- The packet that a store sends: one for each store to a data word while its receiver word is not
zero. -/
def send? (memory : Memory) (store : Word × Word) : Option Packet :=
  Packet.sent? (memory.wordAt (store.1 - 1)) store

/-- The packets that stores send, one after the other. -/
def sends (memory : Memory) : List (Word × Word) → List Packet
  | [] => []
  | store :: stores =>
    (memory.send? store).toList ++ (memory.put store.1 store.2).sends stores

end Memory

namespace NetworkCard

theorem offset?_eq_some_iff {address : Word} {k : Fin 128} :
    offset? address = some k ↔ address.toNat = 0x6080 + k := by
  rw [offset?]
  split
  · rename_i hwindow
    rw [Option.some_inj, Fin.ext_iff]
    simp only [outboundStart] at hwindow ⊢
    omega
  · rename_i hwindow
    simp only [outboundStart] at hwindow
    have := k.isLt
    simp only [reduceCtorEq, false_iff]
    omega

theorem offset?_eq_none_iff {address : Word} :
    offset? address = none ↔ ¬(0x6080 ≤ address.toNat ∧ address.toNat < 0x6100) := by
  rw [offset?]
  split
  · rename_i hwindow
    exact iff_of_false (Option.some_ne_none _) fun hnot => hnot hwindow
  · rename_i hwindow
    exact iff_of_true rfl hwindow

/-- The card agrees with memory about the outbound words, and every marked pair is in memory and
has a receiver. -/
structure Follows (card : NetworkCard) (memory : Memory) : Prop where
  mirror : ∀ k, card.outbound.get k = memory.getD (0x6080 + k.val)
  marked : ∀ data ∈ card.unzeroed,
    IsData data ∧ memory.lacks data = false ∧ memory.wordAt (data - 1) ≠ 0

variable {card : NetworkCard} {memory : Memory}

theorem Follows.receiver_eq
    (h : card.Follows memory) {address : Word} {k : Fin 128} (hk : offset? address = some k)
    (hodd : k.val % 2 = 1) : card.receiver k = memory.wordAt (address - 1) := by
  have hlt := k.isLt
  have haddress := offset?_eq_some_iff.mp hk
  have hdata : IsData address := by
    refine ⟨?_, ?_, ?_⟩ <;> omega
  have hmirror := h.mirror ⟨k.val - 1, by omega⟩
  have hindex : 0x6080 + (k.val - 1) = address.toNat - 1 := by omega
  rw [Memory.wordAt, hdata.toNat_pred, ← hindex, ← hmirror]
  rfl

/-- What a store does to a card that follows memory, with the packet that it sends. -/
inductive Reaction (card : NetworkCard) (memory : Memory) (address value : Word) :
    Option Packet → NetworkCard → Prop
  | outside (hnone : offset? address = none) : Reaction card memory address value none card
  | staged {k : Fin 128} (hk : offset? address = some k) (hnot : ¬IsData address) :
      Reaction card memory address value none
        { card with
          outbound := card.outbound.set k.val value k.isLt
          unzeroed := card.unzeroed.erase (address + 1) }
  | silent {k : Fin 128} (hk : offset? address = some k) (hdata : IsData address) :
      Reaction card memory address value none
        { card with outbound := card.outbound.set k.val value k.isLt }
  | sent {k : Fin 128} {packet : Packet} (hk : offset? address = some k) (hdata : IsData address)
      (hpeer : memory.wordAt (address - 1) ≠ 0) :
      Reaction card memory address value (some packet)
        { card with
          outbound := card.outbound.set k.val value k.isLt
          outbox := enqueue card.outbox packet
          unzeroed := card.unzeroed.insert address }

theorem Follows.reaction (h : card.Follows memory) (address value : Word) :
    Reaction card memory address value (memory.send? (address, value))
      (card.onWrite address value) := by
  cases hk : offset? address with
  | none =>
    have hwindow := offset?_eq_none_iff.mp hk
    have hnot : ¬IsData address := fun hdata => hwindow ⟨hdata.1, hdata.2.1⟩
    simp only [onWrite, hk, Memory.send?, Packet.sent?, hnot, false_and, if_false]
    exact .outside hk
  | some k =>
    have hlt := k.isLt
    have haddress := offset?_eq_some_iff.mp hk
    by_cases heven : k.val % 2 = 0
    · have hnot : ¬IsData address := by
        rintro ⟨-, -, hodd⟩
        omega
      simp only [onWrite, hk, heven, Memory.send?, Packet.sent?, hnot, false_and, if_false, if_true]
      exact .staged hk hnot
    · have hdata : IsData address := by
        refine ⟨?_, ?_, ?_⟩ <;> omega
      have hreceiver := h.receiver_eq hk (by omega)
      by_cases hpeer : memory.wordAt (address - 1) = 0
      · simp only [onWrite, hk, heven, hreceiver, hpeer, Memory.send?, Packet.sent?, ne_eq,
          not_true_eq_false, and_false, if_false, if_true]
        exact .silent hk hdata
      · simp only [onWrite, hk, heven, hreceiver, hpeer, Memory.send?, Packet.sent?, hdata, ne_eq,
          not_false_eq_true, and_self, if_false, if_true]
        exact .sent hk hdata hpeer

theorem Follows.get_outbound_onWrite
    (h : card.Follows memory) (address value : Word) (j : Fin 128) :
    (card.onWrite address value).outbound.get j =
      if address.toNat = 0x6080 + j.val then value else card.outbound.get j := by
  have hset {k : Fin 128} (hk : offset? address = some k) :
      (card.outbound.set k.val value k.isLt).get j =
        if address.toNat = 0x6080 + j.val then value else card.outbound.get j := by
    rw [vector_get_set]
    congr 1
    rw [eq_iff_iff, offset?_eq_some_iff.mp hk, Nat.add_left_cancel_iff, Fin.ext_iff, eq_comm]
  have hreaction := h.reaction address value
  generalize memory.send? (address, value) = packet?, card.onWrite address value = card'
    at hreaction ⊢
  cases hreaction with
  | outside hnone =>
    have hwindow := offset?_eq_none_iff.mp hnone
    have hlt := j.isLt
    rw [if_neg]
    omega
  | staged hk hnot => exact hset hk
  | silent hk hdata => exact hset hk
  | sent hk hdata hpeer => exact hset hk

theorem Follows.outbox_onWrite (h : card.Follows memory) (address value : Word) :
    (card.onWrite address value).outbox =
      (memory.send? (address, value)).elim card.outbox (enqueue card.outbox) := by
  have hreaction := h.reaction address value
  generalize memory.send? (address, value) = packet?, card.onWrite address value = card'
    at hreaction ⊢
  cases hreaction <;> rfl

/-- A pair is marked by a store if the store sends its data word, or if it was marked before and the
store is not to its receiver word. -/
theorem Follows.mem_unzeroed_onWrite
    (h : card.Follows memory) (address value : Word) {data : Word} :
    data ∈ (card.onWrite address value).unzeroed ↔
      (data = address ∧ memory.send? (address, value) ≠ none) ∨
        (data ∈ card.unzeroed ∧ data - 1 ≠ address) := by
  have hreaction := h.reaction address value
  generalize memory.send? (address, value) = packet?, card.onWrite address value = card'
    at hreaction ⊢
  cases hreaction with
  | outside hnone =>
    simp only [ne_eq, not_true_eq_false, and_false, false_or]
    refine ⟨fun hmem => ⟨hmem, ?_⟩, And.left⟩
    rintro rfl
    have hdata := (h.marked data hmem).1
    have hwindow := offset?_eq_none_iff.mp hnone
    rw [hdata.toNat_pred] at hwindow
    obtain ⟨hstart, hend, hodd⟩ := hdata
    omega
  | staged hk hnot =>
    have hsucc : data ≠ address + 1 ↔ data - 1 ≠ address := by
      rw [ne_eq, ne_eq, UInt16.sub_eq_iff_eq_add]
    simp only [WordSet.mem_erase, hsucc, ne_eq, not_true_eq_false, and_false, false_or]
  | silent hk hdata =>
    simp only [ne_eq, not_true_eq_false, and_false, false_or]
    refine ⟨fun hmem => ⟨hmem, ?_⟩, And.left⟩
    rintro rfl
    exact (h.marked data hmem).1.not_pred hdata
  | sent hk hdata hpeer =>
    simp only [WordSet.mem_insert, ne_eq, reduceCtorEq, not_false_eq_true, and_true]
    refine or_congr_right ⟨fun hmem => ⟨hmem, ?_⟩, And.left⟩
    rintro rfl
    exact (h.marked data hmem).1.not_pred hdata

/-- A card that follows memory goes on following it. -/
theorem Follows.onWrite
    (h : card.Follows memory) {address : Word} (hhit : memory.lacks address = false)
    (value : Word) :
    (card.onWrite address value).Follows (memory.put address value) where
  mirror j := by
    rw [h.get_outbound_onWrite, Memory.getD_put, h.mirror]
    have hlt := Memory.lacks_eq_false_iff.mp hhit
    congr 1
    rw [eq_iff_iff]
    constructor
    · intro haddress
      omega
    · rintro ⟨haddress, -⟩
      exact haddress.symm
  marked data hmem := by
    rw [h.mem_unzeroed_onWrite] at hmem
    rw [Memory.lacks_put]
    rcases hmem with ⟨rfl, hsent⟩ | ⟨hmem, hne⟩
    · have hdata : IsData data ∧ memory.wordAt (data - 1) ≠ 0 := by
        by_contra hnot
        exact hsent (if_neg hnot)
      have hne : data - 1 ≠ data := by grind
      rw [Memory.wordAt_put_of_ne _ _ hne]
      exact ⟨hdata.1, hhit, hdata.2⟩
    · rw [Memory.wordAt_put_of_ne _ _ hne]
      exact h.marked data hmem

/-- The card after a list of stores. -/
def onWrites (card : NetworkCard) (stores : List (Word × Word)) : NetworkCard :=
  stores.foldl (fun card store => card.onWrite store.1 store.2) card

/-- The outbox with more packets. -/
def enqueueAll (outbox packets : List Packet) : List Packet :=
  packets.foldl enqueue outbox

theorem Follows.onWrites
    (h : card.Follows memory) {stores : List (Word × Word)}
    (hhit : ∀ store ∈ stores, memory.lacks store.1 = false) :
    (card.onWrites stores).Follows (memory.putAll stores) := by
  induction stores generalizing card memory with
  | nil => exact h
  | cons store stores ih =>
    exact ih (h.onWrite (hhit store List.mem_cons_self) store.2) (Memory.hit_rest hhit)

/-- The outbox takes up what the stores send. -/
theorem Follows.outbox_onWrites
    (h : card.Follows memory) {stores : List (Word × Word)}
    (hhit : ∀ store ∈ stores, memory.lacks store.1 = false) :
    (card.onWrites stores).outbox = enqueueAll card.outbox (memory.sends stores) := by
  induction stores generalizing card memory with
  | nil => rfl
  | cons store stores ih =>
    have hrest := ih (h.onWrite (hhit store List.mem_cons_self) store.2) (Memory.hit_rest hhit)
    change ((card.onWrite store.1 store.2).onWrites stores).outbox = _
    rw [hrest, h.outbox_onWrite, Memory.sends, enqueueAll, enqueueAll, List.foldl_append]
    cases memory.send? (store.1, store.2) <;> rfl

end NetworkCard

end WordMachine
