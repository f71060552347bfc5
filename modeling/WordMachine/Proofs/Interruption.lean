import WordMachine.Proofs.Zeroing

/-!
# Drains that break off

A card that was told of stores past the capacity may have marked pairs that memory lacks.  A drain
then zeroes the pairs before the first of these and breaks off there: it sends nothing and loses
nothing, and what is left to be zeroed stays marked.  So a second drain fails in the same way, and
changes nothing any more.
-/

namespace WordMachine

namespace WordSet

/-- An ascending list of words is the list of the members of its set. -/
theorem toList_insertAll_empty {words : List Word} (h : words.Pairwise (· < ·)) :
    (empty.insertAll words).toList = words := by
  apply eq_of_pairwise_of_mem_iff (empty.insertAll words).ascending h
  intro word
  rw [mem_toList, mem_insertAll]
  exact or_iff_left not_mem_empty

end WordSet

namespace Memory

theorem put_put (memory : Memory) (address value : Word) :
    (memory.put address value).put address value = memory.put address value := by
  cases hlacks : memory.lacks address with
  | true =>
    have hge : ¬address.toNat < memory.capacity := by simpa [lacks] using hlacks
    simp only [put, dif_neg hge]
  | false =>
    have hlt := lacks_eq_false_iff.mp hlacks
    simp [put, hlt, set, capacity]

end Memory

namespace Display

theorem onWrite_onWrite (display : Display) (address value : Word) :
    (display.onWrite address value).onWrite address value = display.onWrite address value := by
  cases hk : offset? address <;> simp [onWrite, hk]

end Display

namespace Peripherals

theorem touch_touch (touched : Vector Bool 8192) (address : Word) :
    touch (touch touched address) address = touch touched address :=
  if_pos ((get_touch touched address _).mpr (.inl rfl))

end Peripherals

theorem IsData.exists_offset? {data : Word} (h : IsData data) :
    ∃ k j : Fin 128, NetworkCard.offset? (data - 1) = some k ∧ k.val % 2 = 0 ∧
      NetworkCard.offset? data = some j ∧ j.val = k.val + 1 := by
  have hpred := h.toNat_pred
  obtain ⟨hstart, hend, hodd⟩ := h
  refine ⟨⟨data.toNat - 0x6081, by omega⟩, ⟨data.toNat - 0x6080, by omega⟩, ?_, ?_, ?_, ?_⟩
  · rw [NetworkCard.offset?_eq_some_iff, hpred]
    change data.toNat - 1 = 0x6080 + (data.toNat - 0x6081)
    omega
  · change (data.toNat - 0x6081) % 2 = 0
    omega
  · rw [NetworkCard.offset?_eq_some_iff]
    change data.toNat = 0x6080 + (data.toNat - 0x6080)
    omega
  · change data.toNat - 0x6080 = data.toNat - 0x6081 + 1
    omega

/-- The stores by which a pair is zeroed whose data word memory lacks: its receiver, if memory has
it. -/
def halfZeroes (memory : Memory) (data : Word) : List (Word × Word) :=
  if memory.lacks (data - 1) then [] else [(data - 1, 0)]

theorem halfZeroes_cases (memory : Memory) (data : Word) :
    (memory.lacks (data - 1) = true ∧ halfZeroes memory data = []) ∨
      (memory.lacks (data - 1) = false ∧ halfZeroes memory data = [(data - 1, 0)]) := by
  cases hreceiver : memory.lacks (data - 1) with
  | true => exact .inl ⟨rfl, if_pos hreceiver⟩
  | false => exact .inr ⟨rfl, if_neg (ne_true_of_eq_false hreceiver)⟩

namespace NetworkCard

/-- From the first card to the second nothing is sent and nothing is marked. -/
structure Quiet (card card' : NetworkCard) : Prop where
  outbox : card'.outbox = card.outbox
  marked : ∀ data ∈ card'.unzeroed, data ∈ card.unzeroed

theorem Quiet.refl (card : NetworkCard) : card.Quiet card where
  outbox := rfl
  marked _ hdata := hdata

theorem Quiet.trans {card card' card'' : NetworkCard} (h : card.Quiet card')
    (h' : card'.Quiet card'') : card.Quiet card'' where
  outbox := h'.outbox.trans h.outbox
  marked data hdata := h.marked data (h'.marked data hdata)

variable (card : NetworkCard) {data : Word}

/-- A receiver that is stored takes the mark from its pair. -/
theorem onWrite_receiver {address : Word} {k : Fin 128} (hk : offset? address = some k)
    (heven : k.val % 2 = 0) (value : Word) :
    card.onWrite address value =
      { card with
        outbound := card.outbound.set k.val value k.isLt
        unzeroed := card.unzeroed.erase (address + 1) } := by
  simp only [onWrite, hk, heven, if_true]

theorem onWrite_receiver_twice {address : Word} {k : Fin 128} (hk : offset? address = some k)
    (heven : k.val % 2 = 0) (value : Word) :
    (card.onWrite address value).onWrite address value = card.onWrite address value := by
  have herase : (card.unzeroed.erase (address + 1)).erase (address + 1) =
      card.unzeroed.erase (address + 1) := by
    apply WordSet.eq_of_mem_iff
    simp
  rw [onWrite_receiver _ hk heven, onWrite_receiver _ hk heven, herase]
  simp

theorem quiet_onWrite_receiver (h : IsData data) (value : Word) :
    card.Quiet (card.onWrite (data - 1) value) := by
  obtain ⟨k, -, hk, heven, -⟩ := h.exists_offset?
  rw [onWrite_receiver card hk heven]
  exact ⟨rfl, fun other hother => (WordSet.mem_erase.mp hother).1⟩

/-- Zeroing a pair is quiet, whatever the card has seen before: when the data word is stored, the
receiver is zero. -/
theorem quiet_onWrite_zero_zero (h : IsData data) :
    card.Quiet ((card.onWrite (data - 1) 0).onWrite data 0) := by
  obtain ⟨k, j, hk, heven, hj, hnext⟩ := h.exists_offset?
  have hodd : ¬j.val % 2 = 0 := by omega
  have hreceiver : (card.onWrite (data - 1) 0).receiver j = 0 := by
    rw [onWrite_receiver card hk heven, receiver]
    simp [hnext]
  have hdata : (card.onWrite (data - 1) 0).onWrite data 0 =
      { card.onWrite (data - 1) 0 with
        outbound := (card.onWrite (data - 1) 0).outbound.set j.val 0 j.isLt } := by
    conv_lhs => rw [onWrite]
    simp only [hj, hodd, hreceiver, if_true, if_false]
  have hquiet := card.quiet_onWrite_receiver h 0
  rw [hdata]
  exact ⟨hquiet.outbox, hquiet.marked⟩

theorem quiet_onWrites_zeroes {marked : List Word} (h : ∀ data ∈ marked, IsData data) :
    card.Quiet (card.onWrites (zeroes marked)) := by
  induction marked generalizing card with
  | nil => exact .refl card
  | cons data marked ih =>
    obtain ⟨hdata, hmarked⟩ := List.forall_mem_cons.mp h
    exact (card.quiet_onWrite_zero_zero hdata).trans (ih _ hmarked)

/-- The stores of a drain that breaks off at a pair are quiet. -/
theorem quiet_onWrites_halfZeroes {marked : List Word} (h : ∀ other ∈ marked, IsData other)
    (hdata : IsData data) (memory : Memory) :
    card.Quiet (card.onWrites (zeroes marked ++ halfZeroes memory data)) := by
  have hmarked := card.quiet_onWrites_zeroes h
  have happend : card.onWrites (zeroes marked ++ halfZeroes memory data) =
      (card.onWrites (zeroes marked)).onWrites (halfZeroes memory data) := List.foldl_append
  rcases halfZeroes_cases memory data with ⟨-, hstores⟩ | ⟨-, hstores⟩
  · rw [happend, hstores]
    exact hmarked
  · rw [happend, hstores]
    exact hmarked.trans (quiet_onWrite_receiver _ hdata 0)

end NetworkCard

/-- The first word of such a pair that memory lacks. -/
def firstLacking (capacity : Nat) (data : Word) : Nat :=
  if capacity ≤ data.toNat - 1 then data.toNat - 1 else data.toNat

namespace Bus

section

variable {σ : Type} [Hosted σ]

theorem commitAll_append (bus : Bus σ) (first second : List (Word × Word)) :
    bus.commitAll (first ++ second) = (bus.commitAll first).commitAll second :=
  List.foldl_append

/-- Zeroing a pair fails at the first of its words that memory lacks. -/
theorem zeroPair_of_lacks
    (bus : Bus σ) {data : Word} (hdata : IsData data) (hlacks : bus.memory.lacks data = true) :
    zeroPair data bus =
      .error (.outOfRange (firstLacking bus.memory.capacity data) bus.memory.capacity)
        (bus.commitAll (halfZeroes bus.memory data)) := by
  have hpred := hdata.toNat_pred
  rcases halfZeroes_cases bus.memory data with ⟨hreceiver, hstores⟩ | ⟨hreceiver, hstores⟩
  · have hfirst : firstLacking bus.memory.capacity data = (data - 1).toNat := by
      rw [hpred]
      exact if_pos (by simpa [Memory.lacks, hpred] using hreceiver)
    have hwrite := write_of_lacks bus hreceiver 0
    rw [hfirst, hstores]
    rw [hpred] at hwrite ⊢
    exact bind_of_error hwrite
  · have hfirst : firstLacking bus.memory.capacity data = data.toNat := by
      rw [Memory.lacks_eq_false_iff, hpred] at hreceiver
      exact if_neg (Nat.not_le.mpr hreceiver)
    have hwrite := write_eq_commit bus hreceiver 0
    have hlacks' : (bus.commit (data - 1, 0)).memory.lacks data = true := by
      rw [← hlacks]
      exact bus.memory.lacks_put (data - 1) 0 data
    have hword := write_of_lacks (bus.commit (data - 1, 0)) hlacks' 0
    rw [hfirst, hstores]
    rw [hpred] at hwrite
    refine (bind_of_ok hwrite).trans (hword.trans ?_)
    rw [commit, Memory.capacity_put]
    rfl

end

/-- Storing a receiver a second time changes nothing. -/
theorem commit_receiver_twice (bus : Bus Peripherals) (h : IsData data) :
    (bus.commit (data - 1, 0)).commit (data - 1, 0) = bus.commit (data - 1, 0) := by
  obtain ⟨k, -, hk, heven, -⟩ := h.exists_offset?
  obtain ⟨memory, display, keyboard, network, touched⟩ := bus
  have hnetwork := network.onWrite_receiver_twice hk heven 0
  simp only [commit, Watcher.observe, Peripherals.onWrite, memory.put_put,
    display.onWrite_onWrite, hnetwork, Peripherals.touch_touch]

theorem onNetwork_requeue_takeUnzeroed
    {bus : Bus Peripherals} (h : bus.watcher.network.unzeroed = WordSet.empty)
    (addresses : List Word) :
    (bus.onNetwork (·.requeue addresses)).onNetwork (·.takeUnzeroed.2) = bus := by
  obtain ⟨memory, display, keyboard, network, touched⟩ := bus
  obtain ⟨hub, inbound, outbound, outbox, unzeroed⟩ := network
  cases h
  rfl

/-- The marked pairs in their order, cut at the first that memory lacks. -/
structure Cut (bus : Bus Peripherals) (below : List Word) (data : Word) (above : List Word) :
    Prop where
  marked : bus.watcher.network.unzeroed.toList = below ++ data :: above
  below : ∀ other ∈ below, IsData other ∧ bus.memory.lacks other = false
  isData : IsData data
  lacks : bus.memory.lacks data = true

/-- The bus after a drain that has zeroed the pairs of `below` and breaks off at the pair of `data`,
with the pairs of `above` behind it. -/
def brokenOff (bus : Bus Peripherals) (below : List Word) (data : Word) (above : List Word) :
    Bus Peripherals :=
  ((bus.onNetwork (·.takeUnzeroed.2)).commitAll
    (zeroes below ++ halfZeroes bus.memory data)).onNetwork (·.requeue (data :: above))

/-- Of the marked pairs that memory lacks there is a first one. -/
theorem exists_cut
    {bus : Bus Peripherals} (h : ∀ data ∈ bus.watcher.network.unzeroed, IsData data)
    (hpast : ∃ data ∈ bus.watcher.network.unzeroed, bus.memory.capacity ≤ data.toNat) :
    ∃ below data above, bus.Cut below data above := by
  obtain ⟨data, hdata, hge⟩ := hpast
  have hlacks : bus.memory.lacks data = true := decide_eq_true hge
  have hsome : (bus.watcher.network.unzeroed.toList.find? bus.memory.lacks).isSome = true :=
    List.find?_isSome.mpr ⟨data, hdata, hlacks⟩
  obtain ⟨first, hfirst⟩ := Option.isSome_iff_exists.mp hsome
  obtain ⟨hlacks', below, above, hmarked, hbelow⟩ := List.find?_eq_some_iff_append.mp hfirst
  have hmem : ∀ other ∈ below ++ first :: above, IsData other := by
    rw [← hmarked]
    exact h
  refine ⟨below, first, above, hmarked, fun other hother => ?_, hmem first (by simp), hlacks'⟩
  exact ⟨hmem other (by simp [hother]), by simpa using hbelow other hother⟩

namespace Cut

variable {bus : Bus Peripherals} {below above : List Word} {data : Word}

theorem mem_iff (h : bus.Cut below data above) {other : Word} :
    other ∈ bus.watcher.network.unzeroed ↔ other ∈ below ∨ other ∈ data :: above := by
  rw [← WordSet.mem_toList, h.marked, List.mem_append]

theorem pairwise (h : bus.Cut below data above) : (data :: above).Pairwise (· < ·) := by
  have hascending := bus.watcher.network.unzeroed.ascending
  rw [h.marked, List.pairwise_append] at hascending
  exact hascending.2.1

theorem lt_of_mem (h : bus.Cut below data above) {other : Word} (hother : other ∈ below) :
    other < data := by
  have hascending := bus.watcher.network.unzeroed.ascending
  rw [h.marked, List.pairwise_append] at hascending
  exact hascending.2.2 other hother data List.mem_cons_self

theorem le_of_mem (h : bus.Cut below data above) {other : Word} (hother : other ∈ data :: above) :
    data ≤ other :=
  head_le_of_mem (List.pairwise_cons.mp h.pairwise).1 hother

/-- A drain breaks off at the first marked pair that memory lacks. -/
theorem drain_eq (h : bus.Cut below data above) :
    drain bus =
      .error (.memory (.outOfRange (firstLacking bus.memory.capacity data) bus.memory.capacity))
        (bus.brokenOff below data above) := by
  have hmemory : ((bus.onNetwork (·.takeUnzeroed.2)).commitAll (zeroes below)).memory =
      bus.memory.putAll (zeroes below) :=
    memory_commitAll (bus.onNetwork (·.takeUnzeroed.2)) (zeroes below)
  have hhalf : halfZeroes (bus.memory.putAll (zeroes below)) data = halfZeroes bus.memory data := by
    rw [halfZeroes, halfZeroes, Memory.lacks_putAll]
  have hpair := zeroPair_of_lacks
    ((bus.onNetwork (·.takeUnzeroed.2)).commitAll (zeroes below)) h.isData (by
      rw [hmemory, Memory.lacks_putAll]
      exact h.lacks)
  rw [hmemory, Memory.capacity_putAll, hhalf] at hpair
  have hpairs := zeroPairs_append (bus.onNetwork (·.takeUnzeroed.2)) h.below (data :: above)
  have hmarked : bus.devices.network.unzeroed.toList = below ++ data :: above := h.marked
  simp only [drain, hmarked, hpairs, zeroPairs, hpair, brokenOff, commitAll_append]

/-- The stores of a drain that breaks off leave the outbox as it was, and nothing marked. -/
theorem network_commitAll (h : bus.Cut below data above) :
    let bus' := (bus.onNetwork (·.takeUnzeroed.2)).commitAll
      (zeroes below ++ halfZeroes bus.memory data)
    bus'.watcher.network.outbox = bus.watcher.network.outbox ∧
      bus'.watcher.network.unzeroed = WordSet.empty := by
  intro bus'
  have hquiet := bus.watcher.network.takeUnzeroed.2.quiet_onWrites_halfZeroes
    (fun other hother => (h.below other hother).1) h.isData bus.memory
  have hnetwork : bus'.watcher.network = bus.watcher.network.takeUnzeroed.2.onWrites
      (zeroes below ++ halfZeroes bus.memory data) :=
    congrArg Peripherals.network (devices_commitAll (bus.onNetwork (·.takeUnzeroed.2)) _)
  rw [← hnetwork] at hquiet
  refine ⟨hquiet.outbox, WordSet.eq_of_mem_iff fun other => ?_⟩
  exact ⟨hquiet.marked other, fun hother => (WordSet.not_mem_empty hother).elim⟩

theorem memory_brokenOff (bus : Bus Peripherals) (below : List Word) (data : Word)
    (above : List Word) :
    (bus.brokenOff below data above).memory =
      bus.memory.putAll (zeroes below ++ halfZeroes bus.memory data) :=
  memory_commitAll (bus.onNetwork (·.takeUnzeroed.2)) _

theorem toList_unzeroed_brokenOff (h : bus.Cut below data above) :
    (bus.brokenOff below data above).watcher.network.unzeroed.toList = data :: above := by
  have hunzeroed : (bus.brokenOff below data above).watcher.network.unzeroed =
      WordSet.empty.insertAll (data :: above) :=
    congrArg (WordSet.insertAll · (data :: above)) h.network_commitAll.2
  rw [hunzeroed, WordSet.toList_insertAll_empty h.pairwise]

/-- After a drain that has broken off, the pair at which it broke off is the first that is
marked. -/
theorem brokenOff (h : bus.Cut below data above) :
    (bus.brokenOff below data above).Cut [] data above where
  marked := h.toList_unzeroed_brokenOff
  below := by simp
  isData := h.isData
  lacks := by
    rw [memory_brokenOff, Memory.lacks_putAll]
    exact h.lacks

/-- A drain that has broken off breaks off at the same pair again, and leaves all as it was. -/
theorem brokenOff_brokenOff (h : bus.Cut below data above) :
    (bus.brokenOff below data above).brokenOff [] data above =
      bus.brokenOff below data above := by
  have htaken := onNetwork_requeue_takeUnzeroed h.network_commitAll.2 (data :: above)
  have hhalf : halfZeroes (bus.brokenOff below data above).memory data =
      halfZeroes bus.memory data := by
    rw [memory_brokenOff, halfZeroes, halfZeroes, Memory.lacks_putAll]
  rw [Bus.brokenOff, hhalf]
  simp only [Bus.brokenOff, htaken]
  congr 1
  change commitAll _ (halfZeroes bus.memory data) = _
  rcases halfZeroes_cases bus.memory data with ⟨-, hstores⟩ | ⟨-, hstores⟩
  · rw [hstores]
    rfl
  · rw [hstores, commitAll_append]
    exact commit_receiver_twice _ h.isData

end Cut

end Bus

/-- What a drain makes of a bus when it breaks off at the pair of `data`. -/
structure BrokenOff (data : Word) (bus bus' : Bus Peripherals) : Prop where
  outbox : bus'.watcher.network.outbox = bus.watcher.network.outbox
  zeroed : ∀ other ∈ bus.watcher.network.unzeroed, other < data →
    bus'.memory.get? (other.toNat - 1) = some 0 ∧ bus'.memory.get? other.toNat = some 0
  marked : ∀ other, other ∈ bus'.watcher.network.unzeroed ↔
    other ∈ bus.watcher.network.unzeroed ∧ data ≤ other
  kept : ∀ n, n ≠ data.toNat - 1 →
    (∀ other ∈ bus.watcher.network.unzeroed, other < data →
      n ≠ other.toNat - 1 ∧ n ≠ other.toNat) → bus'.memory.get? n = bus.memory.get? n

namespace Bus

theorem Cut.brokenOff_spec
    {bus : Bus Peripherals} {below above : List Word} {data : Word}
    (h : bus.Cut below data above) : BrokenOff data bus (bus.brokenOff below data above) := by
  have hhalf : ∀ store ∈ halfZeroes bus.memory data, store = (data - 1, 0) := by
    rcases halfZeroes_cases bus.memory data with ⟨-, hstores⟩ | ⟨-, hstores⟩ <;>
      simp [hstores]
  constructor
  case outbox => exact h.network_commitAll.1
  case zeroed =>
    intro other hother hbefore
    have hother' : other ∈ below := (h.mem_iff.mp hother).resolve_right fun hrest =>
      absurd hbefore (UInt16.not_lt.mpr (h.le_of_mem hrest))
    obtain ⟨hdata', hhit⟩ := h.below other hother'
    have hvalue : ∀ store ∈ zeroes below ++ halfZeroes bus.memory data, store.2 = 0 := by
      intro store hstore
      rcases List.mem_append.mp hstore with hstore | hstore
      · exact forall_mem_zeroes (P := fun store => store.2 = 0).mpr (fun _ _ => ⟨rfl, rfl⟩)
          store hstore
      · rw [hhalf store hstore]
    have hstores (store : Word × Word) (hstore : store ∈ [(other - 1, 0), (other, (0 : Word))]) :
        store ∈ zeroes below ++ halfZeroes bus.memory data :=
      List.mem_append_left _ (List.mem_flatMap.mpr ⟨other, hother', hstore⟩)
    rw [Cut.memory_brokenOff, ← hdata'.toNat_pred]
    exact ⟨Memory.get?_putAll_of_mem hvalue (hstores _ (by simp)) (hdata'.lacks_pred hhit),
      Memory.get?_putAll_of_mem hvalue (hstores _ (by simp)) hhit⟩
  case marked =>
    intro other
    rw [← WordSet.mem_toList, h.toList_unzeroed_brokenOff, h.mem_iff]
    constructor
    · exact fun hother => ⟨.inr hother, h.le_of_mem hother⟩
    · rintro ⟨hother | hother, hge⟩
      · exact absurd (h.lt_of_mem hother) (UInt16.not_lt.mpr hge)
      · exact hother
  case kept =>
    intro n hn hothers
    rw [Cut.memory_brokenOff]
    apply Memory.get?_putAll_of_ne
    intro store hstore
    rcases List.mem_append.mp hstore with hstore | hstore
    · refine forall_mem_zeroes (P := fun store => n ≠ store.1.toNat).mpr (fun other hother => ?_)
        store hstore
      have hne := hothers other (h.mem_iff.mpr (.inl hother)) (h.lt_of_mem hother)
      rw [(h.below other hother).1.toNat_pred]
      exact hne
    · rw [hhalf store hstore, h.isData.toNat_pred]
      exact hn

/-- A drain fails just if a marked pair is past the capacity.  It breaks off at the first such
pair, at its receiver if this is past the capacity too and otherwise at its data word.  Nothing that
was sent is lost and nothing is sent, the pairs before it are zeroed, and it and those behind it
stay marked; no other word of memory changes but its receiver.  A second drain fails in the same way
and changes nothing. -/
theorem drain_breaks_off
    (bus : Bus Peripherals) (h : ∀ data ∈ bus.watcher.network.unzeroed, IsData data) :
    ((∃ fault bus', drain bus = .error fault bus') ↔
      ∃ data ∈ bus.watcher.network.unzeroed, bus.memory.capacity ≤ data.toNat) ∧
    ∀ fault bus', drain bus = .error fault bus' →
      ∃ data ∈ bus.watcher.network.unzeroed, bus.memory.capacity ≤ data.toNat ∧
        (∀ other ∈ bus.watcher.network.unzeroed, bus.memory.capacity ≤ other.toNat →
          data ≤ other) ∧
        fault = .memory (.outOfRange
          (if bus.memory.capacity ≤ data.toNat - 1 then data.toNat - 1 else data.toNat)
          bus.memory.capacity) ∧
        BrokenOff data bus bus' ∧ drain bus' = .error fault bus' := by
  have hfails : (∃ fault bus', drain bus = .error fault bus') →
      ∃ data ∈ bus.watcher.network.unzeroed, bus.memory.capacity ≤ data.toNat := by
    rintro ⟨fault, bus', herror⟩
    by_contra hnone
    have hdrain := drain_eq bus fun data hdata =>
      ⟨h data hdata, Memory.lacks_eq_false_iff.mpr
        (Nat.lt_of_not_le fun hge => hnone ⟨data, hdata, hge⟩)⟩
    rw [hdrain] at herror
    contradiction
  refine ⟨⟨hfails, fun hpast => ?_⟩, fun fault bus' herror => ?_⟩
  · obtain ⟨below, data, above, hcut⟩ := exists_cut h hpast
    exact ⟨_, _, hcut.drain_eq⟩
  · obtain ⟨below, data, above, hcut⟩ := exists_cut h (hfails ⟨fault, bus', herror⟩)
    have hretry := hcut.brokenOff.drain_eq
    rw [hcut.brokenOff_brokenOff, Cut.memory_brokenOff, Memory.capacity_putAll] at hretry
    rw [hcut.drain_eq] at herror
    injection herror with hfault hbus
    subst hfault hbus
    refine ⟨data, hcut.mem_iff.mpr (.inr List.mem_cons_self), of_decide_eq_true hcut.lacks,
      fun other hother hge => ?_, rfl, hcut.brokenOff_spec, hretry⟩
    rcases hcut.mem_iff.mp hother with hbelow | habove
    · have hhit := Memory.lacks_eq_false_iff.mp (hcut.below other hbelow).2
      exact absurd hhit (Nat.not_lt.mpr hge)
    · exact hcut.le_of_mem habove

/-- A memory that ends inside the second of three marked pairs, with a packet that waits. -/
def splitPair : Bus Peripherals where
  memory := Memory.blank 0x6083
  watcher := { Peripherals.powerOn 1 with
    network := { NetworkCard.powerOn 1 with
      outbox := [⟨7, 8⟩]
      unzeroed := ⟨[0x6081, 0x6083, 0x6091], by decide⟩ } }

/-- The first pair is zeroed, and the drain breaks off at the data word of the second, now and when
it is tried again. -/
theorem drain_breaks_off_split :
    (∀ data ∈ splitPair.watcher.network.unzeroed, IsData data) ∧
      ∃ bus', drain splitPair = .error (.memory (.outOfRange 0x6083 0x6083)) bus' ∧
        drain bus' = .error (.memory (.outOfRange 0x6083 0x6083)) bus' ∧
        bus'.watcher.network.outbox = [⟨7, 8⟩] ∧
        bus'.memory.get? 0x6081 = some 0 ∧
        bus'.watcher.network.unzeroed.toList = [0x6083, 0x6091] := by
  have hdata : ∀ data ∈ [(0x6081 : Word), 0x6083, 0x6091], IsData data :=
    List.forall_mem_cons.mpr ⟨by decide,
      List.forall_mem_cons.mpr ⟨by decide, List.forall_mem_singleton.mpr (by decide)⟩⟩
  have hcapacity : splitPair.memory.capacity = 0x6083 := Memory.capacity_blank 0x6083
  obtain ⟨hiff, hall⟩ := drain_breaks_off splitPair hdata
  have hsecond : (0x6083 : Word) ∈ splitPair.watcher.network.unzeroed.toList := by decide
  obtain ⟨fault, bus', herror⟩ := hiff.mpr ⟨0x6083, hsecond, Nat.le_of_eq hcapacity⟩
  obtain ⟨data, hmem, hge, hleast, hfault, hbroken, hretry⟩ := hall fault bus' herror
  obtain rfl : data = 0x6083 := by
    have hle := hleast 0x6083 hsecond (Nat.le_of_eq hcapacity)
    rw [hcapacity] at hge
    exact UInt16.le_antisymm hle (UInt16.le_iff_toNat_le.mpr hge)
  rw [hcapacity] at hfault
  subst hfault
  refine ⟨hdata, bus', herror, hretry, hbroken.outbox, ?_, ?_⟩
  · have hfirst : (0x6081 : Word) ∈ splitPair.watcher.network.unzeroed.toList := by decide
    exact (hbroken.zeroed 0x6081 hfirst (by decide)).2
  · apply eq_of_pairwise_of_mem_iff bus'.watcher.network.unzeroed.ascending (by decide)
    intro other
    rw [WordSet.mem_toList, hbroken.marked, ← WordSet.mem_toList]
    constructor
    · rintro ⟨hother, hle⟩
      have hother' : other ∈ [(0x6081 : Word), 0x6083, 0x6091] := hother
      rcases List.mem_cons.mp hother' with rfl | hrest
      · exact absurd hle (by decide)
      · exact hrest
    · intro hother
      refine ⟨List.mem_cons_of_mem _ hother, ?_⟩
      rcases List.mem_cons.mp hother with rfl | hlast
      · decide
      · rw [List.mem_singleton.mp hlast]
        decide

end Bus

end WordMachine
