import WordMachine.Proofs.Zeroing

/-!
# Input rings

Keys and packets that come in are stored in rings, and the next one goes to the place behind that of
the last.  The rings lie outside the windows of the display and of the outbound pairs, so input is
neither shown nor sent, and as long as nothing else stores in them they hold the latest of what
came in.
-/

namespace WordMachine

/-- Entries go round a ring of `size` places, and the latest of them are where they were put. -/
def KeepsLatest {α : Type} (size : Nat) (entries : List α) (holds : Nat → α → Prop) : Prop :=
  ∀ i entry, entries[i]? = some entry → entries.length ≤ i + size → holds (i % size) entry

section

variable {α : Type} {size : Nat} {entries : List α} {holds holds' : Nat → α → Prop}

theorem keepsLatest_nil : KeepsLatest size [] holds := by
  intro i entry hentry
  simp at hentry

/-- Fewer than `size` places apart, no two entries have the same place. -/
theorem mod_ne_mod {i n : Nat} (hlt : i < n) (hsize : n < i + size) : i % size ≠ n % size := by
  intro hmod
  have hzero := Nat.sub_mod_eq_zero_of_mod_eq hmod.symm
  rw [Nat.mod_eq_of_lt (by omega)] at hzero
  omega

theorem KeepsLatest.imp
    (h : KeepsLatest size entries holds) (hsize : 0 < size)
    (himp : ∀ place entry, place < size → holds place entry → holds' place entry) :
    KeepsLatest size entries holds' :=
  fun i entry hentry hlast => himp _ _ (Nat.mod_lt i hsize) (h i entry hentry hlast)

/-- One more entry takes the place of the one that was put there a whole round ago. -/
theorem KeepsLatest.snoc
    (h : KeepsLatest size entries holds) (hsize : 0 < size) {last : α}
    (hlast : holds' (entries.length % size) last)
    (hothers : ∀ place entry, place < size → place ≠ entries.length % size →
      holds place entry → holds' place entry) :
    KeepsLatest size (entries ++ [last]) holds' := by
  intro i entry hentry hrecent
  rw [List.length_append, List.length_singleton] at hrecent
  by_cases hlt : i < entries.length
  · rw [List.getElem?_append_left hlt] at hentry
    have hplace : i % size ≠ entries.length % size := mod_ne_mod hlt (by omega)
    exact hothers _ _ (Nat.mod_lt i hsize) hplace (h i entry hentry (by omega))
  · obtain ⟨hi, -⟩ := List.getElem?_eq_some_iff.mp hentry
    rw [List.length_append, List.length_singleton] at hi
    obtain rfl : i = entries.length := by omega
    rw [List.getElem?_concat_length, Option.some_inj] at hentry
    exact hentry ▸ hlast

end

namespace Memory

/-- A key is at a place of the keyboard ring. -/
def HasKey (memory : Memory) (place : Nat) (key : Word) : Prop :=
  memory.get? (0x9000 + place) = some key

/-- A packet is at a place of the inbound ring. -/
def HasPacket (memory : Memory) (place : Nat) (packet : Packet) : Prop :=
  memory.get? (0x6000 + 2 * place) = some packet.peer ∧
    memory.get? (0x6000 + 2 * place + 1) = some packet.data

variable {memory : Memory} {stores : List (Word × Word)} {place : Nat}

theorem HasKey.putAll
    {key : Word} (h : memory.HasKey place key) (hplace : place < 16)
    (hstores : ∀ store ∈ stores, ¬IsKey store.1) : (memory.putAll stores).HasKey place key := by
  rw [HasKey, get?_putAll_of_ne fun store hstore heq => hstores store hstore (by
    constructor <;> omega)]
  exact h

theorem HasPacket.putAll
    {packet : Packet} (h : memory.HasPacket place packet) (hplace : place < 64)
    (hstores : ∀ store ∈ stores, ¬IsInbound store.1) :
    (memory.putAll stores).HasPacket place packet := by
  constructor
  · rw [get?_putAll_of_ne fun store hstore heq => hstores store hstore (by
      constructor <;> omega)]
    exact h.1
  · rw [get?_putAll_of_ne fun store hstore heq => hstores store hstore (by
      constructor <;> omega)]
    exact h.2

end Memory

namespace Display

theorem onWrite_eq_self
    (display : Display) {address : Word} (h : IsInbound address ∨ IsKey address) (value : Word) :
    display.onWrite address value = display := by
  have hnone : offset? address = none := by
    by_contra hsome
    obtain ⟨k, hk⟩ := Option.ne_none_iff_exists'.mp hsome
    have hlt := k.isLt
    rw [offset?_eq_some_iff] at hk
    rcases h with ⟨hstart, hend⟩ | ⟨hstart, hend⟩ <;> omega
  simp only [onWrite, hnone]

end Display

namespace NetworkCard

theorem onWrite_eq_self
    (card : NetworkCard) {address : Word} (h : IsInbound address ∨ IsKey address) (value : Word) :
    card.onWrite address value = card := by
  have hnone : offset? address = none := by
    rw [offset?_eq_none_iff]
    rcases h with ⟨hstart, hend⟩ | ⟨hstart, hend⟩ <;> omega
  simp only [onWrite, hnone]

theorem toNat_inboundSlot_add_one (card : NetworkCard) :
    (card.inboundSlot + 1).toNat = card.inboundSlot.toNat + 1 := by
  have hlt := card.inbound.isLt
  rw [UInt16.toNat_add, toNat_inboundSlot]
  change (0x6000 + 2 * card.inbound.val + 1) % 65536 = _
  omega

theorem inbound_onWrite (card : NetworkCard) (address value : Word) :
    (card.onWrite address value).inbound = card.inbound := by
  cases hk : offset? address with
  | none => simp only [onWrite, hk]
  | some k =>
    simp only [onWrite, hk]
    split
    · rfl
    · split <;> rfl

/-- Stores do not move the inbound ring on. -/
theorem inbound_onWrites (card : NetworkCard) (stores : List (Word × Word)) :
    (card.onWrites stores).inbound = card.inbound := by
  induction stores generalizing card with
  | nil => rfl
  | cons store stores ih =>
    exact (ih (card.onWrite store.1 store.2)).trans (card.inbound_onWrite store.1 store.2)

end NetworkCard

/-- A store in a ring is only noted as touching its row. -/
theorem Peripherals.onWrite_of_ring
    (devices : Peripherals) {address : Word} (h : IsInbound address ∨ IsKey address)
    (value : Word) :
    devices.onWrite address value = { devices with touched := touch devices.touched address } := by
  obtain ⟨display, keyboard, network, touched⟩ := devices
  simp only [onWrite, display.onWrite_eq_self h value, network.onWrite_eq_self h value]

/-- Display and network card ignore what is stored in the rings. -/
theorem Peripherals.onWrites_of_rings
    (devices : Peripherals) {stores : List (Word × Word)}
    (h : ∀ store ∈ stores, IsInbound store.1 ∨ IsKey store.1) :
    (devices.onWrites stores).display = devices.display ∧
      (devices.onWrites stores).network = devices.network := by
  induction stores generalizing devices with
  | nil => exact ⟨rfl, rfl⟩
  | cons store stores ih =>
    have hstore := devices.onWrite_of_ring (h store List.mem_cons_self) store.2
    obtain ⟨hdisplay, hnetwork⟩ := ih (devices.onWrite store.1 store.2) fun other hother =>
      h other (List.mem_cons_of_mem store hother)
    exact ⟨hdisplay.trans (congrArg (·.display) hstore),
      hnetwork.trans (congrArg (·.network) hstore)⟩

namespace Bus

variable {σ : Type} [Hosted σ] (bus : Bus σ)

/-- The bus after a key came in. -/
def keyed (key : Word) : Bus σ :=
  (bus.onDevices fun devices => { devices with keyboard := devices.keyboard.advance }).commit
    (bus.devices.keyboard.slot, key)

/-- The stores by which a packet comes in. -/
def deliveries (packet : Packet) : List (Word × Word) :=
  [(bus.devices.network.inboundSlot, packet.peer),
    (bus.devices.network.inboundSlot + 1, packet.data)]

/-- The bus after a packet came in. -/
def delivered (packet : Packet) : Bus σ :=
  ((bus.onNetwork NetworkCard.advanceInbound).commitAll (bus.deliveries packet)).announce
    (.delivered packet.peer packet.data bus.devices.network.inboundSlot)

theorem pressKey_of_hit
    (hhit : bus.memory.lacks bus.devices.keyboard.slot = false) (key : Word) :
    pressKey key bus = .ok () (bus.keyed key) := by
  have hwrite := write_eq_commit
    (bus.onDevices fun devices => { devices with keyboard := devices.keyboard.advance }) hhit key
  simp only [pressKey, EStateM.adaptExcept, hwrite]
  rfl

theorem receive_of_hit
    (hhit : bus.memory.lacks bus.devices.network.inboundSlot = false)
    (hhit' : bus.memory.lacks (bus.devices.network.inboundSlot + 1) = false)
    {packet : Packet} (hpeer : packet.peer ≠ 0) :
    receive packet bus = .ok () (bus.delivered packet) := by
  have hsender := write_eq_commit (bus.onNetwork NetworkCard.advanceInbound) hhit packet.peer
  have hdata := write_eq_commit
    ((bus.onNetwork NetworkCard.advanceInbound).commit
      (bus.devices.network.inboundSlot, packet.peer))
    ((bus.memory.lacks_put _ packet.peer _).trans hhit') packet.data
  rw [bus.devices.network.toNat_inboundSlot_add_one] at hdata
  rw [receive, if_neg hpeer]
  simp only [EStateM.adaptExcept, bind_of_ok hsender, bind_of_ok hdata]
  rfl

section

variable (hcapacity : 0x9010 ≤ bus.memory.capacity)

include hcapacity

theorem pressKey_eq (key : Word) : pressKey key bus = .ok () (bus.keyed key) := by
  have hlt := bus.devices.keyboard.index.isLt
  apply bus.pressKey_of_hit
  rw [Memory.lacks_eq_false_iff, Keyboard.toNat_slot]
  omega

theorem receive_eq {packet : Packet} (hpeer : packet.peer ≠ 0) :
    receive packet bus = .ok () (bus.delivered packet) := by
  have hlt := bus.devices.network.inbound.isLt
  have hslot := bus.devices.network.toNat_inboundSlot
  have hnext := bus.devices.network.toNat_inboundSlot_add_one
  apply bus.receive_of_hit _ _ hpeer
  · rw [Memory.lacks_eq_false_iff]
    omega
  · rw [Memory.lacks_eq_false_iff]
    omega

end

end Bus

namespace Operation

/-- The key that comes in by an operation. -/
def key? : Operation → Option Word
  | pressKey key => some key
  | _ => none

/-- The packet that comes in by an operation.  One from nobody does not. -/
def packet? : Operation → Option Packet
  | receive packet => if packet.peer = 0 then none else some packet
  | _ => none

/-- The operation is no reset and stores nothing in the rings. -/
def Spares (m : Machine Peripherals) (operation : Operation) : Prop :=
  operation.isReset = false ∧ ∀ store ∈ operation.stores m, ¬IsInbound store.1 ∧ ¬IsKey store.1

/-- Whether the operation is input, or a single store of the host at an address outside the
rings. -/
def avoidsRings : Operation → Bool
  | pressKey _ | receive _ => true
  | write address _ =>
    !(0x6000 ≤ address && address < 0x6080) && !(0x9000 ≤ address && address < 0x9010)
  | _ => false

/-- The operation stores in a ring alone.  It leaves the words outside the ring, the display and the
outbound traffic as they are. -/
structure StaysIn (ring : Word → Prop) (m : Machine Peripherals) (operation : Operation) :
    Prop where
  stores : ∀ store ∈ operation.stores m, ring store.1
  memory : ∀ address : Word, ¬ring address →
    (operation.perform m).memory.get? address.toNat = m.memory.get? address.toNat
  display : (operation.perform m).devices.display = m.devices.display
  traffic : m.devices.network.SameTraffic (operation.perform m).devices.network

variable {m : Machine Peripherals}

theorem spares_write
    {address : Nat} (value : Nat) (h : (write address value).avoidsRings = true) :
    (write address value).Spares m := by
  have hoff (word : Word) (hword : word.toNat = address) : ¬IsInbound word ∧ ¬IsKey word := by
    simp only [avoidsRings, Bool.and_eq_true, Bool.not_eq_true', Bool.and_eq_false_iff,
      decide_eq_false_iff_not] at h
    simp only [IsInbound, IsKey]
    omega
  obtain ⟨events, hevents, hallowed⟩ := Bus.tells_write value hoff (logged m).bus
  rw [← Machine.finalState_onBus] at hevents
  refine ⟨rfl, ?_⟩
  rw [(hears_of_logged rfl hevents).2]
  exact hallowed

/-- Only input and resets move the places for the next key and the next packet. -/
theorem cursors_perform
    (hfollows : m.devices.network.Follows m.memory) {operation : Operation}
    (hinput : operation.isInput = false) (hreset : operation.isReset = false) :
    (operation.perform m).devices.keyboard = m.devices.keyboard ∧
      (operation.perform m).devices.network.inbound = m.devices.network.inbound := by
  cases hempties : operation.empties with
  | false =>
    obtain ⟨events, hevents⟩ := hears_of_not_isInput m hempties hinput
    have hdevices := hevents.watcher.trans (Bus.devices_tell events m.bus.watcher)
    have hinbound := congrArg (·.network.inbound) hdevices
    have hkeyboard := congrArg Peripherals.keyboard hdevices
    exact ⟨hkeyboard, hinbound.trans (NetworkCard.inbound_onWrites _ _)⟩
  | true =>
    cases operation with
    | drain =>
      have hbus : (drain.perform m).bus = m.bus.zeroed.onNetwork (·.takeOutbox.2) := by
        rw [perform, Machine.drain, Machine.finalState_onBus, Bus.drain_eq m.bus hfollows.zeroable]
        rfl
      have hzeroed := Bus.devices_commitAll (m.bus.onNetwork (·.takeUnzeroed.2))
        (zeroes m.bus.devices.network.unzeroed.toList)
      have hkeyboard := congrArg Peripherals.keyboard hzeroed
      have hinbound := congrArg (·.network.inbound) hzeroed
      change (drain.perform m).bus.watcher.keyboard = _ ∧
        (drain.perform m).bus.watcher.network.inbound = _
      rw [hbus]
      exact ⟨hkeyboard, hinbound.trans (NetworkCard.inbound_onWrites _ _)⟩
    | _ => contradiction

theorem staysIn_of_isInput
    {ring : Word → Prop} {operation : Operation} (hinput : operation.isInput = true)
    (hring : ∀ store ∈ operation.stores m, ring store.1) : operation.StaysIn ring m := by
  obtain ⟨devices, hcopies, hdevices, hmemory, -, hrings⟩ :=
    perform_copies m (empties_of_isInput hinput)
  obtain ⟨hdisplay, hnetwork⟩ := devices.onWrites_of_rings (hrings hinput)
  rw [← hdevices] at hdisplay hnetwork
  constructor
  case stores => exact hring
  case memory =>
    intro address hoff
    rw [hmemory]
    apply Memory.get?_putAll_of_ne
    intro store hstore heq
    exact hoff (UInt16.toNat_inj.mp heq ▸ hring store hstore)
  case display => exact hdisplay.trans hcopies.display
  case traffic =>
    rw [hnetwork]
    exact hcopies.network

theorem pressKey_staysIn (m : Machine Peripherals) (key : Word) :
    (pressKey key).StaysIn IsKey m := by
  apply staysIn_of_isInput rfl
  obtain ⟨events, hevents, hkeys⟩ := Bus.pressKey_hears key (logged m).bus
  rw [← Machine.finalState_onBus] at hevents
  rw [(hears_of_logged rfl hevents).2]
  exact hkeys

theorem receive_staysIn (m : Machine Peripherals) {packet : Packet} (hpeer : packet.peer ≠ 0) :
    (receive packet).StaysIn IsInbound m := by
  apply staysIn_of_isInput rfl
  obtain ⟨events, hevents, hinbound⟩ := Bus.receive_hears hpeer (logged m).bus
  rw [← Machine.finalState_onBus] at hevents
  rw [(hears_of_logged rfl hevents).2]
  exact hinbound

theorem perform_pressKey (hcapacity : 0x9010 ≤ m.memory.capacity) (key : Word) :
    m.pressKey key = .ok () ((pressKey key).perform m) ∧
      ((pressKey key).perform m).bus = m.bus.keyed key := by
  have hpress : m.pressKey key = .ok () { m with bus := m.bus.keyed key } := by
    simp only [Machine.pressKey, Machine.onBus, m.bus.pressKey_eq hcapacity key]
  rw [perform, hpress]
  exact ⟨rfl, rfl⟩

theorem perform_receive
    (hcapacity : 0x9010 ≤ m.memory.capacity) {packet : Packet} (hpeer : packet.peer ≠ 0) :
    m.receive packet = .ok () ((receive packet).perform m) ∧
      ((receive packet).perform m).bus = m.bus.delivered packet := by
  have hreceive : m.receive packet = .ok () { m with bus := m.bus.delivered packet } := by
    simp only [Machine.receive, Machine.onBus, m.bus.receive_eq hcapacity hpeer]
  rw [perform, hreceive]
  exact ⟨rfl, rfl⟩

end Operation

/-- The rings hold the latest of the keys and packets that came in, and the places for the next are
behind these. -/
structure Rings (m : Machine Peripherals) (keys : List Word) (packets : List Packet) : Prop where
  index : m.devices.keyboard.index.val = keys.length % 16
  inbound : m.devices.network.inbound.val = packets.length % 64
  keys : KeepsLatest 16 keys m.memory.HasKey
  packets : KeepsLatest 64 packets m.memory.HasPacket

section

variable {m : Machine Peripherals} {keys : List Word} {packets : List Packet}

/-- An operation that stores nothing in the keyboard ring leaves the keys there. -/
theorem keeps_keys
    (h : KeepsLatest 16 keys m.memory.HasKey) (hfollows : m.devices.network.Follows m.memory)
    {operation : Operation} (hreset : operation.isReset = false)
    (hstores : ∀ store ∈ operation.stores m, ¬IsKey store.1) :
    KeepsLatest 16 keys (operation.perform m).memory.HasKey := by
  rw [(Operation.perform_records hfollows hreset).2.2.1]
  exact h.imp (by decide) fun place key hplace hkey => hkey.putAll hplace hstores

/-- An operation that stores nothing in the inbound ring leaves the packets there. -/
theorem keeps_packets
    (h : KeepsLatest 64 packets m.memory.HasPacket) (hfollows : m.devices.network.Follows m.memory)
    {operation : Operation} (hreset : operation.isReset = false)
    (hstores : ∀ store ∈ operation.stores m, ¬IsInbound store.1) :
    KeepsLatest 64 packets (operation.perform m).memory.HasPacket := by
  rw [(Operation.perform_records hfollows hreset).2.2.1]
  exact h.imp (by decide) fun place packet hplace hpacket => hpacket.putAll hplace hstores

theorem IsKey.not_isInbound {address : Word} (h : IsKey address) : ¬IsInbound address := by
  rintro ⟨-, hend⟩
  have hstart := h.1
  omega

namespace Rings

/-- A key comes in at the place behind the last one. -/
theorem pressKey
    (h : Rings m keys packets) (hfollows : m.devices.network.Follows m.memory)
    (hcapacity : 0x9010 ≤ m.memory.capacity) (key : Word) :
    Rings ((Operation.pressKey key).perform m) (keys ++ [key]) packets := by
  have hbus := (Operation.perform_pressKey hcapacity key).2
  have hslot := m.devices.keyboard.toNat_slot
  have hmemory : ((Operation.pressKey key).perform m).memory =
      m.memory.put m.devices.keyboard.slot key := congrArg Bus.memory hbus
  have hindex : ((Operation.pressKey key).perform m).devices.keyboard.index =
      m.devices.keyboard.index + 1 := congrArg (·.watcher.keyboard.index) hbus
  rw [h.index] at hslot
  constructor
  case index =>
    rw [hindex, Fin.val_add, h.index, List.length_append]
    exact Nat.mod_add_mod keys.length 16 1
  case inbound =>
    have hinbound := congrArg (·.watcher.network.inbound) hbus
    exact (congrArg Fin.val (hinbound.trans (NetworkCard.inbound_onWrite _ _ _))).trans h.inbound
  case keys =>
    rw [hmemory]
    refine h.keys.snoc (by decide) ?_ fun place other hplace hne hother => ?_
    · rw [Memory.HasKey, Memory.get?_put, if_pos ⟨hslot.symm, by omega⟩]
    · rw [Memory.HasKey, Memory.get?_put, if_neg fun hboth => hne (by omega)]
      exact hother
  case packets =>
    have hkeys := (Operation.pressKey_staysIn m key).stores
    exact keeps_packets h.packets hfollows rfl fun store hstore =>
      (hkeys store hstore).not_isInbound

/-- A packet comes in at the pair behind the last one. -/
theorem receive
    (h : Rings m keys packets) (hfollows : m.devices.network.Follows m.memory)
    (hcapacity : 0x9010 ≤ m.memory.capacity) {packet : Packet} (hpeer : packet.peer ≠ 0) :
    Rings ((Operation.receive packet).perform m) keys (packets ++ [packet]) := by
  have hbus := (Operation.perform_receive hcapacity hpeer).2
  have hslot := m.devices.network.toNat_inboundSlot
  have hnext := m.devices.network.toNat_inboundSlot_add_one
  have hmemory : ((Operation.receive packet).perform m).memory =
      (m.memory.put m.devices.network.inboundSlot packet.peer).put
        (m.devices.network.inboundSlot + 1) packet.data := congrArg Bus.memory hbus
  rw [h.inbound] at hslot
  constructor
  case index => exact (congrArg (·.watcher.keyboard.index.val) hbus).trans h.index
  case inbound =>
    have hinbound : ((Operation.receive packet).perform m).devices.network.inbound =
        m.devices.network.inbound + 1 :=
      (congrArg (·.watcher.network.inbound) hbus).trans
        (m.devices.network.advanceInbound.inbound_onWrites (m.bus.deliveries packet))
    rw [hinbound, Fin.val_add, h.inbound, List.length_append]
    exact Nat.mod_add_mod packets.length 64 1
  case keys =>
    have hinbound := (Operation.receive_staysIn m hpeer).stores
    exact keeps_keys h.keys hfollows rfl fun store hstore hkey =>
      hkey.not_isInbound (hinbound store hstore)
  case packets =>
    rw [hmemory]
    refine h.packets.snoc (by decide) ?_ fun place other hplace hne hother => ?_
    -- Each word of a pair is looked up behind the stores of data and sender, in this order.
    · constructor
      · rw [Memory.get?_put, if_neg (by omega), Memory.get?_put, if_pos ⟨hslot.symm, by omega⟩]
      · rw [Memory.get?_put, if_pos ⟨by omega, by rw [Memory.capacity_put]; omega⟩]
    · constructor
      · rw [Memory.get?_put, if_neg (by omega), Memory.get?_put, if_neg (by omega)]
        exact hother.1
      · rw [Memory.get?_put, if_neg (by omega), Memory.get?_put, if_neg (by omega)]
        exact hother.2

/-- What stores elsewhere leaves the rings as they are. -/
theorem spares
    (h : Rings m keys packets) (hfollows : m.devices.network.Follows m.memory)
    {operation : Operation} (hinput : operation.isInput = false) (hspares : operation.Spares m) :
    Rings (operation.perform m) keys packets := by
  obtain ⟨hreset, hstores⟩ := hspares
  obtain ⟨hkeyboard, hinbound⟩ := Operation.cursors_perform hfollows hinput hreset
  constructor
  case index =>
    rw [hkeyboard]
    exact h.index
  case inbound =>
    rw [hinbound]
    exact h.inbound
  case keys => exact keeps_keys h.keys hfollows hreset fun store hstore => (hstores store hstore).2
  case packets =>
    exact keeps_packets h.packets hfollows hreset fun store hstore => (hstores store hstore).1

theorem perform
    (h : Rings m keys packets) (hfollows : m.devices.network.Follows m.memory)
    (hcapacity : 0x9010 ≤ m.memory.capacity) {operation : Operation}
    (hspares : operation.isInput = false → operation.Spares m) :
    Rings (operation.perform m) (keys ++ operation.key?.toList)
      (packets ++ operation.packet?.toList) := by
  cases operation with
  | pressKey key =>
    simpa [Operation.key?, Operation.packet?] using h.pressKey hfollows hcapacity key
  | receive packet =>
    by_cases hpeer : packet.peer = 0
    · have hsame := Operation.perform_receive_of_peer_eq_zero m hpeer
      simpa [Operation.key?, Operation.packet?, hpeer, hsame] using h
    · simpa [Operation.key?, Operation.packet?, hpeer] using h.receive hfollows hcapacity hpeer
  | _ => simpa [Operation.key?, Operation.packet?] using h.spares hfollows rfl (hspares rfl)

end Rings

end

namespace Session

/-- The keys that come in in the course of a session. -/
def pressed (operations : List Operation) : List Word :=
  operations.filterMap Operation.key?

/-- The packets that come in in the course of a session. -/
def accepted (operations : List Operation) : List Packet :=
  operations.filterMap Operation.packet?

/-- Nothing but input stores in the rings, and there is no reset. -/
def SparesRings (capacity : Nat) (hub : Word) (operations : List Operation) : Prop :=
  ∀ before operation later, operations = before ++ operation :: later →
    operation.isInput = false → operation.Spares (after capacity hub before).machine

variable {capacity : Nat} {hub : Word} {operations : List Operation}

/-- The host spares the rings when it stores outside them. -/
theorem sparesRings_of_avoidsRings
    (h : ∀ operation ∈ operations, operation.avoidsRings = true) :
    SparesRings capacity hub operations := by
  rintro before operation later rfl hinput
  have havoids := h operation (by simp)
  cases operation with
  | write address value => exact Operation.spares_write value havoids
  | _ => contradiction

theorem SparesRings.of_snoc {operation : Operation}
    (h : SparesRings capacity hub (operations ++ [operation])) :
    SparesRings capacity hub operations ∧
      (operation.isInput = false → operation.Spares (after capacity hub operations).machine) := by
  constructor
  · rintro before earlier later rfl
    exact h before earlier (later ++ [operation]) (by simp)
  · exact h operations operation [] rfl

theorem rings_of_sparesRings
    (hcapacity : 0x9010 ≤ capacity) (hspares : SparesRings capacity hub operations) :
    Rings (after capacity hub operations).machine (pressed operations) (accepted operations) := by
  induction operations using List.reverseRecOn with
  | nil => exact ⟨rfl, rfl, keepsLatest_nil, keepsLatest_nil⟩
  | append_singleton operations operation ih =>
    obtain ⟨hbefore, hspares⟩ := hspares.of_snoc
    have hfollows := (sound_after capacity hub operations).follows
    have hkeys : pressed (operations ++ [operation]) =
        pressed operations ++ operation.key?.toList := by
      rw [pressed, List.filterMap_append, ← pressed]
      cases hkey : operation.key? <;> simp [hkey]
    have hpackets : accepted (operations ++ [operation]) =
        accepted operations ++ operation.packet?.toList := by
      rw [accepted, List.filterMap_append, ← accepted]
      cases hpacket : operation.packet? <;> simp [hpacket]
    have hcapacity' : 0x9010 ≤ (after capacity hub operations).machine.memory.capacity := by
      rw [capacity_after, addressSpace]
      omega
    rw [hkeys, hpackets, after_snoc]
    exact (ih hbefore).perform hfollows hcapacity' hspares

/-- As long as nothing else stores in the rings, the latest 16 keys and the latest 64 packets are in
memory, each at the place of its number.  A packet from nobody is refused and changes nothing.
Every other packet and every key comes in, and stores in its own ring alone, so that neither display
nor outbound traffic change. -/
theorem rings_after
    (hcapacity : 0x9010 ≤ capacity) (hspares : SparesRings capacity hub operations) :
    let m := (after capacity hub operations).machine
    (∀ i key, (pressed operations)[i]? = some key → (pressed operations).length ≤ i + 16 →
      m.memory.get? (0x9000 + i % 16) = some key) ∧
    (∀ i packet, (accepted operations)[i]? = some packet →
      (accepted operations).length ≤ i + 64 →
        m.memory.get? (0x6000 + 2 * (i % 64)) = some packet.peer ∧
          m.memory.get? (0x6000 + 2 * (i % 64) + 1) = some packet.data) ∧
    (∀ data, m.receive ⟨0, data⟩ = .error .invalidSender m) ∧
    (∀ key, m.pressKey key = .ok () ((Operation.pressKey key).perform m) ∧
      (Operation.pressKey key).StaysIn IsKey m) ∧
    ∀ packet, packet.peer ≠ 0 →
      m.receive packet = .ok () ((Operation.receive packet).perform m) ∧
        (Operation.receive packet).StaysIn IsInbound m := by
  intro m
  have hrings := rings_of_sparesRings hcapacity hspares
  have hcapacity' : 0x9010 ≤ m.memory.capacity := by
    rw [capacity_after, addressSpace]
    omega
  refine ⟨hrings.keys, hrings.packets, fun data => m.receive_of_peer_eq_zero rfl,
    fun key => ?_, fun packet hpeer => ?_⟩
  · exact ⟨(Operation.perform_pressKey hcapacity' key).1, Operation.pressKey_staysIn m key⟩
  · exact ⟨(Operation.perform_receive hcapacity' hpeer).1, Operation.receive_staysIn m hpeer⟩

/-- Seventeen keys go once round, and a refused packet takes no place. -/
theorem rings_after_round :
    let operations : List Operation :=
      (List.range 17).map (fun k => .pressKey (UInt16.ofNat (0x41 + k))) ++
        [.write 0x6080 5, .receive ⟨0, 9⟩, .write 0x6081 7, .receive ⟨3, 10⟩]
    let m := (after 0x9010 1 operations).machine
    SparesRings 0x9010 1 operations ∧
      m.memory.get? 0x9000 = some 0x51 ∧ m.memory.get? 0x9001 = some 0x42 ∧
      m.memory.get? 0x6000 = some 3 ∧ m.memory.get? 0x6001 = some 10 := by
  intro operations m
  have hspares : SparesRings 0x9010 1 operations := sparesRings_of_avoidsRings (by decide)
  obtain ⟨hkeys, hpackets, -⟩ := rings_after (by decide) hspares
  obtain ⟨hsender, hdata⟩ := hpackets 0 ⟨3, 10⟩ rfl (by decide)
  exact ⟨hspares, hkeys 16 0x51 rfl (by decide), hkeys 1 0x42 rfl (by decide), hsender, hdata⟩

end Session

end WordMachine
