import Mathlib.Data.List.Induction
import WordMachine.Proofs.Drain

/-!
# Sessions

A session is a machine at power-on and then any operations of its host.  `Operation.stores` are
the stores that an operation makes, as a log beside the devices sees them, and `Memory.sends`
counts the packets among them from memory alone.  The outbox holds the latest of those sent since
it was emptied.
-/

namespace WordMachine

/-- The packets that an outbox holds after all of the given ones were put into it. -/
def latest (packets : List Packet) : List Packet :=
  packets.drop (packets.length - NetworkCard.outboxLimit)

theorem latest_nil : latest [] = [] :=
  List.drop_nil

theorem latest_eq_self {packets : List Packet} (h : packets.length ≤ NetworkCard.outboxLimit) :
    latest packets = packets := by
  rw [latest, Nat.sub_eq_zero_of_le h, List.drop_zero]

theorem length_latest (packets : List Packet) :
    (latest packets).length = min packets.length NetworkCard.outboxLimit := by
  rw [latest, List.length_drop]
  omega

theorem getLast?_latest (packets : List Packet) : (latest packets).getLast? = packets.getLast? := by
  rw [latest, List.getLast?_drop, NetworkCard.outboxLimit]
  split
  · rename_i hle
    have hnil : packets = [] := List.length_eq_zero_iff.mp (by omega)
    rw [hnil, List.getLast?_nil]
  · rfl

/-- A window over the end of a list moves on when the list grows. -/
theorem drop_snoc {limit : Nat} (hlimit : 0 < limit) (packets : List Packet) (packet : Packet) :
    (if (packets.drop (packets.length - limit)).length = limit
      then (packets.drop (packets.length - limit)).tail
      else packets.drop (packets.length - limit)) ++ [packet] =
      (packets ++ [packet]).drop ((packets ++ [packet]).length - limit) := by
  rw [List.length_append, List.length_singleton, List.length_drop]
  by_cases hfull : limit ≤ packets.length
  · have hnext : packets.length + 1 - limit = packets.length - limit + 1 := by omega
    have hle : packets.length - limit + 1 ≤ packets.length := by omega
    rw [if_pos (Nat.sub_sub_self hfull), List.tail_drop, hnext, List.drop_append_of_le_length hle]
  · have hall : packets.length - limit = 0 := by omega
    have hall' : packets.length + 1 - limit = 0 := by omega
    have hshort : ¬packets.length - 0 = limit := by omega
    rw [hall, hall', if_neg hshort, List.drop_zero, List.drop_zero]

theorem enqueue_latest (packets : List Packet) (packet : Packet) :
    NetworkCard.enqueue (latest packets) packet = latest (packets ++ [packet]) :=
  drop_snoc (by decide) packets packet

theorem enqueueAll_latest (sent packets : List Packet) :
    NetworkCard.enqueueAll (latest sent) packets = latest (sent ++ packets) := by
  induction packets generalizing sent with
  | nil => simp [NetworkCard.enqueueAll]
  | cons packet packets ih =>
    calc
      NetworkCard.enqueueAll (latest sent) (packet :: packets) =
          NetworkCard.enqueueAll (NetworkCard.enqueue (latest sent) packet) packets :=
        List.foldl_cons ..
      _ = NetworkCard.enqueueAll (latest (sent ++ [packet])) packets := by rw [enqueue_latest]
      _ = latest (sent ++ [packet] ++ packets) := ih (sent ++ [packet])
      _ = latest (sent ++ packet :: packets) := by rw [List.append_assoc, List.singleton_append]

/-- Stores outside the data words send nothing. -/
theorem Memory.sends_eq_nil
    {memory : Memory} {stores : List (Word × Word)} (h : ∀ store ∈ stores, ¬IsData store.1) :
    memory.sends stores = [] := by
  induction stores generalizing memory with
  | nil => rfl
  | cons store stores ih =>
    have hnone : memory.send? store = none := if_neg fun hboth => h store List.mem_cons_self hboth.1
    rw [sends, hnone, ih fun other hother => h other (List.mem_cons_of_mem store hother)]
    rfl

/-- The words of the inbound ring. -/
def IsInbound (address : Word) : Prop :=
  0x6000 ≤ address.toNat ∧ address.toNat < 0x6080

/-- The words of the keyboard ring. -/
def IsKey (address : Word) : Prop :=
  0x9000 ≤ address.toNat ∧ address.toNat < 0x9010

theorem Keyboard.toNat_slot (keyboard : Keyboard) :
    keyboard.slot.toNat = 0x9000 + keyboard.index.val := by
  have hlt := keyboard.index.isLt
  have hindex : (UInt16.ofNat keyboard.index).toNat = keyboard.index.val :=
    Nat.mod_eq_of_lt (by omega)
  rw [slot, start, UInt16.toNat_add, hindex]
  change (0x9000 + keyboard.index.val) % 65536 = _
  omega

theorem NetworkCard.toNat_inboundSlot (card : NetworkCard) :
    card.inboundSlot.toNat = 0x6000 + 2 * card.inbound.val := by
  have hlt := card.inbound.isLt
  have hindex : (UInt16.ofNat card.inbound).toNat = card.inbound.val :=
    Nat.mod_eq_of_lt (by omega)
  rw [inboundSlot, inboundStart, UInt16.toNat_add, UInt16.toNat_mul, hindex]
  change (0x6000 + 2 * card.inbound.val % 65536) % 65536 = _
  omega

namespace Bus

variable {σ : Type} [Hosted σ]

/-- A key is stored in the keyboard ring, if at all. -/
theorem pressKey_hears (key : Word) (bus : Bus σ) :
    ∃ events,
      Hears events
        (bus.onDevices fun devices => { devices with keyboard := devices.keyboard.advance })
        (finalState (pressKey key bus)) ∧
      ∀ store ∈ Event.stores events, IsKey store.1 := by
  have hslot : ∀ word : Word, word.toNat = bus.devices.keyboard.slot.toNat → IsKey word := by
    intro word hword
    have hlt := bus.devices.keyboard.index.isLt
    rw [Keyboard.toNat_slot] at hword
    constructor <;> omega
  obtain ⟨events, hevents, hkeys⟩ := tells_write key.toNat hslot
    (bus.onDevices fun devices => { devices with keyboard := devices.keyboard.advance })
  refine ⟨events, ?_, hkeys⟩
  rw [pressKey, finalState_adaptExcept]
  exact hevents

/-- A packet is stored in the inbound ring, if at all. -/
theorem receive_hears
    {packet : Packet} (hpeer : packet.peer ≠ 0) (bus : Bus σ) :
    ∃ events,
      Hears events (bus.onNetwork NetworkCard.advanceInbound) (finalState (receive packet bus)) ∧
      ∀ store ∈ Event.stores events, IsInbound store.1 := by
  have hlt := bus.devices.network.inbound.isLt
  have hslot := bus.devices.network.toNat_inboundSlot
  have hsender : Tells IsInbound
      (write bus.devices.network.inboundSlot.toNat packet.peer.toNat :
        EStateM MemoryFault (Bus σ) Unit) :=
    tells_write _ fun word hword => by
      constructor <;> omega
  have hdata : Tells IsInbound
      (write (bus.devices.network.inboundSlot.toNat + 1) packet.data.toNat :
        EStateM MemoryFault (Bus σ) Unit) :=
    tells_write _ fun word hword => by
      constructor <;> omega
  have hannounce : Tells IsInbound
      (modify (announce (.delivered packet.peer packet.data bus.devices.network.inboundSlot)) :
        EStateM MemoryFault (Bus σ) Unit) :=
    fun bus => ⟨_, bus.hears_announce rfl, fun _ h => by contradiction⟩
  obtain ⟨events, hevents, hinbound⟩ := (hsender.bind fun _ => hdata.bind fun _ => hannounce)
    (bus.onNetwork NetworkCard.advanceInbound)
  refine ⟨events, ?_, hinbound⟩
  rw [receive, if_neg hpeer, finalState_adaptExcept]
  exact hevents

end Bus

/-- A packet from nobody is refused, and nothing changes. -/
theorem Machine.receive_of_peer_eq_zero
    {σ : Type} [Hosted σ] (m : Machine σ) {packet : Packet} (h : packet.peer = 0) :
    m.receive packet = .error .invalidSender m := by
  obtain ⟨registers, bus, steps, skip, span⟩ := m
  simp only [receive, onBus, Bus.receive, if_pos h]

/-- What a host can do with a machine. -/
inductive Operation
  /-- Stores a word through the bus. -/
  | write (address value : Nat)
  /-- Loads a program. -/
  | load (program : List Word)
  /-- Executes one instruction. -/
  | step
  /-- Executes a batch of instructions. -/
  | run (count : Nat)
  /-- Presses a key. -/
  | pressKey (key : Word)
  /-- Delivers a packet. -/
  | receive (packet : Packet)
  /-- Collects the packets that were sent. -/
  | drain
  /-- Resets machine and devices, in either order. -/
  | reset (devicesFirst : Bool)

namespace Operation

/-- The machine after an operation, whether it fails or not. -/
def perform {σ : Type} [Hosted σ] (m : Machine σ) : Operation → Machine σ
  | write address value => finalState (Machine.onBus (Bus.write address value) m)
  | load program => finalState (m.load program)
  | step => finalState m.step
  | run count => finalState (m.run count)
  | pressKey key => finalState (m.pressKey key)
  | receive packet => finalState (m.receive packet)
  | drain => finalState m.drain
  | reset true => (m.onDevices Peripherals.reset).reset
  | reset false => m.reset.onDevices Peripherals.reset

/-- The machine with a log beside its devices. -/
def logged (m : Machine Peripherals) : Machine (Logged Peripherals) :=
  m.mapWatcher Logged.start

/-- The stores that an operation makes. -/
def stores (m : Machine Peripherals) (operation : Operation) : List (Word × Word) :=
  Event.stores (operation.perform (logged m)).watcher.events

theorem perform_mapWatcher
    {σ τ : Type} [Hosted σ] [Hosted τ] {f : σ → τ} (hf : Hosted.Respects f) (m : Machine σ)
    (operation : Operation) :
    operation.perform (m.mapWatcher f) = (operation.perform m).mapWatcher f := by
  cases operation with
  | write address value =>
    rw [perform, Machine.tracks_onBus (Bus.tracks_write hf.observes _ _), finalState_mapState]
    rfl
  | load program =>
    rw [perform, Machine.load, Machine.tracks_onBus (Bus.tracks_load hf.observes _),
      finalState_mapState]
    rfl
  | step =>
    rw [perform, Machine.tracks_step hf.observes, finalState_mapState]
    rfl
  | run count =>
    rw [perform, Machine.tracks_run hf.observes, finalState_mapState]
    rfl
  | pressKey key =>
    rw [perform, Machine.pressKey, Machine.tracks_onBus (Bus.tracks_pressKey hf _),
      finalState_mapState]
    rfl
  | receive packet =>
    rw [perform, Machine.receive, Machine.tracks_onBus (Bus.tracks_receive hf _),
      finalState_mapState]
    rfl
  | drain =>
    rw [perform, Machine.drain, Machine.tracks_onBus (Bus.tracks_drain hf), finalState_mapState]
    rfl
  | reset devicesFirst =>
    obtain ⟨registers, ⟨memory, watcher⟩, steps, skip, span⟩ := m
    cases devicesFirst <;>
      simp [perform, Machine.onDevices, Machine.onWatcher, Machine.reset, Machine.mapWatcher,
        Bus.mapWatcher, Bus.clear, hf.onDevices]

/-- What an operation is told to do by the log is what it does without the log. -/
theorem hears_of_logged
    {m : Machine Peripherals} {operation : Operation} {events : List Event}
    {bus : Bus (Logged Peripherals)} (hbus : bus.watcher.events = [])
    (h : Bus.Hears events bus (operation.perform (logged m)).bus) :
    Bus.Hears events (bus.mapWatcher Logged.watcher) (operation.perform m).bus ∧
      operation.stores m = Event.stores events := by
  obtain ⟨hforget, hevents⟩ := h.forget
  have hperform := operation.perform_mapWatcher Logged.respects_watcher (logged m)
  constructor
  · change operation.perform m = _ at hperform
    rw [hperform]
    exact hforget
  · change Event.stores (operation.perform (logged m)).bus.watcher.events = _
    rw [hevents, hbus, List.nil_append]

/-- Whether the operation empties the outbox. -/
def empties : Operation → Bool
  | drain | reset _ => true
  | _ => false

/-- Whether the operation is input to the machine: a key or a packet. -/
def isInput : Operation → Bool
  | pressKey _ | receive _ => true
  | _ => false

end Operation

/-- Two cards with the same outbound traffic. -/
structure NetworkCard.SameTraffic (card card' : NetworkCard) : Prop where
  outbound : card'.outbound = card.outbound
  outbox : card'.outbox = card.outbox
  unzeroed : card'.unzeroed = card.unzeroed

theorem NetworkCard.SameTraffic.follows
    {card card' : NetworkCard} {memory : Memory} (h : card.SameTraffic card')
    (hfollows : card.Follows memory) : card'.Follows memory where
  mirror := by
    rw [h.outbound]
    exact hfollows.mirror
  marked := by
    rw [h.unzeroed]
    exact hfollows.marked

/-- Two sets of devices with the same copies of what was stored. -/
structure Peripherals.SameCopies (devices devices' : Peripherals) : Prop where
  display : devices'.display = devices.display
  touched : devices'.touched = devices.touched
  network : devices.network.SameTraffic devices'.network

namespace Operation

theorem empties_of_isInput {operation : Operation} (h : operation.isInput = true) :
    operation.empties = false := by
  cases operation with
  | pressKey key => rfl
  | receive packet => rfl
  | _ => contradiction

/-- An operation that neither empties the outbox nor is input changes memory and watcher by what it
tells of alone. -/
theorem hears_of_not_isInput
    {σ : Type} [Hosted σ] (m : Machine σ) {operation : Operation}
    (hempties : operation.empties = false) (hinput : operation.isInput = false) :
    ∃ events, Bus.Hears events m.bus (operation.perform m).bus := by
  cases operation with
  | write address value =>
    obtain ⟨events, hevents, -⟩ := Bus.tells_write value (fun _ _ => trivial) m.bus
    rw [← Machine.finalState_onBus] at hevents
    exact ⟨events, hevents⟩
  | load program =>
    obtain ⟨events, hevents, -⟩ := Bus.tells_load program m.bus
    rw [← Machine.finalState_onBus] at hevents
    exact ⟨events, hevents⟩
  | step =>
    obtain ⟨events, hevents, -⟩ := m.step_hears
    exact ⟨events, hevents⟩
  | run count =>
    obtain ⟨events, hevents, -⟩ := Machine.run_hears count m
    exact ⟨events, hevents⟩
  | _ => contradiction

theorem perform_receive_of_peer_eq_zero
    {σ : Type} [Hosted σ] (m : Machine σ) {packet : Packet} (h : packet.peer = 0) :
    (receive packet).perform m = m := by
  rw [perform, m.receive_of_peer_eq_zero h]
  rfl

theorem perform_hears
    (m : Machine Peripherals) {operation : Operation} (h : operation.empties = false) :
    ∃ (bus : Bus (Logged Peripherals)) (events : List Event),
      bus.watcher.events = [] ∧ bus.memory = m.memory ∧
      m.devices.SameCopies bus.watcher.watcher ∧
      Bus.Hears events bus (operation.perform (logged m)).bus ∧
      (operation.isInput = true →
        ∀ store ∈ Event.stores events, IsInbound store.1 ∨ IsKey store.1) := by
  cases hinput : operation.isInput with
  | false =>
    obtain ⟨events, hevents⟩ := hears_of_not_isInput (logged m) h hinput
    exact ⟨_, events, rfl, rfl, ⟨rfl, rfl, rfl, rfl, rfl⟩, hevents, fun _ => by contradiction⟩
  | true =>
    cases operation with
    | pressKey key =>
      obtain ⟨events, hevents, hkeys⟩ := Bus.pressKey_hears key (logged m).bus
      rw [← Machine.finalState_onBus] at hevents
      exact ⟨_, events, rfl, rfl, ⟨rfl, rfl, rfl, rfl, rfl⟩, hevents, fun _ store hstore =>
        .inr (hkeys store hstore)⟩
    | receive packet =>
      by_cases hpeer : packet.peer = 0
      · have hhears : Bus.Hears [] (logged m).bus ((receive packet).perform (logged m)).bus := by
          rw [perform_receive_of_peer_eq_zero _ hpeer]
          exact .refl (logged m).bus
        exact ⟨_, [], rfl, rfl, ⟨rfl, rfl, rfl, rfl, rfl⟩, hhears, fun _ _ hstore => by
          contradiction⟩
      · obtain ⟨events, hevents, hinbound⟩ := Bus.receive_hears hpeer (logged m).bus
        rw [← Machine.finalState_onBus] at hevents
        exact ⟨_, events, rfl, rfl, ⟨rfl, rfl, rfl, rfl, rfl⟩, hevents, fun _ store hstore =>
          .inl (hinbound store hstore)⟩
    | _ => contradiction

/-- An operation that neither drains nor resets does to memory and to the devices what its stores
do. -/
theorem perform_copies
    (m : Machine Peripherals) {operation : Operation} (h : operation.empties = false) :
    ∃ devices, m.devices.SameCopies devices ∧
      (operation.perform m).devices = devices.onWrites (operation.stores m) ∧
      (operation.perform m).memory = m.memory.putAll (operation.stores m) ∧
      (∀ store ∈ operation.stores m, m.memory.lacks store.1 = false) ∧
      (operation.isInput = true →
        ∀ store ∈ operation.stores m, IsInbound store.1 ∨ IsKey store.1) := by
  obtain ⟨bus, events, hbus, hmemory, hcopies, hhears, hinput⟩ := perform_hears m h
  obtain ⟨hplain, hstores⟩ := hears_of_logged hbus hhears
  rw [hstores]
  refine ⟨_, hcopies, hplain.watcher.trans (Bus.devices_tell events _), ?_, ?_, hinput⟩
  · rw [← hmemory]
    exact hplain.memory
  · rw [← hmemory]
    exact hplain.committed

/-- The outbound traffic after such an operation. -/
theorem perform_traffic
    (m : Machine Peripherals) {operation : Operation} (h : operation.empties = false) :
    ∃ card, m.devices.network.SameTraffic card ∧
      (operation.perform m).devices.network = card.onWrites (operation.stores m) ∧
      (operation.perform m).memory = m.memory.putAll (operation.stores m) ∧
      (∀ store ∈ operation.stores m, m.memory.lacks store.1 = false) ∧
      (operation.isInput = true →
        ∀ store ∈ operation.stores m, IsInbound store.1 ∨ IsKey store.1) := by
  obtain ⟨devices, hcopies, hdevices, hmemory, hhit, hinput⟩ := perform_copies m h
  exact ⟨devices.network, hcopies.network, congrArg Peripherals.network hdevices, hmemory, hhit,
    hinput⟩

/-- Input to the machine sends nothing, since the rings are not among the outbound words. -/
theorem sends_of_isInput
    (m : Machine Peripherals) {operation : Operation} (h : operation.isInput = true) :
    m.memory.sends (operation.stores m) = [] := by
  obtain ⟨card, -, -, -, -, hring⟩ := perform_traffic m (empties_of_isInput h)
  apply Memory.sends_eq_nil
  intro store hstore hdata
  obtain ⟨hstart, hend, -⟩ := hdata
  rcases hring h store hstore with hinbound | hkey
  · exact absurd hinbound.2 (Nat.not_lt.mpr hstart)
  · have := hkey.1
    omega

/-- A drain zeroes the marked pairs and stores nothing else. -/
theorem stores_drain
    {m : Machine Peripherals} (h : m.devices.network.Follows m.memory) :
    drain.stores m = zeroes m.devices.network.unzeroed.toList := by
  have hdrain := Bus.drain_eq (logged m).bus h.zeroable
  have hzeroes := ((logged m).bus.onNetwork (·.takeUnzeroed.2)).hears_commitAll
    (lacks_of_mem_zeroes h.zeroable)
  have hevents : (drain.perform (logged m)).watcher.events =
      (zeroes m.devices.network.unzeroed.toList).map fun store => .wrote store.1 store.2 := by
    change (finalState (Machine.onBus Bus.drain (logged m))).bus.watcher.events = _
    rw [Machine.finalState_onBus, hdrain]
    exact hzeroes.forget.2
  rw [stores, hevents, Event.stores_wrote]

theorem stores_write
    {m : Machine Peripherals} {address value : Nat} (haddress : address < m.memory.capacity)
    (hvalue : value < addressSpace) :
    (write address value).stores m = [(UInt16.ofNat address, UInt16.ofNat value)] := by
  have hwrite := (Bus.write_of_lt (logged m).bus haddress hvalue).2
  have hevents : ((write address value).perform (logged m)).watcher.events =
      [.wrote (UInt16.ofNat address) (UInt16.ofNat value)] := by
    change (finalState (Machine.onBus _ (logged m))).bus.watcher.events = _
    rw [Machine.finalState_onBus, hwrite]
    rfl
  rw [stores, hevents]
  rfl

/-- Of what a program observes, a store of the host changes memory alone. -/
theorem guest_perform_write
    {m : Machine Peripherals} {address value : Nat} (haddress : address < m.memory.capacity)
    (hvalue : value < addressSpace) :
    ((write address value).perform m).guest =
      { m.guest with
        memory := m.guest.memory.put (UInt16.ofNat address) (UInt16.ofNat value) } := by
  obtain ⟨registers, bus, steps, skip, span⟩ := m
  have hwrite := (Bus.write_of_lt bus haddress hvalue).2
  simp only [perform, Machine.onBus, hwrite]
  rfl

/-- The store of a step is told from what the program observes. -/
theorem stores_step (m : Machine Peripherals) : step.stores m = m.guest.stores := by
  obtain ⟨events, hevents, hstores⟩ := Machine.step_hears (logged m)
  have hlogged : step.stores m = Event.stores events := (hears_of_logged rfl hevents).2
  exact hlogged.trans hstores

/-- The stores of a batch are told from what the program observes. -/
theorem stores_run (m : Machine Peripherals) (count : Nat) :
    (run count).stores m = m.guest.batchStores count := by
  obtain ⟨events, hevents, hstores⟩ := Machine.run_hears count (logged m)
  have hlogged : (run count).stores m = Event.stores events := (hears_of_logged rfl hevents).2
  exact hlogged.trans hstores

theorem stores_reset (m : Machine Peripherals) (devicesFirst : Bool) :
    (reset devicesFirst).stores m = [] := by
  cases devicesFirst <;> rfl

/-- While the card follows memory, a drain gives what is in the outbox. -/
theorem perform_drain
    {m : Machine Peripherals} (h : m.devices.network.Follows m.memory) :
    m.drain = .ok m.devices.network.outbox (drain.perform m) ∧
      (drain.perform m).memory =
        m.memory.putAll (zeroes m.devices.network.unzeroed.toList) ∧
      (drain.perform m).devices.network.Follows (drain.perform m).memory ∧
      (drain.perform m).devices.network.outbox = [] ∧
      (drain.perform m).devices.network.unzeroed = WordSet.empty := by
  obtain ⟨bus, hdrain, hrest⟩ := Bus.drain_of_follows m.bus h
  have hmachine : m.drain = .ok m.devices.network.outbox { m with bus := bus } := by
    obtain ⟨registers, bus', steps, skip, span⟩ := m
    simp only [Machine.drain, Machine.onBus, hdrain]
    rfl
  have hperform : drain.perform m = { m with bus := bus } := by
    rw [perform, hmachine]
    rfl
  rw [hperform]
  exact ⟨hmachine, hrest⟩

end Operation

theorem Memory.getD_blank (capacity n : Nat) : (blank capacity).getD n = 0 := by
  simp only [getD, get?, blank, Array.getElem?_replicate]
  split <;> rfl

theorem NetworkCard.follows_powerOn (hub : Word) (capacity : Nat) :
    (powerOn hub).Follows (Memory.blank capacity) where
  mirror k := by
    have hword : (Vector.replicate 128 (0 : Word)).get k = 0 :=
      Vector.getElem_replicate k.isLt
    rw [Memory.getD_blank]
    exact hword
  marked _ hdata := (WordSet.not_mem_empty hdata).elim

theorem Machine.memory_guest {σ : Type} [Watcher σ] (m : Machine σ) : m.guest.memory = m.memory :=
  rfl

/-- The words 0x8de1 and 0x6081 at the start of a full memory are an instruction that stores 3 to
the latter's address. -/
theorem Guest.stores_three
    {memory : Memory} (hfull : memory.capacity = addressSpace) (hcode : memory.wordAt 0 = 0x8de1)
    (hoperand : memory.wordAt 1 = 0x6081) :
    Guest.stores ⟨{}, memory, 0, false⟩ = [(0x6081, 3)] := by
  have hinstruction : Guest.instruction ⟨{}, memory, 0, false⟩ =
      .basic .set .absolute (.literal 3) := by
    rw [instruction, hcode]
    rfl
  have heffect : Guest.effect ⟨{}, memory, 0, false⟩ =
      .completes {} (some (0x6081, 3)) false := by
    rw [effect, hinstruction, ← hoperand]
    rfl
  have hfind := Memory.find?_lacks_of_full hfull
  simp [stores, hfind, heffect]

/-- A machine in the course of a session, with the packets that were sent since the outbox was last
emptied and those that were collected. -/
structure Session where
  /-- The machine. -/
  machine : Machine Peripherals
  /-- The packets that were sent since the last drain or reset. -/
  sent : List Packet
  /-- The packets that drains have given. -/
  collected : List Packet

namespace Session

/-- The start of a session. -/
def powerOn (capacity : Nat) (hub : Word) : Session where
  machine := Machine.powerOn capacity (Peripherals.powerOn hub)
  sent := []
  collected := []

/-- The session after one more operation. -/
def next (session : Session) (operation : Operation) : Session where
  machine := operation.perform session.machine
  sent := (if operation.empties then [] else session.sent) ++
    session.machine.memory.sends (operation.stores session.machine)
  collected :=
    match operation, session.machine.drain with
    | .drain, .ok packets _ => session.collected ++ packets
    | _, _ => session.collected

/-- The session after more operations. -/
def nexts (session : Session) (operations : List Operation) : Session :=
  operations.foldl next session

theorem machine_next (session : Session) (operation : Operation) :
    (session.next operation).machine = operation.perform session.machine :=
  rfl

theorem machine_nexts (session : Session) (operations : List Operation) :
    (session.nexts operations).machine =
      operations.foldl (fun m operation => operation.perform m) session.machine := by
  induction operations generalizing session with
  | nil => rfl
  | cons operation operations ih => exact ih (session.next operation)

/-- A session from power-on. -/
def after (capacity : Nat) (hub : Word) (operations : List Operation) : Session :=
  operations.foldl next (powerOn capacity hub)

theorem after_snoc
    (capacity : Nat) (hub : Word) (operations : List Operation) (operation : Operation) :
    after capacity hub (operations ++ [operation]) =
      (after capacity hub operations).next operation :=
  List.foldl_append

theorem next_of_not_empties
    (session : Session) {operation : Operation} (h : operation.empties = false) :
    (session.next operation).sent = session.sent ++
        session.machine.memory.sends (operation.stores session.machine) ∧
      (session.next operation).collected = session.collected := by
  cases operation with
  | drain => contradiction
  | reset devicesFirst => contradiction
  | _ => exact ⟨rfl, rfl⟩

/-- The card follows memory, and the outbox holds the latest of the packets that were sent. -/
structure Sound (session : Session) : Prop where
  follows : session.machine.devices.network.Follows session.machine.memory
  outbox : session.machine.devices.network.outbox = latest session.sent

theorem sound_powerOn (capacity : Nat) (hub : Word) : (powerOn capacity hub).Sound where
  follows := NetworkCard.follows_powerOn hub capacity
  outbox := latest_nil.symm

theorem Sound.next {session : Session} (h : session.Sound) (operation : Operation) :
    (session.next operation).Sound := by
  by_cases hempties : operation.empties = true
  · cases operation with
    | drain =>
      obtain ⟨-, -, hfollows, houtbox, -⟩ := Operation.perform_drain h.follows
      have hsends : session.machine.memory.sends (Operation.drain.stores session.machine) = [] := by
        rw [Operation.stores_drain h.follows]
        exact Memory.sends_zeroes h.follows.zeroable
      refine ⟨hfollows, houtbox.trans ?_⟩
      change [] = latest ([] ++ session.machine.memory.sends _)
      rw [hsends, List.append_nil, latest_nil]
    | reset devicesFirst =>
      have hsent : (session.next (.reset devicesFirst)).sent = [] := by
        change [] ++ session.machine.memory.sends _ = []
        rw [Operation.stores_reset]
        rfl
      refine ⟨?_, ?_⟩
      · cases devicesFirst <;> exact NetworkCard.follows_powerOn _ _
      · rw [hsent, latest_nil]
        cases devicesFirst <;> rfl
    | _ => contradiction
  · obtain ⟨card, htraffic, hnetwork, hmemory, hhit, -⟩ :=
      Operation.perform_traffic session.machine (Bool.eq_false_iff.mpr hempties)
    have hfollows := htraffic.follows h.follows
    constructor
    · change (operation.perform session.machine).devices.network.Follows _
      rw [hnetwork]
      change (card.onWrites _).Follows (operation.perform session.machine).memory
      rw [hmemory]
      exact hfollows.onWrites hhit
    · have hsent : (session.next operation).sent = session.sent ++
          session.machine.memory.sends (operation.stores session.machine) :=
        congrArg (· ++ _) (if_neg hempties)
      change (operation.perform session.machine).devices.network.outbox = _
      rw [hnetwork, hfollows.outbox_onWrites hhit, htraffic.outbox, h.outbox, hsent,
        enqueueAll_latest]

theorem Sound.nexts {session : Session} (h : session.Sound) (operations : List Operation) :
    (session.nexts operations).Sound := by
  induction operations generalizing session with
  | nil => exact h
  | cons operation operations ih => exact ih (h.next operation)

theorem Sound.capacity_next {session : Session} (h : session.Sound) (operation : Operation) :
    (session.next operation).machine.memory.capacity = session.machine.memory.capacity := by
  change (operation.perform session.machine).memory.capacity = _
  by_cases hempties : operation.empties = true
  · cases operation with
    | drain =>
      rw [(Operation.perform_drain h.follows).2.1]
      exact session.machine.memory.capacity_putAll _
    | reset devicesFirst => cases devicesFirst <;> exact session.machine.memory.capacity_clear
    | _ => contradiction
  · obtain ⟨card, -, -, hmemory, -⟩ :=
      Operation.perform_traffic session.machine (Bool.eq_false_iff.mpr hempties)
    rw [hmemory]
    exact session.machine.memory.capacity_putAll _

theorem sound_after (capacity : Nat) (hub : Word) (operations : List Operation) :
    (after capacity hub operations).Sound :=
  (sound_powerOn capacity hub).nexts operations

theorem capacity_after (capacity : Nat) (hub : Word) (operations : List Operation) :
    (after capacity hub operations).machine.memory.capacity = min capacity addressSpace := by
  induction operations using List.reverseRecOn with
  | nil => exact Memory.capacity_blank capacity
  | append_singleton operations operation ih =>
    rw [after_snoc, (sound_after capacity hub operations).capacity_next, ih]

/-- At any point of a session a drain succeeds and gives the latest of the packets that were sent
since the last drain or reset.  Neither a drain nor a key nor a packet that comes in sends
anything. -/
theorem drain_after (capacity : Nat) (hub : Word) (operations : List Operation) :
    (∃ m', (after capacity hub operations).machine.drain =
      .ok (latest (after capacity hub operations).sent) m') ∧
    ∀ operation : Operation, operation = .drain ∨ operation.isInput = true →
      (after capacity hub operations).machine.memory.sends
        (operation.stores (after capacity hub operations).machine) = [] := by
  have hsound := sound_after capacity hub operations
  constructor
  · have hdrain := (Operation.perform_drain hsound.follows).1
    rw [hsound.outbox] at hdrain
    exact ⟨_, hdrain⟩
  · rintro operation (rfl | hinput)
    · rw [Operation.stores_drain hsound.follows]
      exact Memory.sends_zeroes hsound.follows.zeroable
    · exact Operation.sends_of_isInput _ hinput

theorem guest_after_nil (capacity : Nat) (hub : Word) :
    (after capacity hub []).machine.guest = ⟨{}, Memory.blank capacity, 0, false⟩ :=
  rfl

section

variable {capacity : Nat} {hub : Word} {operations : List Operation} {address value : Nat}

theorem guest_after_write (haddress : address < min capacity addressSpace)
    (hvalue : value < addressSpace) :
    (after capacity hub (operations ++ [.write address value])).machine.guest =
      { (after capacity hub operations).machine.guest with
        memory := (after capacity hub operations).machine.guest.memory.put
          (UInt16.ofNat address) (UInt16.ofNat value) } := by
  rw [after_snoc]
  refine Operation.guest_perform_write ?_ hvalue
  rw [capacity_after]
  exact haddress

theorem sent_after_write (haddress : address < min capacity addressSpace)
    (hvalue : value < addressSpace) (hdata : ¬IsData (UInt16.ofNat address)) :
    (after capacity hub (operations ++ [.write address value])).sent =
      (after capacity hub operations).sent := by
  have hinside : address < (after capacity hub operations).machine.memory.capacity := by
    rw [capacity_after]
    exact haddress
  have hsends : (after capacity hub operations).machine.memory.sends
      ((Operation.write address value).stores (after capacity hub operations).machine) = [] := by
    rw [Operation.stores_write hinside hvalue]
    exact Memory.sends_eq_nil (List.forall_mem_singleton.mpr hdata)
  have hempties : (Operation.write address value).empties = false := rfl
  rw [after_snoc, (next_of_not_empties _ hempties).1, hsends, List.append_nil]

end

/-- A host names a receiver and lays down an instruction that stores 3 behind it. -/
def prepared : List Operation :=
  [.write 0x6080 14, .write 0 0x8de1, .write 1 0x6081]

theorem prepared_eq :
    prepared = (([] ++ [.write 0x6080 14]) ++ [.write 0 0x8de1]) ++ [.write 1 0x6081] :=
  rfl

theorem guest_prepared :
    (after addressSpace 1 prepared).machine.guest =
      { registers := {}
        memory := (((Memory.blank addressSpace).put 0x6080 14).put 0 0x8de1).put 1 0x6081
        steps := 0
        skip := false } := by
  rw [prepared_eq, guest_after_write, guest_after_write, guest_after_write, guest_after_nil]
  all_goals simp [addressSpace]

theorem sent_prepared : (after addressSpace 1 prepared).sent = [] := by
  rw [prepared_eq, sent_after_write, sent_after_write, sent_after_write]
  · rfl
  all_goals decide

/-- The store of the instruction sends a packet to the receiver that the host has named. -/
theorem send?_prepared :
    (after addressSpace 1 prepared).machine.memory.send? (0x6081, 3) = some ⟨14, 3⟩ := by
  have hpred : (0x6081 : Word) - 1 = 0x6080 := by decide
  have hreceiver : (after addressSpace 1 prepared).machine.memory.wordAt 0x6080 = 14 := by
    rw [← Machine.memory_guest, guest_prepared, Memory.wordAt_put_of_ne _ _ (by decide),
      Memory.wordAt_put_of_ne _ _ (by decide), Memory.wordAt_put_self]
    simp [Memory.lacks, addressSpace]
  rw [Memory.send?, hpred, hreceiver]
  rfl

theorem stores_step_prepared :
    Operation.step.stores (after addressSpace 1 prepared).machine = [(0x6081, 3)] := by
  rw [Operation.stores_step, guest_prepared]
  apply Guest.stores_three
  · simp
  · rw [Memory.wordAt_put_of_ne _ _ (by decide), Memory.wordAt_put_self]
    simp [Memory.lacks, addressSpace]
  · rw [Memory.wordAt_put_self]
    simp [Memory.lacks, addressSpace]

theorem drain_after_prepared :
    (after addressSpace 1 (prepared ++ [.step])).sent = [⟨14, 3⟩] ∧
      ∃ m', (after addressSpace 1 (prepared ++ [.step])).machine.drain = .ok [⟨14, 3⟩] m' := by
  have hempties : Operation.step.empties = false := rfl
  have hsent : (after addressSpace 1 (prepared ++ [.step])).sent = [⟨14, 3⟩] := by
    rw [after_snoc, (next_of_not_empties _ hempties).1, sent_prepared, stores_step_prepared,
      Memory.sends, send?_prepared]
    rfl
  obtain ⟨⟨m', hdrain⟩, -⟩ := drain_after addressSpace 1 (prepared ++ [.step])
  rw [hsent] at hdrain
  exact ⟨hsent, m', hdrain⟩

end Session

end WordMachine
