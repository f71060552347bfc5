import WordMachine.Proofs.Rings

/-!
# Rejected input

Keys and packets are rejected when memory ends before their place in the ring, and packets also
when they come from nobody.  Both rings take the place before anything is stored in it.  So a packet
from nobody leaves no trace, but input without a place in memory moves its ring on, and when memory
ends between the two words of a pair, the sender of the packet stays behind without its data.
-/

namespace WordMachine

/-- What the host puts into a machine. -/
inductive Input
  | key (code : Word)
  | packet (packet : Packet)
  deriving DecidableEq

def Input.deliver : Input → EStateM DeviceFault (Machine Peripherals) Unit
  | .key code => Machine.pressKey code
  | .packet received => Machine.receive received

namespace Bus

variable {σ : Type} [Hosted σ] (bus : Bus σ)

theorem pressKey_of_lacks
    (hlacks : bus.memory.lacks bus.devices.keyboard.slot = true) (key : Word) :
    pressKey key bus =
      .error (.memory (.outOfRange bus.devices.keyboard.slot.toNat bus.memory.capacity))
        (bus.onDevices fun devices => { devices with keyboard := devices.keyboard.advance }) := by
  have hwrite := write_of_lacks
    (bus.onDevices fun devices => { devices with keyboard := devices.keyboard.advance }) hlacks key
  simp only [pressKey, EStateM.adaptExcept, hwrite]
  rfl

theorem receive_of_lacks
    (hlacks : bus.memory.lacks bus.devices.network.inboundSlot = true)
    {packet : Packet} (hpeer : packet.peer ≠ 0) :
    receive packet bus =
      .error (.memory (.outOfRange bus.devices.network.inboundSlot.toNat bus.memory.capacity))
        (bus.onNetwork NetworkCard.advanceInbound) := by
  have hsender :=
    write_of_lacks (bus.onNetwork NetworkCard.advanceInbound) hlacks packet.peer
  rw [receive, if_neg hpeer]
  simp only [EStateM.adaptExcept, bind_of_error hsender]
  rfl

/-- When memory ends between the words of a pair, the sender is stored before the data fails. -/
theorem receive_of_torn
    (hhit : bus.memory.lacks bus.devices.network.inboundSlot = false)
    (hlacks : bus.memory.lacks (bus.devices.network.inboundSlot + 1) = true)
    {packet : Packet} (hpeer : packet.peer ≠ 0) :
    receive packet bus =
      .error (.memory (.outOfRange (bus.devices.network.inboundSlot.toNat + 1)
          bus.memory.capacity))
        ((bus.onNetwork NetworkCard.advanceInbound).commit
          (bus.devices.network.inboundSlot, packet.peer)) := by
  have hsender := write_eq_commit (bus.onNetwork NetworkCard.advanceInbound) hhit packet.peer
  have hdata := write_of_lacks
    ((bus.onNetwork NetworkCard.advanceInbound).commit
      (bus.devices.network.inboundSlot, packet.peer))
    ((bus.memory.lacks_put _ packet.peer _).trans hlacks) packet.data
  rw [bus.devices.network.toNat_inboundSlot_add_one] at hdata
  have hcapacity : ((bus.onNetwork NetworkCard.advanceInbound).commit
      (bus.devices.network.inboundSlot, packet.peer)).memory.capacity = bus.memory.capacity :=
    Memory.capacity_put _ _ _
  rw [hcapacity] at hdata
  rw [receive, if_neg hpeer]
  simp only [EStateM.adaptExcept, bind_of_ok hsender, bind_of_error hdata]

end Bus

namespace Machine

variable (m : Machine Peripherals)

/-- The machine with the keyboard ring moved on, and nothing else changed. -/
def keyClaimed : Machine Peripherals :=
  m.onDevices fun devices => { devices with keyboard := devices.keyboard.advance }

/-- The machine with the inbound ring moved on, and nothing else changed. -/
def pairClaimed : Machine Peripherals :=
  m.onDevices fun devices => { devices with network := devices.network.advanceInbound }

/-- The machine with the inbound ring moved on and the sender of a packet stored, which touches its
row.  Nothing else is changed: the display does not show it and it is not sent. -/
def senderStored (peer : Word) : Machine Peripherals :=
  { m.pairClaimed with
    bus.memory := m.memory.put m.devices.network.inboundSlot peer
    bus.watcher.touched := Peripherals.touch m.devices.touched m.devices.network.inboundSlot }

theorem bus_senderStored (peer : Word) :
    (m.senderStored peer).bus =
      (m.bus.onNetwork NetworkCard.advanceInbound).commit
        (m.bus.devices.network.inboundSlot, peer) := by
  have hlt := m.devices.network.inbound.isLt
  have hslot := m.devices.network.toNat_inboundSlot
  have hring : IsInbound m.devices.network.inboundSlot := by
    constructor <;> omega
  exact congrArg (Bus.mk (m.memory.put m.devices.network.inboundSlot peer))
    (m.pairClaimed.devices.onWrite_of_ring (.inl hring) peer).symm

theorem keyClaimed_ne : m.keyClaimed ≠ m := by
  intro hsame
  have hindex : m.devices.keyboard.index + 1 = m.devices.keyboard.index :=
    congrArg (·.devices.keyboard.index) hsame
  grind

theorem inbound_add_one_ne : m.devices.network.inbound + 1 ≠ m.devices.network.inbound := by
  grind

theorem pairClaimed_ne : m.pairClaimed ≠ m :=
  fun hsame => m.inbound_add_one_ne (congrArg (·.devices.network.inbound) hsame)

theorem senderStored_ne (peer : Word) : m.senderStored peer ≠ m :=
  fun hsame => m.inbound_add_one_ne (congrArg (·.devices.network.inbound) hsame)

end Machine

/-- Which input a machine rejects, with the fault and the machine that is left. -/
inductive Rejection (m : Machine Peripherals) : Input → DeviceFault → Machine Peripherals → Prop
  /-- A packet comes from nobody. -/
  | nobody (data : Word) : Rejection m (.packet ⟨0, data⟩) .invalidSender m
  /-- Memory ends before the place for the key. -/
  | key (code : Word) (hend : m.memory.capacity ≤ m.devices.keyboard.slot.toNat) :
    Rejection m (.key code)
      (.memory (.outOfRange m.devices.keyboard.slot.toNat m.memory.capacity)) m.keyClaimed
  /-- Memory ends before the pair for the packet. -/
  | pair {packet : Packet} (hpeer : packet.peer ≠ 0)
    (hend : m.memory.capacity ≤ m.devices.network.inboundSlot.toNat) :
    Rejection m (.packet packet)
      (.memory (.outOfRange m.devices.network.inboundSlot.toNat m.memory.capacity)) m.pairClaimed
  /-- Memory ends between the words of the pair for the packet. -/
  | torn {packet : Packet} (hpeer : packet.peer ≠ 0)
    (hend : m.memory.capacity = m.devices.network.inboundSlot.toNat + 1) :
    Rejection m (.packet packet)
      (.memory (.outOfRange (m.devices.network.inboundSlot.toNat + 1) m.memory.capacity))
      (m.senderStored packet.peer)

section

variable {m m' : Machine Peripherals} {input : Input} {fault : DeviceFault}

theorem Rejection.deliver_eq (h : Rejection m input fault m') :
    input.deliver m = .error fault m' := by
  cases h with
  | nobody data =>
    have hpeer : (⟨0, data⟩ : Packet).peer = 0 := rfl
    exact m.receive_of_peer_eq_zero hpeer
  | key code hend =>
    have hfails := m.bus.pressKey_of_lacks (decide_eq_true hend) code
    simp only [Input.deliver, Machine.pressKey, Machine.onBus, hfails]
    rfl
  | pair hpeer hend =>
    have hfails := m.bus.receive_of_lacks (decide_eq_true hend) hpeer
    simp only [Input.deliver, Machine.receive, Machine.onBus, hfails]
    rfl
  | torn hpeer hend =>
    have hnext := m.devices.network.toNat_inboundSlot_add_one
    have hhit : m.memory.lacks m.devices.network.inboundSlot = false := by
      rw [Memory.lacks_eq_false_iff]
      omega
    have hlacks : m.memory.lacks (m.devices.network.inboundSlot + 1) = true :=
      decide_eq_true (by omega)
    have hfails := m.bus.receive_of_torn hhit hlacks hpeer
    rw [← m.bus_senderStored] at hfails
    simp only [Input.deliver, Machine.receive, Machine.onBus, hfails]
    rfl

/-- Input is rejected in one way at most. -/
theorem Rejection.of_deliver_eq
    (h : Rejection m input fault m') {fault' : DeviceFault} {m'' : Machine Peripherals}
    (hdeliver : input.deliver m = .error fault' m'') : Rejection m input fault' m'' := by
  have heq := h.deliver_eq.symm.trans hdeliver
  cases heq
  exact h

theorem rejection_of_key {code : Word} (h : (Input.key code).deliver m = .error fault m') :
    Rejection m (.key code) fault m' := by
  cases hlacks : m.memory.lacks m.devices.keyboard.slot with
  | true => exact (Rejection.key code (of_decide_eq_true hlacks)).of_deliver_eq h
  | false =>
    have hok := m.bus.pressKey_of_hit hlacks code
    simp only [Input.deliver, Machine.pressKey, Machine.onBus, hok] at h
    contradiction

theorem rejection_of_packet
    {packet : Packet} (h : (Input.packet packet).deliver m = .error fault m') :
    Rejection m (.packet packet) fault m' := by
  by_cases hpeer : packet.peer = 0
  · obtain ⟨peer, data⟩ := packet
    subst hpeer
    exact (Rejection.nobody data).of_deliver_eq h
  · cases hlacks : m.memory.lacks m.devices.network.inboundSlot with
    | true => exact (Rejection.pair hpeer (of_decide_eq_true hlacks)).of_deliver_eq h
    | false =>
      cases hlacks' : m.memory.lacks (m.devices.network.inboundSlot + 1) with
      | true =>
        have hnext := m.devices.network.toNat_inboundSlot_add_one
        have hlt := Memory.lacks_eq_false_iff.mp hlacks
        have hge := of_decide_eq_true hlacks'
        exact (Rejection.torn hpeer (by omega)).of_deliver_eq h
      | false =>
        have hok := m.bus.receive_of_hit hlacks hlacks' hpeer
        simp only [Input.deliver, Machine.receive, Machine.onBus, hok] at h
        contradiction

theorem Rejection.eq_iff (h : Rejection m input fault m') : m' = m ↔ fault = .invalidSender := by
  cases h with
  | nobody data => exact iff_of_true rfl rfl
  | key code hend => exact iff_of_false m.keyClaimed_ne nofun
  | pair hpeer hend => exact iff_of_false m.pairClaimed_ne nofun
  | torn hpeer hend => exact iff_of_false (m.senderStored_ne _) nofun

end

/-- Input is rejected in four cases, and in each it is known what is left.  Nothing is changed just
if the input is a packet from nobody. -/
theorem Input.rejected_iff
    (m m' : Machine Peripherals) (input : Input) (fault : DeviceFault) :
    (input.deliver m = .error fault m' ↔ Rejection m input fault m') ∧
    (input.deliver m = .error fault m' → (m' = m ↔ fault = .invalidSender)) := by
  have hrejection (h : input.deliver m = .error fault m') : Rejection m input fault m' := by
    cases input with
    | key code => exact rejection_of_key h
    | packet packet => exact rejection_of_packet h
  exact ⟨⟨hrejection, Rejection.deliver_eq⟩, fun h => (hrejection h).eq_iff⟩

/-- When memory ends behind the first word of the inbound ring, a packet is rejected, but the ring
has moved on. -/
theorem Input.not_rejected_unchanged :
    ¬∀ (m m' : Machine Peripherals) (input : Input) (fault : DeviceFault),
      input.deliver m = .error fault m' → m'.memory = m.memory ∧ m'.devices = m.devices := by
  intro hunchanged
  let m : Machine Peripherals := .powerOn 0x6001 (.powerOn 1)
  have hcapacity : m.memory.capacity = 0x6001 := Memory.capacity_blank 0x6001
  have hpeer : (⟨3, 9⟩ : Packet).peer ≠ 0 := by decide
  have htorn : Rejection m (.packet ⟨3, 9⟩) _ _ := .torn hpeer hcapacity
  obtain ⟨-, hdevices⟩ := hunchanged m _ _ _ htorn.deliver_eq
  have hinbound := congrArg (·.network.inbound) hdevices
  exact absurd hinbound (by decide)

end WordMachine
