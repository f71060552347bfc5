import WordMachine.WordSet

/-!
# The network card

Traffic comes in through a ring of 64 pairs of words, sender and data, and goes out through 64
more pairs, receiver and data.  Storing the data word of an outbound pair sends it at once, to the
receiver that the pair holds at that moment; the card keeps a copy of the outbound words to know
it.  Packets wait in the outbox for the host, and their pairs are marked to be zeroed when the
host collects them.  Storing a receiver again takes the mark away, since the pair is then being
staged for another packet.
-/

namespace WordMachine

/-- One word of traffic with the hub of the other party. -/
structure Packet where
  /-- The sender of an inbound packet, the receiver of an outbound one. -/
  peer : Word
  data : Word
  deriving DecidableEq

structure NetworkCard where
  /-- The hub by which the card is known on the network. -/
  hub : Word
  /-- The inbound pair for the next packet. -/
  inbound : Fin 64
  /-- The words of the outbound window as last stored. -/
  outbound : Vector Word 128
  /-- The packets sent and not yet collected, the oldest first. -/
  outbox : List Packet
  /-- The addresses of the data words of pairs that were sent and not yet zeroed. -/
  unzeroed : WordSet
  deriving DecidableEq

namespace NetworkCard

def powerOn (hub : Word) : NetworkCard where
  hub := hub
  inbound := 0
  outbound := Vector.replicate 128 0
  outbox := []
  unzeroed := WordSet.empty

def inboundStart : Word := 0x6000

def outboundStart : Nat := 0x6080

/-- The number of packets that the outbox holds. -/
def outboxLimit : Nat := 256

/-- The place of an address in the outbound window, if it is in it. -/
def offset? (address : Word) : Option (Fin 128) :=
  if h : outboundStart ≤ address.toNat ∧ address.toNat < outboundStart + 128 then
    some ⟨address.toNat - outboundStart, by omega⟩
  else
    none

def isOutbound (address : Word) : Bool :=
  (offset? address).isSome

/-- The receiver word of the pair whose data word is at `k`. -/
def receiver (card : NetworkCard) (k : Fin 128) : Word :=
  have := k.isLt
  card.outbound[k.val - 1]

/-- The outbox with one more packet.  A full outbox loses its oldest one. -/
def enqueue (outbox : List Packet) (packet : Packet) : List Packet :=
  (if outbox.length = outboxLimit then outbox.tail else outbox) ++ [packet]

/-- Takes note of a store.  Addresses outside the outbound window are ignored. -/
def onWrite (card : NetworkCard) (address value : Word) : NetworkCard :=
  match offset? address with
  | none => card
  | some k =>
    let peer := card.receiver k
    let card := { card with outbound := card.outbound.set k value }
    if k.val % 2 = 0 then
      { card with unzeroed := card.unzeroed.erase (address + 1) }
    else if peer = 0 then
      card
    else
      { card with
        outbox := enqueue card.outbox ⟨peer, value⟩
        unzeroed := card.unzeroed.insert address }

/-- The address of the sender word of the next inbound pair. -/
def inboundSlot (card : NetworkCard) : Word :=
  inboundStart + 2 * UInt16.ofNat card.inbound

def advanceInbound (card : NetworkCard) : NetworkCard :=
  { card with inbound := card.inbound + 1 }

/-- Empties the outbox and gives back what was in it. -/
def takeOutbox (card : NetworkCard) : List Packet × NetworkCard :=
  (card.outbox, { card with outbox := [] })

/-- Takes away every mark and gives back the addresses that were marked. -/
def takeUnzeroed (card : NetworkCard) : WordSet × NetworkCard :=
  (card.unzeroed, { card with unzeroed := WordSet.empty })

/-- Marks the pairs with data words at the given addresses again. -/
def requeue (card : NetworkCard) (addresses : List Word) : NetworkCard :=
  { card with unzeroed := card.unzeroed.insertAll addresses }

/-- Forgets all traffic. -/
def reset (card : NetworkCard) : NetworkCard :=
  powerOn card.hub

end NetworkCard

end WordMachine
