import ScatterGather.Access

/-!
# ScatterGather.Pool — a row of descriptors used as a ring

A pool is a row of `capacity` descriptors in main memory, used as a ring: the queued ones occupy the
slots from `head` on, wrapping at the end of the row, and are linked in that order. The pool itself
holds only the cursors; descriptors are read and written through accesses, because a controller
walks them while they are linked.

Slots and addresses are two names of the same thing (`addressOf`, `slotOf`); offsets count from the
head (`slotAt`, `offsetOf`).
-/

namespace ScatterGather

/-- The cursors of a ring of descriptors whose row starts at `base`. -/
structure Pool where
  base : Nat
  capacity : Nat
  head : Nat := 0
  queued : Nat := 0
  deriving DecidableEq

namespace Pool

def isEmpty (p : Pool) : Bool :=
  p.queued = 0

def isFull (p : Pool) : Bool :=
  p.queued = p.capacity

/-- The address of a slot. -/
def addressOf (p : Pool) (slot : Nat) : Nat :=
  p.base + slot * Descriptor.size

/-- The slot whose descriptor starts at an address. -/
def slotOf (p : Pool) (address : Nat) : Option Nat :=
  if address < p.base then none
  else
    let span := address - p.base
    if span % Descriptor.size ≠ 0 ∨ p.capacity ≤ span / Descriptor.size then none
    else some (span / Descriptor.size)

/-- The slot that lies `offset` places behind the head. -/
def slotAt (p : Pool) (offset : Nat) : Nat :=
  (p.head + offset) % p.capacity

/-- How many places a slot lies behind the head. -/
def offsetOf (p : Pool) (slot : Nat) : Nat :=
  (slot + p.capacity - p.head) % p.capacity

/-- The slot that the next block goes to. -/
def tail (p : Pool) : Nat :=
  p.slotAt p.queued

/-- The address of the descriptor that lies `offset` places behind the head. -/
def addressAt (p : Pool) (offset : Nat) : Nat :=
  p.addressOf (p.slotAt offset)

/-- The slots that are queued, in order. -/
def queuedSlots (p : Pool) : List Nat :=
  (List.range p.queued).map p.slotAt

/-- Programs the next free slot and links it behind the block queued last. Every field is written
before the link, so whoever follows the link finds a complete descriptor. A closed loop leads from
the new block back to the head. -/
def push (p : Pool) (source destination : Nat) (control : UInt32) (closeLoop : Bool) :
    DriverScript (Option Pool) :=
  if p.isFull then pure none
  else do
    let entry := p.addressOf p.tail
    perform (.store entry (.source source))
    perform (.store entry (.destination destination))
    perform (.store entry (.control control))
    perform (.store entry (.next 0))
    Script.when closeLoop (perform (.store entry (.next (p.addressAt 0))))
    Script.when (p.queued ≠ 0) (perform (.store (p.addressAt (p.queued - 1)) (.next entry)))
    pure (some { p with queued := p.queued + 1 })

/-- Forgets blocks at the head, at most those that are queued. -/
def retire (p : Pool) (count : Nat) : Pool :=
  let count := min count p.queued
  { p with head := (p.head + count) % p.capacity, queued := p.queued - count }

/-- Forgets all blocks and goes back to the first slot. -/
def reset (p : Pool) : Pool :=
  { p with head := 0, queued := 0 }

/-- Where the block `offset` places behind the head has to lead. -/
def linkAt (p : Pool) (closeLoop : Bool) (offset : Nat) : Nat :=
  if offset + 1 < p.queued then p.addressAt (offset + 1)
  else if closeLoop then p.addressAt 0
  else 0

/-- Writes every link of the queue anew. -/
def relink (p : Pool) (closeLoop : Bool) : DriverScript Unit :=
  Script.forEach
    (fun offset => perform (.store (p.addressAt offset) (.next (p.linkAt closeLoop offset))))
    0 p.queued

end Pool

end ScatterGather
