import ScatterGather.Settings

/-!
# ScatterGather.Descriptor — one block of a transfer, as a controller fetches it

A descriptor names one block: where it comes from, where it goes, a control word, and the address of
the descriptor that follows, zero at the end of a chain. It is written one field at a time, since a
controller may be reading the chain that it is being linked into; `Descriptor.Write` is one such
write.
-/

namespace ScatterGather

/-- One block of a transfer, as a controller fetches it from memory. -/
structure Descriptor where
  source : Nat := 0
  destination : Nat := 0
  control : UInt32 := 0
  next : Nat := 0
  deriving DecidableEq, Inhabited

namespace Descriptor

/-- Bytes from one descriptor of a table to the next. -/
def size : Nat := 32

/-- A write to one field of a descriptor. -/
inductive Write where
  | source (address : Nat)
  | destination (address : Nat)
  | control (word : UInt32)
  | next (address : Nat)
  deriving DecidableEq

def apply (d : Descriptor) : Write → Descriptor
  | .source address => { d with source := address }
  | .destination address => { d with destination := address }
  | .control word => { d with control := word }
  | .next address => { d with next := address }

/-- The writes that set up a block, in the order in which they are made. The link is cleared
last. -/
def program (source destination : Nat) (control : UInt32) : List Write :=
  [.source source, .destination destination, .control control, .next 0]

/-- A control word with its completion interrupt switched on or off, and nothing else changed. -/
def armed (control : UInt32) (on : Bool) : UInt32 :=
  if on then control ||| Control.interruptOnComplete else control &&& ~~~Control.interruptOnComplete

/-- The elements that the block has. -/
def elements (d : Descriptor) : Nat :=
  (Control.decodeCount d.control).toNat

/-- The bytes of one element. -/
def elementBytes (d : Descriptor) : Nat :=
  1 <<< ((d.control &&& Control.widthMask) >>> Control.widthShift).toNat

/-- Whether the completion of the block raises an event. -/
def interrupts (d : Descriptor) : Bool :=
  d.control &&& Control.interruptOnComplete != 0

def sourceFixed (d : Descriptor) : Bool :=
  d.control &&& Control.sourceFixed != 0

def destinationFixed (d : Descriptor) : Bool :=
  d.control &&& Control.destinationFixed != 0

/-- Where element `index` of the block is read. -/
def sourceOf (d : Descriptor) (index : Nat) : Nat :=
  if d.sourceFixed then d.source else d.source + index * d.elementBytes

/-- Where element `index` of the block is written. -/
def destinationOf (d : Descriptor) (index : Nat) : Nat :=
  if d.destinationFixed then d.destination else d.destination + index * d.elementBytes

def text (d : Descriptor) : String :=
  Text.record "Descriptor"
    [("source", Text.hex d.source), ("destination", Text.hex d.destination),
      ("control", Text.hexWord d.control), ("next", Text.hex d.next)]

end Descriptor

end ScatterGather
