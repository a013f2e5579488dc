import ScatterGather.Memory

/-!
# ScatterGather.Controller — a channel that walks chains in memory

A controller walks a chain of descriptors in memory. It fetches nothing in advance: fields, link and
interrupt flag of the block that it executes are read when they are needed, so a chain can grow
under it until its very end. Elements are moved one by one.

For tests a controller can be made to lie: `unstable` shifts every reading of its next pointer,
`countOverride` replaces the reading of its element count, and `race` lets it run on right after
that reading. `Truthful` excludes all three.
-/

namespace ScatterGather

/-- A simulated channel of a controller. Address zero stands for "stopped". -/
structure Controller where
  number : Nat := 0
  /-- The address of the descriptor being executed. -/
  current : Nat := 0
  /-- Elements left in it. -/
  remaining : Nat := 0
  paused : Bool := false
  /-- Polls that will still find data in the FIFO. -/
  pendingPolls : Nat := 0
  unstable : Bool := false
  /-- Readings of the next pointer made while unstable. -/
  unstableReads : Nat := 0
  countOverride : Option Nat := none
  race : Nat := 0
  starts : Nat := 0
  halts : Nat := 0
  pauses : Nat := 0
  resumes : Nat := 0
  /-- The priority of the last start. -/
  priority : Option Priority := none
  deriving DecidableEq, Inhabited

namespace Controller

/-- Every reading is what it seems. -/
def Truthful (c : Controller) : Prop :=
  c.unstable = false ∧ c.countOverride = none ∧ c.race = 0

def isRunning (c : Controller) : Bool :=
  c.current ≠ 0

/-- Goes on to the descriptor at an address, or stops at address zero. -/
def load (c : Controller) (table : DescriptorTable) (address : Nat) : Controller :=
  { c with
    current := address
    remaining := if address = 0 then 0 else (table.read address).elements }

def start (c : Controller) (table : DescriptorTable) (head : Nat) (priority : Priority) :
    Controller :=
  { c with starts := c.starts + 1, priority := some priority }.load table head

def halt (c : Controller) (table : DescriptorTable) : Controller :=
  { c with halts := c.halts + 1, paused := false }.load table 0

def pause (c : Controller) : Controller :=
  { c with pauses := c.pauses + 1, paused := true }

def resume (c : Controller) : Controller :=
  { c with resumes := c.resumes + 1, paused := false }

/-- The link of the descriptor being executed, as it is now. -/
def nextLink (c : Controller) (table : DescriptorTable) : Nat :=
  if c.isRunning then (table.read c.current).next else 0

/-- Reads the next pointer. -/
def readNext (c : Controller) (table : DescriptorTable) : Nat × Controller :=
  if c.unstable then
    (c.nextLink table + c.unstableReads * Descriptor.size,
      { c with unstableReads := c.unstableReads + 1 })
  else (c.nextLink table, c)

/-- Polls whether the FIFO holds data. -/
def poll (c : Controller) : Bool × Controller :=
  if c.pendingPolls = 0 then (false, c) else (true, { c with pendingPolls := c.pendingPolls - 1 })

/-- Moves elements of the block being executed, at most those that are left. -/
def moveElements (c : Controller) (table : DescriptorTable) (memory : Memory) (count : Nat) :
    Controller × Memory :=
  if c.isRunning then
    let d := table.read c.current
    let count := min count c.remaining
    ({ c with remaining := c.remaining - count },
      memory.copyElements d (d.elements - c.remaining) count)
  else (c, memory)

/-- Finishes the block being executed and goes on to the one that it leads to. The event is raised
if the block is armed; it is progress if there is a next block, and completion if there is none. -/
def finish (c : Controller) (table : DescriptorTable) (memory : Memory) :
    Option TransferEvent × Controller × Memory :=
  if c.isRunning then
    let d := table.read c.current
    let (c, memory) := c.moveElements table memory c.remaining
    let c := c.load table d.next
    (if !d.interrupts then none else if c.isRunning then some .progress else some .complete,
      c, memory)
  else (none, c, memory)

/-- Finishes so many blocks, and loses the events. -/
def finishMany (table : DescriptorTable) :
    (blocks : Nat) → Controller → Memory → Controller × Memory
  | 0, c, memory => (c, memory)
  | blocks + 1, c, memory =>
    match c.finish table memory with
    | (_, c, memory) => finishMany table blocks c memory

/-- Finishes blocks until one raises an event or the controller stops. Nothing is given if so many
blocks are not enough. -/
def runToEvent (table : DescriptorTable) : (blocks : Nat) → Controller → Memory →
    Option (Option TransferEvent × Controller × Memory)
  | 0, c, memory => if c.isRunning then none else some (none, c, memory)
  | blocks + 1, c, memory =>
    if c.isRunning then
      match c.finish table memory with
      | (some event, c, memory) => some (some event, c, memory)
      | (none, c, memory) => runToEvent table blocks c memory
    else some (none, c, memory)

/-- Reads the count of elements left, after which a race lets the controller run on once. -/
def readCount (c : Controller) (table : DescriptorTable) (memory : Memory) :
    Nat × Controller × Memory :=
  (c.countOverride.getD c.remaining, finishMany table c.race { c with race := 0 } memory)

end Controller

end ScatterGather
