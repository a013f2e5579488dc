import ScatterGather.Cell
import ScatterGather.Machine
import ScatterGather.Waiting

/-!
# ScatterGather.Slot — a stream shared with its interrupt handler

A slot is a guarded cell for a stream, a place for one waker, and a count of the wake-ups of each
task. `Slot.answer` says what each access of a `SlotScript` does to the slot and to the machine
behind its stream. An event that comes while somebody is at the stream is lost to the stream, but
still wakes the task that waits.
-/

namespace ScatterGather

/-- A place for a stream, with what is needed to wait for it. -/
structure Slot where
  cell : Cell (Option Stream) := { value := none }
  waker : Waker := {}
  /-- How often each task has been woken. -/
  wakes : Array Nat := #[]

namespace Slot

def stream? (s : Slot) : Option Stream :=
  s.cell.value

/-- The status of the stream, if there is one. -/
def status (s : Slot) : Option Status :=
  s.stream?.map Stream.status

/-- Puts a stream in place of the one that is there, if any. -/
def replace (s : Slot) (stream : Option Stream) : Slot :=
  { s with cell := { s.cell with value := stream } }

/-- Makes room for the wake-ups of a task and of all tasks before it. -/
def admitTask (s : Slot) (task : Nat) : Slot :=
  { s with wakes := s.wakes ++ Array.replicate (task + 1 - s.wakes.size) 0 }

/-- Hands an event to the stream. A slot that somebody is at takes no notice, and neither does an
empty one. -/
def deliver (s : Slot) (m : Machine) (event : TransferEvent) : Slot × Machine :=
  match s.cell.enter? with
  | none => (s, m)
  | some cell =>
    match cell.value with
    | none => (s, m)
    | some stream =>
      let ((_, stream), m) := m.exec stream.channel.hardware (stream.onInterrupt event)
      ({ s with cell := { cell with value := some stream }.leave }, m)

/-- Answers one access to a slot. Delays take no time here. -/
def answer : (a : SlotAccess) → Slot × Machine → a.Answer × (Slot × Machine)
  | .status, (s, m) => (s.status, s, m)
  | .deliver event, (s, m) => ((), s.deliver m event)
  | .register task, (s, m) => ((), { s with waker := s.waker.register task }, m)
  | .takeWaker, (s, m) =>
    let (task, waker) := s.waker.take
    (task, { s with waker }, m)
  | .wake task, (s, m) => ((), { s with wakes := s.wakes.modify task (· + 1) }, m)
  | .delay _, (s, m) => ((), s, m)

/-- Runs code that uses a slot, with nothing happening in between. -/
def exec {α : Type} (s : Slot) (m : Machine) (script : SlotScript α) : α × (Slot × Machine) :=
  script.run answer (s, m)

end Slot

end ScatterGather
