import ScatterGather.Controller
import ScatterGather.RegisterWindow
import ScatterGather.Stream

/-!
# ScatterGather.Machine — everything that drivers share

The machine is everything that drivers share: memory, descriptors, controllers, register windows,
the ownership table and the trace. `Machine.answer` says what each access of a driver does to it,
given the channel hardware that the driver is attached to, and `Machine.exec` runs driver code
without anything happening in between. The controllers' own moves are `moveElements`, `finish` and
`runToEvent`.
-/

namespace ScatterGather

/-- What drivers share. -/
structure Machine where
  memory : Memory := {}
  table : DescriptorTable := {}
  controllers : Array Controller := #[]
  windows : Array RegisterWindow := #[]
  ownership : Ownership := {}
  log : Array LogRecord := #[]
  reports : Array Report := #[]

namespace Machine

def controller (m : Machine) (index : Nat) : Controller :=
  m.controllers.getD index {}

def setController (m : Machine) (index : Nat) (c : Controller) : Machine :=
  { m with controllers := m.controllers.setIfInBounds index c }

def window (m : Machine) (index : Nat) : RegisterWindow :=
  m.windows.getD index {}

def setWindow (m : Machine) (index : Nat) (w : RegisterWindow) : Machine :=
  { m with windows := m.windows.setIfInBounds index w }

theorem controller_setController_self (m : Machine) {index : Nat} (h : index < m.controllers.size)
    (c : Controller) : (m.setController index c).controller index = c := by
  simp [controller, setController, Array.getD_eq_getD_getElem?, h]

theorem controller_setController_of_ne (m : Machine) {index other : Nat} (h : index ≠ other)
    (c : Controller) : (m.setController index c).controller other = m.controller other := by
  simp [controller, setController, Array.getD_eq_getD_getElem?, h]

@[simp] theorem size_setController (m : Machine) (index : Nat) (c : Controller) :
    (m.setController index c).controllers.size = m.controllers.size := by
  simp [setController]

def record (m : Machine) (r : LogRecord) : Machine :=
  { m with log := m.log.push r }

def tell (m : Machine) (r : Report) : Machine :=
  { m with reports := m.reports.push r }

/-! ## What a controller does on its own -/

/-- A controller moves elements of the block that it executes. -/
def moveElements (m : Machine) (index count : Nat) : Machine :=
  let (c, memory) := (m.controller index).moveElements m.table m.memory count
  { m with memory }.setController index c

/-- A controller finishes the block that it executes. -/
def finish (m : Machine) (index : Nat) : Option TransferEvent × Machine :=
  let (event, c, memory) := (m.controller index).finish m.table m.memory
  (event, { m with memory }.setController index c)

/-- A controller runs until it raises an event or stops. No chain that ends is longer than the
descriptors that there are, and one more read outside the table. Nothing is given for a loop that
raises no event, in which the controller would go around forever. -/
def runToEvent (m : Machine) (index : Nat) : Option (Option TransferEvent × Machine) :=
  ((m.controller index).runToEvent m.table (m.table.cells.size + 1) m.memory).map
    fun (event, c, memory) => (event, { m with memory }.setController index c)

/-- A controller finishes so many blocks, and its events are lost. -/
def finishMany (m : Machine) (index blocks : Nat) : Machine :=
  let (c, memory) := Controller.finishMany m.table blocks (m.controller index) m.memory
  { m with memory }.setController index c

/-- A controller runs until it raises an event or stops. In a loop that raises no event it is left
after so many blocks. -/
def runWithin (m : Machine) (index patience : Nat) : Option TransferEvent × Machine :=
  (m.runToEvent index).getD (none, m.finishMany index patience)

/-! ## What a driver's accesses do -/

/-- Claims a channel, and puts a refusal on record. -/
def bind (m : Machine) (channel : Nat) (owner : OwnerId) : Except Error Unit × Machine :=
  let (result, ownership) := m.ownership.bind channel owner
  let m := { m with ownership }
  (result, if result matches .error (.dma _) then m.record (.alreadyBound channel) else m)

def start (m : Machine) (hw : Hardware) (head : Nat) (priority : Priority) : Machine :=
  match hw with
  | .controller index => m.setController index ((m.controller index).start m.table head priority)
  | .window index => m.setWindow index ((m.window index).start head priority)

def halt (m : Machine) (hw : Hardware) : Machine :=
  match hw with
  | .controller index => m.setController index ((m.controller index).halt m.table)
  | .window index => m.setWindow index (m.window index).halt

def pause (m : Machine) (hw : Hardware) : Machine :=
  match hw with
  | .controller index => m.setController index (m.controller index).pause
  | .window index => m.setWindow index (m.window index).pause

def resume (m : Machine) (hw : Hardware) : Machine :=
  match hw with
  | .controller index => m.setController index (m.controller index).resume
  | .window index => m.setWindow index (m.window index).resume

def isActive (m : Machine) (hw : Hardware) : Bool :=
  match hw with
  | .controller index => (m.controller index).isRunning
  | .window index => (m.window index).isActive

/-- Reads the pointer to the next descriptor. -/
def readNext (m : Machine) (hw : Hardware) : Nat × Machine :=
  match hw with
  | .controller index =>
    let (next, c) := (m.controller index).readNext m.table
    (next, m.setController index c)
  | .window index => ((m.window index).next.toNat, m)

/-- Reads the count of elements left. -/
def readCount (m : Machine) (hw : Hardware) : Nat × Machine :=
  match hw with
  | .controller index =>
    let (count, c, memory) := (m.controller index).readCount m.table m.memory
    (count, { m with memory }.setController index c)
  | .window index => ((m.window index).count.toNat, m)

/-- Polls whether data waits in the FIFO. -/
def poll (m : Machine) (hw : Hardware) : Bool × Machine :=
  match hw with
  | .controller index =>
    let (pending, c) := (m.controller index).poll
    (pending, m.setController index c)
  | .window index => ((m.window index).isPending, m)

/-- Answers one access of a driver that is on a channel's hardware. -/
def answer (hw : Hardware) : (a : Access) → Machine → a.Answer × Machine
  | .start head priority, m => ((), m.start hw head priority)
  | .halt, m => ((), m.halt hw)
  | .isActive, m => (m.isActive hw, m)
  | .nextPointer, m => m.readNext hw
  | .transferCount, m => m.readCount hw
  | .pause, m => ((), m.pause hw)
  | .resume, m => ((), m.resume hw)
  | .isPending, m => m.poll hw
  | .bind channel owner, m => m.bind channel owner
  | .release channel owner, m => ((), { m with ownership := (m.ownership.release channel owner).2 })
  | .fetch address, m => (m.table.read address, m)
  | .store address write, m => ((), { m with table := m.table.write address write })
  | .load address length, m => (m.memory.readList address length, m)
  | .save address data, m => ((), { m with memory := m.memory.writeList address data })
  | .log r, m => ((), m.record r)
  | .report r, m => ((), m.tell r)

/-- Runs driver code on a channel's hardware, with nothing happening in between. -/
def exec {α : Type} (m : Machine) (hw : Hardware) (script : DriverScript α) : α × Machine :=
  script.run (answer hw) m

/-- Code that goes on after other code starts from the machine that it left. -/
theorem exec_bind {α β : Type} (m : Machine) (hw : Hardware) (x : DriverScript α)
    (f : α → DriverScript β) :
    m.exec hw (x.bind f) = (m.exec hw x).2.exec hw (f (m.exec hw x).1) :=
  Script.run_bind (answer hw) x f m

end Machine

end ScatterGather
