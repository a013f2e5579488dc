import ScatterGather.Bench

/-!
# ScatterGather.Bench.View — what is seen of an object between commands

A tester looks at an object after every command. A view of a stream asks it for its queue once,
which counts as a reading of the controller; everything else is looked at without being touched.
Links and positions are shown as slots of the pool that they belong to.
-/

namespace ScatterGather.Bench

/-- Where a link leads. -/
inductive LinkView where
  | none
  | slot (slot : Nat)
  | elsewhere
  deriving DecidableEq

/-- A link as seen from a pool. -/
def LinkView.ofAddress (p : Pool) (address : Nat) : LinkView :=
  if address = 0 then .none
  else match p.slotOf address with
    | some index => .slot index
    | Option.none => .elsewhere

/-- A queued block. Sources and destinations count from given addresses. Links of a chain that does
not run may be out of date and are not shown. -/
structure BlockView where
  slot : Nat
  source : Nat
  destination : Nat
  control : UInt32
  next : Option LinkView

structure StreamView where
  state : StreamState
  bound : Bool
  head : Nat
  pooled : Nat
  queued : Nat
  chain : List BlockView

/-- Where a controller is. Without a pool to compare with, it can only be seen to run. -/
inductive PositionView where
  | at (link : LinkView)
  | running (on : Bool)

structure ControllerView where
  position : PositionView
  controller : Controller

inductive HardwareView where
  | controller (view : ControllerView)
  | window (next : LinkView) (window : RegisterWindow)

inductive ObjectView where
  | stream (stream : StreamView) (hw : HardwareView)
  | transmit (pump : TransmitPump) (stream : StreamView) (hw : HardwareView)
  | receive (pump : ReceivePump) (stream : StreamView) (hw : HardwareView)
  | slot (wakes : Array Nat) (stream : Option StreamView) (hw : HardwareView)

/-- The queued blocks of a stream, from the head on. -/
def chainView (m : Machine) (s : Stream) (sourceBase destinationBase : Nat) : List BlockView :=
  s.pool.queuedSlots.map fun slot =>
    let d := m.table.read (s.pool.addressOf slot)
    { slot
      source := d.source - sourceBase
      destination := d.destination - destinationBase
      control := d.control
      next := if s.bound then some (.ofAddress s.pool d.next) else none }

/-- Looks at a stream, which is asked for its queue. -/
def viewStream (b : Bench) (s : Stream) (sourceBase destinationBase : Nat) : StreamView × Bench :=
  let (queued, b) := b.exec s.channel.hardware s.queued
  ({ state := s.state
     bound := s.bound
     head := s.pool.head
     pooled := s.pool.queued
     queued
     chain := chainView b.machine s sourceBase destinationBase }, b)

/-- Looks at the hardware of a channel, as seen from a pool if there is one. -/
def viewHardware (m : Machine) (hw : Hardware) (pool : Option Pool) : HardwareView :=
  match hw with
  | .controller index =>
    let c := m.controller index
    let position := match pool with
      | some p => .at (.ofAddress p c.current)
      | none => .running c.isRunning
    .controller { position, controller := c }
  | .window index =>
    let w := m.window index
    .window (pool.elim .elsewhere fun p => .ofAddress p w.next.toNat) w

/-- Looks at the object at a place, if there is one. -/
def view (b : Bench) (i : Nat) : Option ObjectView × Bench :=
  match b.object? i with
  | none => (none, b)
  | some o =>
    let hw (b : Bench) : HardwareView :=
      viewHardware b.machine o.hardware ((b.stream? i).map Stream.pool)
    match o with
    | .stream s _ =>
      let (v, b) := b.viewStream s 0 0
      (some (.stream v (hw b)), b)
    | .transmit p =>
      let (v, b) := b.viewStream p.stream p.storage 0
      (some (.transmit p v (hw b)), b)
    | .receive p =>
      let (v, b) := b.viewStream p.stream 0 p.staging
      (some (.receive p v (hw b)), b)
    | .slot _ =>
      let wakes := (b.slot? i).elim #[] Slot.wakes
      match b.stream? i with
      | none => (some (.slot wakes none (hw b)), b)
      | some stream =>
        let (v, b) := b.viewStream stream 0 0
        (some (.slot wakes (some v) (hw b)), b)

end ScatterGather.Bench
