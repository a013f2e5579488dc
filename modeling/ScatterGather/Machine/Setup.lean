import ScatterGather.Machine
import ScatterGather.Pump.Receive
import ScatterGather.Pump.Transmit

/-!
# ScatterGather.Machine.Setup — making and moving drivers

A driver takes something of the machine when it is made: an owner identity, descriptors, and for a
pump the memory that its controller is to reach. Nothing is taken when the making fails. A stream
can be moved to other descriptors while its channel does not run.
-/

namespace ScatterGather.Machine

/-- Makes a stream with room for `capacity` blocks. It takes the next owner identity, and fresh
descriptors. -/
def createStream (m : Machine) (channel : Channel) (capacity : Nat) (config : StreamConfig) :
    Except ConfigError Stream × Machine :=
  match Stream.admissible channel config with
  | .error e => (.error e, m)
  | .ok () =>
    let (owner, ownership) := m.ownership.allocate
    let (base, table) := m.table.allocate capacity
    (.ok (.idle channel owner base capacity config), { m with ownership, table })

/-- Moves a stream to fresh descriptors. Their contents are copied as they are, so links keep
leading to the old ones until they are written anew. -/
def relocate (m : Machine) (s : Stream) : Stream × Machine :=
  let (base, table) := m.table.allocate s.pool.capacity
  ({ s with pool := { s.pool with base } },
    { m with table := table.copyRow s.pool.base base s.pool.capacity })

/-- Makes a transmit pump that sends to a register, over a queue of the requested capacity. -/
def createTransmitPump (m : Machine) (channel : Channel) (target requested : Nat) :
    Except ConfigError TransmitPump × Machine :=
  match Ring.resolveCapacity requested with
  | .error e => (.error e, m)
  | .ok capacity =>
    match m.createStream channel 1 TransmitPump.config with
    | (.error e, m) => (.error e, m)
    | (.ok stream, m) =>
      let (storage, memory) := m.memory.allocate capacity
      (.ok { stream, ring := { capacity }, storage, target }, { m with memory })

/-- Makes a receive pump that reads from a register, with halves of so many bytes, into a queue of
the requested capacity. Both halves are to raise an event, so the chain gets a callback that does
nothing. -/
def createReceivePump (m : Machine) (channel : Channel) (half source requested : Nat) :
    Except ConfigError ReceivePump × Machine :=
  match ByteQueue.allocate requested with
  | .error e => (.error e, m)
  | .ok queue =>
    match ReceivePump.admissible half with
    | .error e => (.error e, m)
    | .ok () =>
      match m.createStream channel 2 ReceivePump.config with
      | (.error e, m) => (.error e, m)
      | (.ok stream, m) =>
        let (staging, memory) := m.memory.allocate (2 * half)
        (.ok { stream := { stream with callback := some .ignore }, queue, half, staging, source },
          { m with memory })

end ScatterGather.Machine
