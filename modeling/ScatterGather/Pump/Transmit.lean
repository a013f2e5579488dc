import ScatterGather.Ring
import ScatterGather.Stream

/-!
# ScatterGather.Pump.Transmit — from a byte queue to a register

A transmit pump sends a byte queue to one register. The bytes of the queue are kept in main memory,
where the controller reads them: each transfer covers the longest contiguous run at the front, and
its bytes leave the queue only once the transfer is over. A bus error keeps them, so they are sent
again; a start that fails keeps them for the next write.
-/

namespace ScatterGather

/-- A pump from a queue of bytes to a register. -/
structure TransmitPump where
  stream : Stream
  ring : Ring
  /-- The address of the queue's first cell. -/
  storage : Nat
  /-- The address of the register. -/
  target : Nat
  /-- Bytes handed to the controller and not yet released. -/
  inFlight : Nat := 0
  /-- Why the last transfer could not be started. -/
  error : Option Error := none
  /-- Who is told when the last queued byte has been sent. -/
  callback : Option Nat := none

namespace TransmitPump

/-- A stream that sends bytes to a register. -/
def config : StreamConfig :=
  { settings := .memoryToPeripheral .byte }

def isIdle (p : TransmitPump) : Bool :=
  p.inFlight = 0

/-- Tries to start a transfer over the run of bytes at the front of the queue. -/
def startRun (p : TransmitPump) : DriverScript (Except Error Unit × TransmitPump) := do
  let run := p.ring.popRun 0
  let length := min run.length maxTransfer
  let (appended, stream) ← p.stream.append p.target (p.storage + run.start) length
  let p := { p with stream }
  match appended with
  | .error e => pure (.error (.dma e), p)
  | .ok () => do
    let (enabled, stream) ← p.stream.enable
    let p := { p with stream }
    match enabled with
    | .error e => pure (.error e, p)
    | .ok () => pure (.ok (), { p with inFlight := length })

/-- Starts the next transfer. A failed start leaves the bytes queued and its cause on record. -/
def kick (p : TransmitPump) : DriverScript TransmitPump := do
  let (started, p) ← p.startRun
  match started with
  | .ok () => pure { p with error := none }
  | .error e => do
    perform (.log (.notStarted p.stream.channel.number e))
    pure { p with error := some e }

/-- Queues as much of `data` as fits and starts sending. Gives the number of bytes queued. -/
def write (p : TransmitPump) (data : List UInt8) : DriverScript (Nat × TransmitPump) := do
  let save (start : Nat) (chunk : List UInt8) : DriverScript Unit :=
    perform (.save (p.storage + start) chunk)
  let (count, ring) ← p.ring.fill save data
  let p := { p with ring }
  if p.isIdle && !p.ring.isEmpty then do
    let p ← p.kick
    pure (count, p)
  else pure (count, p)

/-- Tells the callback that the queue is empty. -/
def notify (p : TransmitPump) : DriverScript Unit :=
  match p.callback with
  | some label => perform (.report (.pump label))
  | none => pure ()

/-- Handles one event of the channel. When the transfer is over its bytes are released, unless they
were not sent, and the next transfer is started. -/
def onInterrupt (p : TransmitPump) (event : TransferEvent) :
    DriverScript (Option Status × TransmitPump) := do
  let (result, stream) ← p.stream.onInterrupt event
  let p := { p with stream }
  match result with
  | none => pure (none, p)
  | some status =>
    if p.stream.bound then pure (some status, p)
    else do
      let ring := if status = .error then p.ring else p.ring.abandon p.inFlight
      let p := { p with ring, inFlight := 0 }
      if p.ring.isEmpty then do
        p.notify
        pure (some status, p)
      else do
        let p ← p.kick
        pure (some status, p)

end TransmitPump

end ScatterGather
