import ScatterGather.ByteQueue
import ScatterGather.Stream

/-!
# ScatterGather.Pump.Receive — from a register to a byte queue

A receive pump reads one register into a staging area of two halves that form a circular chain, and
moves what has arrived into a byte queue: a whole half when the controller has gone on to the other,
and part of one when the line falls idle. `position` is the place in the staging area of the first
byte not yet moved.
-/

namespace ScatterGather

/-- A pump from a register to a queue of bytes. -/
structure ReceivePump where
  stream : Stream
  queue : ByteQueue
  /-- Bytes in one half of the staging area. -/
  half : Nat
  /-- The address of the staging area. -/
  staging : Nat
  /-- The address of the register. -/
  source : Nat
  position : Nat := 0
  /-- Who is told when bytes have been moved into the queue. -/
  callback : Option Nat := none

namespace ReceivePump

/-- A circular stream that reads bytes from a register. -/
def config : StreamConfig :=
  .circular (.peripheralToMemory .byte)

/-- Whether a half of so many bytes can be one block. -/
def admissible (half : Nat) : Except ConfigError Unit :=
  if half = 0 ∨ maxTransfer < half then .error .invalidCapacity else .ok ()

theorem bounds_of_admissible {half : Nat} (h : admissible half = .ok ()) :
    0 < half ∧ half ≤ maxTransfer := by
  unfold admissible at h
  split at h
  · cases h
  · omega

/-- Queues both halves and starts receiving. -/
def start (p : ReceivePump) : DriverScript (Except Error Unit × ReceivePump) := do
  let stream ← p.stream.clear
  let (first, stream) ← stream.append p.staging p.source p.half
  let p := { p with stream, position := 0 }
  match first with
  | .error e => pure (.error (.dma e), p)
  | .ok () => do
    let (second, stream) ← p.stream.append (p.staging + p.half) p.source p.half
    let p := { p with stream }
    match second with
    | .error e => pure (.error (.dma e), p)
    | .ok () => do
      let (enabled, stream) ← p.stream.enable
      pure (enabled, { p with stream })

/-- Stops receiving. What has arrived in an unfinished half is lost. -/
def stop (p : ReceivePump) : DriverScript ReceivePump := do
  let stream ← p.stream.disable
  pure { p with stream }

/-- The half that the controller is filling. -/
def executingHalf (p : ReceivePump) : DriverScript Nat := do
  let queued ← p.stream.queued
  pure (if queued = 2 then 0 else 1)

/-- Tells the callback that bytes have arrived. -/
def notify (p : ReceivePump) : DriverScript Unit :=
  match p.callback with
  | some label => perform (.report (.pump label))
  | none => pure ()

/-- Moves staged bytes up to a place into the queue. Gives the number that it took. -/
def pushStaged (p : ReceivePump) (upTo : Nat) : DriverScript (Nat × ReceivePump) :=
  if upTo ≤ p.position then pure (0, p)
  else do
    let data ← perform (.load (p.staging + p.position) (upTo - p.position))
    let (count, queue) := p.queue.pushArray data
    let p := { p with queue }
    Script.when (count ≠ 0) p.notify
    pure (count, p)

/-- Handles one event of the channel. After a completion the rest of the finished half is moved. -/
def onInterrupt (p : ReceivePump) (event : TransferEvent) :
    DriverScript (Option Status × ReceivePump) := do
  let (result, stream) ← p.stream.onInterrupt event
  let p := { p with stream }
  match result with
  | none => pure (none, p)
  | some status =>
    if event = .progress then do
      let half ← p.executingHalf
      let upTo := if half = 1 then p.half else 2 * p.half
      let (_, p) ← p.pushStaged upTo
      pure (some status, { p with position := upTo % (2 * p.half) })
    else pure (some status, p)

/-- Moves what has arrived in the half being filled, on an idle line. Nothing is moved while a
completion is still to be handled. Gives the number of bytes moved. -/
def onIdle (p : ReceivePump) : DriverScript (Except DmaError Nat × ReceivePump) :=
  if !p.stream.bound then pure (.ok 0, p)
  else do
    let half ← p.executingHalf
    let residue ← p.stream.residue
    match residue with
    | .error e => pure (.error e, p)
    | .ok residue => do
      let again ← p.executingHalf
      if again ≠ half ∨ p.position / p.half ≠ half then pure (.ok 0, p)
      else do
        let upTo := (half + 1) * p.half - min residue p.half
        let (count, p) ← p.pushStaged upTo
        pure (.ok count, { p with position := max p.position upTo })

/-- Takes received bytes into the front of a buffer. -/
def read (p : ReceivePump) (buffer : List UInt8) : Nat × List UInt8 × ReceivePump :=
  let (count, buffer, queue) := p.queue.popArray buffer
  (count, buffer, { p with queue })

end ReceivePump

end ScatterGather
