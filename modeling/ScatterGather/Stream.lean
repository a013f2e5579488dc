import ScatterGather.Pool

/-!
# ScatterGather.Stream — an unbounded transfer over a small pool

A stream feeds a pool of descriptors to one channel. Blocks are appended at the tail, also while the
channel runs; what the controller has moved past is retired at the head, so a small pool carries an
unbounded transfer.

* In one-shot mode the last block ends the chain. A block linked behind it may come too late, when
  the controller has already read the empty link: such a block is *stalled*, and the chain is
  restarted at the head when the controller reports its stop.
* In circular mode the last block leads back to the first, and nothing is ever retired.

A stream owns its channel only from `enable` until the chain ends, fails, or is given up; the flag
`bound` says whether it does. Where the controller stands is never stored. It is worked out from the
pointer to the next descriptor each time it matters (`executingOffset`), and one event may stand for
several completions.
-/

namespace ScatterGather

/-- Polls for an empty FIFO before a paused channel is resumed regardless. -/
def drainSpinLimit : Nat := 10000

/-- The channel hardware that a stream drives. -/
inductive Hardware where
  | controller (index : Nat)
  | window (index : Nat)
  deriving DecidableEq

/-- A channel: its number in the ownership table, and the hardware behind it. -/
structure Channel where
  number : Nat
  hardware : Hardware
  deriving DecidableEq

/-- Who is told of the status after an event. -/
inductive Callback where
  | ignore
  | report (label : Nat)
  deriving DecidableEq

/-- A transfer stream over one channel. -/
structure Stream where
  channel : Channel
  owner : OwnerId
  pool : Pool
  config : StreamConfig
  /-- The control bits that every appended block gets. -/
  template : UInt32
  state : StreamState := .idle
  /-- Whether the stream holds its channel. -/
  bound : Bool := false
  /-- The first slot that was linked too late for the controller to follow. -/
  stalled : Option Nat := none
  callback : Option Callback := none
  deriving DecidableEq

namespace Stream

/-- Whether a stream on a channel may be made at all. -/
def admissible (channel : Channel) (config : StreamConfig) : Except ConfigError Unit :=
  if maxChannels ≤ channel.number then .error .invalidChannel
  else config.settings.validate fifoSize

/-- A stream with nothing queued. -/
def idle (channel : Channel) (owner : OwnerId) (base capacity : Nat) (config : StreamConfig) :
    Stream where
  channel := channel
  owner := owner
  pool := { base, capacity }
  config := config
  template := config.settings.controlTemplate

def status (s : Stream) : Status :=
  s.state.status

def isCircular (s : Stream) : Bool :=
  s.config.mode = .circular

/-! ## Completion interrupts -/

/-- Whether the completion of a block is to raise an event. A silent stream arms the last block
only, a circular one only for a callback. -/
def wantsInterrupt (s : Stream) (isLast : Bool) : Bool :=
  if s.config.silent then isLast
  else match s.config.mode with
    | .oneShot => true
    | .circular => s.callback.isSome

/-- Arms or disarms every queued block. -/
def applyInterrupts (s : Stream) : DriverScript Unit :=
  Script.forEach
    (fun offset =>
      setInterrupt (s.pool.addressAt offset) (s.wantsInterrupt (offset + 1 = s.pool.queued)))
    0 s.pool.queued

/-- Replaces the settings of the blocks to come. Blocks already queued keep theirs. -/
def configure (s : Stream) (settings : TransferSettings) : Except ConfigError Unit × Stream :=
  if s.bound then (.error .streamActive, s)
  else match settings.validate fifoSize with
    | .error e => (.error e, s)
    | .ok () =>
      (.ok (),
        { s with config := { s.config with settings }, template := settings.controlTemplate })

/-- Installs or removes the callback. The blocks of a running one-shot chain stay armed as they
are. -/
def setCallback (s : Stream) (callback : Option Callback) : DriverScript Stream := do
  let s := { s with callback }
  Script.when (!s.bound || s.isCircular) s.applyInterrupts
  pure s

/-! ## Where the controller stands -/

/-- The offset up to which the controller can get without a restart. -/
def reachable (s : Stream) : Nat :=
  match s.stalled with
  | none => s.pool.queued
  | some slot => min (s.pool.offsetOf slot) s.pool.queued

/-- The slot whose block leads to a slot. -/
def predecessor (s : Stream) (slot : Nat) : Nat :=
  match s.config.mode with
  | .oneShot => (slot + s.pool.capacity - 1) % s.pool.capacity
  | .circular => if slot = 0 then s.pool.queued - 1 else slot - 1

/-- The offset of the block that the controller executes, or of the first that it cannot reach once
it has stopped. -/
def executingOffset (s : Stream) : DriverScript Nat :=
  if s.pool.queued = 0 then pure 0
  else do
    let next ← perform .nextPointer
    match s.pool.slotOf next with
    | some slot => pure (min (s.pool.offsetOf (s.predecessor slot)) (s.reachable - 1))
    | none => do
      let active ← perform .isActive
      pure (if active then s.reachable - 1 else s.reachable)

/-- Blocks that the controller has not moved past. -/
def queued (s : Stream) : DriverScript Nat :=
  if s.bound then do
    let offset ← s.executingOffset
    pure (s.pool.queued - offset)
  else pure s.pool.queued

/-- Bytes left in the block that the controller executes. The count of elements is believed only if
the pointer to the next descriptor is that block's link before and after the count is read. -/
def residue (s : Stream) : DriverScript (Except DmaError Nat) :=
  if !s.bound then pure (.ok 0)
  else do
    let offset ← s.executingOffset
    if s.pool.queued ≤ offset then pure (.ok 0)
    else do
      let current ← perform (.fetch (s.pool.addressAt offset))
      let before ← perform .nextPointer
      if before ≠ current.next then pure (.error .residueUnstable)
      else do
        let count ← perform .transferCount
        let after ← perform .nextPointer
        if after ≠ current.next then pure (.error .residueUnstable)
        else pure (.ok (count * current.elementBytes))

/-! ## Queueing blocks -/

/-- Checks a block against the settings in force. Gives its count of elements. -/
def checkBlock (s : Stream) (destination source size : Nat) : Except DmaError Nat :=
  let width := s.config.settings.width.bytes
  if size = 0 ∨ size % width ≠ 0 then .error .invalidLength
  else if destination % width ≠ 0 ∨ source % width ≠ 0 then .error .misaligned
  else if maxTransfer < size / width then .error .transferTooLarge
  else .ok (size / width)

/-- Forgets a chain that ended, failed or was given up. -/
def discardFinished (s : Stream) : Stream :=
  if !s.bound && s.state.isFinal then { s with pool := s.pool.reset, stalled := none }
  else s

/-- The control word of a block of so many elements at the tail. -/
def controlWord (s : Stream) (elements : Nat) : UInt32 :=
  s.template ||| Control.encodeCount (UInt32.ofNat elements) |||
    (if s.wantsInterrupt true then Control.interruptOnComplete else 0)

/-- Whether a block that has just been linked came too late: the controller has stopped, or has
already read an empty link. -/
def linkedTooLate (s : Stream) : DriverScript Bool :=
  if s.bound && !s.isCircular && s.stalled.isNone then do
    let active ← perform .isActive
    if active then do
      let next ← perform .nextPointer
      pure (next = 0)
    else pure true
  else pure false

/-- Queues one block of `size` bytes. A block that cannot be taken changes nothing. -/
def append (s : Stream) (destination source size : Nat) :
    DriverScript (Except DmaError Unit × Stream) :=
  match s.checkBlock destination source size with
  | .error e => pure (.error e, s)
  | .ok elements => do
    let s := s.discardFinished
    let slot := s.pool.tail
    let pushed ← s.pool.push source destination (s.controlWord elements) s.isCircular
    match pushed with
    | none => pure (.error .poolFull, s)
    | some pool => do
      let late ← s.linkedTooLate
      -- a running one-shot chain keeps its old tail armed, to learn whether the controller followed
      -- the new link
      Script.when (s.pool.queued ≠ 0 && s.config.silent && (!s.bound || s.isCircular))
        (setInterrupt (s.pool.addressAt (s.pool.queued - 1)) false)
      pure (.ok (),
        { s with
          pool
          stalled := if late then some slot else s.stalled
          state := if s.bound then s.state else .ready })

/-! ## Running the channel -/

/-- Stops the channel and gives it back. -/
def releaseChannel (s : Stream) : DriverScript Stream := do
  perform .halt
  perform (.release s.channel.number s.owner)
  pure { s with bound := false, stalled := none }

/-- Sets the controller to the head of the chain. -/
def startAtHead (s : Stream) : DriverScript Unit :=
  perform (.start (s.pool.addressAt 0) s.config.settings.priority)

/-- Claims the channel and starts the chain at its head. A channel that another owner holds leaves
the stream in the error state. -/
def enable (s : Stream) : DriverScript (Except Error Unit × Stream) :=
  if s.bound || s.pool.isEmpty then pure (.error (.io .invalidState), s)
  else do
    let granted ← perform (.bind s.channel.number s.owner)
    match granted with
    | .error e => pure (.error e, { s with state := .error })
    | .ok () => do
      let s := { s with bound := true, stalled := none }
      s.pool.relink s.isCircular
      s.applyInterrupts
      perform (.log (.enabled s.channel.number s.pool.queued))
      s.startAtHead
      pure (.ok (), { s with state := .busy })

/-- Stops a running channel and gives it back. Blocks that were not executed stay queued until the
next append. -/
def disable (s : Stream) : DriverScript Stream :=
  if !s.bound then pure s
  else do
    let s ← s.releaseChannel
    perform (.log (.disabled s.channel.number))
    pure { s with state := if s.state = .busy ∨ s.state = .timeout then .done else s.state }

/-- Gives up the channel if it is held. -/
def releaseIfBound (s : Stream) : DriverScript Stream :=
  if s.bound then s.releaseChannel else pure s

/-- Gives up the channel and forgets every block. -/
def clear (s : Stream) : DriverScript Stream := do
  let s ← s.releaseIfBound
  pure { s with pool := s.pool.reset, state := .idle }

/-! ## Events -/

/-- Forgets the blocks that the controller has moved past. Circular chains keep theirs. -/
def retirePassed (s : Stream) : DriverScript Stream :=
  if s.isCircular then pure s
  else do
    let passed ← s.executingOffset
    pure { s with pool := s.pool.retire passed }

/-- Waits for an empty FIFO, for at most `spins` more polls beyond this one. Says whether it
emptied. -/
def awaitDrained : (spins : Nat) → DriverScript Bool
  | 0 => do
    let pending ← perform .isPending
    pure !pending
  | spins + 1 => do
    let pending ← perform .isPending
    if pending then awaitDrained spins else pure true

/-- Pauses the channel until its FIFO is empty, or until patience runs out, and lets it go on. -/
def drainAndResume (s : Stream) : DriverScript Unit := do
  perform .pause
  let drained ← awaitDrained drainSpinLimit
  Script.when (!drained) (perform (.log (.notDrained s.channel.number)))
  perform .resume

/-- A completion. A one-shot chain that still holds blocks was linked too late and starts again at
its head; otherwise the channel is given back. -/
def onComplete (s : Stream) : DriverScript Stream := do
  let s ← s.retirePassed
  if !s.isCircular && !s.pool.isEmpty then do
    perform (.log (.underrun s.channel.number s.pool.queued))
    s.startAtHead
    pure { s with stalled := none, state := .busy }
  else do
    let s ← s.releaseChannel
    pure { s with state := .done }

/-- A request timeout. It ends the transfer or lets it go on, as the configuration says. -/
def onTimeout (s : Stream) : DriverScript Stream := do
  perform (.log (.requestTimeout s.channel.number))
  match s.config.timeoutPolicy with
  | .abort => do
    let s ← s.releaseChannel
    pure { s with state := .timeout }
  | .restart => do
    s.drainAndResume
    pure { s with state := .timeout }

/-- What an event does to a stream that holds its channel. -/
def react (s : Stream) : TransferEvent → DriverScript Stream
  | .progress => do
    let s ← s.retirePassed
    pure { s with state := .busy }
  | .complete => s.onComplete
  | .busError => do
    perform (.log (.busError s.channel.number))
    let s ← s.releaseChannel
    pure { s with state := .error }
  | .timeout => s.onTimeout

/-- Tells the callback of the status. -/
def notify (s : Stream) : DriverScript Unit :=
  match s.callback with
  | some (.report label) => perform (.report (.status label s.status))
  | some .ignore | none => pure ()

/-- Handles one event of the channel, and gives the status that follows. A stream that does not hold
its channel takes no notice. -/
def onInterrupt (s : Stream) (event : TransferEvent) : DriverScript (Option Status × Stream) :=
  if !s.bound then pure (none, s)
  else do
    let s ← s.react event
    s.notify
    pure (some s.status, s)

def text (s : Stream) : String :=
  Text.partialRecord "DescriptorStream"
    [("channel", toString s.channel.number), ("capacity", toString s.pool.capacity),
      ("head", toString s.pool.head), ("queued", toString s.pool.queued), ("state", s.state.name),
      ("bound", Text.bool s.bound)]

end Stream

end ScatterGather
