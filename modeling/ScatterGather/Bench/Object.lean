import ScatterGather.Bench.Command

/-!
# ScatterGather.Bench.Object — streams, pumps and slots side by side

Four kinds of object live on a bench: streams, the two pumps, and slots. Each command to a stream or
a pump is driver code (`StreamCommand.script` and its fellows); the bench has only to run it on the
machine.
-/

namespace ScatterGather.Bench

/-- An object of a bench. A stream's label is the one its next callback reports under. A slot is
shared with interrupt handlers and kept elsewhere; its object has the controller of the stream that
was last in it. -/
inductive Object where
  | stream (stream : Stream) (label : Nat)
  | transmit (pump : TransmitPump)
  | receive (pump : ReceivePump)
  | slot (controller : Nat)

namespace Object

/-- The hardware that an object drives. -/
def hardware : Object → Hardware
  | stream s _ => s.channel.hardware
  | transmit p => p.stream.channel.hardware
  | receive p => p.stream.channel.hardware
  | slot controller => .controller controller

/-- The stream that an object owns, if any. -/
def ownStream? : Object → Option Stream
  | stream s _ => some s
  | transmit p => some p.stream
  | receive p => some p.stream
  | slot _ => none

def isSlot : Object → Bool
  | slot _ => true
  | stream _ _ | transmit _ | receive _ => false

end Object

/-- The callback that reports under a label, if it is on. -/
def callbackFor (label : Nat) (on : Bool) : Option Nat :=
  if on then some label else none

/-- A command to a stream, as driver code. -/
def StreamCommand.script (s : Stream) (label : Nat) :
    StreamCommand → DriverScript (Reply × Stream)
  | append destination source size => do
    let (result, s) ← s.append destination source size
    pure (.dma result, s)
  | enable => do
    let (result, s) ← s.enable
    pure (.result result, s)
  | disable => do
    let s ← s.disable
    pure (.done, s)
  | clear => do
    let s ← s.clear
    pure (.done, s)
  | configure settings =>
    let (result, s) := s.configure settings
    pure (.config result, s)
  | callback on => do
    let s ← s.setCallback ((callbackFor label on).map .report)
    pure (.done, s)
  | interrupt event => do
    let (status, s) ← s.onInterrupt event
    pure (.status? status, s)
  | residue => do
    let result ← s.residue
    pure (.count result, s)
  | queued => do
    let n ← s.queued
    pure (.number n, s)
  | info => pure (.info s, s)
  | text => pure (.text s.text, s)

/-- A command to a transmit pump, as driver code. -/
def TransmitCommand.script (p : TransmitPump) (label : Nat) :
    TransmitCommand → DriverScript (Reply × TransmitPump)
  | write data => do
    let (count, p) ← p.write data
    pure (.number count, p)
  | interrupt event => do
    let (status, p) ← p.onInterrupt event
    pure (.status? status, p)
  | callback on => pure (.done, { p with callback := callbackFor label on })
  | peek offset => do
    let run := p.ring.popRun offset
    let data ← perform (.load (p.storage + run.start) run.length)
    pure (.bytes data, p)
  | residue => do
    let result ← p.stream.residue
    pure (.count result, p)
  | info => pure (.info p.stream, p)

/-- A command to a receive pump, as driver code. -/
def ReceiveCommand.script (p : ReceivePump) (label : Nat) :
    ReceiveCommand → DriverScript (Reply × ReceivePump)
  | start => do
    let (result, p) ← p.start
    pure (.result result, p)
  | stop => do
    let p ← p.stop
    pure (.done, p)
  | idle => do
    let (result, p) ← p.onIdle
    pure (.count result, p)
  | read buffer =>
    let (count, buffer, p) := p.read buffer
    pure (.filled count buffer, p)
  | interrupt event => do
    let (status, p) ← p.onInterrupt event
    pure (.status? status, p)
  | callback on => pure (.done, { p with callback := callbackFor label on })
  | peek offset => pure (.bytes (p.queue.runBytes (p.queue.ring.popRun offset)), p)
  | residue => do
    let result ← p.stream.residue
    pure (.count result, p)
  | info => pure (.info p.stream, p)

/-- What a tampered or moved controller does. -/
def ControllerCommand.apply (m : Machine) (index : Nat) : ControllerCommand → Reply × Machine
  | moveElements count => (.done, m.moveElements index count)
  | finish =>
    let (event, m) := m.finish index
    (.event? event, m)
  | run patience =>
    let (event, m) := m.runWithin index patience
    (.event? event, m)
  | pendingPolls count =>
    (.done, m.setController index { m.controller index with pendingPolls := count })
  | unstable on =>
    (.done, m.setController index { m.controller index with unstable := on })
  | race blocks =>
    (.done, m.setController index { m.controller index with race := blocks })
  | countOverride value =>
    (.done, m.setController index { m.controller index with countOverride := value })

end ScatterGather.Bench
