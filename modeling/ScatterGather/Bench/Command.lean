import ScatterGather.Machine.Setup
import ScatterGather.Slot

/-!
# ScatterGather.Bench.Command — what a bench can be asked, and what it replies

Every command is one call of the public interface, one move of a controller, or one manipulation by
the tester. Commands are sorted by the kind of object that they are meant for; a command names its
object by the place where it was made.
-/

namespace ScatterGather.Bench

/-- Moves of a controller, and ways to tamper with it. -/
inductive ControllerCommand where
  | moveElements (count : Nat)
  | finish
  /-- Runs the controller to its next event, or until it stops. The tester has the patience for so
  many blocks of a loop that raises none. -/
  | run (patience : Nat)
  | pendingPolls (count : Nat)
  | unstable (on : Bool)
  | race (blocks : Nat)
  | countOverride (value : Option Nat)

inductive StreamCommand where
  | append (destination source size : Nat)
  | enable
  | disable
  | clear
  | configure (settings : TransferSettings)
  | callback (on : Bool)
  | interrupt (event : TransferEvent)
  | residue
  | queued
  | info
  | text

/-- Writes to a register window from outside, and its interrupt handler. -/
inductive WindowCommand where
  | write (register : Register) (value : UInt32)
  /-- Writes the address of a byte of a slot, which need not lie in the pool. -/
  | writeSlot (register : Register) (slot byte : Int)
  | service

inductive TransmitCommand where
  | write (data : List UInt8)
  | interrupt (event : TransferEvent)
  | callback (on : Bool)
  | peek (offset : Nat)
  | residue
  | info

inductive ReceiveCommand where
  | start
  | stop
  | idle
  | read (buffer : List UInt8)
  | interrupt (event : TransferEvent)
  | callback (on : Bool)
  | peek (offset : Nat)
  | residue
  | info

/-- Something that happens while a task waits: at a time, an event arrives, or whatever the
controller raises next. It reaches the slot directly or through the dispatch of a channel. -/
structure Hook where
  time : Nat
  event : Option TransferEvent
  dispatch : Option Nat
  /-- How many blocks of a loop that raises no event are waited for. -/
  patience : Nat

inductive SlotCommand where
  | install (object : Nat)
  | take (object : Nat)
  | status
  | event (event : TransferEvent)
  | waitBlocking
  | waitTimeout (timeout : UInt32) (hooks : List Hook)
  | poll (future task : Nat)
  | eventInside (event : TransferEvent)
  | attemptInside
  | callInside
  | statusInside
  | stream (command : StreamCommand)

inductive ObjectCommand where
  | controller (command : ControllerCommand)
  /-- Runs the controller to its next event and delivers it. -/
  | service (patience : Nat)
  /-- Drops the object. -/
  | drop
  /-- Gives up the name of the object. What only the name led to is dropped; a slot in static
  storage lives on. -/
  | letGo
  | stream (command : StreamCommand)
  | window (command : WindowCommand)
  | transmit (command : TransmitCommand)
  | receive (command : ReceiveCommand)
  /-- Bytes arrive one by one at a register, each moved at once. -/
  | arrive (register : Nat) (data : List UInt8) (deliver : Bool)
  | slot (command : SlotCommand)

/-- Who handles the events of a channel on a bench. -/
inductive Handler where
  | slot (object : Nat)
  /-- Passes the event on to another channel, and is then taken off its own. -/
  | relay (channel target : Nat)
  | log (name : String)

/-- Whether the tester can still name what a handler leads to, given the places that have a slot. -/
def Handler.isReachable (h : Handler) (hasSlot : Nat → Bool) : Bool :=
  match h with
  | slot object => hasSlot object
  | relay _ _ | log _ => true

inductive Command where
  | object (object : Nat) (command : ObjectCommand)
  | allocateOwner
  | captureOwner (channel : Nat)
  | bind (channel owner : Nat)
  | release (channel owner : Nat)
  | owner (channel : Nat)
  | isBound (channel : Nat)
  | register (channel : Nat) (handler : Handler)
  | unregister (channel : Nat)
  | dispatch (channel : Nat) (event : TransferEvent)
  | poke (address : Nat) (data : List UInt8)
  | peek (address length : Nat)

/-- What a bench replies. -/
inductive Reply where
  | done
  | gone
  | empty
  | number (n : Nat)
  | number? (n : Option Nat)
  | truth (b : Bool)
  | text (s : String)
  | bytes (data : List UInt8)
  | filled (count : Nat) (buffer : List UInt8)
  | config (result : Except ConfigError Unit)
  | dma (result : Except DmaError Unit)
  | result (result : Except Error Unit)
  | count (result : Except DmaError Nat)
  | event? (event : Option TransferEvent)
  | events (events : List (Option TransferEvent))
  | status? (status : Option Status)
  | serviced (event : Option TransferEvent) (status : Option Status)
  | info (stream : Stream)
  | replaced (text : Option String)
  | refused
  | taken
  | dropped
  | wouldBlock
  | waited (result : Option (Except Error Unit)) (microseconds : Nat)
  | polled (result : Option (Except Error Unit))
  | alreadyInside
  | gaveUp

end ScatterGather.Bench
