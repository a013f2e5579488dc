import ScatterGather.Memory
import ScatterGather.Ownership
import ScatterGather.Script
import ScatterGather.Trace

/-!
# ScatterGather.Access — the ways in which a driver touches the machine

A driver touches the machine in a fixed set of ways: it drives and reads its own channel, claims and
gives back channels, reads and writes descriptors and bytes in memory, and leaves a trace. `Access`
lists them, one constructor for each single interaction, and `Access.Answer` says what comes back.
Everything else that a driver does is its own business, so a `DriverScript` shows at which points
the controller can move under it.
-/

namespace ScatterGather

/-- One interaction of a driver with the machine. -/
inductive Access where
  | start (head : Nat) (priority : Priority)
  | halt
  | isActive
  | nextPointer
  | transferCount
  | pause
  | resume
  | isPending
  | bind (channel : Nat) (owner : OwnerId)
  | release (channel : Nat) (owner : OwnerId)
  | fetch (address : Nat)
  | store (address : Nat) (write : Descriptor.Write)
  | load (address length : Nat)
  | save (address : Nat) (data : List UInt8)
  | log (record : LogRecord)
  | report (report : Report)

/-- What an access answers. -/
@[reducible] def Access.Answer : Access → Type
  | isActive | isPending => Bool
  | nextPointer | transferCount => Nat
  | bind _ _ => Except Error Unit
  | fetch _ => Descriptor
  | load _ _ => List UInt8
  | start _ _ | halt | pause | resume | release _ _ => Unit
  | store _ _ | save _ _ | log _ | report _ => Unit

/-- Driver code: a script of accesses to the machine. -/
abbrev DriverScript : Type → Type :=
  Script Access Access.Answer

/-- The driver code that makes one access. -/
abbrev perform (a : Access) : DriverScript a.Answer :=
  Script.access a

/-- Switches the completion interrupt of the descriptor at an address on or off. -/
def setInterrupt (address : Nat) (on : Bool) : DriverScript Unit := do
  let d ← perform (.fetch address)
  perform (.store address (.control (Descriptor.armed d.control on)))

end ScatterGather
