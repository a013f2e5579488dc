import ScatterGather.Event
import ScatterGather.Settings

/-!
# ScatterGather.RegisterWindow — a channel behind four registers

A channel can also be driven through four 32-bit registers: the pointer to the next descriptor, the
count of elements left, the configuration and the status. The window is plain memory here: a write
stores the value, whatever a register of a device would do with it.

`WordWrite` are the ways in which a word of a window is changed.
-/

namespace ScatterGather

/-- A change of one register word. -/
inductive WordWrite where
  | write (value : UInt32)
  | setBits (mask : UInt32)
  | clearBits (mask : UInt32)
  | flip (mask : UInt32)
  | add (value : UInt32)
  deriving DecidableEq

def WordWrite.apply (word : UInt32) : WordWrite → UInt32
  | write value => value
  | setBits mask => word ||| mask
  | clearBits mask => word &&& ~~~mask
  | flip mask => word ^^^ mask
  | add value => word + value

/-! ## Bits of the configuration register -/

namespace ConfigBit

def enable : UInt32 := 0x1
def fixedPriority : UInt32 := 0x2
def pause : UInt32 := 0x4

end ConfigBit

/-- The registers of a channel. -/
inductive Register where
  | next
  | count
  | config
  | status
  deriving DecidableEq

namespace Register

/-- Bytes of a channel's register block. -/
def blockSize : Nat := 0x10

/-- Where a register lies in the block. -/
def offset : Register → Nat
  | next => 0x0
  | count => 0x4
  | config => 0x8
  | status => 0xC

/-- The register at an offset. -/
def ofOffset? (byteOffset : Nat) : Option Register :=
  [next, count, config, status].find? fun r => r.offset = byteOffset

end Register

/-- The register block of one channel. -/
structure RegisterWindow where
  next : UInt32 := 0
  count : UInt32 := 0
  config : UInt32 := 0
  status : UInt32 := 0
  deriving DecidableEq, Inhabited

namespace RegisterWindow

def read (w : RegisterWindow) : Register → UInt32
  | .next => w.next
  | .count => w.count
  | .config => w.config
  | .status => w.status

def change (w : RegisterWindow) (r : Register) (c : WordWrite) : RegisterWindow :=
  match r with
  | .next => { w with next := c.apply w.next }
  | .count => { w with count := c.apply w.count }
  | .config => { w with config := c.apply w.config }
  | .status => { w with status := c.apply w.status }

/-- Acknowledges every interrupt, points the channel at a chain and switches it on. -/
def start (w : RegisterWindow) (head : Nat) (priority : Priority) : RegisterWindow :=
  let config := match priority with
    | .normal => ConfigBit.enable
    | .high => ConfigBit.enable ||| ConfigBit.fixedPriority
  let w := w.change .status (.write StatusBit.interrupts)
  let w := w.change .next (.write (UInt32.ofNat head))
  w.change .config (.write config)

def halt (w : RegisterWindow) : RegisterWindow :=
  w.change .config (.clearBits (ConfigBit.enable ||| ConfigBit.pause))

def pause (w : RegisterWindow) : RegisterWindow :=
  w.change .config (.setBits ConfigBit.pause)

def resume (w : RegisterWindow) : RegisterWindow :=
  w.change .config (.clearBits ConfigBit.pause)

def flags (w : RegisterWindow) : ChannelFlags :=
  ChannelFlags.ofWord w.status

def isActive (w : RegisterWindow) : Bool :=
  w.flags.active

def isPending (w : RegisterWindow) : Bool :=
  w.flags.fifoPending

/-- Reads the status and acknowledges the interrupts that it shows. -/
def takeFlags (w : RegisterWindow) : ChannelFlags × RegisterWindow :=
  let flags := w.flags
  (flags, if flags.any then w.change .status (.write flags.acknowledgement) else w)

end RegisterWindow

end ScatterGather
