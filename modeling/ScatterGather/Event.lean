import ScatterGather.Error
import ScatterGather.Text

/-!
# ScatterGather.Event — events, stream states and channel status

A controller raises a `TransferEvent`; a stream moves through `StreamState`s; a poller sees a
`Status`. The status word of a channel is read as `ChannelFlags`, of which at most one event is
made: an error hides everything else, a timeout hides a completion.
-/

namespace ScatterGather

/-- What a channel reports to its interrupt handler. -/
inductive TransferEvent where
  | progress
  | complete
  | busError
  | timeout
  deriving DecidableEq

def TransferEvent.name : TransferEvent → String
  | progress => "Progress"
  | complete => "Complete"
  | busError => "BusError"
  | timeout => "Timeout"

/-- What a poller sees of a stream. -/
inductive Status where
  | ok
  | busy
  | timeout
  | error
  deriving DecidableEq

namespace Status

def name : Status → String
  | ok => "Ok"
  | busy => "Busy"
  | timeout => "Timeout"
  | error => "Error"

def isBusy (s : Status) : Bool :=
  s = busy

/-- A stream that is still busy has not failed; a timeout and an error are failures of their own
kind. -/
def toResult : Status → Except Error Unit
  | ok | busy => .ok ()
  | timeout => .error (.io .timeout)
  | error => .error (.dma .busError)

end Status

/-- The states of a stream between its operations. -/
inductive StreamState where
  | idle
  | ready
  | busy
  | done
  | error
  | timeout
  deriving DecidableEq

namespace StreamState

def name : StreamState → String
  | idle => "Idle"
  | ready => "Ready"
  | busy => "Busy"
  | done => "Done"
  | error => "Error"
  | timeout => "Timeout"

/-- A stream with nothing to wait for is fine, whether it never ran or ran to its end. -/
def status : StreamState → Status
  | idle | ready | done => .ok
  | busy => .busy
  | timeout => .timeout
  | error => .error

/-- After these states the next block starts a new chain. -/
def isFinal : StreamState → Bool
  | done | error | timeout => true
  | idle | ready | busy => false

end StreamState

/-! ## The status word of a channel -/

namespace StatusBit

def active : UInt32 := 0x1
def fifoPending : UInt32 := 0x2
def done : UInt32 := 0x4
def error : UInt32 := 0x8
def timeout : UInt32 := 0x10

/-- The bits that raise an interrupt, and that writing them back clears. -/
def interrupts : UInt32 := done ||| error ||| timeout

end StatusBit

/-- The status word of a channel, bit by bit. -/
structure ChannelFlags where
  active : Bool := false
  fifoPending : Bool := false
  done : Bool := false
  busError : Bool := false
  timeout : Bool := false
  deriving DecidableEq

namespace ChannelFlags

/-- Whether a word has any of the bits of a mask. -/
def hasBit (word mask : UInt32) : Bool :=
  word &&& mask != 0

def ofWord (word : UInt32) : ChannelFlags where
  active := hasBit word StatusBit.active
  fifoPending := hasBit word StatusBit.fifoPending
  done := hasBit word StatusBit.done
  busError := hasBit word StatusBit.error
  timeout := hasBit word StatusBit.timeout

/-- The word that acknowledges the interrupts among the flags. -/
def acknowledgement (f : ChannelFlags) : UInt32 :=
  (if f.done then StatusBit.done else 0) |||
  (if f.busError then StatusBit.error else 0) |||
  (if f.timeout then StatusBit.timeout else 0)

/-- Whether any interrupt is raised. -/
def any (f : ChannelFlags) : Bool :=
  f.done || f.busError || f.timeout

/-- The one event that the flags stand for; a completion on a channel that goes on is progress. -/
def event (f : ChannelFlags) : Option TransferEvent :=
  if f.busError then some .busError
  else if f.timeout then some .timeout
  else if f.done then some (if f.active then .progress else .complete)
  else none

def text (f : ChannelFlags) : String :=
  Text.record "InterruptStatus"
    [("active", Text.bool f.active), ("fifo_pending", Text.bool f.fifoPending),
      ("done", Text.bool f.done), ("bus_error", Text.bool f.busError),
      ("timeout", Text.bool f.timeout)]

end ChannelFlags

end ScatterGather
