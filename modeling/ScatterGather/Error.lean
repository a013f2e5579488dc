/-!
# ScatterGather.Error — causes of failure, their names and their messages

Three families of causes: a configuration that cannot be used, a transfer that cannot be queued,
started or finished, and an operation that came at the wrong time. `Error` is their union. Each
cause has a name and a message; a message of the union says first which family the cause belongs to.
-/

namespace ScatterGather

/-- Why a queue, a channel or a set of transfer settings is refused. -/
inductive ConfigError where
  | outOfMemory
  | invalidCapacity
  | invalidChannel
  | burstTooLarge
  | fixedAddressBurst
  | streamActive
  deriving DecidableEq

/-- Why a block cannot be queued, a channel started, a residue read or a transfer finished. -/
inductive DmaError where
  | channelBusy
  | poolFull
  | invalidLength
  | misaligned
  | transferTooLarge
  | residueUnstable
  | busError
  deriving DecidableEq

/-- Why an operation cannot be carried out now. -/
inductive IoError where
  | invalidState
  | timeout
  deriving DecidableEq

/-- Any error of the library. -/
inductive Error where
  | config (cause : ConfigError)
  | dma (cause : DmaError)
  | io (cause : IoError)
  deriving DecidableEq

namespace ConfigError

def name : ConfigError → String
  | outOfMemory => "OutOfMemory"
  | invalidCapacity => "InvalidCapacity"
  | invalidChannel => "InvalidChannel"
  | burstTooLarge => "BurstTooLarge"
  | fixedAddressBurst => "FixedAddressBurst"
  | streamActive => "StreamActive"

def message : ConfigError → String
  | outOfMemory => "out of memory"
  | invalidCapacity => "invalid capacity"
  | invalidChannel => "invalid channel number"
  | burstTooLarge => "burst exceeds channel FIFO"
  | fixedAddressBurst => "burst not allowed with fixed address"
  | streamActive => "stream is active"

end ConfigError

namespace DmaError

def name : DmaError → String
  | channelBusy => "ChannelBusy"
  | poolFull => "PoolFull"
  | invalidLength => "InvalidLength"
  | misaligned => "Misaligned"
  | transferTooLarge => "TransferTooLarge"
  | residueUnstable => "ResidueUnstable"
  | busError => "BusError"

def message : DmaError → String
  | channelBusy => "channel busy"
  | poolFull => "descriptor pool full"
  | invalidLength => "invalid transfer length"
  | misaligned => "misaligned address"
  | transferTooLarge => "transfer too large for descriptor"
  | residueUnstable => "residue unstable, retry"
  | busError => "DMA bus error"

end DmaError

namespace IoError

def name : IoError → String
  | invalidState => "InvalidState"
  | timeout => "Timeout"

def message : IoError → String
  | invalidState => "invalid state for operation"
  | timeout => "operation timed out"

end IoError

namespace Error

/-- The name of an error of the union holds the name of its cause. -/
def name : Error → String
  | config cause => "Config(" ++ cause.name ++ ")"
  | dma cause => "Dma(" ++ cause.name ++ ")"
  | io cause => "Io(" ++ cause.name ++ ")"

/-- The message of an error of the union says first which family the cause belongs to. -/
def message : Error → String
  | config cause => "config: " ++ cause.message
  | dma cause => "dma: " ++ cause.message
  | io cause => "io: " ++ cause.message

end Error

/-- Outcomes can be compared. -/
instance decidableEqExcept {ε α : Type} [DecidableEq ε] [DecidableEq α] :
    DecidableEq (Except ε α)
  | .error e, .error e' =>
    if h : e = e' then isTrue (congrArg _ h) else isFalse fun heq => h (Except.error.inj heq)
  | .ok a, .ok a' =>
    if h : a = a' then isTrue (congrArg _ h) else isFalse fun heq => h (Except.ok.inj heq)
  | .error _, .ok _ => isFalse nofun
  | .ok _, .error _ => isFalse nofun

end ScatterGather
