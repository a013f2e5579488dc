import ScatterGather.Event

/-!
# ScatterGather.Settings — how blocks are moved, and what a chain does

`TransferSettings` say how one block is moved: the width of an element, the burst, which sides step,
and the channel's priority. `validate` admits a burst only if it fits the channel's FIFO and both
sides step. `controlTemplate` is the part of a control word that the settings fix. A `StreamConfig`
adds what the whole chain does.
-/

namespace ScatterGather

/-- Size of one element. -/
inductive Width where
  | byte
  | halfWord
  | word
  deriving DecidableEq

namespace Width

def name : Width → String
  | byte => "Byte"
  | halfWord => "HalfWord"
  | word => "Word"

def bytes : Width → Nat
  | byte => 1
  | halfWord => 2
  | word => 4

/-- The width field of a control word, the logarithm of the size. -/
def bits : Width → UInt32
  | byte => 0
  | halfWord => 1
  | word => 2

end Width

/-- Elements that are moved at one go. -/
inductive Burst where
  | single
  | burst4
  | burst8
  | burst16
  deriving DecidableEq

namespace Burst

def name : Burst → String
  | single => "Single"
  | burst4 => "Burst4"
  | burst8 => "Burst8"
  | burst16 => "Burst16"

def elements : Burst → Nat
  | single => 1
  | burst4 => 4
  | burst8 => 8
  | burst16 => 16

/-- The burst field of a control word, the logarithm of the element count. -/
def bits : Burst → UInt32
  | single => 0
  | burst4 => 2
  | burst8 => 3
  | burst16 => 4

end Burst

inductive Priority where
  | normal
  | high
  deriving DecidableEq

def Priority.name : Priority → String
  | normal => "Normal"
  | high => "High"

/-! ## Fields of a control word

The element count is stored less one in the low sixteen bits; above it come the width, the burst,
one bit for each fixed side, and at the top the completion interrupt. -/

namespace Control

def countMask : UInt32 := 0xFFFF
def countShift : UInt32 := 0
def widthShift : UInt32 := 16
def widthMask : UInt32 := 0x70000
def burstShift : UInt32 := 19
def burstMask : UInt32 := 0x380000
def sourceFixed : UInt32 := 0x400000
def destinationFixed : UInt32 := 0x800000
def interruptOnComplete : UInt32 := 0x80000000

/-- The fields that a stream's settings fix for every block. -/
def templateMask : UInt32 := widthMask ||| burstMask ||| sourceFixed ||| destinationFixed

/-- A count of one to 65536 elements in its field. -/
def encodeCount (elements : UInt32) : UInt32 :=
  (elements - 1) &&& countMask

/-- The element count of a control word. -/
def decodeCount (control : UInt32) : UInt32 :=
  (control &&& countMask) + 1

end Control

/-! ## Settings -/

/-- How one block is moved. -/
structure TransferSettings where
  width : Width := .byte
  burst : Burst := .single
  sourceIncrement : Bool := true
  destinationIncrement : Bool := true
  priority : Priority := .normal
  deriving DecidableEq

namespace TransferSettings

/-- From stepping memory into one register. -/
def memoryToPeripheral (width : Width) : TransferSettings :=
  { width, destinationIncrement := false }

/-- From one register into stepping memory. -/
def peripheralToMemory (width : Width) : TransferSettings :=
  { width, sourceIncrement := false }

/-- A burst has to fit the FIFO of the channel, and needs two sides that step. -/
def validate (s : TransferSettings) (fifo : Nat) : Except ConfigError Unit :=
  if fifo < s.burst.elements * s.width.bytes then .error .burstTooLarge
  else if (!s.sourceIncrement || !s.destinationIncrement) && s.burst ≠ .single then
    .error .fixedAddressBurst
  else .ok ()

/-- The control bits that every block moved under these settings has. -/
def controlTemplate (s : TransferSettings) : UInt32 :=
  (s.width.bits <<< Control.widthShift) ||| (s.burst.bits <<< Control.burstShift) |||
  (if s.sourceIncrement then 0 else Control.sourceFixed) |||
  (if s.destinationIncrement then 0 else Control.destinationFixed)

def text (s : TransferSettings) : String :=
  Text.record "TransferSettings"
    [("width", s.width.name), ("burst", s.burst.name),
      ("source_increment", Text.bool s.sourceIncrement),
      ("destination_increment", Text.bool s.destinationIncrement), ("priority", s.priority.name)]

end TransferSettings

/-- What the last block of a chain leads to. -/
inductive ChainMode where
  | oneShot
  | circular
  deriving DecidableEq

def ChainMode.name : ChainMode → String
  | oneShot => "OneShot"
  | circular => "Circular"

/-- What a request timeout does to a running channel. -/
inductive TimeoutPolicy where
  | restart
  | abort
  deriving DecidableEq

def TimeoutPolicy.name : TimeoutPolicy → String
  | restart => "Restart"
  | abort => "Abort"

/-- What a stream does with its chain. A silent stream is told of the end of the chain only. -/
structure StreamConfig where
  mode : ChainMode := .oneShot
  silent : Bool := false
  timeoutPolicy : TimeoutPolicy := .restart
  settings : TransferSettings := {}
  deriving DecidableEq

namespace StreamConfig

def circular (settings : TransferSettings) : StreamConfig :=
  { mode := .circular, settings }

def text (c : StreamConfig) : String :=
  Text.record "StreamConfig"
    [("mode", c.mode.name), ("silent", Text.bool c.silent),
      ("timeout_policy", c.timeoutPolicy.name), ("settings", c.settings.text)]

end StreamConfig

/-- Bytes in the FIFO of a channel. -/
def fifoSize : Nat := 16

/-- Elements that one descriptor can move. -/
def maxTransfer : Nat := 65536

end ScatterGather
