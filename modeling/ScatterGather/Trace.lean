import ScatterGather.Event

/-!
# ScatterGather.Trace — what a run leaves behind for a reader

A run leaves two kinds of trace: records of the log, and reports of the callbacks and handlers that
were told of something. Both are kept as values; their text is made at the end.
-/

namespace ScatterGather

/-- A record of the log. Every one is about a channel. -/
inductive LogRecord where
  | enabled (channel descriptors : Nat)
  | disabled (channel : Nat)
  | underrun (channel descriptors : Nat)
  | busError (channel : Nat)
  | requestTimeout (channel : Nat)
  | notDrained (channel : Nat)
  | alreadyBound (channel : Nat)
  | notStarted (channel : Nat) (cause : Error)
  deriving DecidableEq

/-- A record in text: its level, then its message. -/
def LogRecord.text : LogRecord → String
  | enabled channel descriptors =>
    s!"DEBUG DMA channel {channel} enabled with {descriptors} descriptors"
  | disabled channel => s!"DEBUG DMA channel {channel} disabled"
  | underrun channel descriptors =>
    s!"TRACE DMA channel {channel} underrun, restarting {descriptors} descriptors"
  | busError channel => s!"WARN DMA channel {channel} bus error"
  | requestTimeout channel => s!"WARN DMA channel {channel} request timeout"
  | notDrained channel => s!"WARN DMA channel {channel} FIFO did not drain"
  | alreadyBound channel => s!"WARN DMA channel {channel} already bound"
  | notStarted channel cause =>
    s!"WARN TX pump on DMA channel {channel} not started: " ++ cause.message

/-- A report of a callback or a handler. The label says who was told. -/
inductive Report where
  | status (label : Nat) (status : Status)
  | pump (label : Nat)
  | handler (name : String) (event : TransferEvent)
  | relayed (channel target : Nat) (delivered : Bool)
  | hook (waited : Nat) (event : Option TransferEvent)
  deriving DecidableEq

def Report.text : Report → String
  | status label s => s!"o{label}:" ++ s.name
  | pump label => s!"o{label}:notify"
  | handler name event => name ++ ":" ++ event.name
  | relayed channel target delivered => s!"relay{channel}>{target}:" ++ Text.bool delivered
  | hook waited event =>
    s!"hook@{waited}:" ++ match event with
      | none => "None"
      | some e => "Some(" ++ e.name ++ ")"

end ScatterGather
