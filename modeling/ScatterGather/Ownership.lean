import ScatterGather.Error

/-!
# ScatterGather.Ownership — who holds a channel, and who is told of its events

Channels are shared by everything that runs on the machine. `Ownership` records which owner holds
each of them: binding succeeds when the channel is free or already held by the same owner, releasing
only when it is held by that owner. `HandlerTable` records who is told of a channel's events.
-/

namespace ScatterGather

/-- Channels that can be owned. -/
def maxChannels : Nat := 32

/-- The identity of an owner, never handed out twice before the counter wraps. -/
structure OwnerId where
  raw : UInt32
  deriving DecidableEq

/-- Who holds each channel, and the next owner to be handed out. -/
structure Ownership where
  owners : Vector (Option OwnerId) maxChannels := Vector.replicate maxChannels none
  nextOwner : UInt32 := 0

namespace Ownership

def allocate (t : Ownership) : OwnerId × Ownership :=
  (⟨t.nextOwner⟩, { t with nextOwner := t.nextOwner + 1 })

/-- Claims a channel. A channel that is free or already the owner's own is granted. -/
def bind (t : Ownership) (channel : Nat) (owner : OwnerId) : Except Error Unit × Ownership :=
  if h : channel < maxChannels then
    match t.owners[channel] with
    | none => (.ok (), { t with owners := t.owners.set channel (some owner) })
    | some current => (if current = owner then .ok () else .error (.dma .channelBusy), t)
  else (.error (.config .invalidChannel), t)

/-- Gives a channel back, if the owner holds it, and says whether it did. -/
def release (t : Ownership) (channel : Nat) (owner : OwnerId) : Bool × Ownership :=
  if h : channel < maxChannels then
    if t.owners[channel] = some owner then (true, { t with owners := t.owners.set channel none })
    else (false, t)
  else (false, t)

/-- The holder of a channel. -/
def owner (t : Ownership) (channel : Nat) : Option OwnerId :=
  if h : channel < maxChannels then t.owners[channel] else none

def isBound (t : Ownership) (channel : Nat) : Bool :=
  (t.owner channel).isSome

/-- The channels that are held, in ascending order. -/
def boundChannels (t : Ownership) : List Nat :=
  (List.range maxChannels).filter t.isBound

end Ownership

/-- Who is told of the events of each channel. -/
structure HandlerTable (Handler : Type) where
  handlers : Vector (Option Handler) maxChannels := Vector.replicate maxChannels none

namespace HandlerTable

variable {Handler : Type}

/-- Sends the events of a channel to a handler, in place of any earlier one. -/
def register (t : HandlerTable Handler) (channel : Nat) (handler : Handler) :
    Except Error Unit × HandlerTable Handler :=
  if h : channel < maxChannels then (.ok (), ⟨t.handlers.set channel (some handler)⟩)
  else (.error (.config .invalidChannel), t)

def unregister (t : HandlerTable Handler) (channel : Nat) : HandlerTable Handler :=
  if h : channel < maxChannels then ⟨t.handlers.set channel none⟩ else t

/-- The handler that an event of a channel goes to. -/
def lookup (t : HandlerTable Handler) (channel : Nat) : Option Handler :=
  if h : channel < maxChannels then t.handlers[channel] else none

end HandlerTable

end ScatterGather
