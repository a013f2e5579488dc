import ScatterGather.Bench.Object

/-!
# ScatterGather.Bench — a machine with competing objects on it

A bench is a machine with objects on it: streams, pumps and slots that compete for its channels,
handlers that receive their events, and a tester who moves the controllers. `Bench.step` carries out
one command. Objects are named by the place where they were made, and a place is empty again once
its object has been dropped or moved away, or its name has been given up.
-/

namespace ScatterGather

open Bench in
/-- A machine with objects on it. -/
structure Bench where
  machine : Machine := {}
  handlers : HandlerTable Handler := {}
  objects : Array (Option Object) := #[]
  /-- The slots, each under the place where it was made. A slot outlives its object, since a handler
  may still lead to it. -/
  slots : Array (Option Slot) := #[]
  /-- Owner identities that the tester holds. -/
  owners : Array OwnerId := #[]

namespace Bench

/-! ## Places -/

def object? (b : Bench) (i : Nat) : Option Object :=
  b.objects.getD i none

def setObject (b : Bench) (i : Nat) (o : Option Object) : Bench :=
  { b with objects := b.objects.setIfInBounds i o }

/-- The slot that was made at a place. -/
def slot? (b : Bench) (i : Nat) : Option Slot :=
  b.slots.getD i none

def setSlot (b : Bench) (i : Nat) (s : Slot) : Bench :=
  { b with slots := b.slots.setIfInBounds i (some s) }

/-- Whether a slot is still an object of the bench. -/
def hasSlot (b : Bench) (i : Nat) : Bool :=
  (b.object? i).any Object.isSlot

/-- The stream that the object at a place has, if any. -/
def stream? (b : Bench) (i : Nat) : Option Stream :=
  if b.hasSlot i then (b.slot? i).bind Slot.stream? else (b.object? i).bind Object.ownStream?

/-- Uses a slot and the machine together. Where no slot was made, nothing happens. -/
def withSlot {α : Type} (b : Bench) (i : Nat) (vacant : α)
    (act : Slot → Machine → α × (Slot × Machine)) : α × Bench :=
  match b.slot? i with
  | none => (vacant, b)
  | some s =>
    match act s b.machine with
    | (result, s, machine) => (result, { b with machine }.setSlot i s)

/-- Runs driver code on the machine, on a channel's hardware. -/
def exec {α : Type} (b : Bench) (hw : Hardware) (script : DriverScript α) : α × Bench :=
  match b.machine.exec hw script with
  | (result, machine) => (result, { b with machine })

def tell (b : Bench) (r : Report) : Bench :=
  { b with machine := b.machine.tell r }

/-- Finds out where in a stream its descriptors lie. The tester starts a scratch chain of one block
for that, on channel zero of a machine of its own, and the start goes on record here. -/
def measure (b : Bench) : Bench :=
  { b with machine := b.machine.record (.enabled 0 1) }

/-- Drops a stream, which gives up its channel. -/
def dropStream (b : Bench) (s : Stream) : Bench :=
  (b.exec s.channel.hardware s.releaseIfBound).2

/-- Gives up the name of the object at a place. A stream or a pump is dropped with it; a slot in
static storage lives on, and so does the stream in it. -/
def letGo (b : Bench) (i : Nat) : Bench :=
  match b.object? i with
  | none => b
  | some o =>
    let b := b.setObject i none
    match o.ownStream? with
    | none => b
    | some s => b.dropStream s

/-- Drops the stream in a slot. -/
def emptySlot (b : Bench) (i : Nat) : Bench :=
  match b.slot? i with
  | none => b
  | some s =>
    let b := b.setSlot i (s.replace none)
    match s.stream? with
    | none => b
    | some stream => b.dropStream stream

/-- Drops the object at a place, and the stream that it has. -/
def dropObject (b : Bench) (i : Nat) : Bench :=
  (if b.hasSlot i then b.emptySlot i else b).letGo i

/-! ## Events -/

/-- An event arrives at a slot. -/
def arrive (b : Bench) (i : Nat) (event : TransferEvent) : Bench :=
  (b.withSlot i () fun s m => s.exec m (SlotScript.onEvent event)).2

/-- Sends an event to the handler of a channel, and says whether there was one. A relay passes it on
before it is taken off its own channel, so a chain of relays visits no channel twice. -/
def dispatchWithin (event : TransferEvent) : (relays channel : Nat) → Bench → Bool × Bench
  | 0, _, b => (false, b)
  | relays + 1, channel, b =>
    match b.handlers.lookup channel with
    | none => (false, b)
    | some (.slot i) => (true, b.arrive i event)
    | some (.log name) => (true, b.tell (.handler name event))
    | some (.relay source target) =>
      let (delivered, b) := dispatchWithin event relays target b
      let b := b.tell (.relayed source target delivered)
      (true, { b with handlers := b.handlers.unregister source })

def dispatch (b : Bench) (channel : Nat) (event : TransferEvent) : Bool × Bench :=
  dispatchWithin event (maxChannels + 1) channel b

/-- Runs the controller of an object to its next event. -/
def runController (b : Bench) (hw : Hardware) (patience : Nat) : Option TransferEvent × Bench :=
  match hw with
  | .controller index =>
    let (event, machine) := b.machine.runWithin index patience
    (event, { b with machine })
  | .window _ => (none, b)

/-! ## Commands to slots -/

/-- Makes a call on a slot from inside another one, which is let in only if there is a
stream. -/
def inside (b : Bench) (i : Nat) (s : Slot) (act : Slot → Bench → Reply × Bench) :
    Reply × Bench :=
  match s.stream?, s.cell.enter? with
  | none, _ => (.empty, b)
  | some _, none => (.alreadyInside, b)
  | some _, some cell =>
    let (_, b) := b.withSlot i () fun s m => ((), { s with cell }, m)
    let (reply, b) := act { s with cell } b
    let (_, b) := b.withSlot i () fun s m => ((), { s with cell := s.cell.leave }, m)
    (reply, b)

/-- What happens during a wait once it has lasted so long. -/
def runHook (i waited : Nat) (b : Bench) (h : Hook) : Bench :=
  if h.time ≠ waited then b
  else
    let hw := (b.object? i).elim (.controller 0) Object.hardware
    let (event, b) := match h.event with
      | some event => (some event, b)
      | none => b.runController hw h.patience
    let b := b.tell (.hook waited event)
    match event, h.dispatch with
    | none, _ => b
    | some event, none => b.arrive i event
    | some event, some channel => (b.dispatch channel event).2

/-- What happens during one delay of a wait, whose length so far is kept beside the bench. -/
def runDelay (i : Nat) (hooks : List Hook) : Bench × Nat → Bench × Nat
  | (b, waited) =>
    (hooks.foldl (runHook i (waited + waitPollInterval)) b, waited + waitPollInterval)

/-- Waits for the stream in a slot, for a limited time. -/
def wait (b : Bench) (i : Nat) (timeout : UInt32) (hooks : List Hook) : Reply × Bench :=
  let last :=
    SlotScript.waitAmid (fun p => (p.1.slot? i).bind Slot.status) (runDelay i hooks) timeout
      SlotScript.pollLimit 0 (b, 0)
  (.waited last.1 last.2.2, last.2.1)

/-- Moves the stream at another place into a slot. One that runs cannot be moved and is lost. -/
def install (b : Bench) (i : Nat) (s : Slot) (controller source : Nat) : Reply × Bench :=
  match b.object? source with
  | some (.stream stream _) =>
    if stream.bound then (.refused, b.dropObject source)
    else
      let (moved, machine) := b.machine.relocate stream
      let controller := match moved.channel.hardware with
        | .controller index => index
        | .window _ => controller
      let b := { b with machine }.setObject source none
      let b := (b.setObject i (some (.slot controller))).setSlot i (s.replace moved)
      match s.stream? with
      | none => (.replaced none, b)
      | some previous => (.replaced (some previous.text), b.dropStream previous)
  | _ => (.gone, b)

/-- Moves the stream in a slot to a place, whose object gives up its name to it. One that runs
cannot be moved and is lost. Its descriptors are located before and after. -/
def take (b : Bench) (i : Nat) (s : Slot) (target : Nat) : Reply × Bench :=
  match s.stream? with
  | none => (.empty, b)
  | some stream =>
    let b := (b.setSlot i (s.replace none)).measure.measure
    if stream.bound then (.dropped, b.dropStream stream)
    else
      let (moved, machine) := b.machine.relocate stream
      (.taken, ({ b with machine }.letGo target).setObject target (some (.stream moved i)))

def slotStep (b : Bench) (i : Nat) (s : Slot) (controller : Nat) : SlotCommand → Reply × Bench
  | .install source => b.install i s controller source
  | .take target => b.take i s target
  | .status => (.status? s.status, b)
  | .event event => (.done, b.arrive i event)
  | .waitBlocking => ((SlotScript.outcome s.status).elim .wouldBlock .result, b)
  | .waitTimeout timeout hooks => b.wait i timeout hooks
  | .poll _ task =>
    let (result, b) := b.withSlot i none fun s m => (s.admitTask task).exec m (SlotScript.poll task)
    (.polled result, b)
  | .eventInside event => b.inside i s fun _ b => (.done, b.arrive i event)
  | .attemptInside =>
    b.inside i s fun s b => (if s.cell.enter?.isNone then .gaveUp else .done, b)
  | .callInside =>
    b.inside i s fun s b => (if s.cell.enter?.isNone then .alreadyInside else .done, b)
  | .statusInside =>
    b.inside i s fun s b => (if s.cell.enterShared?.isNone then .alreadyInside else .done, b)
  | .stream command =>
    match s.stream? with
    | none => (.empty, b)
    | some stream =>
      let ((reply, stream), b) := b.exec stream.channel.hardware (command.script stream i)
      (reply, b.setSlot i (s.replace stream))

/-! ## Commands to other objects -/

/-- Hands an event to the object at a place, and gives the status that follows. -/
def interrupt (b : Bench) (i : Nat) (o : Object) (event : TransferEvent) : Option Status × Bench :=
  match o with
  | .stream s label =>
    let ((status, s), b) := b.exec o.hardware (s.onInterrupt event)
    (status, b.setObject i (some (.stream s label)))
  | .transmit p =>
    let ((status, p), b) := b.exec o.hardware (p.onInterrupt event)
    (status, b.setObject i (some (.transmit p)))
  | .receive p =>
    let ((status, p), b) := b.exec o.hardware (p.onInterrupt event)
    (status, b.setObject i (some (.receive p)))
  | .slot _ => (none, b.arrive i event)

/-- Runs the controller of an object to its next event and delivers it. -/
def service (b : Bench) (i : Nat) (o : Object) (patience : Nat) : Reply × Bench :=
  let (event, b) := b.runController o.hardware patience
  let (status, b) := match event with
    | none => (none, b)
    | some event => b.interrupt i o event
  (match o with
    | .slot _ => .event? event
    | _ => .serviced event status, b)

/-- Tampers with the register window of an object, or runs its interrupt handler. -/
def windowStep (b : Bench) (i : Nat) (o : Object) (s : Stream) (index : Nat) :
    WindowCommand → Reply × Bench
  | .write register value =>
    let window := (b.machine.window index).change register (.write value)
    (.done, { b with machine := b.machine.setWindow index window })
  | .writeSlot register slot byte =>
    let b := b.measure
    let address := s.pool.base + slot * Descriptor.size + byte
    let window := (b.machine.window index).change register (.write (UInt32.ofNat address.toNat))
    (.done, { b with machine := b.machine.setWindow index window })
  | .service =>
    let (flags, window) := (b.machine.window index).takeFlags
    let b := { b with machine := b.machine.setWindow index window }
    match flags.event with
    | none => (.serviced none none, b)
    | some event =>
      let (status, b) := b.interrupt i o event
      (.serviced (some event) status, b)

/-- Bytes arrive at a register, and the controller of the pump at a place moves each of them at
once. Gives one entry for each block that this finishes, which is empty if the block raises no
event. -/
def arriveBytes (i index register : Nat) (deliver : Bool) :
    List UInt8 → Bench → List (Option TransferEvent) × Bench
  | [], b => ([], b)
  | value :: rest, b =>
    let machine := { b.machine with memory := b.machine.memory.write register value }
    let machine := machine.moveElements index 1
    let c := machine.controller index
    if c.isRunning && c.remaining = 0 then
      let (event, machine) := machine.finish index
      let b := { b with machine }
      let b := match event, b.object? i with
        | some event, some o => if deliver then (b.interrupt i o event).2 else b
        | _, _ => b
      let (events, b) := arriveBytes i index register deliver rest b
      (event :: events, b)
    else arriveBytes i index register deliver rest { b with machine }

/-- Carries out a command to the object at a place. A command that the object has no use for finds
nobody. -/
def objectStep (b : Bench) (i : Nat) (command : ObjectCommand) : Reply × Bench :=
  match b.object? i with
  | none => (.gone, b)
  | some o =>
    match command, o, o.hardware with
    | .controller c, _, .controller index =>
      let (reply, machine) := c.apply b.machine index
      (reply, { b with machine })
    | .service patience, o, _ => b.service i o patience
    | .drop, _, _ => (.done, b.dropObject i)
    | .letGo, _, _ => (.done, b.letGo i)
    | .stream c, .stream s label, hw =>
      let ((reply, s), b) := b.exec hw (c.script s label)
      (reply, b.setObject i (some (.stream s label)))
    | .window c, .stream s _, .window index => b.windowStep i o s index c
    | .transmit c, .transmit p, hw =>
      let ((reply, p), b) := b.exec hw (c.script p i)
      (reply, b.setObject i (some (.transmit p)))
    | .receive c, .receive p, hw =>
      let ((reply, p), b) := b.exec hw (c.script p i)
      (reply, b.setObject i (some (.receive p)))
    | .arrive register data deliver, .receive _, .controller index =>
      let (events, b) := arriveBytes i index register deliver data b
      (.events events, b)
    | .slot c, .slot controller, _ =>
      match b.slot? i with
      | none => (.gone, b)
      | some s => b.slotStep i s controller c
    | _, _, _ => (.gone, b)

/-! ## All commands -/

/-- Carries out one command. -/
def step (b : Bench) : Command → Reply × Bench
  | .object i command => b.objectStep i command
  | .allocateOwner =>
    let (owner, ownership) := b.machine.ownership.allocate
    (.number owner.raw.toNat,
      { b with machine := { b.machine with ownership }, owners := b.owners.push owner })
  | .captureOwner channel =>
    match b.machine.ownership.owner channel with
    | none => (.number? none, b)
    | some owner => (.number? (some owner.raw.toNat), { b with owners := b.owners.push owner })
  | .bind channel owner =>
    match b.owners[owner]? with
    | none => (.gone, b)
    | some owner =>
      let (result, machine) := b.machine.bind channel owner
      (.result result, { b with machine })
  | .release channel owner =>
    match b.owners[owner]? with
    | none => (.gone, b)
    | some owner =>
      let (released, ownership) := b.machine.ownership.release channel owner
      (.truth released, { b with machine := { b.machine with ownership } })
  | .owner channel => (.number? ((b.machine.ownership.owner channel).map fun o => o.raw.toNat), b)
  | .isBound channel => (.truth (b.machine.ownership.isBound channel), b)
  | .register channel handler =>
    if handler.isReachable b.hasSlot then
      let (result, handlers) := b.handlers.register channel handler
      (.result result, { b with handlers })
    else (.gone, b)
  | .unregister channel => (.done, { b with handlers := b.handlers.unregister channel })
  | .dispatch channel event =>
    let (delivered, b) := b.dispatch channel event
    (.truth delivered, b)
  | .poke address data =>
    let memory := b.machine.memory.writeList address data
    (.done, { b with machine := { b.machine with memory } })
  | .peek address length => (.bytes (b.machine.memory.readList address length), b)

/-- Forgets the trace of earlier commands. -/
def clearTrace (b : Bench) : Bench :=
  { b with machine := { b.machine with log := #[], reports := #[] } }

/-! ## From start to end -/

/-- What an object is made from. Controllers are named by their index. -/
inductive ObjectSpec where
  | stream (controller capacity : Nat) (config : StreamConfig)
  | window (number capacity : Nat) (config : StreamConfig)
  | transmit (controller target queue : Nat)
  | receive (controller half source queue : Nat)
  | slot (controller : Nat)

/-- Free bytes behind the data that a bench starts with, enough for the longest block. -/
def spareBytes : Nat := 256 * 1024 + 64

/-- A bench with data in its memory and controllers of the given channel numbers, and nothing on
it. -/
def ofMemory (data : List UInt8) (numbers : List Nat) : Bench where
  machine :=
    { memory := ⟨data.toArray ++ Array.replicate spareBytes 0⟩
      controllers := (numbers.map fun number => { number }).toArray }

/-- Puts a new object, or a vacancy, behind the last place. -/
def place {α : Type} (b : Bench) (result : Except ConfigError α × Machine)
    (object : α → Object) : Except ConfigError Unit × Bench :=
  match result with
  | (.ok made, machine) =>
    (.ok (),
      { b with
        machine
        objects := b.objects.push (some (object made))
        slots := b.slots.push none })
  | (.error e, machine) =>
    (.error e, { b with machine, objects := b.objects.push none, slots := b.slots.push none })

/-- The channel of a controller. -/
def channelOf (b : Bench) (controller : Nat) : Channel :=
  ⟨(b.machine.controller controller).number, .controller controller⟩

/-- Makes an object at the next place. -/
def create (b : Bench) : ObjectSpec → Except ConfigError Unit × Bench
  | .stream controller capacity config =>
    b.place (b.machine.createStream (b.channelOf controller) capacity config)
      (.stream · b.objects.size)
  | .window number capacity config =>
    let index := b.machine.windows.size
    let machine := { b.machine with windows := b.machine.windows.push {} }
    b.place (machine.createStream ⟨number, .window index⟩ capacity config)
      (.stream · b.objects.size)
  | .transmit controller target queue =>
    b.place (b.machine.createTransmitPump (b.channelOf controller) target queue) .transmit
  | .receive controller half source queue =>
    b.place (b.machine.createReceivePump (b.channelOf controller) half source queue) .receive
  | .slot controller =>
    (.ok (),
      { b with
        objects := b.objects.push (some (.slot controller))
        slots := b.slots.push (some {}) })

/-- Drops everything: the stream in every slot, those included whose names were given up, and then
all objects in order. -/
def dropAll (b : Bench) : Bench :=
  (List.range b.objects.size).foldl dropObject ((List.range b.slots.size).foldl emptySlot b)

end Bench

end ScatterGather
