import ScatterGather.Proofs.CheckedPump

/-!
# ScatterGather.Proofs.Robustness — no reading of the hardware can break a driver

The position of a controller, the count of elements left, and whether it is active are read again
each time they matter, and nothing says that two readings fit together. This does no harm. Whatever
a `Driver` is told and whoever answers it, the cursors of its stream are in range and a stalled
block is not retired (`Stream.Robust`), the count of a pump is in range (`Driver.CountInRange`), and
no command has a step that can fail (`Driver.Coherent.agrees_script`).
-/

namespace ScatterGather

open CheckedScript Script

/-! ## Commands with their checks -/

namespace Bench

/-- A command to a stream, with its checks. -/
def StreamCommand.script? (s : Stream) (label : Nat) :
    StreamCommand → CheckedScript (Reply × Stream)
  | append destination source size => do
    let (result, s) ← s.append? destination source size
    pure (.dma result, s)
  | enable => do
    let (result, s) ← s.enable?
    pure (.result result, s)
  | callback on => do
    let s ← s.setCallback? ((callbackFor label on).map .report)
    pure (.done, s)
  | interrupt event => do
    let (status, s) ← s.onInterrupt? event
    pure (.status? status, s)
  | residue => do
    let result ← s.residue?
    pure (.count result, s)
  | queued => do
    let n ← s.queued?
    pure (.number n, s)
  | disable => StreamCommand.disable.script s label
  | clear => StreamCommand.clear.script s label
  | configure settings => (StreamCommand.configure settings).script s label
  | info => StreamCommand.info.script s label
  | text => StreamCommand.text.script s label

/-- A command to a transmit pump, with its checks. -/
def TransmitCommand.script? (p : TransmitPump) (label : Nat) :
    TransmitCommand → CheckedScript (Reply × TransmitPump)
  | write data => do
    let (count, p) ← p.write? data
    pure (.number count, p)
  | interrupt event => do
    let (status, p) ← p.onInterrupt? event
    pure (.status? status, p)
  | peek offset => do
    let run ← p.ring.popRun? offset
    let data ← perform (.load (p.storage + run.start) run.length)
    pure (.bytes data, p)
  | residue => do
    let result ← p.stream.residue?
    pure (.count result, p)
  | callback on => (TransmitCommand.callback on).script p label
  | info => TransmitCommand.info.script p label

/-- A command to a receive pump, with its checks. -/
def ReceiveCommand.script? (p : ReceivePump) (label : Nat) :
    ReceiveCommand → CheckedScript (Reply × ReceivePump)
  | start => do
    let (result, p) ← p.start?
    pure (.result result, p)
  | idle => do
    let (result, p) ← p.onIdle?
    pure (.count result, p)
  | read buffer => do
    let (count, buffer, p) ← p.read? buffer
    pure (.filled count buffer, p)
  | interrupt event => do
    let (status, p) ← p.onInterrupt? event
    pure (.status? status, p)
  | peek offset => do
    let data ← p.queue.peek? offset
    pure (.bytes data, p)
  | residue => do
    let result ← p.stream.residue?
    pure (.count result, p)
  | stop => ReceiveCommand.stop.script p label
  | callback on => (ReceiveCommand.callback on).script p label
  | info => ReceiveCommand.info.script p label

end Bench

theorem Stream.Coherent.agrees_script {s : Stream} (h : s.Coherent) (label : Nat)
    (command : Bench.StreamCommand) :
    Agrees (command.script? s label) (command.script s label) := by
  cases command with
  | append destination source size =>
    exact (h.agrees_append destination source size).next fun _ => agrees_pure _
  | enable => exact h.agrees_enable.next fun _ => agrees_pure _
  | callback on => exact (agrees_setCallback h.capacity_pos _).next fun _ => agrees_pure _
  | interrupt event => exact (h.agrees_onInterrupt event).next fun _ => agrees_pure _
  | residue => exact h.agrees_residue.next fun _ => agrees_pure _
  | queued => exact h.agrees_queued.next fun _ => agrees_pure _
  | disable | clear | configure settings | info | text => exact agrees_lift _

theorem TransmitPump.Coherent.agrees_script {p : TransmitPump} (h : p.Coherent) (label : Nat)
    (command : Bench.TransmitCommand) :
    Agrees (command.script? p label) (command.script p label) := by
  cases command with
  | write data => exact (h.agrees_write data).next fun _ => agrees_pure _
  | interrupt event => exact (h.agrees_onInterrupt event).next fun _ => agrees_pure _
  | peek offset =>
    refine agrees_some (h.ring.popRun?_eq offset) ?_
    exact (agrees_lift _).next fun _ => agrees_pure _
  | residue => exact h.stream.agrees_residue.next fun _ => agrees_pure _
  | callback on | info => exact agrees_lift _

theorem ReceivePump.Coherent.agrees_script {p : ReceivePump} (h : p.Coherent) (label : Nat)
    (command : Bench.ReceiveCommand) :
    Agrees (command.script? p label) (command.script p label) := by
  cases command with
  | start => exact h.agrees_start.next fun _ => agrees_pure _
  | idle => exact h.agrees_onIdle.next fun _ => agrees_pure _
  | read buffer => exact agrees_some (h.read?_eq buffer) (agrees_pure _)
  | interrupt event => exact (h.agrees_onInterrupt event).next fun _ => agrees_pure _
  | peek offset => exact agrees_some (h.queue.peek?_eq offset) (agrees_pure _)
  | residue => exact h.stream.agrees_residue.next fun _ => agrees_pure _
  | stop | callback on | info => exact agrees_lift _

/-! ## Drivers -/

/-- A stream, or a pump with its stream. -/
inductive Driver where
  | stream (s : Stream)
  | transmit (p : TransmitPump)
  | receive (p : ReceivePump)

namespace Driver

inductive Command where
  | stream (command : Bench.StreamCommand)
  | transmit (command : Bench.TransmitCommand)
  | receive (command : Bench.ReceiveCommand)

/-- A command to a driver. A driver of another kind does nothing. -/
def script (d : Driver) (label : Nat) (command : Command) : DriverScript (Bench.Reply × Driver) :=
  match d, command with
  | stream s, .stream c => do
    let (reply, s) ← c.script s label
    pure (reply, .stream s)
  | transmit p, .transmit c => do
    let (reply, p) ← c.script p label
    pure (reply, .transmit p)
  | receive p, .receive c => do
    let (reply, p) ← c.script p label
    pure (reply, .receive p)
  | _, _ => pure (.done, d)

/-- A command to a driver, with its checks. -/
def script? (d : Driver) (label : Nat) (command : Command) :
    CheckedScript (Bench.Reply × Driver) :=
  match d, command with
  | stream s, .stream c => do
    let (reply, s) ← c.script? s label
    pure (reply, .stream s)
  | transmit p, .transmit c => do
    let (reply, p) ← c.script? p label
    pure (reply, .transmit p)
  | receive p, .receive c => do
    let (reply, p) ← c.script? p label
    pure (reply, .receive p)
  | _, _ => pure (.done, d)

/-- Serves a driver any commands. -/
def serve {σ : Type} (handle : (a : Access) → σ → a.Answer × σ) (commands : List (Nat × Command))
    (d : Driver) (t : σ) : Driver × σ :=
  Script.serveAll handle (fun d c => d.script c.1 c.2) commands (d, t)

/-- The stream that a driver drives its channel with. -/
def own : Driver → Stream
  | stream s => s
  | transmit p => p.stream
  | receive p => p.stream

/-- A driver as it is made. The queue of a pump may hold bytes already. -/
inductive Made : Driver → Prop
  | stream {m : Machine} {channel : Channel} {capacity : Nat} {config : StreamConfig} {s : Stream}
      (hcapacity : 0 < capacity) (h : (m.createStream channel capacity config).1 = .ok s) :
      Made (.stream s)
  | transmit {m : Machine} {channel : Channel} {target requested : Nat} {p : TransmitPump}
      {ring : Ring} (h : (m.createTransmitPump channel target requested).1 = .ok p)
      (hring : ring.Valid) : Made (.transmit { p with ring })
  | receive {m : Machine} {channel : Channel} {half source requested : Nat} {p : ReceivePump}
      {queue : ByteQueue} (h : (m.createReceivePump channel half source requested).1 = .ok p)
      (hqueue : queue.Valid) : Made (.receive { p with queue })

/-- A driver whose fields fit together. -/
def Coherent : Driver → Prop
  | stream s => s.Coherent
  | transmit p => p.Coherent
  | receive p => p.Coherent

variable {d : Driver}

theorem Made.coherent (h : d.Made) : d.Coherent := by
  cases h with
  | stream hcapacity h => exact Stream.coherent_made hcapacity h
  | transmit h hring => exact TransmitPump.coherent_made h hring
  | receive h hqueue => exact ReceivePump.coherent_made h hqueue

theorem Coherent.script (h : d.Coherent) (label : Nat) (command : Command) :
    (d.script label command).Yields fun r => r.2.Coherent := by
  cases d <;> cases command
  case stream.stream c => exact (Stream.Coherent.script h label c).bind fun _ h => yields_done h
  case transmit.transmit c =>
    exact (TransmitPump.Coherent.script h label c).bind fun _ h => yields_done h
  case receive.receive c =>
    exact (ReceivePump.Coherent.script h label c).bind fun _ h => yields_done h
  all_goals exact yields_done h

theorem Coherent.agrees_script (h : d.Coherent) (label : Nat) (command : Command) :
    Agrees (d.script? label command) (d.script label command) := by
  cases d <;> cases command
  case stream.stream c =>
    exact (Stream.Coherent.agrees_script h label c).next fun _ => agrees_pure _
  case transmit.transmit c =>
    exact (TransmitPump.Coherent.agrees_script h label c).next fun _ => agrees_pure _
  case receive.receive c =>
    exact (ReceivePump.Coherent.agrees_script h label c).next fun _ => agrees_pure _
  all_goals exact agrees_pure _

/-! ## Robustness -/

/-- The count that a pump keeps beside its stream is in range: the bytes in flight are queued, and
the position lies in the staging area or at its end. -/
def CountInRange : Driver → Prop
  | stream _ => True
  | transmit p => p.inFlight ≤ p.ring.size
  | receive p => p.position ≤ 2 * p.half

theorem Coherent.own (h : d.Coherent) : d.own.Coherent := by
  cases d with
  | stream s => exact h
  | transmit p => exact TransmitPump.Coherent.stream h
  | receive p => exact ReceivePump.Coherent.stream h

theorem Coherent.countInRange (h : d.Coherent) : d.CountInRange := by
  cases d with
  | stream s => trivial
  | transmit p => exact TransmitPump.Coherent.inFlight_le h
  | receive p => exact ReceivePump.Coherent.position_le h

end Driver

namespace Stream

variable {s : Stream}

/-- From one stream to another, at most the blocks in front of a stalled one were retired, and
nothing else was done to the pool. -/
def Retired (s s' : Stream) : Prop :=
  ∃ passed ≤ s.reachable, s'.pool = s.pool.retire passed

theorem retired_refl (hh : s.pool.head < s.pool.capacity) : s.Retired s :=
  ⟨0, Nat.zero_le _, (Pool.retire_zero hh).symm⟩

theorem yields_retired_retirePassed (hh : s.pool.head < s.pool.capacity) :
    s.retirePassed.Yields s.Retired := by
  unfold retirePassed
  split
  · exact yields_done (retired_refl hh)
  · exact (yields_executingOffset s).bind fun passed hp => yields_done ⟨passed, hp, rfl⟩

/-- Giving back the channel leaves the pool alone. -/
theorem Retired.release {s' : Stream} (h : s.Retired s') (state : StreamState) :
    (do
      let s' ← s'.releaseChannel
      pure { s' with state } : DriverScript Stream).Yields s.Retired := by
  refine (yields_releaseChannel s').bind fun s'' hs'' => yields_done ?_
  subst hs''
  exact h

theorem yields_retired_react (hh : s.pool.head < s.pool.capacity) (event : TransferEvent) :
    (s.react event).Yields s.Retired := by
  cases event with
  | progress => exact (yields_retired_retirePassed hh).bind fun s' h => yields_done h
  | complete =>
    refine (yields_retired_retirePassed hh).bind fun s' h => ?_
    split
    · exact yields_bind fun _ => yields_bind fun _ => yields_done h
    · exact h.release .done
  | busError => exact yields_bind fun _ => (retired_refl hh).release .error
  | timeout =>
    refine yields_bind fun _ => ?_
    split
    · exact (retired_refl hh).release .timeout
    · exact yields_bind fun _ => yields_done (retired_refl hh)

theorem yields_retired_onInterrupt (hh : s.pool.head < s.pool.capacity) (event : TransferEvent) :
    (s.onInterrupt event).Yields fun r => s.Retired r.2 := by
  unfold onInterrupt
  split
  · exact yields_done (retired_refl hh)
  · exact (yields_retired_react hh event).bind fun s' h => yields_bind fun _ => yields_done h

/-- A stalled block is not among those that are retired. -/
theorem Coherent.queued_of_retired (h : s.Coherent) {s' : Stream} (hs' : s.Retired s') {slot : Nat}
    (hslot : s.stalled = some slot) : slot ∈ s'.pool.queuedSlots := by
  obtain ⟨passed, hp, hpool⟩ := hs'
  rw [hpool]
  exact Pool.mem_queuedSlots (Nat.mod_lt _ h.capacity_pos) (h.stalled slot hslot).1
    (h.stalled_retire hp hslot)

/-- What holds of a stream although its readings mean nothing. -/
structure Robust (s : Stream) : Prop where
  /-- No answers put the controller behind the last block. -/
  position : s.executingOffset.Yields (· ≤ s.pool.queued)
  head_lt : s.pool.head < s.pool.capacity
  queued_le : s.pool.queued ≤ s.pool.capacity
  stalled : ∀ slot, s.stalled = some slot →
    slot ∈ s.pool.queuedSlots ∧ s.bound = true ∧ s.isCircular = false
  /-- No event retires a stalled block, not even the one that restarts the chain there. -/
  spared : ∀ slot, s.stalled = some slot → ∀ event,
    (s.onInterrupt event).Yields fun r => slot ∈ r.2.pool.queuedSlots

theorem Coherent.stalled_bound (h : s.Coherent) {slot : Nat} (hslot : s.stalled = some slot) :
    s.bound = true ∧ s.isCircular = false := by
  have hne : s.stalled ≠ none := by simp [hslot]
  exact ⟨eq_true_of_ne_false fun hb => hne (h.unbound hb),
    eq_false_of_ne_true fun hc => hne (h.circular hc).2⟩

theorem Coherent.robust (h : s.Coherent) : s.Robust where
  position := yields_executingOffset_le s
  head_lt := h.head_lt
  queued_le := h.queued_le
  stalled slot hslot := by
    obtain ⟨hlt, hqueued⟩ := h.stalled slot hslot
    exact ⟨Pool.mem_queuedSlots h.head_lt hlt hqueued, h.stalled_bound hslot⟩
  spared slot hslot event :=
    (yields_retired_onInterrupt h.head_lt event).mono fun _ hr => h.queued_of_retired hr hslot

end Stream

namespace Driver

/-- **No reading can break a driver.** A stream or pump is made and served any commands, events of
any kind among them, and anyone answers its accesses, each time anew. The cursors and counts it is
left with are in range, a stalled block is a queued one and will not be retired, and whatever the
next command is, no answers make one of its steps fail. -/
theorem robust_serve {d : Driver} (hmade : d.Made) {σ : Type}
    (handle : (a : Access) → σ → a.Answer × σ) (commands : List (Nat × Command)) (t : σ) :
    let d' := (d.serve handle commands t).1
    d'.own.Robust ∧ d'.CountInRange ∧
      ∀ label command, Agrees (d'.script? label command) (d'.script label command) := by
  have h : (d.serve handle commands t).1.Coherent :=
    serveAll_keeps (fun _ c h => h.script c.1 c.2) handle commands hmade.coherent t
  exact ⟨h.own.robust, h.countInRange, h.agrees_script⟩

/-- Answers that fit no controller bring the position of a receive pump to the very end of its
staging area. -/
theorem robust_serve_fickle :
    ∃ p, (Machine.createReceivePump {} ⟨3, .controller 0⟩ 2 0 4).1 = .ok p ∧
      let d := ((receive p).serve Access.fickle
        [(0, .receive .start), (0, .receive (.interrupt .progress)), (0, .receive .idle)] 0).1
      (d.own.Robust ∧ d.CountInRange ∧
          ∀ label command, Agrees (d.script? label command) (d.script label command)) ∧
        ∃ p', d = receive p' ∧ p'.position = 2 * p'.half := by
  obtain ⟨p, hmade⟩ :
      ∃ p, (Machine.createReceivePump {} ⟨3, .controller 0⟩ 2 0 4).1 = .ok p := ⟨_, rfl⟩
  have hqueue : p.queue.Valid := by
    obtain rfl := Except.ok.inj hmade
    have hallocate : ByteQueue.allocate 4 = .ok (.ofCapacity 4) := rfl
    exact ByteQueue.valid_allocate hallocate
  refine ⟨p, hmade, robust_serve (.receive hmade hqueue) Access.fickle _ 0, ?_⟩
  obtain rfl := Except.ok.inj hmade
  exact ⟨_, rfl, by decide +kernel⟩

end Driver

end ScatterGather
