import ScatterGather.Machine.Setup
import ScatterGather.Proofs.Release

/-!
# ScatterGather.Proofs.TransmitRig — a transmit pump, its machine, and all that can happen to them

A `TransmitRig` is a transmit pump on a machine together with a record of which bytes its user
handed over (`accepted`), which bytes left the queue (`ended`), and what its controller wrote
(`sent`). A `TransmitAction` is one thing that can happen: a write, a move of the controller, the
delivery of an event that was raised, or of one that was not, or that others claim channels.

`released_once_sent` is the account of a whole run. Bytes leave the queue in the order in which they
came in, each after the transfer that covered it wrote it to the register, and as long as only
genuine completions are delivered the register sees the accepted bytes in order.
-/

namespace ScatterGather

/-- One thing that can happen to a transmit pump. -/
inductive TransmitAction where
  | write (data : List UInt8)
  /-- The oldest event that the controller raised is delivered. -/
  | deliver
  /-- An event is delivered, whether the controller raised it or not. -/
  | interrupt (event : TransferEvent)
  | moveElements (count : Nat)
  | finish
  /-- The FIFO will be found with data in it so many times. -/
  | fillFifo (polls : Nat)
  /-- Others claim channels and give them back. -/
  | contend (ownership : Ownership)

/-- Whether an action delivers no event but timeouts and events that the controller raised. -/
def TransmitAction.orderly : TransmitAction → Bool
  | .interrupt event => event = .timeout
  | _ => true

/-- A transmit pump on its machine, with a record of what happened. -/
structure TransmitRig where
  machine : Machine
  pump : TransmitPump
  /-- The controller behind the pump's channel. -/
  index : Nat
  /-- Events that the controller raised and that were not delivered, oldest first. -/
  raised : List TransferEvent := []
  /-- Bytes that the pump took, in order. -/
  accepted : List UInt8 := []
  /-- What the controller wrote since it was last started, in order. -/
  moved : List (Nat × UInt8) := []
  /-- All that the controller wrote, in order. -/
  sent : List (Nat × UInt8) := []
  /-- Bytes that left the queue together, each time with what the controller had written since it
  was last started. -/
  ended : List (List UInt8 × List (Nat × UInt8)) := []

/-- Makes a transmit pump on the channel of a controller. -/
def Machine.transmitRig (m : Machine) (number index target requested : Nat) :
    Except ConfigError TransmitRig :=
  match m.createTransmitPump { number, hardware := .controller index } target requested with
  | (.error e, _) => .error e
  | (.ok pump, machine) => .ok { machine, pump, index }

namespace TransmitRig

def controller (r : TransmitRig) : Controller :=
  r.machine.controller r.index

def hardware (r : TransmitRig) : Hardware :=
  r.pump.stream.channel.hardware

def scene (r : TransmitRig) : Scene :=
  r.machine.scene r.index

/-- The bytes in the queue, oldest first. -/
def contents (r : TransmitRig) : List UInt8 :=
  r.pump.contents r.machine.memory

/-- The bytes that left the queue, in order. -/
def released (r : TransmitRig) : List UInt8 :=
  r.ended.flatMap Prod.fst

/-- The bytes in memory where the transfer under way reads them. -/
def covered (r : TransmitRig) : List UInt8 :=
  r.machine.memory.readList (r.pump.storage + r.pump.ring.head) r.pump.inFlight

/-- The pump ran on the machine. A start of the controller begins a new record of its writes. -/
def drive (r : TransmitRig) (pump : TransmitPump) (machine : Machine) : TransmitRig :=
  { r with
    machine, pump
    moved := if (machine.controller r.index).starts = r.controller.starts then r.moved else [] }

/-- The pump lets bytes out of its queue. -/
def release (r : TransmitRig) (gone : List UInt8) : TransmitRig :=
  { r with ended := if gone.isEmpty then r.ended else r.ended ++ [(gone, r.moved)] }

/-- An event is delivered to the pump. -/
def interrupt (r : TransmitRig) (event : TransferEvent) : TransmitRig :=
  let ((_, pump), machine) := r.machine.exec r.hardware (r.pump.onInterrupt event)
  (r.release (r.contents.take (r.pump.ring.size - pump.ring.size))).drive pump machine

/-- The controller wrote to memory. -/
def transfer (r : TransmitRig) (writes : List (Nat × UInt8)) (machine : Machine) : TransmitRig :=
  { r with machine, moved := r.moved ++ writes, sent := r.sent ++ writes }

/-- What an action does. -/
def step (r : TransmitRig) : TransmitAction → TransmitRig
  | .write data =>
    let ((count, pump), machine) := r.machine.exec r.hardware (r.pump.write data)
    { r.drive pump machine with accepted := r.accepted ++ data.take count }
  | .deliver =>
    match r.raised with
    | [] => r
    | event :: raised => { r.interrupt event with raised }
  | .interrupt event => r.interrupt event
  -- what the controller is about to write is recorded before it does
  | .moveElements count =>
    r.transfer (r.scene.writes count) (r.machine.moveElements r.index count)
  | .finish =>
    let (event, machine) := r.machine.finish r.index
    { r.transfer (r.scene.writes r.scene.remaining) machine with
      raised := r.raised ++ event.toList }
  | .fillFifo polls =>
    { r with
      machine := r.machine.setController r.index { r.controller with pendingPolls := polls } }
  | .contend ownership => { r with machine := { r.machine with ownership } }

/-- What actions do, one after another. -/
def run (r : TransmitRig) (actions : List TransmitAction) : TransmitRig :=
  actions.foldl step r

variable {r : TransmitRig}

theorem step_deliver_nil (h : r.raised = []) : r.step .deliver = r := by
  simp only [step, h]

theorem step_deliver_cons {event : TransferEvent} {raised : List TransferEvent}
    (h : r.raised = event :: raised) : r.step .deliver = { r.interrupt event with raised } := by
  simp only [step, h]

/-! ## The account of a rig -/

/-- What holds at any time: the pump works, no byte is lost, and what left the queue was written. -/
structure Keeping (r : TransmitRig) : Prop where
  attached : r.machine.Attached r.pump.stream.channel r.index
  working : r.pump.Working r.scene r.moved
  whole : r.released ++ r.contents = r.accepted
  copied : ∀ e ∈ r.ended, e.2 = e.1.map (r.pump.target, ·)

theorem released_release (gone : List UInt8) :
    (r.release gone).released = r.released ++ gone := by
  unfold release released
  cases gone with
  | nil => exact (List.append_nil _).symm
  | cons byte rest =>
    show (r.ended ++ [(byte :: rest, r.moved)]).flatMap Prod.fst = _
    rw [List.flatMap_append]
    simp

/-- Bytes leave the queue with a record of their being written. -/
theorem copied_release (hcopied : ∀ e ∈ r.ended, e.2 = e.1.map (r.pump.target, ·))
    {gone : List UInt8} (hgone : gone ≠ [] → r.moved = gone.map (r.pump.target, ·)) :
    ∀ e ∈ (r.release gone).ended, e.2 = e.1.map (r.pump.target, ·) := by
  intro e he
  cases gone with
  | nil => exact hcopied e he
  | cons byte rest =>
    have he' : e ∈ r.ended ++ [(byte :: rest, r.moved)] := he
    rcases List.mem_append.mp he' with hold | hnew
    · exact hcopied e hold
    · rw [List.mem_singleton.mp hnew]
      exact hgone (List.cons_ne_nil _ _)

/-- An event lets as many bytes out of the queue as the pump releases. -/
theorem Keeping.interrupted (h : r.Keeping) {event : TransferEvent} {gone : Nat}
    (hh : r.pump.Handled r.scene r.moved gone (r.interrupt event).pump (r.interrupt event).scene) :
    (r.interrupt event).Keeping ∧
      (r.interrupt event).released = r.released ++ r.contents.take gone := by
  -- the record goes by the size of the queue, the pump by the bytes of the transfer
  have hsize : (r.interrupt event).pump.ring.size = r.pump.ring.size - gone := by
    have hlen := congrArg List.length hh.contents
    rwa [List.length_drop, TransmitPump.contents, TransmitPump.contents, Ring.length_contents,
      Ring.length_contents] at hlen
  have hcount : r.pump.ring.size - (r.interrupt event).pump.ring.size = gone := by
    have hle := hh.gone_le
    omega
  have hended : (r.interrupt event).ended = (r.release (r.contents.take gone)).ended := by
    rw [← hcount]
    rfl
  have hreleased : (r.interrupt event).released = r.released ++ r.contents.take gone := by
    rw [← released_release, released, hended]
    rfl
  refine ⟨⟨?_, hh.working, ?_, ?_⟩, hreleased⟩
  · rw [hh.channel]
    exact h.attached.steady (Machine.steady_exec r.machine r.hardware _)
  · have hcontents : (r.interrupt event).contents = r.contents.drop gone := hh.contents
    rw [hreleased, hcontents, List.append_assoc, List.take_append_drop]
    exact h.whole
  · rw [hended, hh.target]
    apply copied_release h.copied
    intro hne
    apply hh.copied
    rintro rfl
    exact hne rfl

theorem Keeping.handled (h : r.Keeping) (event : TransferEvent) :
    ∃ gone, r.pump.Handled r.scene r.moved gone (r.interrupt event).pump
      (r.interrupt event).scene :=
  h.attached.driven (P := fun p v => ∃ gone, r.pump.Handled r.scene r.moved gone p v) _ Prod.snd
    (h.working.exec_onInterrupt event)

theorem Keeping.wrote (h : r.Keeping) (data : List UInt8) :
    ∃ count, (r.step (.write data)).accepted = r.accepted ++ data.take count ∧
      r.pump.Wrote r.scene r.moved data count (r.step (.write data)).pump
        (r.step (.write data)).scene :=
  ⟨(r.machine.exec r.hardware (r.pump.write data)).1.1, rfl,
    h.attached.driven
      (P := fun (x : Nat × TransmitPump) v => r.pump.Wrote r.scene r.moved data x.1 x.2 v) _ id
      (h.working.exec_write data)⟩

/-- While a transfer is under way a write only fills free cells of the queue. -/
theorem Keeping.wrote_busy (h : r.Keeping) (hb : r.pump.stream.bound = true) (data : List UInt8) :
    ∃ ring m, (r.step (.write data)).pump = { r.pump with ring } ∧
      (r.step (.write data)).scene = { r.scene with memory := m } := by
  have hscene : ∃ ring m, (r.scene.exec (r.pump.write data)).1.2 = { r.pump with ring } ∧
      (r.scene.exec (r.pump.write data)).2 = { r.scene with memory := m } := by
    obtain ⟨ring, m, -, hexec⟩ := h.working.exec_write_busy hb data
    exact ⟨ring, m, by rw [hexec], by rw [hexec]⟩
  exact h.attached.driven
    (P := fun p v => ∃ ring m, p = { r.pump with ring } ∧ v = { r.scene with memory := m }) _
    Prod.snd hscene

/-- What waits for its delivery has no part in the account. -/
theorem Keeping.withRaised (h : r.Keeping) (raised : List TransferEvent) :
    Keeping { r with raised } where
  attached := h.attached
  working := h.working
  whole := h.whole
  copied := h.copied

theorem Keeping.write (h : r.Keeping) (data : List UInt8) : (r.step (.write data)).Keeping := by
  obtain ⟨count, haccepted, hwrote⟩ := h.wrote data
  refine ⟨?_, hwrote.working, ?_, ?_⟩
  · rw [hwrote.channel]
    exact h.attached.steady (Machine.steady_exec r.machine r.hardware _)
  · have hcontents : (r.step (.write data)).contents = r.contents ++ data.take count :=
      hwrote.contents
    rw [hcontents, haccepted, ← h.whole, List.append_assoc]
    rfl
  · rw [hwrote.target]
    exact h.copied

theorem Keeping.interrupt (h : r.Keeping) (event : TransferEvent) :
    (r.interrupt event).Keeping := by
  obtain ⟨gone, hh⟩ := h.handled event
  exact (h.interrupted hh).1

/-- The controller writes to the register, and to nothing of the queue. -/
theorem Keeping.transfer (h : r.Keeping) {writes : List (Nat × UInt8)} {machine : Machine}
    (hsteady : Machine.Steady r.index r.machine machine)
    (hworking : r.pump.Working (machine.scene r.index) (r.moved ++ writes))
    (hcontents : r.pump.contents machine.memory = r.contents) :
    (r.transfer writes machine).Keeping where
  attached := h.attached.steady hsteady
  working := hworking
  whole := by
    have hcontents' : (r.transfer writes machine).contents = r.contents := hcontents
    rw [hcontents']
    exact h.whole
  copied := h.copied

/-- Every action keeps the account. -/
theorem Keeping.step (h : r.Keeping) (a : TransmitAction) : (r.step a).Keeping := by
  cases a with
  | write data => exact h.write data
  | deliver =>
    cases hraised : r.raised with
    | nil => rwa [step_deliver_nil hraised]
    | cons event raised =>
      rw [step_deliver_cons hraised]
      exact (h.interrupt event).withRaised raised
  | interrupt event => exact h.interrupt event
  | moveElements count =>
    obtain ⟨hworking, hcontents⟩ := h.working.moveElements count
    have hscene : (r.machine.moveElements r.index count).scene r.index =
        r.scene.moveElements count := h.attached.scene_moveElements count
    rw [← hscene] at hworking hcontents
    exact h.transfer (Machine.steady_moveElements r.machine r.index count) hworking hcontents
  | finish =>
    obtain ⟨hworking, hcontents⟩ := h.working.finish
    have hscene : (r.machine.finish r.index).2.scene r.index = r.scene.finish :=
      h.attached.scene_finish
    rw [← hscene] at hworking hcontents
    have hsteady : Machine.Steady r.index r.machine (r.machine.finish r.index).2 :=
      Machine.steady_finish r.machine r.index
    exact (h.transfer hsteady hworking hcontents).withRaised _
  | fillFifo polls =>
    have hscene : (r.step (.fillFifo polls)).scene = { r.scene with pendingPolls := polls } :=
      h.attached.scene_setController _
    refine ⟨h.attached.steady (.setController r.machine fun ht => ht), ?_, h.whole, h.copied⟩
    rw [hscene]
    exact h.working.congr rfl rfl rfl rfl
  | contend ownership =>
    exact ⟨⟨h.attached.hardware, h.attached.index_lt, h.attached.truthful⟩,
      h.working.congr rfl rfl rfl rfl, h.whole, h.copied⟩

/-- No action turns the pump to another register. -/
theorem Keeping.target_step (h : r.Keeping) (a : TransmitAction) :
    (r.step a).pump.target = r.pump.target := by
  cases a with
  | write data =>
    obtain ⟨_, -, hwrote⟩ := h.wrote data
    exact hwrote.target
  | deliver =>
    cases hraised : r.raised with
    | nil => rw [step_deliver_nil hraised]
    | cons event raised =>
      obtain ⟨gone, hh⟩ := h.handled event
      rw [step_deliver_cons hraised]
      exact hh.target
  | interrupt event =>
    obtain ⟨gone, hh⟩ := h.handled event
    exact hh.target
  | moveElements | finish | fillFifo | contend => rfl

/-- Every run keeps the account. -/
theorem Keeping.run (h : r.Keeping) (actions : List TransmitAction) :
    (r.run actions).Keeping ∧ (r.run actions).pump.target = r.pump.target := by
  induction actions generalizing r with
  | nil => exact ⟨h, rfl⟩
  | cons a actions ih =>
    obtain ⟨hrun, htarget⟩ := ih (h.step a)
    exact ⟨hrun, htarget.trans (h.target_step a)⟩

/-! ## Genuine events -/

/-- What holds as long as no event is delivered but timeouts and what the controller raised: the
register was sent the bytes that were released, and then those that the transfer under way has
moved. The one event that can wait for its delivery is that the transfer is complete. -/
structure Ordered (r : TransmitRig) : Prop where
  sent : r.sent = r.released.map (r.pump.target, ·) ++ if r.pump.stream.bound then r.moved else []
  raised : r.raised = [] ∨
    r.raised = [.complete] ∧ r.pump.stream.bound = true ∧ r.scene.current = 0

/-- A completion that the controller raised releases what the transfer has moved. -/
theorem Ordered.completed (hk : r.Keeping) (h : r.Ordered) (hb : r.pump.stream.bound = true)
    (hc : r.scene.current = 0) : Ordered { r.interrupt .complete with raised := [] } := by
  obtain ⟨hh, hfresh⟩ : r.pump.Handled r.scene r.moved r.pump.inFlight (r.interrupt .complete).pump
        (r.interrupt .complete).scene ∧
      (r.interrupt .complete).pump.inFlight ≤ (r.interrupt .complete).scene.remaining :=
    hk.attached.driven
      (P := fun p v => r.pump.Handled r.scene r.moved r.pump.inFlight p v ∧
        p.inFlight ≤ v.remaining) _ Prod.snd (hk.working.exec_complete hb hc)
  obtain ⟨hk', hreleased⟩ := hk.interrupted hh
  -- all that was moved is released, and the next transfer has moved nothing
  have hmoved := hh.copied (Nat.ne_of_gt (hk.working.busy hb).pos)
  have hsent := h.sent
  rw [if_pos hb, hmoved] at hsent
  refine ⟨?_, .inl rfl⟩
  show r.sent = (r.interrupt .complete).released.map _ ++ _
  rw [hk'.working.moved_of_fresh hfresh, hreleased, hh.target, List.map_append, List.append_nil]
  exact hsent

theorem Ordered.write (hk : r.Keeping) (h : r.Ordered) (data : List UInt8) :
    (r.step (.write data)).Ordered := by
  have hk' := hk.step (.write data)
  by_cases hb : r.pump.stream.bound = true
  · obtain ⟨ring, m, hpump, hscene⟩ := hk.wrote_busy hb data
    have hmoved : (r.step (.write data)).moved = r.moved := by
      show (if (r.step (.write data)).scene.starts = r.scene.starts then r.moved else []) = _
      rw [hscene]
      exact if_pos rfl
    refine ⟨?_, ?_⟩
    · rw [hmoved, hpump]
      exact h.sent
    · rw [hpump, hscene]
      exact h.raised
  · have hb' := Bool.eq_false_iff.mpr hb
    obtain ⟨_, _, -, -, hkicked⟩ := hk.working.exec_write_idle hb' data
    have hfresh : (r.step (.write data)).pump.inFlight ≤ (r.step (.write data)).scene.remaining :=
      hk.attached.driven (P := fun (p : TransmitPump) v => p.inFlight ≤ v.remaining) _ Prod.snd
        hkicked.fresh
    obtain ⟨-, -, -, -, htarget, -⟩ := hk.wrote data
    have hsent := h.sent
    rw [if_neg hb] at hsent
    refine ⟨?_, ?_⟩
    · rw [hk'.working.moved_of_fresh hfresh, htarget]
      exact hsent
    · rcases h.raised with hnone | ⟨-, hbound, -⟩
      · exact .inl hnone
      · exact absurd hbound hb

theorem Keeping.timed_out (hk : r.Keeping) :
    ∃ state left,
      (r.interrupt .timeout).pump = { r.pump with stream := { r.pump.stream with state } } ∧
        (r.interrupt .timeout).scene = { r.scene with pendingPolls := left } := by
  have hscene : ∃ state left, (r.scene.exec (r.pump.onInterrupt .timeout)).1.2 =
      { r.pump with stream := { r.pump.stream with state } } ∧
        (r.scene.exec (r.pump.onInterrupt .timeout)).2 = { r.scene with pendingPolls := left } := by
    by_cases hb : r.pump.stream.bound = true
    · obtain ⟨left, hexec⟩ := hk.working.exec_timeout hb
      exact ⟨.timeout, left, by rw [hexec], by rw [hexec]⟩
    · have hexec :=
        r.pump.exec_onInterrupt_unbound (v := r.scene) (Bool.eq_false_iff.mpr hb) .timeout
      exact ⟨r.pump.stream.state, r.scene.pendingPolls, by rw [hexec], by rw [hexec]⟩
  exact hk.attached.driven
    (P := fun p v => ∃ state left, p = { r.pump with stream := { r.pump.stream with state } } ∧
      v = { r.scene with pendingPolls := left }) _ Prod.snd hscene

theorem Ordered.timeout (hk : r.Keeping) (h : r.Ordered) : (r.interrupt .timeout).Ordered := by
  obtain ⟨state, left, hpump, hscene⟩ := hk.timed_out
  have hended : (r.interrupt .timeout).ended = r.ended := by
    show (r.release (r.contents.take
      (r.pump.ring.size - (r.interrupt .timeout).pump.ring.size))).ended = _
    rw [hpump, Nat.sub_self]
    rfl
  have hmoved : (r.interrupt .timeout).moved = r.moved := by
    show (if (r.interrupt .timeout).scene.starts = r.scene.starts then r.moved else []) = _
    rw [hscene]
    exact if_pos rfl
  refine ⟨?_, ?_⟩
  · rw [hmoved, released, hended, hpump]
    exact h.sent
  · rw [hpump, hscene]
    exact h.raised

/-- What the controller writes is what the transfer under way moves. -/
theorem Ordered.transfer (hk : r.Keeping) (h : r.Ordered) (count : Nat) :
    r.sent ++ r.scene.writes count = r.released.map (r.pump.target, ·) ++
      if r.pump.stream.bound then r.moved ++ r.scene.writes count else [] := by
  have hsent := h.sent
  by_cases hb : r.pump.stream.bound = true
  · rw [if_pos hb] at hsent
    rw [if_pos hb, hsent, List.append_assoc]
  · have hc := hk.working.stopped (Bool.eq_false_iff.mpr hb)
    rw [if_neg hb] at hsent
    rw [if_neg hb, Scene.writes, if_pos hc, List.append_nil]
    exact hsent

theorem Ordered.finish (hk : r.Keeping) (h : r.Ordered) : (r.step .finish).Ordered := by
  refine ⟨h.transfer hk r.scene.remaining, ?_⟩
  have hevent : (r.machine.finish r.index).1 = r.scene.finishEvent := hk.attached.finish_event
  have hscene : (r.step .finish).scene = r.scene.finish := hk.attached.scene_finish
  show r.raised ++ (r.machine.finish r.index).1.toList = [] ∨
    r.raised ++ (r.machine.finish r.index).1.toList = [.complete] ∧
      r.pump.stream.bound = true ∧ (r.step .finish).scene.current = 0
  rw [hevent, hscene]
  by_cases hc : r.scene.current = 0
  · rw [Scene.finishEvent, if_pos (.inl hc), Scene.finish_stopped hc]
    show r.raised ++ [] = [] ∨ r.raised ++ [] = [.complete] ∧ _
    rw [List.append_nil]
    exact h.raised
  · obtain ⟨hb, hnext, -⟩ := hk.working.stops hc
    -- a completion that waits was raised by a controller that stopped
    have hraised : r.raised = [] := by
      rcases h.raised with hnone | ⟨-, -, hstop⟩
      · exact hnone
      · exact absurd hstop hc
    have hstop : r.scene.finish.current = 0 := by
      rw [Scene.finish_running hc]
      exact hnext
    rw [hraised, Scene.finishEvent]
    by_cases hirq : (r.scene.table.read r.scene.current).interrupts = false
    · rw [if_pos (.inr hirq)]
      exact .inl rfl
    · rw [if_neg (not_or.mpr ⟨hc, hirq⟩), if_pos hnext]
      exact .inr ⟨rfl, hb, hstop⟩

/-- Genuine events keep the register and the queue in step. -/
theorem Ordered.step (hk : r.Keeping) (h : r.Ordered) {a : TransmitAction}
    (ha : a.orderly = true) : (r.step a).Ordered := by
  cases a with
  | write data => exact h.write hk data
  | deliver =>
    rcases h.raised with hnone | ⟨hraised, hb, hc⟩
    · rwa [step_deliver_nil hnone]
    · rw [step_deliver_cons hraised]
      exact h.completed hk hb hc
  | interrupt event =>
    obtain rfl : event = .timeout := of_decide_eq_true ha
    exact h.timeout hk
  | moveElements count =>
    refine ⟨h.transfer hk count, ?_⟩
    have hscene : (r.step (.moveElements count)).scene = r.scene.moveElements count :=
      hk.attached.scene_moveElements count
    rw [hscene, Scene.current_moveElements]
    exact h.raised
  | finish => exact h.finish hk
  | fillFifo polls =>
    refine ⟨h.sent, ?_⟩
    have hscene : (r.step (.fillFifo polls)).scene = { r.scene with pendingPolls := polls } :=
      hk.attached.scene_setController _
    rw [hscene]
    exact h.raised
  | contend ownership => exact ⟨h.sent, h.raised⟩

/-- A run in which no other events are delivered keeps them in step. -/
theorem Ordered.run (hk : r.Keeping) (h : r.Ordered) {actions : List TransmitAction}
    (hactions : ∀ a ∈ actions, a.orderly = true) : (r.run actions).Ordered := by
  induction actions generalizing r with
  | nil => exact h
  | cons a actions ih =>
    have ha : a.orderly = true := hactions a List.mem_cons_self
    apply ih (hk.step a) (h.step hk ha)
    intro b hb
    exact hactions b (List.mem_cons_of_mem a hb)

/-- The register was sent the bytes that were released, and then those that the transfer under way
has moved. -/
theorem Ordered.sent_eq (hk : r.Keeping) (h : r.Ordered) :
    r.sent =
      (r.released ++ r.contents.take (r.pump.inFlight - r.controller.remaining)).map
        (r.pump.target, ·) := by
  have hmoved : (if r.pump.stream.bound then r.moved else []) =
      (r.contents.take (r.pump.inFlight - r.controller.remaining)).map (r.pump.target, ·) := by
    split
    · next hb => exact (hk.working.busy hb).moved
    · next hb =>
      rw [hk.working.idle (Bool.eq_false_iff.mpr hb), Nat.zero_sub, List.take_zero]
      rfl
  rw [h.sent, hmoved, List.map_append]

/-! ## Runs -/

/-- A pump that is made on a channel whose controller has stopped is idle, and nothing has happened
to it. -/
theorem keeping_make {m : Machine} {number index target requested : Nat}
    (hindex : index < m.controllers.size) (htruth : (m.controller index).Truthful)
    (hstop : (m.controller index).current = 0)
    (hr : m.transmitRig number index target requested = .ok r)
    (hout : target < r.pump.storage ∨ r.pump.storage + r.pump.ring.capacity ≤ target) :
    r.Keeping ∧ r.Ordered ∧ r.pump.target = target := by
  unfold Machine.transmitRig Machine.createTransmitPump at hr
  cases hcap : Ring.resolveCapacity requested with
  | error e =>
    rw [hcap] at hr
    cases hr
  | ok capacity =>
    rw [hcap] at hr
    rcases m.createStream_cases { number, hardware := .controller index } 1 TransmitPump.config with
      ⟨e, hmade⟩ | ⟨-, hmade⟩
    · simp only [hmade] at hr
      cases hr
    · simp only [hmade] at hr
      obtain rfl := Except.ok.inj hr
      have hworking := TransmitPump.Working.made (m.scene index)
        { number, hardware := .controller index } m.ownership.allocate.1 m.ownership.allocate.2
        (Ring.resolveCapacity_pos hcap) hstop hout
      exact ⟨⟨⟨rfl, hindex, htruth⟩, hworking, rfl, fun e he => nomatch he⟩, ⟨rfl, .inl rfl⟩, rfl⟩

/-- What holds of the transfer under way: its descriptor covers the first bytes of the queue, the
controller executes no other, and no write disturbs it. -/
structure Covering (r : TransmitRig) : Prop where
  size : r.pump.inFlight ≤ r.contents.length
  block : (r.machine.table.read (r.pump.stream.pool.addressOf 0)).block = r.pump.run r.pump.inFlight
  bytes : r.covered = r.contents.take r.pump.inFlight
  executing : r.controller.current ≠ 0 → r.controller.current = r.pump.stream.pool.addressOf 0
  write : ∀ data, (r.step (.write data)).machine.table = r.machine.table ∧
    (r.step (.write data)).pump.stream = r.pump.stream ∧
    (r.step (.write data)).pump.inFlight = r.pump.inFlight ∧
    (r.step (.write data)).covered = r.covered

theorem Keeping.covered_eq (h : r.Keeping) (hb : r.pump.stream.bound = true) :
    r.covered = r.contents.take r.pump.inFlight :=
  have hf := h.working.busy hb
  Ring.readList_eq hf.le_size hf.contiguous

theorem Keeping.covering (h : r.Keeping) (hb : r.pump.stream.bound = true) : r.Covering where
  size := by
    rw [contents, TransmitPump.contents, Ring.length_contents]
    exact (h.working.busy hb).le_size
  block := (h.working.busy hb).block
  bytes := h.covered_eq hb
  executing hc := (h.working.executing hc).2.1
  write data := by
    obtain ⟨ring, m, hpump, hscene⟩ := h.wrote_busy hb data
    obtain ⟨count, -, hwrote⟩ := h.wrote data
    have htable : (r.step (.write data)).machine.table = r.machine.table :=
      (congrArg Scene.table hscene).trans rfl
    have hb' : (r.step (.write data)).pump.stream.bound = true := by
      rw [hpump]
      exact hb
    have hflight : (r.step (.write data)).pump.inFlight = r.pump.inFlight := by rw [hpump]
    refine ⟨htable, by rw [hpump], hflight, ?_⟩
    -- what is queued comes behind the bytes that are covered
    have hcontents : (r.step (.write data)).contents = r.contents ++ data.take count :=
      hwrote.contents
    have hle : r.pump.inFlight ≤ r.contents.length := by
      rw [contents, TransmitPump.contents, Ring.length_contents]
      exact (h.working.busy hb).le_size
    rw [(h.step (.write data)).covered_eq hb', hflight, hcontents, h.covered_eq hb,
      List.take_append_of_le_length hle]

/-- The account of a run. -/
structure Accounted (r : TransmitRig) (target : Nat) : Prop where
  /-- No byte is lost, repeated or out of place. -/
  whole : r.released ++ r.contents = r.accepted
  /-- The bytes that left the queue together are what the controller wrote to the register in the
  transfer that covered them. -/
  copied : ∀ e ∈ r.ended, e.2 = e.1.map (target, ·)
  busy : 0 < r.pump.inFlight ↔ r.pump.stream.bound = true
  covering : r.pump.stream.bound = true → r.Covering

theorem Keeping.accounted (h : r.Keeping) : r.Accounted r.pump.target where
  whole := h.whole
  copied := h.copied
  busy := by
    constructor
    · intro hpos
      by_cases hb : r.pump.stream.bound = true
      · exact hb
      · rw [h.working.idle (Bool.eq_false_iff.mpr hb)] at hpos
        exact absurd hpos (Nat.lt_irrefl 0)
    · intro hb
      exact (h.working.busy hb).pos
  covering := h.covering

/-- **A byte is released only once it was sent, and bytes are sent in order.** In every run of a
transmit pump, with whatever events at whatever time, the bytes that left the queue and those that
are still in it are the bytes that were accepted, in order; all that left was written to the
register by the controller in the transfer that covered it; and the transfer under way covers the
first bytes of the queue, which no write disturbs. If no event is delivered but timeouts and what
the controller raised, the register was sent the bytes that were released, and then those that the
transfer under way has moved, which together are the first of the bytes that were accepted. -/
theorem released_once_sent {m : Machine} {number index target requested : Nat}
    (hindex : index < m.controllers.size) (htruth : (m.controller index).Truthful)
    (hstop : (m.controller index).current = 0)
    (hr : m.transmitRig number index target requested = .ok r)
    (hout : target < r.pump.storage ∨ r.pump.storage + r.pump.ring.capacity ≤ target)
    (actions : List TransmitAction) :
    (r.run actions).Accounted target ∧
      ((∀ a ∈ actions, a.orderly = true) →
        ∃ bytes, (r.run actions).sent = bytes.map (target, ·) ∧ bytes <+: (r.run actions).accepted ∧
          bytes = (r.run actions).released ++ (r.run actions).contents.take
            ((r.run actions).pump.inFlight - (r.run actions).controller.remaining)) := by
  obtain ⟨hk, ho, htarget⟩ := keeping_make hindex htruth hstop hr hout
  obtain ⟨hrun, htarget'⟩ := hk.run actions
  replace htarget' : (r.run actions).pump.target = target := htarget'.trans htarget
  refine ⟨htarget' ▸ hrun.accounted, ?_⟩
  intro hactions
  have hsent := (ho.run hk hactions).sent_eq hrun
  rw [htarget'] at hsent
  refine ⟨_, hsent, ?_, rfl⟩
  rw [← hrun.whole]
  exact (List.prefix_append_right_inj _).mpr (List.take_prefix _ _)

/-- A queue of four bytes wraps while its first transfer is under way. -/
theorem released_once_sent_wrap :
    ∃ r, Machine.transmitRig { memory := ⟨#[0]⟩, controllers := #[{}] } 3 0 0 4 = .ok r ∧
      (r.run [.write [1, 2, 3], .moveElements 2, .interrupt .timeout, .write [4, 5], .finish,
        .deliver, .moveElements 1]).Accounted 0 ∧
      ∃ bytes, (r.run [.write [1, 2, 3], .moveElements 2, .interrupt .timeout, .write [4, 5],
        .finish, .deliver, .moveElements 1]).sent = bytes.map (0, ·) ∧ bytes <+: [1, 2, 3, 4] := by
  obtain ⟨r, hr⟩ :
      ∃ r, Machine.transmitRig { memory := ⟨#[0]⟩, controllers := #[{}] } 3 0 0 4 = .ok r :=
    ⟨_, rfl⟩
  have hplace :
      ((Machine.transmitRig { memory := ⟨#[0]⟩, controllers := #[{}] } 3 0 0 4).toOption.map
        fun r => r.pump.storage) = some 1 := by decide +kernel
  have haccepted :
      ((Machine.transmitRig { memory := ⟨#[0]⟩, controllers := #[{}] } 3 0 0 4).toOption.map
        fun r => (r.run [.write [1, 2, 3], .moveElements 2, .interrupt .timeout, .write [4, 5],
          .finish, .deliver, .moveElements 1]).accepted) = some [1, 2, 3, 4] := by decide +kernel
  rw [hr] at hplace haccepted
  replace hplace : r.pump.storage = 1 := Option.some.inj hplace
  replace haccepted : (r.run [.write [1, 2, 3], .moveElements 2, .interrupt .timeout,
      .write [4, 5], .finish, .deliver, .moveElements 1]).accepted = [1, 2, 3, 4] :=
    Option.some.inj haccepted
  obtain ⟨haccount, hsent⟩ :=
    released_once_sent (by decide) ⟨rfl, rfl, rfl⟩ rfl hr (.inl (by omega))
      [.write [1, 2, 3], .moveElements 2, .interrupt .timeout, .write [4, 5], .finish, .deliver,
        .moveElements 1]
  obtain ⟨bytes, hbytes, hprefix, -⟩ := hsent (by decide)
  rw [haccepted] at hprefix
  exact ⟨r, hr, haccount, bytes, hbytes, hprefix⟩

end TransmitRig

end ScatterGather
