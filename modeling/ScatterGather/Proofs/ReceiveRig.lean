import ScatterGather.Machine.Setup
import ScatterGather.Proofs.Staging

/-!
# ScatterGather.Proofs.ReceiveRig — a receive pump, its machine, and all that can happen to them

A `ReceiveRig` is a receive pump on a machine together with a record that begins anew with each
start: which bytes its controller received, how many completions were delivered, and which bytes
were read from the queue. A `ReceiveAction` is one thing that can happen. While the pump receives
some of them would lose bytes, or show the pump bytes of two halves at once; `ReceiveRig.admits`
says which are held back and when: a completion is delivered before the next half is finished, and
before the line is said to be idle.

`received_in_order` is the account of a run: some first part of the received bytes is consumed, and
each byte of it was queued once, in order, or counted once as dropped.
-/

namespace ScatterGather

/-- One thing that can happen to a receive pump. -/
inductive ReceiveAction where
  | start
  | stop
  /-- The oldest event that the controller raised is delivered. -/
  | deliver
  /-- An event is delivered, whether the controller raised it or not. -/
  | interrupt (event : TransferEvent)
  /-- The line falls idle. -/
  | idle
  | read (buffer : List UInt8)
  | moveElements (count : Nat)
  | finish
  /-- The register shows another byte. -/
  | present (value : UInt8)
  /-- The FIFO will be found with data in it so many times. -/
  | fillFifo (polls : Nat)
  /-- Others claim channels and give them back. -/
  | contend (ownership : Ownership)

/-- A receive pump on its machine, with a record of what happened since it was last started. -/
structure ReceiveRig where
  machine : Machine
  pump : ReceivePump
  /-- The controller behind the pump's channel. -/
  index : Nat
  /-- Events that the controller raised and that were not delivered, oldest first. -/
  raised : List TransferEvent := []
  /-- Bytes that the controller moved from the register, in order. -/
  received : List UInt8 := []
  /-- How many completions were delivered. -/
  delivered : Nat := 0
  /-- Bytes that were read from the queue, in order. -/
  taken : List UInt8 := []

/-- Makes a receive pump on the channel of a controller. -/
def Machine.receiveRig (m : Machine) (number index half source requested : Nat) :
    Except ConfigError ReceiveRig :=
  match m.createReceivePump { number, hardware := .controller index } half source requested with
  | (.error e, _) => .error e
  | (.ok pump, machine) => .ok { machine, pump, index }

namespace ReceiveRig

def controller (r : ReceiveRig) : Controller :=
  r.machine.controller r.index

def hardware (r : ReceiveRig) : Hardware :=
  r.pump.stream.channel.hardware

def scene (r : ReceiveRig) : Scene :=
  r.machine.scene r.index

/-- An event is delivered to the pump. -/
def interrupt (r : ReceiveRig) (event : TransferEvent) : ReceiveRig :=
  let ((_, pump), machine) := r.machine.exec r.hardware (r.pump.onInterrupt event)
  { r with machine, pump }

/-- The bytes that the controller receives when it moves so many elements. -/
def arriving (r : ReceiveRig) (count : Nat) : List UInt8 :=
  (r.scene.writes count).map Prod.snd

/-- What an action does. -/
def step (r : ReceiveRig) : ReceiveAction → ReceiveRig
  | .start =>
    -- whether the start succeeds or not, the record begins anew
    let ((_, pump), machine) := r.machine.exec r.hardware r.pump.start
    { machine, pump, index := r.index }
  | .stop =>
    let (pump, machine) := r.machine.exec r.hardware r.pump.stop
    { r with machine, pump }
  | .deliver =>
    match r.raised with
    | [] => r
    | event :: raised =>
      { r.interrupt event with
        raised, delivered := if event = .progress then r.delivered + 1 else r.delivered }
  | .interrupt event => r.interrupt event
  | .idle =>
    let ((_, pump), machine) := r.machine.exec r.hardware r.pump.onIdle
    { r with machine, pump }
  | .read buffer =>
    let (count, buffer, pump) := r.pump.read buffer
    { r with pump, taken := r.taken ++ buffer.take count }
  | .moveElements count =>
    { r with
      machine := r.machine.moveElements r.index count, received := r.received ++ r.arriving count }
  | .finish =>
    let (event, machine) := r.machine.finish r.index
    { r with
      machine, raised := r.raised ++ event.toList
      received := r.received ++ r.arriving r.controller.remaining }
  | .present value =>
    { r with
      machine := { r.machine with memory := r.machine.memory.write r.pump.source value } }
  | .fillFifo polls =>
    { r with
      machine := r.machine.setController r.index { r.controller with pendingPolls := polls } }
  | .contend ownership => { r with machine := { r.machine with ownership } }

/-- What actions do, one after another. -/
def run (r : ReceiveRig) (actions : List ReceiveAction) : ReceiveRig :=
  actions.foldl step r

/-- Whether a start succeeds. -/
def starts (r : ReceiveRig) : Bool :=
  (r.machine.exec r.hardware r.pump.start).1.1.isOk

/-- Whether an action can happen while the pump receives. Until the completion of a half is
delivered the next half is not finished, and the line is not said to be idle. -/
def admits (r : ReceiveRig) : ReceiveAction → Bool
  | .start | .stop => false
  | .interrupt event => event = .timeout
  | .idle | .finish => r.raised.isEmpty
  | _ => true

/-- Whether actions can happen one after another while the pump receives. -/
def admitsAll (r : ReceiveRig) : List ReceiveAction → Bool
  | [] => true
  | action :: rest => r.admits action && (r.step action).admitsAll rest

variable {r : ReceiveRig}

theorem step_deliver_nil (h : r.raised = []) : r.step .deliver = r := by
  simp only [step, h]

theorem step_deliver_cons {event : TransferEvent} {raised : List TransferEvent}
    (h : r.raised = event :: raised) :
    r.step .deliver = { r.interrupt event with
      raised, delivered := if event = .progress then r.delivered + 1 else r.delivered } := by
  simp only [step, h]

/-! ## Fitness -/

/-- What holds at any time: the pump is fit, and on the channel of its own controller, which reads
truthfully. -/
structure Ready (r : ReceiveRig) : Prop where
  attached : r.machine.Attached r.pump.stream.channel r.index
  fit : r.pump.Fit r.scene

/-- What driver code achieves for the pump on the scene it achieves on the machine. -/
theorem Ready.driven {α : Type} (h : r.Ready) {P : ReceivePump → Scene → Prop}
    (x : DriverScript α) (pump : α → ReceivePump)
    (hx : P (pump (r.scene.exec x).1) (r.scene.exec x).2) :
    P (pump (r.machine.exec r.hardware x).1) ((r.machine.exec r.hardware x).2.scene r.index) :=
  h.attached.driven x pump hx

theorem Ready.stays_interrupt (h : r.Ready) (event : TransferEvent) :
    r.pump.Stays (r.interrupt event).pump (r.interrupt event).scene :=
  h.driven _ Prod.snd (h.fit.exec_onInterrupt event)

theorem steady_step (r : ReceiveRig) (a : ReceiveAction) :
    Machine.Steady r.index r.machine (r.step a).machine ∧ (r.step a).index = r.index := by
  cases a with
  | deliver =>
    cases hraised : r.raised with
    | nil =>
      rw [step_deliver_nil hraised]
      exact ⟨.refl _, rfl⟩
    | cons event raised =>
      rw [step_deliver_cons hraised]
      exact ⟨Machine.steady_exec r.machine r.hardware _, rfl⟩
  | start | stop | interrupt | idle => exact ⟨Machine.steady_exec r.machine r.hardware _, rfl⟩
  | read buffer => exact ⟨.refl _, rfl⟩
  | moveElements count => exact ⟨Machine.steady_moveElements r.machine r.index count, rfl⟩
  | finish => exact ⟨Machine.steady_finish r.machine r.index, rfl⟩
  | present value => exact ⟨⟨r.machine.memory.size_write _ _, rfl, rfl, id⟩, rfl⟩
  | fillFifo polls => exact ⟨.setController r.machine fun ht => ht, rfl⟩
  | contend ownership => exact ⟨⟨rfl, rfl, rfl, id⟩, rfl⟩

theorem Ready.stays_step (h : r.Ready) (a : ReceiveAction) :
    r.pump.Stays (r.step a).pump (r.step a).scene := by
  cases a with
  | start => exact h.driven _ Prod.snd h.fit.exec_start.1
  | stop => exact h.driven _ id h.fit.exec_stop
  | deliver =>
    cases hraised : r.raised with
    | nil =>
      rw [step_deliver_nil hraised]
      exact ⟨h.fit, rfl, rfl⟩
    | cons event raised =>
      rw [step_deliver_cons hraised]
      exact h.stays_interrupt event
  | interrupt event => exact h.stays_interrupt event
  | idle => exact h.driven _ Prod.snd h.fit.exec_onIdle
  | read buffer => exact h.fit.read buffer
  | moveElements count =>
    have hscene : (r.step (.moveElements count)).scene = r.scene.moveElements count :=
      h.attached.scene_moveElements count
    rw [hscene]
    refine ⟨h.fit.congr (fun k hk => ⟨k, hk.moveElements count⟩) ?_, rfl, rfl⟩
    rw [r.scene.memory_moveElements, Memory.size_writeEach]
  | finish =>
    have hscene : (r.step .finish).scene = r.scene.finish := h.attached.scene_finish
    rw [hscene]
    refine ⟨h.fit.congr (fun k hk => ⟨_, hk.finish⟩) ?_, rfl, rfl⟩
    rw [r.scene.memory_finish, Memory.size_writeEach]
  | present value =>
    refine ⟨h.fit.congr (fun k hk => ⟨k, ?_⟩) (r.machine.memory.size_write _ _), rfl, rfl⟩
    exact hk.congr rfl rfl hk.template rfl rfl rfl rfl fun _ => rfl
  | fillFifo polls =>
    have hscene : (r.step (.fillFifo polls)).scene = { r.scene with pendingPolls := polls } :=
      h.attached.scene_setController _
    rw [hscene]
    refine ⟨h.fit.congr (fun k hk => ⟨k, ?_⟩) rfl, rfl, rfl⟩
    exact hk.congr rfl rfl hk.template rfl rfl rfl rfl fun _ => rfl
  | contend ownership =>
    refine ⟨h.fit.congr (fun k hk => ⟨k, ?_⟩) rfl, rfl, rfl⟩
    exact hk.congr rfl rfl hk.template rfl rfl rfl rfl fun _ => rfl

/-- Every action keeps the pump ready. -/
theorem Ready.step (h : r.Ready) (a : ReceiveAction) : (r.step a).Ready := by
  obtain ⟨hsteady, hindex⟩ := r.steady_step a
  have hs := h.stays_step a
  refine ⟨?_, hs.fit⟩
  rw [hs.channel, hindex]
  exact h.attached.steady hsteady

/-- Every run keeps the pump ready, and its halves at their size. -/
theorem Ready.run (h : r.Ready) (actions : List ReceiveAction) :
    (r.run actions).Ready ∧ (r.run actions).pump.half = r.pump.half := by
  induction actions generalizing r with
  | nil => exact ⟨h, rfl⟩
  | cons a actions ih =>
    obtain ⟨hrun, hhalf⟩ := ih (h.step a)
    exact ⟨hrun, hhalf.trans (h.stays_step a).half⟩

/-- A pump that is made on a channel whose controller has stopped is ready. -/
theorem ready_make {m : Machine} {number index half source requested : Nat}
    (hindex : index < m.controllers.size) (htruth : (m.controller index).Truthful)
    (hstop : (m.controller index).current = 0)
    (hr : m.receiveRig number index half source requested = .ok r)
    (hout : source < r.pump.staging ∨ r.pump.staging + 2 * half ≤ source) :
    r.Ready ∧ r.pump.half = half := by
  unfold Machine.receiveRig Machine.createReceivePump at hr
  cases hqueue : ByteQueue.allocate requested with
  | error e =>
    rw [hqueue] at hr
    cases hr
  | ok queue =>
    rw [hqueue] at hr
    cases hhalf : ReceivePump.admissible half with
    | error e =>
      rw [hhalf] at hr
      cases hr
    | ok u =>
      rw [hhalf] at hr
      rcases m.createStream_cases { number, hardware := .controller index } 2
        ReceivePump.config with ⟨e, hmade⟩ | ⟨-, hmade⟩
      · simp only [hmade] at hr
        cases hr
      · simp only [hmade] at hr
        obtain rfl := Except.ok.inj hr
        have hfit := ReceivePump.Fit.made (m.scene index) { number, hardware := .controller index }
          m.ownership.allocate.1 m.ownership.allocate.2 (ByteQueue.valid_allocate hqueue) hhalf
          hstop hout
        exact ⟨⟨⟨rfl, hindex, htruth⟩, hfit⟩, rfl⟩

/-! ## The account of what was received -/

/-- Of the first `consumed` bytes received, each was queued once, in order, or counted once as
dropped. The counter stood at `before` when the pump was started. -/
structure Ledger (before : Nat) (received : List UInt8) (consumed : Nat) (queued : List UInt8)
    (dropped : Nat) : Prop where
  le_length : consumed ≤ received.length
  sublist : queued.Sublist (received.take consumed)
  dropped_eq : dropped = min (before + (consumed - queued.length)) counterLimit

section Ledger

variable {before consumed dropped : Nat} {received queued : List UInt8}

/-- Bytes that are received are not consumed yet. -/
theorem Ledger.receive (h : Ledger before received consumed queued dropped) (more : List UInt8) :
    Ledger before (received ++ more) consumed queued dropped where
  le_length := by
    rw [List.length_append]
    exact Nat.le_trans h.le_length (Nat.le_add_right ..)
  sublist := by
    rw [List.take_append_of_le_length h.le_length]
    exact h.sublist
  dropped_eq := h.dropped_eq

/-- Bytes that are consumed are queued as far as they fit, and the others counted. -/
theorem Ledger.consume (h : Ledger before received consumed queued dropped) (count : Nat)
    {consumed' : Nat} (hle : consumed ≤ consumed') (hlength : consumed' ≤ received.length)
    {data : List UInt8}
    (hdata : (received.drop consumed).take (consumed' - consumed) = data) :
    Ledger before received consumed' (queued ++ data.take count)
      (min (dropped + (data.length - count)) counterLimit) where
  le_length := hlength
  sublist := by
    obtain ⟨more, rfl⟩ := Nat.exists_eq_add_of_le hle
    rw [Nat.add_sub_cancel_left] at hdata
    rw [List.take_add, hdata]
    exact h.sublist.append (List.take_sublist count data)
  dropped_eq := by
    -- bytes that were consumed are queued or counted, so the two differences add up
    have hqueued := h.sublist.length_le
    have hlen : data.length = consumed' - consumed := by
      rw [← hdata, List.length_take, List.length_drop]
      omega
    rw [List.length_take, Nat.min_eq_left h.le_length] at hqueued
    rw [h.dropped_eq, List.length_append, List.length_take]
    omega

/-- As long as nothing was dropped, what was queued is all that was consumed. -/
theorem Ledger.exact (h : Ledger before received consumed queued dropped)
    (hnone : dropped = before) (hbefore : before < counterLimit) :
    queued = received.take consumed := by
  have hqueued := h.sublist.length_le
  have hdropped := h.dropped_eq
  -- a sublist of the same length is the list
  apply h.sublist.eq_of_length_le
  rw [List.length_take, Nat.min_eq_left h.le_length] at hqueued ⊢
  omega

end Ledger

/-- The bytes that were queued since the start: those that were read and those that still wait. -/
def queued (r : ReceiveRig) : List UInt8 :=
  r.taken ++ r.pump.queue.toList

def dropped (r : ReceiveRig) : Nat :=
  r.pump.queue.ring.dropped

/-- What holds of a rig while its pump receives. -/
structure Session (before : Nat) (r : ReceiveRig) (finished consumed : Nat) : Prop where
  ready : r.Ready
  receiving : r.pump.Receiving r.scene r.received finished r.delivered consumed
  raised : r.raised = if finished = r.delivered then [] else [.progress]
  ledger : Ledger before r.received consumed r.queued r.dropped

section Session

variable {before finished consumed : Nat}

theorem Session.finished_eq (h : r.Session before finished consumed) (hraised : r.raised = []) :
    finished = r.delivered := by
  by_cases heq : finished = r.delivered
  · exact heq
  · rw [h.raised, if_neg heq] at hraised
    cases hraised

/-- Bytes that leave the staging area enter the ledger. -/
theorem Session.consume (h : r.Session before finished consumed) {r' : ReceiveRig}
    (hready : r'.Ready) {consumed' count : Nat}
    (hreceiving : r'.pump.Receiving r'.scene r.received finished r'.delivered consumed')
    (hle : consumed ≤ consumed')
    (hpushed : r.pump.queue.Pushed ((r.received.drop consumed).take (consumed' - consumed)) count
      r'.pump.queue)
    (hreceived : r'.received = r.received) (htaken : r'.taken = r.taken)
    (hraised : r'.raised = if finished = r'.delivered then [] else [.progress]) :
    r'.Session before finished consumed' := by
  have hledger := h.ledger.consume count hle hreceiving.consumed_received rfl
  refine ⟨hready, hreceived ▸ hreceiving, hraised, ?_⟩
  rw [hreceived, queued, dropped, htaken, hpushed.toList, hpushed.dropped, ← List.append_assoc]
  exact hledger

/-- A completion is delivered. -/
theorem Session.deliver (h : r.Session before finished consumed) :
    ∃ consumed', (r.step .deliver).Session before finished consumed' := by
  have hready := h.ready.step .deliver
  have hraised := h.raised
  by_cases heq : finished = r.delivered
  · rw [if_pos heq] at hraised
    rw [step_deliver_nil hraised]
    exact ⟨consumed, h⟩
  · -- the controller is one half ahead of the pump
    rw [if_neg heq] at hraised
    obtain rfl := h.receiving.lag.resolve_left heq
    obtain ⟨count, hscene⟩ := h.receiving.exec_onInterrupt
    obtain ⟨hreceiving, hpushed⟩ := h.ready.driven
      (P := fun p v => p.Receiving v r.received (r.delivered + 1) (r.delivered + 1)
          ((r.delivered + 1) * r.pump.half) ∧
        r.pump.queue.Pushed ((r.received.drop consumed).take
          ((r.delivered + 1) * r.pump.half - consumed)) count p.queue) _ Prod.snd hscene
    rw [step_deliver_cons hraised] at hready ⊢
    exact ⟨_, h.consume hready hreceiving h.receiving.consumed_le hpushed rfl rfl (if_pos rfl).symm⟩

/-- The line falls idle, and no completion waits. -/
theorem Session.idle (h : r.Session before finished consumed) (hraised : r.raised = []) :
    ∃ consumed', (r.step .idle).Session before finished consumed' := by
  obtain rfl := h.finished_eq hraised
  obtain ⟨count, consumed', hscene⟩ := h.receiving.exec_onIdle
  obtain ⟨hle, hreceiving, hpushed⟩ := h.ready.driven
    (P := fun p v => consumed ≤ consumed' ∧
      p.Receiving v r.received r.delivered r.delivered consumed' ∧
      r.pump.queue.Pushed ((r.received.drop consumed).take (consumed' - consumed)) count p.queue) _
    Prod.snd hscene
  exact ⟨_, h.consume (h.ready.step .idle) hreceiving hle hpushed rfl rfl h.raised⟩

/-- The controller finishes a half, and no completion waits. -/
theorem Session.finish (h : r.Session before finished consumed) (hraised : r.raised = []) :
    (r.step .finish).Session before (finished + 1) consumed := by
  obtain rfl := h.finished_eq hraised
  obtain ⟨hevent, hreceiving⟩ := h.receiving.finish
  have hscene : (r.step .finish).scene = r.scene.finish := h.ready.attached.scene_finish
  have hraised' : (r.step .finish).raised = [.progress] := by
    show r.raised ++ (r.machine.finish r.index).1.toList = _
    rw [hraised, h.ready.attached.finish_event]
    show [] ++ r.scene.finishEvent.toList = _
    rw [hevent]
    rfl
  refine ⟨h.ready.step .finish, ?_, ?_, h.ledger.receive _⟩
  · rw [hscene]
    exact hreceiving
  · rw [hraised']
    exact (if_neg (Nat.succ_ne_self r.delivered)).symm

/-- What changes neither the pump nor the record leaves the account. -/
theorem Session.still (h : r.Session before finished consumed) {a : ReceiveAction}
    (hreceiving :
      (r.step a).pump.Receiving (r.step a).scene r.received finished r.delivered consumed)
    (hqueue : (r.step a).pump.queue = r.pump.queue) (htaken : (r.step a).taken = r.taken)
    (hreceived : (r.step a).received = r.received) (hdelivered : (r.step a).delivered = r.delivered)
    (hraised : (r.step a).raised = r.raised) : (r.step a).Session before finished consumed where
  ready := h.ready.step a
  receiving := by
    rw [hreceived, hdelivered]
    exact hreceiving
  raised := by
    rw [hraised, hdelivered]
    exact h.raised
  ledger := by
    rw [hreceived, queued, dropped, htaken, hqueue]
    exact h.ledger

/-- Bytes that are read leave the queue at its front. -/
theorem Session.read (h : r.Session before finished consumed) (buffer : List UInt8) :
    (r.step (.read buffer)).Session before finished consumed := by
  obtain ⟨hvalid, hlist, hdropped⟩ := h.receiving.fit.queue.popArray buffer
  have hreceiving : (r.pump.read buffer).2.2.Receiving r.scene r.received finished r.delivered
      consumed := h.receiving.congr hvalid rfl rfl rfl rfl
  refine ⟨h.ready.step _, hreceiving, h.raised, ?_⟩
  have hqueued : (r.step (.read buffer)).queued = r.queued := by
    show r.taken ++ _ ++ _ = r.taken ++ _
    rw [List.append_assoc]
    exact congrArg (r.taken ++ ·) hlist
  have hdropped' : (r.step (.read buffer)).dropped = r.dropped := hdropped
  rw [hqueued, hdropped']
  exact h.ledger

theorem Session.timeout (h : r.Session before finished consumed) :
    (r.step (.interrupt .timeout)).Session before finished consumed := by
  obtain ⟨hreceiving, hqueue⟩ := h.ready.driven
    (P := fun p v => p.Receiving v r.received finished r.delivered consumed ∧
      p.queue = r.pump.queue) _ Prod.snd h.receiving.exec_timeout
  exact h.still hreceiving hqueue rfl rfl rfl rfl

/-- The register lies outside the staging area. -/
theorem Session.present (h : r.Session before finished consumed) (value : UInt8) :
    (r.step (.present value)).Session before finished consumed := by
  have hapart := h.receiving.fit.apart
  have hreceiving := h.receiving.outside (m := r.machine.memory.write r.pump.source value)
    (r.machine.memory.size_write _ _) (by
      intro a hlow hhigh
      rw [Memory.read_write, if_neg (by omega)]
      rfl)
  exact h.still hreceiving rfl rfl rfl rfl rfl

/-- **Every admitted action keeps the account.** -/
theorem Session.step (h : r.Session before finished consumed) {a : ReceiveAction}
    (ha : r.admits a = true) :
    ∃ finished' consumed', (r.step a).Session before finished' consumed' := by
  cases a with
  | start => cases ha
  | stop => cases ha
  | deliver => exact ⟨finished, h.deliver⟩
  | interrupt event =>
    obtain rfl : event = .timeout := of_decide_eq_true ha
    exact ⟨finished, consumed, h.timeout⟩
  | idle => exact ⟨finished, h.idle (List.isEmpty_iff.mp ha)⟩
  | read buffer => exact ⟨finished, consumed, h.read buffer⟩
  | moveElements count =>
    have hscene : (r.step (.moveElements count)).scene = r.scene.moveElements count :=
      h.ready.attached.scene_moveElements count
    refine ⟨finished, consumed, h.ready.step _, ?_, h.raised, h.ledger.receive _⟩
    rw [hscene]
    exact h.receiving.moveElements count
  | finish => exact ⟨finished + 1, consumed, h.finish (List.isEmpty_iff.mp ha)⟩
  | present value => exact ⟨finished, consumed, h.present value⟩
  | fillFifo polls =>
    have hscene : (r.step (.fillFifo polls)).scene = { r.scene with pendingPolls := polls } :=
      h.ready.attached.scene_setController _
    refine ⟨finished, consumed, h.still ?_ rfl rfl rfl rfl rfl⟩
    rw [hscene]
    exact h.receiving.congr h.receiving.fit.queue rfl rfl rfl rfl
  | contend ownership =>
    exact ⟨finished, consumed,
      h.still (h.receiving.congr h.receiving.fit.queue rfl rfl rfl rfl) rfl rfl rfl rfl rfl⟩

/-- A run of admitted actions keeps the account. -/
theorem Session.run (h : r.Session before finished consumed) {actions : List ReceiveAction}
    (hok : r.admitsAll actions = true) :
    ∃ finished' consumed', (r.run actions).Session before finished' consumed' := by
  induction actions generalizing r finished consumed with
  | nil => exact ⟨finished, consumed, h⟩
  | cons a actions ih =>
    obtain ⟨ha, hrest⟩ := Bool.and_eq_true_iff.mp hok
    obtain ⟨finished', consumed', hstep⟩ := h.step ha
    exact ih hstep hrest

end Session

/-- The account opens with a start that succeeds on an empty queue. -/
theorem Ready.start (h : r.Ready) (hstart : r.starts = true)
    (hempty : r.pump.queue.ring.isEmpty = true) : (r.step .start).Session r.dropped 0 0 := by
  obtain ⟨-, hqueue, hreceiving⟩ := h.fit.exec_start
  obtain ⟨hqueue, hreceiving⟩ := h.attached.driven
    (P := fun (x : Except Error Unit × ReceivePump) v =>
      x.2.queue = r.pump.queue ∧ (x.1 = .ok () → x.2.Receiving v [] 0 0 0)) _ id
    ⟨hqueue, hreceiving⟩
  have hok : (r.machine.exec r.hardware r.pump.start).1.1 = .ok () := by
    unfold starts at hstart
    cases hresult : (r.machine.exec r.hardware r.pump.start).1.1 with
    | error e =>
      rw [hresult] at hstart
      cases hstart
    | ok u => rfl
  refine ⟨h.step .start, hreceiving hok, rfl, ?_⟩
  have hqueue' : (r.step .start).pump.queue = r.pump.queue := hqueue
  have hqueued : (r.step .start).queued = [] := by
    have hsize : r.pump.queue.ring.size = 0 := of_decide_eq_true hempty
    show [] ++ (r.step .start).pump.queue.toList = []
    rw [hqueue', List.nil_append]
    exact List.eq_nil_of_length_eq_zero (by rw [ByteQueue.length_toList, hsize])
  have hdropped : (r.step .start).dropped = r.dropped := by rw [dropped, hqueue', dropped]
  rw [hqueued, hdropped]
  exact ⟨Nat.le_refl 0, List.nil_sublist _, (Nat.min_eq_left h.fit.queue.dropped_le).symm⟩

/-- **A receive pump neither loses nor repeats nor reorders a byte.** Whatever happened before, from
a start that succeeds on an empty queue on there is at any time a number of bytes that were
consumed, at least those of all halves whose completion was delivered and at most those that were
received. Each of the bytes consumed was queued once, in order, or counted once as dropped, and no
other byte was queued. As long as none was dropped, those read and those in the queue are all that
were consumed. -/
theorem received_in_order {m : Machine} {number index half source requested : Nat}
    (hindex : index < m.controllers.size) (htruth : (m.controller index).Truthful)
    (hstop : (m.controller index).current = 0)
    (hr : m.receiveRig number index half source requested = .ok r)
    (hout : source < r.pump.staging ∨ r.pump.staging + 2 * half ≤ source)
    (earlier actions : List ReceiveAction) (hstart : (r.run earlier).starts = true)
    (hempty : (r.run earlier).pump.queue.ring.isEmpty = true)
    (hok : ((r.run earlier).step .start).admitsAll actions = true) :
    ∃ consumed,
      Ledger (r.run earlier).dropped (r.run (earlier ++ .start :: actions)).received consumed
        (r.run (earlier ++ .start :: actions)).queued
        (r.run (earlier ++ .start :: actions)).dropped ∧
      (r.run (earlier ++ .start :: actions)).delivered * half ≤ consumed ∧
      ((r.run (earlier ++ .start :: actions)).dropped = (r.run earlier).dropped →
        (r.run earlier).dropped < counterLimit →
        (r.run (earlier ++ .start :: actions)).queued =
          (r.run (earlier ++ .start :: actions)).received.take consumed) := by
  have hsplit : r.run (earlier ++ .start :: actions) = ((r.run earlier).step .start).run actions :=
    List.foldl_append
  obtain ⟨hready, hhalf⟩ := ready_make hindex htruth hstop hr hout
  obtain ⟨hearlier, hhalf'⟩ := hready.run earlier
  have hsession := hearlier.start hstart hempty
  obtain ⟨hrun, hhalf''⟩ := hsession.ready.run actions
  obtain ⟨finished, consumed, h⟩ := hsession.run hok
  rw [hsplit]
  refine ⟨consumed, h.ledger, ?_, h.ledger.exact⟩
  have hge := h.receiving.consumed_ge
  rwa [hhalf'', (hearlier.stays_step .start).half, hhalf', hhalf] at hge

/-- A pump is stopped and started again; its queue of three bytes overflows by one. -/
theorem received_in_order_overflow :
    ∃ r, Machine.receiveRig { memory := ⟨#[7]⟩, controllers := #[{}] } 3 0 2 0 3 = .ok r ∧
      ∃ consumed, 2 * 2 ≤ consumed ∧
        Ledger 0 (r.run [.start, .stop, .start, .moveElements 1, .idle, .present 9, .finish,
          .deliver, .finish, .interrupt .timeout, .deliver]).received consumed [7, 9, 9] 1 := by
  obtain ⟨r, hr⟩ :
      ∃ r, Machine.receiveRig { memory := ⟨#[7]⟩, controllers := #[{}] } 3 0 2 0 3 = .ok r :=
    ⟨_, rfl⟩
  have hbefore :
      ((Machine.receiveRig { memory := ⟨#[7]⟩, controllers := #[{}] } 3 0 2 0 3).toOption.map
        fun r => (r.pump.staging, (r.run [.start, .stop]).starts,
          (r.run [.start, .stop]).pump.queue.ring.isEmpty, (r.run [.start, .stop]).dropped,
          ((r.run [.start, .stop]).step .start).admitsAll [.moveElements 1, .idle, .present 9,
            .finish, .deliver, .finish, .interrupt .timeout, .deliver])) =
        some (1, true, true, 0, true) := by decide +kernel
  have hafter :
      ((Machine.receiveRig { memory := ⟨#[7]⟩, controllers := #[{}] } 3 0 2 0 3).toOption.map
        fun r => ((r.run [.start, .stop, .start, .moveElements 1, .idle, .present 9, .finish,
            .deliver, .finish, .interrupt .timeout, .deliver]).queued,
          (r.run [.start, .stop, .start, .moveElements 1, .idle, .present 9, .finish, .deliver,
            .finish, .interrupt .timeout, .deliver]).dropped,
          (r.run [.start, .stop, .start, .moveElements 1, .idle, .present 9, .finish, .deliver,
            .finish, .interrupt .timeout, .deliver]).delivered)) = some ([7, 9, 9], 1, 2) := by
    decide +kernel
  rw [hr] at hbefore hafter
  replace hbefore := Option.some.inj hbefore
  replace hafter := Option.some.inj hafter
  simp only [Prod.mk.injEq] at hbefore hafter
  obtain ⟨hstaging, hstart, hempty, hzero, hok⟩ := hbefore
  obtain ⟨hqueued, hdropped, hdelivered⟩ := hafter
  obtain ⟨consumed, hledger, hle, -⟩ :=
    received_in_order (by decide) ⟨rfl, rfl, rfl⟩ rfl hr (.inl (by omega)) [.start, .stop]
      [.moveElements 1, .idle, .present 9, .finish, .deliver, .finish, .interrupt .timeout,
        .deliver] hstart hempty hok
  rw [List.cons_append, List.cons_append, List.nil_append] at hledger hle
  rw [hdelivered] at hle
  rw [hqueued, hdropped, hzero] at hledger
  exact ⟨r, hr, consumed, hle, hledger⟩

end ReceiveRig

end ScatterGather
