import ScatterGather.Proofs.Backlog

/-!
# ScatterGather.Proofs.Rig — a stream, its machine, and all that can happen to them

A `Rig` is a stream on a machine together with a record of what was asked of it (`accepted`), what
its controller has carried out (`executed`), and which events were raised but not delivered yet. An
`Action` is one thing that can happen: an operation of the stream, a move of the controller, the
delivery of an event that was raised, or of one that was not. `Rig.run` lets any actions happen in
any order.

The record is only written, never read, but for `raised`, which says what `deliver` delivers.
-/

namespace ScatterGather

/-- One thing that can happen to a stream. -/
inductive Action where
  | append (destination source size : Nat)
  | configure (settings : TransferSettings)
  | setCallback (callback : Option Callback)
  | enable
  | disable
  | clear
  /-- The oldest event that the controller raised is delivered. -/
  | deliver
  /-- An event is delivered, whether the controller raised it or not. -/
  | interrupt (event : TransferEvent)
  | moveElements (count : Nat)
  | finish
  /-- The FIFO will be found with data in it so many times. -/
  | fillFifo (polls : Nat)
  /-- A stream that is not bound is moved to other descriptors. -/
  | relocate
  /-- Others claim channels and give them back. -/
  | contend (ownership : Ownership)

/-- Whether an action writes more to descriptors than links and interrupt flags. -/
def Action.programs : Action → Bool
  | .append .. | .relocate => true
  | _ => false

/-- A stream on its machine, with a record of what happened. -/
structure Rig where
  machine : Machine
  stream : Stream
  /-- The controller behind the stream's channel. -/
  index : Nat
  /-- Events that the controller raised and that were not delivered, oldest first. -/
  raised : List TransferEvent := []
  /-- Blocks that the stream took, in order. -/
  accepted : List Block := []
  /-- Blocks that the controller finished, in order, each as it was when it was finished. -/
  executed : List Block := []

/-- Makes a stream on the channel of a controller. -/
def Machine.rig (m : Machine) (number index capacity : Nat) (config : StreamConfig) :
    Except ConfigError Rig :=
  match m.createStream { number, hardware := .controller index } capacity config with
  | (.error e, _) => .error e
  | (.ok stream, machine) => .ok { machine, stream, index }

/-- A stream that was made is idle, on a channel that exists. -/
theorem Machine.rig_ok {m : Machine} {number index capacity : Nat} {config : StreamConfig} {r : Rig}
    (hr : m.rig number index capacity config = .ok r) :
    number < maxChannels ∧
      r =
        { machine := { m with
            ownership := m.ownership.allocate.2, table := (m.table.allocate capacity).2 }
          stream := .idle { number, hardware := .controller index } m.ownership.allocate.1
            (m.table.allocate capacity).1 capacity config
          index } := by
  unfold rig at hr
  rcases m.createStream_cases { number, hardware := .controller index } capacity config with
    ⟨e, hmade⟩ | ⟨hnumber, hmade⟩
  · rw [hmade] at hr
    cases hr
  · rw [hmade] at hr
    exact ⟨hnumber, (Except.ok.inj hr).symm⟩

namespace Rig

def controller (r : Rig) : Controller :=
  r.machine.controller r.index

def hardware (r : Rig) : Hardware :=
  r.stream.channel.hardware

/-- The block that the controller executes, as it now stands in memory. -/
def executing (r : Rig) : List Block :=
  if r.controller.isRunning then [(r.machine.table.read r.controller.current).block] else []

/-- An event is delivered to the stream. -/
def interrupt (r : Rig) (event : TransferEvent) : Rig :=
  let ((_, stream), machine) := r.machine.exec r.hardware (r.stream.onInterrupt event)
  { r with machine, stream }

/-- What an action does. -/
def step (r : Rig) : Action → Rig
  | .append destination source size =>
    let ((result, stream), machine) :=
      r.machine.exec r.hardware (r.stream.append destination source size)
    { r with
      machine, stream,
      accepted := r.accepted ++ r.stream.requested destination source size result }
  | .configure settings => { r with stream := (r.stream.configure settings).2 }
  | .setCallback callback =>
    let (stream, machine) := r.machine.exec r.hardware (r.stream.setCallback callback)
    { r with machine, stream }
  | .enable =>
    let ((_, stream), machine) := r.machine.exec r.hardware r.stream.enable
    { r with machine, stream }
  | .disable =>
    let (stream, machine) := r.machine.exec r.hardware r.stream.disable
    { r with machine, stream }
  | .clear =>
    let (stream, machine) := r.machine.exec r.hardware r.stream.clear
    { r with machine, stream }
  -- delivery takes the oldest event; an event that nobody raised takes none
  | .deliver =>
    match r.raised with
    | [] => r
    | event :: raised => { r.interrupt event with raised }
  | .interrupt event => r.interrupt event
  | .moveElements count => { r with machine := r.machine.moveElements r.index count }
  | .finish =>
    let (event, machine) := r.machine.finish r.index
    { r with
      machine, raised := r.raised ++ event.toList, executed := r.executed ++ r.executing }
  | .fillFifo polls =>
    { r with
      machine := r.machine.setController r.index { r.controller with pendingPolls := polls } }
  -- a stream that is bound stays where it is
  | .relocate =>
    if r.stream.bound then r
    else
      let (stream, machine) := r.machine.relocate r.stream
      { r with machine, stream }
  | .contend ownership => { r with machine := { r.machine with ownership } }

/-- What actions do, one after another. -/
def run (r : Rig) (actions : List Action) : Rig :=
  actions.foldl step r

theorem run_append (r : Rig) (actions later : List Action) :
    r.run (actions ++ later) = (r.run actions).run later :=
  List.foldl_append

/-- What holds at first and is kept by every action holds after every run. -/
theorem run_induction {P : Rig → Prop} {r : Rig} {Q : Action → Prop} (h : P r)
    (step : ∀ r a, Q a → P r → P (r.step a)) (actions : List Action) (hQ : ∀ a ∈ actions, Q a) :
    P (r.run actions) := by
  induction actions generalizing r with
  | nil => exact h
  | cons a actions ih =>
    exact ih (step r a (hQ a List.mem_cons_self) h)
      fun b hb => hQ b (List.mem_cons_of_mem a hb)

/-! ## The scene of a rig -/

def scene (r : Rig) : Scene :=
  r.machine.scene r.index

/-- The stream is on the channel of its own controller, which reads truthfully. -/
def Attached (r : Rig) : Prop :=
  r.machine.Attached r.stream.channel r.index

variable {r : Rig}

/-- What driver code achieves for the stream on the scene it achieves on the machine. -/
theorem Attached.driven {α : Type} (h : r.Attached) {P : Stream → Scene → Prop}
    (x : DriverScript α) (stream : α → Stream)
    (hx : P (stream (r.scene.exec x).1) (r.scene.exec x).2) :
    P (stream (r.machine.exec r.hardware x).1)
      ((r.machine.exec r.hardware x).2.scene r.index) :=
  Machine.Attached.driven h x stream hx

/-- What every access keeps, and an operation that leaves the stream on its channel, keep the stream
attached. -/
theorem Attached.steady {r' : Rig} (h : r.Attached) (hs : r.stream.Same r'.stream)
    (hm : Machine.Steady r.index r.machine r'.machine) (hi : r'.index = r.index) : r'.Attached := by
  unfold Attached
  rw [hs.channel, hi]
  exact Machine.Attached.steady h hm

theorem step_deliver_nil (h : r.raised = []) : r.step .deliver = r := by
  simp only [step, h]

theorem step_deliver_cons {event : TransferEvent} {raised : List TransferEvent}
    (h : r.raised = event :: raised) : r.step .deliver = { r.interrupt event with raised } := by
  simp only [step, h]

theorem step_relocate_bound (h : r.stream.bound = true) : r.step .relocate = r :=
  if_pos h

theorem step_relocate_unbound (h : r.stream.bound = false) :
    r.step .relocate =
      { r with
        machine := (r.machine.relocate r.stream).2, stream := (r.machine.relocate r.stream).1 } :=
  if_neg (by rw [h]; exact Bool.false_ne_true)

/-! ## What no action changes -/

theorem Attached.same_interrupt (h : r.Attached) (event : TransferEvent) :
    r.stream.Same (r.interrupt event).stream :=
  h.driven (P := fun s _ => r.stream.Same s) _ Prod.snd
    (r.stream.kept_onInterrupt r.scene event).same

/-- No action changes what is settled when a stream is made. -/
theorem Attached.same_step (h : r.Attached) (a : Action) : r.stream.Same (r.step a).stream := by
  have hdriven {α : Type} := h.driven (P := fun s _ => r.stream.Same s) (α := α)
  cases a with
  | append destination source size =>
    exact hdriven _ Prod.snd (r.stream.kept_append r.scene destination source size).same
  | configure settings => exact r.stream.same_configure settings
  | setCallback callback => exact hdriven _ id (r.stream.same_setCallback r.scene callback)
  | enable => exact hdriven _ Prod.snd (r.stream.kept_enable r.scene).same
  | disable => exact hdriven _ id (r.stream.kept_disable r.scene).same
  | clear => exact hdriven _ id (r.stream.kept_clear r.scene).same
  | deliver =>
    cases hraised : r.raised with
    | nil =>
      rw [step_deliver_nil hraised]
      exact .refl _
    | cons event raised =>
      rw [step_deliver_cons hraised]
      exact h.same_interrupt event
  | interrupt event => exact h.same_interrupt event
  | relocate =>
    by_cases hb : r.stream.bound = true
    · rw [step_relocate_bound hb]
      exact .refl _
    · rw [step_relocate_unbound (Bool.eq_false_iff.mpr hb)]
      exact ⟨rfl, rfl, rfl, rfl, rfl⟩
  | moveElements | finish | fillFifo | contend => exact .refl _

theorem Attached.interrupt (h : r.Attached) (event : TransferEvent) :
    (r.interrupt event).Attached :=
  h.steady (h.same_interrupt event) (Machine.steady_exec r.machine r.hardware _) rfl

theorem Attached.step (h : r.Attached) (a : Action) : (r.step a).Attached := by
  have hs := h.same_step a
  cases a with
  | append | setCallback | enable | disable | clear =>
    exact h.steady hs (Machine.steady_exec r.machine r.hardware _) rfl
  | configure => exact h.steady hs (.refl _) rfl
  | interrupt event => exact h.interrupt event
  | deliver =>
    cases hraised : r.raised with
    | nil => rwa [step_deliver_nil hraised]
    | cons event raised =>
      rw [step_deliver_cons hraised]
      exact h.interrupt event
  | moveElements count =>
    exact h.steady hs (Machine.steady_moveElements r.machine r.index count) rfl
  | finish => exact h.steady hs (Machine.steady_finish r.machine r.index) rfl
  | fillFifo polls => exact h.steady hs (.setController r.machine fun ht => ht) rfl
  | relocate =>
    by_cases hb : r.stream.bound = true
    · rwa [step_relocate_bound hb]
    · rw [step_relocate_unbound (Bool.eq_false_iff.mpr hb)]
      exact ⟨h.hardware, h.index_lt, h.truthful⟩
  | contend => exact ⟨h.hardware, h.index_lt, h.truthful⟩

/-! ## Soundness of a rig -/

/-- Where the controller stands after an action. -/
def offsetAfter (r : Rig) (k : Nat) : Action → Nat
  | .append .. | .configure _ | .setCallback _ | .enable => k
  | .moveElements _ | .fillFifo _ | .relocate | .contend _ => k
  | .disable | .clear => 0
  | .deliver =>
    match r.raised with
    | [] => k
    | event :: _ => r.stream.offsetAfter event k
  | .interrupt event => r.stream.offsetAfter event k
  | .finish => if r.scene.current = 0 then k else r.stream.follow k

section Sound

variable {k : Nat} (ha : r.Attached) (h : r.stream.Sound r.scene k)

include ha h

theorem Attached.sound_interrupt (event : TransferEvent) :
    (r.interrupt event).stream.Sound (r.interrupt event).scene (r.stream.offsetAfter event k) :=
  ha.driven (P := fun s v => s.Sound v (r.stream.offsetAfter event k)) _ Prod.snd
    (h.exec_onInterrupt event)

/-- Every action keeps the stream sound. -/
theorem Attached.sound_step (a : Action) :
    (r.step a).stream.Sound (r.step a).scene (r.offsetAfter k a) := by
  have hdriven {α : Type} (k' : Nat) := ha.driven (P := fun s v => s.Sound v k') (α := α)
  cases a with
  | append destination source size =>
    exact hdriven k _ Prod.snd (h.exec_append destination source size)
  | configure settings => exact h.configure settings
  | setCallback callback => exact hdriven k _ id (h.exec_setCallback callback)
  | enable => exact hdriven k _ Prod.snd h.exec_enable
  | disable => exact hdriven 0 _ id h.exec_disable
  | clear => exact hdriven 0 _ id h.exec_clear
  | deliver =>
    cases hraised : r.raised with
    | nil =>
      rw [step_deliver_nil hraised, offsetAfter, hraised]
      exact h
    | cons event raised =>
      rw [step_deliver_cons hraised, offsetAfter, hraised]
      exact ha.sound_interrupt h event
  | interrupt event => exact ha.sound_interrupt h event
  | moveElements count =>
    have hm := h.moveElements count
    rwa [scene, ← ha.scene_moveElements] at hm
  | finish =>
    have hf := h.finish
    rwa [scene, ← ha.scene_finish] at hf
  | fillFifo polls =>
    show r.stream.Sound ((r.machine.setController r.index _).scene r.index) k
    rw [ha.scene_setController]
    exact h.congr rfl rfl h.template rfl rfl rfl rfl fun _ => rfl
  | relocate =>
    by_cases hb : r.stream.bound = true
    · rw [step_relocate_bound hb]
      exact h
    · rw [step_relocate_unbound (Bool.eq_false_iff.mpr hb)]
      exact h.relocate (Bool.eq_false_iff.mpr hb)
  | contend ownership => exact h.congr rfl rfl h.template rfl rfl rfl rfl fun _ => rfl

end Sound

theorem Attached.body_step {k : Nat} (ha : r.Attached) (h : r.stream.Sound r.scene k) {a : Action}
    (hprograms : a.programs = false) (address : Nat) :
    ((r.step a).machine.table.read address).body = (r.machine.table.read address).body := by
  have hdriven {α : Type} (x : DriverScript α) (stream : α → Stream) :=
    ha.driven (P := fun _ v => (v.table.read address).body = (r.scene.table.read address).body) x
      stream
  have hinterrupt (event : TransferEvent) :
      ((r.interrupt event).machine.table.read address).body =
        (r.machine.table.read address).body :=
    hdriven _ Prod.snd (by rw [Stream.table_onInterrupt])
  cases a with
  | append destination source size => cases hprograms
  | relocate => cases hprograms
  | setCallback callback => exact hdriven _ id (Stream.body_setCallback h.sits address callback)
  | enable => exact hdriven _ Prod.snd (Stream.body_enable h.sits address)
  | disable => exact hdriven _ id (by rw [Stream.table_disable])
  | clear => exact hdriven _ id (by rw [Stream.table_clear])
  | deliver =>
    cases hraised : r.raised with
    | nil => rw [step_deliver_nil hraised]
    | cons event raised =>
      rw [step_deliver_cons hraised]
      exact hinterrupt event
  | interrupt event => exact hinterrupt event
  | configure | moveElements | finish | fillFifo | contend => rfl

/-- A stream that is made on a channel whose controller has stopped is attached and at rest. -/
theorem sound_make {m : Machine} {number index capacity : Nat} {config : StreamConfig}
    (hcap : 0 < capacity) (hindex : index < m.controllers.size)
    (htruth : (m.controller index).Truthful) (hstop : (m.controller index).current = 0)
    (hr : m.rig number index capacity config = .ok r) :
    r.Attached ∧ r.stream.Sound r.scene 0 := by
  obtain ⟨-, rfl⟩ := Machine.rig_ok hr
  exact ⟨⟨rfl, hindex, htruth⟩, Stream.Sound.idle (m.scene index) hcap hstop _ _ _ _⟩

/-- Whatever happens to a rig, its stream stays attached and sound. -/
theorem sound_run {m : Machine} {number index capacity : Nat} {config : StreamConfig}
    (hcap : 0 < capacity) (hindex : index < m.controllers.size)
    (htruth : (m.controller index).Truthful) (hstop : (m.controller index).current = 0)
    (hr : m.rig number index capacity config = .ok r) (actions : List Action) :
    (r.run actions).Attached ∧ ∃ k, (r.run actions).stream.Sound (r.run actions).scene k := by
  obtain ⟨ha, h⟩ := sound_make hcap hindex htruth hstop hr
  exact run_induction (P := fun r => r.Attached ∧ ∃ k, r.stream.Sound r.scene k)
    (Q := fun _ => True) ⟨ha, 0, h⟩
    (fun _ a _ hr => ⟨hr.1.step a, hr.2.elim fun _ hs => ⟨_, hr.1.sound_step hs a⟩⟩)
    actions (fun _ _ => trivial)

end Rig

end ScatterGather
