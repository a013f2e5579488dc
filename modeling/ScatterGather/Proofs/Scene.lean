import ScatterGather.Proofs.Execution

/-!
# ScatterGather.Proofs.Scene — the part of a machine that the progress of one stream depends on

Of everything that drivers share, the progress of a stream depends on little: data and descriptors
in memory, who holds which channel, and where the stream's own controller stands. A `Scene` is that
part, seen from one controller, with a count of its starts. It leaves out what else is only noted
(records, reports, counts of pauses) and all that belongs to other controllers.

`Scene.answer` says what an access means on a scene, for a controller that reads truthfully.
`Machine.scene_exec` is the bridge: driver code that runs on a machine gives the result, and leaves
behind the scene, that it gives and leaves when it runs on the scene alone. The controller's own
moves have the same two readings (`scene_moveElements`, `scene_finish`). Everything about the
streams and pumps is proved on scenes and carried over by these three.
-/

namespace ScatterGather

/-- What the progress of a stream depends on, seen from its controller. -/
structure Scene where
  memory : Memory
  table : DescriptorTable
  ownership : Ownership
  /-- The address of the descriptor being executed, zero when the controller has stopped. -/
  current : Nat
  /-- Elements left in it. -/
  remaining : Nat
  /-- Polls that will still find data in the FIFO. -/
  pendingPolls : Nat
  /-- How often the controller was set to the head of a chain. -/
  starts : Nat

/-- The scene of a controller. -/
def Machine.scene (m : Machine) (i : Nat) : Scene where
  memory := m.memory
  table := m.table
  ownership := m.ownership
  current := (m.controller i).current
  remaining := (m.controller i).remaining
  pendingPolls := (m.controller i).pendingPolls
  starts := (m.controller i).starts

namespace Scene

/-! ## Accesses on a scene -/

/-- The controller goes on to the descriptor at an address, or stops at address zero. -/
def load (v : Scene) (address : Nat) : Scene :=
  { v with
    current := address
    remaining := if address = 0 then 0 else (v.table.read address).elements }

/-- The controller is set to the head of a chain. -/
def start (v : Scene) (head : Nat) : Scene :=
  { v.load head with starts := v.starts + 1 }

/-- The link of the descriptor being executed. -/
def nextLink (v : Scene) : Nat :=
  if v.current = 0 then 0 else (v.table.read v.current).next

/-- What an access means on the scene of a truthful controller. -/
def answer : (a : Access) → Scene → a.Answer × Scene
  | .start head _, v => ((), v.start head)
  | .halt, v => ((), v.load 0)
  | .isActive, v => (decide (v.current ≠ 0), v)
  | .nextPointer, v => (v.nextLink, v)
  | .transferCount, v => (v.remaining, v)
  | .pause, v => ((), v)
  | .resume, v => ((), v)
  | .isPending, v => (decide (v.pendingPolls ≠ 0), { v with pendingPolls := v.pendingPolls - 1 })
  | .bind channel owner, v =>
    ((v.ownership.bind channel owner).1,
      { v with ownership := (v.ownership.bind channel owner).2 })
  | .release channel owner, v =>
    ((), { v with ownership := (v.ownership.release channel owner).2 })
  | .fetch address, v => (v.table.read address, v)
  | .store address write, v => ((), { v with table := v.table.write address write })
  | .load address length, v => (v.memory.readList address length, v)
  | .save address data, v => ((), { v with memory := v.memory.writeList address data })
  | .log _, v => ((), v)
  | .report _, v => ((), v)

/-- Runs driver code on a scene. -/
def exec {α : Type} (v : Scene) (script : DriverScript α) : α × Scene :=
  script.run answer v

section Exec

variable {α β : Type} (v : Scene)

@[simp] theorem exec_pure (value : α) : v.exec (pure value) = (value, v) := rfl

@[simp] theorem exec_perform (a : Access) : v.exec (perform a) = answer a v := rfl

/-- Code that goes on after other code starts from the scene that it left. -/
@[simp] theorem exec_bind (x : DriverScript α) (f : α → DriverScript β) :
    v.exec (x >>= f) = (v.exec x).2.exec (f (v.exec x).1) :=
  Script.run_bind answer x f v

theorem exec_when (condition : Bool) (script : DriverScript Unit) :
    v.exec (Script.when condition script) = if condition then v.exec script else ((), v) := by
  cases condition <;> rfl

theorem exec_ite (p : Prop) [Decidable p] (x y : DriverScript α) :
    v.exec (if p then x else y) = if p then v.exec x else v.exec y := by
  split <;> rfl

end Exec

/-- Driver code does not change how much memory there is. -/
theorem size_exec {α : Type} (v : Scene) (x : DriverScript α) :
    (v.exec x).2.memory.bytes.size = v.memory.bytes.size := by
  have hstep (a : Access) (v : Scene) :
      (answer a v).2.memory.bytes.size = v.memory.bytes.size := by
    cases a with
    | save address data => exact v.memory.size_writeList address data
    | _ => rfl
  induction x generalizing v with
  | done value => rfl
  | ask a next ih => exact (ih _ _).trans (hstep a v)

/-! ## What the controller does on its own -/

/-- The controller moves elements of the block that it executes. -/
def moveElements (v : Scene) (count : Nat) : Scene :=
  if v.current = 0 then v
  else
    let d := v.table.read v.current
    { v with
      memory := v.memory.copyElements d (d.elements - v.remaining) (min count v.remaining)
      remaining := v.remaining - min count v.remaining }

/-- The event that the end of the block being executed raises. -/
def finishEvent (v : Scene) : Option TransferEvent :=
  if v.current = 0 ∨ (v.table.read v.current).interrupts = false then none
  else if v.nextLink = 0 then some .complete else some .progress

/-- The controller finishes the block that it executes and goes on to the next. -/
def finish (v : Scene) : Scene :=
  if v.current = 0 then v else (v.moveElements v.remaining).load v.nextLink

section Moves

variable {v : Scene}

theorem finish_stopped (h : v.current = 0) : v.finish = v := if_pos h

theorem finish_running (h : v.current ≠ 0) :
    v.finish = (v.moveElements v.remaining).load v.nextLink :=
  if_neg h

/-- What moves of the controller have to do with is memory and its own registers, and a move within
a block leaves it at the block. -/
@[simp] theorem current_moveElements (v : Scene) (count : Nat) :
    (v.moveElements count).current = v.current := by
  unfold moveElements
  split <;> rfl

@[simp] theorem table_moveElements (v : Scene) (count : Nat) :
    (v.moveElements count).table = v.table := by
  unfold moveElements
  split <;> rfl

@[simp] theorem ownership_moveElements (v : Scene) (count : Nat) :
    (v.moveElements count).ownership = v.ownership := by
  unfold moveElements
  split <;> rfl

/-- A controller that finishes raises progress or completion. -/
theorem finishEvent_ne_busError (v : Scene) : .busError ∉ v.finishEvent.toList := by
  unfold finishEvent
  split
  · exact List.not_mem_nil
  · split <;> simp

@[simp] theorem table_finish (v : Scene) : v.finish.table = v.table := by
  unfold finish
  split
  · rfl
  · exact table_moveElements v _

@[simp] theorem ownership_finish (v : Scene) : v.finish.ownership = v.ownership := by
  unfold finish
  split
  · rfl
  · exact ownership_moveElements v _

end Moves

end Scene

namespace Machine

variable {m : Machine} {i : Nat}

/-! ## From machines to scenes -/

theorem scene_setController (hi : i < m.controllers.size) (c : Controller) :
    (m.setController i c).scene i =
      { m.scene i with
        current := c.current, remaining := c.remaining, pendingPolls := c.pendingPolls,
        starts := c.starts } := by
  simp only [scene, controller_setController_self m hi, table_setController, memory_setController,
    ownership_setController]

/-- One access of a driver means on the machine what it means on the scene. -/
theorem scene_answer (hi : i < m.controllers.size) (ht : (m.controller i).Truthful) (a : Access) :
    ((answer (.controller i) a m).1, (answer (.controller i) a m).2.scene i) =
      Scene.answer a (m.scene i) := by
  cases a with
  | start head priority => exact Prod.ext rfl (scene_setController hi _)
  | halt => exact Prod.ext rfl (scene_setController hi _)
  | isActive => rfl
  | nextPointer =>
    show ((m.readNext (.controller i)).1, (m.readNext (.controller i)).2.scene i) = _
    simp only [readNext, ht.readNext_eq, setController_controller]
    by_cases hc : (m.controller i).current = 0 <;>
      simp [Scene.answer, Scene.nextLink, Controller.nextLink, Controller.isRunning, scene, hc]
  | transferCount =>
    show ((m.readCount (.controller i)).1, (m.readCount (.controller i)).2.scene i) = _
    simp only [readCount, ht.readCount_eq, setController_controller]
    rfl
  | pause => exact Prod.ext rfl (scene_setController hi _)
  | resume => exact Prod.ext rfl (scene_setController hi _)
  | isPending =>
    show ((m.poll (.controller i)).1, (m.poll (.controller i)).2.scene i) = _
    simp only [poll, scene_setController hi]
    by_cases hp : (m.controller i).pendingPolls = 0 <;>
      simp [Scene.answer, Controller.poll, scene, hp]
  | bind channel owner =>
    simp only [answer, bind, Scene.answer]
    refine Prod.ext rfl ?_
    split <;> rfl
  | release channel owner => rfl
  | fetch address => rfl
  | store address write => rfl
  | load address length => rfl
  | save address data => rfl
  | log r => rfl
  | report r => rfl

/-- **Driver code means on the machine what it means on the scene.** -/
theorem scene_exec {α : Type} (hi : i < m.controllers.size) (ht : (m.controller i).Truthful)
    (x : DriverScript α) :
    ((m.exec (.controller i) x).1, (m.exec (.controller i) x).2.scene i) =
      (m.scene i).exec x := by
  induction x generalizing m with
  | done value => rfl
  | ask a next ih =>
    have hs := steady_answer (i := i) (.controller i) a m
    have ha := scene_answer hi ht a
    rw [Scene.exec, Script.run_ask, ← ha]
    exact ih _ (hs.controllers ▸ hi) (hs.truthful ht)

theorem scene_moveElements (hi : i < m.controllers.size) (count : Nat) :
    (m.moveElements i count).scene i = (m.scene i).moveElements count := by
  unfold moveElements Controller.moveElements Scene.moveElements
  by_cases hc : (m.controller i).current = 0
  · simp only [Controller.isRunning, hc, ne_eq, not_true, decide_false, Bool.false_eq_true,
      if_false, setController_controller]
    rw [if_pos (show (m.scene i).current = 0 from hc)]
  · simp only [Controller.isRunning, hc, ne_eq, not_false_iff, decide_true, if_true]
    rw [if_neg (show ¬(m.scene i).current = 0 from hc)]
    exact (scene_setController (by exact hi) _).trans rfl

theorem scene_finish (hi : i < m.controllers.size) :
    ((m.finish i).1, (m.finish i).2.scene i) = ((m.scene i).finishEvent, (m.scene i).finish) := by
  have hmove := scene_moveElements hi (m.controller i).remaining
  unfold finish
  by_cases hc : (m.controller i).current = 0
  · have hs : (m.scene i).current = 0 := hc
    simp only [Controller.finish_stopped m.table m.memory hc, setController_controller,
      Scene.finishEvent, Scene.finish, hs, true_or, if_true]
  · have hs : ¬(m.scene i).current = 0 := hc
    simp only [Controller.finish_running m.table m.memory hc, Scene.finishEvent, Scene.finish, hs,
      false_or, if_false, Scene.nextLink]
    refine Prod.ext ?_ ?_
    · by_cases hirq : (m.table.read (m.controller i).current).interrupts = false <;>
        by_cases hn : (m.table.read (m.controller i).current).next = 0 <;>
        simp [scene, hirq, hn]
    · refine (scene_setController (by exact hi) _).trans ?_
      show _ = ((m.scene i).moveElements (m.controller i).remaining).load _
      rw [← hmove]
      simp only [moveElements]
      rw [scene_setController (by exact hi)]
      rfl

/-! ## Drivers on a controller -/

/-- A channel belongs to a controller that reads truthfully. -/
structure Attached (m : Machine) (channel : Channel) (i : Nat) : Prop where
  hardware : channel.hardware = .controller i
  index_lt : i < m.controllers.size
  truthful : (m.controller i).Truthful

namespace Attached

variable {channel : Channel} (h : m.Attached channel i)

include h

/-- Driver code on the channel means what it means on the scene. -/
theorem exec {α : Type} (x : DriverScript α) :
    (m.exec channel.hardware x).1 = ((m.scene i).exec x).1 ∧
      (m.exec channel.hardware x).2.scene i = ((m.scene i).exec x).2 := by
  rw [h.hardware]
  exact Prod.ext_iff.mp (scene_exec h.index_lt h.truthful x)

/-- What driver code achieves on the scene it achieves on the machine. -/
theorem driven {α β : Type} {P : β → Scene → Prop} (x : DriverScript α) (part : α → β)
    (hx : P (part ((m.scene i).exec x).1) ((m.scene i).exec x).2) :
    P (part (m.exec channel.hardware x).1) ((m.exec channel.hardware x).2.scene i) := by
  rw [(h.exec x).1, (h.exec x).2]
  exact hx

theorem steady {m' : Machine} (hs : Steady i m m') : m'.Attached channel i :=
  ⟨h.hardware, hs.controllers ▸ h.index_lt, hs.truthful h.truthful⟩

theorem scene_moveElements (count : Nat) :
    (m.moveElements i count).scene i = (m.scene i).moveElements count :=
  Machine.scene_moveElements h.index_lt count

theorem scene_finish : (m.finish i).2.scene i = (m.scene i).finish :=
  congrArg Prod.snd (Machine.scene_finish h.index_lt)

theorem finish_event : (m.finish i).1 = (m.scene i).finishEvent :=
  congrArg Prod.fst (Machine.scene_finish h.index_lt)

theorem scene_setController (c : Controller) :
    (m.setController i c).scene i =
      { m.scene i with
        current := c.current, remaining := c.remaining, pendingPolls := c.pendingPolls,
        starts := c.starts } :=
  Machine.scene_setController h.index_lt c

end Attached

end Machine

end ScatterGather
