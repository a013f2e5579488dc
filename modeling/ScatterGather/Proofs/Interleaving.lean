import ScatterGather.Proofs.Rig

/-!
# ScatterGather.Proofs.Interleaving — a controller that goes on under its driver

`Rig.step` lets an operation of the stream run to its end before anything else happens. In truth
the controller does not wait: it can move between any two accesses of the driver. `Rig.execAmid`
runs the same driver code at a *pace*, a list that names for each access in turn what happens right
before it. With nothing in the pace this is plain execution (`execAmid_nil`).

The controller's own moves (`Action.autonomous`) take no notice of the stream, so what they do can
be told without knowing how far the driver has come (`run_withStream`).
-/

namespace ScatterGather

/-- Whether an action is the controller's own. -/
def Action.autonomous : Action → Bool
  | .moveElements _ | .finish => true
  | _ => false

namespace Rig

variable {r : Rig}

/-! ## Driver code at a pace -/

/-- Makes one access, after all that the pace names for it. -/
def answerAmid (a : Access) (p : Rig × List (List Action)) :
    a.Answer × (Rig × List (List Action)) :=
  let r := p.1.run (p.2.headD [])
  let (answer, machine) := Machine.answer r.hardware a r.machine
  (answer, { r with machine }, p.2.tail)

/-- Runs driver code for the stream while other things happen. -/
def execAmid {α : Type} (r : Rig) (pace : List (List Action)) (x : DriverScript α) : α × Rig :=
  let (value, r, _) := x.run answerAmid (r, pace)
  (value, r)

/-- A block is queued while other things happen. -/
def appendAmid (r : Rig) (pace : List (List Action)) (destination source size : Nat) : Rig :=
  let ((result, stream), r') := r.execAmid pace (r.stream.append destination source size)
  { r' with
    stream, accepted := r'.accepted ++ r.stream.requested destination source size result }

/-- When nothing happens in between, driver code runs as it always does. -/
theorem execAmid_nil {α : Type} (r : Rig) (x : DriverScript α) :
    r.execAmid [] x =
      ((r.machine.exec r.hardware x).1,
        { r with machine := (r.machine.exec r.hardware x).2 }) := by
  have hrun (r : Rig) : x.run answerAmid (r, []) = ((r.machine.exec r.hardware x).1,
      { r with machine := (r.machine.exec r.hardware x).2 }, []) := by
    induction x generalizing r with
    | done value => rfl
    | ask a next ih => exact ih _ { r with machine := (Machine.answer r.hardware a r.machine).2 }
  rw [execAmid, hrun]

/-- Queueing at no pace is queueing. -/
theorem appendAmid_nil (r : Rig) (destination source size : Nat) :
    r.appendAmid [] destination source size = r.step (.append destination source size) := by
  rw [appendAmid, execAmid_nil]
  rfl

/-! ## The controller's own moves -/

theorem step_withStream {a : Action} (ha : a.autonomous = true) (stream : Stream) :
    ({ r with stream } : Rig).step a = { r.step a with stream } := by
  cases a with
  | moveElements | finish => rfl
  | _ => cases ha

/-- The controller moves in the same way whatever the driver knows of it. -/
theorem run_withStream {moves : List Action} (hmoves : ∀ a ∈ moves, a.autonomous = true)
    (stream : Stream) : ({ r with stream } : Rig).run moves = { r.run moves with stream } := by
  induction moves generalizing r with
  | nil => rfl
  | cons a moves ih =>
    show (({ r with stream } : Rig).step a).run moves = { (r.step a).run moves with stream }
    rw [step_withStream (hmoves a List.mem_cons_self)]
    exact ih fun b hb => hmoves b (List.mem_cons_of_mem a hb)

theorem stream_run {moves : List Action} (hmoves : ∀ a ∈ moves, a.autonomous = true) :
    (r.run moves).stream = r.stream := by
  have hrun : r.run moves = { r.run moves with stream := r.stream } :=
    run_withStream hmoves r.stream
  rw [hrun]

/-- A controller that has stopped stays stopped, and executes nothing more. -/
theorem Attached.step_stopped (h : r.Attached) (hc : r.controller.current = 0) {a : Action}
    (ha : a.autonomous = true) :
    (r.step a).controller.current = 0 ∧ (r.step a).executed = r.executed := by
  have hscene : r.scene.current = 0 := hc
  cases a with
  | moveElements count =>
    refine ⟨?_, rfl⟩
    show ((r.machine.moveElements r.index count).scene r.index).current = 0
    rw [h.scene_moveElements, Scene.current_moveElements]
    exact hc
  | finish =>
    have hnone : r.executing = [] :=
      if_neg (show ¬decide (r.controller.current ≠ 0) = true by simp [hc])
    refine ⟨?_, ?_⟩
    · show ((r.machine.finish r.index).2.scene r.index).current = 0
      rw [h.scene_finish]
      exact (congrArg Scene.current (Scene.finish_stopped hscene)).trans hc
    · show r.executed ++ r.executing = r.executed
      rw [hnone, List.append_nil]
  | _ => cases ha

end Rig

end ScatterGather
