import ScatterGather.Proofs.Position
import ScatterGather.Proofs.Tending

/-!
# ScatterGather.Proofs.Residue — what is left of the block being executed

`Stream.residue` reads a count that belongs to some descriptor, and has to know to which. It works
out the position of the controller, and takes the pointer to the next descriptor for a witness that
the position still holds. On a controller that runs the witness is a good one: the answer is the
count of elements left times the width of the descriptor being executed.

On a controller that has stopped the witness can mislead. The pointer then reads zero, and so does
the link of the block in front of which the controller stopped, but only as long as nothing is
queued behind that block. `Watch.measures_run` says what is answered in every case, with the late
blocks counted by a watcher; with two of them the answer is an error although nothing moves, and
asking again does not help (`Watch.unstable_though_still`).
-/

namespace ScatterGather

/-! ## A controller that has stopped has nothing left -/

/-- A controller that has stopped has no elements left. -/
def Scene.Spent (v : Scene) : Prop :=
  v.current = 0 → v.remaining = 0

namespace Scene

variable {v : Scene}

theorem spent_load (v : Scene) (address : Nat) : (v.load address).Spent :=
  fun hc => if_pos hc

theorem Spent.answer (h : v.Spent) (a : Access) : (Scene.answer a v).2.Spent := by
  cases a with
  | start head priority => exact v.spent_load head
  | halt => exact v.spent_load 0
  | _ => exact h

theorem Spent.exec {α : Type} (h : v.Spent) (x : DriverScript α) : (v.exec x).2.Spent :=
  Script.run_preserves (R := fun v v' : Scene => v.Spent → v'.Spent) (fun _ h => h)
    (fun h h' hv => h' (h hv)) Scene.answer (fun a _ h => h.answer a) x v h

theorem Spent.moveElements (h : v.Spent) (count : Nat) : (v.moveElements count).Spent := by
  intro hc
  rw [current_moveElements] at hc
  rw [Scene.moveElements, if_pos hc]
  exact h hc

theorem Spent.finish (h : v.Spent) : v.finish.Spent := by
  by_cases hc : v.current = 0
  · rwa [finish_stopped hc]
  · rw [finish_running hc]
    exact spent_load _ _

end Scene

namespace Stream

variable {s : Stream} {v : Scene} {k : Nat}

/-- What is left in the controller of a stream is known only once the stream has set it to a chain;
before, others may have left anything there. -/
def Clean (s : Stream) (v : Scene) : Prop :=
  s.bound = true → v.Spent

/-- Only `enable` takes the channel, so whatever else a stream does leaves its controller clean. -/
theorem Clean.exec {α : Type} (h : s.Clean v) (x : DriverScript α) (stream : α → Stream)
    (hb : s.bound = false → (stream (v.exec x).1).bound = false) :
    (stream (v.exec x).1).Clean (v.exec x).2 := by
  intro hbound
  cases hs : s.bound with
  | true => exact (h hs).exec x
  | false =>
    rw [hb hs] at hbound
    cases hbound

theorem Clean.exec_enable (h : s.Clean v) : (v.exec s.enable).1.2.Clean (v.exec s.enable).2 := by
  by_cases hb : s.bound ∨ s.pool.queued = 0
  · rw [Stream.exec_enable, if_pos hb]
    exact h
  · obtain ⟨hunbound, hq⟩ := not_or.mp hb
    rcases enable_cases (v := v) (Bool.eq_false_iff.mpr hunbound) hq with
      ⟨e, ownership, hexec⟩ | ⟨ownership, hexec⟩
    · rw [hexec]
      exact h
    · -- a stream that takes the channel sets the controller to the head
      rw [hexec]
      exact fun _ => Scene.spent_load _ _

theorem bound_onInterrupt (hb : s.bound = false) (event : TransferEvent) :
    (v.exec (s.onInterrupt event)).1.2.bound = false := by
  rw [Stream.exec_onInterrupt, if_neg (by rw [hb]; exact Bool.false_ne_true)]
  exact hb

theorem bound_disable : (v.exec s.disable).1.bound = false := by
  rw [Stream.exec_disable]
  split
  · rfl
  · next hb => exact Bool.eq_false_iff.mpr hb

theorem bound_clear : (v.exec s.clear).1.bound = false := by
  rw [Stream.exec_clear]
  split
  · rfl
  · next hb => exact Bool.eq_false_iff.mpr hb

theorem bound_configure (settings : TransferSettings) :
    (s.configure settings).2.bound = s.bound := by
  unfold configure
  split
  · rfl
  · split <;> rfl

/-! ## The answer on a controller that does not move -/

theorem Sound.leftover_running (h : s.Sound v k) (hc : v.current ≠ 0) :
    s.leftover v = .ok (v.remaining * (v.table.read v.current).elementBytes) := by
  obtain ⟨hb, hq, hcur⟩ := h.executing hc
  have hnext : v.nextLink = (v.table.read (s.pool.addressAt k)).next := by
    rw [Scene.nextLink, if_neg hc, hcur]
  have hon : ¬(s.bound = false ∨ s.pool.queued ≤ k) := by
    simp [hb, hq]
  rw [leftover, h.standing_eq hb, if_neg hon, if_neg (fun hne => hne hnext), hcur]

/-- A controller that stopped in front of a block reads a null pointer, and so does the link of that
block if nothing was queued behind it. -/
theorem Sound.leftover_stopped (h : s.Sound v k) (hb : s.bound = true) (hspent : v.Spent)
    (hc : v.current = 0) :
    s.leftover v = if s.pool.queued - k ≤ 1 then .ok 0 else .error .residueUnstable := by
  have he := h.engaged hb
  have hm : s.isCircular = false := Bool.eq_false_iff.mpr fun hm => he.circular hm hc
  have hnext : v.nextLink = 0 := if_pos hc
  rw [leftover, h.standing_eq hb, hnext, hspent hc, Nat.zero_mul]
  by_cases hle : s.pool.queued ≤ k
  · rw [if_pos (.inr hle), if_pos (by omega)]
  · have hon : ¬(s.bound = false ∨ s.pool.queued ≤ k) := by
      simp [hb, hle]
    have hlink : (v.table.read (s.pool.addressAt k)).next =
        if k + 1 < s.pool.queued then s.pool.addressAt (k + 1) else 0 := by
      rw [he.linked k (by omega), Pool.linkAt, hm]
      rfl
    rw [if_neg hon, hlink]
    by_cases hlast : k + 1 < s.pool.queued
    · have hne : 0 ≠ s.pool.addressAt (k + 1) := (h.sits.addressAt_ne_zero _).symm
      rw [if_pos hlast, if_pos hne, if_neg (by omega)]
    · rw [if_neg hlast, if_neg (fun hne => hne rfl), if_pos (by omega)]

end Stream

/-! ## Asking disturbs nothing -/

/-- An access that only reads. -/
def Access.Reading : Access → Prop
  | isActive | nextPointer | transferCount | fetch _ => True
  | _ => False

namespace Stream

theorem reading_residue (s : Stream) : s.residue.Uses Access.Reading fun _ => True := by
  unfold residue
  split
  · exact .done trivial
  · refine (s.uses_executingOffset trivial trivial).bind fun offset _ => ?_
    split
    · exact .done trivial
    · refine (uses_perform (.fetch _) trivial).bind fun current _ => ?_
      refine (uses_perform .nextPointer trivial).bind fun before _ => ?_
      split
      · exact .done trivial
      · refine (uses_perform .transferCount trivial).bind fun count _ => ?_
        refine (uses_perform .nextPointer trivial).bind fun after _ => ?_
        split <;> exact .done trivial

end Stream

namespace Machine.Attached

variable {m : Machine} {channel : Channel} {i : Nat}

/-- A truthful controller does not notice that it is read. -/
theorem answer_reading (h : m.Attached channel i) {a : Access} (ha : a.Reading) :
    (answer channel.hardware a m).2 = m := by
  rw [h.hardware]
  cases a with
  | isActive => rfl
  | nextPointer =>
    show (m.readNext (.controller i)).2 = m
    simp only [readNext, h.truthful.readNext_eq, setController_controller]
  | transferCount =>
    show (m.readCount (.controller i)).2 = m
    simp only [readCount, h.truthful.readCount_eq, setController_controller]
  | fetch address => rfl
  | _ => exact ha.elim

theorem exec_reading {α : Type} {Q : α → Prop} {x : DriverScript α} (h : m.Attached channel i)
    (hx : x.Uses Access.Reading Q) : (m.exec channel.hardware x).2 = m :=
  (hx.run (S := fun m m' => m.Attached channel i → m' = m) (fun _ _ => rfl)
    (fun hst htu hs => by
      obtain rfl := hst hs
      exact htu hs)
    (fun _ ha _ hm => hm.answer_reading ha) m).2 h

end Machine.Attached

/-! ## Runs -/

namespace Rig

variable {r : Rig} {k : Nat}

theorem Attached.clean_interrupt (ha : r.Attached) (h : r.stream.Clean r.scene)
    (event : TransferEvent) : (r.interrupt event).stream.Clean (r.interrupt event).scene :=
  ha.driven (P := Stream.Clean) _ Prod.snd
    (h.exec _ Prod.snd fun hb => Stream.bound_onInterrupt hb event)

theorem Attached.clean_step (ha : r.Attached) (hs : r.stream.Sound r.scene k)
    (h : r.stream.Clean r.scene) (a : Action) : (r.step a).stream.Clean (r.step a).scene := by
  have hdriven {α : Type} := ha.driven (P := Stream.Clean) (α := α)
  cases a with
  | append destination source size =>
    exact hdriven _ Prod.snd
      (h.exec _ Prod.snd fun hb => (hs.bound_append destination source size).trans hb)
  | configure settings => exact fun hb => h ((Stream.bound_configure settings).symm.trans hb)
  | setCallback callback =>
    exact hdriven _ id (h.exec _ id fun hb => by rw [Stream.exec_setCallback]; exact hb)
  | enable => exact hdriven _ Prod.snd h.exec_enable
  | disable => exact hdriven _ id (h.exec _ id fun _ => Stream.bound_disable)
  | clear => exact hdriven _ id (h.exec _ id fun _ => Stream.bound_clear)
  | interrupt event => exact ha.clean_interrupt h event
  | deliver =>
    cases hraised : r.raised with
    | nil => rwa [step_deliver_nil hraised]
    | cons event raised =>
      rw [step_deliver_cons hraised]
      exact ha.clean_interrupt h event
  | moveElements count =>
    intro hb
    show ((r.machine.moveElements r.index count).scene r.index).Spent
    rw [ha.scene_moveElements]
    exact (h hb).moveElements count
  | finish =>
    intro hb
    show ((r.machine.finish r.index).2.scene r.index).Spent
    rw [ha.scene_finish]
    exact (h hb).finish
  | fillFifo polls =>
    intro hb
    show ((r.machine.setController r.index _).scene r.index).Spent
    rw [ha.scene_setController]
    exact h hb
  | relocate =>
    by_cases hb : r.stream.bound = true
    · rwa [step_relocate_bound hb]
    · rw [step_relocate_unbound (Bool.eq_false_iff.mpr hb)]
      exact fun hb' => absurd hb' hb
  | contend ownership => exact h

/-- What holds of a rig, whatever happened to it since its stream was made. -/
structure Poised (r : Rig) (k : Nat) : Prop where
  attached : r.Attached
  sound : r.stream.Sound r.scene k
  clean : r.stream.Clean r.scene

theorem Poised.step (h : r.Poised k) (a : Action) : (r.step a).Poised (r.offsetAfter k a) :=
  ⟨h.attached.step a, h.attached.sound_step h.sound a, h.attached.clean_step h.sound h.clean a⟩

theorem poised_run {m : Machine} {number index capacity : Nat} {config : StreamConfig}
    (hcap : 0 < capacity) (hindex : index < m.controllers.size)
    (htruth : (m.controller index).Truthful) (hstop : (m.controller index).current = 0)
    (hr : m.rig number index capacity config = .ok r) (actions : List Action) :
    ∃ k, (r.run actions).Poised k := by
  obtain ⟨ha, hs⟩ := sound_make hcap hindex htruth hstop hr
  have hclean : r.stream.Clean r.scene := by
    obtain ⟨-, rfl⟩ := Machine.rig_ok hr
    exact nofun
  exact run_induction (P := fun r => ∃ k, r.Poised k) (Q := fun _ => True) ⟨0, ha, hs, hclean⟩
    (fun _ a _ ⟨_, h⟩ => ⟨_, h.step a⟩) actions fun _ _ => trivial

/-- What a stream answers when it is asked for its residue. -/
def residue (r : Rig) : Except DmaError Nat :=
  (r.machine.exec r.hardware r.stream.residue).1

/-- The bytes that the controller has left in the block that it executes, none once it has
stopped. -/
def bytesLeft (r : Rig) : Nat :=
  if r.controller.isRunning then
    r.controller.remaining * (r.machine.table.read r.controller.current).elementBytes
  else 0

theorem Attached.residue_eq (h : r.Attached) : r.residue = r.stream.leftover r.scene := by
  rw [residue, hardware, (Machine.Attached.exec h _).1, Stream.exec_residue]
  rfl

end Rig

namespace Watch

variable {w : Watch} {k : Nat}

/-- What a stream that holds its channel answers when nothing moves while it is asked. -/
structure Measures (w : Watch) : Prop where
  running : w.rig.controller.isRunning = true → w.rig.residue = .ok w.rig.bytesLeft
  /-- Once the controller has stopped nothing is left, but if two blocks or more were queued since
  then the stream takes their links for a sign that the controller moved. -/
  stopped : w.rig.controller.isRunning = false →
    w.rig.residue = if w.trail.late ≤ 1 then .ok w.rig.bytesLeft else .error .residueUnstable
  /-- So whoever asks again gets the same answer. -/
  still : (w.rig.machine.exec w.rig.hardware w.rig.stream.residue).2 = w.rig.machine

theorem Tracked.measures (h : w.Tracked k) (hclean : w.rig.stream.Clean w.rig.scene)
    (hb : w.rig.stream.bound = true) : w.Measures := by
  refine ⟨?_, ?_, Machine.Attached.exec_reading h.attached (w.rig.stream.reading_residue)⟩
  · intro hrun
    rw [h.attached.residue_eq, h.sound.leftover_running (of_decide_eq_true hrun), Rig.bytesLeft,
      if_pos hrun]
    rfl
  · intro hstop
    have hc : w.rig.scene.current = 0 := Decidable.not_not.mp (of_decide_eq_false hstop)
    rw [h.attached.residue_eq, h.sound.leftover_stopped hb (hclean hb) hc,
      (h.traced.stopped hb hc).1, Rig.bytesLeft, hstop]
    rfl

theorem tracked_run {m : Machine} {number index capacity : Nat} {config : StreamConfig} {r : Rig}
    (hcap : 0 < capacity) (hindex : index < m.controllers.size)
    (htruth : (m.controller index).Truthful) (hstop : (m.controller index).current = 0)
    (hr : m.rig number index capacity config = .ok r) (actions : List Action) :
    ∃ k, (run { rig := r } actions).Tracked k := by
  obtain ⟨ha, hs⟩ := Rig.sound_make hcap hindex htruth hstop hr
  obtain ⟨-, hmade⟩ := Machine.rig_ok hr
  have hunbound : r.stream.bound = false := by rw [hmade]; rfl
  have h : Tracked { rig := r } 0 :=
    ⟨ha, hs, fun hc => absurd (hs.stopped hunbound) hc, fun hb => by rw [hunbound] at hb; cases hb⟩
  exact h.run actions

/-- **What is left is what is answered, unless blocks piled up behind a stop.** A stream is made on
a channel whose controller reads truthfully and has stopped, and is watched from then on;
operations, moves of the controller and events of any kind follow one another in any order. Whenever
the stream holds its channel and nothing moves while it is asked, a controller that runs has left
what the stream answers. One that has stopped has left nothing, and the stream says so as long as no
more than one block was queued since; from the second on it answers with an error. -/
theorem measures_run {m : Machine} {number index capacity : Nat} {config : StreamConfig} {r : Rig}
    (hcap : 0 < capacity) (hindex : index < m.controllers.size)
    (htruth : (m.controller index).Truthful) (hstop : (m.controller index).current = 0)
    (hr : m.rig number index capacity config = .ok r) (actions : List Action)
    (hb : (r.run actions).stream.bound = true) : (run { rig := r } actions).Measures := by
  obtain ⟨k, hpoised⟩ := Rig.poised_run hcap hindex htruth hstop hr actions
  obtain ⟨k', htracked⟩ := tracked_run hcap hindex htruth hstop hr actions
  apply htracked.measures
  · rw [rig_run]
    exact hpoised.clean
  · rw [rig_run]
    exact hb

/-- A chain of two slots wraps; its controller stops, and a block is queued behind its back. -/
theorem measures_run_late :
    ∃ r, Machine.rig { controllers := #[{}] } 3 0 2 {} = .ok r ∧
      (run { rig := r } [.append 0 64 8, .append 8 64 8, .enable, .finish, .deliver,
        .append 16 64 8, .finish, .finish, .append 24 64 8]).Measures := by
  obtain ⟨r, hr⟩ : ∃ r, Machine.rig { controllers := #[{}] } 3 0 2 {} = .ok r := ⟨_, rfl⟩
  refine ⟨r, hr, measures_run (by decide) (by decide) ⟨rfl, rfl, rfl⟩ rfl hr _ ?_⟩
  obtain rfl := Except.ok.inj hr
  decide +kernel

/-- Two blocks are queued between the stop of a controller and the delivery of its completion. The
stream holds its channel and nothing moves, and yet the residue is called unstable, not zero. -/
theorem unstable_though_still :
    ∃ r, Machine.rig { controllers := #[{}] } 3 0 4 {} = .ok r ∧
      let stopped :=
        r.run [.append 0 64 4, .enable, .finish, .append 8 72 4, .append 16 80 4]
      stopped.stream.bound = true ∧ stopped.raised = [.complete] ∧
        stopped.controller.isRunning = false ∧
        (stopped.machine.exec stopped.hardware stopped.stream.residue).2.controllers =
          stopped.machine.controllers ∧
        stopped.residue = .error .residueUnstable := by
  obtain ⟨r, hr⟩ : ∃ r, Machine.rig { controllers := #[{}] } 3 0 4 {} = .ok r := ⟨_, rfl⟩
  refine ⟨r, hr, ?_⟩
  obtain rfl := Except.ok.inj hr
  decide +kernel

end Watch

end ScatterGather
