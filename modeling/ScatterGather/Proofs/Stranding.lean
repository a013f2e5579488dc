import ScatterGather.Proofs.Folding
import ScatterGather.Proofs.Interleaving

/-!
# ScatterGather.Proofs.Stranding — the last event of a chain, read as progress

Of two completions that come in quick succession a handler may see the first only: it reads the
flags while the controller still runs, takes the event for progress, and acknowledges the second
completion together with the first. The stream retires by the position of its controller, so it
forgets what either event would have made it forget. But whether the channel is given back, or the
chain restarted, it decides by the kind of the event.

`Stint.after_stop_run` says what progress and completion come to on a stream whose controller has
stopped, for every chain and every position. They agree on the blocks that are left, and on nothing
else. After progress the stream holds the channel and is busy, and if no event waits, nothing that
the controller does will ever release it (`Rig.stranded_by_progress`).
-/

namespace ScatterGather

/-! ## A controller at rest -/

namespace Rig

variable {r : Rig} {k : Nat}

/-- Nothing comes of a controller that has stopped when all that it raised has been delivered. -/
theorem run_at_rest (hstop : r.controller.current = 0) (hraised : r.raised = [])
    {moves : List Action} (hmoves : ∀ a ∈ moves, a.autonomous = true ∨ a = .deliver) :
    r.run moves = r := by
  have hstep {a : Action} (ha : a.autonomous = true ∨ a = .deliver) : r.step a = r := by
    rcases ha with ha | rfl
    · cases a with
      | moveElements count =>
        show ({ r with machine := r.machine.moveElements r.index count } : Rig) = r
        rw [Machine.moveElements_stopped hstop]
      | finish =>
        have hnone : r.executing = [] :=
          if_neg (show ¬decide (r.controller.current ≠ 0) = true by simp [hstop])
        show ({ r with
          machine := (r.machine.finish r.index).2
          raised := r.raised ++ (r.machine.finish r.index).1.toList
          executed := r.executed ++ r.executing } : Rig) = r
        rw [Machine.finish_stopped hstop, hnone]
        simp
      | _ => cases ha
    · exact step_deliver_nil hraised
  induction moves with
  | nil => rfl
  | cons a moves ih =>
    show (r.step a).run moves = r
    rw [hstep (hmoves a List.mem_cons_self)]
    exact ih fun b hb => hmoves b (List.mem_cons_of_mem a hb)

end Rig

namespace Stint

variable {t : Stint} {k : Nat}

/-- What progress and completion come to on a stream whose controller has stopped. -/
structure AfterStop (t : Stint) : Prop where
  /-- Either way the stream forgets the descriptors that were finished, and no other. -/
  forgets : (t.rig.interrupt .progress).stream.pool.addresses = t.left
  agrees : (t.rig.interrupt .complete).stream.pool = (t.rig.interrupt .progress).stream.pool
  /-- Progress does no more than that: the stream holds its channel and is busy, and the machine is
  as it was but for the report to the callback. -/
  progress : ∃ told, t.rig.interrupt .progress =
    { t.rig with
      stream :=
        { t.rig.stream with pool := (t.rig.interrupt .progress).stream.pool, state := .busy }
      machine := t.rig.machine.heard (t.rig.machine.reports ++ told) }
  /-- If no event waits, that is how it remains. -/
  stranded : t.rig.raised = [] → ∀ moves, (∀ a ∈ moves, a.autonomous = true ∨ a = .deliver) →
    (t.rig.interrupt .progress).run moves = t.rig.interrupt .progress
  /-- A completion gives the channel back if every descriptor was finished, -/
  finished : t.left = [] →
    (t.rig.interrupt .complete).stream.bound = false ∧
      (t.rig.interrupt .complete).stream.state = .done ∧
      (t.rig.interrupt .complete).controller.isRunning = false ∧
      (t.rig.interrupt .complete).controller.starts = t.rig.controller.starts ∧
      (t.rig.interrupt .complete).machine.ownership =
        (t.rig.machine.ownership.release t.rig.stream.channel.number t.rig.stream.owner).2
  /-- and starts the controller at the first that was not. -/
  restarts : ∀ first rest, t.left = first :: rest →
    (t.rig.interrupt .complete).stream.bound = true ∧
      (t.rig.interrupt .complete).stream.state = .busy ∧
      (t.rig.interrupt .complete).controller.current = first ∧
      (t.rig.interrupt .complete).controller.starts = t.rig.controller.starts + 1 ∧
      (t.rig.interrupt .complete).machine.ownership = t.rig.machine.ownership
  /-- A completion that still comes makes up for it. -/
  recovers : t.rig.FoldsInto [.progress] .complete

/-! ### What each event comes to -/

theorem Kept.pool_progress (h : t.Kept k) (hb : t.rig.stream.bound = true) :
    (t.rig.interrupt .progress).stream.pool = t.rig.stream.pool.retire k := by
  rw [h.attached.interrupt_progress hb]
  exact congrArg Stream.pool (h.sound.retired_oneShot hb h.oneShot)

/-- What a completion comes to is seen on the scene of the stream. -/
theorem Kept.complete (h : t.Kept k) (P : Stream → Scene → Prop)
    (hP : P (t.rig.scene.exec (t.rig.stream.onInterrupt .complete)).1.2
      (t.rig.scene.exec (t.rig.stream.onInterrupt .complete)).2) :
    P (t.rig.interrupt .complete).stream (t.rig.interrupt .complete).scene :=
  h.attached.driven (P := P) (t.rig.stream.onInterrupt .complete) Prod.snd hP

theorem Kept.pool_complete (h : t.Kept k) (hb : t.rig.stream.bound = true) :
    (t.rig.interrupt .complete).stream.pool = t.rig.stream.pool.retire k := by
  refine h.complete (fun s _ => s.pool = t.rig.stream.pool.retire k) ?_
  rcases Nat.lt_or_eq_of_le h.sound.offset_le with hk | hk
  · rw [h.sound.exec_complete_restarts hb h.oneShot hk]
  · rw [h.sound.exec_complete_ends hb h.oneShot hk]

/-- Nothing is left: a completion gives the channel back. -/
theorem Kept.complete_finished (h : t.Kept k) (hb : t.rig.stream.bound = true)
    (hnone : t.left = []) :
    (t.rig.interrupt .complete).stream.bound = false ∧
      (t.rig.interrupt .complete).stream.state = .done ∧
      (t.rig.interrupt .complete).scene.current = 0 ∧
      (t.rig.interrupt .complete).scene.starts = t.rig.scene.starts ∧
      (t.rig.interrupt .complete).scene.ownership =
        (t.rig.scene.ownership.release t.rig.stream.channel.number t.rig.stream.owner).2 := by
  have hk : k = t.rig.stream.pool.queued := by
    have hle := h.sound.offset_le
    have hlength := h.length_left hb
    rw [hnone, List.length_nil] at hlength
    omega
  refine h.complete (fun s v => s.bound = false ∧ s.state = .done ∧ v.current = 0 ∧
    v.starts = t.rig.scene.starts ∧ v.ownership = (t.rig.scene.ownership.release
      t.rig.stream.channel.number t.rig.stream.owner).2) ?_
  rw [h.sound.exec_complete_ends hb h.oneShot hk]
  exact ⟨rfl, rfl, rfl, rfl, rfl⟩

/-- Something is left: a completion starts the controller there. -/
theorem Kept.complete_restarts (h : t.Kept k) (hb : t.rig.stream.bound = true) {first : Nat}
    {rest : List Nat} (hfirst : t.left = first :: rest) :
    (t.rig.interrupt .complete).stream.bound = true ∧
      (t.rig.interrupt .complete).stream.state = .busy ∧
      (t.rig.interrupt .complete).scene.current = first ∧
      (t.rig.interrupt .complete).scene.starts = t.rig.scene.starts + 1 ∧
      (t.rig.interrupt .complete).scene.ownership = t.rig.scene.ownership := by
  obtain ⟨n, hn⟩ : ∃ n, t.rig.stream.pool.queued - k = n + 1 := by
    have hlength := h.length_left hb
    rw [hfirst, List.length_cons] at hlength
    exact ⟨_, hlength.symm⟩
  have haddress : t.rig.stream.pool.addressAt k = first := by
    have hleft := h.left_eq hb
    rw [hfirst, Pool.addresses_retire h.sound.offset_le, hn, List.range'_succ, List.map_cons] at hleft
    exact (List.cons.inj hleft).1
  refine h.complete (fun s v => s.bound = true ∧ s.state = .busy ∧ v.current = first ∧
    v.starts = t.rig.scene.starts + 1 ∧ v.ownership = t.rig.scene.ownership) ?_
  rw [h.sound.exec_complete_restarts hb h.oneShot (by omega)]
  exact ⟨hb, rfl, haddress, rfl, rfl⟩

theorem Kept.after_stop (h : t.Kept k) (hb : t.rig.stream.bound = true)
    (hstop : t.rig.controller.isRunning = false) : t.AfterStop where
  forgets := h.pool_progress hb ▸ h.left_eq hb
  agrees := (h.pool_complete hb).trans (h.pool_progress hb).symm
  progress := by
    refine ⟨(t.rig.stream.settled t.rig.scene).notices, ?_⟩
    rw [h.pool_progress hb, h.attached.interrupt_progress hb, Stream.settled,
      h.sound.retired_oneShot hb h.oneShot]
  stranded hraised moves hmoves := by
    have hcurrent : t.rig.controller.current = 0 :=
      Decidable.not_not.mp (of_decide_eq_false hstop)
    refine Rig.run_at_rest ?_ ?_ hmoves
    · rw [h.attached.interrupt_progress hb]
      exact hcurrent
    · rw [h.attached.interrupt_progress hb]
      exact hraised
  finished hnone := by
    obtain ⟨hbound, hstate, hcurrent, hkept⟩ := h.complete_finished hb hnone
    exact ⟨hbound, hstate, decide_eq_false (not_not_intro hcurrent), hkept⟩
  restarts first rest hfirst := h.complete_restarts hb hfirst
  recovers := h.attached.foldsInto h.sound h.oneShot (by simp) (.inr rfl)

/-- **Once the controller has stopped, the kind of the last event decides.** A one-shot stream is
made on a channel whose controller reads truthfully and has stopped; operations, moves of the
controller and events of any kind follow one another in any order. Whenever the stream holds its
channel and the controller has stopped, progress and completion forget the same descriptors, those
that were finished. A completion gives the channel back, or restarts the chain at the first
descriptor that was not finished. Progress does neither, and if no other event waits the stream
remains busy on a controller that has stopped. -/
theorem after_stop_run {m : Machine} {number index capacity : Nat} {config : StreamConfig} {r : Rig}
    (hcap : 0 < capacity) (hindex : index < m.controllers.size)
    (htruth : (m.controller index).Truthful) (hstop : (m.controller index).current = 0)
    (hmode : config.mode = .oneShot) (hr : m.rig number index capacity config = .ok r)
    (actions : List Action) (hb : (r.run actions).stream.bound = true)
    (hstopped : (r.run actions).controller.isRunning = false) :
    (run { rig := r } actions).AfterStop := by
  obtain ⟨k, hk⟩ := kept_run hcap hindex htruth hstop hmode hr actions
  have hrig : (run { rig := r } actions).rig = r.run actions := rig_run _ actions
  exact hk.after_stop (hrig ▸ hb) (hrig ▸ hstopped)

/-- A block is queued behind one that was finished, too late for the controller. -/
theorem after_stop_run_late :
    ∃ r, Machine.rig { controllers := #[{}] } 3 0 2 {} = .ok r ∧
      (run { rig := r } [.append 0 64 4, .enable, .finish, .append 8 72 4]).AfterStop := by
  obtain ⟨r, hr⟩ : ∃ r, Machine.rig { controllers := #[{}] } 3 0 2 {} = .ok r := ⟨_, rfl⟩
  refine ⟨r, hr, after_stop_run (by decide) (by decide) ⟨rfl, rfl, rfl⟩ rfl rfl hr _ ?_ ?_⟩
  · obtain rfl := Except.ok.inj hr
    decide +kernel
  · obtain rfl := Except.ok.inj hr
    decide +kernel

end Stint

namespace Rig

/-- Both blocks of a chain are finished, and the two completions come as one event. Read as progress
it leaves the stream busy on a channel that it holds, with a controller that has stopped and no event
to come; read as completion it ends the transfer. -/
theorem stranded_by_progress :
    ∃ r, Machine.rig { controllers := #[{}] } 3 0 4 {} = .ok r ∧
      let stopped := r.run [.append 0 64 4, .append 8 72 4, .enable, .finish, .finish]
      let folded (event : TransferEvent) := { stopped with raised := [event] }.step .deliver
      stopped.controller.isRunning = false ∧
        (folded .progress).stream.pool.queued = 0 ∧ (folded .progress).stream.bound = true ∧
        (folded .progress).stream.state = .busy ∧ (folded .progress).raised = [] ∧
        (folded .progress).controller.isRunning = false ∧
        (folded .complete).stream.pool.queued = 0 ∧ (folded .complete).stream.bound = false ∧
        (folded .complete).stream.state = .done := by
  obtain ⟨r, hr⟩ : ∃ r, Machine.rig { controllers := #[{}] } 3 0 4 {} = .ok r := ⟨_, rfl⟩
  refine ⟨r, hr, ?_⟩
  obtain rfl := Except.ok.inj hr
  decide +kernel

end Rig

end ScatterGather
