import ScatterGather.Proofs.Order
import ScatterGather.Proofs.Stint

/-!
# ScatterGather.Proofs.Withdrawal — what is left of a chain that is given up

`Stream.disable` stops the controller and gives the channel back. It does not look where the
controller is, and forgets no block. As long as the stream holds its channel it reports the blocks
that the controller has not passed; afterwards it reports all that are queued, and so those that
were finished while their events were not yet delivered come back.

`Stint.withdraws_run` gives both figures, and says what comes of it. The two agree just when no
queued descriptor was finished. The next `enable` starts the chain at its head, and the controller
executes every queued descriptor, also those that it had finished (`Rig.executed_again`).
-/

namespace ScatterGather

namespace Stream

variable {s : Stream} {v : Scene} {k : Nat}

/-- A chain that nothing was linked to too late has stopped at its end only. -/
theorem Sound.running_of_lt (h : s.Sound v k) (hb : s.bound = true) (hst : s.stalled = none)
    (hk : k < s.pool.queued) : v.current ≠ 0 := by
  intro hc
  have hend := (h.engaged hb).stands.eq_reachable hc h.sits
  rw [reachable_of_none hst] at hend
  omega

/-- A stream that gave up the channel that it held can take it again. -/
theorem exec_enable_released (ownership : Ownership) (hb : s.bound = false)
    (hq : s.pool.queued ≠ 0) (hholder : ownership.owner s.channel.number = some s.owner)
    (hv : v.ownership = (ownership.release s.channel.number s.owner).2) :
    ∃ ownership, v.exec s.enable =
      ((.ok (), { s with bound := true, stalled := none, state := .busy }),
        { v with ownership, table := s.startedTable v.table }.start (s.pool.addressAt 0)) := by
  have hnumber : s.channel.number < maxChannels := by
    refine Decidable.byContradiction fun hnumber => ?_
    rw [Ownership.owner, dif_neg hnumber] at hholder
    cases hholder
  have hfree := Ownership.release_holder hnumber hholder
  rw [← hv] at hfree
  obtain ⟨hgranted, -⟩ := Ownership.bind_free s.owner hnumber hfree
  rcases hbind : v.ownership.bind s.channel.number s.owner with ⟨granted, ownership'⟩
  rw [hbind] at hgranted
  obtain rfl : granted = .ok () := hgranted
  refine ⟨ownership', ?_⟩
  rw [exec_enable, if_neg (by simp [hb, hq]), hbind]

end Stream

/-- `disable` stops the controller, and leaves queue and descriptors alone. -/
theorem Rig.Attached.step_disable {r : Rig} (h : r.Attached) (hb : r.stream.bound = true) :
    ∃ state,
      (r.step .disable).stream = { r.stream with bound := false, stalled := none, state } ∧
        (r.step .disable).scene = r.scene.released r.stream.channel.number r.stream.owner := by
  have hexec := r.stream.exec_disable r.scene
  rw [if_pos hb] at hexec
  have hstream : (r.step .disable).stream = (r.scene.exec r.stream.disable).1 :=
    (Machine.Attached.exec h r.stream.disable).1
  have hscene : (r.step .disable).scene = (r.scene.exec r.stream.disable).2 :=
    (Machine.Attached.exec h r.stream.disable).2
  rw [hexec] at hstream hscene
  exact ⟨_, hstream, hscene⟩

namespace Stint

variable {t : Stint} {k : Nat}

/-- A controller that is left alone finishes the blocks from its position on, one after another. -/
theorem Kept.completed_run_finish (h : t.Kept k) (hb : t.rig.stream.bound = true)
    (hst : t.rig.stream.stalled = none) {n : Nat} (hn : k + n ≤ t.rig.stream.pool.queued) :
    (t.run (List.replicate n .finish)).completed =
      t.completed ++ (List.range' k n).map t.rig.stream.pool.addressAt := by
  induction n generalizing t k with
  | zero => exact (List.append_nil _).symm
  | succ n ih =>
    have hk : k < t.rig.stream.pool.queued := by omega
    have hc := h.sound.running_of_lt hb hst hk
    have hstep := h.step .finish
    rw [Rig.offsetAfter, if_neg hc, Stream.follow_oneShot h.oneShot] at hstep
    have hrest := ih hstep hb hst (by show k + 1 + n ≤ t.rig.stream.pool.queued; omega)
    obtain ⟨-, -, hcurrent⟩ := h.sound.executing hc
    have hcompleted := h.completed_finish
    rw [if_neg hc, hcurrent] at hcompleted
    rw [List.replicate_succ, List.range'_succ, List.map_cons]
    refine hrest.trans ?_
    rw [hcompleted, List.append_assoc]
    rfl

/-- What `disable` does to a stream that holds its channel. -/
structure Withdraws (t : Stint) : Prop where
  /-- The channel is given back, and every block stays. -/
  gives_back : (t.rig.step .disable).stream.bound = false ∧
    (t.rig.step .disable).controller.isRunning = false
  keeps : (t.rig.step .disable).stream.pool = t.rig.stream.pool
  /-- Before, the stream reports the descriptors that were not finished; afterwards, all. -/
  before : t.rig.reported = t.left.length
  after : (t.rig.step .disable).reported = t.rig.stream.pool.addresses.length
  agrees : (t.rig.step .disable).reported = t.rig.reported ↔
    ∀ address ∈ t.rig.stream.pool.addresses, address ∉ t.completed
  /-- If the stream takes its channel again, the controller executes all of them. -/
  again : t.rig.stream.pool.addresses ≠ [] →
    t.rig.machine.ownership.owner t.rig.stream.channel.number = some t.rig.stream.owner →
      ∀ n ≤ t.rig.stream.pool.addresses.length,
        (t.run (.disable :: .enable :: List.replicate n .finish)).completed =
          t.rig.stream.pool.addresses.take n

/-- After `disable` and `enable` the controller begins at the head again, and has finished
nothing. -/
theorem Kept.again (h : t.Kept k) (hb : t.rig.stream.bound = true)
    (hq : t.rig.stream.pool.queued ≠ 0)
    (hholder : t.rig.machine.ownership.owner t.rig.stream.channel.number =
      some t.rig.stream.owner) :
    ((t.step .disable).step .enable).Kept 0 ∧
      ((t.step .disable).step .enable).completed = [] ∧
      ((t.step .disable).step .enable).rig.stream =
        { t.rig.stream with bound := true, stalled := none, state := .busy } := by
  have hdisabled := h.step .disable
  obtain ⟨state, hstream, hscene⟩ := h.attached.step_disable hb
  have hattached : (t.rig.step .disable).Attached := h.attached.step .disable
  obtain ⟨ownership, hexec⟩ := Stream.exec_enable_released (s := (t.rig.step .disable).stream)
    (v := (t.rig.step .disable).scene) t.rig.machine.ownership (by rw [hstream])
    (by rw [hstream]; exact hq) (by rw [hstream]; exact hholder)
    (by rw [hstream, hscene]; rfl)
  have hstream' : ((t.rig.step .disable).step .enable).stream = _ :=
    congrArg Prod.snd (Machine.Attached.exec hattached (t.rig.step .disable).stream.enable).1
  have hscene' : ((t.rig.step .disable).step .enable).scene = _ :=
    (Machine.Attached.exec hattached (t.rig.step .disable).stream.enable).2
  refine ⟨hdisabled.step .enable, ?_, ?_⟩
  · -- the controller was started
    show stillDone _ (t.rig.step .disable).scene.starts
      ((t.rig.step .disable).step .enable).scene.starts [] ++ [] = []
    have hstarted : (t.rig.step .disable).scene.starts <
        ((t.rig.step .disable).step .enable).scene.starts := by
      rw [hscene']
      refine Nat.lt_of_lt_of_eq (Nat.lt_succ_self _) ?_
      exact (congrArg (fun out => out.2.starts) hexec).symm
    rw [stillDone_started hstarted, List.append_nil]
  · refine hstream'.trans ((congrArg (fun out => out.1.2) hexec).trans ?_)
    rw [hstream]

/-- While it holds its channel the stream reports what the controller has left. -/
theorem Kept.reported_eq (h : t.Kept k) (hb : t.rig.stream.bound = true) :
    t.rig.reported = t.left.length := by
  rw [h.length_left hb, Rig.reported, Rig.hardware, (Machine.Attached.exec h.attached _).1]
  exact h.sound.exec_queued hb

/-- Afterwards it reports all that is queued. -/
theorem Kept.reported_disable (h : t.Kept k) (hb : t.rig.stream.bound = true) :
    (t.rig.step .disable).reported = t.rig.stream.pool.addresses.length := by
  obtain ⟨state, hstream, -⟩ := h.attached.step_disable hb
  have hattached : (t.rig.step .disable).Attached := h.attached.step .disable
  rw [Rig.reported, Rig.hardware, (Machine.Attached.exec hattached _).1, Stream.exec_queued,
    hstream, Pool.length_addresses]
  rfl

theorem Kept.withdraws (h : t.Kept k) (hb : t.rig.stream.bound = true) : t.Withdraws where
  gives_back := by
    obtain ⟨state, hstream, hscene⟩ := h.attached.step_disable hb
    have hcurrent : (t.rig.step .disable).scene.current = 0 := by rw [hscene]; rfl
    exact ⟨by rw [hstream], decide_eq_false (not_not_intro hcurrent)⟩
  keeps := by
    obtain ⟨state, hstream, -⟩ := h.attached.step_disable hb
    rw [hstream]
  before := h.reported_eq hb
  after := h.reported_disable hb
  agrees := by
    rw [h.reported_disable hb, h.reported_eq hb, eq_comm, left, List.length_filter_eq_length_iff]
    simp
  again hne hholder n hn := by
    rw [Pool.length_addresses] at hn
    have hq : t.rig.stream.pool.queued ≠ 0 := by
      rw [← Pool.length_addresses]
      exact fun hzero => hne (List.length_eq_zero_iff.mp hzero)
    obtain ⟨hkept, hcompleted, hagain⟩ := h.again hb hq hholder
    have hrun := hkept.completed_run_finish (by rw [hagain]) (by rw [hagain])
      (n := n) (by rw [hagain, Nat.zero_add]; exact hn)
    rw [hcompleted, hagain, List.nil_append, ← List.range_eq_range'] at hrun
    refine hrun.trans ?_
    rw [Pool.addresses_eq, ← List.map_take, List.take_range, Nat.min_eq_left hn]

/-- **A chain that is given up comes back whole.** A one-shot stream is made on a channel whose
controller reads truthfully and has stopped; operations, moves of the controller and events of any
kind follow one another in any order. Whenever the stream holds its channel, `disable` keeps all its
blocks, and the stream reports every one of them, not only those that were left. The two figures are
the same just when no queued descriptor was finished. If the stream takes its channel again, the
controller executes all of them, those included that it had finished. -/
theorem withdraws_run {m : Machine} {number index capacity : Nat} {config : StreamConfig} {r : Rig}
    (hcap : 0 < capacity) (hindex : index < m.controllers.size)
    (htruth : (m.controller index).Truthful) (hstop : (m.controller index).current = 0)
    (hmode : config.mode = .oneShot) (hr : m.rig number index capacity config = .ok r)
    (actions : List Action) (hb : (r.run actions).stream.bound = true) :
    (run { rig := r } actions).Withdraws := by
  obtain ⟨k, hk⟩ := kept_run hcap hindex htruth hstop hmode hr actions
  have hrig : (run { rig := r } actions).rig = r.run actions := rig_run _ actions
  exact hk.withdraws (hrig ▸ hb)

/-- The channel is given up in the middle of a chain that was restarted. -/
theorem withdraws_run_restarted :
    ∃ r, Machine.rig { controllers := #[{}] } 3 0 4 {} = .ok r ∧
      (run { rig := r } [.append 0 64 4, .enable, .finish, .append 8 72 4, .append 16 80 4,
        .deliver, .finish]).Withdraws := by
  obtain ⟨r, hr⟩ : ∃ r, Machine.rig { controllers := #[{}] } 3 0 4 {} = .ok r := ⟨_, rfl⟩
  refine ⟨r, hr, withdraws_run (by decide) (by decide) ⟨rfl, rfl, rfl⟩ rfl rfl hr _ ?_⟩
  obtain rfl := Except.ok.inj hr
  decide +kernel

end Stint

namespace Rig

/-- The first of two blocks is finished, and its event not yet delivered. One block is reported, and
two after `disable`; `enable` then starts the controller at the first. -/
theorem executed_again :
    ∃ r, Machine.rig { controllers := #[{}] } 3 0 4 {} = .ok r ∧
      let running := r.run [.append 0 64 4, .append 8 72 4, .enable, .finish]
      running.reported = 1 ∧ (running.step .disable).reported = 2 ∧
        (running.run [.disable, .enable]).controller.current =
          running.stream.pool.addressAt 0 ∧
        running.controller.current = running.stream.pool.addressAt 1 ∧
        (running.run [.disable, .enable, .finish]).executed =
          running.executed ++ running.executed := by
  obtain ⟨r, hr⟩ : ∃ r, Machine.rig { controllers := #[{}] } 3 0 4 {} = .ok r := ⟨_, rfl⟩
  refine ⟨r, hr, ?_⟩
  obtain rfl := Except.ok.inj hr
  decide +kernel

end Rig

end ScatterGather
