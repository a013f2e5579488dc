import ScatterGather.Proofs.Rig

/-!
# ScatterGather.Proofs.Liveness — a one-shot stream is never stuck

Whoever waits for a stream waits for an event, and only a controller raises one. A controller that
stops silently, on a block that is not armed, would leave the stream bound and its waiters waiting
forever. Two facts rule this out. The last block of a bound chain is armed (`Stream.TailArmed`),
whatever is appended, and however often the callback is changed in between. And a controller stops
only behind the last block, so the completion is the last event that it raises (`Pending`).

Both are kept by every operation, by every move of the controller, by events that are delivered in
the order in which they were raised, and by timeouts at any time (`Stream.Awaiting`). Bus errors and
the operations that give the channel up are left out, since they end the chain by themselves.
-/

namespace ScatterGather

namespace Stream

variable {s : Stream} {v : Scene} {t : DescriptorTable} {k : Nat}

/-! ## The last block is armed -/

/-- The completion of the last queued block raises an event. -/
def TailArmed (s : Stream) (t : DescriptorTable) : Prop :=
  s.pool.queued ≠ 0 → (t.read (s.pool.addressAt (s.pool.queued - 1))).interrupts = true

/-- A one-shot stream wants to hear of the end of its chain, silent or not. -/
theorem wantsInterrupt_last (hm : s.isCircular = false) : s.wantsInterrupt true = true := by
  unfold wantsInterrupt
  split
  · rfl
  · cases hmode : s.config.mode with
    | oneShot => rfl
    | circular =>
      rw [isCircular_iff.mpr hmode] at hm
      cases hm

/-- A block that is queued is armed, and a running chain disarms none for it. -/
theorem Sound.tailArmed_appended (h : s.Sound v k) (hm : s.isCircular = false)
    (hb : s.bound = true) (hroom : s.pool.queued < s.pool.capacity)
    (source destination elements : Nat) (late : Bool) :
    (s.appended late).TailArmed (s.appendedTable v.table source destination elements) := by
  intro _
  have hkeep : s.disarmsLast = false := by simp [disarmsLast, hb, hm]
  show ((s.appendedTable v.table source destination elements).read
    (s.pool.addressAt (s.pool.queued + 1 - 1))).interrupts = true
  rw [Nat.add_sub_cancel, appendedTable, hkeep]
  show ((s.pool.pushed v.table source destination _ _).read _).interrupts = true
  rw [h.sits.read_pushed _ _ _ _ hroom, if_pos rfl]
  exact (interrupts_controlWord s h.template ..).trans (wantsInterrupt_last hm)

theorem Sound.tailArmed_started (h : s.Sound v k) (hm : s.isCircular = false) :
    s.TailArmed (s.startedTable v.table) := by
  intro hq
  have hlast : s.pool.queued - 1 + 1 = s.pool.queued := by omega
  apply interrupts_startedTable h.sits (by omega)
  rw [decide_eq_true hlast]
  exact wantsInterrupt_last hm

/-- Retiring leaves the last block in its place. -/
theorem TailArmed.retire (h : s.TailArmed t) {count : Nat} (hc : count ≤ s.pool.queued) :
    TailArmed { s with pool := s.pool.retire count } t := by
  intro hq
  have hqueued : (s.pool.retire count).queued = s.pool.queued - count := Pool.queued_retire hc
  have hne : (s.pool.retire count).queued ≠ 0 := hq
  have hlast : count + ((s.pool.retire count).queued - 1) = s.pool.queued - 1 := by omega
  show (t.read ((s.pool.retire count).addressAt ((s.pool.retire count).queued - 1))).interrupts =
    true
  rw [Pool.addressAt_retire hc, hlast]
  exact h (by omega)

/-! ## What a bound stream can wait for -/

/-- The events that are still to be delivered. While the controller executes it has reported
progress only. When it stopped it reported its completion, after everything else. -/
def Pending (current : Nat) (raised : List TransferEvent) : Prop :=
  if current = 0 then
    ∃ earlier, raised = earlier ++ [.complete] ∧ ∀ event ∈ earlier, event = .progress
  else ∀ event ∈ raised, event = .progress

theorem pending_nil {current : Nat} (h : current ≠ 0) : Pending current [] := by
  simp [Pending, h]

/-- Progress that is delivered leaves the later events to come. -/
theorem Pending.tail {current : Nat} {raised : List TransferEvent}
    (h : Pending current (.progress :: raised)) : Pending current raised := by
  unfold Pending at h ⊢
  split
  · next hc =>
    rw [if_pos hc] at h
    obtain ⟨earlier, heq, hearlier⟩ := h
    cases earlier with
    | nil => cases heq
    | cons first earlier =>
      obtain ⟨-, heq⟩ := List.cons.inj heq
      exact ⟨earlier, heq, fun event he => hearlier event (List.mem_cons_of_mem first he)⟩
  · next hc =>
    rw [if_neg hc] at h
    intro event he
    exact h event (List.mem_cons_of_mem _ he)

/-- Nothing is left behind a completion. -/
theorem Pending.complete {current : Nat} {raised : List TransferEvent}
    (h : Pending current (.complete :: raised)) : current = 0 ∧ raised = [] := by
  unfold Pending at h
  split at h
  · next hc =>
    obtain ⟨earlier, heq, hearlier⟩ := h
    cases earlier with
    | nil => exact ⟨hc, (List.cons.inj heq).2⟩
    | cons first earlier =>
      obtain ⟨hfirst, -⟩ := List.cons.inj heq
      have hprogress := hearlier first List.mem_cons_self
      rw [← hfirst] at hprogress
      cases hprogress
  · have := h .complete List.mem_cons_self
    cases this

theorem Pending.cases {current : Nat} {event : TransferEvent} {raised : List TransferEvent}
    (h : Pending current (event :: raised)) : event = .progress ∨ event = .complete := by
  unfold Pending at h
  split at h
  · obtain ⟨earlier, heq, hearlier⟩ := h
    cases earlier with
    | nil => exact .inr (List.cons.inj heq).1
    | cons first earlier =>
      obtain ⟨rfl, -⟩ := List.cons.inj heq
      exact .inl (hearlier event List.mem_cons_self)
  · exact .inl (h event List.mem_cons_self)

/-- A one-shot stream that is bound has an event to wait for; one that is not bound waits for none,
and none that was meant for an earlier chain is left. -/
structure Awaiting (s : Stream) (v : Scene) (raised : List TransferEvent) : Prop where
  oneShot : s.isCircular = false
  restart : s.config.timeoutPolicy = .restart
  armed : s.bound = true → s.TailArmed v.table
  pending : s.bound = true → Pending v.current raised
  quiet : s.bound = false → raised = [] ∧ s.state ≠ .busy

variable {raised : List TransferEvent}

/-- What leaves the controller where it is and the last block armed leaves the stream waiting. -/
theorem Awaiting.keep {s' : Stream} {v' : Scene} (h : s.Awaiting v raised) (hs : s.Same s')
    (hb : s'.bound = s.bound) (harmed : s.bound = true → s'.TailArmed v'.table)
    (hc : s.bound = true → v'.current = v.current) (hst : s.bound = false → s'.state ≠ .busy) :
    s'.Awaiting v' raised where
  oneShot := hs.isCircular.trans h.oneShot
  restart := hs.timeoutPolicy.trans h.restart
  armed hb' := harmed (hb ▸ hb')
  pending hb' := by
    rw [hc (hb ▸ hb')]
    exact h.pending (hb ▸ hb')
  quiet hb' := ⟨(h.quiet (hb ▸ hb')).1, hst (hb ▸ hb')⟩

/-! ## Operations -/

section Operations

variable (h : s.Sound v k) (ha : s.Awaiting v raised)

include h ha

theorem Sound.awaiting_append (destination source size : Nat) :
    (v.exec (s.append destination source size)).1.2.Awaiting
      (v.exec (s.append destination source size)).2 raised := by
  have hsame := (s.kept_append v destination source size).same
  have hbound := h.bound_append destination source size
  rcases h.append_cases destination source size with
    ⟨e, s', hexec, rfl | rfl⟩ | ⟨elements, -, hroom, hexec⟩
  · rw [hexec]
    exact ha
  · -- discarding a finished chain leaves a state that is not busy
    rw [hexec] at hsame hbound ⊢
    refine ha.keep hsame hbound ?_ (fun _ => rfl) ?_
    · intro hb
      rw [discardFinished_bound hb]
      exact ha.armed hb
    · intro hb
      show s.discardFinished.state ≠ .busy
      unfold Stream.discardFinished
      split <;> exact (ha.quiet hb).2
  · rw [hexec] at hsame hbound ⊢
    refine ha.keep hsame hbound ?_ (fun _ => rfl) ?_
    · intro hb
      rw [discardFinished_bound hb] at hroom ⊢
      exact h.tailArmed_appended ha.oneShot hb hroom source destination elements _
    · intro hb
      have hb' : ¬s.discardFinished.bound = true := by simp [hb]
      show (if s.discardFinished.bound then _ else StreamState.ready) ≠ .busy
      rw [if_neg hb']
      exact nofun

omit h in
theorem Awaiting.configure (settings : TransferSettings) :
    (s.configure settings).2.Awaiting v raised := by
  have hsame := s.same_configure settings
  unfold Stream.configure at hsame ⊢
  split
  · exact ha
  · next hb =>
    have hb' : s.bound = false := Bool.eq_false_iff.mpr hb
    rw [if_neg hb] at hsame
    split at hsame <;> refine ha.keep hsame rfl ?_ (fun _ => rfl) fun _ => (ha.quiet hb').2
    · exact ha.armed
    · intro hb''
      exact absurd hb'' hb

omit h in
/-- A running one-shot chain stays armed as it is. -/
theorem Awaiting.setCallback (callback : Option Callback) :
    (v.exec (s.setCallback callback)).1.Awaiting (v.exec (s.setCallback callback)).2 raised := by
  have hsame := s.same_setCallback v callback
  rw [exec_setCallback] at hsame ⊢
  refine ha.keep hsame rfl ?_ ?_ fun hb => (ha.quiet hb).2
  · intro hb
    rw [if_neg (by simp [hb, ha.oneShot])]
    exact ha.armed hb
  · intro hb
    rw [if_neg (by simp [hb, ha.oneShot])]

/-- A chain that is started has its last block armed, and no event of an earlier one to come. -/
theorem Sound.awaiting_enable :
    (v.exec s.enable).1.2.Awaiting (v.exec s.enable).2 raised := by
  rw [Stream.exec_enable]
  by_cases hb : s.bound ∨ s.pool.queued = 0
  · rw [if_pos hb]
    exact ha
  · rw [if_neg hb]
    obtain ⟨hb', -⟩ := not_or.mp hb
    obtain ⟨hraised, -⟩ := ha.quiet (Bool.eq_false_iff.mpr hb')
    rcases v.ownership.bind s.channel.number s.owner with ⟨granted, ownership⟩
    cases granted with
    | error e =>
      refine ⟨ha.oneShot, ha.restart, ?_, ?_, fun _ => ⟨hraised, nofun⟩⟩
      · intro hbound
        exact absurd hbound hb'
      · intro hbound
        exact absurd hbound hb'
    | ok u =>
      refine ⟨ha.oneShot, ha.restart, fun _ => h.tailArmed_started ha.oneShot, ?_, nofun⟩
      intro _
      rw [hraised]
      exact pending_nil (h.sits.addressAt_ne_zero 0)

omit h in
theorem Awaiting.timeout :
    (v.exec (s.onInterrupt .timeout)).1.2.Awaiting (v.exec (s.onInterrupt .timeout)).2 raised := by
  have hsame := (s.kept_onInterrupt v .timeout).same
  rw [Stream.exec_onInterrupt] at hsame ⊢
  by_cases hb : s.bound = true
  · obtain ⟨left, hleft⟩ := exec_react_timeout s v
    rw [if_pos hb, hleft, ha.restart, if_neg nofun] at hsame ⊢
    refine ha.keep hsame rfl ha.armed (fun _ => rfl) ?_
    intro hb'
    rw [hb] at hb'
    cases hb'
  · rw [if_neg hb]
    exact ha

end Operations

/-! ## Events in their order -/

section Events

variable (h : s.Sound v k)

include h

theorem Sound.awaiting_progress (ha : s.Awaiting v (.progress :: raised)) :
    (v.exec (s.onInterrupt .progress)).1.2.Awaiting
      (v.exec (s.onInterrupt .progress)).2 raised := by
  rw [Stream.exec_onInterrupt]
  by_cases hb : s.bound = true
  · rw [if_pos hb, exec_react_progress, h.retired_oneShot hb ha.oneShot]
    refine ⟨ha.oneShot, ha.restart, fun _ => (ha.armed hb).retire h.offset_le,
      fun _ => (ha.pending hb).tail, ?_⟩
    intro hb'
    rw [show s.bound = false from hb'] at hb
    cases hb
  · obtain ⟨hraised, -⟩ := ha.quiet (Bool.eq_false_iff.mpr hb)
    cases hraised

/-- The completion finds the controller stopped. What is left is started again, or nothing is
left and the channel is given back. -/
theorem Sound.awaiting_complete (ha : s.Awaiting v (.complete :: raised)) :
    (v.exec (s.onInterrupt .complete)).1.2.Awaiting
      (v.exec (s.onInterrupt .complete)).2 raised := by
  rw [Stream.exec_onInterrupt]
  by_cases hb : s.bound = true
  · obtain ⟨-, rfl⟩ := (ha.pending hb).complete
    rw [if_pos hb, exec_react_complete, h.retired_oneShot hb ha.oneShot]
    by_cases hgo : s.isCircular = false ∧ (s.pool.retire k).queued ≠ 0
    · rw [if_pos hgo]
      have hsits := h.sits.retire k
      refine ⟨ha.oneShot, ha.restart, fun _ => (ha.armed hb).retire h.offset_le,
        fun _ => pending_nil (hsits.addressAt_ne_zero 0), ?_⟩
      intro hb'
      rw [show s.bound = false from hb'] at hb
      cases hb
    · rw [if_neg hgo]
      exact ⟨ha.oneShot, ha.restart, nofun, nofun, fun _ => ⟨rfl, nofun⟩⟩
  · obtain ⟨hraised, -⟩ := ha.quiet (Bool.eq_false_iff.mpr hb)
    cases hraised

end Events

/-! ## Moves of the controller -/

/-- A controller that comes to the end of its chain raises its completion. -/
theorem Sound.finishEvent_eq (h : s.Sound v k) (ha : s.Awaiting v raised) (hc : v.current ≠ 0)
    (hstop : v.finish.current = 0) : v.finishEvent = some .complete := by
  obtain ⟨hb, hq, hcur⟩ := h.executing hc
  have hnext : v.nextLink = s.pool.linkAt false k := by
    rw [Scene.nextLink, if_neg hc, hcur, (h.engaged hb).linked k hq, ha.oneShot]
  have hzero : v.nextLink = 0 := by
    rw [Scene.finish_running hc] at hstop
    exact hstop
  -- only the last block leads nowhere
  have hlast : k = s.pool.queued - 1 := by
    rw [hzero, Pool.linkAt] at hnext
    split at hnext
    · exact absurd hnext.symm (h.sits.addressAt_ne_zero (k + 1))
    · omega
  have harmed := ha.armed hb (by omega)
  rw [← hlast, ← hcur] at harmed
  rw [Scene.finishEvent, if_neg (by simp [hc, harmed]), if_pos hzero]

theorem Sound.awaiting_finish (h : s.Sound v k) (ha : s.Awaiting v raised) :
    s.Awaiting v.finish (raised ++ v.finishEvent.toList) := by
  by_cases hc : v.current = 0
  · have hevent : v.finishEvent = none := by
      rw [Scene.finishEvent, if_pos (.inl hc)]
    rw [Scene.finish_stopped hc, hevent]
    simpa using ha
  · obtain ⟨hb, -, -⟩ := h.executing hc
    refine ⟨ha.oneShot, ha.restart, ?_, ?_, ?_⟩
    · rw [Scene.table_finish]
      exact ha.armed
    · intro _
      have hpending := ha.pending hb
      rw [Pending, if_neg hc] at hpending
      by_cases hstop : v.finish.current = 0
      · rw [h.finishEvent_eq ha hc hstop, Pending, if_pos hstop]
        exact ⟨raised, rfl, hpending⟩
      · -- a controller that goes on reports progress, or nothing
        have hnext : v.nextLink ≠ 0 := by
          rw [Scene.finish_running hc] at hstop
          exact hstop
        rw [Pending, if_neg hstop]
        intro event he
        rcases List.mem_append.mp he with he | he
        · exact hpending event he
        · rw [Scene.finishEvent, if_neg hnext] at he
          split at he
          · cases he
          · simpa using he
    · intro hb'
      rw [hb] at hb'
      cases hb'

end Stream

/-! ## Runs -/

/-- Whether an action leaves the end of a chain to its completion: operations that queue and start,
moves of the controller, the delivery of what was raised, and timeouts. -/
def Action.unhurried : Action → Bool
  | .disable | .clear | .relocate => false
  | .interrupt event => event = .timeout
  | _ => true

namespace Rig

variable {r : Rig} {k : Nat}

/-- A rig on which nobody can be left waiting. -/
structure Awaiting (r : Rig) (k : Nat) : Prop where
  attached : r.Attached
  sound : r.stream.Sound r.scene k
  awaiting : r.stream.Awaiting r.scene r.raised

theorem Awaiting.step (h : r.Awaiting k) {a : Action} (hok : a.unhurried = true) :
    (r.step a).Awaiting (r.offsetAfter k a) := by
  refine ⟨h.attached.step a, h.attached.sound_step h.sound a, ?_⟩
  have hdriven {α : Type} (raised : List TransferEvent) := h.attached.driven
    (P := fun s v => s.Awaiting v raised) (α := α)
  have ha := h.awaiting
  cases a with
  | disable | clear | relocate => cases hok
  | append destination source size =>
    exact hdriven r.raised _ Prod.snd (h.sound.awaiting_append ha destination source size)
  | configure settings => exact ha.configure settings
  | setCallback callback => exact hdriven r.raised _ id (ha.setCallback callback)
  | enable => exact hdriven r.raised _ Prod.snd (h.sound.awaiting_enable ha)
  | deliver =>
    cases hraised : r.raised with
    | nil =>
      rw [step_deliver_nil hraised]
      exact ha
    | cons event raised =>
      rw [step_deliver_cons hraised]
      rw [hraised] at ha
      by_cases hb : r.stream.bound = true
      · -- the oldest event is progress, or the completion with nothing behind it
        rcases (ha.pending hb).cases with rfl | rfl
        · exact hdriven raised _ Prod.snd (h.sound.awaiting_progress ha)
        · exact hdriven raised _ Prod.snd (h.sound.awaiting_complete ha)
      · cases (ha.quiet (Bool.eq_false_iff.mpr hb)).1
  | interrupt event =>
    obtain rfl : event = .timeout := of_decide_eq_true hok
    exact hdriven r.raised _ Prod.snd ha.timeout
  | moveElements count =>
    have hscene : (r.step (.moveElements count)).scene = r.scene.moveElements count :=
      h.attached.scene_moveElements count
    rw [hscene]
    refine ha.keep (.refl _) rfl ?_ (fun _ => r.scene.current_moveElements count)
      fun hb => (ha.quiet hb).2
    rw [r.scene.table_moveElements]
    exact ha.armed
  | finish =>
    have hevent : (r.machine.finish r.index).1 = r.scene.finishEvent := h.attached.finish_event
    have hscene : (r.step .finish).scene = r.scene.finish := h.attached.scene_finish
    rw [hscene]
    show r.stream.Awaiting _ (r.raised ++ (r.machine.finish r.index).1.toList)
    rw [hevent]
    exact h.sound.awaiting_finish ha
  | fillFifo polls =>
    have hscene : (r.step (.fillFifo polls)).scene = { r.scene with pendingPolls := polls } :=
      h.attached.scene_setController _
    rw [hscene]
    exact ha.keep (.refl _) rfl ha.armed (fun _ => rfl) fun hb => (ha.quiet hb).2
  | contend ownership =>
    exact ha.keep (.refl _) rfl ha.armed (fun _ => rfl) fun hb => (ha.quiet hb).2

theorem awaiting_make {m : Machine} {number index capacity : Nat} {config : StreamConfig}
    (hcap : 0 < capacity) (hindex : index < m.controllers.size)
    (htruth : (m.controller index).Truthful) (hstop : (m.controller index).current = 0)
    (hmode : config.mode = .oneShot) (hpolicy : config.timeoutPolicy = .restart)
    (hr : m.rig number index capacity config = .ok r) : r.Awaiting 0 := by
  obtain ⟨hattached, hsound⟩ := sound_make hcap hindex htruth hstop hr
  obtain ⟨-, rfl⟩ := Machine.rig_ok hr
  refine ⟨hattached, hsound, ?_, hpolicy, nofun, nofun, fun _ => ⟨rfl, nofun⟩⟩
  show decide (config.mode = .circular) = false
  rw [hmode]
  rfl

/-- Nobody who waits for the stream waits in vain. -/
structure Unstuck (r : Rig) : Prop where
  /-- A bound stream has a controller that executes and has completed nothing yet, or the one
  completion that it raised is the last event to be delivered. -/
  bound : r.stream.bound = true →
    (r.controller.isRunning = true ∧ .complete ∉ r.raised) ∨
      (r.controller.isRunning = false ∧ r.raised.count .complete = 1 ∧
        r.raised.getLast? = some .complete)
  /-- Once every event is delivered, only a controller that executes keeps a poller waiting. -/
  busy : r.raised = [] → r.stream.status = .busy → r.controller.isRunning = true
  /-- The last block of a bound chain raises an event. -/
  tail : r.stream.bound = true → r.stream.pool.queued ≠ 0 →
    (r.machine.table.read (r.stream.pool.addressAt (r.stream.pool.queued - 1))).interrupts = true

theorem Awaiting.unstuck (h : r.Awaiting k) : r.Unstuck := by
  have hbound : r.stream.bound = true →
      (r.controller.isRunning = true ∧ .complete ∉ r.raised) ∨
        (r.controller.isRunning = false ∧ r.raised.count .complete = 1 ∧
          r.raised.getLast? = some .complete) := by
    intro hb
    have hpending := h.awaiting.pending hb
    unfold Stream.Pending at hpending
    split at hpending
    · next hc =>
      obtain ⟨earlier, heq, hearlier⟩ := hpending
      have hnone : earlier.count .complete = 0 := by
        apply List.count_eq_zero.mpr
        intro hmem
        cases hearlier _ hmem
      refine .inr ⟨?_, ?_, ?_⟩
      · exact decide_eq_false (fun hne => hne hc)
      · rw [heq, List.count_append, hnone]
        rfl
      · rw [heq, List.getLast?_concat]
    · next hc =>
      refine .inl ⟨decide_eq_true hc, ?_⟩
      intro hmem
      cases hpending _ hmem
  refine ⟨hbound, ?_, fun hb => h.awaiting.armed hb⟩
  intro hnil hstatus
  have hbusy : r.stream.state = .busy := by
    unfold Stream.status StreamState.status at hstatus
    cases hstate : r.stream.state <;> simp_all
  by_cases hb : r.stream.bound = true
  · rcases hbound hb with ⟨hrun, -⟩ | ⟨-, hcount, -⟩
    · exact hrun
    · rw [hnil] at hcount
      cases hcount
  · exact absurd hbusy (h.awaiting.quiet (Bool.eq_false_iff.mpr hb)).2

/-- **A one-shot stream is never stuck.** At every moment of every run in which events are delivered
in their order, however late, a bound stream has a controller that executes or one completion still
to come. Timeouts come at any time, and others may claim the channel in between. -/
theorem never_stuck {m : Machine} {number index capacity : Nat} {config : StreamConfig}
    (hcap : 0 < capacity) (hindex : index < m.controllers.size)
    (htruth : (m.controller index).Truthful) (hstop : (m.controller index).current = 0)
    (hmode : config.mode = .oneShot) (hpolicy : config.timeoutPolicy = .restart)
    (hr : m.rig number index capacity config = .ok r) (actions : List Action)
    (hok : ∀ a ∈ actions, a.unhurried = true) : (r.run actions).Unstuck := by
  have h := awaiting_make hcap hindex htruth hstop hmode hpolicy hr
  obtain ⟨k, hk⟩ := run_induction (P := fun r => ∃ k, r.Awaiting k)
    (Q := fun a => a.unhurried = true) ⟨0, h⟩ (fun r a ha hr => hr.elim fun k hk => ⟨_, hk.step ha⟩)
    actions hok
  exact hk.unstuck

/-- A silent chain grows while it runs and after it stopped, and is timed out in between. -/
theorem never_stuck_silent :
    ∃ r, Machine.rig { controllers := #[{}] } 3 0 2 { silent := true } = .ok r ∧
      (r.run [.append 0 64 8, .enable, .append 8 72 8, .finish, .interrupt .timeout, .finish,
        .append 16 80 8, .setCallback (some .ignore)]).Unstuck := by
  obtain ⟨r, hr⟩ : ∃ r, Machine.rig { controllers := #[{}] } 3 0 2 { silent := true } = .ok r :=
    ⟨_, rfl⟩
  exact ⟨r, hr, never_stuck (by decide) (by decide) ⟨rfl, rfl, rfl⟩ rfl rfl rfl hr _ (by decide)⟩

end Rig

end ScatterGather
