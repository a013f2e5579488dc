import ScatterGather.Machine.Setup
import ScatterGather.Proofs.Standing

/-!
# ScatterGather.Proofs.Soundness — every operation keeps a stream sound

`Stream.Sound` is established by the making of a stream and kept by all that can happen to it: its
operations, the moves of its controller, and events of **any** kind at **any** time, whether the
controller raised them or not. Each lemma says at the same time where the controller stands
afterwards. Queueing leaves it where it stood, `enable` takes it from rest to the head, an event
that retires brings it to the head, and the end of a block moves it one place on (`follow`).

The one operation that has to look before it writes is `append`. What it must not miss is a
controller that stopped in front of the new block; `reachable_appended` says that it does not.
-/

namespace ScatterGather

/-- A stream is made on a channel that exists; it is idle, and its descriptors are fresh. -/
theorem Machine.createStream_cases (m : Machine) (channel : Channel) (capacity : Nat)
    (config : StreamConfig) :
    (∃ e, m.createStream channel capacity config = (.error e, m)) ∨
      channel.number < maxChannels ∧
        m.createStream channel capacity config =
          (.ok (.idle channel m.ownership.allocate.1 (m.table.allocate capacity).1 capacity config),
            { m with
              ownership := m.ownership.allocate.2, table := (m.table.allocate capacity).2 }) := by
  unfold createStream
  cases hadm : Stream.admissible channel config with
  | error e => exact .inl ⟨e, rfl⟩
  | ok u =>
    refine .inr ⟨?_, rfl⟩
    unfold Stream.admissible at hadm
    split at hadm
    · cases hadm
    · next hlt => exact Nat.not_le.mp hlt

namespace Stream

variable {s : Stream} {v : Scene} {k : Nat}

/-! ## A stream at rest -/

theorem Sound.atRest (hs : s.pool.Sits v.table) (hhead : s.isCircular = true → s.pool.head = 0)
    (ht : s.template = s.config.settings.controlTemplate) (hb : s.bound = false)
    (hst : s.stalled = none) (hc : v.current = 0) : s.Sound v 0 where
  sits := hs
  head_zero := hhead
  template := ht
  engaged hb' := by rw [hb] at hb'; cases hb'
  resting _ := ⟨hc, hst, rfl⟩

theorem Sound.unbound (h : s.Sound v k) (hb : s.bound = false) : s.Sound v 0 :=
  (h.resting hb).2.2 ▸ h

theorem Sound.stopped (h : s.Sound v k) (hb : s.bound = false) : v.current = 0 :=
  (h.resting hb).1

/-- A controller executes queued blocks of bound streams only. -/
theorem Sound.executing (h : s.Sound v k) (hc : v.current ≠ 0) :
    s.bound = true ∧ k < s.pool.queued ∧ v.current = s.pool.addressAt k := by
  by_cases hb : s.bound = true
  · exact ⟨hb, (h.engaged hb).stands.executing hc⟩
  · exact absurd (h.stopped (Bool.eq_false_iff.mpr hb)) hc

/-- A stream that gives its channel back comes to rest. -/
theorem Sound.released (h : s.Sound v k) (state : StreamState) :
    Sound { s with bound := false, stalled := none, state }
      (v.released s.channel.number s.owner) 0 :=
  .atRest h.sits h.head_zero h.template rfl rfl rfl

/-- What leaves the queue, the links and the controller alone leaves a stream sound. -/
theorem Sound.congr {s' : Stream} {v' : Scene} (h : s.Sound v k) (hp : s'.pool = s.pool)
    (hm : s'.isCircular = s.isCircular) (ht : s'.template = s'.config.settings.controlTemplate)
    (hb : s'.bound = s.bound) (hst : s'.stalled = s.stalled) (hc : v'.current = v.current)
    (hsize : v'.table.cells.size = v.table.cells.size)
    (hn : ∀ a, (v'.table.read a).next = (v.table.read a).next) : s'.Sound v' k where
  sits := hp ▸ h.sits.mono (Nat.le_of_eq hsize.symm)
  head_zero hm' := hp ▸ h.head_zero (hm ▸ hm')
  template := ht
  engaged hb' := (h.engaged (hb ▸ hb')).congr hp hm hst hc hn
  resting hb' := by
    rw [hc, hst]
    exact h.resting (hb ▸ hb')

/-! ## Making and moving a stream -/

theorem sits_allocate (t : DescriptorTable) {capacity : Nat} (hcap : 0 < capacity)
    {head queued : Nat} (hh : head < capacity) (hq : queued ≤ capacity) :
    Pool.Sits { base := (t.allocate capacity).1, capacity, head, queued }
      (t.allocate capacity).2 where
  capacity_pos := hcap
  head_lt := hh
  queued_le := hq
  row := by
    refine ⟨t.cells.size, rfl, ?_⟩
    show t.cells.size + capacity ≤ (t.cells ++ Array.replicate _ _).size
    rw [Array.size_append, Array.size_replicate]
    omega

theorem size_copyRow (t : DescriptorTable) (source target count : Nat) :
    (t.copyRow source target count).cells.size = t.cells.size := by
  induction count generalizing t source target with
  | zero => rfl
  | succ count ih => rw [DescriptorTable.copyRow, ih, DescriptorTable.size_put]

theorem Sound.idle (v : Scene) {capacity : Nat} (hcap : 0 < capacity) (hc : v.current = 0)
    (channel : Channel) (owner : OwnerId) (config : StreamConfig) (ownership : Ownership) :
    Sound (.idle channel owner (v.table.allocate capacity).1 capacity config)
      { v with ownership, table := (v.table.allocate capacity).2 } 0 :=
  .atRest (sits_allocate v.table hcap hcap (Nat.zero_le _)) (fun _ => rfl) rfl rfl rfl hc

/-- A stream that is not bound can be moved to other descriptors. -/
theorem Sound.relocate (h : s.Sound v k) (hb : s.bound = false) :
    Sound { s with pool := { s.pool with base := (v.table.allocate s.pool.capacity).1 } }
      { v with
        table := (v.table.allocate s.pool.capacity).2.copyRow s.pool.base
          (v.table.allocate s.pool.capacity).1 s.pool.capacity } k := by
  obtain ⟨hc, hst, rfl⟩ := h.resting hb
  have hsits := sits_allocate v.table h.sits.capacity_pos h.sits.head_lt h.sits.queued_le
  exact .atRest (hsits.mono (Nat.le_of_eq (size_copyRow ..).symm)) h.head_zero h.template hb hst hc

/-! ## Configuring -/

theorem Sound.configure (h : s.Sound v k) (settings : TransferSettings) :
    (s.configure settings).2.Sound v k := by
  unfold Stream.configure
  split
  · exact h
  · split
    · exact h
    · exact h.congr rfl rfl rfl rfl rfl rfl rfl fun _ => rfl

theorem Sound.exec_setCallback (h : s.Sound v k) (callback : Option Callback) :
    (v.exec (s.setCallback callback)).1.Sound (v.exec (s.setCallback callback)).2 k := by
  rw [Stream.exec_setCallback]
  split
  · exact h.congr rfl rfl h.template rfl rfl rfl size_rearmed
      (next_rearmed (s := { s with callback }) h.sits)
  · exact h.congr rfl rfl h.template rfl rfl rfl rfl fun _ => rfl

/-! ## Queueing -/

/-- The scene after a block was linked and before the block in front of it is disarmed. -/
def linkedScene (s : Stream) (v : Scene) (source destination elements : Nat) : Scene :=
  { v with
    table := s.pool.pushed v.table source destination (s.controlWord elements) s.isCircular }

theorem Sound.discardFinished (h : s.Sound v k) : s.discardFinished.Sound v k := by
  unfold Stream.discardFinished
  split
  · next hb =>
    have hb' : s.bound = false := by
      simp only [Bool.and_eq_true, Bool.not_eq_true'] at hb
      exact hb.1
    obtain ⟨hc, -, rfl⟩ := h.resting hb'
    exact .atRest h.sits.reset (fun _ => rfl) h.template hb' rfl hc
  · exact h

section Append

variable (h : s.Sound v k) (hroom : s.pool.queued < s.pool.capacity)
  (source destination elements : Nat)

include h hroom in
/-- A block that is linked while the controller runs comes in time. -/
theorem tooLate_running (hb : s.bound = true) (hc : v.current ≠ 0) :
    s.tooLate (s.linkedScene v source destination elements) = false := by
  have hne : ¬(s.linkedScene v source destination elements).current = 0 := hc
  have hnext : (s.linkedScene v source destination elements).nextLink ≠ 0 := by
    obtain ⟨hq, hcur⟩ := (h.engaged hb).stands.executing hc
    have hl := (h.engaged hb).linked.push source destination (s.controlWord elements)
      s.isCircular h.sits hroom k (Nat.lt_succ_of_lt hq)
    have hlt : k + 1 < s.pool.queued + 1 := Nat.succ_lt_succ hq
    rw [Scene.nextLink, if_neg hne]
    show ((s.pool.pushed v.table source destination _ _).read v.current).next ≠ 0
    rw [hcur]
    -- there is a block behind every old one, if only the new one
    refine (Eq.trans hl (if_pos hlt)).symm ▸ ?_
    exact h.sits.addressAt_ne_zero (k + 1)
  simp [tooLate, hnext, hne]

include h hroom in
/-- The controller can get no further by a block that is linked after it stopped. -/
theorem reachable_appended (hb : s.bound = true) (hc : v.current = 0) :
    (s.appended (s.tooLate (s.linkedScene v source destination elements))).reachable =
      s.reachable := by
  have hm : s.isCircular = false := by
    by_cases hm : s.isCircular = true
    · exact absurd hc ((h.engaged hb).circular hm)
    · exact Bool.eq_false_iff.mpr hm
  have hcur : (s.linkedScene v source destination elements).current = 0 := hc
  rcases s.stalled.eq_none_or_eq_some with hst | ⟨slot, hst⟩
  · -- the new block is the one in front of which the controller stopped
    have hlate : s.tooLate (s.linkedScene v source destination elements) = true := by
      simp [tooLate, hb, hm, hst, hcur]
    have htail : s.pool.offsetOf s.pool.tail = s.pool.queued :=
      Pool.offsetOf_slotAt h.sits.head_lt hroom
    rw [hlate, reachable_of_none hst]
    have hlt : s.pool.offsetOf s.pool.tail < s.pool.queued + 1 := by omega
    exact (reachable_of_some (s := s.appended true) rfl hlt).trans htail
  · -- the controller stopped in front of an earlier one
    have hoff := ((h.engaged hb).stalled slot hst).2
    have hlate : s.tooLate (s.linkedScene v source destination elements) = false := by
      simp [tooLate, hst]
    rw [hlate, reachable_of_some hst hoff]
    exact reachable_of_some (s := s.appended false) hst (Nat.lt_succ_of_lt hoff)

include h hroom in
/-- Queueing leaves the controller where it stands. -/
theorem standsAt_appended (hb : s.bound = true) :
    (s.appended (s.tooLate (s.linkedScene v source destination elements))).StandsAt
      { v with table := s.appendedTable v.table source destination elements } k := by
  have hstands := (h.engaged hb).stands
  by_cases hc : v.current = 0
  · -- a controller that stopped stays at the bound, which the new block does not move
    have hstop := StandsAt.stopped
      (s := s.appended (s.tooLate (s.linkedScene v source destination elements)))
      (v := { v with table := s.appendedTable v.table source destination elements }) hc
    rw [reachable_appended h hroom source destination elements hb hc] at hstop
    cases hstands with
    | running _ hcur _ => exact absurd (hcur ▸ hc) (h.sits.addressAt_ne_zero k)
    | stopped _ => exact hstop
  · obtain ⟨hq, hcur⟩ := hstands.executing hc
    rw [tooLate_running h hroom source destination elements hb hc]
    exact .running (Nat.lt_succ_of_lt hq) hcur (hstands.stalled_eq hc)

include h hroom in
/-- A controller that stopped short of a block stopped short of a queued one. -/
theorem stalled_appended (hb : s.bound = true) (late : Bool) {slot : Nat}
    (hslot : (s.appended late).stalled = some slot) :
    slot < s.pool.capacity ∧ s.pool.offsetOf slot < s.pool.queued + 1 := by
  cases late with
  | false =>
    obtain ⟨hlt, hoff⟩ := (h.engaged hb).stalled slot hslot
    exact ⟨hlt, Nat.lt_succ_of_lt hoff⟩
  | true =>
    obtain rfl : s.pool.tail = slot := Option.some.inj hslot
    refine ⟨Pool.slotAt_lt h.sits.capacity_pos _, ?_⟩
    rw [Pool.tail, Pool.offsetOf_slotAt h.sits.head_lt hroom]
    exact Nat.lt_succ_self _

include h hroom in
theorem Sound.appended :
    (s.appended (s.tooLate (s.linkedScene v source destination elements))).Sound
      { v with table := s.appendedTable v.table source destination elements } k := by
  have hsits : Pool.Sits { s.pool with queued := s.pool.queued + 1 }
      (s.appendedTable v.table source destination elements) :=
    Pool.Sits.mono ⟨h.sits.capacity_pos, h.sits.head_lt, hroom, h.sits.row⟩
      (Nat.le_of_eq (size_appendedTable ..).symm)
  by_cases hb : s.bound = true
  · have he := h.engaged hb
    have hunbound : s.bound ≠ false := by simp [hb]
    refine ⟨hsits, h.head_zero, h.template, fun _ => ⟨?_, ?_, ?_, he.circular⟩,
      fun hb' => absurd hb' hunbound⟩
    · intro offset ho
      apply (next_appendedTable h.sits source destination elements _).trans
      exact he.linked.push source destination _ _ h.sits hroom offset ho
    · exact standsAt_appended h hroom source destination elements hb
    · intro slot hslot
      exact stalled_appended h hroom hb _ hslot
  · obtain ⟨hc, hst, rfl⟩ := h.resting (Bool.eq_false_iff.mpr hb)
    have hlate : s.tooLate (s.linkedScene v source destination elements) = false := by
      simp [tooLate, Bool.eq_false_iff.mpr hb]
    rw [hlate]
    exact .atRest hsits h.head_zero h.template (Bool.eq_false_iff.mpr hb) hst hc

end Append

/-- All that a request can come to: it is refused, with no more than an ended chain discarded, or
its block is queued. -/
theorem Sound.append_cases (h : s.Sound v k) (destination source size : Nat) :
    (∃ e s', v.exec (s.append destination source size) = ((.error e, s'), v) ∧
      (s' = s ∨ s' = s.discardFinished)) ∨
    ∃ elements, s.checkBlock destination source size = .ok elements ∧
      s.discardFinished.pool.queued < s.discardFinished.pool.capacity ∧
      v.exec (s.append destination source size) =
        ((.ok (), s.discardFinished.appended
            (s.discardFinished.tooLate
              (s.discardFinished.linkedScene v source destination elements))),
          { v with
            table := s.discardFinished.appendedTable v.table source destination elements }) := by
  rw [Stream.exec_append]
  cases s.checkBlock destination source size with
  | error e => exact .inl ⟨e, s, rfl, .inl rfl⟩
  | ok elements =>
    by_cases hfull : s.discardFinished.pool.isFull = true
    · simp only [hfull, if_true]
      exact .inl ⟨_, _, rfl, .inr rfl⟩
    · simp only [hfull, Bool.false_eq_true, if_false]
      exact .inr ⟨elements, rfl, h.discardFinished.sits.room (Bool.eq_false_iff.mpr hfull), rfl⟩

theorem Sound.exec_append (h : s.Sound v k) (destination source size : Nat) :
    (v.exec (s.append destination source size)).1.2.Sound
      (v.exec (s.append destination source size)).2 k := by
  rcases h.append_cases destination source size with
    ⟨e, s', hexec, rfl | rfl⟩ | ⟨elements, -, hroom, hexec⟩
  · rw [hexec]
    exact h
  · rw [hexec]
    exact h.discardFinished
  · rw [hexec]
    exact h.discardFinished.appended hroom source destination elements

/-! ## Starting and stopping -/

/-- A chain that is started stands at its head. -/
theorem Sound.started (h : s.Sound v k) (hq : s.pool.queued ≠ 0) (ownership : Ownership)
    (state : StreamState) :
    Sound { s with bound := true, stalled := none, state }
      ({ v with ownership, table := s.startedTable v.table }.start (s.pool.addressAt 0)) 0 where
  sits := h.sits.mono (Nat.le_of_eq size_startedTable.symm)
  head_zero := h.head_zero
  template := h.template
  engaged _ :=
    { linked := linked_startedTable h.sits
      stands := .running (Nat.pos_of_ne_zero hq) rfl rfl
      stalled := fun _ hst => nomatch hst
      circular := fun _ => h.sits.addressAt_ne_zero 0 }
  resting hb := nomatch hb

theorem Sound.exec_enable (h : s.Sound v k) :
    (v.exec s.enable).1.2.Sound (v.exec s.enable).2 k := by
  rw [Stream.exec_enable]
  by_cases hb : s.bound ∨ s.pool.queued = 0
  · rw [if_pos hb]
    exact h
  · rw [if_neg hb]
    obtain ⟨hb', hq⟩ := not_or.mp hb
    rcases v.ownership.bind s.channel.number s.owner with ⟨granted, ownership⟩
    cases granted with
    | error e => exact h.congr rfl rfl h.template rfl rfl rfl rfl fun _ => rfl
    | ok u =>
      obtain ⟨-, -, rfl⟩ := h.resting (Bool.eq_false_iff.mpr hb')
      exact h.started hq ownership .busy

theorem Sound.exec_disable (h : s.Sound v k) :
    (v.exec s.disable).1.Sound (v.exec s.disable).2 0 := by
  rw [Stream.exec_disable]
  split
  · exact h.released _
  · next hb => exact h.unbound (Bool.eq_false_iff.mpr hb)

theorem Sound.exec_clear (h : s.Sound v k) :
    (v.exec s.clear).1.Sound (v.exec s.clear).2 0 := by
  rw [Stream.exec_clear]
  split
  · exact .atRest h.sits.reset (fun _ => rfl) h.template rfl rfl rfl
  · next hb =>
    obtain ⟨hc, hst, -⟩ := h.resting (Bool.eq_false_iff.mpr hb)
    exact .atRest h.sits.reset (fun _ => rfl) h.template (Bool.eq_false_iff.mpr hb) hst hc

/-! ## Events -/

/-- Where the controller stands once a stream has retired. -/
def retiredOffset (s : Stream) (k : Nat) : Nat :=
  if s.isCircular then k else 0

/-- A one-shot stream forgets the blocks in front of its controller. -/
theorem Sound.retired_oneShot (h : s.Sound v k) (hb : s.bound = true) (hm : s.isCircular = false) :
    s.retired v = { s with pool := s.pool.retire k } := by
  rw [Stream.retired, hm, h.standing_eq hb]
  rfl

theorem Sound.retired (h : s.Sound v k) (hb : s.bound = true) :
    (s.retired v).Sound v (s.retiredOffset k) := by
  unfold Stream.retired retiredOffset
  split
  · exact h
  · next hm =>
    have he := (h.engaged hb).retire h.sits (Bool.eq_false_iff.mpr hm)
    rw [h.standing_eq hb]
    exact ⟨h.sits.retire k, fun hm' => absurd hm' hm, h.template, fun _ => he,
      fun hb' => by rw [show s.bound = false from hb'] at hb; cases hb⟩

theorem Sound.progress (h : s.Sound v k) (hb : s.bound = true) :
    Sound { s.retired v with state := .busy } v (s.retiredOffset k) :=
  (h.retired hb).congr rfl rfl (h.retired hb).template rfl rfl rfl rfl fun _ => rfl

/-- A one-shot chain that is started again stands at its head. -/
theorem Sound.restarted (h : s.Sound v k) (hb : s.bound = true) (hm : s.isCircular = false)
    (hq : s.pool.queued ≠ 0) :
    Sound { s with stalled := none, state := .busy } (v.start (s.pool.addressAt 0)) 0 where
  sits := h.sits
  head_zero := h.head_zero
  template := h.template
  engaged _ :=
    { linked := (h.engaged hb).linked
      stands := .running (Nat.pos_of_ne_zero hq) rfl rfl
      stalled := fun _ hst => nomatch hst
      circular := fun hm' => by
        rw [show s.isCircular = true from hm'] at hm
        cases hm }
  resting hb' := by
    rw [show s.bound = false from hb'] at hb
    cases hb

@[simp] theorem bound_retired : (s.retired v).bound = s.bound := by
  unfold retired
  split <;> rfl

/-- After a completion the controller stands at the head, of a chain that goes on or at rest. -/
theorem Sound.complete (h : s.Sound v k) (hb : s.bound = true) :
    (v.exec (s.react .complete)).1.Sound (v.exec (s.react .complete)).2 0 := by
  have hr := h.retired hb
  have hkept := s.kept_retired v
  rw [exec_react_complete]
  split
  · next hgo =>
    exact hr.restarted (by rwa [bound_retired]) (hkept.same.isCircular.trans hgo.1) hgo.2
  · have hv : v.released (s.retired v).channel.number (s.retired v).owner =
        v.released s.channel.number s.owner := by rw [hkept.channel, hkept.owner]
    exact hv ▸ hr.released .done

/-- A completion starts a one-shot chain again at the block where its controller stands, if that is
a queued one. -/
theorem Sound.exec_complete_restarts (h : s.Sound v k) (hb : s.bound = true)
    (hm : s.isCircular = false) (hk : k < s.pool.queued) :
    v.exec (s.onInterrupt .complete) =
      ((some .busy, { s with pool := s.pool.retire k, stalled := none, state := .busy }),
        v.start (s.pool.addressAt k)) := by
  have hretired := h.retired_oneShot hb hm
  have hleft : (s.pool.retire k).queued ≠ 0 := by
    rw [Pool.queued_retire (Nat.le_of_lt hk)]
    omega
  have hhead : (s.pool.retire k).addressAt 0 = s.pool.addressAt k :=
    Pool.addressAt_retire (Nat.le_of_lt hk) 0
  have hgo : s.isCircular = false ∧ (s.retired v).pool.queued ≠ 0 := by
    rw [hretired]
    exact ⟨hm, hleft⟩
  rw [Stream.exec_onInterrupt, if_pos hb, exec_react_complete, if_pos hgo, hretired, hhead]
  rfl

/-- A completion gives the channel back if the controller is past the last block. -/
theorem Sound.exec_complete_ends (h : s.Sound v k) (hb : s.bound = true)
    (hm : s.isCircular = false) (hk : k = s.pool.queued) :
    v.exec (s.onInterrupt .complete) =
      ((some .ok, { s with
          pool := s.pool.retire k, bound := false, stalled := none, state := .done }),
        v.released s.channel.number s.owner) := by
  have hretired := h.retired_oneShot hb hm
  have hnone : ¬(s.isCircular = false ∧ (s.retired v).pool.queued ≠ 0) := by
    rw [hretired]
    rintro ⟨-, hleft⟩
    apply hleft
    show (s.pool.retire k).queued = 0
    rw [Pool.queued_retire (Nat.le_of_eq hk), hk, Nat.sub_self]
  rw [Stream.exec_onInterrupt, if_pos hb, exec_react_complete, if_neg hnone, hretired]
  rfl

/-- Where the controller stands after an event. -/
def offsetAfter (s : Stream) (event : TransferEvent) (k : Nat) : Nat :=
  if s.bound then
    match event with
    | .progress => s.retiredOffset k
    | .complete | .busError => 0
    | .timeout => if s.config.timeoutPolicy = .abort then 0 else k
  else k

/-- Whatever event is delivered, at whatever time, a stream stays sound. -/
theorem Sound.exec_onInterrupt (h : s.Sound v k) (event : TransferEvent) :
    (v.exec (s.onInterrupt event)).1.2.Sound (v.exec (s.onInterrupt event)).2
      (s.offsetAfter event k) := by
  rw [Stream.exec_onInterrupt]
  unfold offsetAfter
  by_cases hb : s.bound = true
  · rw [if_pos hb, if_pos hb]
    cases event with
    | progress =>
      rw [exec_react_progress]
      exact h.progress hb
    | complete => exact h.complete hb
    | busError =>
      rw [exec_react_busError]
      exact h.released .error
    | timeout =>
      obtain ⟨left, hleft⟩ := exec_react_timeout s v
      rw [hleft]
      by_cases hp : s.config.timeoutPolicy = .abort
      · simp only [hp, if_true]
        exact h.released .timeout
      · simp only [hp, if_false]
        exact h.congr rfl rfl h.template rfl rfl rfl rfl fun _ => rfl
  · rw [if_neg hb, if_neg hb]
    exact h

/-! ## Moves of the controller -/

theorem Sound.moveElements (h : s.Sound v k) (count : Nat) : s.Sound (v.moveElements count) k :=
  h.congr rfl rfl h.template rfl rfl (v.current_moveElements count)
    (by rw [v.table_moveElements]) (fun a => by rw [v.table_moveElements])

/-- The offset behind another one, on a chain that may be a loop. -/
def follow (s : Stream) (k : Nat) : Nat :=
  if s.isCircular = true ∧ k + 1 = s.pool.queued then 0 else k + 1

theorem follow_oneShot (hm : s.isCircular = false) : s.follow k = k + 1 := by
  apply if_neg
  rintro ⟨hcirc, -⟩
  rw [hm] at hcirc
  cases hcirc

/-- Behind a queued block the controller comes to the place that the block's link stands for. -/
theorem standsAt_follow {v' : Scene} (hq : k < s.pool.queued) (hst : s.stalled = none)
    (hnext : v'.current = s.pool.linkAt s.isCircular k) : s.StandsAt v' (s.follow k) := by
  unfold follow
  rw [Pool.linkAt] at hnext
  by_cases hlast : k + 1 < s.pool.queued
  · rw [if_pos hlast] at hnext
    rw [if_neg (by omega)]
    exact .running hlast hnext hst
  · rw [if_neg hlast] at hnext
    by_cases hm : s.isCircular = true
    · -- the loop closes
      rw [if_pos hm] at hnext
      rw [if_pos ⟨hm, by omega⟩]
      exact .running (by omega) hnext hst
    · -- the chain ends
      rw [if_neg hm] at hnext
      have hk : k + 1 = s.reachable := by
        rw [reachable_of_none hst]
        omega
      rw [if_neg (fun hm' => hm hm'.1), hk]
      exact .stopped hnext

theorem Engaged.finish (he : s.Engaged v k) (hs : s.pool.Sits v.table) (hc : v.current ≠ 0) :
    s.Engaged v.finish (s.follow k) := by
  obtain ⟨hq, hcur⟩ := he.stands.executing hc
  have hnext : v.finish.current = s.pool.linkAt s.isCircular k := by
    rw [Scene.finish_running hc]
    show v.nextLink = _
    rw [Scene.nextLink, if_neg hc, hcur, he.linked k hq]
  refine ⟨?_, standsAt_follow hq (he.stands.stalled_eq hc) hnext, he.stalled, ?_⟩
  · rw [Scene.table_finish]
    exact he.linked
  · intro hm
    rw [hnext, Pool.linkAt, hm, if_pos rfl]
    split <;> exact hs.addressAt_ne_zero _

/-- At the end of a block the controller goes one place on. -/
theorem Sound.finish (h : s.Sound v k) :
    s.Sound v.finish (if v.current = 0 then k else s.follow k) := by
  by_cases hc : v.current = 0
  · rw [if_pos hc, Scene.finish_stopped hc]
    exact h
  · obtain ⟨hb, -, -⟩ := h.executing hc
    rw [if_neg hc]
    refine ⟨?_, h.head_zero, h.template, fun _ => (h.engaged hb).finish h.sits hc, ?_⟩
    · rw [Scene.table_finish]
      exact h.sits
    · intro hb'
      rw [hb] at hb'
      cases hb'

end Stream

end ScatterGather
