import ScatterGather.Proofs.Chain

/-!
# ScatterGather.Proofs.Operations — what each operation of a stream does to a scene

One equation for each operation of a stream: the result it gives, the stream it leaves, and the
scene it leaves. Later modules cite these and never open an operation again.

The position of the controller is read from its next pointer. `standing` is that reading as a
function of the scene, and `exec_executingOffset` says that reading it disturbs nothing.
-/

namespace ScatterGather

/-- The channel is stopped and given back. -/
def Scene.released (v : Scene) (channel : Nat) (owner : OwnerId) : Scene :=
  { v.load 0 with ownership := (v.ownership.release channel owner).2 }

namespace Stream

variable (s : Stream) (v : Scene)

/-! ## Reading the position -/

/-- The offset that the stream takes the controller to stand at. -/
def standing : Nat :=
  if s.pool.queued = 0 then 0
  else match s.pool.slotOf v.nextLink with
    -- it is one place before the slot that comes next
    | some slot => min (s.pool.offsetOf (s.predecessor slot)) (s.reachable - 1)
    -- nothing comes next: it is at the last block, or has stopped
    | none => if v.current = 0 then s.reachable else s.reachable - 1

theorem exec_executingOffset : v.exec s.executingOffset = (s.standing v, v) := by
  unfold executingOffset standing
  rw [Scene.exec_ite]
  split
  · rfl
  · rw [Scene.exec_bind]
    show v.exec (match s.pool.slotOf v.nextLink with | some slot => _ | none => _) = _
    cases s.pool.slotOf v.nextLink with
    | some slot => rfl
    | none =>
      show ((if decide (v.current ≠ 0) then s.reachable - 1 else s.reachable), v) = _
      by_cases hc : v.current = 0 <;> simp [hc]

theorem exec_queued :
    v.exec s.queued = (if s.bound then s.pool.queued - s.standing v else s.pool.queued, v) := by
  unfold queued
  rw [Scene.exec_ite, Scene.exec_bind, exec_executingOffset]
  split <;> rfl

/-- The bytes left in the block that the controller executes, from the pointer to the next one. -/
def leftover : Except DmaError Nat :=
  if s.bound = false ∨ s.pool.queued ≤ s.standing v then .ok 0
  else if v.nextLink ≠ (v.table.read (s.pool.addressAt (s.standing v))).next then
    .error .residueUnstable
  else .ok (v.remaining * (v.table.read (s.pool.addressAt (s.standing v))).elementBytes)

/-- On a controller that does not move the pointer is the same before and after the count. -/
theorem exec_residue : v.exec s.residue = (s.leftover v, v) := by
  unfold residue leftover
  rw [Scene.exec_ite]
  by_cases hb : s.bound = true
  · rw [if_neg (by simp [hb]), Scene.exec_bind, exec_executingOffset]
    show v.exec (if s.pool.queued ≤ s.standing v then _ else _) = _
    rw [Scene.exec_ite]
    by_cases hle : s.pool.queued ≤ s.standing v
    · rw [if_pos hle, if_pos (.inr hle)]
      rfl
    · -- the pointer is read before the count and after it
      rw [if_neg hle, if_neg (by simp [hb, hle])]
      show v.exec (if v.nextLink ≠ (v.table.read (s.pool.addressAt (s.standing v))).next then _
        else _) = _
      rw [Scene.exec_ite]
      by_cases hnext : v.nextLink ≠ (v.table.read (s.pool.addressAt (s.standing v))).next
      · rw [if_pos hnext, if_pos hnext]
        rfl
      · rw [if_neg hnext, if_neg hnext]
        show v.exec (if v.nextLink ≠ (v.table.read (s.pool.addressAt (s.standing v))).next then _
          else _) = _
        rw [if_neg hnext]
        rfl
  · rw [if_pos (by simp [hb]), if_pos (.inl (Bool.eq_false_iff.mpr hb))]
    rfl

/-! ## Arming -/

/-- The table after every queued block was armed or disarmed anew. -/
def rearmed (t : DescriptorTable) : DescriptorTable :=
  t.updateEach s.pool.addressAt
    (fun offset d =>
      .control (Descriptor.armed d.control (s.wantsInterrupt (offset + 1 = s.pool.queued))))
    0 s.pool.queued

theorem exec_applyInterrupts :
    v.exec s.applyInterrupts = ((), { v with table := s.rearmed v.table }) :=
  Scene.exec_forEach_update s.pool.addressAt _ _ (fun _ _ => rfl) v 0 s.pool.queued

section Rearmed

variable {s} {t : DescriptorTable} (hs : s.pool.Sits t) (a : Nat)

include hs in
theorem next_rearmed : ((s.rearmed t).read a).next = (t.read a).next := by
  by_cases ha : ∃ offset < s.pool.queued, s.pool.addressAt offset = a
  · obtain ⟨offset, ho, rfl⟩ := ha
    rw [rearmed, hs.read_updateEach _ ho]
    rfl
  · -- outside the queue nothing is written
    rw [rearmed, DescriptorTable.read_updateEach_of_ne]
    intro o _ ho heq
    exact ha ⟨o, by omega, heq⟩

include hs in
theorem body_rearmed : ((s.rearmed t).read a).body = (t.read a).body :=
  hs.body_updateEach (fun _ _ => Descriptor.body_arm ..) a

include hs in
/-- A queued block whose completion is wanted is armed. -/
theorem interrupts_rearmed {offset : Nat} (ho : offset < s.pool.queued)
    (hw : s.wantsInterrupt (offset + 1 = s.pool.queued) = true) :
    ((s.rearmed t).read (s.pool.addressAt offset)).interrupts = true := by
  rw [rearmed, hs.read_updateEach _ ho, hw]
  exact Descriptor.interrupts_armed _

theorem size_rearmed : (s.rearmed t).cells.size = t.cells.size :=
  DescriptorTable.size_updateEach ..

end Rearmed

theorem exec_setCallback (callback : Option Callback) :
    v.exec (s.setCallback callback) = ({ s with callback },
      if !s.bound || s.isCircular then
        { v with table := { s with callback }.rearmed v.table }
      else v) := by
  unfold setCallback
  rw [Scene.exec_bind, Scene.exec_when, exec_applyInterrupts]
  show ({ s with callback }, (if !s.bound || s.isCircular then _ else _ : Unit × Scene).2) = _
  split <;> rfl

/-! ## Queueing -/

/-- Whether a block that has just been linked came too late for the controller. -/
def tooLate : Bool :=
  s.bound && !s.isCircular && s.stalled.isNone && (v.current = 0 || v.nextLink = 0)

theorem exec_linkedTooLate : v.exec s.linkedTooLate = (s.tooLate v, v) := by
  unfold linkedTooLate tooLate
  rw [Scene.exec_ite]
  by_cases hb : (s.bound && !s.isCircular && s.stalled.isNone) = true
  · rw [if_pos hb, hb, Bool.true_and, Scene.exec_bind]
    show v.exec (if decide (v.current ≠ 0) then _ else _) = _
    by_cases hc : v.current = 0
    · simp only [ne_eq, hc, not_true, decide_false, Bool.false_eq_true, if_false, decide_true,
        Bool.true_or]
      rfl
    · simp only [ne_eq, hc, not_false_iff, decide_true, if_true, decide_false, Bool.false_or]
      rfl
  · rw [if_neg hb, Bool.eq_false_iff.mpr hb]
    rfl

/-- Whether the block that was queued last is disarmed when another is queued behind it. -/
def disarmsLast : Bool :=
  s.pool.queued ≠ 0 && s.config.silent && (!s.bound || s.isCircular)

/-- The table after a block was queued. -/
def appendedTable (t : DescriptorTable) (source destination elements : Nat) : DescriptorTable :=
  let t := s.pool.pushed t source destination (s.controlWord elements) s.isCircular
  if s.disarmsLast then t.arm (s.pool.addressAt (s.pool.queued - 1)) false else t

section AppendedTable

variable {s} {t : DescriptorTable} (hs : s.pool.Sits t) (source destination elements a : Nat)

include hs in
/-- Disarming the block before leaves the links that queueing made. -/
theorem next_appendedTable :
    ((s.appendedTable t source destination elements).read a).next =
      ((s.pool.pushed t source destination (s.controlWord elements) s.isCircular).read a).next := by
  unfold appendedTable
  split
  · exact DescriptorTable.next_arm _ ((hs.pushed ..).hasCell_at _) false a
  · rfl

include hs in
theorem body_appendedTable :
    ((s.appendedTable t source destination elements).read a).body =
      ((s.pool.pushed t source destination (s.controlWord elements) s.isCircular).read a).body := by
  unfold appendedTable
  split
  · exact DescriptorTable.body_arm _ ((hs.pushed ..).hasCell_at _) false a
  · rfl

include hs in
/-- Queueing writes a new block, links it, and may disarm the block in front of it. -/
theorem read_appendedTable (hroom : s.pool.queued < s.pool.capacity) {offset : Nat}
    (ho : offset ≤ s.pool.queued) {d : Descriptor}
    (hd : (s.pool.pushed t source destination (s.controlWord elements) s.isCircular).read
      (s.pool.addressAt offset) = d) :
    (s.appendedTable t source destination elements).read (s.pool.addressAt offset) =
      if s.disarmsLast = true ∧ offset + 1 = s.pool.queued then
        { d with control := Descriptor.armed d.control false }
      else d := by
  have hcell := (hs.pushed source destination (s.controlWord elements) s.isCircular).hasCell_at
    (s.pool.queued - 1)
  unfold appendedTable
  by_cases hdisarms : s.disarmsLast = true
  · have hq : s.pool.queued ≠ 0 := by
      intro hzero
      simp [disarmsLast, hzero] at hdisarms
    rw [if_pos hdisarms, DescriptorTable.read_arm _ hcell]
    by_cases hlast : offset + 1 = s.pool.queued
    · obtain rfl : offset = s.pool.queued - 1 := by omega
      rw [if_pos rfl, if_pos ⟨hdisarms, hlast⟩, hd]
    · have hne : s.pool.addressAt offset ≠ s.pool.addressAt (s.pool.queued - 1) := by
        intro heq
        have := Pool.addressAt_inj hs.head_lt (by omega) (by omega) heq
        omega
      rw [if_neg hne, if_neg (fun h : _ ∧ _ => hlast h.2), hd]
  · rw [if_neg hdisarms, if_neg (fun h : _ ∧ _ => hdisarms h.1), hd]

theorem size_appendedTable :
    (s.appendedTable t source destination elements).cells.size = t.cells.size := by
  unfold appendedTable
  split
  · exact (DescriptorTable.size_write ..).trans (Pool.size_pushed ..)
  · exact Pool.size_pushed ..

end AppendedTable

/-- The stream after a block was queued, which came too late or not. -/
def appended (late : Bool) : Stream :=
  { s with
    pool := { s.pool with queued := s.pool.queued + 1 }
    stalled := if late then some s.pool.tail else s.stalled
    state := if s.bound then s.state else .ready }

theorem exec_append (destination source size : Nat) :
    v.exec (s.append destination source size) =
      match s.checkBlock destination source size with
      | .error e => ((.error e, s), v)
      | .ok elements =>
        let s := s.discardFinished
        if s.pool.isFull then ((.error .poolFull, s), v)
        else
          let linked :=
            { v with
              table :=
                s.pool.pushed v.table source destination (s.controlWord elements) s.isCircular }
          ((.ok (), s.appended (s.tooLate linked)),
            { v with table := s.appendedTable v.table source destination elements }) := by
  unfold append
  cases s.checkBlock destination source size with
  | error e => rfl
  | ok elements =>
    show v.exec (_ >>= _) = _
    rw [Scene.exec_bind, Pool.exec_push]
    by_cases hfull : s.discardFinished.pool.isFull = true
    · simp only [hfull, if_true]
      rfl
    · simp only [hfull, if_false, Bool.false_eq_true]
      rw [Scene.exec_bind, exec_linkedTooLate, Scene.exec_bind, Scene.exec_when]
      unfold appendedTable disarmsLast
      split <;> rfl

/-! ## Starting and stopping -/

/-- The table that a chain is started with. -/
def startedTable (t : DescriptorTable) : DescriptorTable :=
  s.rearmed (s.pool.relinked t s.isCircular)

section StartedTable

variable {s} {t : DescriptorTable} (hs : s.pool.Sits t)

theorem size_startedTable : (s.startedTable t).cells.size = t.cells.size :=
  size_rearmed.trans (DescriptorTable.size_updateEach ..)

include hs in
theorem linked_startedTable : s.pool.Linked (s.startedTable t) s.isCircular := by
  intro offset ho
  rw [startedTable, next_rearmed (hs.relinked _), hs.linked_relinked s.isCircular offset ho]

include hs in
theorem body_startedTable (a : Nat) : ((s.startedTable t).read a).body = (t.read a).body := by
  rw [startedTable, body_rearmed (hs.relinked _), hs.body_relinked]

include hs in
theorem interrupts_startedTable {offset : Nat} (ho : offset < s.pool.queued)
    (hw : s.wantsInterrupt (offset + 1 = s.pool.queued) = true) :
    ((s.startedTable t).read (s.pool.addressAt offset)).interrupts = true :=
  interrupts_rearmed (hs.relinked _) ho hw

end StartedTable

theorem exec_enable :
    v.exec s.enable =
      if s.bound ∨ s.pool.queued = 0 then ((.error (.io .invalidState), s), v)
      else match v.ownership.bind s.channel.number s.owner with
        | (.error e, ownership) => ((.error e, { s with state := .error }), { v with ownership })
        | (.ok (), ownership) =>
          ((.ok (), { s with bound := true, stalled := none, state := .busy }),
            { v with ownership, table := s.startedTable v.table }.start (s.pool.addressAt 0)) := by
  unfold enable
  rw [Scene.exec_ite]
  by_cases hb : s.bound ∨ s.pool.queued = 0
  · rw [if_pos (by simpa [Pool.isEmpty] using hb), if_pos hb]
    rfl
  · rw [if_neg (by simpa [Pool.isEmpty] using hb), if_neg hb, Scene.exec_bind]
    rcases hbind : v.ownership.bind s.channel.number s.owner with ⟨granted, ownership⟩
    have hperform : v.exec (perform (.bind s.channel.number s.owner)) =
        (granted, { v with ownership }) := by
      rw [Scene.exec_perform, Scene.answer, hbind]
    rw [hperform]
    cases granted with
    | error e => rfl
    | ok u =>
      show Scene.exec _ (_ >>= _) = _
      rw [Scene.exec_bind, Pool.exec_relink, Scene.exec_bind, exec_applyInterrupts]
      rfl

variable {s v} in
/-- What `enable` comes to on a stream that has blocks and does not hold its channel. -/
theorem enable_cases (hb : s.bound = false) (hq : s.pool.queued ≠ 0) :
    (∃ e ownership,
      v.exec s.enable = ((.error e, { s with state := .error }), { v with ownership })) ∨
    ∃ ownership, v.exec s.enable =
      ((.ok (), { s with bound := true, stalled := none, state := .busy }),
        { v with ownership, table := s.startedTable v.table }.start (s.pool.addressAt 0)) := by
  have hne : ¬(s.bound = true ∨ s.pool.queued = 0) := by
    rw [hb]
    exact not_or.mpr ⟨Bool.false_ne_true, hq⟩
  rw [exec_enable, if_neg hne]
  rcases v.ownership.bind s.channel.number s.owner with ⟨granted, ownership⟩
  cases granted with
  | error e => exact .inl ⟨e, ownership, rfl⟩
  | ok u => exact .inr ⟨ownership, rfl⟩

theorem exec_releaseIfBound :
    v.exec s.releaseIfBound =
      if s.bound then
        ({ s with bound := false, stalled := none }, v.released s.channel.number s.owner)
      else (s, v) := by
  unfold releaseIfBound
  rw [Scene.exec_ite]
  rfl

theorem exec_disable :
    v.exec s.disable =
      if s.bound then
        ({ s with
          bound := false, stalled := none
          state := if s.state = .busy ∨ s.state = .timeout then .done else s.state },
          v.released s.channel.number s.owner)
      else (s, v) := by
  unfold disable
  rw [Scene.exec_ite]
  cases s.bound <;> rfl

theorem exec_clear :
    v.exec s.clear =
      if s.bound then
        ({ s with bound := false, stalled := none, pool := s.pool.reset, state := .idle },
          v.released s.channel.number s.owner)
      else ({ s with pool := s.pool.reset, state := .idle }, v) := by
  unfold clear
  rw [Scene.exec_bind, exec_releaseIfBound]
  split <;> rfl

/-! ## Events -/

/-- The stream after it forgot what the controller has moved past. -/
def retired : Stream :=
  if s.isCircular then s else { s with pool := s.pool.retire (s.standing v) }

theorem exec_retirePassed : v.exec s.retirePassed = (s.retired v, v) := by
  unfold retirePassed retired
  rw [Scene.exec_ite, Scene.exec_bind, exec_executingOffset]
  split <;> rfl

/-- Waiting for an empty FIFO changes nothing but the data left in it. -/
theorem exec_awaitDrained (spins : Nat) :
    ∃ left, (v.exec (awaitDrained spins)).2 = { v with pendingPolls := left } := by
  induction spins generalizing v with
  | zero => exact ⟨v.pendingPolls - 1, rfl⟩
  | succ spins ih =>
    unfold awaitDrained
    rw [Scene.exec_bind]
    show ∃ left, (Scene.exec { v with pendingPolls := v.pendingPolls - 1 }
      (if decide (v.pendingPolls ≠ 0) then _ else _)).2 = _
    rw [Scene.exec_ite]
    split
    · exact ih { v with pendingPolls := v.pendingPolls - 1 }
    · exact ⟨v.pendingPolls - 1, rfl⟩

/-- A drained channel goes on; that it was paused is not seen on the scene. -/
theorem exec_drainAndResume :
    v.exec s.drainAndResume = ((), (v.exec (awaitDrained drainSpinLimit)).2) := by
  unfold drainAndResume
  rw [Scene.exec_bind, Scene.exec_bind]
  show Scene.exec (v.exec (awaitDrained drainSpinLimit)).2 _ = _
  rw [Scene.exec_bind, Scene.exec_when]
  split <;> rfl

theorem exec_notify : v.exec s.notify = ((), v) := by
  unfold notify
  cases s.callback with
  | none => rfl
  | some callback => cases callback <;> rfl

theorem exec_onInterrupt (event : TransferEvent) :
    v.exec (s.onInterrupt event) =
      if s.bound then
        ((some (v.exec (s.react event)).1.status, (v.exec (s.react event)).1),
          (v.exec (s.react event)).2)
      else ((none, s), v) := by
  unfold onInterrupt
  rw [Scene.exec_ite, Scene.exec_bind, Scene.exec_bind, exec_notify]
  cases s.bound <;> rfl

theorem exec_react_progress :
    v.exec (s.react .progress) = ({ s.retired v with state := .busy }, v) := by
  show v.exec (s.retirePassed >>= _) = _
  rw [Scene.exec_bind, exec_retirePassed]
  rfl

/-- A completion either restarts the chain at the first block that is left, or gives the channel
back. -/
theorem exec_react_complete :
    v.exec (s.react .complete) =
      if s.isCircular = false ∧ (s.retired v).pool.queued ≠ 0 then
        ({ s.retired v with stalled := none, state := .busy },
          v.start ((s.retired v).pool.addressAt 0))
      else
        ({ s.retired v with bound := false, stalled := none, state := .done },
          v.released s.channel.number s.owner) := by
  have hcirc : (s.retired v).isCircular = s.isCircular := by
    unfold retired
    split <;> rfl
  have hchannel : (s.retired v).channel = s.channel ∧ (s.retired v).owner = s.owner := by
    unfold retired
    split <;> exact ⟨rfl, rfl⟩
  show v.exec (s.retirePassed >>= _) = _
  rw [Scene.exec_bind, exec_retirePassed]
  show v.exec
    (if (!(s.retired v).isCircular && !(s.retired v).pool.isEmpty) = true then _ else _) = _
  rw [Scene.exec_ite, hcirc]
  -- blocks that are left keep the channel, an empty queue gives it back
  by_cases h : s.isCircular = false ∧ (s.retired v).pool.queued ≠ 0
  · rw [if_pos h, if_pos (by simpa [Pool.isEmpty] using h)]
    rfl
  · rw [if_neg h, if_neg (by simpa [Pool.isEmpty] using h), ← hchannel.1, ← hchannel.2]
    rfl

theorem exec_react_busError :
    v.exec (s.react .busError) =
      ({ s with bound := false, stalled := none, state := .error },
        v.released s.channel.number s.owner) := rfl

theorem exec_react_timeout_eq :
    v.exec (s.react .timeout) =
      if s.config.timeoutPolicy = .abort then
        ({ s with bound := false, stalled := none, state := .timeout },
          v.released s.channel.number s.owner)
      else ({ s with state := .timeout }, (v.exec (awaitDrained drainSpinLimit)).2) := by
  unfold react onTimeout
  rw [Scene.exec_bind]
  cases s.config.timeoutPolicy with
  | abort => rfl
  | restart =>
    show v.exec (s.drainAndResume >>= _) = _
    rw [Scene.exec_bind, exec_drainAndResume]
    rfl

theorem exec_react_timeout :
    ∃ left, v.exec (s.react .timeout) =
      if s.config.timeoutPolicy = .abort then
        ({ s with bound := false, stalled := none, state := .timeout },
          v.released s.channel.number s.owner)
      else ({ s with state := .timeout }, { v with pendingPolls := left }) := by
  obtain ⟨left, hleft⟩ := exec_awaitDrained v drainSpinLimit
  exact ⟨left, by rw [exec_react_timeout_eq, hleft]⟩

/-! ## Descriptors that no operation reprograms -/

section Bodies

theorem table_onInterrupt (event : TransferEvent) :
    (v.exec (s.onInterrupt event)).2.table = v.table := by
  rw [exec_onInterrupt]
  split
  · cases event with
    | progress => rw [exec_react_progress]
    | complete =>
      rw [exec_react_complete]
      split <;> rfl
    | busError => rfl
    | timeout =>
      obtain ⟨left, hleft⟩ := exec_react_timeout s v
      rw [hleft]
      split <;> rfl
  · rfl

theorem table_disable : (v.exec s.disable).2.table = v.table := by
  rw [exec_disable]
  split <;> rfl

theorem table_clear : (v.exec s.clear).2.table = v.table := by
  rw [exec_clear]
  split <;> rfl

variable {s v} (hs : s.pool.Sits v.table) (a : Nat)

include hs in
theorem body_setCallback (callback : Option Callback) :
    ((v.exec (s.setCallback callback)).2.table.read a).body = (v.table.read a).body := by
  rw [exec_setCallback]
  split
  · exact body_rearmed (s := { s with callback }) hs a
  · rfl

include hs in
theorem body_enable : ((v.exec s.enable).2.table.read a).body = (v.table.read a).body := by
  rw [exec_enable]
  split
  · rfl
  · split
    · rfl
    · exact body_startedTable hs a

include hs in
/-- Queueing a block reprograms its own slot only. -/
theorem body_appendedTable_of_ne (hroom : s.pool.queued < s.pool.capacity)
    (source destination elements : Nat) (ha : a ≠ s.pool.addressAt s.pool.queued) :
    ((s.appendedTable v.table source destination elements).read a).body =
      (v.table.read a).body := by
  rw [body_appendedTable hs, hs.read_pushed _ _ _ _ hroom, if_neg ha]
  split <;> rfl

end Bodies

/-! ## What no operation changes -/

/-- The parts of a stream that are settled when it is made. -/
structure Same (s s' : Stream) : Prop where
  channel : s'.channel = s.channel
  owner : s'.owner = s.owner
  mode : s'.config.mode = s.config.mode
  timeoutPolicy : s'.config.timeoutPolicy = s.config.timeoutPolicy
  capacity : s'.pool.capacity = s.pool.capacity

theorem Same.refl : s.Same s :=
  ⟨rfl, rfl, rfl, rfl, rfl⟩

variable {s} in
theorem Same.isCircular {s' : Stream} (h : s.Same s') : s'.isCircular = s.isCircular := by
  rw [Stream.isCircular, Stream.isCircular, h.mode]

theorem same_configure (settings : TransferSettings) : s.Same (s.configure settings).2 := by
  unfold configure
  split
  · exact .refl s
  · split <;> exact ⟨rfl, rfl, rfl, rfl, rfl⟩

theorem same_setCallback (callback : Option Callback) :
    s.Same (v.exec (s.setCallback callback)).1 := by
  rw [exec_setCallback]
  exact ⟨rfl, rfl, rfl, rfl, rfl⟩

/-- The parts of a stream that only `configure` and `setCallback` can change. -/
structure Kept (s s' : Stream) : Prop where
  channel : s'.channel = s.channel
  owner : s'.owner = s.owner
  config : s'.config = s.config
  callback : s'.callback = s.callback
  capacity : s'.pool.capacity = s.pool.capacity

theorem Kept.refl : s.Kept s :=
  ⟨rfl, rfl, rfl, rfl, rfl⟩

variable {s} in
theorem Kept.trans {s' s'' : Stream} (h : s.Kept s') (h' : s'.Kept s'') : s.Kept s'' :=
  ⟨h'.channel.trans h.channel, h'.owner.trans h.owner, h'.config.trans h.config,
    h'.callback.trans h.callback, h'.capacity.trans h.capacity⟩

variable {s} in
theorem Kept.same {s' : Stream} (h : s.Kept s') : s.Same s' where
  channel := h.channel
  owner := h.owner
  mode := by rw [h.config]
  timeoutPolicy := by rw [h.config]
  capacity := h.capacity

theorem kept_discardFinished : s.Kept s.discardFinished := by
  unfold discardFinished
  split <;> exact ⟨rfl, rfl, rfl, rfl, rfl⟩

theorem kept_retired : s.Kept (s.retired v) := by
  unfold retired
  split <;> exact ⟨rfl, rfl, rfl, rfl, rfl⟩

end Stream

end ScatterGather
