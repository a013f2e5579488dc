import ScatterGather.Proofs.Interleaving

/-!
# ScatterGather.Proofs.LateLink — queueing behind a controller that does not wait

A block is linked behind the tail of a running chain, and then the driver asks the controller
whether the link came in time. `afterLink` is the pace at which the controller moves on between the
link and these reads. The driver then cannot tell a controller that stopped in front of the new
block from one that followed the new link: `LateLink.marked` says that the block is marked as missed
as soon as the controller is not in front of it any more.

A mark makes the next completion start again at the marked block. For a controller that stopped in
front of the link that is the first time that the block is executed (`LateLink.first`); for one that
followed it, it is the second (`LateLink.again`).
-/

namespace ScatterGather

namespace Stream

/-- Nothing happens before a block is linked; then come the moves before the controller is asked
whether it runs, and those before it is asked where it goes next. -/
def afterLink (s : Stream) (amid later : List Action) : List (List Action) :=
  List.replicate (if s.pool.queued = 0 then 4 else 5) [] ++ [amid, later]

section Linked

variable {s : Stream} {v : Scene} {k : Nat} (hb : s.bound = true) (hm : s.isCircular = false)
  (hst : s.stalled = none) (hroom : s.pool.queued < s.pool.capacity)

include hb hm hst hroom in
/-- A controller that executes when a block is linked can go on to it. One that has stopped counts
as standing behind it, as long as the driver has not asked. -/
theorem Sound.linked (h : s.Sound v k) (source destination elements : Nat) :
    ∃ k', (s.appended false).Sound (s.linkedScene v source destination elements) k' ∧
      (v.current ≠ 0 → k' < s.pool.queued) := by
  have he := h.engaged hb
  have hreach : (s.appended false).reachable = s.pool.queued + 1 := reachable_of_none hst
  obtain ⟨k', hstands, hbefore⟩ : ∃ k', (s.appended false).StandsAt
      (s.linkedScene v source destination elements) k' ∧
        (v.current ≠ 0 → k' < s.pool.queued) := by
    by_cases hc : v.current = 0
    · exact ⟨_, .stopped hc, fun hne => absurd hc hne⟩
    · obtain ⟨hq, hcur⟩ := he.stands.executing hc
      exact ⟨k, .running (Nat.lt_succ_of_lt hq) hcur hst, fun _ => hq⟩
  have hsits : Pool.Sits { s.pool with queued := s.pool.queued + 1 }
      (s.linkedScene v source destination elements).table :=
    Pool.Sits.mono ⟨h.sits.capacity_pos, h.sits.head_lt, hroom, h.sits.row⟩
      (Nat.le_of_eq (Pool.size_pushed ..).symm)
  refine ⟨k', ⟨hsits, h.head_zero, h.template, fun _ => ⟨?_, hstands, ?_, ?_⟩, ?_⟩, hbefore⟩
  · exact he.linked.push source destination _ _ h.sits hroom
  · intro slot hslot
    rw [show s.stalled = some slot from hslot] at hst
    cases hst
  · intro hcirc
    rw [show s.isCircular = true from hcirc] at hm
    cases hm
  · intro hb'
    rw [show s.bound = false from hb'] at hb
    cases hb

include hb hm hroom in
/-- Once a block is marked, a controller that has stopped counts as standing in front of it. -/
theorem Sound.marked (h : (s.appended false).Sound v k) (hc : v.current = 0) :
    (s.appended true).Sound v s.pool.queued := by
  have htail : s.pool.offsetOf s.pool.tail = s.pool.queued :=
    Pool.offsetOf_slotAt h.sits.head_lt hroom
  have hlt : s.pool.offsetOf s.pool.tail < s.pool.queued + 1 := by omega
  have hreach : (s.appended true).reachable = s.pool.queued :=
    (reachable_of_some (s := s.appended true) rfl hlt).trans htail
  refine ⟨h.sits, h.head_zero, h.template, fun _ => ⟨(h.engaged hb).linked, hreach ▸ .stopped hc,
    ?_, ?_⟩, ?_⟩
  · intro slot hslot
    obtain rfl : s.pool.tail = slot := Option.some.inj hslot
    exact ⟨Pool.slotAt_lt h.sits.capacity_pos _, hlt⟩
  · intro hcirc
    rw [show s.isCircular = true from hcirc] at hm
    cases hm
  · intro hb'
    rw [show s.bound = false from hb'] at hb
    cases hb

end Linked

end Stream

namespace Rig

variable {r : Rig} {s : Stream} {k : Nat}

/-! ## Between the link and the reads -/

/-- The rig once a block is linked and before the controller is asked where it is. -/
def linked (r : Rig) (destination source elements : Nat) : Rig :=
  { r with
    machine := (r.machine.exec r.hardware
      (r.stream.pool.push source destination (r.stream.controlWord elements)
        r.stream.isCircular)).2 }

/-- The controller is asked whether it runs, and where it goes next, and moves on in between. Says
whether the block that was just linked is taken to have come too late. -/
def asked (r : Rig) (later : List Action) : Bool × Rig :=
  if r.machine.isActive r.hardware then
    let r := r.run later
    let (next, machine) := r.machine.readNext r.hardware
    (next = 0, { r with machine })
  else (true, r)

/-- Nothing happens before the link. -/
theorem run_push (r : Rig) (p : Pool) (destination source : Nat) (control : UInt32)
    (pace : List (List Action)) (hroom : p.queued < p.capacity) :
    (p.push source destination control false).run answerAmid
        (r, List.replicate (if p.queued = 0 then 4 else 5) [] ++ pace) =
      (some { p with queued := p.queued + 1 },
        { r with
          machine := (r.machine.exec r.hardware (p.push source destination control false)).2 },
        pace) := by
  rcases p with ⟨base, capacity, head, queued⟩
  have hfull : ¬queued = capacity := by
    rintro rfl
    exact absurd hroom (Nat.lt_irrefl _)
  unfold Pool.push
  rw [if_neg (by simpa [Pool.isFull] using hfull)]
  cases queued <;> rfl

theorem run_linkedTooLate (r : Rig) {s : Stream} (amid later : List Action) (hb : s.bound = true)
    (hm : s.isCircular = false) (hst : s.stalled = none) :
    ∃ pace, s.linkedTooLate.run answerAmid (r, [amid, later]) =
      (((r.run amid).asked later).1, ((r.run amid).asked later).2, pace) := by
  have hasks : (s.bound && !s.isCircular && s.stalled.isNone) = true := by
    rw [hb, hm, hst]
    rfl
  unfold Stream.linkedTooLate asked
  rw [if_pos hasks]
  show ∃ pace, Script.run answerAmid
      (if (r.run amid).machine.isActive (r.run amid).hardware then _ else _)
      (r.run amid, [later]) = _
  by_cases hactive : (r.run amid).machine.isActive (r.run amid).hardware = true
  · rw [if_pos hactive, if_pos hactive]
    exact ⟨[], rfl⟩
  · rw [if_neg hactive, if_neg hactive]
    exact ⟨[later], rfl⟩

/-- What queueing comes to when the controller moves on between the link and the reads. -/
theorem appendAmid_afterLink {destination source size elements : Nat} {amid later : List Action}
    (hb : r.stream.bound = true) (hm : r.stream.isCircular = false)
    (hst : r.stream.stalled = none)
    (hcheck : r.stream.checkBlock destination source size = .ok elements)
    (hroom : r.stream.pool.queued < r.stream.pool.capacity) :
    r.appendAmid (r.stream.afterLink amid later) destination source size =
      let (late, r') := ((r.linked destination source elements).run amid).asked later
      { r' with
        stream := r.stream.appended late
        accepted := r'.accepted ++ r.stream.requested destination source size (.ok ()) } := by
  obtain ⟨pace, hreads⟩ :=
    (r.linked destination source elements).run_linkedTooLate amid later hb hm hst
  -- a running one-shot chain keeps its old tail armed
  have hdisarms : (r.stream.pool.queued ≠ 0 && r.stream.config.silent &&
      (!r.stream.bound || r.stream.isCircular)) = false := by
    rw [hb, hm, Bool.not_true, Bool.false_or, Bool.and_false]
  unfold appendAmid execAmid Stream.append
  rw [hcheck]
  simp only [Stream.discardFinished_bound hb, Script.bind_eq, Script.run_bind]
  rw [Stream.afterLink]
  have hpush := r.run_push r.stream.pool destination source (r.stream.controlWord elements)
    [amid, later] hroom
  rw [← hm] at hpush
  rw [hpush]
  simp only [Script.run_bind]
  rw [hdisarms]
  unfold linked at hreads ⊢
  rw [hreads]
  rfl

/-! ## Following the link -/

/-- A rig in the middle of queueing a block: the block is linked, and the stream does not know yet
where that finds the controller. -/
structure Following (s : Stream) (block : Block) (went : Prop) (r : Rig) (k : Nat) : Prop where
  attached : r.Attached
  /-- The controller stands at an offset of the queue with the new block. -/
  sound : (s.appended false).Sound r.scene k
  newest : (r.machine.table.read (s.pool.addressAt s.pool.queued)).block = block
  /-- A controller that has come behind the new block has just executed it, unless it had stopped
  before. -/
  last : went → s.pool.queued < k → r.executed.getLast? = some block

variable {block : Block} {went : Prop}

theorem Following.congr {r' : Rig} (h : r.Following s block went k) (ha : r'.Attached)
    (hscene : r'.scene = r.scene) (hexec : r'.executed = r.executed) :
    r'.Following s block went k where
  attached := ha
  sound := hscene ▸ h.sound
  newest := by
    have htable : r'.machine.table = r.machine.table := congrArg Scene.table hscene
    rw [htable]
    exact h.newest
  last := by
    rw [hexec]
    exact h.last

theorem Following.step (h : r.Following s block went k) (hm : s.isCircular = false) {a : Action}
    (ha : a.autonomous = true) : ∃ k', (r.step a).Following s block went k' := by
  have hattached := h.attached.step a
  cases a with
  | moveElements count =>
    have hscene : (r.step (.moveElements count)).scene = r.scene.moveElements count :=
      h.attached.scene_moveElements count
    refine ⟨k, hattached, ?_, h.newest, h.last⟩
    rw [hscene]
    exact h.sound.moveElements count
  | finish =>
    have hscene : (r.step .finish).scene = r.scene.finish := h.attached.scene_finish
    have hsound := h.sound.finish
    rw [← hscene] at hsound
    by_cases hc : r.scene.current = 0
    · rw [if_pos hc] at hsound
      refine ⟨k, hattached, hsound, h.newest, ?_⟩
      rw [(h.attached.step_stopped hc rfl).2]
      exact h.last
    · rw [if_neg hc, Stream.follow_oneShot (show (s.appended false).isCircular = false from hm)]
        at hsound
      obtain ⟨-, hq, hcur⟩ := h.sound.executing hc
      refine ⟨k + 1, hattached, hsound, h.newest, ?_⟩
      intro _ hpast
      have hlast : s.pool.queued = k := by
        have hle : k < s.pool.queued + 1 := hq
        omega
      have hexecuting : r.executing = [block] := by
        have hrunning : r.controller.isRunning = true := decide_eq_true hc
        have hat : r.controller.current = s.pool.addressAt s.pool.queued := by
          rw [hlast]
          exact hcur
        rw [executing, if_pos hrunning, hat, h.newest]
      show (r.executed ++ r.executing).getLast? = some block
      rw [hexecuting, List.getLast?_concat]
  | _ => cases ha

theorem Following.run (h : r.Following s block went k) (hm : s.isCircular = false)
    {moves : List Action} (hmoves : ∀ a ∈ moves, a.autonomous = true) :
    ∃ k', (r.run moves).Following s block went k' :=
  run_induction (P := fun r => ∃ k, r.Following s block went k)
    (Q := fun a => a.autonomous = true) ⟨k, h⟩
    (fun _ _ ha hr => hr.elim fun _ hk => hk.step hm ha) moves hmoves

theorem Following.withStream (h : r.Following s block went k) {stream : Stream}
    (hchannel : stream.channel = r.stream.channel) (accepted : List Block) :
    ({ r with stream, accepted } : Rig).Following s block went k := by
  have ha := h.attached
  refine h.congr ?_ rfl rfl
  unfold Attached at ha ⊢
  rw [hchannel]
  exact ha

section Reads

variable (h : r.Following s block went k) (hb : s.bound = true) (hm : s.isCircular = false)
  (hst : s.stalled = none) (hroom : s.pool.queued < s.pool.capacity)

include h hb hst in
/-- Behind the new block the controller has stopped. -/
theorem Following.stopped_iff : r.scene.current = 0 ↔ s.pool.queued < k := by
  have hreach : (s.appended false).reachable = s.pool.queued + 1 :=
    Stream.reachable_of_none hst
  constructor
  · intro hc
    cases (h.sound.engaged hb).stands with
    | running _ hcur _ => exact absurd (hcur ▸ hc) (h.sound.sits.addressAt_ne_zero k)
    | stopped _ => omega
  · intro hpast
    exact (h.sound.engaged hb).stands.stopped_of_le hpast

include h hb hm hst in
/-- The controller goes nowhere once it executes the new block, and not before. -/
theorem Following.nextLink_iff : r.scene.nextLink = 0 ↔ s.pool.queued ≤ k := by
  by_cases hc : r.scene.current = 0
  · have hpast := (h.stopped_iff hb hst).mp hc
    exact ⟨fun _ => Nat.le_of_lt hpast, fun _ => if_pos hc⟩
  · obtain ⟨-, hq, hcur⟩ := h.sound.executing hc
    have hlink : r.scene.nextLink =
        (s.appended false).pool.linkAt (s.appended false).isCircular k := by
      rw [Scene.nextLink, if_neg hc, hcur, (h.sound.engaged hb).linked k hq]
    have hm' : (s.appended false).isCircular = false := hm
    rw [hlink, hm', Pool.linkAt]
    by_cases hbefore : k + 1 < (s.appended false).pool.queued
    · have hlt : k + 1 < s.pool.queued + 1 := hbefore
      rw [if_pos hbefore]
      refine ⟨fun hz => absurd hz (h.sound.sits.addressAt_ne_zero _), fun hle => ?_⟩
      omega
    · have hge : ¬k + 1 < s.pool.queued + 1 := hbefore
      rw [if_neg hbefore]
      exact ⟨fun _ => by omega, fun _ => rfl⟩

include h hb hst hroom in
/-- The controller is past the old blocks when it has stopped or executes the new one. -/
theorem Following.past_iff : s.pool.queued ≤ k ↔
    r.controller.current = 0 ∨ r.controller.current = s.pool.addressOf s.pool.tail := by
  have hstop : r.controller.current = 0 ↔ s.pool.queued < k := h.stopped_iff hb hst
  by_cases hc : r.controller.current = 0
  · have hpast := hstop.mp hc
    exact ⟨fun _ => .inl hc, fun _ => Nat.le_of_lt hpast⟩
  · obtain ⟨-, hq, hcur⟩ := h.sound.executing hc
    have hq' : k < s.pool.queued + 1 := hq
    have hcur' : r.controller.current = s.pool.addressAt k := hcur
    constructor
    · intro hle
      obtain rfl : k = s.pool.queued := by omega
      exact .inr hcur'
    · rintro (hz | hnew)
      · exact absurd hz hc
      · have hsame : s.pool.addressAt k = s.pool.addressAt s.pool.queued := hcur'.symm.trans hnew
        have hhead : s.pool.head < s.pool.capacity := h.sound.sits.head_lt
        have hk := Pool.addressAt_inj hhead (by omega) hroom hsame
        exact Nat.le_of_eq hk.symm

include h hb hm hst in
/-- The block is taken to have come too late as soon as the controller is past the old ones. -/
theorem Following.asked {later : List Action} (hlater : ∀ a ∈ later, a.autonomous = true) :
    ∃ k', (r.asked later).2.Following s block went k' ∧
      (r.asked later).1 = decide (s.pool.queued ≤ k') := by
  have hhw : r.hardware = .controller r.index := h.attached.hardware
  have hactive : r.machine.isActive r.hardware = decide (r.scene.current ≠ 0) := by
    rw [hhw]
    rfl
  unfold Rig.asked
  by_cases hc : r.scene.current = 0
  · rw [hactive, if_neg (by simp [hc])]
    have hpast := (h.stopped_iff hb hst).mp hc
    exact ⟨k, h, (decide_eq_true (Nat.le_of_lt hpast)).symm⟩
  · rw [hactive, if_pos (by simp [hc])]
    obtain ⟨k', hk'⟩ := h.run hm hlater
    have hread := hk'.attached.exec (perform .nextPointer)
    have hsteady := Machine.steady_exec (i := (r.run later).index) (r.run later).machine
      (r.run later).hardware (perform .nextPointer)
    refine ⟨k', hk'.congr (hk'.attached.steady (.refl _) hsteady rfl) hread.2 rfl, ?_⟩
    have hnext : ((r.run later).machine.readNext (r.run later).hardware).1 =
        (r.run later).scene.nextLink := hread.1
    show decide (((r.run later).machine.readNext (r.run later).hardware).1 = 0) = _
    rw [hnext]
    exact decide_eq_decide.mpr (hk'.nextLink_iff hb hm hst)

end Reads

/-! ## What a mark means -/

/-- What queueing a block behind a running chain comes to, when the controller has moved on before
it was asked. -/
structure LateLink (r r' : Rig) : Prop where
  /-- The block is marked as soon as the controller is past the old ones, by the end of the chain or
  by the new link. -/
  marked : r'.stream.stalled = some r.stream.pool.tail ↔
    r'.controller.current = 0 ∨
      r'.controller.current = r.stream.pool.addressOf r.stream.pool.tail
  /-- A controller that stopped before the link has executed nothing since. -/
  first : r.controller.current = 0 → r'.controller.current = 0 ∧ r'.executed = r.executed
  /-- However the controller came to stop, a completion starts it again at a marked block. -/
  restarts : r'.stream.stalled = some r.stream.pool.tail →
    ∀ moves, (∀ a ∈ moves, a.autonomous = true) → (r'.run moves).controller.current = 0 →
      ((r'.run moves).interrupt .complete).controller.current =
        r.stream.pool.addressOf r.stream.pool.tail
  /-- For a controller that followed the link, this is the block that it executed last. -/
  again : r.controller.current ≠ 0 → r'.stream.stalled = some r.stream.pool.tail →
    ∀ moves, (∀ a ∈ moves, a.autonomous = true) → (r'.run moves).controller.current = 0 →
      ∃ block, (r'.run moves).executed.getLast? = some block ∧
        ((r'.run moves).interrupt .complete).executing = [block]

theorem Attached.run_stopped (h : r.Attached) (hc : r.controller.current = 0) {moves : List Action}
    (hmoves : ∀ a ∈ moves, a.autonomous = true) :
    (r.run moves).controller.current = 0 ∧ (r.run moves).executed = r.executed := by
  have hrun := run_induction (P := fun r' => r'.Attached ∧ r'.controller.current = 0 ∧
    r'.executed = r.executed) (Q := fun a => a.autonomous = true) ⟨h, hc, rfl⟩
    (fun r' a ha hr' => by
      obtain ⟨hattached, hstop, hsame⟩ := hr'
      obtain ⟨hstop', hsame'⟩ := hattached.step_stopped hstop ha
      exact ⟨hattached.step a, hstop', hsame'.trans hsame⟩) moves hmoves
  exact hrun.2

/-- A completion that finds the controller stopped behind a marked block starts that block again. -/
theorem Following.complete_marked (h : r.Following s block went k) (hb : s.bound = true)
    (hm : s.isCircular = false) (hroom : s.pool.queued < s.pool.capacity)
    (hstream : r.stream = s.appended true) (hc : r.controller.current = 0) :
    (r.interrupt .complete).controller.current = s.pool.addressOf s.pool.tail ∧
      (r.interrupt .complete).executing = [block] := by
  have hmarked := h.sound.marked hb hm hroom hc
  have hexec : (r.scene.exec (r.stream.onInterrupt .complete)).2 =
      r.scene.start (s.pool.addressOf s.pool.tail) := by
    rw [hstream, hmarked.exec_complete_restarts hb hm (Nat.lt_succ_self _)]
    rfl
  have hscene : (r.interrupt .complete).scene = r.scene.start (s.pool.addressOf s.pool.tail) :=
    (h.attached.exec (r.stream.onInterrupt .complete)).2.trans hexec
  have hcurrent : (r.interrupt .complete).controller.current = s.pool.addressOf s.pool.tail :=
    congrArg Scene.current hscene
  have htable : (r.interrupt .complete).machine.table = r.machine.table :=
    congrArg Scene.table hscene
  have hne : s.pool.addressOf s.pool.tail ≠ 0 := h.sound.sits.addressAt_ne_zero s.pool.queued
  have hrunning : (r.interrupt .complete).controller.isRunning = true :=
    decide_eq_true (hcurrent ▸ hne)
  refine ⟨hcurrent, ?_⟩
  rw [executing, if_pos hrunning, hcurrent, htable]
  exact congrArg (fun block => [block]) h.newest

section LateLink

variable {destination source size elements : Nat} {amid later : List Action}
  (hb : r.stream.bound = true) (hm : r.stream.isCircular = false) (hst : r.stream.stalled = none)
  (hcheck : r.stream.checkBlock destination source size = .ok elements)
  (hroom : r.stream.pool.queued < r.stream.pool.capacity)
  (hamid : ∀ a ∈ amid, a.autonomous = true) (hlater : ∀ a ∈ later, a.autonomous = true)

theorem Attached.scene_linked (ha : r.Attached)
    (hroom : r.stream.pool.queued < r.stream.pool.capacity) (destination source elements : Nat) :
    (r.linked destination source elements).Attached ∧
      (r.linked destination source elements).scene =
        r.stream.linkedScene r.scene source destination elements := by
  have hfull : ¬r.stream.pool.isFull = true := by
    rw [Pool.isFull, decide_eq_true_iff]
    omega
  refine ⟨ha.steady (.refl _) (Machine.steady_exec ..) rfl, ?_⟩
  apply (ha.exec _).2.trans
  show (Scene.exec r.scene _).2 = _
  rw [Pool.exec_push, if_neg hfull]
  rfl

include hb hm hst hroom in
theorem Attached.following_linked (ha : r.Attached) (h : r.stream.Sound r.scene k)
    (destination source elements : Nat) :
    ∃ block k', (r.linked destination source elements).Following r.stream block
      (r.controller.current ≠ 0) k' := by
  obtain ⟨ha', hscene⟩ := ha.scene_linked hroom destination source elements
  obtain ⟨k', hsound, hbefore⟩ := h.linked hb hm hst hroom source destination elements
  rw [← hscene] at hsound
  refine ⟨_, k', ha', hsound, rfl, ?_⟩
  intro hwent hpast
  have hlt := hbefore hwent
  omega

theorem stream_asked (hlater : ∀ a ∈ later, a.autonomous = true) :
    (r.asked later).2.stream = r.stream := by
  unfold asked
  split
  · exact stream_run hlater
  · rfl

theorem Attached.asked_stopped (ha : r.Attached) (hc : r.controller.current = 0) :
    (r.asked later).2 = r := by
  have hhw : r.hardware = .controller r.index := ha.hardware
  have hactive : r.machine.isActive r.hardware = decide (r.controller.current ≠ 0) := by
    rw [hhw]
    rfl
  rw [asked, if_neg (by simp [hactive, hc])]

include hb hm hst hcheck hroom hamid hlater in
theorem Attached.lateLink_append (ha : r.Attached) (h : r.stream.Sound r.scene k) :
    LateLink r (r.appendAmid (r.stream.afterLink amid later) destination source size) := by
  obtain ⟨block, k₀, hlinked⟩ := ha.following_linked hb hm hst hroom h destination source elements
  obtain ⟨k₁, hpaused⟩ := hlinked.run hm hamid
  obtain ⟨k₂, hasked, hlate⟩ := hpaused.asked hb hm hst hlater
  have hstream : (((r.linked destination source elements).run amid).asked later).2.stream =
      r.stream := (stream_asked hlater).trans (stream_run hamid)
  have hfirst : r.controller.current = 0 →
      (((r.linked destination source elements).run amid).asked later).2.controller.current = 0 ∧
        (((r.linked destination source elements).run amid).asked later).2.executed =
          r.executed := by
    intro hc
    obtain ⟨ha', hscene⟩ := ha.scene_linked hroom destination source elements
    have hc' : (r.linked destination source elements).controller.current = 0 :=
      (congrArg Scene.current hscene).trans hc
    obtain ⟨hstop, hsame⟩ := ha'.run_stopped hc' hamid
    rw [hpaused.attached.asked_stopped hstop]
    exact ⟨hstop, hsame⟩
  rw [appendAmid_afterLink hb hm hst hcheck hroom]
  rcases hasks : ((r.linked destination source elements).run amid).asked later with ⟨late, r₂⟩
  rw [hasks] at hasked hlate hstream hfirst
  have hchannel : (r.stream.appended late).channel = r₂.stream.channel := by
    rw [hstream]
    rfl
  have hdone := hasked.withStream hchannel
    (r₂.accepted ++ r.stream.requested destination source size (.ok ()))
  have hmark : (r.stream.appended late).stalled = some r.stream.pool.tail ↔ late = true := by
    show (if late then some r.stream.pool.tail else r.stream.stalled) = _ ↔ _
    rw [hst]
    cases late <;> simp
  refine ⟨?_, hfirst, ?_, ?_⟩
  · show (r.stream.appended late).stalled = some r.stream.pool.tail ↔ _
    have hpast : late = true ↔ r.stream.pool.queued ≤ k₂ := by
      rw [show late = _ from hlate]
      exact decide_eq_true_iff
    rw [hmark, hpast]
    exact hdone.past_iff hb hst hroom
  · intro hmarked moves hmoves hc
    obtain rfl := hmark.mp hmarked
    obtain ⟨k₃, hstopped⟩ := hdone.run hm hmoves
    exact (hstopped.complete_marked hb hm hroom (stream_run hmoves) hc).1
  · intro hwent hmarked moves hmoves hc
    obtain rfl := hmark.mp hmarked
    obtain ⟨k₃, hstopped⟩ := hdone.run hm hmoves
    exact ⟨block, hstopped.last hwent ((hstopped.stopped_iff hb hst).mp hc),
      (hstopped.complete_marked hb hm hroom (stream_run hmoves) hc).2⟩

end LateLink

/-- **A block is marked as missed as soon as the controller is past the blocks before it.** It makes
no difference whether the controller stopped in front of the block, or followed the new link and has
executed the block already; in the second case the next completion has it executed again. -/
theorem late_link {m : Machine} {number index capacity : Nat} {config : StreamConfig}
    (hcap : 0 < capacity) (hindex : index < m.controllers.size)
    (htruth : (m.controller index).Truthful) (hstop : (m.controller index).current = 0)
    (hr : m.rig number index capacity config = .ok r) (actions : List Action)
    (hb : (r.run actions).stream.bound = true) (hm : (r.run actions).stream.isCircular = false)
    (hst : (r.run actions).stream.stalled = none)
    {destination source size elements : Nat}
    (hcheck : (r.run actions).stream.checkBlock destination source size = .ok elements)
    (hroom : (r.run actions).stream.pool.queued < (r.run actions).stream.pool.capacity)
    {amid later : List Action} (hamid : ∀ a ∈ amid, a.autonomous = true)
    (hlater : ∀ a ∈ later, a.autonomous = true) :
    LateLink (r.run actions) ((r.run actions).appendAmid
      ((r.run actions).stream.afterLink amid later) destination source size) := by
  obtain ⟨ha, k, h⟩ := sound_run hcap hindex htruth hstop hr actions
  exact ha.lateLink_append hb hm hst hcheck hroom hamid hlater h

/-- A controller finishes the block before and the new one while the driver is on its way from the
link to its reads. -/
theorem late_link_both_finished :
    ∃ r, Machine.rig { controllers := #[{}] } 3 0 2 {} = .ok r ∧
      LateLink (r.run [.append 0 64 8, .enable])
        ((r.run [.append 0 64 8, .enable]).appendAmid
          ((r.run [.append 0 64 8, .enable]).stream.afterLink [.finish, .finish] []) 8 72 8) := by
  obtain ⟨r, hr⟩ : ∃ r, Machine.rig { controllers := #[{}] } 3 0 2 {} = .ok r := ⟨_, rfl⟩
  refine ⟨r, hr, ?_⟩
  obtain ⟨-, rfl⟩ := Machine.rig_ok hr
  exact late_link (by decide) (by decide) ⟨rfl, rfl, rfl⟩ rfl hr _ rfl rfl rfl rfl (by decide)
    (by decide) (by decide)

/-- The block that was marked as missed is executed already, and the events that the controller
raised bring it to be executed once more. -/
theorem marked_though_executed :
    ∃ r, Machine.rig { controllers := #[{}] } 3 0 2 {} = .ok r ∧
      let late := (r.run [.append 0 64 8, .enable]).appendAmid
        ((r.run [.append 0 64 8, .enable]).stream.afterLink [.finish, .finish] []) 8 72 8
      late.stream.stalled = some 1 ∧ late.executed = late.accepted ∧
        late.raised = [.progress, .complete] ∧
        (late.run [.deliver, .deliver, .finish]).executed =
          late.accepted ++ late.accepted.drop 1 ∧ late.accepted.length = 2 := by
  obtain ⟨r, hr⟩ : ∃ r, Machine.rig { controllers := #[{}] } 3 0 2 {} = .ok r := ⟨_, rfl⟩
  refine ⟨r, hr, ?_⟩
  obtain ⟨-, rfl⟩ := Machine.rig_ok hr
  decide +kernel

end Rig

end ScatterGather
