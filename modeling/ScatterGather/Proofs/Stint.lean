import ScatterGather.Proofs.Residue

/-!
# ScatterGather.Proofs.Stint — what a controller did since it was last started

A stream learns that its controller finished a block from an event, and forgets the block then. In
between, blocks that are finished are still queued, and events that were raised wait to be delivered.
A `Stint` is a rig whose watcher takes note of both and begins anew whenever the controller is
started: of the descriptors that were finished since then (`completed`), and of how many of the
waiting events are older than that (`stale`).

`Stint.Counted` says what the notes are worth. The queued descriptors that were finished are those
in front of the controller's position, and among the events raised since the start only the last can
be a completion, for a controller that raised it goes nowhere before it is started again. Every
action keeps this (`Stint.Counted.step`).
-/

namespace ScatterGather

/-! ## Controllers that are not started -/

/-- A controller that raises an event was running, and one that raises a completion stops. -/
theorem Scene.finishEvent_cases {v : Scene} {e : TransferEvent} (he : e ∈ v.finishEvent.toList) :
    v.current ≠ 0 ∧ (e = .progress ∨ (e = .complete ∧ v.finish.current = 0)) := by
  unfold finishEvent at he
  split at he
  · cases he
  · next hn =>
    have hc : v.current ≠ 0 := fun hc => hn (.inl hc)
    refine ⟨hc, ?_⟩
    split at he
    · next hlink =>
      refine .inr ⟨by simpa using he, ?_⟩
      rw [finish_running hc]
      exact hlink
    · exact .inl (by simpa using he)

/-- From one scene to another the controller was started, or stayed where it was, or stopped. -/
structure Scene.Coasts (v v' : Scene) : Prop where
  starts : v.starts ≤ v'.starts
  current : v'.starts = v.starts → v'.current = v.current ∨ v'.current = 0

@[simp] theorem Scene.starts_moveElements (v : Scene) (count : Nat) :
    (v.moveElements count).starts = v.starts := by
  unfold moveElements
  split <;> rfl

namespace Scene.Coasts

variable {u v w : Scene}

theorem refl (v : Scene) : v.Coasts v :=
  ⟨Nat.le_refl _, fun _ => .inl rfl⟩

theorem trans (h : u.Coasts v) (h' : v.Coasts w) : u.Coasts w where
  starts := Nat.le_trans h.starts h'.starts
  current heq := by
    have hle := h.starts
    have hle' := h'.starts
    rcases h'.current (by omega) with hc | hc
    · rw [hc]
      exact h.current (by omega)
    · exact .inr hc

theorem answer (a : Access) (v : Scene) : v.Coasts (Scene.answer a v).2 := by
  cases a with
  | start head priority => exact ⟨Nat.le_succ _, fun h => absurd h (Nat.succ_ne_self _)⟩
  | halt => exact ⟨Nat.le_refl _, fun _ => .inr rfl⟩
  | _ => exact ⟨Nat.le_refl _, fun _ => .inl rfl⟩

/-- Driver code takes a controller to a descriptor only by starting it. -/
theorem exec {α : Type} (v : Scene) (x : DriverScript α) : v.Coasts (v.exec x).2 :=
  Script.run_preserves .refl .trans Scene.answer answer x v

end Scene.Coasts

namespace Rig

variable {r : Rig}

/-- Only at the end of a block does a controller go from one descriptor to another by itself. -/
theorem Attached.coasts_step (h : r.Attached) {a : Action} (ha : a ≠ .finish) :
    r.scene.Coasts (r.step a).scene := by
  have hdriven {α : Type} (x : DriverScript α) :
      r.scene.Coasts ((r.machine.exec r.hardware x).2.scene r.index) := by
    rw [hardware, (Machine.Attached.exec h x).2]
    exact .exec r.scene x
  cases a with
  | append | setCallback | enable | disable | clear | interrupt => exact hdriven _
  | configure => exact .refl _
  | deliver =>
    cases hraised : r.raised with
    | nil =>
      rw [step_deliver_nil hraised]
      exact .refl _
    | cons event raised =>
      rw [step_deliver_cons hraised]
      exact hdriven _
  | moveElements count =>
    show r.scene.Coasts ((r.machine.moveElements r.index count).scene r.index)
    rw [h.scene_moveElements]
    exact ⟨Nat.le_of_eq (Scene.starts_moveElements ..).symm,
      fun _ => .inl (Scene.current_moveElements ..)⟩
  | finish => exact absurd rfl ha
  | fillFifo polls =>
    show r.scene.Coasts ((r.machine.setController r.index _).scene r.index)
    rw [h.scene_setController]
    exact ⟨Nat.le_refl _, fun _ => .inl rfl⟩
  | relocate =>
    by_cases hb : r.stream.bound = true
    · rw [step_relocate_bound hb]
      exact .refl _
    · rw [step_relocate_unbound (Bool.eq_false_iff.mpr hb)]
      exact ⟨Nat.le_refl _, fun _ => .inl rfl⟩
  | contend ownership => exact ⟨Nat.le_refl _, fun _ => .inl rfl⟩

theorem Attached.starts_finish (h : r.Attached) : (r.step .finish).scene.starts = r.scene.starts := by
  show ((r.machine.finish r.index).2.scene r.index).starts = _
  rw [h.scene_finish]
  show r.scene.finish.starts = _
  by_cases hc : r.scene.current = 0
  · rw [Scene.finish_stopped hc]
  · rw [Scene.finish_running hc]
    exact Scene.starts_moveElements ..

end Rig

/-! ## Descriptors that were finished -/

/-- The descriptors on a list that are still as they were finished, after some were programmed and
the controller was started so often. -/
def stillDone (completed : List Nat) (before after : Nat) (programmed : List Nat) : List Nat :=
  if after = before then completed.filter (· ∉ programmed) else []

@[simp] theorem stillDone_self (completed : List Nat) (starts : Nat) :
    stillDone completed starts starts [] = completed := by
  simp [stillDone]

theorem stillDone_started {before after : Nat} (h : before < after)
    (completed programmed : List Nat) : stillDone completed before after programmed = [] :=
  if_neg (Nat.ne_of_gt h)

namespace Stream

variable {s s' : Stream} {v : Scene} {k : Nat} {completed : List Nat}

/-- The queued descriptors on a list are those in front of an offset. -/
def Counts (s : Stream) (k : Nat) (completed : List Nat) : Prop :=
  s.bound = true → ∀ offset < s.pool.queued, (s.pool.addressAt offset ∈ completed ↔ offset < k)

theorem counts_unbound (hb : s.bound = false) : s.Counts k completed := by
  intro hb'
  rw [hb] at hb'
  cases hb'

/-- A controller that was just started has finished nothing. -/
theorem counts_started (s : Stream) : s.Counts 0 [] := by
  intro _ offset _
  simp

theorem Counts.congr (h : s.Counts k completed) (hp : s'.pool = s.pool) (hb : s'.bound = s.bound) :
    s'.Counts k completed := by
  intro hb'
  rw [hp]
  exact h (hb ▸ hb')

/-- A descriptor that is programmed for another block is no longer one that was finished. -/
theorem Counts.appended (h : s.Counts k completed) (hs : s.Sound v k)
    (hroom : s.pool.queued < s.pool.capacity) (late : Bool) :
    (s.appended late).Counts k (completed.filter (· ∉ [s.pool.addressAt s.pool.queued])) := by
  intro hb offset ho
  have hk := hs.offset_le
  show s.pool.addressAt offset ∈ _ ↔ _
  rw [List.mem_filter]
  by_cases hnew : offset = s.pool.queued
  · -- the new block itself
    subst hnew
    simp [hk]
  · have hlt : offset < s.pool.queued := Nat.lt_of_le_of_ne (Nat.le_of_lt_succ ho) hnew
    have hne : s.pool.addressAt offset ≠ s.pool.addressAt s.pool.queued := by
      intro heq
      exact hnew (Pool.addressAt_inj hs.sits.head_lt (by omega) hroom heq)
    simp [h hb offset hlt, hne]

/-- What was finished is forgotten, and nothing else. -/
theorem Counts.retire (h : s.Counts k completed) (hs : s.Sound v k) :
    Counts { s with pool := s.pool.retire k } 0 completed := by
  intro hb offset ho
  have hq : (s.pool.retire k).queued = s.pool.queued - k := Pool.queued_retire hs.offset_le
  have ho' : offset < (s.pool.retire k).queued := ho
  show (s.pool.retire k).addressAt offset ∈ _ ↔ _
  rw [Pool.addressAt_retire hs.offset_le, h hb (k + offset) (by omega)]
  omega

/-- The block that is finished is the one at the position. -/
theorem Counts.finish (h : s.Counts k completed) (hs : s.Sound v k) (hc : v.current ≠ 0) :
    s.Counts (k + 1) (completed ++ [v.current]) := by
  intro hb offset ho
  obtain ⟨-, hq, hcur⟩ := hs.executing hc
  rw [List.mem_append, h hb offset ho, List.mem_singleton, hcur]
  constructor
  · rintro (hlt | heq)
    · omega
    · have := Pool.addressAt_inj hs.sits.head_lt (Nat.lt_of_lt_of_le ho hs.sits.queued_le)
        (Nat.lt_of_lt_of_le hq hs.sits.queued_le) heq
      omega
  · intro hlt
    by_cases hlast : offset = k
    · exact .inr (by rw [hlast])
    · exact .inl (by omega)

/-! ### Operations and events -/

section Operations

variable (h : s.Counts k completed) (hs : s.Sound v k) (hm : s.isCircular = false)

include h in
theorem Counts.configure (settings : TransferSettings) :
    (s.configure settings).2.Counts k completed := by
  unfold Stream.configure
  split
  · exact h
  · split <;> exact h.congr rfl rfl

include h in
theorem Counts.exec_setCallback (callback : Option Callback) :
    (v.exec (s.setCallback callback)).1.Counts k
      (stillDone completed v.starts (v.exec (s.setCallback callback)).2.starts []) := by
  rw [Stream.exec_setCallback]
  have hstarts : (if !s.bound || s.isCircular then
      { v with table := { s with callback }.rearmed v.table } else v).starts = v.starts := by
    split <;> rfl
  rw [hstarts, stillDone_self]
  exact h.congr rfl rfl

include h hs in
theorem Counts.exec_append (destination source size : Nat) :
    (v.exec (s.append destination source size)).1.2.Counts k
      (stillDone completed v.starts (v.exec (s.append destination source size)).2.starts
        (programmed (v.exec (s.append destination source size)).1)) := by
  by_cases hb : s.bound = true
  · rcases hs.append_cases destination source size with
      ⟨e, s', hexec, hrefused⟩ | ⟨elements, -, hroom, hexec⟩
    · rw [discardFinished_bound hb, or_self] at hrefused
      rw [hexec, hrefused]
      show s.Counts k (stillDone completed v.starts v.starts [])
      rwa [stillDone_self]
    · rw [hexec, discardFinished_bound hb]
      rw [discardFinished_bound hb] at hroom
      have happended := h.appended hs hroom
        (s.tooLate (s.linkedScene v source destination elements))
      show Stream.Counts _ k (stillDone completed v.starts v.starts [s.pool.addressAt _])
      rw [stillDone, if_pos rfl]
      exact happended
  · exact counts_unbound
      ((hs.bound_append destination source size).trans (Bool.eq_false_iff.mpr hb))

include h hs in
theorem Counts.exec_enable :
    (v.exec s.enable).1.2.Counts k
      (stillDone completed v.starts (v.exec s.enable).2.starts []) := by
  by_cases hb : s.bound ∨ s.pool.queued = 0
  · rw [Stream.exec_enable, if_pos hb, stillDone_self]
    exact h
  · obtain ⟨hb', hq⟩ := not_or.mp hb
    rcases enable_cases (v := v) (Bool.eq_false_iff.mpr hb') hq with
      ⟨e, ownership, hexec⟩ | ⟨ownership, hexec⟩
    · rw [hexec]
      exact counts_unbound (Bool.eq_false_iff.mpr hb')
    · obtain ⟨-, -, rfl⟩ := hs.resting (Bool.eq_false_iff.mpr hb')
      rw [hexec]
      show Stream.Counts _ 0 (stillDone completed v.starts (v.starts + 1) [])
      rw [stillDone_started (Nat.lt_succ_self _)]
      exact counts_started _

include h hs hm in
theorem Counts.exec_onInterrupt (event : TransferEvent) :
    (v.exec (s.onInterrupt event)).1.2.Counts (s.offsetAfter event k)
      (stillDone completed v.starts (v.exec (s.onInterrupt event)).2.starts []) := by
  rw [Stream.exec_onInterrupt]
  unfold offsetAfter
  by_cases hb : s.bound = true
  · rw [if_pos hb, if_pos hb]
    cases event with
    | progress =>
      rw [exec_react_progress, stillDone_self, hs.retired_oneShot hb hm, retiredOffset, hm]
      exact (h.retire hs).congr rfl rfl
    | complete =>
      -- the chain is started anew, or the channel is given back
      rw [exec_react_complete]
      by_cases hgo : s.isCircular = false ∧ (s.retired v).pool.queued ≠ 0
      · rw [if_pos hgo]
        show Stream.Counts _ 0 (stillDone completed v.starts (v.starts + 1) [])
        rw [stillDone_started (Nat.lt_succ_self _)]
        exact counts_started _
      · rw [if_neg hgo]
        exact counts_unbound rfl
    | busError => exact counts_unbound rfl
    | timeout =>
      obtain ⟨left, hleft⟩ := exec_react_timeout s v
      rw [hleft]
      by_cases hp : s.config.timeoutPolicy = .abort
      · simp only [hp, if_true]
        exact counts_unbound rfl
      · simp only [hp, if_false, stillDone_self]
        exact h.congr rfl rfl
  · rw [if_neg hb, if_neg hb]
    exact counts_unbound (Bool.eq_false_iff.mpr hb)

end Operations

end Stream

/-! ## Runs -/

/-- The descriptor that the controller finishes in an action. -/
def Rig.finished (r : Rig) : Action → List Nat
  | .finish => if r.controller.isRunning then [r.controller.current] else []
  | _ => []

theorem Rig.finished_finish (r : Rig) :
    r.finished .finish = if r.scene.current = 0 then [] else [r.scene.current] := by
  by_cases hc : r.scene.current = 0
  · rw [if_pos hc]
    exact if_neg fun hrunning => absurd hc (of_decide_eq_true hrunning)
  · rw [if_neg hc]
    exact if_pos (decide_eq_true hc)

/-- A rig, and what its controller did since it was last started. -/
structure Stint where
  rig : Rig
  /-- Descriptors that it finished, but for those that were programmed again. -/
  completed : List Nat := []
  /-- How many of the events that wait to be delivered were raised before. -/
  stale : Nat := 0

namespace Stint

variable {t : Stint} {k : Nat}

/-- The waiting events that the controller raised since it was last started, oldest first. -/
def fresh (t : Stint) : List TransferEvent :=
  t.rig.raised.drop t.stale

/-- The queued descriptors that the controller did not finish. -/
def left (t : Stint) : List Nat :=
  t.rig.stream.pool.addresses.filter (· ∉ t.completed)

/-- Whether an action starts the controller. -/
def restarted (t : Stint) (a : Action) : Prop :=
  (t.rig.step a).controller.starts ≠ t.rig.controller.starts

instance (t : Stint) (a : Action) : Decidable (t.restarted a) :=
  inferInstanceAs (Decidable (_ ≠ _))

/-- An action happens, and the notes are brought up to date. What is delivered is the oldest. -/
def step (t : Stint) (a : Action) : Stint where
  rig := t.rig.step a
  completed :=
    stillDone t.completed t.rig.controller.starts (t.rig.step a).controller.starts
      (t.rig.programmed a) ++ t.rig.finished a
  stale :=
    if t.restarted a then (t.rig.step a).raised.length
    else t.stale - (t.rig.raised.length - (t.rig.step a).raised.length)

def run (t : Stint) (actions : List Action) : Stint :=
  actions.foldl step t

theorem rig_run (t : Stint) (actions : List Action) : (t.run actions).rig = t.rig.run actions := by
  induction actions generalizing t with
  | nil => rfl
  | cons a actions ih => exact ih (t.step a)

/-! ### Events -/

/-- The waiting events are completions of blocks, and of those that were raised since the start none
but the last can be the end of the chain. -/
structure Waiting (t : Stint) : Prop where
  stale_le : t.stale ≤ t.rig.raised.length
  kinds : ∀ e ∈ t.rig.raised, e = .progress ∨ e = .complete
  /-- An event with another behind it is progress. -/
  ordered : t.fresh.Pairwise fun e _ => e = .progress
  running : t.rig.scene.current ≠ 0 → ∀ e ∈ t.fresh, e = .progress

/-- An action that raises no event may deliver one. -/
theorem raised_step (r : Rig) {a : Action} (ha : a ≠ .finish) :
    ∃ delivered, (r.step a).raised = r.raised.drop delivered := by
  cases a with
  | finish => exact absurd rfl ha
  | deliver =>
    cases hraised : r.raised with
    | nil =>
      rw [Rig.step_deliver_nil hraised]
      exact ⟨0, hraised⟩
    | cons event raised =>
      rw [Rig.step_deliver_cons hraised]
      exact ⟨1, rfl⟩
  | relocate =>
    by_cases hb : r.stream.bound = true
    · rw [Rig.step_relocate_bound hb]
      exact ⟨0, rfl⟩
    · rw [Rig.step_relocate_unbound (Bool.eq_false_iff.mpr hb)]
      exact ⟨0, rfl⟩
  | _ => exact ⟨0, rfl⟩

theorem Waiting.finish (h : t.Waiting) (ha : t.rig.Attached) : (t.step .finish).Waiting := by
  have hstarts : ¬t.restarted .finish := fun hne => hne ha.starts_finish
  have hscene : (t.rig.step .finish).scene = t.rig.scene.finish := ha.scene_finish
  have hraised : (t.rig.step .finish).raised = t.rig.raised ++ t.rig.scene.finishEvent.toList := by
    show t.rig.raised ++ (t.rig.machine.finish t.rig.index).1.toList = _
    rw [ha.finish_event]
    rfl
  have hstale : (t.step .finish).stale = t.stale := by
    show (if t.restarted .finish then _ else _) = _
    rw [if_neg hstarts, hraised, List.length_append]
    omega
  have hfresh : (t.step .finish).fresh = t.fresh ++ t.rig.scene.finishEvent.toList := by
    show (t.rig.step .finish).raised.drop (t.step .finish).stale = _
    rw [hstale, hraised, List.drop_append_of_le_length h.stale_le]
    rfl
  refine ⟨?_, ?_, ?_, ?_⟩
  · show (t.step .finish).stale ≤ (t.rig.step .finish).raised.length
    rw [hstale, hraised, List.length_append]
    exact Nat.le_add_right_of_le h.stale_le
  · intro e he
    rw [show (t.step .finish).rig.raised = _ from hraised, List.mem_append] at he
    rcases he with he | he
    · exact h.kinds e he
    · exact (Scene.finishEvent_cases he).2.imp_right And.left
  · -- a controller that raises an event was running, so what waits in front of it is progress
    rw [hfresh, List.pairwise_append]
    refine ⟨h.ordered, ?_, ?_⟩
    · cases t.rig.scene.finishEvent <;> simp
    · intro e he _ hlast
      exact h.running (Scene.finishEvent_cases hlast).1 e he
  · intro hc e he
    have hc' : t.rig.scene.finish.current ≠ 0 := hscene ▸ hc
    rw [hfresh, List.mem_append] at he
    rcases he with he | he
    · refine h.running (fun hstop => hc' ?_) e he
      rw [Scene.finish_stopped hstop]
      exact hstop
    · exact (Scene.finishEvent_cases he).2.resolve_right fun hlast => hc' hlast.2

/-- Any other action takes some of the oldest events away, or all if it starts the controller. -/
theorem Waiting.coast (h : t.Waiting) (ha : t.rig.Attached) {a : Action} (hne : a ≠ .finish) :
    (t.step a).Waiting := by
  obtain ⟨delivered, hraised⟩ := raised_step t.rig hne
  have hlength : (t.rig.step a).raised.length = t.rig.raised.length - delivered := by
    rw [hraised, List.length_drop]
  have hkinds : ∀ e ∈ (t.rig.step a).raised, e = .progress ∨ e = .complete := by
    rw [hraised]
    exact fun e he => h.kinds e (List.mem_of_mem_drop he)
  by_cases hs : t.restarted a
  · have hstale : (t.step a).stale = (t.rig.step a).raised.length := if_pos hs
    have hfresh : (t.step a).fresh = [] := by
      show (t.rig.step a).raised.drop (t.step a).stale = []
      rw [hstale, List.drop_length]
    refine ⟨Nat.le_of_eq hstale, hkinds, ?_, ?_⟩
    · rw [hfresh]
      exact .nil
    · rw [hfresh]
      exact nofun
  · have hstale : (t.step a).stale =
        t.stale - (t.rig.raised.length - (t.rig.step a).raised.length) := if_neg hs
    have hfresh : ∃ n, (t.step a).fresh = t.fresh.drop n := by
      refine ⟨delivered + (t.step a).stale - t.stale, ?_⟩
      have hle := h.stale_le
      have hsum : t.stale + (delivered + (t.step a).stale - t.stale) =
          delivered + (t.step a).stale := by omega
      show (t.rig.step a).raised.drop (t.step a).stale = (t.rig.raised.drop t.stale).drop _
      rw [hraised, List.drop_drop, List.drop_drop, hsum]
    obtain ⟨n, hfresh⟩ := hfresh
    refine ⟨?_, hkinds, ?_, ?_⟩
    · have hle := h.stale_le
      show (t.step a).stale ≤ (t.rig.step a).raised.length
      omega
    · rw [hfresh]
      exact h.ordered.sublist (List.drop_sublist ..)
    · intro hc
      rw [hfresh]
      have hcurrent := ((ha.coasts_step hne).current (Decidable.not_not.mp hs)).resolve_right hc
      exact fun e he => h.running (hcurrent ▸ hc) e (List.mem_of_mem_drop he)

theorem Waiting.step (h : t.Waiting) (ha : t.rig.Attached) (a : Action) : (t.step a).Waiting := by
  by_cases hfinish : a = .finish
  · rw [hfinish]
    exact h.finish ha
  · exact h.coast ha hfinish

/-! ### What holds of every stint -/

/-- What holds of a one-shot stream and of its controller since that was last started. -/
structure Kept (t : Stint) (k : Nat) : Prop where
  attached : t.rig.Attached
  sound : t.rig.stream.Sound t.rig.scene k
  oneShot : t.rig.stream.isCircular = false
  counts : t.rig.stream.Counts k t.completed
  waiting : t.Waiting

theorem Kept.interrupt (h : t.Kept k) (event : TransferEvent) :
    (t.rig.interrupt event).stream.Counts (t.rig.stream.offsetAfter event k)
      (stillDone t.completed t.rig.controller.starts
        (t.rig.interrupt event).controller.starts []) :=
  h.attached.driven
    (P := fun s v => s.Counts _ (stillDone t.completed t.rig.scene.starts v.starts [])) _ Prod.snd
    (h.counts.exec_onInterrupt h.sound h.oneShot event)

theorem Kept.completed_finish (h : t.Kept k) :
    (t.step .finish).completed =
      t.completed ++ if t.rig.scene.current = 0 then [] else [t.rig.scene.current] := by
  show stillDone t.completed t.rig.scene.starts (t.rig.step .finish).scene.starts [] ++ _ = _
  rw [h.attached.starts_finish, stillDone_self, Rig.finished_finish]

theorem Kept.finish (h : t.Kept k) :
    t.rig.stream.Counts (t.rig.offsetAfter k .finish) (t.step .finish).completed := by
  rw [h.completed_finish, Rig.offsetAfter]
  by_cases hc : t.rig.scene.current = 0
  · rw [if_pos hc, if_pos hc, List.append_nil]
    exact h.counts
  · rw [if_neg hc, if_neg hc, Stream.follow_oneShot h.oneShot]
    exact h.counts.finish h.sound hc

/-- Every action keeps the notes right. -/
theorem Kept.step (h : t.Kept k) (a : Action) : (t.step a).Kept (t.rig.offsetAfter k a) := by
  refine ⟨h.attached.step a, h.attached.sound_step h.sound a,
    (h.attached.same_step a).isCircular.trans h.oneShot, ?_, h.waiting.step h.attached a⟩
  have hdriven {α : Type} (k' : Nat) := h.attached.driven (α := α)
    (P := fun s v => s.Counts k' (stillDone t.completed t.rig.scene.starts v.starts []))
  have hstill : t.rig.stream.Counts k
      (stillDone t.completed t.rig.scene.starts t.rig.scene.starts []) := by
    rw [stillDone_self]
    exact h.counts
  -- only the end of a block adds to what was finished
  have hunfinished (ha : t.rig.finished a = [])
      (hc : (t.rig.step a).stream.Counts (t.rig.offsetAfter k a)
        (stillDone t.completed t.rig.controller.starts (t.rig.step a).controller.starts
          (t.rig.programmed a))) :
      (t.rig.step a).stream.Counts (t.rig.offsetAfter k a) (t.step a).completed := by
    show Stream.Counts _ _ (_ ++ t.rig.finished a)
    rwa [ha, List.append_nil]
  cases a with
  | finish => exact h.finish
  | append destination source size =>
    refine hunfinished rfl ?_
    exact Machine.Attached.driven h.attached
      (P := fun (out : Except DmaError Unit × Stream) v => out.2.Counts k
        (stillDone t.completed t.rig.scene.starts v.starts (Stream.programmed out))) _ id
      (h.counts.exec_append h.sound destination source size)
  | configure settings =>
    refine hunfinished rfl ?_
    show Stream.Counts _ k (stillDone t.completed t.rig.scene.starts t.rig.scene.starts [])
    rw [stillDone_self]
    exact h.counts.configure settings
  | setCallback callback =>
    exact hunfinished rfl (hdriven k _ id (h.counts.exec_setCallback callback))
  | enable => exact hunfinished rfl (hdriven k _ Prod.snd (h.counts.exec_enable h.sound))
  | disable =>
    exact hunfinished rfl (hdriven 0 _ id (Stream.counts_unbound Stream.bound_disable))
  | clear => exact hunfinished rfl (hdriven 0 _ id (Stream.counts_unbound Stream.bound_clear))
  | interrupt event => exact hunfinished rfl (h.interrupt event)
  | deliver =>
    refine hunfinished rfl ?_
    show Stream.Counts _ _ (stillDone t.completed _ (t.rig.step .deliver).controller.starts [])
    cases hraised : t.rig.raised with
    | nil =>
      rw [Rig.step_deliver_nil hraised, Rig.offsetAfter, hraised]
      exact hstill
    | cons event raised =>
      rw [Rig.step_deliver_cons hraised, Rig.offsetAfter, hraised]
      exact h.interrupt event
  | moveElements count =>
    refine hunfinished rfl ?_
    show Stream.Counts _ k (stillDone t.completed t.rig.scene.starts
      ((t.rig.machine.moveElements t.rig.index count).scene t.rig.index).starts [])
    rw [h.attached.scene_moveElements, Scene.starts_moveElements]
    exact hstill
  | fillFifo polls =>
    refine hunfinished rfl ?_
    show Stream.Counts _ k (stillDone t.completed t.rig.scene.starts
      ((t.rig.machine.setController t.rig.index _).scene t.rig.index).starts [])
    rw [h.attached.scene_setController]
    exact hstill
  | relocate =>
    refine hunfinished rfl ?_
    by_cases hb : t.rig.stream.bound = true
    · show Stream.Counts _ k (stillDone t.completed _ (t.rig.step .relocate).controller.starts [])
      rw [Rig.step_relocate_bound hb]
      exact hstill
    · rw [Rig.step_relocate_unbound (Bool.eq_false_iff.mpr hb)]
      exact Stream.counts_unbound (Bool.eq_false_iff.mpr hb)
  | contend ownership => exact hunfinished rfl hstill

theorem Kept.run (h : t.Kept k) (actions : List Action) : ∃ k, (t.run actions).Kept k := by
  induction actions generalizing t k with
  | nil => exact ⟨k, h⟩
  | cons a actions ih => exact ih (h.step a)

/-- What is left once the stream has retired. -/
theorem Kept.left_eq (h : t.Kept k) (hb : t.rig.stream.bound = true) :
    (t.rig.stream.pool.retire k).addresses = t.left := by
  have hk := h.sound.offset_le
  rw [Pool.addresses_retire hk, left, Pool.filter_addresses hk]
  intro offset ho
  rw [decide_eq_true_iff, h.counts hb offset ho]
  omega

theorem Kept.length_left (h : t.Kept k) (hb : t.rig.stream.bound = true) :
    t.left.length = t.rig.stream.pool.queued - k := by
  rw [← h.left_eq hb, Pool.length_addresses, Pool.queued_retire h.sound.offset_le]

/-- A stint begins with the making of a stream. -/
theorem kept_make {m : Machine} {number index capacity : Nat} {config : StreamConfig} {r : Rig}
    (hcap : 0 < capacity) (hindex : index < m.controllers.size)
    (htruth : (m.controller index).Truthful) (hstop : (m.controller index).current = 0)
    (hmode : config.mode = .oneShot) (hr : m.rig number index capacity config = .ok r) :
    Kept { rig := r } 0 := by
  obtain ⟨ha, hs⟩ := Rig.sound_make hcap hindex htruth hstop hr
  obtain ⟨-, rfl⟩ := Machine.rig_ok hr
  refine ⟨ha, hs, ?_, Stream.counts_unbound rfl, Nat.le_refl 0, nofun, .nil, nofun⟩
  show decide (config.mode = .circular) = false
  rw [hmode]
  rfl

/-- Whatever happens to a one-shot stream, the notes on it are right. -/
theorem kept_run {m : Machine} {number index capacity : Nat} {config : StreamConfig} {r : Rig}
    (hcap : 0 < capacity) (hindex : index < m.controllers.size)
    (htruth : (m.controller index).Truthful) (hstop : (m.controller index).current = 0)
    (hmode : config.mode = .oneShot) (hr : m.rig number index capacity config = .ok r)
    (actions : List Action) : ∃ k, (run { rig := r } actions).Kept k :=
  (kept_make hcap hindex htruth hstop hmode hr).run actions

end Stint

end ScatterGather
