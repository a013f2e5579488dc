import ScatterGather.Proofs.Fleet
import ScatterGather.Proofs.Stint

/-!
# ScatterGather.Proofs.Folding — several completions that come as one event

Interrupt flags do not count, so of several completions a handler may see one event only. A one-shot
stream forgets blocks by where its controller stands, and a second look at the same place forgets
nothing more. What `progress` does, an event that follows at once does as well (`exec_settled`), so
of completions that are delivered together only the last one matters, provided that no end of a
chain stands before it (`Stint.folds_run`). Only one that was left over from an earlier start of the
controller can stand there (`Rig.stale_completion_restarts`).
-/

namespace ScatterGather

/-! ## Reports -/

namespace Machine

/-- A machine with other reports. -/
def heard (m : Machine) (reports : Array Report) : Machine :=
  { m with reports }

/-- Driver code adds to the reports and goes by none of them. -/
theorem exec_heard {α : Type} (m : Machine) (reports : Array Report) (hw : Hardware)
    (x : DriverScript α) :
    (m.heard reports).exec hw x =
      (((m.heard #[]).exec hw x).1,
        ((m.heard #[]).exec hw x).2.heard (reports ++ ((m.heard #[]).exec hw x).2.reports)) := by
  have hm : m.heard reports = (m.heard #[]).after #[] reports := by
    simp [heard, after, traced]
  rw [hm, exec_after]
  simp [heard, after, traced]

end Machine

namespace Stream

variable (s : Stream)

/-- What the callback is told of the status. -/
def notices : Array Report :=
  match s.callback with
  | some (.report label) => #[.status label s.status]
  | some .ignore | none => #[]

variable {s} in
theorem status_of_mem_notices {report : Report} (h : report ∈ s.notices) :
    ∃ label, report = .status label s.status := by
  unfold notices at h
  split at h
  · next label _ => exact ⟨label, by simpa using h⟩
  · exact absurd h (Array.not_mem_empty _)
  · exact absurd h (Array.not_mem_empty _)

theorem exec_notify_heard (m : Machine) (hw : Hardware) :
    m.exec hw s.notify = ((), m.heard (m.reports ++ s.notices)) := by
  unfold notify notices
  cases s.callback with
  | none => simp [Machine.heard, Machine.exec]
  | some callback =>
    cases callback with
    | ignore => simp [Machine.heard, Machine.exec]
    | report label => simp [Machine.heard, Machine.exec, Machine.answer, Machine.tell]

/-! ## What follows once a stream has retired -/

/-- What a completion does after what was passed is forgotten. -/
def proceed (s : Stream) : TransferEvent → DriverScript Stream
  | .complete =>
    if !s.isCircular && !s.pool.isEmpty then do
      perform (.log (.underrun s.channel.number s.pool.queued))
      s.startAtHead
      pure { s with stalled := none, state := .busy }
    else do
      let s ← s.releaseChannel
      pure { s with state := .done }
  | _ => pure { s with state := .busy }

/-- The rest of the handling of an event. -/
def conclude (s : Stream) (event : TransferEvent) : DriverScript (Option Status × Stream) := do
  let s ← s.proceed event
  s.notify
  pure (some s.status, s)

variable {s} {event : TransferEvent}

/-- Progress and completion begin alike: the stream forgets what its controller has passed. -/
theorem onInterrupt_eq_conclude (hb : s.bound = true) (he : event = .progress ∨ event = .complete) :
    s.onInterrupt event = s.retirePassed >>= (·.conclude event) := by
  have hreact : s.react event = s.retirePassed >>= (·.proceed event) := by
    rcases he with rfl | rfl <;> rfl
  unfold onInterrupt
  rw [if_neg (by simp [hb]), hreact]
  exact Script.bind_assoc ..

/-- Nothing that follows goes by the state in which the stream was. -/
theorem conclude_state (state : StreamState) (event : TransferEvent) :
    conclude { s with state } event = s.conclude event := by
  have hproceed : proceed { s with state } event = s.proceed event := by
    cases event <;> rfl
  unfold conclude
  rw [hproceed]

theorem reading_retirePassed : s.retirePassed.Uses Access.Reading fun _ => True := by
  unfold retirePassed
  split
  · exact .done trivial
  · exact (s.uses_executingOffset trivial trivial).bind fun _ _ => .done trivial

/-- A stream that has retired, and is busy. -/
def settled (s : Stream) (v : Scene) : Stream :=
  { s.retired v with state := .busy }

section Completion

variable {m : Machine} {i k : Nat} (ha : m.Attached s.channel i) (hb : s.bound = true)

include ha hb

theorem exec_completion (he : event = .progress ∨ event = .complete) :
    m.exec s.channel.hardware (s.onInterrupt event) =
      m.exec s.channel.hardware ((s.retired (m.scene i)).conclude event) := by
  have hvalue : (m.exec s.channel.hardware s.retirePassed).1 = s.retired (m.scene i) := by
    rw [(ha.exec _).1, exec_retirePassed]
  have hstill : (m.exec s.channel.hardware s.retirePassed).2 = m :=
    ha.exec_reading reading_retirePassed
  rw [onInterrupt_eq_conclude hb he]
  refine (m.exec_bind ..).trans ?_
  rw [hvalue, hstill]

/-- Progress is told to the callback, and changes nothing outside the stream. -/
theorem exec_progress :
    m.exec s.channel.hardware (s.onInterrupt .progress) =
      ((some .busy, s.settled (m.scene i)),
        m.heard (m.reports ++ (s.settled (m.scene i)).notices)) := by
  rw [exec_completion ha hb (.inl rfl)]
  refine (m.exec_bind _ (s.settled (m.scene i)).notify _).trans ?_
  rw [exec_notify_heard]
  rfl

/-- **What progress does, an event that follows at once does as well.** -/
theorem exec_settled (hs : s.Sound (m.scene i) k) (hm : s.isCircular = false)
    (he : event = .progress ∨ event = .complete) :
    m.exec s.channel.hardware ((s.settled (m.scene i)).onInterrupt event) =
      m.exec s.channel.hardware (s.onInterrupt event) := by
  have hsettled : (s.settled (m.scene i)).Sound (m.scene i) 0 := by
    have hprogress := hs.progress hb
    rwa [retiredOffset, hm] at hprogress
  have hchannel : (s.settled (m.scene i)).channel = s.channel := (s.kept_retired _).channel
  have hbound : (s.settled (m.scene i)).bound = true := (bound_retired ..).trans hb
  have honeShot : (s.settled (m.scene i)).isCircular = false :=
    (s.kept_retired (m.scene i)).same.isCircular.trans hm
  -- the controller stands at the head, and nothing is left to forget
  have hagain : (s.settled (m.scene i)).retired (m.scene i) = s.settled (m.scene i) := by
    rw [hsettled.retired_oneShot hbound honeShot, Pool.retire_zero hsettled.sits.head_lt]
  have hcompletion := exec_completion (s := s.settled (m.scene i)) (hchannel ▸ ha) hbound he
  rw [hchannel, hagain] at hcompletion
  rw [hcompletion, exec_completion ha hb he, settled, conclude_state]

end Completion

end Stream

/-! ## Events that are delivered together -/

namespace Rig

variable {r : Rig} {k : Nat}

/-- Events are delivered one after another, with nothing in between. -/
def interrupts (r : Rig) (events : List TransferEvent) : Rig :=
  events.foldl interrupt r

/-- A rig with other reports. -/
def heard (r : Rig) (reports : Array Report) : Rig :=
  { r with machine := r.machine.heard reports }

/-- What the callback is told at an event. -/
def told (r : Rig) (event : TransferEvent) : Array Report :=
  ((r.heard #[]).interrupt event).machine.reports

/-- Some events come to the same as the last of them, but for busy statuses that the callback is told
before. -/
def FoldsInto (r : Rig) (earlier : List TransferEvent) (last : TransferEvent) : Prop :=
  ∃ ignored told : Array Report,
    (∀ report ∈ ignored, ∃ label, report = .status label .busy) ∧
      (r.interrupt last).machine.reports = r.machine.reports ++ told ∧
      r.interrupts (earlier ++ [last]) =
        (r.interrupt last).heard (r.machine.reports ++ ignored ++ told)

/-- The reports that were there before make no difference. -/
theorem interrupt_heard (r : Rig) (reports : Array Report) (event : TransferEvent) :
    (r.heard reports).interrupt event = (r.interrupt event).heard (reports ++ r.told event) := by
  have hown : r.machine.exec r.hardware (r.stream.onInterrupt event) = _ :=
    r.machine.exec_heard r.machine.reports r.hardware (r.stream.onInterrupt event)
  have hother : (r.heard reports).machine.exec (r.heard reports).hardware _ = _ :=
    r.machine.exec_heard reports r.hardware (r.stream.onInterrupt event)
  unfold interrupt
  rw [show (r.heard reports).stream = r.stream from rfl, hother, hown]
  rfl

theorem reports_interrupt (r : Rig) (event : TransferEvent) :
    (r.interrupt event).machine.reports = r.machine.reports ++ r.told event :=
  congrArg (·.machine.reports) (r.interrupt_heard r.machine.reports event)

theorem interrupt_unbound (hb : r.stream.bound = false) (event : TransferEvent) :
    r.interrupt event = r := by
  unfold interrupt Stream.onInterrupt
  rw [hb]
  rfl

theorem interrupts_unbound (hb : r.stream.bound = false) (events : List TransferEvent) :
    r.interrupts events = r := by
  induction events with
  | nil => rfl
  | cons event events ih =>
    rw [interrupts, List.foldl_cons, interrupt_unbound hb]
    exact ih

theorem Attached.interrupt_progress (h : r.Attached) (hb : r.stream.bound = true) :
    r.interrupt .progress =
      { r with
        stream := r.stream.settled r.scene
        machine := r.machine.heard (r.machine.reports ++ (r.stream.settled r.scene).notices) } := by
  have hexec : r.machine.exec r.hardware (r.stream.onInterrupt .progress) = _ :=
    Stream.exec_progress h hb
  unfold Rig.interrupt
  rw [hexec]
  rfl

theorem Attached.interrupt_settled (h : r.Attached) (hs : r.stream.Sound r.scene k)
    (hb : r.stream.bound = true) (hm : r.stream.isCircular = false) {event : TransferEvent}
    (he : event = .progress ∨ event = .complete) :
    Rig.interrupt { r with stream := r.stream.settled r.scene } event = r.interrupt event := by
  have hexec : r.machine.exec r.stream.channel.hardware _ = _ :=
    Stream.exec_settled h hb hs hm he
  have hchannel : (r.stream.settled r.scene).channel = r.stream.channel :=
    (r.stream.kept_retired _).channel
  unfold Rig.interrupt hardware
  dsimp only
  rw [hchannel, scene, hexec]

/-- Behind progress an event does what it would have done in its place. -/
theorem Attached.interrupt_behind (h : r.Attached) (hs : r.stream.Sound r.scene k)
    (hb : r.stream.bound = true) (hm : r.stream.isCircular = false) {event : TransferEvent}
    (he : event = .progress ∨ event = .complete) :
    (r.interrupt .progress).interrupt event =
      (r.interrupt event).heard
        (r.machine.reports ++ (r.stream.settled r.scene).notices ++ r.told event) := by
  have hsilent : (r.heard #[]).Attached := ⟨h.hardware, h.index_lt, h.truthful⟩
  have htold : told { r with stream := r.stream.settled r.scene } event = r.told event :=
    congrArg (·.machine.reports) (hsilent.interrupt_settled hs hb hm he)
  have hprogress : r.interrupt .progress =
      heard { r with stream := r.stream.settled r.scene }
        (r.machine.reports ++ (r.stream.settled r.scene).notices) := h.interrupt_progress hb
  rw [hprogress, interrupt_heard, htold, h.interrupt_settled hs hb hm he]

/-- Completions fold into the last of them if no end of a chain stands before it. -/
theorem Attached.foldsInto (h : r.Attached) (hs : r.stream.Sound r.scene k)
    (hm : r.stream.isCircular = false) {earlier : List TransferEvent} {last : TransferEvent}
    (hearlier : ∀ e ∈ earlier, e = .progress) (hlast : last = .progress ∨ last = .complete) :
    r.FoldsInto earlier last := by
  by_cases hb : r.stream.bound = true
  · induction earlier generalizing r k with
    | nil =>
      refine ⟨#[], r.told last, nofun, r.reports_interrupt last, ?_⟩
      rw [Array.append_empty, ← r.reports_interrupt last]
      rfl
    | cons event earlier ih =>
      obtain rfl : event = .progress := hearlier event List.mem_cons_self
      have hbehind := h.interrupt_behind hs hb hm hlast
      have hprogress := h.interrupt_progress hb
      have hbound : (r.interrupt .progress).stream.bound = true := by
        rw [hprogress]
        exact (Stream.bound_retired ..).trans hb
      obtain ⟨ignored, told, hbusy, htold, hfolds⟩ := ih (h.interrupt .progress)
        (h.sound_interrupt hs .progress)
        ((h.same_interrupt .progress).isCircular.trans hm)
        (fun e he => hearlier e (List.mem_cons_of_mem _ he)) hbound
      have hreports : (r.interrupt .progress).machine.reports =
          r.machine.reports ++ (r.stream.settled r.scene).notices := by rw [hprogress]; rfl
      -- what the last event tells is the same with and without the others
      have hsame : told = r.told last := by
        rw [hbehind, hreports] at htold
        exact ((Array.append_right_inj _).mp htold).symm
      refine ⟨(r.stream.settled r.scene).notices ++ ignored, r.told last, ?_,
        r.reports_interrupt last, ?_⟩
      · intro report hmem
        rcases Array.mem_append.mp hmem with hmem | hmem
        · exact Stream.status_of_mem_notices hmem
        · exact hbusy report hmem
      · show (r.interrupt .progress).interrupts (earlier ++ [last]) = _
        rw [hfolds, hbehind, hreports, hsame, ← Array.append_assoc]
        rfl
  · have hb' := Bool.eq_false_iff.mpr hb
    refine ⟨#[], #[], nofun, ?_, ?_⟩
    · rw [interrupt_unbound hb', Array.append_empty]
    · rw [interrupts_unbound hb', interrupt_unbound hb', Array.append_empty, Array.append_empty]
      rfl

end Rig

namespace Stint

variable {t : Stint} {k : Nat}

/-- **Completions fold into the last of them.** A one-shot stream is made on a channel whose
controller reads truthfully and has stopped; operations, moves of the controller and events of any
kind follow one another in any order. Of the events that wait to be delivered some are delivered
with nothing in between. If no completion of the chain stands before the last one, they come to what
that comes to alone, in the stream and on the machine; the callback is told of busy statuses before.
Among events that were raised since the controller was last started, none stands there. -/
theorem folds_run {m : Machine} {number index capacity : Nat} {config : StreamConfig} {r : Rig}
    (hcap : 0 < capacity) (hindex : index < m.controllers.size)
    (htruth : (m.controller index).Truthful) (hstop : (m.controller index).current = 0)
    (hmode : config.mode = .oneShot) (hr : m.rig number index capacity config = .ok r)
    (actions : List Action) (earlier : List TransferEvent) (last : TransferEvent) :
    ((earlier ++ [last]).Sublist (r.run actions).raised → .complete ∉ earlier →
      (r.run actions).FoldsInto earlier last) ∧
    ((earlier ++ [last]).Sublist (run { rig := r } actions).fresh → .complete ∉ earlier) := by
  obtain ⟨k, hk⟩ := kept_run hcap hindex htruth hstop hmode hr actions
  have hrig : (run { rig := r } actions).rig = r.run actions := rig_run _ actions
  constructor
  · intro hsub hnone
    have hkinds (e : TransferEvent) (he : e ∈ earlier ++ [last]) : e = .progress ∨ e = .complete :=
      hk.waiting.kinds e (hrig ▸ hsub.subset he)
    rw [← hrig]
    refine hk.attached.foldsInto hk.sound hk.oneShot ?_ (hkinds last (by simp))
    intro e he
    exact (hkinds e (List.mem_append_left _ he)).resolve_right fun hc => hnone (hc ▸ he)
  · intro hsub hmem
    -- an event with another behind it is progress
    have hpair := hk.waiting.ordered.sublist hsub
    have hprogress := (List.pairwise_append.mp hpair).2.2 _ hmem last (List.mem_singleton_self _)
    cases hprogress

/-- Two blocks are finished before the handler sees anything of it. -/
theorem folds_run_pair :
    ∃ r, Machine.rig { controllers := #[{}] } 3 0 4 {} = .ok r ∧
      (r.run [.append 0 64 4, .append 8 72 4, .enable, .finish, .finish]).FoldsInto
        [.progress] .complete := by
  obtain ⟨r, hr⟩ : ∃ r, Machine.rig { controllers := #[{}] } 3 0 4 {} = .ok r := ⟨_, rfl⟩
  refine ⟨r, hr, (folds_run (by decide) (by decide) ⟨rfl, rfl, rfl⟩ rfl rfl hr _ [.progress]
    .complete).1 ?_ (by decide)⟩
  obtain rfl := Except.ok.inj hr
  decide +kernel

end Stint

namespace Rig

/-- A completion from before `disable` is delivered while the controller executes another chain, and
progress of that chain right after it. Progress alone leaves the controller where it is; with the
completion in front of it the chain is started once more, and the block that the controller was in
begins again. -/
theorem stale_completion_restarts :
    ∃ r, Machine.rig { controllers := #[{}] } 3 0 4 {} = .ok r ∧
      let waiting := r.run [.append 0 64 4, .enable, .finish, .disable, .append 8 72 4,
        .append 16 80 4, .enable, .finish, .moveElements 1]
      waiting.raised = [.complete, .progress] ∧
        (waiting.interrupt .progress).controller.starts = 2 ∧
        (waiting.interrupt .progress).controller.remaining = 3 ∧
        (waiting.interrupts [.complete, .progress]).controller.starts = 3 ∧
        (waiting.interrupts [.complete, .progress]).controller.remaining = 4 := by
  obtain ⟨r, hr⟩ : ∃ r, Machine.rig { controllers := #[{}] } 3 0 4 {} = .ok r := ⟨_, rfl⟩
  refine ⟨r, hr, ?_⟩
  obtain rfl := Except.ok.inj hr
  decide +kernel

end Rig

end ScatterGather
