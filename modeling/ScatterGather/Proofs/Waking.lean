import ScatterGather.Proofs.Rig
import ScatterGather.Slot

/-!
# ScatterGather.Proofs.Waking — no wake-up is lost

One task polls a slot while events come in. A poll checks the status, leaves its waker and checks
once more; an event tells the stream, takes the waker that it finds and wakes it. Each of these is
one access, and between any two of them every other party may make accesses of its own. A `Vigil`
is a slot with everything that is under way there, `Vigil.step` lets one party make one access, and
`Vigil.run` covers every interleaving.

What foreground code does to the stream, and what the controller does, is left open
(`Vigil.Move.elsewhere`), except that it does not end the transfer behind the back of the task.
That a woken task polls again is up to whoever runs it.

The argument is about two things. A waker that has been left is in the slot, or in the hands of an
event that is about to wake it, until its task is woken (`Vigil.Kept`). A status other than busy
comes from an event that has not taken a waker yet (`Vigil.Guarded`); had the waker been left too
late for that event, the second check of the poll would have seen the status.
-/

namespace ScatterGather

/-! ## Code that others come between -/

/-- Code that is under way: what is left of it, and the accesses that it has made, in order and with
their answers. -/
structure Party (α : Type) where
  script : SlotScript α
  made : List ((a : SlotAccess) × a.Answer) := []

/-- A poll on behalf of a task. -/
structure Poll extends Party (Option (Except Error Unit)) where
  task : Nat

namespace Poll

/-- The poll has left its waker. -/
def Registered (p : Poll) : Prop :=
  ⟨.register p.task, ()⟩ ∈ p.made

/-- A check of the poll has found this status. -/
def Saw (p : Poll) (status : Option Status) : Prop :=
  ⟨.status, status⟩ ∈ p.made

/-- The poll has returned without a result. -/
def Pending (p : Poll) : Prop :=
  p.script = .done none

end Poll

/-- The stream has been told of the event. -/
def Party.Told (x : Party Unit) : Prop :=
  ∃ event, ⟨.deliver event, ()⟩ ∈ x.made

/-- A slot where a task waits, and all that is under way there. -/
structure Vigil where
  slot : Slot
  machine : Machine
  /-- The poll that is under way. -/
  polling : Option Poll := none
  /-- The polls that have returned, the latest first. -/
  returned : List Poll := []
  /-- The events that have come so far, also those that are over. -/
  events : List (Party Unit) := []
  /-- The tasks that have been woken since a poll last left its waker. -/
  woken : List Nat := []

namespace Vigil

/-- What happens next at a slot. -/
inductive Move where
  /-- The task starts to poll, unless it is polling. Its waker may be another than last time. -/
  | poll (task : Nat)
  /-- The poll that is under way makes its next access. -/
  | advance
  /-- An event comes. -/
  | event (event : TransferEvent)
  /-- One of the events makes its next access. -/
  | serve (index : Nat)
  /-- Others are at the stream and at the machine, and leave them like this. -/
  | elsewhere (cell : Cell (Option Stream)) (machine : Machine)

/-- Answers one access to the slot, and notes which task it wakes. A waker that is left starts the
list of the woken anew. -/
def access (a : SlotAccess) (v : Vigil) : a.Answer × Vigil :=
  let (answer, slot, machine) := Slot.answer a (v.slot, v.machine)
  let woken := match a with
    | .register _ => []
    | .wake task => task :: v.woken
    | .status | .deliver _ | .takeWaker | .delay _ => v.woken
  (answer, { v with slot, machine, woken })

end Vigil

/-- Makes the next access of code that has not come to its end. -/
def Party.advance {α : Type} (x : Party α) (v : Vigil) : Party α × Vigil :=
  match x.script with
  | .done _ => (x, v)
  | .ask a next =>
    let (answer, v) := v.access a
    ({ script := next answer, made := x.made ++ [⟨a, answer⟩] }, v)

namespace Vigil

variable {v : Vigil} {p : Poll} {w : Nat}

/-- Puts back a poll that has made an access. A poll at its end returns. -/
def settle (v : Vigil) (p : Poll) : Vigil :=
  match p.script with
  | .done _ => { v with polling := none, returned := p :: v.returned }
  | .ask _ _ => { v with polling := some p }

/-- One party makes one access. What is done elsewhere does not take the stream out of busy: where
it would, nothing happens. -/
def step (v : Vigil) : Move → Vigil
  | .poll task =>
    match v.polling with
    | some _ => v
    | none => { v with polling := some { task, script := SlotScript.poll task } }
  | .advance =>
    match v.polling with
    | none => v
    | some p =>
      let (party, v) := p.advance v
      v.settle { p with toParty := party }
  | .event event => { v with events := v.events ++ [{ script := SlotScript.onEvent event }] }
  | .serve index =>
    match v.events[index]? with
    | none => v
    | some x =>
      let (x, v') := x.advance v
      { v' with events := v.events.set index x }
  | .elsewhere cell machine =>
    let slot := { v.slot with cell }
    if v.slot.status = some .busy ∧ slot.status ≠ some .busy then v
    else { v with slot, machine }

def run : Vigil → List Move → Vigil :=
  List.foldl step

/-- The latest poll has returned without a result, so its task waits to be woken. A poll that comes
after it changes nothing about that until it leaves a waker in turn. -/
def Waits (v : Vigil) (p : Poll) : Prop :=
  v.returned.head? = some p ∧ p.Pending ∧ ∀ q ∈ v.polling, ¬q.Registered

/-- Going on to its end, the code wakes this task, and no other. -/
def WillWake (v : Vigil) (x : Party Unit) (task : Nat) : Prop :=
  (x.script.run access v).2.woken = task :: v.woken

end Vigil

/-! ## How far a poll has come -/

namespace SlotScript

/-- What is left of an event once the stream has been told. -/
def notify : SlotScript Unit :=
  .ask .takeWaker fun waiting =>
    match waiting with
    | none => .done ()
    | some task => .ask (.wake task) .done

/-- What is left of a poll once its waker has been left. -/
def recheck : SlotScript (Option (Except Error Unit)) :=
  .ask .status fun second => .done (outcome second)

theorem outcome_eq_none {status : Option Status} : outcome status = none ↔ status = some .busy := by
  cases status with
  | none => simp [outcome]
  | some status => cases status <;> simp [outcome]

/-- A status other than busy is a result, and an empty slot is an error. -/
theorem outcome_of_ne_busy {status : Option Status} (h : status ≠ some .busy) :
    outcome status = some (status.elim (.error (.io .invalidState)) Status.toResult) := by
  cases status with
  | none => rfl
  | some status =>
    cases status with
    | busy => exact absurd rfl h
    | ok | timeout | error => rfl

/-- A poll checks the status first, and goes on only where it is busy. -/
theorem poll_eq_ask (task : Nat) :
    ∃ next, poll task = .ask .status next ∧
      next (some .busy) = .ask (.register task) (fun _ => recheck) ∧
      ∀ {status}, status ≠ some .busy → next status = .done (outcome status) := by
  refine ⟨_, rfl, rfl, fun {status} h => ?_⟩
  simp only [Script.bind, outcome_of_ne_busy h]
  rfl

end SlotScript

open SlotScript (notify recheck outcome)

namespace Poll

/-- A poll that has made no access. -/
def begun (task : Nat) : Poll where
  task
  script := SlotScript.poll task

/-- A poll whose first check has found the stream busy. -/
def checked (task : Nat) : Poll where
  task
  script := .ask (.register task) fun _ => recheck
  made := [⟨.status, some .busy⟩]

/-- A poll that has left its waker. -/
def left (task : Nat) : Poll where
  task
  script := recheck
  made := [⟨.status, some .busy⟩, ⟨.register task, ()⟩]

/-- A poll that has returned after one check. -/
def first (task : Nat) (status : Option Status) : Poll where
  task
  script := .done (outcome status)
  made := [⟨.status, status⟩]

/-- A poll that has returned after both checks. -/
def second (task : Nat) (status : Option Status) : Poll where
  task
  script := .done (outcome status)
  made := [⟨.status, some .busy⟩, ⟨.register task, ()⟩, ⟨.status, status⟩]

/-- The stages of a poll before it returns. -/
inductive Underway : Poll → Prop where
  | begun (task : Nat) : Underway (begun task)
  | checked (task : Nat) : Underway (checked task)
  | left (task : Nat) : Underway (left task)

/-- A poll that has returned. One check is enough where the stream is not busy. -/
inductive Over : Poll → Prop where
  | first (task : Nat) {status : Option Status} (h : status ≠ some .busy) : Over (first task status)
  | second (task : Nat) (status : Option Status) : Over (second task status)

/-- No check of a poll under way has found anything but a busy stream. -/
theorem Underway.busy_of_saw {p : Poll} (h : p.Underway) {status : Option Status}
    (hsaw : p.Saw status) : status = some .busy := by
  cases h <;> simp_all [Saw, Poll.begun, Poll.checked, Poll.left]

/-- What a check of a poll has found, if it is not a busy stream, is what the poll returns. -/
theorem Over.script_of_saw {p : Poll} (h : p.Over) {status : Option Status} (hsaw : p.Saw status)
    (hbusy : status ≠ some .busy) : p.script = .done (outcome status) := by
  cases h <;> simp_all [Saw, Poll.first, Poll.second]

/-- A poll that returns without a result has left its waker. -/
theorem Over.registered {p : Poll} (h : p.Over) (hpending : p.Pending) : p.Registered := by
  cases h with
  | first task hbusy =>
    have hnone := Script.done.inj hpending
    exact absurd (SlotScript.outcome_eq_none.mp hnone) hbusy
  | second task status => simp [Registered, Poll.second]

end Poll

/-! ## How far an event has come -/

namespace Party

/-- An event that the stream has been told of. -/
def told (event : TransferEvent) : Party Unit where
  script := notify
  made := [⟨.deliver event, ()⟩]

/-- An event that has taken the waker of a task and is about to wake it. -/
def waking (event : TransferEvent) (task : Nat) : Party Unit where
  script := .ask (.wake task) .done
  made := [⟨.deliver event, ()⟩, ⟨.takeWaker, some task⟩]

/-- The stages of an event. -/
inductive Served : Party Unit → Prop where
  | arrived (event : TransferEvent) : Served { script := SlotScript.onEvent event }
  | told (event : TransferEvent) : Served (told event)
  | waking (event : TransferEvent) (task : Nat) : Served (waking event task)
  | ended (made : List ((a : SlotAccess) × a.Answer)) : Served { script := .done (), made }

theorem waking_ne {event other : TransferEvent} {task w : Nat} (h : w ≠ task) :
    waking other w ≠ waking event task := by
  intro heq
  cases heq
  exact h rfl

theorem told_told (event : TransferEvent) : (told event).Told :=
  ⟨event, List.mem_cons_self⟩

theorem told_waking (event : TransferEvent) (task : Nat) : (waking event task).Told :=
  ⟨event, List.mem_cons_self⟩

end Party

/-- What is in a list stays there when another place of it is overwritten. -/
theorem mem_set_of_ne {α : Type} {l : List α} {i : Nat} {x y z : α} (hx : l[i]? = some x)
    (hy : y ∈ l) (hne : y ≠ x) : y ∈ l.set i z := by
  obtain ⟨j, hj⟩ := List.mem_iff_getElem?.mp hy
  have hij : i ≠ j := by
    rintro rfl
    exact hne (Option.some.inj (hj.symm.trans hx))
  exact List.mem_iff_getElem?.mpr ⟨j, by rw [List.getElem?_set_ne hij, hj]⟩

namespace Vigil

variable {v : Vigil} {p : Poll} {w : Nat}

/-! ## Where a waker is, and who minds the status -/

/-- Until its task is woken, a waker that has been left is in the slot, or in the hands of an event
that is about to wake it. -/
def Kept (v : Vigil) (w : Nat) : Prop :=
  w ∉ v.woken → v.slot.waker.registered = some w ∨ ∃ event, Party.waking event w ∈ v.events

/-- Until its task is woken, the stream is busy, or the event that changed that has still to take a
waker, or the waker is about to be woken. -/
def Guarded (v : Vigil) (w : Nat) : Prop :=
  w ∉ v.woken → v.slot.status = some .busy ∨ (∃ event, Party.told event ∈ v.events) ∨
    ∃ event, Party.waking event w ∈ v.events

/-- What one access of the event at a place does. -/
inductive Serves (v : Vigil) (i : Nat) : Vigil → Prop where
  | idle : Serves v i v
  | tells (event : TransferEvent) (cell : Cell (Option Stream)) (machine : Machine)
      (hi : v.events[i]? = some { script := SlotScript.onEvent event }) :
      Serves v i
        { v with
          slot := { v.slot with cell }, machine
          events := v.events.set i (.told event) }
  | findsNone (event : TransferEvent) (hi : v.events[i]? = some (.told event))
      (hwaker : v.slot.waker.registered = none) (made : List ((a : SlotAccess) × a.Answer)) :
      Serves v i
        { v with
          slot := { v.slot with waker := {} }
          events := v.events.set i { script := .done (), made } }
  | takes (event : TransferEvent) (task : Nat) (hi : v.events[i]? = some (.told event))
      (hwaker : v.slot.waker.registered = some task) :
      Serves v i
        { v with
          slot := { v.slot with waker := {} }
          events := v.events.set i (.waking event task) }
  | wakes (event : TransferEvent) (task : Nat) (hi : v.events[i]? = some (.waking event task))
      (wakes : Array Nat) (made : List ((a : SlotAccess) × a.Answer)) :
      Serves v i
        { v with
          slot := { v.slot with wakes }, woken := task :: v.woken
          events := v.events.set i { script := .done (), made } }

/-- Telling the stream of an event touches nothing of the slot but the cell. -/
theorem slot_deliver (s : Slot) (m : Machine) (event : TransferEvent) :
    (s.deliver m event).1 = { s with cell := (s.deliver m event).1.cell } := by
  unfold Slot.deliver
  split
  · rfl
  · split <;> rfl

theorem serves (h : ∀ x ∈ v.events, x.Served) (i : Nat) : v.Serves i (v.step (.serve i)) := by
  cases hi : v.events[i]? with
  | none =>
    have hstep : v.step (.serve i) = v := by simp only [step, hi]
    rw [hstep]
    exact .idle
  | some x =>
    have hstep : v.step (.serve i) =
        { (x.advance v).2 with events := v.events.set i (x.advance v).1 } := by
      simp only [step, hi]
    rw [hstep]
    cases h x (List.mem_of_getElem? hi) with
    | arrived event =>
      have hslot := slot_deliver v.slot v.machine event
      have htells := Serves.tells event (v.slot.deliver v.machine event).1.cell
        (v.slot.deliver v.machine event).2 hi
      rw [← hslot] at htells
      exact htells
    | told event =>
      cases hwaker : v.slot.waker.registered with
      | none =>
        have hadvance : (Party.told event).advance v =
            ({ script := .done (), made := [⟨.deliver event, ()⟩, ⟨.takeWaker, none⟩] },
              { v with slot := { v.slot with waker := {} } }) := by
          simp [Party.advance, Party.told, notify, access, Slot.answer, Waker.take, hwaker]
        rw [hadvance]
        exact .findsNone event hi hwaker _
      | some task =>
        have hadvance : (Party.told event).advance v =
            (Party.waking event task, { v with slot := { v.slot with waker := {} } }) := by
          simp [Party.advance, Party.told, Party.waking, notify, access, Slot.answer, Waker.take,
            hwaker]
        rw [hadvance]
        exact .takes event task hi hwaker
    | waking event task => exact .wakes event task hi _ _
    | ended made =>
      obtain ⟨hlt, hx⟩ := List.getElem?_eq_some_iff.mp hi
      have hsame : { v with events := v.events.set i { script := .done (), made } } = v := by
        rw [← hx, List.set_getElem_self]
      show v.Serves i { v with events := v.events.set i { script := .done (), made } }
      rw [hsame]
      exact .idle

variable {v' : Vigil} {i : Nat}

theorem Serves.polls (h : v.Serves i v') : v'.polling = v.polling ∧ v'.returned = v.returned := by
  cases h <;> exact ⟨rfl, rfl⟩

theorem Serves.served (h : v.Serves i v') (hserved : ∀ x ∈ v.events, x.Served) :
    ∀ x ∈ v'.events, x.Served := by
  have hset {y : Party Unit} (hy : y.Served) : ∀ x ∈ v.events.set i y, x.Served := by
    intro x hx
    obtain hx | rfl := List.mem_or_eq_of_mem_set hx
    · exact hserved x hx
    · exact hy
  cases h with
  | idle => exact hserved
  | tells event cell machine hi => exact hset (.told event)
  | findsNone event hi hwaker made => exact hset (.ended made)
  | takes event task hi hwaker => exact hset (.waking event task)
  | wakes event task hi wakes made => exact hset (.ended made)

/-- A waker goes from the slot to an event, and from there to its task. -/
theorem Kept.serves (hkept : v.Kept w) (h : v.Serves i v') : v'.Kept w := by
  intro hw
  cases h with
  | idle => exact hkept hw
  | tells event cell machine hi =>
    obtain hwaker | ⟨other, hother⟩ := hkept hw
    · exact .inl hwaker
    · exact .inr ⟨other, mem_set_of_ne hi hother nofun⟩
  | findsNone event hi hwaker made =>
    obtain hw' | ⟨other, hother⟩ := hkept hw
    · exact absurd (hw'.symm.trans hwaker) nofun
    · exact .inr ⟨other, mem_set_of_ne hi hother nofun⟩
  | takes event task hi hwaker =>
    obtain hw' | ⟨other, hother⟩ := hkept hw
    · obtain rfl : w = task := Option.some.inj (hw'.symm.trans hwaker)
      exact .inr ⟨event, List.mem_set (List.getElem?_eq_some_iff.mp hi).1 _⟩
    · exact .inr ⟨other, mem_set_of_ne hi hother nofun⟩
  | wakes event task hi wakes made =>
    have hne : w ≠ task := fun heq => hw (heq ▸ List.mem_cons_self)
    obtain hwaker | ⟨other, hother⟩ := hkept fun hold => hw (List.mem_cons_of_mem _ hold)
    · exact .inl hwaker
    · exact .inr ⟨other, mem_set_of_ne hi hother (Party.waking_ne hne)⟩

/-- A waker that is kept, but not in the slot, is about to be woken. -/
theorem Kept.guarded (hkept : v.Kept w) (hwaker : v.slot.waker.registered = none) :
    v.Guarded w := by
  intro hw
  obtain hw' | hwaking := hkept hw
  · exact absurd (hw'.symm.trans hwaker) nofun
  · exact .inr (.inr hwaking)

/-- The event that takes the stream out of busy goes on to take the waker, wherever it is by
then. -/
theorem Guarded.serves (hguarded : v.Guarded w) (hkept : v.Kept w) (h : v.Serves i v') :
    v'.Guarded w := by
  have hkept' : v'.Kept w := hkept.serves h
  cases h with
  | idle => exact hguarded
  | tells event cell machine hi =>
    -- whatever the event does to the status, it has still to take the waker
    exact fun _ => .inr (.inl ⟨event, List.mem_set (List.getElem?_eq_some_iff.mp hi).1 _⟩)
  | findsNone event hi hwaker made => exact hkept'.guarded rfl
  | takes event task hi hwaker => exact hkept'.guarded rfl
  | wakes event task hi wakes made =>
    intro hw
    have hne : w ≠ task := fun heq => hw (heq ▸ List.mem_cons_self)
    obtain hbusy | ⟨other, hother⟩ | ⟨other, hother⟩ :=
      hguarded fun hold => hw (List.mem_cons_of_mem _ hold)
    · exact .inl hbusy
    · exact .inr (.inl ⟨other, mem_set_of_ne hi hother nofun⟩)
    · exact .inr (.inr ⟨other, mem_set_of_ne hi hother (Party.waking_ne hne)⟩)

/-- What one access of the poll under way does. -/
inductive Advances (v : Vigil) : Vigil → Prop where
  | idle : Advances v v
  | findsBusy (task : Nat) (hpolling : v.polling = some (.begun task)) :
      Advances v { v with polling := some (.checked task) }
  | returns (task : Nat) (hpolling : v.polling = some (.begun task))
      (hstatus : v.slot.status ≠ some .busy) :
      Advances v
        { v with polling := none, returned := .first task v.slot.status :: v.returned }
  | registers (task : Nat) (hpolling : v.polling = some (.checked task)) :
      Advances v
        { v with
          slot := { v.slot with waker := { registered := some task } }, woken := []
          polling := some (.left task) }
  | rechecks (task : Nat) (hpolling : v.polling = some (.left task)) :
      Advances v
        { v with polling := none, returned := .second task v.slot.status :: v.returned }

theorem advances (h : ∀ p ∈ v.polling, p.Underway) : v.Advances (v.step .advance) := by
  cases hpolling : v.polling with
  | none =>
    have hstep : v.step .advance = v := by simp only [step, hpolling]
    rw [hstep]
    exact .idle
  | some p =>
    have hstep : v.step .advance =
        (p.advance v).2.settle { p with toParty := (p.advance v).1 } := by
      simp only [step, hpolling]
    rw [hstep]
    cases h p hpolling with
    | begun task =>
      obtain ⟨next, hpoll, hwaiting, hover⟩ := SlotScript.poll_eq_ask task
      simp only [Poll.begun, hpoll]
      show v.Advances
        (settle v { task, script := next v.slot.status, made := [⟨.status, v.slot.status⟩] })
      by_cases hbusy : v.slot.status = some .busy
      · rw [hbusy, hwaiting]
        exact .findsBusy task hpolling
      · rw [hover hbusy]
        exact .returns task hpolling hbusy
    | checked task => exact .registers task hpolling
    | left task => exact .rechecks task hpolling

/-! ## The invariant -/

/-- What holds between any two accesses. -/
structure Attended (v : Vigil) : Prop where
  polling : ∀ p ∈ v.polling, p.Underway
  returned : ∀ p ∈ v.returned, p.Over
  events : ∀ x ∈ v.events, x.Served
  /-- The waker of a poll that has still to check again is kept. -/
  left : ∀ p ∈ v.polling, p.Registered → v.Kept p.task
  waits : ∀ p, v.Waits p → v.Kept p.task ∧ v.Guarded p.task

theorem attended_start (slot : Slot) (machine : Machine) : Attended { slot, machine } where
  polling := nofun
  returned := nofun
  events := nofun
  left := nofun
  waits := fun _ hwaits => absurd hwaits.1 nofun

namespace Attended

theorem step_poll (h : v.Attended) (task : Nat) : (v.step (.poll task)).Attended := by
  cases hpolling : v.polling with
  | some p =>
    have hstep : v.step (.poll task) = v := by simp only [step, hpolling]
    rw [hstep]
    exact h
  | none =>
    have hstep : v.step (.poll task) = { v with polling := some (.begun task) } := by
      simp only [step, hpolling, Poll.begun]
    rw [hstep]
    refine { h with polling := ?_, left := ?_, waits := ?_ }
    · rintro p ⟨⟩
      exact .begun task
    · rintro p ⟨⟩ hregistered
      exact absurd hregistered nofun
    · rintro p ⟨hlast, hpending, -⟩
      exact h.waits p ⟨hlast, hpending, by simp [hpolling]⟩

theorem advances (h : v.Attended) (hs : v.Advances v') : v'.Attended := by
  have hreturned {q : Poll} (hover : q.Over) : ∀ p ∈ q :: v.returned, p.Over :=
    List.forall_mem_cons.mpr ⟨hover, h.returned⟩
  cases hs with
  | idle => exact h
  | findsBusy task hpolling =>
    refine { h with polling := ?_, left := ?_, waits := ?_ }
    · rintro p ⟨⟩
      exact .checked task
    · rintro p ⟨⟩ hregistered
      exact absurd hregistered (by simp [Poll.Registered, Poll.checked])
    · rintro p ⟨hlast, hpending, -⟩
      exact h.waits p ⟨hlast, hpending, by simp [hpolling, Poll.Registered, Poll.begun]⟩
  | returns task hpolling hstatus =>
    have hreturned := hreturned (.first task hstatus)
    refine { h with polling := nofun, returned := hreturned, left := nofun, waits := ?_ }
    rintro p ⟨⟨⟩, hpending, -⟩
    exact absurd (SlotScript.outcome_eq_none.mp (Script.done.inj hpending)) hstatus
  | registers task hpolling =>
    refine { h with polling := ?_, left := ?_, waits := ?_ }
    · rintro p ⟨⟩
      exact .left task
    · rintro p ⟨⟩ - -
      exact .inl rfl
    · rintro p ⟨-, -, hunregistered⟩
      exact absurd (by simp [Poll.Registered, Poll.left]) (hunregistered _ rfl)
  | rechecks task hpolling =>
    have hreturned := hreturned (.second task v.slot.status)
    refine { h with polling := nofun, returned := hreturned, left := nofun, waits := ?_ }
    rintro p ⟨⟨⟩, hpending, -⟩
    -- the waker was left before this check, so the check vouches for the stream
    have hbusy := SlotScript.outcome_eq_none.mp (Script.done.inj hpending)
    have hkept : v.Kept task := h.left _ hpolling (by simp [Poll.Registered, Poll.left])
    exact ⟨hkept, fun _ => .inl hbusy⟩

/-- What leaves the polls alone has only the wakers and the status to look after. -/
theorem of_polls (h : v.Attended) (hpolling : v'.polling = v.polling)
    (hreturned : v'.returned = v.returned) (hserved : ∀ x ∈ v'.events, x.Served)
    (hkept : ∀ w, v.Kept w → v'.Kept w) (hguarded : ∀ w, v.Kept w → v.Guarded w → v'.Guarded w) :
    v'.Attended where
  polling := hpolling ▸ h.polling
  returned := hreturned ▸ h.returned
  events := hserved
  left p hp hregistered := hkept p.task (h.left p (hpolling ▸ hp) hregistered)
  waits p hwaits := by
    rw [Waits, hpolling, hreturned] at hwaits
    obtain ⟨hkeeps, hguards⟩ := h.waits p hwaits
    exact ⟨hkept p.task hkeeps, hguarded p.task hkeeps hguards⟩

/-- More events may come, and others may be at the stream, as long as it stays busy. -/
theorem extend (h : v.Attended) {cell : Cell (Option Stream)} {machine : Machine}
    {events : List (Party Unit)}
    (hbusy : v.slot.status = some .busy → { v.slot with cell }.status = some .busy)
    (hevents : ∀ x ∈ v.events, x ∈ events) (hserved : ∀ x ∈ events, x.Served) :
    Attended { v with slot := { v.slot with cell }, machine, events } := by
  refine h.of_polls rfl rfl hserved ?_ ?_
  · intro w hkept hw
    obtain hwaker | ⟨event, hevent⟩ := hkept hw
    · exact .inl hwaker
    · exact .inr ⟨event, hevents _ hevent⟩
  · intro w _ hguarded hw
    obtain hstatus | ⟨event, hevent⟩ | ⟨event, hevent⟩ := hguarded hw
    · exact .inl (hbusy hstatus)
    · exact .inr (.inl ⟨event, hevents _ hevent⟩)
    · exact .inr (.inr ⟨event, hevents _ hevent⟩)

theorem step (h : v.Attended) (move : Move) : (v.step move).Attended := by
  cases move with
  | poll task => exact h.step_poll task
  | advance => exact h.advances (Vigil.advances h.polling)
  | event event =>
    have hserved : ∀ x ∈ v.events ++ [{ script := SlotScript.onEvent event }], x.Served :=
      List.forall_mem_append.mpr ⟨h.events, List.forall_mem_singleton.mpr (.arrived event)⟩
    exact h.extend id (fun x hx => List.mem_append_left _ hx) hserved
  | serve index =>
    have hs := serves h.events index
    obtain ⟨hpolling, hreturned⟩ := hs.polls
    exact h.of_polls hpolling hreturned (hs.served h.events) (fun w hkept => hkept.serves hs)
      fun w hkept hguarded => hguarded.serves hkept hs
  | elsewhere cell machine =>
    simp only [Vigil.step]
    split
    · exact h
    · rename_i hkeeps
      exact h.extend (fun hbusy => Decidable.not_not.mp fun hnot => hkeeps ⟨hbusy, hnot⟩)
        (fun _ hx => hx) h.events

theorem run (h : v.Attended) (moves : List Move) : (v.run moves).Attended := by
  induction moves generalizing v with
  | nil => exact h
  | cons move moves ih => exact ih (h.step move)

end Attended

/-! ## No wake-up is lost -/

theorem willWake_told (event : TransferEvent) (h : v.slot.waker.registered = some w) :
    v.WillWake (.told event) w := by
  simp [WillWake, Party.told, notify, access, Slot.answer, Waker.take, h]

theorem willWake_waking (event : TransferEvent) : v.WillWake (.waking event w) w :=
  rfl

/-- A task that waits, and has not been woken since it left its waker, either waits for a busy
stream or is about to be woken. -/
theorem Attended.covered (h : v.Attended) (hwaits : v.Waits p) (hw : p.task ∉ v.woken) :
    v.slot.status = some .busy ∨ ∃ x ∈ v.events, x.Told ∧ v.WillWake x p.task := by
  obtain ⟨hkept, hguarded⟩ := h.waits p hwaits
  obtain hbusy | ⟨event, hevent⟩ | ⟨event, hevent⟩ := hguarded hw
  · exact .inl hbusy
  · obtain hwaker | ⟨other, hother⟩ := hkept hw
    · exact .inr ⟨_, hevent, Party.told_told event, willWake_told event hwaker⟩
    · exact .inr ⟨_, hother, Party.told_waking other _, willWake_waking other⟩
  · exact .inr ⟨_, hevent, Party.told_waking event _, willWake_waking event⟩

/-- A poll that has seen anything but a busy stream has returned what it saw. -/
theorem Attended.answered (h : v.Attended) (hp : p ∈ v.polling ∨ p ∈ v.returned)
    {status : Option Status} (hsaw : p.Saw status) (hbusy : status ≠ some .busy) :
    p ∈ v.returned ∧
      p.script = .done (some (status.elim (.error (.io .invalidState)) Status.toResult)) := by
  obtain hp | hp := hp
  · exact absurd ((h.polling p hp).busy_of_saw hsaw) hbusy
  · rw [← SlotScript.outcome_of_ne_busy hbusy]
    exact ⟨hp, (h.returned p hp).script_of_saw hsaw hbusy⟩

/-- Once all events that have come are over, a task that waits for a stream that is no longer busy
has been woken. -/
theorem Attended.woken_of_quiet (h : v.Attended) (hquiet : ∀ x ∈ v.events, x.script = .done ())
    (hwaits : v.Waits p) (hbusy : v.slot.status ≠ some .busy) : p.task ∈ v.woken := by
  refine Decidable.byContradiction fun hw => ?_
  obtain hstatus | ⟨x, hx, -, hwake⟩ := h.covered hwaits hw
  · exact hbusy hstatus
  · rw [WillWake, hquiet x hx] at hwake
    exact List.cons_ne_self _ _ hwake.symm

/-- **No wake-up is lost**, however polls and events are interleaved. A task whose latest poll has
returned without a result has left its waker; while nobody has woken it since, the stream is busy,
or an event that the stream has been told of is about to wake the task. A poll of which one check
sees anything but a busy stream returns what that check saw. -/
theorem no_wake_lost (slot : Slot) (machine : Machine) (moves : List Move) :
    let v : Vigil := run { slot, machine } moves
    (∀ p, v.Waits p → p.Registered ∧
      (p.task ∉ v.woken → v.slot.status = some .busy ∨
        ∃ x ∈ v.events, x.Told ∧ v.WillWake x p.task)) ∧
    ∀ p, p ∈ v.polling ∨ p ∈ v.returned → ∀ status, p.Saw status → status ≠ some .busy →
      p ∈ v.returned ∧
        p.script = .done (some (status.elim (.error (.io .invalidState)) Status.toResult)) := by
  intro v
  have h : v.Attended := (attended_start slot machine).run moves
  refine ⟨fun p hwaits => ⟨?_, h.covered hwaits⟩, fun p hp status => h.answered hp⟩
  exact (h.returned p (List.mem_of_mem_head? hwaits.1)).registered hwaits.2.1

theorem run_append (v : Vigil) (moves rest : List Move) :
    v.run (moves ++ rest) = (v.run moves).run rest :=
  List.foldl_append

/-- A poll of a busy stream, with nothing in between, leaves the task waiting. -/
theorem run_poll_busy (hpolling : v.polling = none) (hbusy : v.slot.status = some .busy)
    (task : Nat) :
    v.run [.poll task, .advance, .advance, .advance] =
      { v with
        slot := { v.slot with waker := { registered := some task } }
        returned := .second task (some .busy) :: v.returned, woken := [] } := by
  have hleft (waker : Waker) : { v.slot with waker }.status = some .busy := hbusy
  simp [run, step, Party.advance, SlotScript.poll, access, Slot.answer, Waker.register, settle,
    Poll.second, outcome, hpolling, hbusy, hleft]

/-- A bus error has been told to the stream, and the task that waits has yet to be woken. -/
theorem no_wake_lost_midway :
    ∃ r, Machine.rig { controllers := #[{}] } 3 0 2 {} = .ok r ∧
      let live := r.run [.append 0 64 8, .enable]
      let v : Vigil := run
        { slot := { cell := { value := some live.stream } }, machine := live.machine }
        [.poll 7, .advance, .advance, .advance, .event .busError, .serve 0]
      v.Waits (.second 7 (some .busy)) ∧ v.slot.status = some .error ∧
        ∃ x ∈ v.events, x.Told ∧ v.WillWake x 7 := by
  obtain ⟨r, hr⟩ : ∃ r, Machine.rig { controllers := #[{}] } 3 0 2 {} = .ok r := ⟨_, rfl⟩
  have hbefore : ((Machine.rig { controllers := #[{}] } 3 0 2 {}).toOption.map fun r =>
      (r.run [.append 0 64 8, .enable]).stream.status) = some .busy := by decide +kernel
  have hafter : ((Machine.rig { controllers := #[{}] } 3 0 2 {}).toOption.map fun r =>
      let live := r.run [.append 0 64 8, .enable]
      (run { slot := { cell := { value := some live.stream } }, machine := live.machine }
        [.poll 7, .advance, .advance, .advance, .event .busError, .serve 0]).slot.status) =
      some (some .error) := by decide +kernel
  rw [hr] at hbefore hafter
  refine ⟨r, hr, ?_⟩
  intro live v
  have hstatus : v.slot.status = some .error := Option.some.inj hafter
  let start : Vigil :=
    { slot := { cell := { value := some live.stream } }, machine := live.machine }
  have hbusy : start.slot.status = some .busy := hbefore
  have hpoll := run_poll_busy (v := start) rfl hbusy 7
  have hv : v = (start.run [.poll 7, .advance, .advance, .advance]).run
      [.event .busError, .serve 0] :=
    run_append start [.poll 7, .advance, .advance, .advance] _
  rw [hpoll] at hv
  have hwaits : v.Waits (.second 7 (some .busy)) := hv ▸ ⟨rfl, rfl, nofun⟩
  have hwoken : 7 ∉ v.woken := by
    rw [hv]
    exact List.not_mem_nil
  obtain hbusy | hwake := ((no_wake_lost start.slot live.machine _).1 _ hwaits).2 hwoken
  · exact absurd (hbusy.symm.trans hstatus) nofun
  · exact ⟨hwaits, hstatus, hwake⟩

end Vigil

end ScatterGather
