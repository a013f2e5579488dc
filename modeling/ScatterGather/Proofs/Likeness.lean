import ScatterGather.Bench.Object
import ScatterGather.Proofs.Footprint

/-!
# ScatterGather.Proofs.Likeness — machines that differ only in how often a channel paused

A channel that is paused, polled and resumed has lost nothing: `Controller.Like` and
`RegisterWindow.Like` leave out what remembers such a pause, and nothing else. `Machine.Like`
compares two machines in this way. Their traces are `Woven` together: each may tell of pauses that
ended before the FIFO was empty, and the second also of request timeouts that the first had none of.

Driver code is compared access by access. `Alike` scripts make the same accesses whatever they are
answered, but for pausing, polling and resuming on either side, and for the traces of a timeout on
the second. `Alike.exec` carries the comparison over to like machines. Polls are the one thing that
like machines may answer differently, so they never count as an access that both scripts make.
-/

namespace ScatterGather

/-! ## Controllers -/

/-- What a controller remembers of pauses and polls. -/
structure Pausing where
  paused : Bool
  pendingPolls : Nat
  pauses : Nat
  resumes : Nat

namespace Controller

def pausing (c : Controller) : Pausing :=
  ⟨c.paused, c.pendingPolls, c.pauses, c.resumes⟩

/-- A controller that remembers other pauses and polls. -/
def withPausing (c : Controller) (x : Pausing) : Controller :=
  { c with
    paused := x.paused, pendingPolls := x.pendingPolls, pauses := x.pauses, resumes := x.resumes }

/-- Two controllers differ in what they remember of pauses and polls, if at all. -/
def Like (c c' : Controller) : Prop :=
  ∃ x, c' = c.withPausing x

variable {c c' c'' : Controller}

theorem Like.refl (c : Controller) : c.Like c :=
  ⟨c.pausing, rfl⟩

theorem Like.symm (h : c.Like c') : c'.Like c := by
  obtain ⟨x, rfl⟩ := h
  exact ⟨c.pausing, rfl⟩

theorem Like.trans (h : c.Like c') (h' : c'.Like c'') : c.Like c'' := by
  obtain ⟨x, rfl⟩ := h
  obtain ⟨y, rfl⟩ := h'
  exact ⟨y, rfl⟩

theorem like_pause (c : Controller) : c.Like c.pause :=
  ⟨c.pause.pausing, rfl⟩

theorem like_resume (c : Controller) : c.Like c.resume :=
  ⟨c.resume.pausing, rfl⟩

theorem like_poll (c : Controller) : c.Like c.poll.2 := by
  unfold poll
  split
  · exact .refl c
  · exact ⟨{ c.pausing with pendingPolls := c.pendingPolls - 1 }, rfl⟩

/-! ### What a controller does is the same whatever it remembers -/

section WithPausing

variable (c : Controller) (x : Pausing) (t : DescriptorTable) (memory : Memory)

theorem moveElements_withPausing (count : Nat) :
    (c.withPausing x).moveElements t memory count =
      ((c.moveElements t memory count).1.withPausing x, (c.moveElements t memory count).2) := by
  unfold moveElements
  show (if c.isRunning then _ else _) = _
  split <;> rfl

theorem finish_withPausing :
    (c.withPausing x).finish t memory =
      ((c.finish t memory).1, (c.finish t memory).2.1.withPausing x, (c.finish t memory).2.2) := by
  have hcurrent : (c.withPausing x).current = c.current := rfl
  by_cases hc : c.current = 0
  · rw [finish_stopped t memory hc, finish_stopped t memory (hcurrent.trans hc)]
  · rw [finish_running t memory hc, finish_running t memory (hcurrent ▸ hc)]
    show (_, ((c.withPausing x).moveElements t memory c.remaining).1.load t _,
      ((c.withPausing x).moveElements t memory c.remaining).2) = _
    rw [moveElements_withPausing]
    rfl

theorem finishMany_withPausing (blocks : Nat) :
    finishMany t blocks (c.withPausing x) memory =
      ((finishMany t blocks c memory).1.withPausing x, (finishMany t blocks c memory).2) := by
  induction blocks generalizing c memory with
  | zero => rfl
  | succ blocks ih =>
    rw [finishMany, finish_withPausing, finishMany]
    exact ih _ _

theorem runToEvent_withPausing (blocks : Nat) :
    runToEvent t blocks (c.withPausing x) memory =
      (runToEvent t blocks c memory).map fun r => (r.1, r.2.1.withPausing x, r.2.2) := by
  induction blocks generalizing c memory with
  | zero =>
    show (if c.isRunning then _ else _) = (if c.isRunning then _ else _ : Option _).map _
    split <;> rfl
  | succ blocks ih =>
    unfold runToEvent
    show (if c.isRunning then _ else _) = _
    rw [finish_withPausing]
    split
    · rcases c.finish t memory with ⟨event, c', memory'⟩
      cases event with
      | some event => rfl
      | none => exact ih c' memory'
    · rfl

theorem readNext_withPausing :
    (c.withPausing x).readNext t = ((c.readNext t).1, (c.readNext t).2.withPausing x) := by
  unfold readNext
  show (if c.unstable then _ else _) = _
  split <;> rfl

theorem readCount_withPausing :
    (c.withPausing x).readCount t memory =
      ((c.readCount t memory).1, (c.readCount t memory).2.1.withPausing x,
        (c.readCount t memory).2.2) := by
  show (_, finishMany t c.race (withPausing { c with race := 0 } x) memory) = _
  rw [finishMany_withPausing]
  rfl

end WithPausing

end Controller

/-! ## Register windows -/

namespace RegisterWindow

/-- Two windows differ in the pause bit, if at all. -/
structure Like (w w' : RegisterWindow) : Prop where
  next : w'.next = w.next
  count : w'.count = w.count
  status : w'.status = w.status
  config : w'.config &&& ~~~ConfigBit.pause = w.config &&& ~~~ConfigBit.pause

variable {w w' w'' : RegisterWindow}

theorem Like.refl (w : RegisterWindow) : w.Like w :=
  ⟨rfl, rfl, rfl, rfl⟩

theorem Like.symm (h : w.Like w') : w'.Like w :=
  ⟨h.next.symm, h.count.symm, h.status.symm, h.config.symm⟩

theorem Like.trans (h : w.Like w') (h' : w'.Like w'') : w.Like w'' :=
  ⟨h'.next.trans h.next, h'.count.trans h.count, h'.status.trans h.status,
    h'.config.trans h.config⟩

theorem like_pause (w : RegisterWindow) : w.Like w.pause := by
  refine ⟨rfl, rfl, rfl, ?_⟩
  have hbit : ConfigBit.pause &&& ~~~ConfigBit.pause = 0 := by decide
  show (w.config ||| ConfigBit.pause) &&& ~~~ConfigBit.pause = _
  rw [and_or_mask, hbit, UInt32.or_zero]

theorem like_resume (w : RegisterWindow) : w.Like w.resume := by
  refine ⟨rfl, rfl, rfl, ?_⟩
  show (w.config &&& ~~~ConfigBit.pause) &&& ~~~ConfigBit.pause = _
  rw [UInt32.and_assoc, UInt32.and_self]

theorem Like.start (h : w.Like w') (head : Nat) (priority : Priority) :
    (w.start head priority).Like (w'.start head priority) :=
  ⟨rfl, h.count, rfl, rfl⟩

theorem Like.halt (h : w.Like w') : w.halt.Like w'.halt := by
  refine ⟨h.next, h.count, h.status, ?_⟩
  have hmask : ~~~(ConfigBit.enable ||| ConfigBit.pause) =
      ~~~ConfigBit.pause &&& ~~~ConfigBit.enable := by decide
  show (w'.config &&& ~~~(ConfigBit.enable ||| ConfigBit.pause)) &&& ~~~ConfigBit.pause =
    (w.config &&& ~~~(ConfigBit.enable ||| ConfigBit.pause)) &&& ~~~ConfigBit.pause
  rw [hmask, ← UInt32.and_assoc, ← UInt32.and_assoc, h.config]

theorem Like.write (h : w.Like w') (r : Register) (value : UInt32) :
    (w.change r (.write value)).Like (w'.change r (.write value)) := by
  cases r with
  | next => exact ⟨rfl, h.count, h.status, h.config⟩
  | count => exact ⟨h.next, rfl, h.status, h.config⟩
  | config => exact ⟨h.next, h.count, h.status, rfl⟩
  | status => exact ⟨h.next, h.count, rfl, h.config⟩

theorem Like.takeFlags (h : w.Like w') :
    w'.takeFlags.1 = w.takeFlags.1 ∧ w.takeFlags.2.Like w'.takeFlags.2 := by
  have hflags : w'.flags = w.flags := congrArg ChannelFlags.ofWord h.status
  refine ⟨hflags, ?_⟩
  unfold RegisterWindow.takeFlags
  rw [hflags]
  show Like (if w.flags.any then _ else _) (if w.flags.any then _ else _)
  split
  · exact h.write .status _
  · exact h

end RegisterWindow

/-! ## Traces -/

/-- Two traces of entries, the first of which may have idle ones of its own, and the second idle and
late ones. -/
inductive Woven {α : Type} (Idle Late : α → Prop) : Array α → Array α → Prop
  | refl (l : Array α) : Woven Idle Late l l
  | both {l l' : Array α} (h : Woven Idle Late l l') (a : α) :
      Woven Idle Late (l.push a) (l'.push a)
  | left {l l' : Array α} (h : Woven Idle Late l l') {a : α} (ha : Idle a) :
      Woven Idle Late (l.push a) l'
  | right {l l' : Array α} (h : Woven Idle Late l l') {a : α} (ha : Idle a ∨ Late a) :
      Woven Idle Late l (l'.push a)

/-- A record of a pause that ended before the FIFO was empty. -/
def LogRecord.Idle (r : LogRecord) : Prop :=
  ∃ channel, r = .notDrained channel

/-- A record of a request timeout. -/
def LogRecord.Late (r : LogRecord) : Prop :=
  ∃ channel, r = .requestTimeout channel

/-- A report of a request timeout. -/
def Report.Late (r : Report) : Prop :=
  ∃ label, r = .status label .timeout

namespace Access

/-- An access that is not a poll. -/
def Plain : Access → Prop
  | isPending => False
  | _ => True

theorem Tabular.plain {a : Access} (h : a.Tabular) : a.Plain := by
  cases a <;> trivial

/-- An access that a pause of a channel consists of, or that tells of one. -/
def Idle : Access → Prop
  | pause | resume | isPending => True
  | log r => r.Idle
  | _ => False

/-- An access that tells of a timeout. -/
def Late : Access → Prop
  | log r => r.Late
  | report r => r.Late
  | _ => False

end Access

/-! ## Machines -/

namespace Machine

/-- Two machines differ in what their channels remember of pauses and polls, if at all. The trace of
the second may tell of timeouts that the first had none of. -/
structure Like (m m' : Machine) : Prop where
  memory : m'.memory = m.memory
  table : m'.table = m.table
  ownership : m'.ownership = m.ownership
  controllers : ∀ i, (m.controller i).Like (m'.controller i)
  controllersSize : m'.controllers.size = m.controllers.size
  windows : ∀ i, (m.window i).Like (m'.window i)
  windowsSize : m'.windows.size = m.windows.size
  log : Woven LogRecord.Idle LogRecord.Late m.log m'.log
  reports : Woven (fun _ => False) Report.Late m.reports m'.reports

variable {m m' : Machine} {i : Nat}

theorem Like.refl (m : Machine) : m.Like m where
  memory := rfl
  table := rfl
  ownership := rfl
  controllers _ := .refl _
  controllersSize := rfl
  windows _ := .refl _
  windowsSize := rfl
  log := .refl _
  reports := .refl _

theorem window_setWindow (m : Machine) (i j : Nat) (w : RegisterWindow) :
    (m.setWindow j w).window i = if j = i ∧ i < m.windows.size then w else m.window i := by
  by_cases hj : j = i
  · subst hj
    by_cases h : j < m.windows.size <;> simp [window, setWindow, Array.getD_eq_getD_getElem?, h]
  · simp [window, setWindow, Array.getD_eq_getD_getElem?, hj]

theorem Like.setController (h : m.Like m') (i : Nat) {c c' : Controller} (hc : c.Like c') :
    (m.setController i c).Like (m'.setController i c') where
  memory := h.memory
  table := h.table
  ownership := h.ownership
  controllers j := by
    rw [controller_setController, controller_setController, h.controllersSize]
    split
    · exact hc
    · exact h.controllers j
  controllersSize := by rw [size_setController, size_setController, h.controllersSize]
  windows := h.windows
  windowsSize := h.windowsSize
  log := h.log
  reports := h.reports

/-- One of two like machines gets a controller that is like the old one. -/
theorem Like.setController_left (h : m.Like m') {i : Nat} {c : Controller}
    (hc : (m.controller i).Like c) : (m.setController i c).Like m' := by
  have hset := h.setController i (hc.symm.trans (h.controllers i))
  rwa [setController_controller] at hset

theorem Like.setController_right (h : m.Like m') {i : Nat} {c : Controller}
    (hc : (m'.controller i).Like c) : m.Like (m'.setController i c) := by
  have hset := h.setController i ((h.controllers i).trans hc)
  rwa [setController_controller] at hset

theorem Like.setWindow (h : m.Like m') (i : Nat) {w w' : RegisterWindow} (hw : w.Like w') :
    (m.setWindow i w).Like (m'.setWindow i w') where
  memory := h.memory
  table := h.table
  ownership := h.ownership
  controllers := h.controllers
  controllersSize := h.controllersSize
  windows j := by
    rw [window_setWindow, window_setWindow, h.windowsSize]
    split
    · exact hw
    · exact h.windows j
  windowsSize := by simp [Machine.setWindow, h.windowsSize]
  log := h.log
  reports := h.reports

theorem setWindow_window (m : Machine) (i : Nat) : m.setWindow i (m.window i) = m := by
  rcases m with ⟨memory, table, controllers, windows, ownership, log, reports⟩
  simp only [Machine.setWindow, window, mk.injEq, true_and, and_true]
  by_cases h : i < windows.size
  · rw [Array.getD_eq_getD_getElem?, Array.getElem?_eq_getElem h, Option.getD_some]
    rw [Array.setIfInBounds, dif_pos h, Array.set_getElem_self]
  · simp [Array.setIfInBounds, h]

theorem Like.setWindow_left (h : m.Like m') {i : Nat} {w : RegisterWindow}
    (hw : (m.window i).Like w) : (m.setWindow i w).Like m' := by
  have hset := h.setWindow i (hw.symm.trans (h.windows i))
  rwa [setWindow_window] at hset

theorem Like.setWindow_right (h : m.Like m') {i : Nat} {w : RegisterWindow}
    (hw : (m'.window i).Like w) : m.Like (m'.setWindow i w) := by
  have hset := h.setWindow i ((h.windows i).trans hw)
  rwa [setWindow_window] at hset

/-! ### Moves of a controller -/

/-- Like controllers that changed memory in the same way. -/
theorem Like.move (h : m.Like m') (i : Nat) {r r' : Controller × Memory} {x : Pausing}
    (hr : r' = (r.1.withPausing x, r.2)) :
    ({ m with memory := r.2 }.setController i r.1).Like
      ({ m' with memory := r'.2 }.setController i r'.1) := by
  subst hr
  have hmemory : ({ m with memory := r.2 } : Machine).Like { m' with memory := r.2 } :=
    { h with memory := rfl }
  exact hmemory.setController i ⟨x, rfl⟩

theorem Like.moveElements (h : m.Like m') (i count : Nat) :
    (m.moveElements i count).Like (m'.moveElements i count) := by
  obtain ⟨x, hx⟩ := h.controllers i
  have hmoved : (m'.controller i).moveElements m'.table m'.memory count =
      (((m.controller i).moveElements m.table m.memory count).1.withPausing x,
        ((m.controller i).moveElements m.table m.memory count).2) := by
    rw [hx, h.table, h.memory, Controller.moveElements_withPausing]
  exact h.move i hmoved

theorem Like.finish (h : m.Like m') (i : Nat) :
    (m'.finish i).1 = (m.finish i).1 ∧ (m.finish i).2.Like (m'.finish i).2 := by
  obtain ⟨x, hx⟩ := h.controllers i
  have hfinish : (m'.controller i).finish m'.table m'.memory =
      (((m.controller i).finish m.table m.memory).1,
        ((m.controller i).finish m.table m.memory).2.1.withPausing x,
        ((m.controller i).finish m.table m.memory).2.2) := by
    rw [hx, h.table, h.memory, Controller.finish_withPausing]
  have hevent := congrArg Prod.fst hfinish
  exact ⟨hevent, h.move i (congrArg Prod.snd hfinish)⟩

theorem Like.finishMany (h : m.Like m') (i blocks : Nat) :
    (m.finishMany i blocks).Like (m'.finishMany i blocks) := by
  obtain ⟨x, hx⟩ := h.controllers i
  have hmany : Controller.finishMany m'.table blocks (m'.controller i) m'.memory =
      ((Controller.finishMany m.table blocks (m.controller i) m.memory).1.withPausing x,
        (Controller.finishMany m.table blocks (m.controller i) m.memory).2) := by
    rw [hx, h.table, h.memory, Controller.finishMany_withPausing]
  exact h.move i hmany

/-- A controller that runs comes to the same event, or goes around the same loop. -/
theorem Like.runToEvent (h : m.Like m') (i : Nat) :
    m.runToEvent i = none ∧ m'.runToEvent i = none ∨
      ∃ event machine machine', m.runToEvent i = some (event, machine) ∧
        m'.runToEvent i = some (event, machine') ∧ machine.Like machine' := by
  obtain ⟨x, hx⟩ := h.controllers i
  have hrun : (m'.controller i).runToEvent m'.table (m'.table.cells.size + 1) m'.memory =
      ((m.controller i).runToEvent m.table (m.table.cells.size + 1) m.memory).map
        fun r => (r.1, r.2.1.withPausing x, r.2.2) := by
    rw [hx, h.table, h.memory, Controller.runToEvent_withPausing]
  unfold Machine.runToEvent
  rw [hrun]
  cases (m.controller i).runToEvent m.table (m.table.cells.size + 1) m.memory with
  | none => exact .inl ⟨rfl, rfl⟩
  | some r => exact .inr ⟨r.1, _, _, rfl, rfl, h.move (r := r.2) i rfl⟩

theorem Like.runWithin (h : m.Like m') (i patience : Nat) :
    (m'.runWithin i patience).1 = (m.runWithin i patience).1 ∧
      (m.runWithin i patience).2.Like (m'.runWithin i patience).2 := by
  unfold Machine.runWithin
  rcases h.runToEvent i with ⟨hm, hm'⟩ | ⟨event, machine, machine', hm, hm', hlike⟩
  · rw [hm, hm', Option.getD_none, Option.getD_none]
    exact ⟨rfl, h.finishMany i patience⟩
  · rw [hm, hm', Option.getD_some, Option.getD_some]
    exact ⟨rfl, hlike⟩

/-! ### Accesses of a driver -/

theorem Like.record (h : m.Like m') (r : LogRecord) : (m.record r).Like (m'.record r) :=
  { h with log := h.log.both r }

theorem Like.tell (h : m.Like m') (r : Report) : (m.tell r).Like (m'.tell r) :=
  { h with reports := h.reports.both r }

theorem Like.bind (h : m.Like m') (channel : Nat) (owner : OwnerId) :
    (m'.bind channel owner).1 = (m.bind channel owner).1 ∧
      (m.bind channel owner).2.Like (m'.bind channel owner).2 := by
  have howner (ownership : Ownership) :
      ({ m with ownership } : Machine).Like { m' with ownership } := { h with ownership := rfl }
  unfold Machine.bind
  rw [h.ownership]
  rcases m.ownership.bind channel owner with ⟨result, ownership⟩
  refine ⟨rfl, ?_⟩
  show Like (if _ then _ else _) (if _ then _ else _)
  split
  · exact (howner ownership).record _
  · exact howner ownership

theorem Like.readNext (h : m.Like m') (hw : Hardware) :
    (m'.readNext hw).1 = (m.readNext hw).1 ∧ (m.readNext hw).2.Like (m'.readNext hw).2 := by
  cases hw with
  | window i => exact ⟨congrArg UInt32.toNat (h.windows i).next, h⟩
  | controller i =>
    obtain ⟨x, hx⟩ := h.controllers i
    have hread : (m'.controller i).readNext m'.table =
        (((m.controller i).readNext m.table).1,
          ((m.controller i).readNext m.table).2.withPausing x) := by
      rw [hx, h.table, Controller.readNext_withPausing]
    have hnext := congrArg Prod.fst hread
    have hafter := congrArg Prod.snd hread
    exact ⟨hnext, h.setController i ⟨x, hafter⟩⟩

theorem Like.readCount (h : m.Like m') (hw : Hardware) :
    (m'.readCount hw).1 = (m.readCount hw).1 ∧ (m.readCount hw).2.Like (m'.readCount hw).2 := by
  cases hw with
  | window i => exact ⟨congrArg UInt32.toNat (h.windows i).count, h⟩
  | controller i =>
    obtain ⟨x, hx⟩ := h.controllers i
    have hread : (m'.controller i).readCount m'.table m'.memory =
        (((m.controller i).readCount m.table m.memory).1,
          ((m.controller i).readCount m.table m.memory).2.1.withPausing x,
          ((m.controller i).readCount m.table m.memory).2.2) := by
      rw [hx, h.table, h.memory, Controller.readCount_withPausing]
    have hcount := congrArg Prod.fst hread
    exact ⟨hcount, h.move i (congrArg Prod.snd hread)⟩

/-- One of two like machines pauses, polls or resumes a channel, or tells of a pause. -/
theorem Like.idle_left (h : m.Like m') (hw : Hardware) {a : Access} (ha : a.Idle) :
    (answer hw a m).2.Like m' := by
  cases a with
  | pause =>
    cases hw with
    | window i => exact h.setWindow_left (m.window i).like_pause
    | controller i => exact h.setController_left (m.controller i).like_pause
  | resume =>
    cases hw with
    | window i => exact h.setWindow_left (m.window i).like_resume
    | controller i => exact h.setController_left (m.controller i).like_resume
  | isPending =>
    cases hw with
    | window i => exact h
    | controller i => exact h.setController_left (m.controller i).like_poll
  | log r => exact { h with log := h.log.left ha }
  | _ => exact ha.elim

theorem Like.idle_right (h : m.Like m') (hw : Hardware) {a : Access} (ha : a.Idle) :
    m.Like (answer hw a m').2 := by
  cases a with
  | pause =>
    cases hw with
    | window i => exact h.setWindow_right (m'.window i).like_pause
    | controller i => exact h.setController_right (m'.controller i).like_pause
  | resume =>
    cases hw with
    | window i => exact h.setWindow_right (m'.window i).like_resume
    | controller i => exact h.setController_right (m'.controller i).like_resume
  | isPending =>
    cases hw with
    | window i => exact h
    | controller i => exact h.setController_right (m'.controller i).like_poll
  | log r => exact { h with log := h.log.right (.inl ha) }
  | _ => exact ha.elim

/-- The second of two like machines is told of a timeout. -/
theorem Like.late_right (h : m.Like m') (hw : Hardware) {a : Access} (ha : a.Late) :
    m.Like (answer hw a m').2 := by
  cases a with
  | log r => exact { h with log := h.log.right (.inr ha) }
  | report r => exact { h with reports := h.reports.right (.inr ha) }
  | _ => exact ha.elim

/-- Like machines give the same answers, to anything but a poll, and stay like. -/
theorem Like.answer (h : m.Like m') (hw : Hardware) {a : Access} (ha : a.Plain) :
    (answer hw a m').1 = (answer hw a m).1 ∧ (answer hw a m).2.Like (answer hw a m').2 := by
  cases a with
  | isPending => exact ha.elim
  | start head priority =>
    refine ⟨rfl, ?_⟩
    cases hw with
    | window i => exact h.setWindow i ((h.windows i).start head priority)
    | controller i =>
      obtain ⟨x, hx⟩ := h.controllers i
      refine h.setController i ⟨x, ?_⟩
      rw [hx, h.table]
      rfl
  | halt =>
    refine ⟨rfl, ?_⟩
    cases hw with
    | window i => exact h.setWindow i (h.windows i).halt
    | controller i =>
      obtain ⟨x, hx⟩ := h.controllers i
      refine h.setController i ⟨{ x with paused := false }, ?_⟩
      rw [hx, h.table]
      rfl
  | isActive =>
    refine ⟨?_, h⟩
    cases hw with
    | window i =>
      exact congrArg (fun status => (ChannelFlags.ofWord status).active) (h.windows i).status
    | controller i =>
      obtain ⟨x, hx⟩ := h.controllers i
      show (m'.controller i).isRunning = (m.controller i).isRunning
      rw [hx]
      rfl
  | nextPointer => exact h.readNext hw
  | transferCount => exact h.readCount hw
  | pause => exact ⟨rfl, (h.idle_left hw (a := .pause) trivial).idle_right hw trivial⟩
  | resume => exact ⟨rfl, (h.idle_left hw (a := .resume) trivial).idle_right hw trivial⟩
  | bind channel owner => exact h.bind channel owner
  | release channel owner =>
    refine ⟨rfl, { h with ownership := ?_ }⟩
    show (m'.ownership.release channel owner).2 = (m.ownership.release channel owner).2
    rw [h.ownership]
  | fetch address => exact ⟨congrArg (·.read address) h.table, h⟩
  | store address write =>
    exact ⟨rfl, { h with table := congrArg (·.write address write) h.table }⟩
  | load address length => exact ⟨congrArg (·.readList address length) h.memory, h⟩
  | save address data =>
    exact ⟨rfl, { h with memory := congrArg (·.writeList address data) h.memory }⟩
  | log r => exact ⟨rfl, h.record r⟩
  | report r => exact ⟨rfl, h.tell r⟩

end Machine

/-! ## Driver code -/

section Alike

variable {α β γ δ : Type}

/-- Two pieces of driver code make the same accesses, whatever these are answered, and end with
related values. Either may pause, poll and resume a channel on its own, and the second may tell of
timeouts. -/
inductive Alike (R : α → β → Prop) : DriverScript α → DriverScript β → Prop
  | done {a : α} {b : β} (h : R a b) : Alike R (.done a) (.done b)
  | both {a : Access} {f : a.Answer → DriverScript α} {g : a.Answer → DriverScript β}
      (ha : a.Plain) (h : ∀ answer, Alike R (f answer) (g answer)) :
      Alike R (.ask a f) (.ask a g)
  | left {a : Access} {f : a.Answer → DriverScript α} {y : DriverScript β} (ha : a.Idle)
      (h : ∀ answer, Alike R (f answer) y) : Alike R (.ask a f) y
  | right {a : Access} {x : DriverScript α} {g : a.Answer → DriverScript β} (ha : a.Idle ∨ a.Late)
      (h : ∀ answer, Alike R x (g answer)) : Alike R x (.ask a g)

/-- Two results give the same, and leave something that is related. -/
def Paired (L : β → β → Prop) (r r' : α × β) : Prop :=
  r'.1 = r.1 ∧ L r.2 r'.2

variable {R : α → β → Prop} {S : γ → δ → Prop} {x : DriverScript α} {y : DriverScript β}

theorem Alike.bind {f : α → DriverScript γ} {g : β → DriverScript δ} (h : Alike R x y)
    (hf : ∀ a b, R a b → Alike S (f a) (g b)) : Alike S (x >>= f) (y >>= g) := by
  induction h with
  | done h => exact hf _ _ h
  | both ha _ ih => exact .both ha ih
  | left ha _ ih => exact .left ha ih
  | right ha _ ih => exact .right ha ih

/-- Both sides go on with the same result. -/
theorem Alike.next {ρ : Type} {L : β → β → Prop} {x y : DriverScript (ρ × β)}
    {f : ρ × β → DriverScript γ} {g : ρ × β → DriverScript δ} (h : Alike (Paired L) x y)
    (hf : ∀ result a b, L a b → Alike S (f (result, a)) (g (result, b))) :
    Alike S (x >>= f) (y >>= g) := by
  refine h.bind ?_
  rintro ⟨_, a⟩ ⟨result, b⟩ ⟨rfl, hab⟩
  exact hf result a b hab

/-- Code that never polls is alike to itself. -/
theorem alike_self {Q : α → Prop} (h : x.Uses Access.Plain Q) : Alike Eq x x := by
  induction h with
  | done => exact .done rfl
  | ask ha _ ih => exact .both ha ih

/-- Code that never polls comes first on both sides. -/
theorem alike_bind_self {Q : α → Prop} {f : α → DriverScript γ} {g : α → DriverScript δ}
    (h : x.Uses Access.Plain Q) (hf : ∀ a, Alike S (f a) (g a)) :
    Alike S (x >>= f) (x >>= g) :=
  (alike_self h).bind fun a _ hab => hab ▸ hf a

/-- A pause on the first side only. -/
theorem alike_bind_left {Q : α → Prop} {f : α → DriverScript γ} {z : DriverScript δ}
    (h : x.Uses Access.Idle Q) (hf : ∀ a, Alike S (f a) z) : Alike S (x >>= f) z := by
  induction h with
  | done => exact hf _
  | ask ha _ ih => exact .left ha ih

/-- A pause on the second side only, or traces of a timeout. -/
theorem alike_bind_right {Q : α → Prop} {f : α → DriverScript δ} {z : DriverScript γ}
    (h : x.Uses (fun a => a.Idle ∨ a.Late) Q) (hf : ∀ a, Alike S z (f a)) :
    Alike S z (x >>= f) := by
  induction h with
  | done => exact hf _
  | ask ha _ ih => exact .right ha ih

/-- Code of the second side that is nothing but a pause, and traces of a timeout. -/
theorem alike_done_right {Q : β → Prop} {a : α} (h : y.Uses (fun a => a.Idle ∨ a.Late) Q)
    (hR : ∀ b, Q b → R a b) : Alike R (.done a) y := by
  induction h with
  | done h => exact .done (hR _ h)
  | ask ha _ ih => exact .right ha ih

/-- **Alike code on like machines** ends with related values, and leaves the machines like. -/
theorem Alike.exec (h : Alike R x y) {m m' : Machine} (hm : m.Like m') (hw : Hardware) :
    R (m.exec hw x).1 (m'.exec hw y).1 ∧ (m.exec hw x).2.Like (m'.exec hw y).2 := by
  induction h generalizing m m' with
  | done h => exact ⟨h, hm⟩
  | @both a f g ha _ ih =>
    obtain ⟨hanswer, hafter⟩ := hm.answer hw ha
    rw [Machine.exec, Machine.exec, Script.run_ask, Script.run_ask, hanswer]
    exact ih _ hafter
  | left ha _ ih => exact ih _ (hm.idle_left hw ha)
  | right ha _ ih => exact ih _ (ha.elim (hm.idle_right hw) (hm.late_right hw))

end Alike

end ScatterGather
