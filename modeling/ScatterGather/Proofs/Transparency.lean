import ScatterGather.Proofs.Recovery
import ScatterGather.Proofs.Robustness

/-!
# ScatterGather.Proofs.Transparency — a run with more timeouts is the same run

A `Stage` is a driver on its machine, and a `Happening` is anything that can befall them: commands
and events, moves of controllers, writes to registers from outside, claims of others. A `Twin` is
two such runs side by side, of which the second has timeouts that the first has none of. One step of
both keeps them like (`Stage.Like.hear`, `Stage.Like.timeout`), and hence every run
(`Twin.like_run`). `Twin.transparent_run` says what this comes to.
-/

namespace ScatterGather

open Script

/-! ## Commands to drivers that differ in a timeout -/

/-- Two replies differ in the state of the stream that they show, if at all. -/
inductive Bench.Reply.Like : Bench.Reply → Bench.Reply → Prop
  | same (r : Bench.Reply) : Like r r
  | info {s s' : Stream} (h : s.Like true s') : Like (.info s) (.info s')
  | text {s s' : Stream} (h : s.Like true s') : Like (.text s.text) (.text s'.text)

/-- Like replies, and something that is related. -/
def Replied {δ : Type} (L : δ → δ → Prop) (r r' : Bench.Reply × δ) : Prop :=
  r.1.Like r'.1 ∧ L r.2 r'.2

/-- Whether a command sets the state of a stream that holds its channel. -/
def Bench.StreamCommand.settles : Bench.StreamCommand → Bool
  | disable | clear | interrupt _ => true
  | _ => false

/-- Whether a command sets the state of a stream that holds its channel. -/
def Bench.TransmitCommand.settles : Bench.TransmitCommand → Bool
  | interrupt _ => true
  | _ => false

/-- Whether a command sets the state of a stream that holds its channel. -/
def Bench.ReceiveCommand.settles : Bench.ReceiveCommand → Bool
  | start | stop | interrupt _ => true
  | _ => false

/-- The result is the reply. -/
theorem Alike.reply {ρ δ : Type} {L : δ → δ → Prop} {x y : DriverScript (ρ × δ)}
    (h : Alike (Paired L) x y) (reply : ρ → Bench.Reply) :
    Alike (Replied L) (x >>= fun r => pure (reply r.1, r.2))
      (y >>= fun r => pure (reply r.1, r.2)) :=
  h.next fun result _ _ hab => .done ⟨.same (reply result), hab⟩

theorem Stream.Like.script {s s' : Stream} {shaded : Bool} (h : s.Like shaded s') (label : Nat)
    (command : Bench.StreamCommand) :
    Alike (Replied (Stream.Like (!command.settles && shaded))) (command.script s label)
      (command.script s' label) := by
  cases command with
  | append destination source size => exact (h.append destination source size).reply .dma
  | enable => exact h.enable.reply .result
  | disable => exact h.disable.bind fun _ _ hs => .done ⟨.same _, hs⟩
  | clear => exact h.clear.bind fun _ _ hs => .done ⟨.same _, hs⟩
  | configure settings =>
    obtain ⟨hresult, hs⟩ := h.configure settings
    exact .done ⟨congrArg Bench.Reply.config hresult ▸ .same _, hs⟩
  | callback on => exact (h.setCallback _).bind fun _ _ hs => .done ⟨.same _, hs⟩
  | interrupt event => exact (h.onInterrupt event).reply .status?
  | residue => exact h.residue.bind fun _ _ hr => hr ▸ .done ⟨.same _, h⟩
  | queued => exact h.queued.bind fun _ _ hn => hn ▸ .done ⟨.same _, h⟩
  | info => exact .done ⟨.info (h.mono fun _ => rfl), h⟩
  | text => exact .done ⟨.text (h.mono fun _ => rfl), h⟩

theorem TransmitPump.Like.script {p p' : TransmitPump} {shaded : Bool} (h : p.Like shaded p')
    (label : Nat) (command : Bench.TransmitCommand) :
    Alike (Replied (TransmitPump.Like (!command.settles && shaded))) (command.script p label)
      (command.script p' label) := by
  cases command with
  | write data => exact (h.write data).reply .number
  | interrupt event => exact (h.onInterrupt event).reply .status?
  | callback on =>
    obtain ⟨stream, rfl, hs⟩ := h.cases
    exact .done ⟨.same _, hs, rfl⟩
  | peek offset =>
    obtain ⟨stream, rfl, hs⟩ := h.cases
    exact alike_bind_self (uses_perform (.load ..) trivial) fun _ => .done ⟨.same _, h⟩
  | residue => exact h.stream.residue.bind fun _ _ hr => hr ▸ .done ⟨.same _, h⟩
  | info => exact .done ⟨.info (h.stream.mono fun _ => rfl), h⟩

theorem ReceivePump.Like.script {p p' : ReceivePump} {shaded : Bool} (h : p.Like shaded p')
    (label : Nat) (command : Bench.ReceiveCommand) :
    Alike (Replied (ReceivePump.Like (!command.settles && shaded))) (command.script p label)
      (command.script p' label) := by
  cases command with
  | start => exact h.start.reply .result
  | stop => exact h.stop.bind fun _ _ hp => .done ⟨.same _, hp⟩
  | idle => exact h.onIdle.reply .count
  | read buffer =>
    obtain ⟨stream, rfl, hs⟩ := h.cases
    exact .done ⟨.same _, hs, rfl⟩
  | interrupt event => exact (h.onInterrupt event).reply .status?
  | callback on =>
    obtain ⟨stream, rfl, hs⟩ := h.cases
    exact .done ⟨.same _, hs, rfl⟩
  | peek offset =>
    obtain ⟨stream, rfl, hs⟩ := h.cases
    exact .done ⟨.same _, h⟩
  | residue => exact h.stream.residue.bind fun _ _ hr => hr ▸ .done ⟨.same _, h⟩
  | info => exact .done ⟨.info (h.stream.mono fun _ => rfl), h⟩

namespace Driver

/-- Whether a command sets the state of a stream that holds its channel. A command to a driver of
another kind does nothing. -/
def settles : Driver → Command → Bool
  | stream _, .stream c => c.settles
  | transmit _, .transmit c => c.settles
  | receive _, .receive c => c.settles
  | _, _ => false

/-- Two drivers differ in the states of their streams, if at all. -/
inductive Like (shaded : Bool) : Driver → Driver → Prop
  | stream {s s' : Stream} (h : s.Like shaded s') : Like shaded (.stream s) (.stream s')
  | transmit {p p' : TransmitPump} (h : p.Like shaded p') :
      Like shaded (.transmit p) (.transmit p')
  | receive {p p' : ReceivePump} (h : p.Like shaded p') : Like shaded (.receive p) (.receive p')

variable {d d' : Driver} {shaded : Bool}

theorem Like.own (h : d.Like shaded d') : d.own.Like shaded d'.own := by
  cases h with
  | stream h => exact h
  | transmit h => exact h.stream
  | receive h => exact h.stream

/-- A driver on a stream that endures timeouts is like itself. -/
theorem like_self (h : d.own.Enduring) (shaded : Bool) : d.Like shaded d := by
  cases d with
  | stream s => exact .stream (Stream.Enduring.like h shaded)
  | transmit p => exact .transmit ⟨Stream.Enduring.like h shaded, rfl⟩
  | receive p => exact .receive ⟨Stream.Enduring.like h shaded, rfl⟩

theorem Like.script (h : d.Like shaded d') (label : Nat) (command : Command) :
    Alike (Replied (Like (!d.settles command && shaded))) (d.script label command)
      (d'.script label command) := by
  cases h with
  | stream h =>
    cases command with
    | stream c =>
      refine (h.script label c).bind ?_
      rintro ⟨reply, s⟩ ⟨reply', s'⟩ ⟨hreply, hs⟩
      exact .done ⟨hreply, .stream hs⟩
    | transmit c | receive c => exact .done ⟨.same _, .stream h⟩
  | transmit h =>
    cases command with
    | transmit c =>
      refine (h.script label c).bind ?_
      rintro ⟨reply, p⟩ ⟨reply', p'⟩ ⟨hreply, hp⟩
      exact .done ⟨hreply, .transmit hp⟩
    | stream c | receive c => exact .done ⟨.same _, .transmit h⟩
  | receive h =>
    cases command with
    | receive c =>
      refine (h.script label c).bind ?_
      rintro ⟨reply, p⟩ ⟨reply', p'⟩ ⟨hreply, hp⟩
      exact .done ⟨hreply, .receive hp⟩
    | stream c | transmit c => exact .done ⟨.same _, .receive h⟩

/-- A timeout of the channel is handed to the driver. -/
def timeout : Driver → DriverScript (Option Status × Driver)
  | stream s => do
    let (status, s) ← s.onInterrupt .timeout
    pure (status, .stream s)
  | transmit p => do
    let (status, p) ← p.onInterrupt .timeout
    pure (status, .transmit p)
  | receive p => do
    let (status, p) ← p.onInterrupt .timeout
    pure (status, .receive p)

/-- **An extra timeout** is nothing to the driver, but for the status that it reports. -/
theorem Like.timeout (h : d.Like shaded d') :
    Alike (fun d r => r.1 = (if d.own.bound then some .timeout else none) ∧ d.Like true r.2)
      (.done d) d'.timeout := by
  have hlate : d'.timeout.Uses (fun a => a.Idle ∨ a.Late) fun r =>
      r.1 = (if d.own.bound then some .timeout else none) ∧ d.Like true r.2 := by
    cases h with
    | stream h => exact h.late.bind fun _ hr => .done ⟨hr.1, .stream hr.2.2⟩
    | transmit h => exact h.late.bind fun _ hr => .done ⟨hr.1, .transmit hr.2⟩
    | receive h => exact h.late.bind fun _ hr => .done ⟨hr.1, .receive hr.2⟩
  exact alike_done_right hlate fun _ hr => hr

end Driver

/-! ## The pause of a timeout -/

/-- Whether a channel is paused. -/
def Machine.isPaused (m : Machine) : Hardware → Bool
  | .controller i => (m.controller i).paused
  | .window i => (m.window i).config &&& ConfigBit.pause != 0

/-- Driver code at whose end the channel goes on, whatever it was before. -/
def Resumes {α : Type} (x : DriverScript α) : Prop :=
  ∀ (hw : Hardware) (m : Machine), (m.exec hw x).2.isPaused hw = false

section Resumes

variable {α β : Type} {x : DriverScript α} {f : α → DriverScript β}

theorem resumes_resume : Resumes (perform .resume) := by
  intro hw m
  cases hw with
  | controller i =>
    show ((m.setController i (m.controller i).resume).controller i).paused = false
    by_cases hi : i < m.controllers.size
    · rw [Machine.controller_setController_self m hi]
      rfl
    · simp [Machine.controller, Machine.setController, Array.getD_eq_getD_getElem?, hi]
  | window i =>
    have hmask : ~~~ConfigBit.pause &&& ConfigBit.pause = 0 := by decide
    show (((m.setWindow i (m.window i).resume).window i).config &&& ConfigBit.pause != 0) = false
    by_cases hi : i < m.windows.size
    · rw [Machine.window_setWindow, if_pos ⟨rfl, hi⟩]
      show (((m.window i).config &&& ~~~ConfigBit.pause) &&& ConfigBit.pause != 0) = false
      rw [UInt32.and_assoc, hmask, UInt32.and_zero]
      rfl
    · simp [Machine.window, Machine.setWindow, Array.getD_eq_getD_getElem?, hi]

/-- Code that ends by letting the channel go on. -/
theorem resumes_bind (hf : ∀ a, Resumes (f a)) : Resumes (x >>= f) := by
  intro hw m
  show (m.exec hw (x.bind f)).2.isPaused hw = false
  rw [Machine.exec_bind]
  exact hf _ hw _

/-- Reports do not pause a channel again. -/
theorem Resumes.bind {Q : α → Prop} (hx : Resumes x) (hQ : x.Yields Q)
    (hf : ∀ a, Q a → (f a).Uses (fun a => ∃ r, a = .report r) fun _ => True) :
    Resumes (x >>= f) := by
  intro hw m
  have hreport (a : Access) (ha : ∃ r, a = .report r) (m : Machine) :
      (Machine.answer hw a m).2.isPaused hw = m.isPaused hw := by
    obtain ⟨r, rfl⟩ := ha
    cases hw <;> rfl
  have htrans {l m n : Machine} (h : m.isPaused hw = l.isPaused hw)
      (h' : n.isPaused hw = m.isPaused hw) : n.isPaused hw = l.isPaused hw := h'.trans h
  have hrest := (hf _ (hQ.run (Machine.answer hw) m)).run
    (S := fun m m' => m'.isPaused hw = m.isPaused hw) (fun _ => rfl) htrans hreport (m.exec hw x).2
  show (m.exec hw (x.bind f)).2.isPaused hw = false
  rw [Machine.exec_bind]
  exact hrest.2.trans (hx hw m)

theorem resumes_drainAndResume (s : Stream) : Resumes s.drainAndResume :=
  resumes_bind fun _ => resumes_bind fun _ => resumes_bind fun _ => resumes_resume

end Resumes

theorem Stream.Enduring.resumes_onInterrupt {s : Stream} (h : s.Enduring) (hb : s.bound = true) :
    Resumes (s.onInterrupt .timeout) := by
  unfold Stream.onInterrupt
  rw [if_neg (by simp [hb])]
  have hreact : Resumes (s.react .timeout) := by
    refine resumes_bind fun _ => ?_
    rw [h.policy]
    exact (resumes_drainAndResume s).bind (yields_any _) fun _ _ => .done trivial
  refine hreact.bind (yields_any _) fun s' _ => ?_
  exact (s'.uses_notify fun _ => ⟨_, rfl⟩).bind fun _ _ => .done trivial

/-- After a timeout the channel of a driver goes on. -/
theorem Driver.resumes_timeout {d : Driver} (h : d.own.Enduring) (hb : d.own.bound = true) :
    Resumes d.timeout := by
  have hresumes := h.resumes_onInterrupt hb
  have hvalue := h.late_onInterrupt.mono (fun _ _ => trivial) fun _ hr => hr
  rw [if_pos hb] at hvalue
  cases d with
  | stream s => exact hresumes.bind (yields_any _) fun _ _ => .done trivial
  | transmit p =>
    refine Resumes.bind (hresumes.bind hvalue ?_) (yields_any _) fun _ _ => .done trivial
    rintro _ rfl
    -- the channel is still held, so no transfer is over
    show Script.Uses _ _ (if p.stream.bound = true then _ else _)
    rw [if_pos (show p.stream.bound = true from hb)]
    exact .done trivial
  | receive p =>
    refine Resumes.bind (hresumes.bind hvalue ?_) (yields_any _) fun _ _ => .done trivial
    rintro _ rfl
    exact .done trivial

/-! ## Polls -/

/-- Counts the polls that somebody is asked to answer. -/
def tally {σ : Type} (handle : (a : Access) → σ → a.Answer × σ) (a : Access) (t : σ × Nat) :
    a.Answer × (σ × Nat) :=
  let (answer, s) := handle a t.1
  (answer, s, match a with
    | .isPending => t.2 + 1
    | _ => t.2)

section Polls

variable {σ : Type} (handle : (a : Access) → σ → a.Answer × σ)

theorem polls_awaitDrained (spins : Nat) (t : σ × Nat) :
    ((Stream.awaitDrained spins).run (tally handle) t).2.2 ≤ t.2 + (spins + 1) := by
  induction spins generalizing t with
  | zero => exact Nat.le_refl _
  | succ spins ih =>
    have hpoll : (Stream.awaitDrained (spins + 1)).run (tally handle) t =
        (if (handle .isPending t.1).1 then Stream.awaitDrained spins else pure true).run
          (tally handle) ((handle .isPending t.1).2, t.2 + 1) := rfl
    rw [hpoll]
    split
    · have hrest := ih ((handle .isPending t.1).2, t.2 + 1)
      have hcount : t.2 + 1 + (spins + 1) = t.2 + (spins + 1 + 1) := by omega
      exact hcount ▸ hrest
    · exact Nat.add_le_add_left (Nat.le_add_left 1 _) t.2

/-- Code that does not poll adds nothing to the count. -/
theorem polls_plain {α : Type} {Q : α → Prop} {x : DriverScript α} (h : x.Uses Access.Plain Q)
    (t : σ × Nat) : (x.run (tally handle) t).2.2 = t.2 := by
  have htrans {t u v : σ × Nat} (h : u.2 = t.2) (h' : v.2 = u.2) : v.2 = t.2 := h'.trans h
  have hstep (a : Access) (ha : a.Plain) (t : σ × Nat) : (tally handle a t).2.2 = t.2 := by
    cases a with
    | isPending => exact ha.elim
    | _ => rfl
  exact (h.run (S := fun t t' => t'.2 = t.2) (fun _ => rfl) htrans hstep t).2

/-- Whoever answers the polls, patience runs out. -/
theorem polls_drainAndResume (s : Stream) (t : σ) :
    (s.drainAndResume.run (tally handle) (t, 0)).2.2 ≤ drainSpinLimit + 1 := by
  have hawait := polls_awaitDrained handle drainSpinLimit ((handle .pause t).2, 0)
  rw [Nat.zero_add] at hawait
  refine Nat.le_trans (Nat.le_of_eq ?_) hawait
  show (Script.run (tally handle) ((Stream.awaitDrained drainSpinLimit).bind _) _).2.2 = _
  rw [Script.run_bind]
  refine polls_plain handle (Q := fun _ => True) ?_ _
  exact .bind (.when _ (uses_perform (.log _) trivial)) fun _ _ => uses_perform .resume trivial

end Polls

/-! ## Two runs side by side -/

/-- One thing that can happen to a driver and its machine. Events are commands, whoever raised
them. -/
inductive Happening where
  | command (label : Nat) (command : Driver.Command)
  /-- A controller moves, or somebody tampers with it. -/
  | controller (index : Nat) (command : Bench.ControllerCommand)
  /-- A register of a channel is written from outside. -/
  | write (index : Nat) (register : Register) (value : UInt32)
  /-- The interrupts of a channel are read and acknowledged. -/
  | acknowledge (index : Nat)
  | poke (address : Nat) (data : List UInt8)
  /-- Others claim channels and give them back. -/
  | contend (ownership : Ownership)
  /-- A stream that does not hold its channel is moved to other descriptors. -/
  | relocate

/-- Like machines have room for a stream at the same place. -/
theorem Machine.Like.relocate {m m' : Machine} (h : m.Like m') (s : Stream) :
    (m'.relocate s).1 = (m.relocate s).1 ∧ (m.relocate s).2.Like (m'.relocate s).2 := by
  unfold Machine.relocate
  rw [h.table]
  exact ⟨rfl, { h with table := rfl }⟩

theorem Stream.Enduring.relocate {s : Stream} (h : s.Enduring) {m : Machine} :
    (m.relocate s).1.Enduring :=
  ⟨h.policy, h.held⟩

theorem Bench.ControllerCommand.like {m m' : Machine} (h : m.Like m') (index : Nat)
    (command : Bench.ControllerCommand) :
    (command.apply m' index).1 = (command.apply m index).1 ∧
      (command.apply m index).2.Like (command.apply m' index).2 := by
  obtain ⟨x, hx⟩ := h.controllers index
  cases command with
  | moveElements count => exact ⟨rfl, h.moveElements index count⟩
  | finish =>
    obtain ⟨hevent, hafter⟩ := h.finish index
    exact ⟨congrArg Bench.Reply.event? hevent, hafter⟩
  | run patience =>
    obtain ⟨hevent, hafter⟩ := h.runWithin index patience
    exact ⟨congrArg Bench.Reply.event? hevent, hafter⟩
  | pendingPolls count =>
    exact ⟨rfl, h.setController index ⟨{ x with pendingPolls := count }, by rw [hx]; rfl⟩⟩
  | unstable on => exact ⟨rfl, h.setController index ⟨x, by rw [hx]; rfl⟩⟩
  | race blocks => exact ⟨rfl, h.setController index ⟨x, by rw [hx]; rfl⟩⟩
  | countOverride value => exact ⟨rfl, h.setController index ⟨x, by rw [hx]; rfl⟩⟩

/-- A driver on its machine. -/
structure Stage where
  machine : Machine
  driver : Driver

namespace Stage

def hardware (st : Stage) : Hardware :=
  st.driver.own.channel.hardware

/-- What happens, and what is replied. -/
def hear (st : Stage) : Happening → Bench.Reply × Stage
  | .command label command =>
    let ((reply, driver), machine) :=
      st.machine.exec st.hardware (st.driver.script label command)
    (reply, { machine, driver })
  | .controller index command =>
    let (reply, machine) := command.apply st.machine index
    (reply, { st with machine })
  | .write index register value =>
    let window := (st.machine.window index).change register (.write value)
    (.done, { st with machine := st.machine.setWindow index window })
  | .acknowledge index =>
    let (flags, window) := (st.machine.window index).takeFlags
    (.event? flags.event, { st with machine := st.machine.setWindow index window })
  | .poke address data =>
    (.done, { st with
      machine := { st.machine with memory := st.machine.memory.writeList address data } })
  | .contend ownership => (.done, { st with machine := { st.machine with ownership } })
  | .relocate =>
    match st.driver with
    | .stream s =>
      if s.bound then (.done, st)
      else
        let (s, machine) := st.machine.relocate s
        (.done, { machine, driver := .stream s })
    | _ => (.done, st)

/-- So many polls of the driver's controller will find data in the FIFO. -/
def fillFifo (st : Stage) (polls : Nat) : Stage :=
  match st.hardware with
  | .controller i =>
    { st with
      machine := st.machine.setController i
        { st.machine.controller i with pendingPolls := polls } }
  | .window _ => st

/-- A timeout comes while so many polls will find data in the FIFO. -/
def timeout (st : Stage) (polls : Nat) : Option Status × Stage :=
  let st := st.fillFifo polls
  let ((status, driver), machine) := st.machine.exec st.hardware st.driver.timeout
  (status, { machine, driver })

/-- Whether something sets the state of a driver that holds its channel. -/
def settledBy (st : Stage) : Happening → Bool
  | .command _ command => st.driver.settles command
  | _ => false

/-- Two stages differ in the states of streams and in pauses, if at all. -/
structure Like (shaded : Bool) (st st' : Stage) : Prop where
  machine : st.machine.Like st'.machine
  driver : st.driver.Like shaded st'.driver

variable {st st' : Stage} {shaded : Bool}

theorem Like.hardware (h : st.Like shaded st') : st'.hardware = st.hardware := by
  show st'.driver.own.channel.hardware = st.driver.own.channel.hardware
  rw [h.driver.own.rest]

/-- Like streams that do not hold their channels move to the same place. -/
theorem Like.relocate (h : st.Like shaded st') :
    (st.hear .relocate).1.Like (st'.hear .relocate).1 ∧
      (st.hear .relocate).2.Like shaded (st'.hear .relocate).2 := by
  rcases st with ⟨m, d⟩
  rcases st' with ⟨m', d'⟩
  obtain ⟨hm, hd⟩ := h
  cases hd with
  | @stream s s' hs =>
    by_cases hb : s.bound = true
    · have hb' : s'.bound = true := by rw [hs.rest]; exact hb
      have hstay (m : Machine) {s : Stream} (hb : s.bound = true) :
          (Stage.mk m (.stream s)).hear .relocate = (.done, ⟨m, .stream s⟩) := if_pos hb
      rw [hstay m hb, hstay m' hb']
      exact ⟨.same _, hm, .stream hs⟩
    · have hgo (m : Machine) : (Stage.mk m (.stream s)).hear .relocate =
          (.done, ⟨(m.relocate s).2, .stream (m.relocate s).1⟩) := if_neg hb
      obtain ⟨hstream, hmachine⟩ := hm.relocate s
      rw [hs.eq_of_unbound (Bool.eq_false_iff.mpr hb), hgo m, hgo m', hstream]
      exact ⟨.same _, hmachine, .stream (Stream.Enduring.like hs.enduring.relocate shaded)⟩
  | transmit hp => exact ⟨.same _, hm, .transmit hp⟩
  | receive hp => exact ⟨.same _, hm, .receive hp⟩

/-- What happens to like stages leaves them like. -/
theorem Like.hear (h : st.Like shaded st') (x : Happening) :
    (st.hear x).1.Like (st'.hear x).1 ∧
      (st.hear x).2.Like (!st.settledBy x && shaded) (st'.hear x).2 := by
  cases x with
  | command label command =>
    obtain ⟨⟨hreply, hdriver⟩, hmachine⟩ :=
      (h.driver.script label command).exec h.machine st.hardware
    unfold Stage.hear
    rw [h.hardware]
    exact ⟨hreply, hmachine, hdriver⟩
  | controller index command =>
    obtain ⟨hreply, hmachine⟩ := command.like h.machine index
    exact ⟨hreply ▸ .same _, hmachine, h.driver⟩
  | write index register value =>
    have hwindow := (h.machine.windows index).write register value
    exact ⟨.same _, h.machine.setWindow index hwindow, h.driver⟩
  | acknowledge index =>
    obtain ⟨hflags, hwindow⟩ := (h.machine.windows index).takeFlags
    refine ⟨?_, h.machine.setWindow index hwindow, h.driver⟩
    show Bench.Reply.Like (.event? (st.machine.window index).takeFlags.1.event)
      (.event? (st'.machine.window index).takeFlags.1.event)
    rw [hflags]
    exact .same _
  | poke address data =>
    have hmemory := congrArg (·.writeList address data) h.machine.memory
    exact ⟨.same _, { h.machine with memory := hmemory }, h.driver⟩
  | contend ownership => exact ⟨.same _, { h.machine with ownership := rfl }, h.driver⟩
  | relocate => exact h.relocate

theorem Like.fillFifo (h : st.Like shaded st') (polls : Nat) :
    st.Like shaded (st'.fillFifo polls) := by
  unfold Stage.fillFifo
  split
  · next i _ =>
    have hpolls : (st'.machine.controller i).Like
        { st'.machine.controller i with pendingPolls := polls } :=
      ⟨{ (st'.machine.controller i).pausing with pendingPolls := polls }, rfl⟩
    exact ⟨h.machine.setController_right hpolls, h.driver⟩
  · exact h

/-- A timeout at the second of two like stages leaves them like. -/
theorem Like.timeout (h : st.Like shaded st') (polls : Nat) :
    (st'.timeout polls).1 = (if st.driver.own.bound then some .timeout else none) ∧
      st.Like true (st'.timeout polls).2 := by
  have hfilled := h.fillFifo polls
  obtain ⟨⟨hstatus, hdriver⟩, hmachine⟩ :=
    hfilled.driver.timeout.exec hfilled.machine (st'.fillFifo polls).hardware
  exact ⟨hstatus, hmachine, hdriver⟩

end Stage

/-- Something that both runs have, or a timeout that only the second one has. -/
inductive Moment where
  | common (x : Happening)
  /-- So many polls will find data in the FIFO. -/
  | extra (polls : Nat)

/-- Two runs side by side. -/
structure Twin where
  plain : Stage
  timed : Stage
  /-- Whether the second had a timeout since the state of its stream was last set. -/
  shaded : Bool := false

namespace Twin

def step (t : Twin) : Moment → Twin
  | .common x =>
    { plain := (t.plain.hear x).2
      timed := (t.timed.hear x).2
      shaded := !t.plain.settledBy x && t.shaded }
  | .extra polls => { t with timed := (t.timed.timeout polls).2, shaded := true }

def run (t : Twin) (moments : List Moment) : Twin :=
  moments.foldl step t

/-- The second run is the first with timeouts that leave no trace but their own. -/
structure Transparent (t : Twin) : Prop where
  /-- Memory, descriptors, owners and the positions of controllers are the same. -/
  machine : t.plain.machine.Like t.timed.machine
  /-- Pools, queues and books are the same; a state differs only while the second run is shaded. -/
  driver : t.plain.driver.Like t.shaded t.timed.driver
  /-- Whatever comes next is replied to in the same way. -/
  reply : ∀ x, (t.plain.hear x).1.Like (t.timed.hear x).1
  /-- A timeout reports itself, if the channel is held, -/
  status : ∀ polls, (t.timed.timeout polls).1 =
    if t.plain.driver.own.bound then some .timeout else none
  /-- and lets the channel go on, -/
  resumed : t.plain.driver.own.bound = true → ∀ polls,
    (t.timed.timeout polls).2.machine.isPaused t.timed.hardware = false
  /-- after so many polls at most, whoever answers them. -/
  polls : ∀ {σ : Type} (handle : (a : Access) → σ → a.Answer × σ) (s : σ),
    (t.timed.driver.own.drainAndResume.run (tally handle) (s, 0)).2.2 ≤ drainSpinLimit + 1

theorem transparent_of_like {t : Twin} (h : t.plain.Like t.shaded t.timed) : t.Transparent where
  machine := h.machine
  driver := h.driver
  reply x := (h.hear x).1
  status polls := (h.timeout polls).1
  resumed hb polls := by
    have hbound : t.timed.driver.own.bound = true := by
      rw [h.driver.own.rest]
      exact hb
    have hresumes := Driver.resumes_timeout h.driver.own.enduring_right hbound
    unfold Stage.timeout Stage.fillFifo
    split
    · exact hresumes t.timed.hardware _
    · exact hresumes t.timed.hardware _
  polls handle s := polls_drainAndResume handle _ s

theorem like_run {t : Twin} (h : t.plain.Like t.shaded t.timed) (moments : List Moment) :
    (t.run moments).plain.Like (t.run moments).shaded (t.run moments).timed := by
  induction moments generalizing t with
  | nil => exact h
  | cons moment moments ih =>
    refine ih ?_
    cases moment with
    | common x => exact (h.hear x).2
    | extra polls => exact (h.timeout polls).2

/-- **Recovery from timeouts is transparent.** A stream or pump is made that lets its channel go on
after a timeout, and anything happens to it and to its machine in any order. The same happens once
more, with timeouts in between wherever one likes, each finding data in the FIFO as often as one
likes. At every point the two runs differ in nothing but pauses, the traces of the timeouts, and a
state that shows a timeout until it is next set. -/
theorem transparent_run {d : Driver} (hmade : d.Made)
    (hpolicy : d.own.config.timeoutPolicy = .restart) (m : Machine) (moments : List Moment) :
    (run { plain := ⟨m, d⟩, timed := ⟨m, d⟩ } moments).Transparent := by
  have hend : d.own.Enduring :=
    ⟨hpolicy, fun hb => (hmade.coherent.own.bound hb).imp_right And.left⟩
  exact transparent_of_like (like_run ⟨.refl m, Driver.like_self hend false⟩ moments)

/-- A transfer of three bytes is timed out twice, and the second byte moves in between. -/
theorem transparent_run_transmit :
    ∃ p, (Machine.createTransmitPump { controllers := #[{}] } ⟨3, .controller 0⟩ 0 4).1 = .ok p ∧
      let st : Stage :=
        { machine :=
            (Machine.createTransmitPump { controllers := #[{}] } ⟨3, .controller 0⟩ 0 4).2
          driver := .transmit p }
      let t := run { plain := st, timed := st }
        [.common (.command 0 (.transmit (.write [1, 2, 3]))), .extra 2,
          .common (.controller 0 (.moveElements 2)), .extra 0]
      t.Transparent ∧ t.plain.driver.own.state = .busy ∧ t.timed.driver.own.state = .timeout := by
  obtain ⟨p, hmade⟩ : ∃ p,
      (Machine.createTransmitPump { controllers := #[{}] } ⟨3, .controller 0⟩ 0 4).1 = .ok p :=
    ⟨_, rfl⟩
  have hring : p.ring.Valid := by
    obtain rfl := Except.ok.inj hmade
    exact Ring.valid_empty (by decide)
  have hpolicy : p.stream.config.timeoutPolicy = .restart := by
    obtain rfl := Except.ok.inj hmade
    rfl
  refine ⟨p, hmade, transparent_run (.transmit hmade hring) hpolicy _ _, ?_⟩
  obtain rfl := Except.ok.inj hmade
  exact ⟨by decide +kernel, by decide +kernel⟩

end Twin

end ScatterGather
