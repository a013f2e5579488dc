import ScatterGather.Proofs.Custody
import ScatterGather.Proofs.Tending

/-!
# ScatterGather.Proofs.LivePush — queueing a block in front of a walking controller

`Pool.push` is six writes, and the controller that the block is meant for may be anywhere in the
queue while they are made. A `Walk` is a controller on its way together with a record of everything
that it found: every descriptor that it read, as it was at that moment. Finishing a block and
following its link are two strides, so a link may be taken before a write and followed after it.
`Walk.pushAmid` makes the writes of a push at a *pace*, a list of the strides that come right before
each of them.

Up to the last write no link leads out of the blocks that were queued before (`Walk.Within`), and
what is written lies outside of them. The last write widens the set by the new block, which is
complete by then. Hence `Walk.pushAmid_appended`: whatever the controller finds is a queued
descriptor or the finished new one (`Pool.Complete`), and the chain is live again at the end.
-/

namespace ScatterGather

/-! ## A controller on its way -/

/-- One thing that a controller does on its way along a chain. -/
inductive Stride where
  | move (count : Nat)
  /-- The block being executed is finished, and its link is taken. -/
  | complete
  /-- The descriptor that the link names is fetched. -/
  | fetch
  deriving DecidableEq

/-- A controller on its way along a chain. -/
structure Walk where
  machine : Machine
  index : Nat
  /-- The link of a finished block that was not followed yet. -/
  link : Option Nat := none
  /-- Every descriptor that the controller read, by its address and as it was then, latest last. -/
  found : List (Nat × Descriptor) := []

namespace Walk

def controller (w : Walk) : Controller :=
  w.machine.controller w.index

/-- What the controller finds at an address. Nothing is read at address zero. -/
def look (w : Walk) (a : Nat) : List (Nat × Descriptor) :=
  if a = 0 then [] else [(a, w.machine.table.read a)]

/-- What a stride does. Between finishing a block and fetching the next there is nothing to move and
nothing to finish. -/
def step (w : Walk) (s : Stride) : Walk :=
  match s, w.link with
  | .move count, none =>
    { w with
      machine := w.machine.moveElements w.index count
      found := w.found ++ w.look w.controller.current }
  | .complete, none =>
    if w.controller.current = 0 then w
    else
      { w with
        machine := w.machine.moveElements w.index w.controller.remaining
        link := some (w.machine.table.read w.controller.current).next
        found := w.found ++ w.look w.controller.current }
  | .fetch, some a =>
    { w with
      machine := w.machine.setController w.index (w.controller.load w.machine.table a)
      link := none
      found := w.found ++ w.look a }
  | _, _ => w

/-- What strides do, one after another. -/
def run (w : Walk) (strides : List Stride) : Walk :=
  strides.foldl step w

/-- Makes one access of a driver, after all strides that the pace names for it. -/
def answerAmid (a : Access) (p : Walk × List (List Stride)) :
    a.Answer × (Walk × List (List Stride)) :=
  let w := p.1.run (p.2.headD [])
  let (answer, machine) := Machine.answer (.controller w.index) a w.machine
  (answer, { w with machine }, p.2.tail)

/-- A block is queued write by write while the controller goes on, and after it. -/
def pushAmid (w : Walk) (p : Pool) (source destination : Nat) (control : UInt32) (closeLoop : Bool)
    (pace : List (List Stride)) (afterwards : List Stride) : Option Pool × Walk :=
  let (pushed, w, _) := (p.push source destination control closeLoop).run answerAmid (w, pace)
  (pushed, w.run afterwards)

variable {w : Walk} {C : Nat → Prop} {Good : Nat → Descriptor → Prop}

/-- Finishing a block and fetching the next are what a controller does in one go elsewhere. -/
theorem machine_complete_fetch (h : w.link = none) :
    ((w.step .complete).step .fetch).machine = (w.machine.finish w.index).2 := by
  rcases w with ⟨m, index, link, found⟩
  cases h
  by_cases hc : (m.controller index).current = 0
  · have hstay : (Walk.mk m index none found).step .complete = ⟨m, index, none, found⟩ := if_pos hc
    rw [hstay]
    show m = (m.finish index).2
    rw [Machine.finish_stopped hc]
  · have hindex : index < m.controllers.size := by
      rcases Nat.lt_or_ge index m.controllers.size with hlt | hge
      · exact hlt
      · exact absurd (by simp [Machine.controller, Array.getD_eq_getD_getElem?, hge]) hc
    have hgo : (Walk.mk m index none found).step .complete =
        ⟨m.moveElements index (m.controller index).remaining, index,
          some (m.table.read (m.controller index).current).next,
          found ++ look ⟨m, index, none, found⟩ (m.controller index).current⟩ := if_neg hc
    rw [hgo]
    show (m.moveElements index _).setController index
      (((m.moveElements index _).controller index).load m.table _) = (m.finish index).2
    unfold Machine.finish Machine.moveElements
    rw [Controller.finish_running _ _ hc]
    generalize (m.controller index).moveElements m.table m.memory
      (m.controller index).remaining = moved
    have hself : (({ m with memory := moved.2 } : Machine).setController index moved.1).controller
        index = moved.1 := Machine.controller_setController_self _ hindex _
    rw [hself]
    simp [Machine.setController]

/-! ## Walking inside a closed set of descriptors -/

/-- No link leads out of a set of descriptors, the controller is inside, and all that is found
inside, now and before, is as it should be. -/
structure Within (w : Walk) (C : Nat → Prop) (Good : Nat → Descriptor → Prop) : Prop where
  closed : w.machine.table.Closed C
  good : ∀ a, C a → Good a (w.machine.table.read a)
  current : w.controller.current = 0 ∨ C w.controller.current
  link : ∀ a ∈ w.link, a = 0 ∨ C a
  found : ∀ x ∈ w.found, Good x.1 x.2

/-- A look at a descriptor inside finds nothing bad. -/
theorem Within.found_look (h : w.Within C Good) {a : Nat} (ha : a = 0 ∨ C a) :
    ∀ x ∈ w.found ++ w.look a, Good x.1 x.2 := by
  intro x hx
  rcases List.mem_append.mp hx with hold | hnew
  · exact h.found x hold
  · unfold look at hnew
    split at hnew
    · cases hnew
    · next hne =>
      obtain rfl := List.mem_singleton.mp hnew
      exact h.good a (ha.resolve_left hne)

theorem Within.current_moveElements (h : w.Within C Good) (count : Nat) :
    ((w.machine.moveElements w.index count).controller w.index).current = 0 ∨
      C ((w.machine.moveElements w.index count).controller w.index).current :=
  (Machine.drift_moveElements w.machine w.index count).led.inside C h.closed h.current

/-- A stride stays inside. -/
theorem Within.step (h : w.Within C Good) (s : Stride) : (w.step s).Within C Good := by
  unfold Walk.step
  split
  · next count _ =>
    exact ⟨h.closed, h.good, h.current_moveElements count, h.link, h.found_look h.current⟩
  · split
    · exact h
    · next hne =>
      refine ⟨h.closed, h.good, h.current_moveElements _, ?_, h.found_look h.current⟩
      rintro a ⟨⟩
      exact h.closed _ (h.current.resolve_left hne)
  · next a hlink =>
    have ha := h.link a hlink
    refine ⟨h.closed, h.good, ?_, fun _ hnone => (nomatch hnone), h.found_look ha⟩
    rcases w.machine.current_setController w.index (w.controller.load w.machine.table a) with
      hload | hzero
    · exact hload ▸ ha
    · exact .inl hzero
  · exact h

theorem table_step (s : Stride) : (w.step s).machine.table = w.machine.table := by
  unfold Walk.step
  split
  · rfl
  · split <;> rfl
  · rfl
  · rfl

theorem Within.run (h : w.Within C Good) (strides : List Stride) :
    (w.run strides).Within C Good := by
  induction strides generalizing w with
  | nil => exact h
  | cons s strides ih => exact ih (h.step s)

theorem table_run (strides : List Stride) : (w.run strides).machine.table = w.machine.table := by
  induction strides generalizing w with
  | nil => rfl
  | cons s strides ih => exact (ih (w := w.step s)).trans (table_step s)

/-- Descriptors change, and those inside a set that is now closed are as they should be. -/
theorem Within.rewrite (h : w.Within C Good) {t : DescriptorTable} {C' : Nat → Prop}
    (hC : ∀ a, C a → C' a) (hclosed : t.Closed C') (hgood : ∀ a, C' a → Good a (t.read a)) :
    { w with machine := { w.machine with table := t } }.Within C' Good where
  closed := hclosed
  good := hgood
  current := h.current.imp_right (hC _)
  link a ha := (h.link a ha).imp_right (hC _)
  found := h.found

/-- A write outside of the set disturbs nothing inside. -/
theorem Within.write (h : w.Within C Good) {a : Nat} (ha : ¬C a) (d : Descriptor.Write) :
    { w with machine := { w.machine with table := w.machine.table.write a d } }.Within C Good := by
  have hread (b : Nat) (hb : C b) : (w.machine.table.write a d).read b = w.machine.table.read b :=
    DescriptorTable.read_write_of_ne _ (fun heq : a = b => ha (heq ▸ hb)) d
  refine h.rewrite (fun _ hb => hb) (h.closed.congr fun b hb => by rw [hread b hb]) ?_
  intro b hb
  rw [hread b hb]
  exact h.good b hb

/-! ## Driver code at a pace -/

section Pace

variable {α : Type} {x : DriverScript α}

/-- Code that writes only outside of the set leaves the controller inside, whatever the pace. -/
theorem Within.run_amid {Q : α → Prop}
    (hx : x.Uses (fun a => ∃ address d, a = .store address d ∧ ¬C address) Q)
    (h : w.Within C Good) (pace : List (List Stride)) :
    (x.run answerAmid (w, pace)).2.1.Within C Good := by
  -- on the accesses of the code, each with the strides in front of it
  induction hx generalizing w pace with
  | done => exact h
  | @ask a next hstore _ ih =>
    obtain ⟨address, d, rfl, hout⟩ := hstore
    exact ih () ((h.run (pace.headD [])).write hout d) pace.tail

/-- Strides between its accesses make no difference to code that touches descriptors only. -/
theorem run_amid_tabular {Q : α → Prop} (hx : x.Uses Access.Tabular Q) (w : Walk) (hw : Hardware)
    (pace : List (List Stride)) {m : Machine} (hm : m.table = w.machine.table) :
    (x.run answerAmid (w, pace)).1 = (m.exec hw x).1 ∧
      (x.run answerAmid (w, pace)).2.1.machine.table = (m.exec hw x).2.table := by
  induction hx generalizing w pace m with
  | done => exact ⟨rfl, hm.symm⟩
  | @ask a next h _ ih =>
    have htable := (table_run (w := w) (pace.headD [])).trans hm.symm
    have hanswer : (answerAmid a (w, pace)).1 = (Machine.answer hw a m).1 ∧
        (Machine.answer hw a m).2.table = (answerAmid a (w, pace)).2.1.machine.table := by
      cases a with
      | fetch address =>
        show (w.run (pace.headD [])).machine.table.read address = m.table.read address ∧ m.table = _
        rw [htable]
        exact ⟨rfl, htable.symm⟩
      | store address d =>
        show () = () ∧ m.table.write address d =
          (w.run (pace.headD [])).machine.table.write address d
        rw [htable]
        exact ⟨rfl, rfl⟩
      | _ => exact h.elim
    rw [Script.run_ask, hanswer.1]
    exact ih _ _ _ hanswer.2

end Pace

end Walk

/-! ## Live chains -/

namespace Pool

/-- A chain in front of its controller: it is linked in queue order, and whatever is executed is
queued. -/
structure Live (p : Pool) (t : DescriptorTable) (closeLoop : Bool) (current : Nat) : Prop where
  sits : p.Sits t
  linked : p.Linked t closeLoop
  executing : current = 0 ∨ p.Holds current

/-- What a controller may find while a descriptor is queued behind those of a table: a queued
descriptor as it was, the last of them with its link to the new one, and the new one itself. -/
inductive Programmed (p : Pool) (t : DescriptorTable) (new : Descriptor) : Nat → Descriptor → Prop
  | queued {a : Nat} (h : p.Holds a) : Programmed p t new a (t.read a)
  | last (h : p.queued ≠ 0) : Programmed p t new (p.addressAt (p.queued - 1))
      { t.read (p.addressAt (p.queued - 1)) with next := p.addressAt p.queued }
  | new : Programmed p t new (p.addressAt p.queued) new

/-- What queueing a descriptor comes to, for the pool and for the controller. -/
structure Appended (p : Pool) (t : DescriptorTable) (closeLoop : Bool) (new : Descriptor)
    (pushed : Option Pool) (w : Walk) : Prop where
  /-- All that the controller ever found was completely programmed, and queued or just pushed. -/
  found : ∀ x ∈ w.found, p.Programmed t new x.1 x.2
  /-- A full pool is left as it is. -/
  refused : p.isFull = true → pushed = none ∧ w.machine.table = t
  /-- Otherwise the new descriptor is behind the others. -/
  taken : p.isFull = false → pushed = some { p with queued := p.queued + 1 } ∧
    w.machine.table.read (p.addressAt p.queued) = new
  /-- The queue is linked in order, and the controller is in it. -/
  live : (pushed.getD p).Live w.machine.table closeLoop w.controller.current

variable {p : Pool} {m : Machine} {index : Nat} {closeLoop : Bool}

/-- A controller on a live chain finds what is queued. -/
theorem Live.within (h : p.Live m.table closeLoop (m.controller index).current)
    (new : Descriptor) :
    ({ machine := m, index } : Walk).Within p.Holds (p.Programmed m.table new) where
  closed _ ha := h.linked.next_queued ha
  good _ ha := .queued ha
  current := h.executing
  link _ hnone := nomatch hnone
  found _ hnone := nomatch hnone

section Push

variable (p : Pool) (source destination : Nat) (control : UInt32) (closeLoop : Bool)

/-- The writes of a push that go to the new descriptor. -/
def fill : DriverScript Unit := do
  let entry := p.addressOf p.tail
  perform (.store entry (.source source))
  perform (.store entry (.destination destination))
  perform (.store entry (.control control))
  perform (.store entry (.next 0))
  Script.when closeLoop (perform (.store entry (.next (p.addressAt 0))))

/-- The write of a push that makes the new descriptor known. -/
def publish : DriverScript Unit :=
  Script.when (p.queued ≠ 0)
    (perform (.store (p.addressAt (p.queued - 1)) (.next (p.addressOf p.tail))))

theorem push_of_room (hroom : p.isFull = false) :
    p.push source destination control closeLoop =
      (p.fill source destination control closeLoop).bind fun _ =>
        p.publish.bind fun _ => .done (some { p with queued := p.queued + 1 }) := by
  unfold push
  rw [if_neg (Bool.eq_false_iff.mp hroom)]
  cases closeLoop <;> rfl

theorem exec_fill (m : Machine) (hw : Hardware) :
    m.exec hw (p.fill source destination control closeLoop) = ((), { m with
      table := m.table.writeAll (p.addressAt p.queued)
        (p.entryWrites source destination control closeLoop) }) := by
  cases closeLoop <;> rfl

/-- All these writes go to one descriptor. -/
theorem uses_fill {P : Access → Prop} (hP : ∀ d, P (.store (p.addressAt p.queued) d)) :
    (p.fill source destination control closeLoop).Uses P fun _ => True := by
  iterate 4 refine .bind (uses_perform (.store ..) (hP _)) fun _ _ => ?_
  exact .when _ (uses_perform (.store ..) (hP _))

end Push

/-- After the last write all that is queued is completely programmed. -/
theorem Sits.programmed (h : p.Sits m.table) (hroom : p.queued < p.capacity)
    (source destination : Nat) (control : UInt32) {a : Nat}
    (ha : Holds { p with queued := p.queued + 1 } a) :
    p.Programmed m.table (entry source destination control closeLoop p) a
      ((p.pushed m.table source destination control closeLoop).read a) := by
  obtain ⟨offset, ho, rfl⟩ := ha
  have ho' : offset < p.queued + 1 := ho
  show p.Programmed _ _ (p.addressAt offset) _
  rw [h.read_pushed source destination control closeLoop hroom]
  split
  · next hnew => exact hnew ▸ .new
  · next hne =>
    split
    · next hlast => exact hlast.2 ▸ .last hlast.1
    · refine .queued ⟨offset, ?_, rfl⟩
      have : offset ≠ p.queued := fun heq => hne (heq ▸ rfl)
      omega

end Pool

namespace Walk

/-- The last write may let the controller out to descriptors that are as they should be by then. -/
theorem Within.publish {w : Walk} {pace : List (List Stride)} {p : Pool} {t : DescriptorTable}
    {C : Nat → Prop} {Good : Nat → Descriptor → Prop} (h : w.Within p.Holds Good)
    (ht : (p.publish.run answerAmid (w, pace)).2.1.machine.table = t)
    (hC : ∀ a, p.Holds a → C a) (hclosed : t.Closed C) (hgood : ∀ a, C a → Good a (t.read a)) :
    (p.publish.run answerAmid (w, pace)).2.1.Within C Good := by
  subst ht
  by_cases hq : p.queued = 0
  · have hnone : p.publish = .done () := if_neg (by simp [hq])
    rw [hnone] at hclosed hgood ⊢
    exact h.rewrite hC hclosed hgood
  · have hone : p.publish =
        perform (.store (p.addressAt (p.queued - 1)) (.next (p.addressOf p.tail))) :=
      if_pos (by simp [hq])
    rw [hone] at hclosed hgood ⊢
    exact (h.run (pace.headD [])).rewrite hC hclosed hgood

section Push

variable {m : Machine} {index : Nat} {p : Pool} {closeLoop : Bool}

/-- Strides between the writes make no difference to what they come to. -/
theorem run_amid_push (m : Machine) (index : Nat) (hroom : p.isFull = false)
    (source destination : Nat) (control : UInt32) (closeLoop : Bool) (pace : List (List Stride)) :
    ((p.push source destination control closeLoop).run answerAmid
        ({ machine := m, index }, pace)).1 = some { p with queued := p.queued + 1 } ∧
      ((p.push source destination control closeLoop).run answerAmid
        ({ machine := m, index }, pace)).2.1.machine.table =
          p.pushed m.table source destination control closeLoop := by
  have hrun := run_amid_tabular (tabular_push p source destination control closeLoop)
    { machine := m, index } (.controller index) pace (m := m) rfl
  rwa [Machine.exec_push, if_neg (Bool.eq_false_iff.mp hroom)] at hrun

/-- Whatever the pace of a push, the controller stays in the queue. -/
theorem within_push (h : p.Live m.table closeLoop (m.controller index).current)
    (hroom : p.isFull = false) (source destination : Nat) (control : UInt32)
    (pace : List (List Stride)) :
    ((p.push source destination control closeLoop).run answerAmid
        ({ machine := m, index }, pace)).2.1.Within (Pool.Holds { p with queued := p.queued + 1 })
      (p.Programmed m.table (Pool.entry source destination control closeLoop p)) := by
  have hlt := h.sits.room hroom
  obtain ⟨-, htable⟩ :=
    run_amid_push m index hroom source destination control closeLoop pace
  -- while the new descriptor is filled nothing leads to it
  have htail : ¬p.Holds (p.addressAt p.queued) := by
    rintro ⟨offset, ho, heq⟩
    have := Pool.addressAt_inj h.sits.head_lt hlt (by omega) heq
    omega
  have hfill := (h.within (Pool.entry source destination control closeLoop p)).run_amid
    (p.uses_fill source destination control closeLoop fun d => ⟨_, d, rfl, htail⟩) pace
  rw [p.push_of_room source destination control closeLoop hroom, Script.run_bind,
    Script.run_bind] at htable ⊢
  have hlinked := h.linked.push source destination control closeLoop h.sits hlt
  exact hfill.publish htable (fun a ⟨offset, ho, heq⟩ => ⟨offset, Nat.lt_succ_of_lt ho, heq⟩)
    (fun a ha => hlinked.next_queued ha)
    (fun a ha => h.sits.programmed hlt source destination control ha)

/-- **A live chain is in order at every single write.** A block is queued on a chain, one-shot or
closed, while its controller moves elements, finishes blocks and follows links in front of every
write and after the last. All descriptors that the controller finds are completely programmed, and
queued or just pushed; afterwards the chain is live again, the new block included. -/
theorem pushAmid_appended (h : p.Live m.table closeLoop (m.controller index).current)
    (source destination : Nat) (control : UInt32) (pace : List (List Stride))
    (afterwards : List Stride) :
    p.Appended m.table closeLoop (Pool.entry source destination control closeLoop p)
      (({ machine := m, index } : Walk).pushAmid p source destination control closeLoop pace
        afterwards).1
      (({ machine := m, index } : Walk).pushAmid p source destination control closeLoop pace
        afterwards).2 := by
  cases hfull : p.isFull with
  | true =>
    have hpush : p.push source destination control closeLoop = .done none := if_pos hfull
    have hwithin := (h.within (Pool.entry source destination control closeLoop p)).run afterwards
    have htable := table_run (w := { machine := m, index }) afterwards
    unfold pushAmid
    rw [hpush]
    refine ⟨hwithin.found, fun _ => ⟨rfl, htable⟩, ?_, ⟨?_, ?_, hwithin.current⟩⟩
    · intro hroom
      cases hfull.symm.trans hroom
    · exact htable.symm ▸ h.sits
    · exact htable.symm ▸ h.linked
  | false =>
    have hlt := h.sits.room hfull
    obtain ⟨hpushed, htable⟩ :=
      run_amid_push m index hfull source destination control closeLoop pace
    have hwithin := (within_push h hfull source destination control pace).run afterwards
    unfold pushAmid
    have htable' := (table_run afterwards).trans htable
    refine ⟨hwithin.found, ?_, ?_, ?_⟩
    · intro hroom
      cases hfull.symm.trans hroom
    · intro _
      refine ⟨hpushed, ?_⟩
      rw [htable', h.sits.read_pushed _ _ _ _ hlt, if_pos rfl]
    · have hsits := h.sits.pushed source destination control closeLoop
      have hlinked := h.linked.push source destination control closeLoop h.sits hlt
      rw [hpushed]
      refine ⟨?_, ?_, hwithin.current⟩
      · exact htable'.symm ▸ ⟨hsits.capacity_pos, hsits.head_lt, hlt, hsits.row⟩
      · exact htable'.symm ▸ hlinked

end Push

end Walk

/-- The chain of a running stream is live, whatever happened before. -/
theorem Rig.live_run {m : Machine} {number index capacity : Nat} {config : StreamConfig} {r : Rig}
    (hcap : 0 < capacity) (hindex : index < m.controllers.size)
    (htruth : (m.controller index).Truthful) (hstop : (m.controller index).current = 0)
    (hr : m.rig number index capacity config = .ok r) (actions : List Action)
    (hrunning : (r.run actions).controller.current ≠ 0) :
    (r.run actions).stream.pool.Live (r.run actions).machine.table
      (r.run actions).stream.isCircular (r.run actions).controller.current := by
  obtain ⟨-, k, h⟩ := sound_run hcap hindex htruth hstop hr actions
  obtain ⟨hb, hq, hcur⟩ := h.executing hrunning
  exact ⟨h.sits, (h.engaged hb).linked, .inr ⟨k, hq, hcur⟩⟩

/-- A block is queued in a running loop while the controller finishes the last block and is led back
to the first. After the last write it comes to the new block. -/
theorem Walk.pushAmid_appended_loop :
    ∃ r, Machine.rig { controllers := #[{}] } 3 0 3 (.circular {}) = .ok r ∧
      let r := r.run [.append 0 64 8, .append 8 64 8, .enable, .finish]
      let pushed := ({ machine := r.machine, index := r.index } : Walk).pushAmid r.stream.pool 64 16
        r.stream.template r.stream.isCircular
        [[.complete], [.fetch], [.move 3], [], [], [.complete]] [.fetch, .complete, .fetch]
      r.stream.pool.Appended r.machine.table r.stream.isCircular
        (Pool.entry 64 16 r.stream.template r.stream.isCircular r.stream.pool) pushed.1 pushed.2 ∧
      pushed.2.found.map (r.stream.pool.slotOf ·.1) =
        [some 1, some 0, some 0, some 0, some 1, some 1, some 2] := by
  obtain ⟨r, hr⟩ : ∃ r, Machine.rig { controllers := #[{}] } 3 0 3 (.circular {}) = .ok r :=
    ⟨_, rfl⟩
  have hrunning : ((Machine.rig { controllers := #[{}] } 3 0 3 (.circular {})).toOption.map fun r =>
      decide ((r.run [.append 0 64 8, .append 8 64 8, .enable, .finish]).controller.current ≠ 0)) =
        some true := by
    decide +kernel
  rw [hr] at hrunning
  have hlive := Rig.live_run (by decide) (by decide) ⟨rfl, rfl, rfl⟩ rfl hr
    [.append 0 64 8, .append 8 64 8, .enable, .finish]
    (of_decide_eq_true (Option.some.inj hrunning))
  refine ⟨r, hr, pushAmid_appended hlive _ _ _ _ _, ?_⟩
  obtain ⟨-, rfl⟩ := Machine.rig_ok hr
  decide +kernel

end ScatterGather
