import ScatterGather.Proofs.Coherence
import ScatterGather.Proofs.Position
import ScatterGather.Proofs.Tenancy

/-!
# ScatterGather.Proofs.Course — what one action can do to a chain

Where a chain leads is decided by three things: the stream, the descriptors, and the place at which
the controller stands. A `Course` is these three. `Course.Shift` lists all that one action can make
of a course, whatever the controller answers. A reading that lies may have a stream forget too few
blocks or too many, or take a block for a late one; it cannot have it write anything else.

`Leads` says where a piece of driver code leads from every machine with the same descriptors and the
same place of the controller, and is put together as the code is. `Rig.Moored` is what a rig needs,
and every action keeps it (`Rig.Moored.step`). Later modules prove what they are after by cases on
`Shift`, and do not open an operation again.
-/

namespace ScatterGather

/-! ## Copies of a row -/

namespace DescriptorTable

theorem address_add (cell k : Nat) : address (cell + k) = address cell + k * Descriptor.size := by
  simp only [address, Nat.add_mul]
  omega

theorem address_inj {cell cell' : Nat} (h : address cell = address cell') : cell = cell' := by
  simp only [address, Descriptor.size] at h
  omega

/-- In a copy of a row each descriptor reads as the original did. -/
theorem read_copyRow (t : DescriptorTable) {i j count : Nat} (hapart : i + count ≤ j)
    (hroom : j + count ≤ t.cells.size) {k : Nat} (hk : k < count) :
    (t.copyRow (address i) (address j) count).read (address (j + k)) =
      t.read (address (i + k)) := by
  induction count generalizing t i j k with
  | zero => omega
  | succ count ih =>
    have hi : address i + Descriptor.size = address (i + 1) := by
      rw [address_add, Nat.one_mul]
    have hj : address j + Descriptor.size = address (j + 1) := by
      rw [address_add, Nat.one_mul]
    rw [copyRow, hi, hj]
    cases k with
    | zero =>
      -- later copies do not come back to the first cell
      rw [read_copyRow_of_ne]
      · exact read_put_self t (by omega) _
      · intro k _ heq
        rw [← address_add] at heq
        have := address_inj heq
        omega
    | succ k =>
      have hput := ih (t.put (address j) (t.read (address i))) (i := i + 1) (j := j + 1) (k := k)
        (by omega) (by rw [size_put]; omega) (by omega)
      have hne : address j ≠ address (i + 1 + k) := by
        intro heq
        have := address_inj heq
        omega
      rw [show j + (k + 1) = j + 1 + k by omega, show i + (k + 1) = i + 1 + k by omega, hput,
        read_put_of_ne _ hne]

end DescriptorTable

namespace Pool.Sits

variable {p : Pool} {t : DescriptorTable}

/-- A pool that is moved sits in its new row. -/
theorem relocated (h : p.Sits t) :
    Pool.Sits { p with base := (t.allocate p.capacity).1 }
      ((t.allocate p.capacity).2.copyRow p.base (t.allocate p.capacity).1 p.capacity) :=
  (Stream.sits_allocate t h.capacity_pos h.head_lt h.queued_le).mono
    (Nat.le_of_eq (Stream.size_copyRow ..).symm)

/-- What is found in a slot moves with it. -/
theorem read_relocated (h : p.Sits t) {slot : Nat} (hslot : slot < p.capacity) :
    ((t.allocate p.capacity).2.copyRow p.base (t.allocate p.capacity).1 p.capacity).read
        (addressOf { p with base := (t.allocate p.capacity).1 } slot) =
      t.read (p.addressOf slot) := by
  obtain ⟨cell, hbase, hfits⟩ := h.row
  have hcopy := (t.allocate p.capacity).2.read_copyRow (i := cell) (j := t.cells.size) hfits
    (t.size_allocate p.capacity) hslot
  rw [DescriptorTable.address_add, DescriptorTable.address_add, ← hbase,
    DescriptorTable.read_allocate] at hcopy
  exact hcopy

end Pool.Sits

/-! ## Charts -/

/-- What a controller goes by: the descriptors, and the place at which it stands. -/
structure Chart where
  table : DescriptorTable
  current : Nat

def Machine.chart (m : Machine) (i : Nat) : Chart :=
  ⟨m.table, (m.controller i).current⟩

namespace Machine

variable {m m' : Machine} {i : Nat}

theorem Undisturbed.chart (h : m.Undisturbed m') (i : Nat) : m'.chart i = m.chart i := by
  unfold Machine.chart
  rw [h.table, h.current i]

theorem chart_setController (hi : i < m.controllers.size) (c : Controller) :
    (m.setController i c).chart i = ⟨m.table, c.current⟩ := by
  unfold chart
  rw [controller_setController_self m hi]
  rfl

theorem chart_moveElements (hi : i < m.controllers.size) (count : Nat) :
    (m.moveElements i count).chart i = m.chart i := by
  have hmoved := chart_setController
    (m := { m with memory := ((m.controller i).moveElements m.table m.memory count).2 }) hi
    ((m.controller i).moveElements m.table m.memory count).1
  refine hmoved.trans ?_
  unfold Controller.moveElements
  split <;> rfl

/-- A controller that runs goes where the link of its block leads. -/
theorem chart_finish (hi : i < m.controllers.size) :
    (m.finish i).2.chart i =
      if (m.controller i).current = 0 then m.chart i
      else { m.chart i with current := (m.table.read (m.controller i).current).next } := by
  by_cases hc : (m.controller i).current = 0
  · rw [finish_stopped hc, if_pos hc]
  · have hmoved := chart_setController
      (m := { m with memory := ((m.controller i).finish m.table m.memory).2.2 }) hi
      ((m.controller i).finish m.table m.memory).2.1
    refine hmoved.trans ?_
    rw [if_neg hc, Controller.finish_running _ _ hc]
    rfl

end Machine

/-- From every machine with this chart the code leads to a value and a chart of one kind. -/
def Leads {α : Type} (i : Nat) (x : DriverScript α) (v : Chart) (Q : α → Chart → Prop) : Prop :=
  ∀ m : Machine, i < m.controllers.size → m.chart i = v →
    Q (m.exec (.controller i) x).1 ((m.exec (.controller i) x).2.chart i)

section Leads

variable {α β : Type} {i : Nat} {v : Chart} {x : DriverScript α} {Q : α → Chart → Prop}
  {R : β → Chart → Prop}

theorem leads_pure {a : α} (h : Q a v) : Leads i (pure a) v Q := by
  rintro m - rfl
  exact h

theorem Leads.bind {f : α → DriverScript β} (hx : Leads i x v Q)
    (hf : ∀ a v', Q a v' → Leads i (f a) v' R) : Leads i (x >>= f) v R := by
  intro m hi hm
  have hsize := (Machine.steady_exec (i := i) m (.controller i) x).controllers
  rw [Script.bind_eq, Machine.exec_bind]
  exact hf _ _ (hx m hi hm) _ (hsize.symm ▸ hi) rfl

theorem Leads.mono {Q' : α → Chart → Prop} (hx : Leads i x v Q) (h : ∀ a v', Q a v' → Q' a v') :
    Leads i x v Q' :=
  fun m hi hm => h _ _ (hx m hi hm)

/-- Calm code leaves the chart as it was. -/
theorem leads_calm {P : α → Prop} (hx : x.Uses Access.Calm fun _ => True) (hP : x.Yields P) :
    Leads i x v fun a v' => P a ∧ v' = v := by
  rintro m - rfl
  exact ⟨hP.run (Machine.answer (.controller i)) m, (Machine.exec_calm hx _ m).2.chart i⟩

theorem leads_perform {a : Access} (ha : a.Calm) :
    Leads i (perform a) v fun _ v' => v' = v :=
  (leads_calm (uses_perform a ha) (Script.yields_any _)).mono fun _ _ h => h.2

theorem leads_when {y : DriverScript Unit} {w : Chart} (condition : Bool)
    (hy : Leads i y v fun _ v' => v' = w) :
    Leads i (Script.when condition y) v fun _ v' => v' = if condition then w else v := by
  unfold Script.when
  cases condition with
  | true => exact hy
  | false => exact leads_pure rfl

theorem leads_setInterrupt (a : Nat) (on : Bool) :
    Leads i (setInterrupt a on) v fun _ v' => v' = { v with table := v.table.arm a on } := by
  rintro m - rfl
  rfl

theorem leads_push (p : Pool) (source destination : Nat) (control : UInt32) (closeLoop : Bool) :
    Leads i (p.push source destination control closeLoop) v fun pushed v' =>
      p.isFull = true ∧ pushed = none ∧ v' = v ∨
        p.isFull = false ∧ pushed = some { p with queued := p.queued + 1 } ∧
          v' = { v with table := p.pushed v.table source destination control closeLoop } := by
  rintro m - rfl
  rw [Machine.exec_push]
  cases p.isFull with
  | true => exact .inl ⟨rfl, rfl, rfl⟩
  | false => exact .inr ⟨rfl, rfl, rfl⟩

theorem leads_relink (p : Pool) (closeLoop : Bool) :
    Leads i (p.relink closeLoop) v fun _ v' =>
      v' = { v with table := p.relinked v.table closeLoop } := by
  rintro m - rfl
  rw [Machine.exec_relink]
  rfl

theorem leads_applyInterrupts (s : Stream) :
    Leads i s.applyInterrupts v fun _ v' => v' = { v with table := s.rearmed v.table } := by
  rintro m - rfl
  rw [Machine.exec_applyInterrupts]
  rfl

theorem leads_startAtHead (s : Stream) :
    Leads i s.startAtHead v fun _ v' => v' = { v with current := s.pool.addressAt 0 } := by
  rintro m hi rfl
  exact Machine.chart_setController hi _

/-- A claim that is granted or refused concerns no descriptor and no controller. -/
theorem leads_claim (channel : Nat) (owner : OwnerId) :
    Leads i (perform (.bind channel owner)) v fun _ v' => v' = v := by
  rintro m - rfl
  show (m.bind channel owner).2.chart i = m.chart i
  rcases hbind : (m.bind channel owner).1 with e | u
  · exact (Machine.undisturbed_refused hbind).chart i
  · rw [Machine.bind_of_granted hbind]
    rfl

end Leads

namespace Stream

variable {i : Nat} {v : Chart} (s : Stream)

/-! ## Where the operations of a stream lead -/

/-- A chain that is forgotten leaves room. -/
theorem discardFinished_of_full (hcap : 0 < s.pool.capacity)
    (hfull : s.discardFinished.pool.isFull = true) : s.discardFinished = s := by
  unfold discardFinished at hfull ⊢
  split
  · next hfinished =>
    rw [if_pos hfinished] at hfull
    have hzero : 0 = s.pool.capacity := of_decide_eq_true hfull
    omega
  · rfl

theorem isCircular_discardFinished : s.discardFinished.isCircular = s.isCircular :=
  s.kept_discardFinished.same.isCircular

variable {s} in
theorem sits_discardFinished {t : DescriptorTable} (hs : s.pool.Sits t) :
    s.discardFinished.pool.Sits t := by
  unfold discardFinished
  split
  · exact hs.reset
  · exact hs

/-- A request is refused, or its block is queued. -/
theorem leads_append (hcap : 0 < s.pool.capacity) (destination source size : Nat) :
    Leads i (s.append destination source size) v fun out v' =>
      (∃ e, out = (.error e, s) ∧ v' = v) ∨
        ∃ elements late, s.checkBlock destination source size = .ok elements ∧
          s.discardFinished.pool.isFull = false ∧
          (late = true → s.bound = true ∧ s.isCircular = false) ∧
          out = (.ok (), s.discardFinished.appended late) ∧
          v' = { v with
            table := s.discardFinished.appendedTable v.table source destination elements } := by
  unfold append
  cases s.checkBlock destination source size with
  | error e => exact leads_pure (.inl ⟨e, rfl, rfl⟩)
  | ok elements =>
    have hfull := s.discardFinished_of_full hcap
    rw [← s.isCircular_discardFinished, ← s.bound_discardFinished]
    generalize s.discardFinished = s' at hfull ⊢
    refine (leads_push _ _ _ _ _).bind fun pushed v₁ h₁ => ?_
    rcases h₁ with ⟨hfull', rfl, rfl⟩ | ⟨hroom, rfl, rfl⟩
    · exact leads_pure (.inl ⟨_, by rw [hfull hfull'], rfl⟩)
    · refine (leads_calm s'.calm_linkedTooLate (yields_linkedTooLate s')).bind fun late v₂ h₂ => ?_
      obtain ⟨hlate, rfl⟩ := h₂
      refine (leads_when _ (leads_setInterrupt _ false)).bind fun _ v₃ h₃ => leads_pure (.inr ?_)
      refine ⟨elements, late, rfl, hroom, hlate, rfl, h₃.trans ?_⟩
      unfold appendedTable disarmsLast
      split <;> rfl

theorem leads_setCallback (callback : Option Callback) :
    Leads i (s.setCallback callback) v fun s' v' =>
      s' = { s with callback } ∧
        v' = { v with
          table := if !s.bound || s.isCircular then { s with callback }.rearmed v.table
            else v.table } := by
  refine (leads_when _ (leads_applyInterrupts _)).bind fun _ v' h => leads_pure ⟨rfl, h.trans ?_⟩
  show (if !s.bound || s.isCircular then _ else v) = _
  split <;> rfl

/-- A stream that has blocks and does not hold its channel claims it. -/
theorem leads_enable :
    Leads i s.enable v fun out v' =>
      out.2 = s ∧ v' = v ∨
        s.bound = false ∧ (out.2 = { s with state := .error } ∧ v' = v ∨
          s.pool.queued ≠ 0 ∧ out.2 = { s with bound := true, stalled := none, state := .busy } ∧
            v' = ⟨s.startedTable v.table, s.pool.addressAt 0⟩) := by
  unfold enable
  split
  · exact leads_pure (.inl ⟨rfl, rfl⟩)
  · next hidle =>
    obtain ⟨hb, hq⟩ : s.bound = false ∧ s.pool.queued ≠ 0 := by simpa [Pool.isEmpty] using hidle
    refine (leads_claim _ _).bind fun granted v' h => ?_
    subst h
    cases granted with
    | error e => exact leads_pure (.inr ⟨hb, .inl ⟨rfl, rfl⟩⟩)
    | ok u =>
      refine (leads_relink _ _).bind fun _ v₁ h₁ => ?_
      refine (leads_applyInterrupts _).bind fun _ v₂ h₂ => ?_
      refine (leads_perform (a := .log _) trivial).bind fun _ v₃ h₃ => ?_
      refine (leads_startAtHead _).bind fun _ v₄ h₄ => leads_pure (.inr ⟨hb, .inr ⟨hq, rfl, ?_⟩⟩)
      rw [h₄, h₃, h₂, h₁]
      rfl

theorem leads_releaseChannel :
    Leads i s.releaseChannel v fun s' v' =>
      s' = { s with bound := false, stalled := none } ∧ v' = { v with current := 0 } := by
  rintro m - rfl
  refine ⟨rfl, ?_⟩
  have hcurrent := m.current_halt i
  show Chart.mk m.table ((m.halt (.controller i)).controller i).current = _
  rw [hcurrent]
  rfl

theorem leads_disable (h : s.Coherent) :
    Leads i s.disable v fun s' v' =>
      s' = s ∧ v' = v ∨
        s.bound = true ∧
          s' = { s with
            pool := s.pool.retire 0, bound := false, stalled := none, state := .done } ∧
          v' = { v with current := 0 } := by
  unfold disable
  split
  · exact leads_pure (.inl ⟨rfl, rfl⟩)
  · next hbound =>
    have hb : s.bound = true := by simpa using hbound
    refine s.leads_releaseChannel.bind fun s' v' ⟨hs', hv'⟩ => ?_
    refine (leads_perform (a := .log _) trivial).bind fun _ v'' hlog => ?_
    refine leads_pure (.inr ⟨hb, ?_, hlog.trans hv'⟩)
    -- a bound stream is busy or timed out
    subst hs'
    rw [if_pos ((h.bound hb).imp_right And.left), Pool.retire_zero h.head_lt]

theorem leads_clear (h : s.Coherent) :
    Leads i s.clear v fun s' v' =>
      s' = { s with pool := s.pool.reset, bound := false, stalled := none, state := .idle } ∧
        (v' = { v with current := 0 } ∨ s.bound = false ∧ v' = v) := by
  unfold clear releaseIfBound
  split
  · refine s.leads_releaseChannel.bind fun s' v' ⟨hs', hv'⟩ => leads_pure ?_
    subst hs'
    exact ⟨rfl, .inl hv'⟩
  · next hbound =>
    have hb : s.bound = false := Bool.eq_false_iff.mpr hbound
    refine (leads_pure (Q := fun s' v' => s' = s ∧ v' = v) ⟨rfl, rfl⟩).bind ?_
    rintro _ _ ⟨rfl, rfl⟩
    exact leads_pure ⟨by rw [← h.unbound hb, ← hb], .inr ⟨hb, rfl⟩⟩

/-! ## Where events lead -/

/-- However the position is misread, no more is forgotten than can be reached. -/
theorem leads_retirePassed (hhead : s.pool.head < s.pool.capacity) :
    Leads i s.retirePassed v fun s' v' => v' = v ∧ ∃ count ≤ s.reachable,
      (s.isCircular = true → count = 0) ∧ s' = { s with pool := s.pool.retire count } := by
  unfold retirePassed
  split
  · exact leads_pure ⟨rfl, 0, Nat.zero_le _, fun _ => rfl, by rw [Pool.retire_zero hhead]⟩
  · next hm =>
    refine (leads_calm s.calm_executingOffset (yields_executingOffset s)).bind ?_
    rintro count _ ⟨hcount, rfl⟩
    exact leads_pure ⟨rfl, count, hcount, fun hloop => absurd hloop hm, rfl⟩

/-- What an event can make of a bound stream: it goes on, is set to the head again, or ends. -/
theorem leads_react (hhead : s.pool.head < s.pool.capacity) (event : TransferEvent) :
    Leads i (s.react event) v fun s' v' => ∃ count ≤ s.reachable,
      (s.isCircular = true → count = 0) ∧
        (v' = v ∧ (∃ state, state ≠ .ready ∧
            s' = { s with pool := s.pool.retire count, state }) ∨
          s.isCircular = false ∧ (s.pool.retire count).queued ≠ 0 ∧
            s' = { s with pool := s.pool.retire count, stalled := none, state := .busy } ∧
            v' = { v with current := (s.pool.retire count).addressAt 0 } ∨
          v' = { v with current := 0 } ∧ ∃ state, state.isFinal = true ∧
            s' = { s with
              pool := s.pool.retire count, bound := false, stalled := none, state }) := by
  have hzero : s.pool.retire 0 = s.pool := Pool.retire_zero hhead
  cases event with
  | progress =>
    refine (s.leads_retirePassed hhead).bind ?_
    rintro _ _ ⟨rfl, count, hcount, hloop, rfl⟩
    exact leads_pure ⟨count, hcount, hloop, .inl ⟨rfl, .busy, by decide, rfl⟩⟩
  | complete =>
    refine (s.leads_retirePassed hhead).bind ?_
    rintro _ _ ⟨rfl, count, hcount, hloop, rfl⟩
    split
    · next hleft =>
      obtain ⟨hm, hq⟩ : s.isCircular = false ∧ (s.pool.retire count).queued ≠ 0 := by
        simpa [Pool.isEmpty, isCircular] using hleft
      refine (leads_perform (a := .log _) trivial).bind ?_
      rintro _ _ rfl
      refine (leads_startAtHead _).bind ?_
      rintro _ _ rfl
      exact leads_pure ⟨count, hcount, hloop, .inr (.inl ⟨hm, hq, rfl, rfl⟩)⟩
    · refine (leads_releaseChannel _).bind ?_
      rintro _ _ ⟨rfl, rfl⟩
      exact leads_pure ⟨count, hcount, hloop, .inr (.inr ⟨rfl, .done, rfl, rfl⟩)⟩
  | busError =>
    refine (leads_perform (a := .log _) trivial).bind ?_
    rintro _ _ rfl
    refine (leads_releaseChannel s).bind ?_
    rintro _ _ ⟨rfl, rfl⟩
    exact leads_pure ⟨0, Nat.zero_le _, fun _ => rfl,
      .inr (.inr ⟨rfl, .error, rfl, by rw [hzero]⟩)⟩
  | timeout =>
    refine (leads_perform (a := .log _) trivial).bind ?_
    rintro _ _ rfl
    split
    · refine (leads_releaseChannel s).bind ?_
      rintro _ _ ⟨rfl, rfl⟩
      exact leads_pure ⟨0, Nat.zero_le _, fun _ => rfl,
        .inr (.inr ⟨rfl, .timeout, rfl, by rw [hzero]⟩)⟩
    · refine (leads_calm s.calm_drainAndResume (Script.yields_any _)).bind ?_
      rintro _ _ ⟨-, rfl⟩
      exact leads_pure ⟨0, Nat.zero_le _, fun _ => rfl,
        .inl ⟨rfl, .timeout, by decide, by rw [hzero]⟩⟩

end Stream

/-! ## Courses -/

/-- A stream, the descriptors, and the place at which the controller stands. -/
structure Course extends Chart where
  stream : Stream

/-- The course of a stream that goes by a chart. -/
def Chart.course (v : Chart) (s : Stream) : Course :=
  { v with stream := s }

namespace Course

/-- All that one action can make of a course. -/
inductive Shift : Course → Action → Course → Prop
  /-- Nothing that concerns the chain. -/
  | stay (c : Course) (a : Action) : Shift c a c
  | configured {c : Course} {settings : TransferSettings} (hb : c.stream.bound = false) :
    Shift c (.configure settings)
      { c with
        stream := { c.stream with
          config := { c.stream.config with settings }, template := settings.controlTemplate } }
  /-- A callback was installed or removed. -/
  | informed (c : Course) (callback : Option Callback) :
    Shift c (.setCallback callback)
      { c with
        stream := { c.stream with callback }
        table :=
          if !c.stream.bound || c.stream.isCircular then
            { c.stream with callback }.rearmed c.table
          else c.table }
  /-- A block was taken, perhaps after a chain that had ended was forgotten. -/
  | queued {c : Course} {destination source size elements : Nat} {late : Bool}
    (hcheck : c.stream.checkBlock destination source size = .ok elements)
    (hroom : c.stream.discardFinished.pool.queued < c.stream.discardFinished.pool.capacity)
    (hlate : late = true → c.stream.bound = true ∧ c.stream.isCircular = false) :
    Shift c (.append destination source size)
      { c with
        stream := c.stream.discardFinished.appended late
        table := c.stream.discardFinished.appendedTable c.table source destination elements }
  /-- The channel was claimed in vain. -/
  | denied {c : Course} (hb : c.stream.bound = false) :
    Shift c .enable { c with stream := { c.stream with state := .error } }
  | started {c : Course} (hb : c.stream.bound = false) (hq : c.stream.pool.queued ≠ 0) :
    Shift c .enable
      { stream := { c.stream with bound := true, stalled := none, state := .busy }
        table := c.stream.startedTable c.table
        current := c.stream.pool.addressAt 0 }
  /-- Blocks were forgotten that the controller is taken to have moved past, and it goes on. -/
  | passed {a : Action} {c : Course} {count : Nat} {state : StreamState}
    (hb : c.stream.bound = true) (hcount : count ≤ c.stream.reachable)
    (hloop : c.stream.isCircular = true → count = 0) (hstate : state ≠ .ready) :
    Shift c a
      { c with stream := { c.stream with pool := c.stream.pool.retire count, state } }
  /-- The same, and the controller was set to the block that is first now. -/
  | restarted {a : Action} {c : Course} {count : Nat} (hb : c.stream.bound = true)
    (hcount : count ≤ c.stream.reachable) (hline : c.stream.isCircular = false)
    (hleft : (c.stream.pool.retire count).queued ≠ 0) :
    Shift c a
      { c with
        stream := { c.stream with
          pool := c.stream.pool.retire count, stalled := none, state := .busy }
        current := (c.stream.pool.retire count).addressAt 0 }
  /-- The same, and the channel was given back. -/
  | released {a : Action} {c : Course} {count : Nat} {state : StreamState}
    (hb : c.stream.bound = true) (hcount : count ≤ c.stream.reachable)
    (hloop : c.stream.isCircular = true → count = 0) (hfinal : state.isFinal = true) :
    Shift c a
      { c with
        stream := { c.stream with
          pool := c.stream.pool.retire count, bound := false, stalled := none, state }
        current := 0 }
  | cleared {c : Course} {current : Nat} :
    Shift c .clear
      { c with
        stream := { c.stream with
          pool := c.stream.pool.reset, bound := false, stalled := none, state := .idle }
        current }
  /-- The stream was moved to a row in which its descriptors read as they did. -/
  | replaced {c : Course} {base : Nat} {table : DescriptorTable} (hb : c.stream.bound = false)
    (hsits : Pool.Sits { c.stream.pool with base } table)
    (hcopy : ∀ slot < c.stream.pool.capacity,
      table.read (Pool.addressOf { c.stream.pool with base } slot) =
        c.table.read (c.stream.pool.addressOf slot)) :
    Shift c .relocate
      { c with stream := { c.stream with pool := { c.stream.pool with base } }, table }
  /-- The controller went on to the next block. -/
  | advanced {c : Course} (hc : c.current ≠ 0) :
    Shift c .finish { c with current := (c.table.read c.current).next }

variable {a : Action} {c c' : Course}

/-- What is settled when a stream is made stays settled. -/
theorem Shift.same (h : c.Shift a c') : c.stream.Same c'.stream := by
  cases h with
  | queued hcheck hroom hlate =>
    have hkept := c.stream.kept_discardFinished.same
    exact ⟨hkept.channel, hkept.owner, hkept.mode, hkept.timeoutPolicy, hkept.capacity⟩
  | _ => exact ⟨rfl, rfl, rfl, rfl, rfl⟩

/-- No chain gets out of its row, or its row out of the table. -/
theorem Shift.sits (h : c.Shift a c') (hs : c.stream.pool.Sits c.table) :
    c'.stream.pool.Sits c'.table := by
  have hresized {t : DescriptorTable} (hsize : t.cells.size = c.table.cells.size) :
      c.stream.pool.Sits t := hs.mono (Nat.le_of_eq hsize.symm)
  cases h with
  | informed =>
    refine hresized ?_
    split
    · exact Stream.size_rearmed
    · rfl
  | queued hcheck hroom hlate =>
    have hd := Stream.sits_discardFinished hs
    exact Pool.Sits.mono ⟨hd.capacity_pos, hd.head_lt, hroom, hd.row⟩
      (Nat.le_of_eq (Stream.size_appendedTable ..).symm)
  | started hb hq => exact hresized Stream.size_startedTable
  | passed | restarted | released => exact hs.retire _
  | cleared => exact hs.reset
  | replaced hb hsits hcopy => exact hsits
  | stay | configured | denied | advanced => exact hs

end Course

/-! ## Rigs -/

namespace Rig

def course (r : Rig) : Course :=
  (r.machine.chart r.index).course r.stream

/-- The stream is in order and drives a controller that is there. Its readings may be wrong. -/
structure Moored (r : Rig) : Prop where
  hardware : r.stream.channel.hardware = .controller r.index
  index_lt : r.index < r.machine.controllers.size
  coherent : r.stream.Coherent
  sits : r.stream.pool.Sits r.machine.table

variable {r : Rig}

/-- A stream that was just made. -/
theorem moored_make {m : Machine} {number index capacity : Nat} {config : StreamConfig}
    (hcap : 0 < capacity) (hindex : index < m.controllers.size)
    (hr : m.rig number index capacity config = .ok r) : r.Moored := by
  have hmade : (m.createStream { number, hardware := .controller index } capacity config).1 =
      .ok r.stream := by
    unfold Machine.rig at hr
    split at hr
    · cases hr
    · next heq =>
      rw [heq]
      obtain rfl := Except.ok.inj hr
      rfl
  obtain ⟨-, rfl⟩ := Machine.rig_ok hr
  exact ⟨rfl, hindex, Stream.coherent_made hcap hmade,
    Stream.sits_allocate m.table hcap hcap (Nat.zero_le _)⟩

/-- What code of the stream leads to is what its machine comes to. -/
theorem Moored.leads {α : Type} (h : r.Moored) {x : DriverScript α} {Q : α → Chart → Prop}
    (hx : Leads r.index x (r.machine.chart r.index) Q) :
    Q (r.machine.exec r.hardware x).1 ((r.machine.exec r.hardware x).2.chart r.index) := by
  rw [Rig.hardware, h.hardware]
  exact hx r.machine h.index_lt rfl

/-- A request is refused, or its block is queued. -/
theorem Moored.shift_append (h : r.Moored) (destination source size : Nat) :
    let result := (r.machine.exec r.hardware (r.stream.append destination source size)).1.1
    let c' := (r.step (.append destination source size)).course
    (∃ e, result = .error e ∧ c' = r.course) ∨
      ∃ elements late, result = .ok () ∧
        r.stream.checkBlock destination source size = .ok elements ∧
        r.stream.discardFinished.pool.queued < r.stream.discardFinished.pool.capacity ∧
        (late = true → r.stream.bound = true ∧ r.stream.isCircular = false) ∧
        c' = { r.course with
          stream := r.stream.discardFinished.appended late
          table := r.stream.discardFinished.appendedTable r.machine.table source destination
            elements } := by
  have hroom (hfull : r.stream.discardFinished.pool.isFull = false) :
      r.stream.discardFinished.pool.queued < r.stream.discardFinished.pool.capacity := by
    have hle := h.coherent.discardFinished.queued_le
    have hne := of_decide_eq_false hfull
    omega
  intro result c'
  have hout := h.leads
    (r.stream.leads_append h.coherent.capacity_pos destination source size)
  have hc' : c' = ((r.machine.exec r.hardware
      (r.stream.append destination source size)).2.chart r.index).course
        (r.machine.exec r.hardware (r.stream.append destination source size)).1.2 := rfl
  rcases hout with ⟨e, hout, hv⟩ | ⟨elements, late, hcheck, hfull, hlate, hout, hv⟩
  · rw [hv, hout] at hc'
    exact .inl ⟨e, congrArg Prod.fst hout, hc'⟩
  · rw [hv, hout] at hc'
    exact .inr ⟨elements, late, congrArg Prod.fst hout, hcheck, hroom hfull, hlate, hc'⟩

/-- A stream that is bound takes an event, and one that is not takes no notice. -/
theorem Moored.shift_interrupt (h : r.Moored) (a : Action) (event : TransferEvent) :
    r.course.Shift a (r.interrupt event).course := by
  have hnotify (s : Stream) (v : Chart) :
      Leads r.index (do s.notify; pure (some s.status, s)) v fun out v' =>
        out.2 = s ∧ v' = v :=
    (leads_calm s.calm_notify (Script.yields_any _)).bind fun _ _ hv => leads_pure ⟨rfl, hv.2⟩
  refine h.leads (x := r.stream.onInterrupt event)
    (Q := fun out v' => r.course.Shift a (v'.course out.2)) ?_
  unfold Stream.onInterrupt
  split
  · exact leads_pure (.stay _ _)
  · next hbound =>
    have hb : r.stream.bound = true := by simpa using hbound
    refine (r.stream.leads_react h.coherent.head_lt event).bind ?_
    rintro s' v' ⟨count, hcount, hloop, hgo⟩
    refine (hnotify s' v').mono ?_
    rintro ⟨status, s''⟩ v'' ⟨rfl, rfl⟩
    rcases hgo with ⟨rfl, state, hstate, rfl⟩ | ⟨hline, hleft, rfl, rfl⟩ | ⟨rfl, state, hfinal, rfl⟩
    · exact .passed hb hcount hloop hstate
    · exact .restarted hb hcount hline hleft
    · exact .released hb hcount hloop hfinal

/-- At the end of a block a controller that runs goes where the link of the block leads. -/
theorem Moored.course_finish (h : r.Moored) :
    (r.step .finish).course =
      if r.controller.current = 0 then r.course
      else { r.course with current := (r.machine.table.read r.controller.current).next } := by
  have hchart : (r.step .finish).course =
      ((r.machine.finish r.index).2.chart r.index).course r.stream := rfl
  rw [hchart, Machine.chart_finish h.index_lt, controller]
  split <;> rfl

/-- **Every action makes one of the listed changes**, whatever the controller answers. -/
theorem Moored.shift (h : r.Moored) (a : Action) : r.course.Shift a (r.step a).course := by
  have hdone {α : Type} {x : DriverScript α} (stream : α → Stream)
      (hx : Leads r.index x (r.machine.chart r.index) fun out v' =>
        r.course.Shift a (v'.course (stream out))) :
      r.course.Shift a
        (((r.machine.exec r.hardware x).2.chart r.index).course
          (stream (r.machine.exec r.hardware x).1)) := h.leads hx
  have hstill {r' : Rig} (hs : r'.stream = r.stream)
      (hv : r'.machine.chart r'.index = r.machine.chart r.index) :
      r.course.Shift a r'.course := by
    unfold course
    rw [hs, hv]
    exact .stay _ _
  cases a with
  | append destination source size =>
    rcases h.shift_append destination source size with
      ⟨e, -, hc⟩ | ⟨elements, late, -, hcheck, hroom, hlate, hc⟩
    · rw [hc]
      exact .stay _ _
    · rw [hc]
      exact .queued hcheck hroom hlate
  | configure settings =>
    show r.course.Shift _ (Chart.course _ (r.stream.configure settings).2)
    unfold Stream.configure
    split
    · exact .stay _ _
    · next hb =>
      split
      · exact .stay _ _
      · exact .configured (Bool.eq_false_iff.mpr hb)
  | setCallback callback =>
    refine hdone id ((r.stream.leads_setCallback callback).mono ?_)
    rintro _ _ ⟨rfl, rfl⟩
    exact .informed r.course callback
  | enable =>
    refine hdone Prod.snd (r.stream.leads_enable.mono ?_)
    rintro ⟨result, s'⟩ _ (⟨rfl, rfl⟩ | ⟨hb, ⟨rfl, rfl⟩ | ⟨hq, rfl, rfl⟩⟩)
    · exact .stay _ _
    · exact .denied hb
    · exact .started hb hq
  | disable =>
    refine hdone id ((r.stream.leads_disable h.coherent).mono ?_)
    rintro _ _ (⟨rfl, rfl⟩ | ⟨hb, rfl, rfl⟩)
    · exact .stay _ _
    · exact .released hb (Nat.zero_le _) (fun _ => rfl) rfl
  | clear =>
    refine hdone id ((r.stream.leads_clear h.coherent).mono ?_)
    rintro _ _ ⟨rfl, rfl | ⟨-, rfl⟩⟩
    · exact .cleared
    · exact .cleared
  | deliver =>
    cases hraised : r.raised with
    | nil =>
      rw [step_deliver_nil hraised]
      exact .stay _ _
    | cons event raised =>
      rw [step_deliver_cons hraised]
      exact h.shift_interrupt _ event
  | interrupt event => exact h.shift_interrupt _ event
  | moveElements count =>
    exact hstill rfl (Machine.chart_moveElements h.index_lt count)
  | finish =>
    rw [h.course_finish]
    split
    · exact .stay _ _
    · next hc => exact Course.Shift.advanced (c := r.course) hc
  | fillFifo polls => exact hstill rfl (Machine.chart_setController h.index_lt _)
  | relocate =>
    by_cases hb : r.stream.bound = true
    · rw [step_relocate_bound hb]
      exact .stay _ _
    · rw [step_relocate_unbound (Bool.eq_false_iff.mpr hb)]
      exact .replaced (Bool.eq_false_iff.mpr hb) h.sits.relocated fun _ => h.sits.read_relocated
  | contend ownership => exact hstill rfl rfl

theorem Moored.interrupt (h : r.Moored) (event : TransferEvent) :
    (r.interrupt event).Moored := by
  have hshift := h.shift_interrupt .deliver event
  have hsize := (Machine.steady_exec (i := r.index) r.machine r.hardware
    (r.stream.onInterrupt event)).controllers
  exact ⟨hshift.same.channel ▸ h.hardware, hsize.symm ▸ h.index_lt,
    (h.coherent.onInterrupt event).run (Machine.answer r.hardware) r.machine,
    hshift.sits h.sits⟩

/-- Every action keeps a rig moored. -/
theorem Moored.step (h : r.Moored) (a : Action) : (r.step a).Moored := by
  have hshift := h.shift a
  have hsits := hshift.sits h.sits
  have hchannel := hshift.same.channel ▸ h.hardware
  have hexec {α : Type} (x : DriverScript α) :
      r.index < (r.machine.exec r.hardware x).2.controllers.size :=
    (Machine.steady_exec (i := r.index) r.machine r.hardware x).controllers.symm ▸ h.index_lt
  cases a with
  | append destination source size =>
    exact ⟨hchannel, hexec _, (h.coherent.append destination source size).run _ r.machine, hsits⟩
  | configure settings => exact ⟨hchannel, h.index_lt, h.coherent.configure settings, hsits⟩
  | setCallback callback =>
    exact ⟨hchannel, hexec _, (h.coherent.setCallback callback).run _ r.machine, hsits⟩
  | enable => exact ⟨hchannel, hexec _, h.coherent.enable.run _ r.machine, hsits⟩
  | disable => exact ⟨hchannel, hexec _, h.coherent.disable.run _ r.machine, hsits⟩
  | clear => exact ⟨hchannel, hexec _, h.coherent.clear.run _ r.machine, hsits⟩
  | deliver =>
    cases hraised : r.raised with
    | nil => rwa [step_deliver_nil hraised]
    | cons event raised =>
      rw [step_deliver_cons hraised]
      exact ⟨(h.interrupt event).hardware, (h.interrupt event).index_lt,
        (h.interrupt event).coherent, (h.interrupt event).sits⟩
  | interrupt event => exact h.interrupt event
  | moveElements count =>
    have hsize := (Machine.steady_moveElements (i := r.index) r.machine r.index count).controllers
    exact ⟨h.hardware, hsize.symm ▸ h.index_lt, h.coherent, hsits⟩
  | finish =>
    have hsize := (Machine.steady_finish (i := r.index) r.machine r.index).controllers
    exact ⟨h.hardware, hsize.symm ▸ h.index_lt, h.coherent, hsits⟩
  | fillFifo polls =>
    exact ⟨h.hardware, (r.machine.size_setController r.index _).symm ▸ h.index_lt, h.coherent,
      hsits⟩
  | relocate =>
    by_cases hb : r.stream.bound = true
    · rwa [step_relocate_bound hb]
    · rw [step_relocate_unbound (Bool.eq_false_iff.mpr hb)] at hsits ⊢
      exact ⟨h.hardware, h.index_lt, { h.coherent with }, hsits⟩
  | contend ownership => exact ⟨h.hardware, h.index_lt, h.coherent, hsits⟩

/-- What holds of a rig at first and is kept by every action holds after every run. -/
theorem Moored.run {P : Rig → Prop} (h : r.Moored) (hfirst : P r)
    (hstep : ∀ r a, r.Moored → P r → P (r.step a)) (actions : List Action) :
    (r.run actions).Moored ∧ P (r.run actions) :=
  run_induction (P := fun r => r.Moored ∧ P r) (Q := fun _ => True) ⟨h, hfirst⟩
    (fun r a _ hr => ⟨hr.1.step a, hstep r a hr.1 hr.2⟩) actions fun _ _ => trivial

end Rig

end ScatterGather
