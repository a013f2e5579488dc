import ScatterGather.Proofs.Chain
import ScatterGather.Proofs.Running

/-!
# ScatterGather.Proofs.Footprint — what a piece of driver code can touch at all

`Script.Uses` bounds the accesses of a script whatever they answer: neither lying controllers nor
register windows that somebody tampers with can make driver code do anything else. Most driver code
is `Access.Calm`: it reads, writes bytes and leaves traces, and disturbs neither descriptors nor
owners nor the position of any controller (`Machine.Undisturbed`). Links and flags are written by
code that is `Access.Tabular`, which means on any machine what it means on a scene
(`Machine.exec_tabular`).

A controller that moves goes where links lead. `DescriptorTable.Closed` says of a set of descriptors
that no link leads out of it, and `Machine.Drift` says that a controller has gone on without leaving
such a set.
-/

namespace ScatterGather

/-! ## Bounds on the accesses of a script -/

namespace Script

variable {A : Type} {Answer : A → Type} {α β σ : Type}

/-- Whatever its accesses answer, a script makes only those of one kind, and ends with a value of
one kind. -/
inductive Uses (P : A → Prop) (Q : α → Prop) : Script A Answer α → Prop
  | done {value : α} (h : Q value) : Uses P Q (done value)
  | ask {a : A} {next : Answer a → Script A Answer α} (h : P a)
      (rest : ∀ answer, Uses P Q (next answer)) : Uses P Q (ask a next)

variable {P : A → Prop} {Q : α → Prop} {R : β → Prop} {x : Script A Answer α}

theorem Uses.access {a : A} (h : P a) :
    Uses P (fun _ => True) (access a : Script A Answer (Answer a)) :=
  .ask h fun _ => .done trivial

theorem Uses.bind {f : α → Script A Answer β} (hx : x.Uses P Q)
    (hf : ∀ value, Q value → (f value).Uses P R) : (x >>= f).Uses P R := by
  induction hx with
  | done h => exact hf _ h
  | ask h _ ih => exact .ask h ih

theorem Uses.mono {P' : A → Prop} {Q' : α → Prop} (hx : x.Uses P Q) (hP : ∀ a, P a → P' a)
    (hQ : ∀ value, Q value → Q' value) : x.Uses P' Q' := by
  induction hx with
  | done h => exact .done (hQ _ h)
  | ask h _ ih => exact .ask (hP _ h) ih

theorem Uses.anyValue (hx : x.Uses P Q) : x.Uses P fun _ => True :=
  hx.mono (fun _ h => h) fun _ _ => trivial

theorem Uses.when {script : Script A Answer Unit} (condition : Bool)
    (h : script.Uses P fun _ => True) : (Script.when condition script).Uses P fun _ => True := by
  unfold Script.when
  split
  · exact h
  · exact .done trivial

theorem Uses.forEach {body : Nat → Script A Answer Unit}
    (h : ∀ n, (body n).Uses P fun _ => True) (first count : Nat) :
    (Script.forEach body first count).Uses P fun _ => True := by
  induction count generalizing first with
  | zero => exact .done trivial
  | succ count ih => exact (h first).bind fun _ _ => ih (first + 1)

/-- What every access of the kind keeps, the script keeps. -/
theorem Uses.run {S : σ → σ → Prop} (refl : ∀ s, S s s)
    (trans : ∀ {s t u}, S s t → S t u → S s u) {handle : (a : A) → σ → Answer a × σ}
    (step : ∀ a, P a → ∀ s, S s (handle a s).2) (hx : x.Uses P Q) (s : σ) :
    Q (x.run handle s).1 ∧ S s (x.run handle s).2 := by
  induction hx generalizing s with
  | done h => exact ⟨h, refl s⟩
  | @ask a next h _ ih =>
    obtain ⟨hvalue, hrest⟩ := ih (handle a s).1 (handle a s).2
    exact ⟨hvalue, trans (step a h s) hrest⟩

/-! ### Values that do not depend on answers -/

/-- Whatever its accesses answer, a script ends with a value of one kind. -/
def Yields (x : Script A Answer α) (Q : α → Prop) : Prop :=
  x.Uses (fun _ => True) Q

theorem yields_any (x : Script A Answer α) : x.Yields fun _ => True := by
  induction x with
  | done value => exact .done trivial
  | ask a next ih => exact .ask trivial ih

theorem yields_done {value : α} (h : Q value) : (done value : Script A Answer α).Yields Q :=
  .done h

theorem Yields.bind {f : α → Script A Answer β} (hx : x.Yields Q)
    (hf : ∀ value, Q value → (f value).Yields R) : (x >>= f).Yields R :=
  Uses.bind hx hf

/-- A step whose value does not matter. -/
theorem yields_bind {f : α → Script A Answer β} (hf : ∀ value, (f value).Yields R) :
    (x >>= f).Yields R :=
  (yields_any x).bind fun value _ => hf value

theorem Yields.mono {Q' : α → Prop} (hx : x.Yields Q) (h : ∀ value, Q value → Q' value) :
    x.Yields Q' :=
  Uses.mono hx (fun _ h => h) h

theorem Uses.yields (hx : x.Uses P Q) : x.Yields Q :=
  hx.mono (fun _ _ => trivial) fun _ h => h

theorem Yields.run (hx : x.Yields Q) (handle : (a : A) → σ → Answer a × σ) (t : σ) :
    Q (x.run handle t).1 :=
  (Uses.run (S := fun _ _ => True) (fun _ => trivial) (fun _ _ => trivial)
    (fun _ _ _ => trivial) hx t).1

end Script

namespace Access

/-- An access that disturbs neither descriptors nor owners nor the position of a controller. -/
def Calm : Access → Prop
  | start .. | halt | transferCount | bind .. | release .. | store .. => False
  | _ => True

/-- An access to a descriptor. -/
def Tabular : Access → Prop
  | fetch _ | store .. => True
  | _ => False

/-- An access that neither starts nor halts a controller. -/
def Quiet : Access → Prop
  | start .. | halt => False
  | _ => True

theorem Calm.quiet {a : Access} (h : a.Calm) : a.Quiet := by
  cases a <;> trivial

theorem Tabular.quiet {a : Access} (h : a.Tabular) : a.Quiet := by
  cases a <;> trivial

end Access

/-- One access of the kind. -/
theorem uses_perform {P : Access → Prop} (a : Access) (h : P a) :
    (perform a).Uses P fun _ => True :=
  .access h

/-! ## Closed sets of descriptors -/

namespace DescriptorTable

variable {t : DescriptorTable} {C : Nat → Prop}

/-- No link leads out of a set of descriptors. -/
def Closed (t : DescriptorTable) (C : Nat → Prop) : Prop :=
  ∀ a, C a → (t.read a).next = 0 ∨ C (t.read a).next

/-- A write that links into the set, or does not link at all, keeps it closed. -/
theorem Closed.write (h : t.Closed C) {a : Nat} {w : Descriptor.Write}
    (hw : ∀ next, w = .next next → next = 0 ∨ C next) : (t.write a w).Closed C := by
  intro b hb
  have hold := h b hb
  by_cases hcell : ∃ cell < t.cells.size, a = address cell
  · rw [t.read_write hcell]
    split
    · next hab =>
      subst hab
      cases w with
      | next next => exact hw next rfl
      | _ => exact hold
    · exact hold
  · -- nothing is written where there is no cell
    have hsame : (t.write a w).read b = t.read b := by
      by_cases hab : a = b
      · subst hab
        unfold DescriptorTable.write put DescriptorTable.read
        cases hat : cellAt a with
        | none => rfl
        | some cell =>
          have hout : ¬cell < t.cells.size := fun hlt =>
            hcell ⟨cell, hlt, eq_address_of_cellAt hat⟩
          simp [Array.getD_eq_getD_getElem?, hout]
      · exact read_write_of_ne t hab w
    rw [hsame]
    exact hold

theorem Closed.congr {t' : DescriptorTable} (h : t.Closed C)
    (hread : ∀ a, C a → (t'.read a).next = (t.read a).next) : t'.Closed C := by
  intro a ha
  rw [hread a ha]
  exact h a ha

end DescriptorTable

/-! ## Controllers that go where links lead -/

/-- One controller has become another by moves of its own. -/
structure Controller.Led (t : DescriptorTable) (c c' : Controller) : Prop where
  number : c'.number = c.number
  inside : ∀ C, t.Closed C → c.current = 0 ∨ C c.current → c'.current = 0 ∨ C c'.current

namespace Controller

variable {t : DescriptorTable} {c c' c'' : Controller}

theorem Led.refl (c : Controller) : c.Led t c :=
  ⟨rfl, fun _ _ h => h⟩

theorem Led.trans (h : c.Led t c') (h' : c'.Led t c'') : c.Led t c'' :=
  ⟨h'.number.trans h.number, fun C hC hin => h'.inside C hC (h.inside C hC hin)⟩

theorem Led.same (hn : c'.number = c.number) (hc : c'.current = c.current) : c.Led t c' :=
  ⟨hn, fun _ _ h => hc ▸ h⟩

theorem led_moveElements (c : Controller) (memory : Memory) (count : Nat) :
    c.Led t (c.moveElements t memory count).1 := by
  unfold moveElements
  split <;> exact .same rfl rfl

theorem led_finish (c : Controller) (memory : Memory) : c.Led t (c.finish t memory).2.1 := by
  by_cases hc : c.current = 0
  · rw [finish_stopped t memory hc]
    exact .refl c
  · rw [finish_running t memory hc]
    refine ⟨(led_moveElements (t := t) c memory c.remaining).number, ?_⟩
    intro C hC hin
    exact hC c.current (hin.resolve_left hc)

theorem led_finishMany (blocks : Nat) (c : Controller) (memory : Memory) :
    c.Led t (finishMany t blocks c memory).1 := by
  induction blocks generalizing c memory with
  | zero => exact .refl c
  | succ blocks ih => exact (led_finish c memory).trans (ih ..)

theorem led_runToEvent {blocks : Nat} {c : Controller} {memory : Memory}
    {r : Option TransferEvent × Controller × Memory}
    (h : runToEvent t blocks c memory = some r) : c.Led t r.2.1 := by
  induction blocks generalizing c memory with
  | zero =>
    by_cases hc : c.current = 0
    · rw [runToEvent_stopped hc] at h
      exact Option.some.inj h ▸ .refl c
    · rw [runToEvent_eq_none_iff.mpr (DescriptorTable.silent_zero.mpr hc)] at h
      cases h
  | succ blocks ih =>
    by_cases hc : c.current = 0
    · rw [runToEvent_stopped hc] at h
      exact Option.some.inj h ▸ .refl c
    · rw [runToEvent_succ hc] at h
      split at h
      · exact Option.some.inj h ▸ led_finish c memory
      · exact (led_finish c memory).trans (ih h)

theorem led_readCount (c : Controller) (memory : Memory) :
    c.Led t (c.readCount t memory).2.1 :=
  (Led.same rfl rfl : c.Led t { c with race := 0 }).trans (led_finishMany ..)

/-- Reading the next pointer and polling leave a controller where it is. -/
theorem still_readNext (c : Controller) :
    (c.readNext t).2.number = c.number ∧ (c.readNext t).2.current = c.current := by
  unfold readNext
  split <;> exact ⟨rfl, rfl⟩

theorem still_poll (c : Controller) :
    c.poll.2.number = c.number ∧ c.poll.2.current = c.current := by
  unfold poll
  split <;> exact ⟨rfl, rfl⟩

end Controller

namespace Machine

variable {l m n : Machine} {i : Nat}

/-! ## What calm code leaves as it was -/

/-- Descriptors, owners and the positions of controllers are as they were. -/
structure Undisturbed (m m' : Machine) : Prop where
  table : m'.table = m.table
  ownership : m'.ownership = m.ownership
  number : ∀ i, (m'.controller i).number = (m.controller i).number
  current : ∀ i, (m'.controller i).current = (m.controller i).current

theorem Undisturbed.refl (m : Machine) : m.Undisturbed m :=
  ⟨rfl, rfl, fun _ => rfl, fun _ => rfl⟩

theorem Undisturbed.trans (h : l.Undisturbed m) (h' : m.Undisturbed n) : l.Undisturbed n :=
  ⟨h'.table.trans h.table, h'.ownership.trans h.ownership,
    fun i => (h'.number i).trans (h.number i), fun i => (h'.current i).trans (h.current i)⟩

/-- A controller is replaced by one that stands where it stood. -/
theorem Undisturbed.setController (m : Machine) {c : Controller}
    (hn : c.number = (m.controller i).number) (hc : c.current = (m.controller i).current) :
    m.Undisturbed (m.setController i c) := by
  refine ⟨rfl, rfl, fun j => ?_, fun j => ?_⟩
  · rw [controller_setController]
    split
    · next hj => exact hj.1 ▸ hn
    · rfl
  · rw [controller_setController]
    split
    · next hj => exact hj.1 ▸ hc
    · rfl

theorem undisturbed_answer (hw : Hardware) {a : Access} (h : a.Calm) (m : Machine) :
    m.Undisturbed (answer hw a m).2 := by
  cases a with
  | start | halt | transferCount | bind | release | store => exact h.elim
  | isActive | fetch | load | save | log | report => exact ⟨rfl, rfl, fun _ => rfl, fun _ => rfl⟩
  | nextPointer =>
    cases hw with
    | window j => exact .refl m
    | controller j =>
      obtain ⟨hn, hc⟩ := (m.controller j).still_readNext (t := m.table)
      exact .setController m hn hc
  | pause =>
    cases hw with
    | window j => exact ⟨rfl, rfl, fun _ => rfl, fun _ => rfl⟩
    | controller j => exact .setController m rfl rfl
  | resume =>
    cases hw with
    | window j => exact ⟨rfl, rfl, fun _ => rfl, fun _ => rfl⟩
    | controller j => exact .setController m rfl rfl
  | isPending =>
    cases hw with
    | window j => exact .refl m
    | controller j =>
      obtain ⟨hn, hc⟩ := (m.controller j).still_poll
      exact .setController m hn hc

/-- Calm driver code disturbs nothing. -/
theorem exec_calm {α : Type} {Q : α → Prop} {x : DriverScript α} (hx : x.Uses Access.Calm Q)
    (hw : Hardware) (m : Machine) : Q (m.exec hw x).1 ∧ m.Undisturbed (m.exec hw x).2 :=
  hx.run .refl .trans (fun _ ha m => undisturbed_answer hw ha m) m

/-- **Code that touches descriptors only** does on any machine what it does on a scene. -/
theorem exec_tabular {α : Type} {Q : α → Prop} {x : DriverScript α} (hx : x.Uses Access.Tabular Q)
    (hw : Hardware) (m : Machine) (v : Scene) (hv : v.table = m.table) :
    m.exec hw x = ((v.exec x).1, { m with table := (v.exec x).2.table }) := by
  induction hx generalizing m v with
  | done h =>
    rw [exec, Script.run_done, Scene.exec, Script.run_done, hv]
  | @ask a next h _ ih =>
    have hanswer : (answer hw a m).1 = (Scene.answer a v).1 ∧
        (answer hw a m).2 = { m with table := (Scene.answer a v).2.table } := by
      cases a with
      | fetch address =>
        show m.table.read address = v.table.read address ∧ m = { m with table := v.table }
        rw [hv]
        exact ⟨rfl, rfl⟩
      | store address w =>
        show _ ∧ { m with table := m.table.write address w } = { m with table := v.table.write .. }
        rw [hv]
        exact ⟨rfl, rfl⟩
      | _ => exact h.elim
    show (next (answer hw a m).1).run (answer hw) (answer hw a m).2 = _
    rw [hanswer.1, hanswer.2]
    exact ih (Scene.answer a v).1 _ (Scene.answer a v).2 rfl

/-! ## Machines whose controllers go on -/

/-- One controller may have gone on; descriptors, owners and the other controllers are as they
were. -/
structure Drift (i : Nat) (m m' : Machine) : Prop where
  table : m'.table = m.table
  ownership : m'.ownership = m.ownership
  others : ∀ j, j ≠ i → (m'.controller j).number = (m.controller j).number ∧
    (m'.controller j).current = (m.controller j).current
  led : (m.controller i).Led m.table (m'.controller i)

theorem Drift.number (h : Drift i m n) (j : Nat) :
    (n.controller j).number = (m.controller j).number := by
  by_cases hj : j = i
  · rw [hj, h.led.number]
  · exact (h.others j hj).1

theorem Undisturbed.drift (h : m.Undisturbed n) (i : Nat) : Drift i m n where
  table := h.table
  ownership := h.ownership
  others j _ := ⟨h.number j, h.current j⟩
  led := .same (h.number i) (h.current i)

/-- A controller goes on, and bytes change. -/
theorem drift_setController (m : Machine) (memory : Memory) {c : Controller}
    (hc : (m.controller i).Led m.table c) :
    Drift i m ({ m with memory }.setController i c) where
  table := rfl
  ownership := rfl
  others j hj := by
    have hsame : ({ m with memory }.setController i c).controller j = m.controller j :=
      controller_setController_of_ne _ (Ne.symm hj) c
    rw [hsame]
    exact ⟨rfl, rfl⟩
  led := by
    rw [controller_setController]
    split
    · exact hc
    · exact .refl _

theorem drift_moveElements (m : Machine) (i count : Nat) : Drift i m (m.moveElements i count) :=
  drift_setController m _ (Controller.led_moveElements ..)

theorem drift_finish (m : Machine) (i : Nat) : Drift i m (m.finish i).2 :=
  drift_setController m _ (Controller.led_finish ..)

theorem drift_runWithin (m : Machine) (i patience : Nat) :
    Drift i m (m.runWithin i patience).2 := by
  unfold runWithin
  cases hrun : m.runToEvent i with
  | none => exact drift_setController m _ (Controller.led_finishMany ..)
  | some r =>
    obtain ⟨found, hfound, rfl⟩ := Option.map_eq_some_iff.mp hrun
    exact drift_setController m _ (Controller.led_runToEvent hfound)

/-- Reading the count of elements may let the controller go on. -/
theorem drift_readCount (m : Machine) (i : Nat) : Drift i m (m.readCount (.controller i)).2 :=
  drift_setController m _ (Controller.led_readCount ..)

end Machine

end ScatterGather
