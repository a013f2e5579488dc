import ScatterGather.Machine

/-!
# ScatterGather.Proofs.Execution — what driver code cannot help keeping

What every single access keeps, a whole script keeps (`Script.run_preserves`), and no look at what
the script does is needed. `Machine.Steady` is such a thing: the sizes of all memories, and the
truthfulness of a controller. The controller's own moves keep it as well.
-/

namespace ScatterGather

namespace Script

variable {A : Type} {Answer : A → Type} {α σ : Type}

/-- What every access keeps, a whole script keeps. -/
theorem run_preserves {R : σ → σ → Prop} (refl : ∀ s, R s s)
    (trans : ∀ {s t u}, R s t → R t u → R s u) (handle : (a : A) → σ → Answer a × σ)
    (step : ∀ a s, R s (handle a s).2) (x : Script A Answer α) (s : σ) :
    R s (x.run handle s).2 := by
  induction x generalizing s with
  | done value => exact refl s
  | ask a next ih => exact trans (step a s) (ih _ _)

end Script

/-! ## What the moves of a controller leave as it was -/

namespace Memory

variable (m : Memory) (d : Descriptor)

@[simp] theorem size_writeList (address : Nat) (data : List UInt8) :
    (m.writeList address data).bytes.size = m.bytes.size := by
  induction data generalizing m address with
  | nil => rfl
  | cons value rest ih => rw [writeList, ih, size_write]

@[simp] theorem size_copyElements (first count : Nat) :
    (m.copyElements d first count).bytes.size = m.bytes.size := by
  induction count generalizing m first with
  | zero => rfl
  | succ count ih => rw [copyElements, ih, copy, size_writeList]

end Memory

namespace Controller

variable {c : Controller} (t : DescriptorTable) (memory : Memory)

theorem Truthful.readNext_eq (h : c.Truthful) : c.readNext t = (c.nextLink t, c) := by
  simp [readNext, h.1]

theorem Truthful.readNext (h : c.Truthful) : (c.readNext t).2.Truthful := by
  rwa [h.readNext_eq]

theorem Truthful.readCount_eq (h : c.Truthful) :
    c.readCount t memory = (c.remaining, c, memory) := by
  rcases c with ⟨number, current, remaining, paused, polls, unstable, reads, override, race⟩
  obtain ⟨-, rfl, rfl⟩ := h
  rfl

theorem Truthful.load (h : c.Truthful) (address : Nat) : (c.load t address).Truthful := h

theorem Truthful.poll (h : c.Truthful) : c.poll.2.Truthful := by
  unfold Controller.poll
  split <;> exact h

theorem Truthful.moveElements (h : c.Truthful) (count : Nat) :
    (c.moveElements t memory count).1.Truthful := by
  unfold Controller.moveElements
  split <;> exact h

@[simp] theorem size_moveElements (count : Nat) :
    (c.moveElements t memory count).2.bytes.size = memory.bytes.size := by
  unfold Controller.moveElements
  split
  · exact memory.size_copyElements ..
  · rfl

theorem finish_running (h : c.current ≠ 0) :
    c.finish t memory =
      (if !(t.read c.current).interrupts then none
        else if (t.read c.current).next ≠ 0 then some .progress else some .complete,
        (c.moveElements t memory c.remaining).1.load t (t.read c.current).next,
        (c.moveElements t memory c.remaining).2) := by
  by_cases hn : (t.read c.current).next = 0 <;> simp [finish, isRunning, h, Controller.load, hn]

theorem finish_stopped (h : c.current = 0) : c.finish t memory = (none, c, memory) := by
  simp [finish, isRunning, h]

theorem Truthful.finish (h : c.Truthful) : (c.finish t memory).2.1.Truthful := by
  by_cases hc : c.current = 0
  · rwa [finish_stopped t memory hc]
  · rw [finish_running t memory hc]
    exact (h.moveElements t memory _).load t _

@[simp] theorem size_finish : (c.finish t memory).2.2.bytes.size = memory.bytes.size := by
  by_cases hc : c.current = 0
  · rw [finish_stopped t memory hc]
  · rw [finish_running t memory hc]
    exact size_moveElements t memory _

@[simp] theorem size_finishMany (blocks : Nat) (c : Controller) :
    (finishMany t blocks c memory).2.bytes.size = memory.bytes.size := by
  induction blocks generalizing c memory with
  | zero => rfl
  | succ blocks ih =>
    rw [finishMany]
    exact (ih (c.finish t memory).2.2 _).trans (size_finish t memory)

end Controller

namespace Machine

/-! ## Components of a machine -/

section Components

variable (m : Machine) (i : Nat) (c : Controller)

@[simp] theorem table_setController : (m.setController i c).table = m.table := rfl

@[simp] theorem memory_setController : (m.setController i c).memory = m.memory := rfl

@[simp] theorem ownership_setController : (m.setController i c).ownership = m.ownership := rfl

@[simp] theorem setController_controller : m.setController i (m.controller i) = m := by
  rcases m with ⟨memory, table, controllers, windows, ownership, log, reports⟩
  simp only [setController, controller, mk.injEq, true_and, and_true]
  by_cases h : i < controllers.size
  · rw [Array.getD_eq_getD_getElem?, Array.getElem?_eq_getElem h, Option.getD_some]
    rw [Array.setIfInBounds, dif_pos h, Array.set_getElem_self]
  · simp [Array.setIfInBounds, h]

theorem controller_setController (j : Nat) :
    (m.setController j c).controller i =
      if j = i ∧ i < m.controllers.size then c else m.controller i := by
  by_cases hj : j = i
  · subst hj
    by_cases h : j < m.controllers.size
    · rw [controller_setController_self m h, if_pos ⟨rfl, h⟩]
    · rw [if_neg (fun hi => h hi.2)]
      simp [controller, setController, Array.setIfInBounds, h]
  · rw [controller_setController_of_ne m hj, if_neg (fun h => hj h.1)]

variable {m i}

theorem finish_stopped (h : (m.controller i).current = 0) : m.finish i = (none, m) := by
  unfold finish
  simp only [Controller.finish_stopped m.table m.memory h, setController_controller]

theorem moveElements_stopped (h : (m.controller i).current = 0) (count : Nat) :
    m.moveElements i count = m := by
  unfold moveElements Controller.moveElements Controller.isRunning
  simp only [h, ne_eq, not_true, decide_false, Bool.false_eq_true, if_false,
    setController_controller]

end Components

/-! ## What no access changes -/

/-- Nothing was added to or taken from memory, and a truthful controller stays truthful. -/
structure Steady (i : Nat) (m m' : Machine) : Prop where
  memory : m'.memory.bytes.size = m.memory.bytes.size
  table : m'.table.cells.size = m.table.cells.size
  controllers : m'.controllers.size = m.controllers.size
  truthful : (m.controller i).Truthful → (m'.controller i).Truthful

namespace Steady

variable {i : Nat} {l m n : Machine}

theorem refl (m : Machine) : Steady i m m :=
  ⟨rfl, rfl, rfl, id⟩

theorem trans (h : Steady i l m) (h' : Steady i m n) : Steady i l n :=
  ⟨h'.memory.trans h.memory, h'.table.trans h.table, h'.controllers.trans h.controllers,
    fun ht => h'.truthful (h.truthful ht)⟩

/-- A controller is replaced by one that is truthful if it was. -/
theorem setController (m : Machine) {j : Nat} {c : Controller}
    (h : (m.controller j).Truthful → c.Truthful) : Steady i m (m.setController j c) where
  memory := rfl
  table := rfl
  controllers := size_setController m j c
  truthful ht := by
    rw [controller_setController]
    split
    · next hj => exact h (hj.1 ▸ ht)
    · exact ht

end Steady

theorem steady_answer {i : Nat} (hw : Hardware) (a : Access) (m : Machine) :
    Steady i m (answer hw a m).2 := by
  cases a with
  | start head priority =>
    cases hw with
    | controller j => exact .setController m fun h => h
    | window j => exact ⟨rfl, rfl, rfl, id⟩
  | halt =>
    cases hw with
    | controller j => exact .setController m fun h => h
    | window j => exact ⟨rfl, rfl, rfl, id⟩
  | isActive => exact .refl m
  | nextPointer =>
    cases hw with
    | controller j => exact .setController m fun h => h.readNext m.table
    | window j => exact .refl m
  | transferCount =>
    cases hw with
    | controller j =>
      have hsize : ((m.controller j).readCount m.table m.memory).2.2.bytes.size =
          m.memory.bytes.size := Controller.size_finishMany ..
      have hs :
          Steady i m (m.setController j ((m.controller j).readCount m.table m.memory).2.1) := by
        refine .setController m ?_
        intro h
        rw [h.readCount_eq]
        exact h
      exact ⟨hsize, rfl, size_setController .., hs.truthful⟩
    | window j => exact .refl m
  | pause =>
    cases hw with
    | controller j => exact .setController m fun h => h
    | window j => exact ⟨rfl, rfl, rfl, id⟩
  | resume =>
    cases hw with
    | controller j => exact .setController m fun h => h
    | window j => exact ⟨rfl, rfl, rfl, id⟩
  | isPending =>
    cases hw with
    | controller j => exact .setController m fun h => h.poll
    | window j => exact .refl m
  | bind channel owner =>
    simp only [answer, bind]
    split <;> exact ⟨rfl, rfl, rfl, id⟩
  | store address w => exact ⟨rfl, DescriptorTable.size_write .., rfl, id⟩
  | save address data => exact ⟨Memory.size_writeList .., rfl, rfl, id⟩
  | release channel owner => exact ⟨rfl, rfl, rfl, id⟩
  | fetch address => exact .refl m
  | load address length => exact .refl m
  | log r => exact ⟨rfl, rfl, rfl, id⟩
  | report r => exact ⟨rfl, rfl, rfl, id⟩

theorem steady_exec {α : Type} {i : Nat} (m : Machine) (hw : Hardware) (x : DriverScript α) :
    Steady i m (m.exec hw x).2 :=
  Script.run_preserves .refl .trans (answer hw) (steady_answer hw) x m

theorem steady_moveElements {i : Nat} (m : Machine) (j count : Nat) :
    Steady i m (m.moveElements j count) := by
  have hs :
      Steady i m (m.setController j ((m.controller j).moveElements m.table m.memory count).1) :=
    .setController m fun h => h.moveElements ..
  exact ⟨Controller.size_moveElements .., rfl, hs.controllers, hs.truthful⟩

theorem steady_finish {i : Nat} (m : Machine) (j : Nat) : Steady i m (m.finish j).2 := by
  have hs : Steady i m (m.setController j ((m.controller j).finish m.table m.memory).2.1) :=
    .setController m fun h => h.finish ..
  exact ⟨Controller.size_finish .., rfl, hs.controllers, hs.truthful⟩

end Machine

end ScatterGather
