import Mathlib.Data.Fintype.Pigeonhole
import ScatterGather.Proofs.Execution

/-!
# ScatterGather.Proofs.Running — a controller that is left to itself

A controller runs until it raises an event or stops, and nothing bounds how far it goes.
`Machine.runToEvent` looks no further than there are descriptors, and here is why that is enough: a
descriptor outside the table leads nowhere, so links that lead on more often than there are
descriptors have come back to one of them (`DescriptorTable.exists_repeat`), and go around the same
blocks forever. `Machine.runToEvent_eq` says it without a bound: a controller that runs finishes its
block, and goes on if that raised no event.
-/

namespace ScatterGather

namespace DescriptorTable

variable (t : DescriptorTable) {a i j : Nat}

/-- Where links lead from an address on, after so many of them. -/
def ahead (address : Nat) : (count : Nat) → Nat
  | 0 => address
  | count + 1 => (t.read (ahead address count)).next

theorem ahead_add (a m n : Nat) : t.ahead a (m + n) = t.ahead (t.ahead a m) n := by
  induction n with
  | zero => rfl
  | succ n ih =>
    show (t.read (t.ahead a (m + n))).next = (t.read (t.ahead (t.ahead a m) n)).next
    rw [ih]

variable {t}

/-- Only a descriptor of the table leads on. -/
theorem exists_cell_of_next (h : (t.read a).next ≠ 0) :
    ∃ cell < t.cells.size, a = address cell := by
  unfold read at h
  cases hcell : cellAt a with
  | none => simp [hcell] at h
  | some cell =>
    refine ⟨cell, ?_, eq_address_of_cellAt hcell⟩
    by_contra hle
    simp [hcell, Array.getD_eq_getD_getElem?, hle] at h

/-- Links that lead on more often than there are descriptors come back. -/
theorem exists_repeat (h : ∀ k ≤ t.cells.size + 1, t.ahead a k ≠ 0) :
    ∃ i j, i < j ∧ j ≤ t.cells.size ∧ t.ahead a i = t.ahead a j := by
  have hcell (k : Fin (t.cells.size + 1)) :
      ∃ cell : Fin t.cells.size, t.ahead a k = address cell := by
    obtain ⟨cell, hlt, heq⟩ := exists_cell_of_next (h (k + 1) (Nat.succ_le_succ (by omega)))
    exact ⟨⟨cell, hlt⟩, heq⟩
  choose cell hcell using hcell
  obtain ⟨i, j, hne, heq⟩ := Fintype.exists_ne_map_eq_of_card_lt cell (by simp)
  have hsame : t.ahead a i = t.ahead a j := by rw [hcell, hcell, heq]
  rcases Nat.lt_or_gt_of_ne (Fin.val_ne_of_ne hne) with hij | hji
  · exact ⟨i, j, hij, by omega, hsame⟩
  · exact ⟨j, i, hji, by omega, hsame.symm⟩

/-- Links that came back lead around what they have led to before. -/
theorem exists_ahead_eq (hij : i < j) (h : t.ahead a i = t.ahead a j) (k : Nat) :
    ∃ k' < j, t.ahead a k = t.ahead a k' := by
  induction k using Nat.strongRecOn with
  | _ k ih =>
    by_cases hk : k < j
    · exact ⟨k, hk, rfl⟩
    · have hround : t.ahead a k = t.ahead a (i + (k - j)) := by
        rw [ahead_add, h, ← ahead_add]
        congr 1
        omega
      obtain ⟨k', hk', heq⟩ := ih (i + (k - j)) (by omega)
      exact ⟨k', hk', hround.trans heq⟩

/-- So many blocks from an address on raise no event, and each leads on. -/
structure Silent (t : DescriptorTable) (a blocks : Nat) : Prop where
  leads : ∀ k ≤ blocks, t.ahead a k ≠ 0
  unarmed : ∀ k < blocks, (t.read (t.ahead a k)).interrupts = false

theorem silent_zero : t.Silent a 0 ↔ a ≠ 0 :=
  ⟨fun h => h.leads 0 (Nat.le_refl 0), fun h =>
    ⟨fun k hk => by rwa [Nat.le_zero.mp hk], fun k hk => absurd hk (Nat.not_lt_zero k)⟩⟩

theorem silent_succ {blocks : Nat} :
    t.Silent a (blocks + 1) ↔
      a ≠ 0 ∧ (t.read a).interrupts = false ∧ t.Silent (t.read a).next blocks := by
  have hahead (k : Nat) : t.ahead a (k + 1) = t.ahead (t.read a).next k := by
    rw [Nat.add_comm, ahead_add]
    rfl
  constructor
  · intro h
    refine ⟨h.leads 0 (Nat.zero_le _), h.unarmed 0 (Nat.succ_pos _), fun k hk => ?_, fun k hk => ?_⟩
    · rw [← hahead]
      exact h.leads (k + 1) (Nat.succ_le_succ hk)
    · rw [← hahead]
      exact h.unarmed (k + 1) (Nat.succ_lt_succ hk)
  · rintro ⟨ha, harmed, h⟩
    refine ⟨fun k hk => ?_, fun k hk => ?_⟩
    · cases k with
      | zero => exact ha
      | succ k =>
        rw [hahead]
        exact h.leads k (Nat.le_of_succ_le_succ hk)
    · cases k with
      | zero => exact harmed
      | succ k =>
        rw [hahead]
        exact h.unarmed k (Nat.lt_of_succ_lt_succ hk)

/-- A way that is silent for more blocks than there are descriptors is silent forever. -/
theorem Silent.forever (h : t.Silent a (t.cells.size + 1)) (blocks : Nat) : t.Silent a blocks := by
  obtain ⟨i, j, hij, hj, hsame⟩ := exists_repeat h.leads
  refine ⟨fun k _ => ?_, fun k _ => ?_⟩
  · obtain ⟨k', hk', heq⟩ := exists_ahead_eq hij hsame k
    rw [heq]
    exact h.leads k' (by omega)
  · obtain ⟨k', hk', heq⟩ := exists_ahead_eq hij hsame k
    rw [heq]
    exact h.unarmed k' (by omega)

end DescriptorTable

namespace Controller

variable {t : DescriptorTable} {c : Controller} {memory : Memory} {blocks : Nat}

/-- A controller that runs finishes its block, and goes on if the block is not armed. -/
theorem runToEvent_succ (hc : c.current ≠ 0) :
    runToEvent t (blocks + 1) c memory =
      if (t.read c.current).interrupts then some (c.finish t memory)
      else runToEvent t blocks (c.finish t memory).2.1 (c.finish t memory).2.2 := by
  have hrunning : c.isRunning = true := decide_eq_true hc
  rw [runToEvent, if_pos hrunning, finish_running t memory hc]
  cases (t.read c.current).interrupts with
  | false => rfl
  | true => by_cases hn : (t.read c.current).next = 0 <;> simp [hn]

theorem runToEvent_stopped (hc : c.current = 0) :
    runToEvent t blocks c memory = some (none, c, memory) := by
  have hstopped : c.isRunning = false := by simp [isRunning, hc]
  cases blocks <;> simp [runToEvent, hstopped]

/-- A block that is finished raises an event if it is armed. -/
theorem isSome_finish (hc : c.current ≠ 0) :
    (c.finish t memory).1.isSome = (t.read c.current).interrupts := by
  rw [finish_running t memory hc]
  cases (t.read c.current).interrupts with
  | false => rfl
  | true => by_cases hn : (t.read c.current).next = 0 <;> simp [hn]

theorem current_finish (hc : c.current ≠ 0) :
    (c.finish t memory).2.1.current = (t.read c.current).next := by
  rw [finish_running t memory hc]
  rfl

/-- Blocks are not enough exactly when they raise no event and all lead on. -/
theorem runToEvent_eq_none_iff :
    runToEvent t blocks c memory = none ↔ t.Silent c.current blocks := by
  induction blocks generalizing c memory with
  | zero =>
    rw [DescriptorTable.silent_zero]
    simp [runToEvent, isRunning]
  | succ blocks ih =>
    rw [DescriptorTable.silent_succ]
    by_cases hc : c.current = 0
    · simp [runToEvent_stopped hc, hc]
    · rw [runToEvent_succ hc]
      cases (t.read c.current).interrupts with
      | true => simp
      | false => simp [ih, current_finish hc, hc]

/-- What is enough is enough with more. -/
theorem runToEvent_mono {r : Option TransferEvent × Controller × Memory} {more : Nat}
    (h : runToEvent t blocks c memory = some r) (hle : blocks ≤ more) :
    runToEvent t more c memory = some r := by
  induction blocks generalizing c memory more with
  | zero =>
    by_cases hc : c.current = 0
    · rw [runToEvent_stopped hc] at h ⊢
      exact h
    · simp [runToEvent, isRunning, hc] at h
  | succ blocks ih =>
    obtain ⟨more, rfl⟩ := Nat.exists_eq_add_of_lt (Nat.lt_of_succ_le hle)
    by_cases hc : c.current = 0
    · rw [runToEvent_stopped hc] at h ⊢
      exact h
    · rw [runToEvent_succ hc] at h ⊢
      cases harmed : (t.read c.current).interrupts with
      | true =>
        rw [harmed] at h
        exact h
      | false =>
        rw [harmed] at h
        exact ih h (by omega)

/-- **Blocks for every descriptor, and one more, are enough** if any number of them is. -/
theorem runToEvent_suffices {r : Option TransferEvent × Controller × Memory}
    (h : runToEvent t blocks c memory = some r) :
    runToEvent t (t.cells.size + 1) c memory = some r := by
  cases hrun : runToEvent t (t.cells.size + 1) c memory with
  | none =>
    have hsilent := (runToEvent_eq_none_iff.mp hrun).forever blocks
    rw [runToEvent_eq_none_iff.mpr hsilent] at h
    cases h
  | some r' =>
    have hmore := runToEvent_mono h (Nat.le_max_left blocks (t.cells.size + 1))
    rw [runToEvent_mono hrun (Nat.le_max_right blocks (t.cells.size + 1))] at hmore
    exact hmore

/-- From the block behind one that raised no event a controller comes to the same event or end, or
goes around the same loop. -/
theorem runToEvent_finish (hc : c.current ≠ 0) (harmed : (t.read c.current).interrupts = false) :
    runToEvent t (t.cells.size + 1) (c.finish t memory).2.1 (c.finish t memory).2.2 =
      runToEvent t (t.cells.size + 1) c memory := by
  have hround (blocks : Nat) : runToEvent t (blocks + 1) c memory =
      runToEvent t blocks (c.finish t memory).2.1 (c.finish t memory).2.2 := by
    rw [runToEvent_succ hc, harmed]
    rfl
  cases hrun : runToEvent t (t.cells.size + 1) c memory with
  | some r =>
    rw [hround] at hrun
    exact runToEvent_suffices hrun
  | none =>
    have hsilent := (runToEvent_eq_none_iff.mp hrun).forever (t.cells.size + 1 + 1)
    rw [← hround]
    exact runToEvent_eq_none_iff.mpr hsilent

end Controller

namespace Machine

variable {m : Machine} {i : Nat}

/-- **Running to the next event**, without a bound: a controller that has not stopped finishes its
block, and goes on unless that raised an event. -/
theorem runToEvent_eq (m : Machine) (i : Nat) :
    m.runToEvent i =
      if (m.controller i).isRunning then
        match m.finish i with
        | (some event, m) => some (some event, m)
        | (none, m) => m.runToEvent i
      else some (none, m) := by
  by_cases hc : (m.controller i).current = 0
  · have hstopped : (m.controller i).isRunning = false := by simp [Controller.isRunning, hc]
    rw [hstopped, if_neg Bool.false_ne_true, runToEvent, Controller.runToEvent_stopped hc]
    exact congrArg (fun m => some (none, m)) (setController_controller m i)
  · have hrunning : (m.controller i).isRunning = true := decide_eq_true hc
    have hi : i < m.controllers.size := by
      by_contra hle
      simp [controller, Array.getD_eq_getD_getElem?, hle] at hc
    have hevent : ((m.controller i).finish m.table m.memory).1.isSome =
        (m.table.read (m.controller i).current).interrupts := Controller.isSome_finish hc
    rw [hrunning, if_pos rfl]
    rcases hf : (m.controller i).finish m.table m.memory with ⟨event, c, memory⟩
    have hfinish : m.finish i = (event, setController { m with memory } i c) := by
      rw [finish, hf]
    rw [hf] at hevent
    rw [hfinish]
    cases event with
    | some event =>
      have harmed : (m.table.read (m.controller i).current).interrupts = true := hevent.symm
      rw [runToEvent, Controller.runToEvent_succ hc, if_pos harmed, hf]
      rfl
    | none =>
      have hself : (setController { m with memory } i c).controller i = c :=
        controller_setController_self { m with memory } hi c
      rw [runToEvent, ← Controller.runToEvent_finish hc hevent.symm, hf]
      show _ = runToEvent (setController { m with memory } i c) i
      rw [runToEvent, hself]
      refine congrArg (Option.map · _) (funext fun r => ?_)
      simp [setController]

/-- Nothing is given exactly for a controller that would go on forever. -/
theorem runToEvent_eq_none_iff :
    m.runToEvent i = none ↔
      ∀ blocks, (m.controller i).runToEvent m.table blocks m.memory = none := by
  unfold runToEvent
  rw [Option.map_eq_none_iff]
  refine ⟨fun h blocks => ?_, fun h => h _⟩
  rw [Controller.runToEvent_eq_none_iff] at h ⊢
  exact h.forever blocks

/-- A chain that ends somewhere is run to its end, or to an event before it. -/
theorem exists_runToEvent {links : Nat} (h : m.table.ahead (m.controller i).current links = 0) :
    ∃ event machine, m.runToEvent i = some (event, machine) := by
  cases hrun : m.runToEvent i with
  | some r => exact ⟨r.1, r.2, rfl⟩
  | none =>
    have hsilent := Controller.runToEvent_eq_none_iff.mp (runToEvent_eq_none_iff.mp hrun links)
    exact absurd h (hsilent.leads links (Nat.le_refl links))

end Machine

end ScatterGather
