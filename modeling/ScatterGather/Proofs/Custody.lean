import ScatterGather.Proofs.Rig

/-!
# ScatterGather.Proofs.Custody — no descriptor is taken from a controller that uses it

A controller works in the driver's memory. While it executes a block, and as long as links lead from
there to others, none of these descriptors may be programmed anew, and none may be forgotten by the
queue, since a forgotten slot is the next to be programmed. `Rig.Custody` says all of this about one
moment, and `Rig.custody_run` says that it holds at every moment of every run: one-shot or circular,
with events that the controller raised and with events that it never did.

The position that the stream works out has no part in the statement. It enters through `Sound`: what
is retired is what lies in front of the controller's own position.
-/

namespace ScatterGather

theorem DescriptorTable.LeadsTo.eq_zero {t : DescriptorTable} {a : Nat} (h : t.LeadsTo 0 a) :
    a = 0 := by
  cases h with
  | here => rfl
  | next hne _ => exact absurd rfl hne

namespace Stream

variable {s : Stream} {v : Scene} {k : Nat}

/-- The controller of a sound stream can come to queued blocks only. -/
theorem Sound.leadsTo (h : s.Sound v k) {a : Nat} (ha : v.table.LeadsTo v.current a) :
    a = 0 ∨ s.pool.Holds a := by
  by_cases hc : v.current = 0
  · rw [hc] at ha
    exact .inl ha.eq_zero
  · obtain ⟨hb, hq, hcur⟩ := h.executing hc
    exact (h.engaged hb).linked.leadsTo_queued (.inr ⟨k, hq, hcur⟩) ha

/-- A slot that is not queued is out of reach. -/
theorem Sound.tail_out_of_reach (h : s.Sound v k) (hroom : s.pool.queued < s.pool.capacity) :
    ¬v.table.LeadsTo v.current (s.pool.addressOf s.pool.tail) := by
  intro hl
  rcases h.leadsTo hl with hz | ⟨offset, ho, heq⟩
  · exact h.sits.addressAt_ne_zero s.pool.queued hz
  · have := Pool.addressAt_inj h.sits.head_lt hroom (by omega) heq
    omega

/-- Queueing leaves the body of every descriptor in reach as it was. -/
theorem Sound.body_append (h : s.Sound v k) {a : Nat} (hl : v.table.LeadsTo v.current a)
    (hne : a ≠ 0) (destination source size : Nat) :
    ((v.exec (s.append destination source size)).2.table.read a).body = (v.table.read a).body := by
  have hrunning : v.current ≠ 0 := by
    intro hz
    exact hne (hz ▸ hl).eq_zero
  obtain ⟨hb, -, -⟩ := h.executing hrunning
  rcases h.append_cases destination source size with ⟨e, s', hexec, -⟩ | ⟨elements, -, hroom, hexec⟩
  · rw [hexec]
  · rw [hexec, discardFinished_bound hb]
    rw [discardFinished_bound hb] at hroom
    apply body_appendedTable_of_ne h.sits a hroom source destination elements
    intro heq
    rw [heq] at hl
    exact h.tail_out_of_reach hroom hl

end Stream

namespace Rig

/-- Nothing that the controller uses is programmed or forgotten. -/
structure Custody (r : Rig) : Prop where
  /-- Whatever is executed is a queued block of a bound stream. -/
  executing : r.controller.current ≠ 0 →
    r.stream.bound = true ∧ r.stream.pool.Holds r.controller.current
  /-- Whatever the controller can still come to is queued. -/
  reachable : ∀ a, r.machine.table.LeadsTo r.controller.current a → a = 0 ∨ r.stream.pool.Holds a
  /-- The slot that the next block goes to is out of reach. -/
  tail : r.stream.discardFinished.pool.isFull = false →
    ¬r.machine.table.LeadsTo r.controller.current
      (r.stream.discardFinished.pool.addressOf r.stream.discardFinished.pool.tail)
  /-- Retiring keeps whatever is in reach. -/
  retire : ∀ a, r.machine.table.LeadsTo r.controller.current a →
    a = 0 ∨ (r.machine.exec r.hardware r.stream.retirePassed).1.pool.Holds a
  /-- A queue is reset only when the controller has stopped: before a block is queued, -/
  discard : r.stream.discardFinished ≠ r.stream → r.controller.current = 0
  /-- and when the queue is cleared. -/
  clear : ((r.machine.exec r.hardware r.stream.releaseIfBound).2.controller r.index).current = 0
  /-- No action reprograms a descriptor in reach. -/
  program : ∀ (action : Action) (a : Nat), r.machine.table.LeadsTo r.controller.current a → a ≠ 0 →
    ((r.step action).machine.table.read a).body = (r.machine.table.read a).body

variable {r : Rig} {k : Nat}

theorem Attached.custody (ha : r.Attached) (h : r.stream.Sound r.scene k) : r.Custody where
  executing hc := by
    obtain ⟨hb, hq, hcur⟩ := h.executing hc
    exact ⟨hb, k, hq, hcur⟩
  reachable _ hl := h.leadsTo hl
  tail hfull := h.discardFinished.tail_out_of_reach (h.discardFinished.sits.room hfull)
  retire a hl := by
    apply ha.driven (P := fun s _ => a = 0 ∨ s.pool.Holds a) _ id
    rw [Stream.exec_retirePassed]
    by_cases hb : r.stream.bound = true
    · exact (h.retired hb).leadsTo hl
    · rw [show r.controller.current = 0 from h.stopped (Bool.eq_false_iff.mpr hb)] at hl
      exact .inl hl.eq_zero
  discard hne := by
    by_cases hb : r.stream.bound = true
    · exact absurd (Stream.discardFinished_bound hb) hne
    · exact h.stopped (Bool.eq_false_iff.mpr hb)
  clear := by
    apply ha.driven (P := fun _ v => v.current = 0) _ id
    rw [Stream.exec_releaseIfBound]
    split
    · rfl
    · next hb => exact h.stopped (Bool.eq_false_iff.mpr hb)
  program action a hl hne := by
    have hrunning : r.scene.current ≠ 0 := by
      intro hz
      rw [show r.controller.current = 0 from hz] at hl
      exact hne hl.eq_zero
    obtain ⟨hb, -, -⟩ := h.executing hrunning
    -- only queueing and moving write bodies, and a bound stream does not move
    cases action with
    | append destination source size =>
      exact ha.driven (P := fun _ v => (v.table.read a).body = (r.scene.table.read a).body) _
        Prod.snd (h.body_append hl hne destination source size)
    | relocate => rw [step_relocate_bound hb]
    | _ => exact ha.body_step h rfl a

/-- **A descriptor that the controller uses is never reprogrammed or freed.** A stream is made on a
channel whose controller reads truthfully and has stopped; then its operations, the moves of the
controller and events of any kind follow one another in any order. -/
theorem custody_run {m : Machine} {number index capacity : Nat} {config : StreamConfig}
    (hcap : 0 < capacity) (hindex : index < m.controllers.size)
    (htruth : (m.controller index).Truthful) (hstop : (m.controller index).current = 0)
    (hr : m.rig number index capacity config = .ok r) (actions : List Action) :
    (r.run actions).Custody := by
  obtain ⟨ha, k, h⟩ := sound_run hcap hindex htruth hstop hr actions
  exact ha.custody h

/-- A loop of two blocks is stopped by an event that nobody raised, filled and started again. -/
theorem custody_run_loop :
    ∃ r, Machine.rig { controllers := #[{}] } 3 0 2 (.circular {}) = .ok r ∧
      (r.run [.append 0 64 8, .append 8 64 8, .enable, .finish, .interrupt .complete,
        .append 0 64 8, .enable, .finish, .interrupt .progress]).Custody := by
  obtain ⟨r, hr⟩ : ∃ r, Machine.rig { controllers := #[{}] } 3 0 2 (.circular {}) = .ok r :=
    ⟨_, rfl⟩
  exact ⟨r, hr, custody_run (by decide) (by decide) ⟨rfl, rfl, rfl⟩ rfl hr _⟩

end Rig

end ScatterGather
