import ScatterGather.Proofs.Constancy

/-!
# ScatterGather.Proofs.Standing — where the controller of a stream stands

A stream never stores where its controller is; it guesses the position from the next pointer each
time. Three notions say when the guess is right.

* `StandsAt`: the controller executes the queued block at an offset, or it has stopped in front of
  it. A controller that stopped stands at the first block that it cannot reach.
* `Engaged`: what holds of a bound stream. Its queue is linked in order, its controller stands
  somewhere in it, and a stalled slot is a queued one.
* `Sound`: what holds of every stream that was only ever driven through its operations.

`Engaged.standing_eq` is the payoff: the guess is the position. The rest of the module says how the
position moves: retiring makes it zero, queueing leaves it, finishing a block adds one.
-/

namespace ScatterGather

namespace Stream

variable {s : Stream} {v : Scene}

/-! ## Positions -/

/-- The controller stands at an offset of the queue. -/
inductive StandsAt (s : Stream) (v : Scene) : Nat → Prop
  -- a controller that executes was not seen to stop
  | running {offset : Nat} (hq : offset < s.pool.queued)
      (hc : v.current = s.pool.addressAt offset) (hs : s.stalled = none) : StandsAt s v offset
  | stopped (hc : v.current = 0) : StandsAt s v s.reachable

/-- What holds of a bound stream whose controller stands at an offset. -/
structure Engaged (s : Stream) (v : Scene) (offset : Nat) : Prop where
  linked : s.pool.Linked v.table s.isCircular
  stands : s.StandsAt v offset
  stalled : ∀ slot, s.stalled = some slot →
    slot < s.pool.capacity ∧ s.pool.offsetOf slot < s.pool.queued
  circular : s.isCircular = true → v.current ≠ 0

/-- What holds of a stream at all times. The controller of a stream that is not bound has stopped,
and counts as standing at the head. -/
structure Sound (s : Stream) (v : Scene) (offset : Nat) : Prop where
  sits : s.pool.Sits v.table
  head_zero : s.isCircular = true → s.pool.head = 0
  template : s.template = s.config.settings.controlTemplate
  engaged : s.bound = true → s.Engaged v offset
  resting : s.bound = false → v.current = 0 ∧ s.stalled = none ∧ offset = 0

theorem reachable_le : s.reachable ≤ s.pool.queued := by
  unfold reachable
  split
  · exact Nat.le_refl _
  · exact Nat.min_le_right ..

theorem reachable_of_none (h : s.stalled = none) : s.reachable = s.pool.queued := by
  unfold reachable
  rw [h]

theorem reachable_of_some {slot : Nat} (h : s.stalled = some slot)
    (hq : s.pool.offsetOf slot < s.pool.queued) : s.reachable = s.pool.offsetOf slot := by
  unfold reachable
  rw [h]
  exact Nat.min_eq_left (Nat.le_of_lt hq)

theorem StandsAt.le {offset : Nat} (h : s.StandsAt v offset) : offset ≤ s.pool.queued := by
  cases h with
  | running hq _ _ => exact Nat.le_of_lt hq
  | stopped _ => exact reachable_le

/-- A controller behind the last block has stopped. -/
theorem StandsAt.stopped_of_le {offset : Nat} (h : s.StandsAt v offset)
    (hle : s.pool.queued ≤ offset) : v.current = 0 := by
  cases h with
  | running hq _ _ => omega
  | stopped hc => exact hc

/-- A controller that executes is at a queued block. -/
theorem StandsAt.executing {offset : Nat} (h : s.StandsAt v offset) (hc : v.current ≠ 0) :
    offset < s.pool.queued ∧ v.current = s.pool.addressAt offset := by
  cases h with
  | running hq hcur _ => exact ⟨hq, hcur⟩
  | stopped hz => exact absurd hz hc

/-- A controller that executes has not stopped short of a block. -/
theorem StandsAt.stalled_eq {offset : Nat} (h : s.StandsAt v offset) (hc : v.current ≠ 0) :
    s.stalled = none := by
  cases h with
  | running _ _ hs => exact hs
  | stopped hz => exact absurd hz hc

theorem isCircular_iff : s.isCircular = true ↔ s.config.mode = .circular := by
  simp [isCircular]

/-- The slot before the one that a queued block leads to is the block's own. -/
theorem offsetOf_predecessor (hs : s.pool.Sits v.table)
    (hhead : s.isCircular = true → s.pool.head = 0) {offset : Nat}
    (hq : offset + 1 < s.pool.queued) :
    s.pool.offsetOf (s.predecessor (s.pool.slotAt (offset + 1))) = offset := by
  have hle := hs.queued_le
  unfold predecessor
  split
  · rw [Pool.slotAt_pred hs.head_lt (by omega), Pool.offsetOf_slotAt hs.head_lt (by omega)]
  · next hm =>
    have hz := hhead (isCircular_iff.mpr hm)
    rw [Pool.slotAt_of_head hz (by omega), if_neg (by omega), Nat.add_sub_cancel]
    exact Pool.offsetOf_of_head hz (by omega)

/-- **The guess is the position.** On a bound stream the offset worked out from the next pointer is
the offset at which the controller stands. -/
theorem Engaged.standing_eq {offset : Nat} (h : s.Engaged v offset) (hs : s.pool.Sits v.table)
    (hhead : s.isCircular = true → s.pool.head = 0) : s.standing v = offset := by
  have hle := hs.queued_le
  unfold standing
  cases h.stands with
  | stopped hc =>
    have hnext : v.nextLink = 0 := if_pos hc
    split
    · next hq => exact (Nat.eq_zero_of_le_zero (hq ▸ reachable_le)).symm
    · rw [hnext, hs.slotOf_zero]
  | running hq hc hst =>
    have hne : v.current ≠ 0 := hc ▸ hs.addressAt_ne_zero offset
    have hnext : v.nextLink = s.pool.linkAt s.isCircular offset := by
      rw [Scene.nextLink, if_neg hne, hc, h.linked offset hq]
    rw [if_neg (by omega), hnext, Pool.linkAt, reachable_of_none hst]
    by_cases hlast : offset + 1 < s.pool.queued
    · -- the next pointer names the block behind
      rw [if_pos hlast, Pool.addressAt, Pool.slotOf_addressOf (Pool.slotAt_lt hs.capacity_pos _)]
      show min (s.pool.offsetOf (s.predecessor _)) _ = offset
      rw [offsetOf_predecessor hs hhead hlast]
      omega
    · rw [if_neg hlast]
      by_cases hcirc : s.isCircular = true
      · -- the last block of a loop leads back to slot zero
        have hz := hhead hcirc
        have hpred : s.predecessor 0 = offset := by
          rw [predecessor, isCircular_iff.mp hcirc]
          show s.pool.queued - 1 = offset
          omega
        rw [if_pos hcirc, Pool.addressAt_of_head hz hs.capacity_pos,
          Pool.slotOf_addressOf hs.capacity_pos]
        show min (s.pool.offsetOf (s.predecessor 0)) _ = offset
        rw [hpred, Pool.offsetOf_of_head hz (by omega)]
        omega
      · -- an empty link: the controller executes the last block that it can reach
        rw [if_neg hcirc, hs.slotOf_zero]
        show (if v.current = 0 then _ else _) = offset
        rw [if_neg hne]
        omega

theorem Sound.standing_eq {offset : Nat} (h : s.Sound v offset) (hb : s.bound = true) :
    s.standing v = offset :=
  (h.engaged hb).standing_eq h.sits h.head_zero

/-! ## What a position survives -/

/-- A change that leaves the controller and the cursors of the queue alone leaves the position. -/
theorem StandsAt.congr {s' : Stream} {v' : Scene} {offset : Nat} (h : s.StandsAt v offset)
    (hp : s'.pool = s.pool) (hst : s'.stalled = s.stalled) (hc : v'.current = v.current) :
    s'.StandsAt v' offset := by
  cases h with
  | running hq hcur hs =>
    exact .running (hp ▸ hq) (by rw [hc, hcur, hp]) (hst.trans hs)
  | stopped hcur =>
    have hr : s'.reachable = s.reachable := by unfold reachable; rw [hst, hp]
    exact hr ▸ .stopped (hc.trans hcur)

theorem Engaged.congr {s' : Stream} {v' : Scene} {offset : Nat} (h : s.Engaged v offset)
    (hp : s'.pool = s.pool) (hm : s'.isCircular = s.isCircular) (hst : s'.stalled = s.stalled)
    (hc : v'.current = v.current) (ht : ∀ a, (v'.table.read a).next = (v.table.read a).next) :
    s'.Engaged v' offset where
  linked := by
    intro o ho
    rw [hp, ht, hm]
    exact h.linked o (hp ▸ ho)
  stands := h.stands.congr hp hst hc
  stalled slot hs := by
    rw [hp]
    exact h.stalled slot (hst ▸ hs)
  circular hm' := hc ▸ h.circular (hm ▸ hm')

/-! ## Retiring -/

theorem linked_retire {p : Pool} {t : DescriptorTable} (h : p.Linked t false) {count : Nat}
    (hc : count ≤ p.queued) : (p.retire count).Linked t false := by
  intro offset ho
  have hq := Pool.queued_retire hc
  rw [Pool.addressAt_retire hc, h _ (by omega), Pool.linkAt, Pool.linkAt, Pool.addressAt_retire hc]
  by_cases hlast : count + offset + 1 < p.queued
  · rw [if_pos hlast, if_pos (by omega), Nat.add_assoc]
  · have hlast' : ¬offset + 1 < (p.retire count).queued := by omega
    rw [if_neg hlast, if_neg hlast']
    rfl

section Retire

variable {offset : Nat} (h : s.Engaged v offset) (hs : s.pool.Sits v.table)

include h hs in
theorem Engaged.reachable_retire {count : Nat} (hc : count ≤ s.reachable) :
    reachable { s with pool := s.pool.retire count } = s.reachable - count := by
  have hle : count ≤ s.pool.queued := Nat.le_trans hc reachable_le
  -- the bound is the end of the queue or the block in front of which the controller stopped
  rcases s.stalled.eq_none_or_eq_some with hst | ⟨slot, hst⟩
  · have hr : reachable { s with pool := s.pool.retire count } = (s.pool.retire count).queued :=
      reachable_of_none hst
    rw [hr, reachable_of_none hst, Pool.queued_retire hle]
  · obtain ⟨hslot, hoff⟩ := h.stalled slot hst
    have hr := reachable_of_some hst hoff
    have hoff' := Pool.offsetOf_retire hs.head_lt hle hslot (hr ▸ hc)
    have hlt : (s.pool.retire count).offsetOf slot < (s.pool.retire count).queued := by
      rw [hoff', Pool.queued_retire hle]
      omega
    have hr' : reachable { s with pool := s.pool.retire count } =
        (s.pool.retire count).offsetOf slot :=
      reachable_of_some hst hlt
    rw [hr', hoff', hr]

include h hs in
/-- Once the blocks that the controller has moved past are retired, it stands at the head. -/
theorem Engaged.standsAt_retire : StandsAt { s with pool := s.pool.retire offset } v 0 := by
  have hle := h.stands.le
  cases h.stands with
  | running hq hc hst =>
    refine .running ?_ ?_ hst
    · show 0 < (s.pool.retire offset).queued
      rw [Pool.queued_retire hle]
      omega
    · show v.current = (s.pool.retire offset).addressAt 0
      rw [Pool.addressAt_retire hle, hc]
      rfl
  | stopped hc =>
    have hr := h.reachable_retire hs (Nat.le_refl s.reachable)
    rw [Nat.sub_self] at hr
    exact hr ▸ .stopped hc

include h hs in
/-- A one-shot stream that forgets what its controller has moved past stays engaged. -/
theorem Engaged.retire (hm : s.isCircular = false) :
    Engaged { s with pool := s.pool.retire offset } v 0 where
  linked := by
    have hl := h.linked
    rw [hm] at hl
    show Pool.Linked _ v.table s.isCircular
    rw [hm]
    exact linked_retire hl h.stands.le
  stands := h.standsAt_retire hs
  stalled slot hst := by
    obtain ⟨hslot, hoff⟩ := h.stalled slot hst
    -- the controller stopped at the marked block, so no more than the blocks before are retired
    have hle : offset ≤ s.pool.offsetOf slot := by
      cases h.stands with
      | running _ _ hnone =>
        rw [hnone] at hst
        cases hst
      | stopped _ => exact Nat.le_of_eq (reachable_of_some hst hoff)
    refine ⟨hslot, ?_⟩
    show (s.pool.retire offset).offsetOf slot < (s.pool.retire offset).queued
    rw [Pool.offsetOf_retire hs.head_lt h.stands.le hslot hle, Pool.queued_retire h.stands.le]
    omega
  circular hcirc := by
    have hcirc' : s.isCircular = true := hcirc
    rw [hm] at hcirc'
    cases hcirc'

end Retire

end Stream

end ScatterGather
