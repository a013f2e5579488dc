import ScatterGather.Pool

/-!
# ScatterGather.Proofs.Geometry — slots, offsets and addresses of a ring

The queued blocks of a pool have three names: the slot that a block lies in, its offset from the
head, and the address of its descriptor. Within one turn of the ring the names determine each other
(`offsetOf_slotAt`, `slotAt_offsetOf`, `slotOf_addressOf`), so two offsets of one turn never share a
descriptor (`addressAt_inj`).

`Pool.Sits` is what a pool of a running machine always fulfils: its cursors are in range, and its
row of descriptors lies in the table.
-/

namespace ScatterGather

namespace DescriptorTable

/-- A cell of the table starts at the address. -/
def HasCell (t : DescriptorTable) (a : Nat) : Prop :=
  ∃ cell < t.cells.size, a = address cell

theorem address_ne_zero (cell : Nat) : address cell ≠ 0 := by
  simp only [address, origin]
  omega

theorem HasCell.ne_zero {t : DescriptorTable} {a : Nat} (h : t.HasCell a) : a ≠ 0 := by
  obtain ⟨cell, -, rfl⟩ := h
  exact address_ne_zero cell

end DescriptorTable

namespace Pool

/-- The cursors of a pool are in range, and its row lies in the table. -/
structure Sits (p : Pool) (t : DescriptorTable) : Prop where
  capacity_pos : 0 < p.capacity
  head_lt : p.head < p.capacity
  queued_le : p.queued ≤ p.capacity
  row : ∃ cell, p.base = DescriptorTable.address cell ∧ cell + p.capacity ≤ t.cells.size

variable {p : Pool} {t : DescriptorTable}

/-! ## Slots and offsets -/

theorem slotAt_lt (h : 0 < p.capacity) (offset : Nat) : p.slotAt offset < p.capacity :=
  Nat.mod_lt _ h

/-- Within one turn the ring wraps at most once. -/
theorem slotAt_eq (hh : p.head < p.capacity) {offset : Nat} (ho : offset ≤ p.capacity) :
    p.slotAt offset =
      if p.head + offset < p.capacity then p.head + offset else p.head + offset - p.capacity := by
  unfold slotAt
  split
  · next h => exact Nat.mod_eq_of_lt h
  · next h => rw [Nat.mod_eq_sub_mod (by omega), Nat.mod_eq_of_lt (by omega)]

theorem offsetOf_eq (hh : p.head < p.capacity) {slot : Nat} (hs : slot < p.capacity) :
    p.offsetOf slot = if p.head ≤ slot then slot - p.head else slot + p.capacity - p.head := by
  unfold offsetOf
  split
  · rw [Nat.mod_eq_sub_mod (by omega), Nat.mod_eq_of_lt (by omega)]
    omega
  · exact Nat.mod_eq_of_lt (by omega)

theorem offsetOf_lt (h : 0 < p.capacity) (slot : Nat) : p.offsetOf slot < p.capacity :=
  Nat.mod_lt _ h

theorem offsetOf_slotAt (hh : p.head < p.capacity) {offset : Nat} (ho : offset < p.capacity) :
    p.offsetOf (p.slotAt offset) = offset := by
  have hlt : p.slotAt offset < p.capacity := slotAt_lt (by omega) offset
  have hs := slotAt_eq hh (Nat.le_of_lt ho)
  have he := offsetOf_eq hh hlt
  -- the ring may wrap on the way there, and then wraps on the way back
  split at hs <;> split at he <;> omega

theorem slotAt_offsetOf (hh : p.head < p.capacity) {slot : Nat} (hs : slot < p.capacity) :
    p.slotAt (p.offsetOf slot) = slot := by
  have hlt : p.offsetOf slot < p.capacity := offsetOf_lt (by omega) slot
  have he := slotAt_eq hh (Nat.le_of_lt hlt)
  have ho := offsetOf_eq hh hs
  split at ho <;> split at he <;> omega

theorem slotAt_inj (hh : p.head < p.capacity) {o o' : Nat} (ho : o < p.capacity)
    (ho' : o' < p.capacity) (h : p.slotAt o = p.slotAt o') : o = o' := by
  rw [← offsetOf_slotAt hh ho, h, offsetOf_slotAt hh ho']

/-- In a ring that starts at slot zero the slots are their offsets. -/
theorem slotAt_of_head (hh : p.head = 0) {offset : Nat} (ho : offset < p.capacity) :
    p.slotAt offset = offset := by
  rw [slotAt, hh, Nat.zero_add, Nat.mod_eq_of_lt ho]

theorem offsetOf_of_head (hh : p.head = 0) {slot : Nat} (hs : slot < p.capacity) :
    p.offsetOf slot = slot := by
  rw [offsetOf, hh, Nat.sub_zero, Nat.add_mod_right, Nat.mod_eq_of_lt hs]

theorem mem_queuedSlots (hh : p.head < p.capacity) {slot : Nat} (hs : slot < p.capacity)
    (hq : p.offsetOf slot < p.queued) : slot ∈ p.queuedSlots :=
  List.mem_map.mpr ⟨p.offsetOf slot, List.mem_range.mpr hq, slotAt_offsetOf hh hs⟩

/-- One place before a slot of the ring lies the slot of the offset before. -/
theorem slotAt_pred (hh : p.head < p.capacity) {offset : Nat} (ho : offset + 1 < p.capacity) :
    (p.slotAt (offset + 1) + p.capacity - 1) % p.capacity = p.slotAt offset := by
  have h₁ := slotAt_eq hh (Nat.le_of_lt ho)
  have h₀ := slotAt_eq hh (Nat.le_of_lt (Nat.lt_of_succ_lt ho))
  have hlt : p.slotAt offset < p.capacity := slotAt_lt (by omega) offset
  by_cases hz : p.slotAt (offset + 1) = 0
  · -- the last slot comes before slot zero
    rw [hz, Nat.zero_add, Nat.mod_eq_of_lt (by omega)]
    split at h₀ <;> split at h₁ <;> omega
  · have hlt' : p.slotAt (offset + 1) < p.capacity := slotAt_lt (by omega) (offset + 1)
    rw [Nat.mod_eq_sub_mod (by omega), Nat.mod_eq_of_lt (by omega)]
    split at h₀ <;> split at h₁ <;> omega

/-! ## Addresses -/

theorem slotOf_addressOf {slot : Nat} (hs : slot < p.capacity) :
    p.slotOf (p.addressOf slot) = some slot := by
  unfold slotOf addressOf
  simp [Descriptor.size, hs]

theorem addressAt_inj (hh : p.head < p.capacity) {o o' : Nat} (ho : o < p.capacity)
    (ho' : o' < p.capacity) (h : p.addressAt o = p.addressAt o') : o = o' := by
  have hs : p.slotAt o = p.slotAt o' := by
    simp only [addressAt, addressOf, Descriptor.size] at h
    omega
  exact slotAt_inj hh ho ho' hs

theorem addressAt_of_head (hh : p.head = 0) {offset : Nat} (ho : offset < p.capacity) :
    p.addressAt offset = p.addressOf offset := by
  rw [addressAt, slotAt_of_head hh ho]

/-! ## Retiring -/

theorem queued_retire {count : Nat} (hc : count ≤ p.queued) :
    (p.retire count).queued = p.queued - count := by
  rw [retire, Nat.min_eq_left hc]

theorem retire_zero (hh : p.head < p.capacity) : p.retire 0 = p := by
  simp [retire, Nat.mod_eq_of_lt hh]

theorem slotAt_retire {count : Nat} (hc : count ≤ p.queued) (offset : Nat) :
    (p.retire count).slotAt offset = p.slotAt (count + offset) := by
  simp only [slotAt, retire, Nat.min_eq_left hc]
  rw [Nat.mod_add_mod, Nat.add_assoc]

/-- Retiring blocks moves the head, and the blocks that are left keep their descriptors. -/
theorem addressAt_retire {count : Nat} (hc : count ≤ p.queued) (offset : Nat) :
    (p.retire count).addressAt offset = p.addressAt (count + offset) := by
  rw [addressAt, slotAt_retire hc]
  rfl

theorem offsetOf_retire (hh : p.head < p.capacity) {count slot : Nat} (hc : count ≤ p.queued)
    (hs : slot < p.capacity) (ho : count ≤ p.offsetOf slot) :
    (p.retire count).offsetOf slot = p.offsetOf slot - count := by
  have hlt := offsetOf_lt (p := p) (by omega) slot
  -- the slot is found at the lower offset from the new head
  have hslot : (p.retire count).slotAt (p.offsetOf slot - count) = slot := by
    rw [slotAt_retire hc, Nat.add_sub_cancel' ho, slotAt_offsetOf hh hs]
  have hlt' : p.offsetOf slot - count < (p.retire count).capacity :=
    show p.offsetOf slot - count < p.capacity by omega
  have hinv := offsetOf_slotAt (p := p.retire count) (Nat.mod_lt _ (by omega)) hlt'
  rwa [hslot] at hinv

namespace Sits

theorem hasCell (h : p.Sits t) {slot : Nat} (hs : slot < p.capacity) :
    t.HasCell (p.addressOf slot) := by
  obtain ⟨cell, hbase, hrow⟩ := h.row
  refine ⟨cell + slot, by omega, ?_⟩
  simp only [addressOf, hbase, DescriptorTable.address, Descriptor.size]
  omega

theorem hasCell_at (h : p.Sits t) (offset : Nat) : t.HasCell (p.addressAt offset) :=
  h.hasCell (slotAt_lt h.capacity_pos offset)

theorem addressAt_ne_zero (h : p.Sits t) (offset : Nat) : p.addressAt offset ≠ 0 :=
  (h.hasCell_at offset).ne_zero

/-- Address zero stands for the end of a chain, and is no descriptor's. -/
theorem slotOf_zero (h : p.Sits t) : p.slotOf 0 = none := by
  obtain ⟨cell, hbase, -⟩ := h.row
  have hpos : 0 < p.base := by
    have := DescriptorTable.address_ne_zero cell
    omega
  simp [slotOf, hpos]

theorem retire (h : p.Sits t) (count : Nat) : (p.retire count).Sits t :=
  ⟨h.capacity_pos, Nat.mod_lt _ h.capacity_pos,
    Nat.le_trans (Nat.sub_le ..) h.queued_le, h.row⟩

theorem reset (h : p.Sits t) : p.reset.Sits t :=
  ⟨h.capacity_pos, h.capacity_pos, Nat.zero_le _, h.row⟩

theorem room (h : p.Sits t) (hfull : p.isFull = false) : p.queued < p.capacity := by
  have hle := h.queued_le
  have hne : p.queued ≠ p.capacity := by simpa [isFull] using hfull
  omega

theorem mono {t' : DescriptorTable} (h : p.Sits t) (ht : t.cells.size ≤ t'.cells.size) :
    p.Sits t' := by
  obtain ⟨cell, hbase, hrow⟩ := h.row
  exact ⟨h.capacity_pos, h.head_lt, h.queued_le, cell, hbase, by omega⟩

end Sits

end Pool

end ScatterGather
