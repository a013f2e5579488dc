import ScatterGather.Proofs.Checked

/-!
# ScatterGather.Proofs.Naming — the three names of a descriptor agree

A descriptor of a pool goes by the slot that it lies in, by its offset from the head, and by its
address. Drivers hand slots to a controller as addresses and get addresses back; they look those up
and turn the slot into an offset, which says how far the controller has come. `Pool.Named` is what
makes this sound: an address leads to the slot whose descriptor starts there and any other address
to none, slots and offsets of one turn lead to each other, and the queued slots are those of the
lowest offsets.

An address may be any number: it may lie before the row, behind it, or inside a descriptor. No step
of a look-up fails on it (`slotOf?_eq`).
-/

namespace ScatterGather

namespace Pool

variable {p : Pool}

/-! ## Addresses and slots -/

/-- An address that lies before the row is turned away before any distance is taken. -/
theorem slotOf_of_lt {address : Nat} (h : address < p.base) : p.slotOf address = none :=
  if_pos h

/-- An address leads to the slot whose descriptor starts there. -/
theorem slotOf_eq_some_iff {address slot : Nat} :
    p.slotOf address = some slot ↔ slot < p.capacity ∧ address = p.addressOf slot := by
  constructor
  · intro h
    by_cases hbefore : address < p.base
    · exact nomatch (slotOf_of_lt hbefore).symm.trans h
    · unfold slotOf at h
      rw [if_neg hbefore] at h
      by_cases hoff : (address - p.base) % Descriptor.size ≠ 0 ∨
          p.capacity ≤ (address - p.base) / Descriptor.size
      · exact nomatch (if_pos hoff).symm.trans h
      · obtain rfl := Option.some.inj ((if_neg hoff).symm.trans h)
        simp only [addressOf, Descriptor.size] at *
        omega
  · rintro ⟨hslot, rfl⟩
    exact slotOf_addressOf hslot

/-- An address at which no descriptor of the row starts leads nowhere. -/
theorem slotOf_eq_none_iff {address : Nat} :
    p.slotOf address = none ↔ ∀ slot < p.capacity, address ≠ p.addressOf slot := by
  rw [Option.eq_none_iff_forall_ne_some]
  constructor
  · intro h slot hslot haddress
    exact h slot (slotOf_eq_some_iff.mpr ⟨hslot, haddress⟩)
  · intro h slot hfound
    obtain ⟨hslot, haddress⟩ := slotOf_eq_some_iff.mp hfound
    exact h slot hslot haddress

/-- Looks an address up, and looks before every step that can fail. -/
def slotOf? (p : Pool) (address : Nat) : Option (Option Nat) :=
  if address < p.base then pure none
  else do
    let span ← minus? address p.base
    let rest ← rem? span Descriptor.size
    let slot ← quot? span Descriptor.size
    pure (if rest ≠ 0 ∨ p.capacity ≤ slot then none else some slot)

theorem slotOf?_eq (p : Pool) (address : Nat) : p.slotOf? address = some (p.slotOf address) := by
  have hpos : 0 < Descriptor.size := by decide
  unfold slotOf?
  by_cases hbefore : address < p.base
  · rw [if_pos hbefore, slotOf_of_lt hbefore]
    rfl
  · unfold slotOf
    rw [if_neg hbefore, if_neg hbefore, minus?_of_le (Nat.not_lt.mp hbefore)]
    simp only [rem?_of_pos hpos, quot?_of_pos hpos, Option.bind_eq_bind, Option.bind_some,
      Option.pure_def]

/-! ## Queued slots -/

theorem offsetOf_of_mem_queuedSlots (hh : p.head < p.capacity) (hq : p.queued ≤ p.capacity)
    {slot : Nat} (h : slot ∈ p.queuedSlots) : p.offsetOf slot < p.queued := by
  obtain ⟨offset, hoffset, rfl⟩ := List.mem_map.mp h
  have hlt := List.mem_range.mp hoffset
  rwa [offsetOf_slotAt hh (Nat.lt_of_lt_of_le hlt hq)]

/-! ## Agreement -/

/-- The names of the descriptors of a pool agree. -/
structure Named (p : Pool) : Prop where
  /-- An address leads to the slot whose descriptor starts there, -/
  found : ∀ address slot,
    p.slotOf address = some slot ↔ slot < p.capacity ∧ address = p.addressOf slot
  /-- and to none if there is no such slot. -/
  missing : ∀ address, p.slotOf address = none ↔ ∀ slot < p.capacity, address ≠ p.addressOf slot
  /-- No step of a look-up fails, whatever the address. -/
  looked_up : ∀ address, p.slotOf? address = some (p.slotOf address)
  /-- Nor does one of the steps to an offset or to a slot. -/
  computed : ∀ slot offset, p.offsetOf? slot = some (p.offsetOf slot) ∧
    p.slotAt? offset = some (p.slotAt offset)
  /-- The offset of a slot lies within one turn, and leads back to the slot and its descriptor. -/
  there_and_back : ∀ slot < p.capacity, p.offsetOf slot < p.capacity ∧
    p.slotAt (p.offsetOf slot) = slot ∧ p.addressAt (p.offsetOf slot) = p.addressOf slot
  /-- The descriptor at an offset lies in a slot that leads back to the offset. -/
  back_and_there : ∀ offset < p.capacity, p.offsetOf (p.slotAt offset) = offset ∧
    p.slotOf (p.addressAt offset) = some (p.slotAt offset)
  /-- The queued slots are those whose offset is below the number of queued blocks. -/
  queued : ∀ slot < p.capacity, slot ∈ p.queuedSlots ↔ p.offsetOf slot < p.queued

/-- **Slots, offsets and addresses name each other**, wherever the row lies and the head stands. -/
theorem names_agree (hh : p.head < p.capacity) (hq : p.queued ≤ p.capacity) : p.Named where
  found _ _ := slotOf_eq_some_iff
  missing _ := slotOf_eq_none_iff
  looked_up := p.slotOf?_eq
  computed slot offset := ⟨offsetOf?_eq hh slot, slotAt?_eq (by omega) offset⟩
  there_and_back slot hslot := by
    have hback := slotAt_offsetOf hh hslot
    exact ⟨offsetOf_lt (by omega) slot, hback, congrArg p.addressOf hback⟩
  back_and_there offset hoffset :=
    ⟨offsetOf_slotAt hh hoffset, slotOf_addressOf (slotAt_lt (by omega) offset)⟩
  queued _ hslot := ⟨offsetOf_of_mem_queuedSlots hh hq, mem_queuedSlots hh hslot⟩

/-- In a row of four with the head at its last slot and three blocks queued, the slots past the end
of the row come first again. The addresses one byte and one descriptor too high lead nowhere. -/
theorem names_agree_wrapped :
    let p : Pool := { base := 96, capacity := 4, head := 3, queued := 3 }
    p.Named ∧ p.queuedSlots = [3, 0, 1] ∧ p.offsetOf 1 = 2 ∧ p.addressAt 2 = 128 ∧
      p.slotOf 128 = some 1 ∧ p.slotOf 129 = none ∧ p.slotOf 224 = none ∧ p.slotOf 64 = none := by
  intro p
  exact ⟨names_agree (by decide) (by decide), by decide⟩

end Pool

end ScatterGather
