import ScatterGather.Proofs.Block
import ScatterGather.Proofs.Geometry
import ScatterGather.Proofs.Scene

/-!
# ScatterGather.Proofs.Chain — what linking and arming do to the descriptors of a queue

A chain is written while a controller may be walking it, one field at a time. This module says what
each of the three writers has done once it is through: `pushed` for a new block, `relinked` for the
links of the whole queue, `rearmed` for its interrupt flags. None touches a descriptor outside the
queue and the slot being filled, and the last two leave every body as it was.

`Pool.Linked` is the shape that a controller relies on, each queued descriptor leading to the next.
`DescriptorTable.LeadsTo` is the controller's own view, the descriptors that it can still come to;
from inside a linked queue it never leaves the queue (`Pool.Linked.leadsTo_queued`).
-/

namespace ScatterGather

namespace DescriptorTable

variable {t : DescriptorTable}

theorem read_write (t : DescriptorTable) {a : Nat} (h : t.HasCell a) (b : Nat)
    (w : Descriptor.Write) :
    (t.write a w).read b = if b = a then (t.read a).apply w else t.read b := by
  obtain ⟨cell, hcell, rfl⟩ := h
  split
  · next hb => rw [hb, read_write_self t hcell]
  · next hb => exact read_write_of_ne t (Ne.symm hb) w

theorem HasCell.write {a b : Nat} (h : t.HasCell a) (w : Descriptor.Write) :
    (t.write b w).HasCell a := by
  obtain ⟨cell, hcell, rfl⟩ := h
  exact ⟨cell, by rwa [size_write], rfl⟩

/-! ## Arming one descriptor -/

/-- Switches the completion interrupt of the descriptor at an address. -/
def arm (t : DescriptorTable) (a : Nat) (on : Bool) : DescriptorTable :=
  t.write a (.control (Descriptor.armed (t.read a).control on))

theorem read_arm (t : DescriptorTable) {a : Nat} (h : t.HasCell a) (on : Bool) (b : Nat) :
    (t.arm a on).read b =
      if b = a then { t.read a with control := Descriptor.armed (t.read a).control on }
      else t.read b :=
  read_write t h b _

theorem next_arm (t : DescriptorTable) {a : Nat} (h : t.HasCell a) (on : Bool) (b : Nat) :
    ((t.arm a on).read b).next = (t.read b).next := by
  rw [read_arm t h]
  split
  · next hb => rw [hb]
  · rfl

theorem body_arm (t : DescriptorTable) {a : Nat} (h : t.HasCell a) (on : Bool) (b : Nat) :
    ((t.arm a on).read b).body = (t.read b).body := by
  rw [read_arm t h]
  split
  · next hb => rw [hb]; exact Descriptor.body_arm ..
  · rfl

/-! ## Several writes to one descriptor -/

/-- Makes writes to one descriptor, in order. -/
def writeAll (t : DescriptorTable) (a : Nat) (ws : List Descriptor.Write) : DescriptorTable :=
  ws.foldl (fun t w => t.write a w) t

theorem size_writeAll (t : DescriptorTable) (a : Nat) (ws : List Descriptor.Write) :
    (t.writeAll a ws).cells.size = t.cells.size := by
  induction ws generalizing t with
  | nil => rfl
  | cons w ws ih => exact (ih (t.write a w)).trans (size_write t a w)

theorem HasCell.writeAll {a b : Nat} (h : t.HasCell a) (ws : List Descriptor.Write) :
    (t.writeAll b ws).HasCell a := by
  obtain ⟨cell, hcell, rfl⟩ := h
  exact ⟨cell, by rwa [size_writeAll], rfl⟩

theorem read_writeAll (t : DescriptorTable) {a : Nat} (h : t.HasCell a) (b : Nat)
    (ws : List Descriptor.Write) :
    (t.writeAll a ws).read b =
      if b = a then ws.foldl Descriptor.apply (t.read a) else t.read b := by
  induction ws generalizing t with
  | nil =>
    split
    · next hb => rw [hb]; rfl
    · rfl
  | cons w ws ih =>
    show ((t.write a w).writeAll a ws).read b = _
    rw [ih _ (h.write w), read_write t h, read_write t h, if_pos rfl]
    split <;> rfl

/-! ## Rewriting a row of descriptors -/

/-- Rewrites the descriptors at a row of addresses one after another, each by a write that may
depend on what it finds. -/
def updateEach (t : DescriptorTable) (addressOf : Nat → Nat)
    (w : Nat → Descriptor → Descriptor.Write) : (first count : Nat) → DescriptorTable
  | _, 0 => t
  | first, count + 1 =>
    (t.write (addressOf first) (w first (t.read (addressOf first)))).updateEach addressOf w
      (first + 1) count

section UpdateEach

variable (addressOf : Nat → Nat) (w : Nat → Descriptor → Descriptor.Write)

@[simp] theorem size_updateEach (t : DescriptorTable) (first count : Nat) :
    (t.updateEach addressOf w first count).cells.size = t.cells.size := by
  induction count generalizing t first with
  | zero => rfl
  | succ count ih => rw [updateEach, ih, size_write]

theorem read_updateEach_of_ne (t : DescriptorTable) (first count : Nat) {a : Nat}
    (ha : ∀ o, first ≤ o → o < first + count → addressOf o ≠ a) :
    (t.updateEach addressOf w first count).read a = t.read a := by
  induction count generalizing t first with
  | zero => rfl
  | succ count ih =>
    rw [updateEach, ih _ _ fun o h₁ h₂ => ha o (by omega) (by omega)]
    exact read_write_of_ne t (ha first (by omega) (by omega)) _

/-- Each descriptor of the row is rewritten once, whatever was written before it. -/
theorem read_updateEach (t : DescriptorTable) (first count : Nat)
    (hcell : ∀ o, first ≤ o → o < first + count → t.HasCell (addressOf o))
    (hinj : ∀ o o', first ≤ o → o < first + count → first ≤ o' → o' < first + count →
      addressOf o = addressOf o' → o = o')
    {offset : Nat} (h₁ : first ≤ offset) (h₂ : offset < first + count) :
    (t.updateEach addressOf w first count).read (addressOf offset) =
      (t.read (addressOf offset)).apply (w offset (t.read (addressOf offset))) := by
  induction count generalizing t first with
  | zero => omega
  | succ count ih =>
    rw [updateEach]
    by_cases ho : offset = first
    · -- no later write comes back to this descriptor
      subst ho
      rw [read_updateEach_of_ne]
      · rw [read_write t (hcell offset h₁ h₂), if_pos rfl]
      · intro o ho₁ ho₂ heq
        have := hinj o offset (by omega) (by omega) h₁ h₂ heq
        omega
    · have hne : addressOf offset ≠ addressOf first := by
        intro heq
        exact ho (hinj offset first h₁ h₂ (by omega) (by omega) heq)
      rw [ih _ (first + 1) (fun o ho₁ ho₂ => (hcell o (by omega) (by omega)).write _)
        (fun o o' a b c d => hinj o o' (by omega) (by omega) (by omega) (by omega))
        (by omega) (by omega)]
      rw [read_write t (hcell first (by omega) (by omega)), if_neg hne]

end UpdateEach

/-! ## Where a controller can still come to -/

/-- The descriptors that a controller at an address can still come to by following links. -/
inductive LeadsTo (t : DescriptorTable) : Nat → Nat → Prop
  | here (a : Nat) : LeadsTo t a a
  | next {a b : Nat} : a ≠ 0 → LeadsTo t (t.read a).next b → LeadsTo t a b

end DescriptorTable

/-- Driver code that rewrites one descriptor for each number rewrites a row of them. -/
theorem Scene.exec_forEach_update (addressOf : Nat → Nat)
    (w : Nat → Descriptor → Descriptor.Write) (body : Nat → DriverScript Unit)
    (hbody : ∀ (o : Nat) (v : Scene), v.exec (body o) = ((),
      { v with table := v.table.write (addressOf o) (w o (v.table.read (addressOf o))) }))
    (v : Scene) (first count : Nat) :
    v.exec (Script.forEach body first count) =
      ((), { v with table := v.table.updateEach addressOf w first count }) := by
  induction count generalizing v first with
  | zero => rfl
  | succ count ih =>
    rw [Script.forEach, exec_bind, hbody, ih]
    rfl

namespace Pool

variable {p : Pool} {t : DescriptorTable}

/-- The descriptor at the address is queued. -/
def Holds (p : Pool) (a : Nat) : Prop :=
  ∃ offset < p.queued, a = p.addressAt offset

/-- Every queued descriptor leads to the one behind it, and the last one to where the chain is to
go. -/
def Linked (p : Pool) (t : DescriptorTable) (closeLoop : Bool) : Prop :=
  ∀ offset < p.queued, (t.read (p.addressAt offset)).next = p.linkAt closeLoop offset

/-- A link of a linked queue stays in the queue, or ends the chain. -/
theorem Linked.next_queued {closeLoop : Bool} (h : p.Linked t closeLoop) {a : Nat}
    (ha : p.Holds a) : (t.read a).next = 0 ∨ p.Holds (t.read a).next := by
  obtain ⟨offset, ho, rfl⟩ := ha
  rw [h offset ho, linkAt]
  split
  · next hlt => exact .inr ⟨offset + 1, hlt, rfl⟩
  · split
    · exact .inr ⟨0, by omega, rfl⟩
    · exact .inl rfl

/-- A controller inside a linked queue never leaves the queue. -/
theorem Linked.leadsTo_queued {closeLoop : Bool} (h : p.Linked t closeLoop) {a b : Nat}
    (ha : a = 0 ∨ p.Holds a) (hl : t.LeadsTo a b) : b = 0 ∨ p.Holds b := by
  -- on the steps of the controller
  induction hl with
  | here a => exact ha
  | @next a b hne _ ih => exact ih (h.next_queued (ha.resolve_left hne))

/-! ## Linking the whole queue -/

/-- The table after all links of the queue were written anew. -/
def relinked (p : Pool) (t : DescriptorTable) (closeLoop : Bool) : DescriptorTable :=
  t.updateEach p.addressAt (fun offset _ => .next (p.linkAt closeLoop offset)) 0 p.queued

theorem exec_relink (v : Scene) (p : Pool) (closeLoop : Bool) :
    v.exec (p.relink closeLoop) = ((), { v with table := p.relinked v.table closeLoop }) :=
  Scene.exec_forEach_update p.addressAt (fun offset _ => .next (p.linkAt closeLoop offset)) _
    (fun _ _ => rfl) v 0 p.queued

/-- What a rewriting of the queue does to each of its descriptors. -/
theorem Sits.read_updateEach (h : p.Sits t) (w : Nat → Descriptor → Descriptor.Write) {offset : Nat}
    (ho : offset < p.queued) :
    (t.updateEach p.addressAt w 0 p.queued).read (p.addressAt offset) =
      (t.read (p.addressAt offset)).apply (w offset (t.read (p.addressAt offset))) := by
  have hq := h.queued_le
  refine t.read_updateEach p.addressAt w 0 p.queued (fun o _ _ => h.hasCell_at o) ?_ (by omega)
    (by omega)
  intro o o' _ ho₁ _ ho₂ heq
  exact addressAt_inj h.head_lt (by omega) (by omega) heq

theorem Sits.relinked (h : p.Sits t) (closeLoop : Bool) : p.Sits (p.relinked t closeLoop) :=
  h.mono (Nat.le_of_eq (DescriptorTable.size_updateEach ..).symm)

theorem Sits.linked_relinked (h : p.Sits t) (closeLoop : Bool) :
    p.Linked (p.relinked t closeLoop) closeLoop := by
  intro offset ho
  rw [Pool.relinked, h.read_updateEach _ ho]
  rfl

/-- A rewriting of the queue by writes that keep bodies keeps the body of every descriptor, inside
the queue and outside. -/
theorem Sits.body_updateEach (h : p.Sits t) {w : Nat → Descriptor → Descriptor.Write}
    (hw : ∀ offset (d : Descriptor), (d.apply (w offset d)).body = d.body) (a : Nat) :
    ((t.updateEach p.addressAt w 0 p.queued).read a).body = (t.read a).body := by
  by_cases ha : ∃ offset < p.queued, p.addressAt offset = a
  · obtain ⟨offset, ho, rfl⟩ := ha
    rw [h.read_updateEach w ho, hw]
  · -- outside the queue nothing is written
    rw [DescriptorTable.read_updateEach_of_ne]
    intro o _ ho heq
    exact ha ⟨o, by omega, heq⟩

theorem Sits.body_relinked (h : p.Sits t) (closeLoop : Bool) (a : Nat) :
    ((p.relinked t closeLoop).read a).body = (t.read a).body := by
  have hlink (offset : Nat) (d : Descriptor) :
      (d.apply (.next (p.linkAt closeLoop offset))).body = d.body := d.body_link _
  exact h.body_updateEach hlink a

/-! ## Queueing one block -/

/-- The writes that fill the slot at the tail. A closed loop leads from it back to the head. -/
def entryWrites (p : Pool) (source destination : Nat) (control : UInt32) (closeLoop : Bool) :
    List Descriptor.Write :=
  Descriptor.program source destination control ++
    if closeLoop then [.next (p.addressAt 0)] else []

/-- The table after a block was queued at the tail. -/
def pushed (p : Pool) (t : DescriptorTable) (source destination : Nat) (control : UInt32)
    (closeLoop : Bool) : DescriptorTable :=
  let t := t.writeAll (p.addressAt p.queued) (p.entryWrites source destination control closeLoop)
  if p.queued = 0 then t
  else t.write (p.addressAt (p.queued - 1)) (.next (p.addressAt p.queued))

theorem exec_push (v : Scene) (p : Pool) (source destination : Nat) (control : UInt32)
    (closeLoop : Bool) :
    v.exec (p.push source destination control closeLoop) =
      if p.isFull then (none, v)
      else (some { p with queued := p.queued + 1 },
        { v with table := p.pushed v.table source destination control closeLoop }) := by
  unfold push pushed
  rw [Scene.exec_ite]
  split
  · rfl
  · rcases p with ⟨base, capacity, head, queued⟩
    cases queued <;> cases closeLoop <;> rfl

variable (source destination : Nat) (control : UInt32) (closeLoop : Bool)

theorem size_pushed :
    (p.pushed t source destination control closeLoop).cells.size = t.cells.size := by
  unfold pushed
  split
  · exact t.size_writeAll _ _
  · exact (DescriptorTable.size_write ..).trans (t.size_writeAll _ _)

theorem Sits.pushed (h : p.Sits t) : p.Sits (p.pushed t source destination control closeLoop) :=
  h.mono (Nat.le_of_eq (size_pushed ..).symm)

/-- The descriptor that the tail slot holds once it is filled. -/
def entry (p : Pool) : Descriptor :=
  { source, destination, control, next := if closeLoop then p.addressAt 0 else 0 }

theorem foldl_entryWrites (d : Descriptor) :
    (p.entryWrites source destination control closeLoop).foldl Descriptor.apply d =
      entry source destination control closeLoop p := by
  cases closeLoop <;> rfl

/-- What is found at any address after a block was queued: the new block in its slot, a link to it
in the block queued last, and no change anywhere else. -/
theorem Sits.read_pushed (h : p.Sits t) (hfull : p.queued < p.capacity) (a : Nat) :
    (p.pushed t source destination control closeLoop).read a =
      if a = p.addressAt p.queued then entry source destination control closeLoop p
      else if p.queued ≠ 0 ∧ a = p.addressAt (p.queued - 1) then
        { t.read a with next := p.addressAt p.queued }
      else t.read a := by
  have hentry := h.hasCell_at p.queued
  have hlast := h.hasCell_at (p.queued - 1)
  unfold Pool.pushed
  by_cases hq : p.queued = 0
  · -- the first block of a queue has no predecessor to link
    have hno : ¬(p.queued ≠ 0 ∧ a = p.addressAt (p.queued - 1)) := by
      intro hn
      exact hn.1 hq
    rw [if_pos hq, t.read_writeAll hentry, foldl_entryWrites, if_neg hno]
  · have hne : p.addressAt (p.queued - 1) ≠ p.addressAt p.queued := by
      intro heq
      have := addressAt_inj h.head_lt (by omega) hfull heq
      omega
    rw [if_neg hq, DescriptorTable.read_write _ (hlast.writeAll _), t.read_writeAll hentry,
      t.read_writeAll hentry, if_neg hne, foldl_entryWrites]
    by_cases ha : a = p.addressAt (p.queued - 1)
    · rw [if_pos ha, if_neg (ha ▸ hne), if_pos ⟨hq, ha⟩, ha]
      rfl
    · have hno : ¬(p.queued ≠ 0 ∧ a = p.addressAt (p.queued - 1)) := by
        intro hn
        exact ha hn.2
      rw [if_neg ha, if_neg hno]

/-- Between blocks that both stay inside the queue a link has to lead where it had to. -/
theorem linkAt_succ {offset : Nat} (ho : offset + 1 < p.queued) :
    linkAt { p with queued := p.queued + 1 } closeLoop offset = p.linkAt closeLoop offset := by
  rw [linkAt, linkAt, if_pos ho, if_pos (Nat.lt_succ_of_lt ho)]
  rfl

/-- Queueing writes the links of the new block and of the one before. -/
theorem Sits.next_pushed (h : p.Sits t) (hfull : p.queued < p.capacity) {offset : Nat}
    (ho : offset ≤ p.queued) :
    ((p.pushed t source destination control closeLoop).read (p.addressAt offset)).next =
      if offset + 1 < p.queued then (t.read (p.addressAt offset)).next
      else linkAt { p with queued := p.queued + 1 } closeLoop offset := by
  have hinj (o : Nat) (hlt : o ≤ p.queued) (heq : p.addressAt offset = p.addressAt o) :
      offset = o := addressAt_inj h.head_lt (by omega) (by omega) heq
  rw [h.read_pushed source destination control closeLoop hfull]
  by_cases hnew : offset = p.queued
  · have hend : ¬offset + 1 < p.queued + 1 := by omega
    rw [if_pos (by rw [hnew]), if_neg (by omega), linkAt, if_neg hend]
    rfl
  · have hlt : offset + 1 < p.queued + 1 := by omega
    rw [if_neg fun heq => hnew (hinj _ (Nat.le_refl _) heq)]
    by_cases hlast : offset + 1 = p.queued
    · -- the block queued last before now leads to the new one
      have hyes : p.queued ≠ 0 ∧ p.addressAt offset = p.addressAt (p.queued - 1) :=
        ⟨by omega, by rw [← hlast, Nat.add_sub_cancel]⟩
      rw [if_pos hyes, if_neg (by omega), linkAt, if_pos hlt, hlast]
      rfl
    · have hno : ¬(p.queued ≠ 0 ∧ p.addressAt offset = p.addressAt (p.queued - 1)) := by
        intro hn
        have := hinj _ (by omega) hn.2
        omega
      rw [if_neg hno, if_pos (by omega)]

/-- A queue that was linked is linked with the new block at its end. -/
theorem Linked.push (hl : p.Linked t closeLoop) (h : p.Sits t) (hfull : p.queued < p.capacity) :
    Linked { p with queued := p.queued + 1 } (p.pushed t source destination control closeLoop)
      closeLoop := by
  intro offset ho
  refine (h.next_pushed source destination control closeLoop hfull (Nat.le_of_lt_succ ho)).trans ?_
  split
  · next hlt => rw [hl offset (by omega), linkAt_succ closeLoop hlt]
  · rfl

end Pool

end ScatterGather
