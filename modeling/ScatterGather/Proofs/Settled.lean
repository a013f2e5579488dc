import ScatterGather.Proofs.Tenancy

/-!
# ScatterGather.Proofs.Settled — every command leaves the streams of a bench in order

The streams of a bench live on its objects and in its slots (`Bench.tenants`). A bench is `Settled`
when they get along, in the sense of `Tenancy`. Every command keeps it so, and so does everything
that a command sets off: events that reach slots through chains of handlers, what happens during a
wait, streams that are moved between objects and slots, and objects that are dropped.
-/

namespace ScatterGather

namespace Bench

variable {given : List OwnerId} {issued : Nat} {b : Bench} {i : Nat}

/-- The streams of a bench. -/
def tenants (b : Bench) : Seating
  | .object i => (b.object? i).bind Object.ownStream?
  | .slot i => (b.slot? i).bind Slot.stream?

/-- The streams of a bench get along. -/
def Settled (given : List OwnerId) (issued : Nat) (b : Bench) : Prop :=
  Tenancy given issued b.tenants b.machine

/-! ## Places -/

theorem object?_lt {o : Object} (h : b.object? i = some o) : i < b.objects.size := by
  by_cases hi : i < b.objects.size
  · exact hi
  · simp [object?, Array.getD_eq_getD_getElem?, hi] at h

theorem slot?_lt {s : Slot} (h : b.slot? i = some s) : i < b.slots.size := by
  by_cases hi : i < b.slots.size
  · exact hi
  · simp [slot?, Array.getD_eq_getD_getElem?, hi] at h

theorem object?_setObject (b : Bench) (i : Nat) (o : Option Object) (j : Nat) :
    (b.setObject i o).object? j = if i = j ∧ i < b.objects.size then o else b.object? j := by
  simp only [object?, setObject, Array.getD_eq_getD_getElem?, Array.getElem?_setIfInBounds]
  by_cases hij : i = j
  · subst hij
    by_cases hi : i < b.objects.size <;> simp [hi]
  · simp [hij]

theorem slot?_setSlot (b : Bench) (i : Nat) (s : Slot) (j : Nat) :
    (b.setSlot i s).slot? j = if i = j ∧ i < b.slots.size then some s else b.slot? j := by
  simp only [slot?, setSlot, Array.getD_eq_getD_getElem?, Array.getElem?_setIfInBounds]
  by_cases hij : i = j
  · subst hij
    by_cases hi : i < b.slots.size <;> simp [hi]
  · simp [hij]

theorem tenants_setObject (hi : i < b.objects.size) (o : Option Object) :
    (b.setObject i o).tenants = b.tenants.set (.object i) (o.bind Object.ownStream?) := by
  funext x
  cases x with
  | object j =>
    show ((b.setObject i o).object? j).bind Object.ownStream? = _
    rw [object?_setObject]
    by_cases hij : i = j
    · simp [hij, hij ▸ hi]
    · rw [if_neg (fun h => hij h.1), Seating.set_of_ne (by simpa using Ne.symm hij)]
      rfl
  | slot j =>
    have hne : Seat.slot j ≠ .object i := by simp
    rw [Seating.set_of_ne hne]
    rfl

theorem tenants_setSlot (hi : i < b.slots.size) (s : Slot) :
    (b.setSlot i s).tenants = b.tenants.set (.slot i) s.stream? := by
  funext x
  cases x with
  | object j =>
    have hne : Seat.object j ≠ .slot i := by simp
    rw [Seating.set_of_ne hne]
    rfl
  | slot j =>
    show ((b.setSlot i s).slot? j).bind Slot.stream? = _
    rw [slot?_setSlot]
    by_cases hij : i = j
    · simp [hij, hij ▸ hi]
    · rw [if_neg (fun h => hij h.1), Seating.set_of_ne (by simpa using Ne.symm hij)]
      rfl

theorem tenants_of_le (hi : b.objects.size ≤ i) : b.tenants (.object i) = none := by
  simp [tenants, object?, Array.getD_eq_getD_getElem?, hi]

theorem tenants_slot_of_le (hi : b.slots.size ≤ i) : b.tenants (.slot i) = none := by
  simp [tenants, slot?, Array.getD_eq_getD_getElem?, hi]

theorem setObject_of_le (hi : b.objects.size ≤ i) (o : Option Object) : b.setObject i o = b := by
  unfold setObject
  rw [Array.setIfInBounds, dif_neg (Nat.not_lt.mpr hi)]

theorem tenants_object {o : Object} (h : b.object? i = some o) :
    b.tenants (.object i) = o.ownStream? := by
  show (b.object? i).bind _ = _
  rw [h]
  rfl

theorem tenants_slot {s : Slot} (h : b.slot? i = some s) : b.tenants (.slot i) = s.stream? := by
  show (b.slot? i).bind _ = _
  rw [h]
  rfl

namespace Settled

/-! ## The machine alone -/

theorem undisturbed (h : b.Settled given issued) {machine : Machine}
    (hm : b.machine.Undisturbed machine) : Settled given issued { b with machine } :=
  Tenancy.undisturbed h hm

theorem drift (h : b.Settled given issued) {machine : Machine} {j : Nat}
    (hd : Machine.Drift j b.machine machine) : Settled given issued { b with machine } :=
  Tenancy.drift h hd

theorem tell (h : b.Settled given issued) (r : Report) : (b.tell r).Settled given issued :=
  h.undisturbed ⟨rfl, rfl, fun _ => rfl, fun _ => rfl⟩

theorem measure (h : b.Settled given issued) : b.measure.Settled given issued :=
  h.undisturbed ⟨rfl, rfl, fun _ => rfl, fun _ => rfl⟩

theorem runController (h : b.Settled given issued) (hw : Hardware) (patience : Nat) :
    (b.runController hw patience).2.Settled given issued := by
  cases hw with
  | controller j => exact h.drift (b.machine.drift_runWithin j patience)
  | window j => exact h

/-! ## Driver code -/

/-- The stream of an object is tended to. -/
theorem tendObject (h : b.Settled given issued) {o o' : Object} {s s' : Stream} {machine : Machine}
    (ho : b.object? i = some o) (hs : o.ownStream? = some s) (ht : s.Tended b.machine s' machine)
    (ho' : o'.ownStream? = some s') :
    Settled given issued ({ b with machine }.setObject i (some o')) := by
  have hx : b.tenants (.object i) = some s := (tenants_object ho).trans hs
  show Tenancy given issued (b.setObject i (some o')).tenants machine
  rw [tenants_setObject (object?_lt ho), Option.bind_some, ho']
  exact Tenancy.tend h hx ht

/-- The stream in a slot is tended to. -/
theorem tendSlot (h : b.Settled given issued) {slot slot' : Slot} {s s' : Stream}
    {machine : Machine} (hslot : b.slot? i = some slot) (hs : slot.stream? = some s)
    (ht : s.Tended b.machine s' machine) (hs' : slot'.stream? = some s') :
    Settled given issued ({ b with machine }.setSlot i slot') := by
  have hx : b.tenants (.slot i) = some s := (tenants_slot hslot).trans hs
  show Tenancy given issued (b.setSlot i slot').tenants machine
  rw [tenants_setSlot (slot?_lt hslot), hs']
  exact Tenancy.tend h hx ht

end Settled

/-! ## Code that uses a slot -/

/-- A slot that is used apart from its bench, with the machine, is in order among the rest. -/
def SlotSettled (given : List OwnerId) (issued : Nat) (live : Seating) (i : Nat)
    (p : Slot × Machine) : Prop :=
  Tenancy given issued (live.set (.slot i) p.1.stream?) p.2

namespace SlotSettled

variable {live : Seating} {p : Slot × Machine}

theorem answer (h : SlotSettled given issued live i p) (a : SlotAccess) :
    SlotSettled given issued live i (Slot.answer a p).2 := by
  obtain ⟨s, m⟩ := p
  cases a with
  | deliver event =>
    show SlotSettled given issued live i (s.deliver m event)
    unfold Slot.deliver
    cases henter : s.cell.enter? with
    | none => exact h
    | some cell =>
      have hvalue : cell.value = s.stream? := Cell.value_of_enter? henter
      dsimp only
      cases hstream : cell.value with
      | none => exact h
      | some stream =>
        have hx : live.set (.slot i) s.stream? (.slot i) = some stream := by
          rw [Seating.set_self, ← hvalue, hstream]
        have ht := (Stream.tends_onInterrupt event m (Tenancy.housed h _ _ hx).seated).2
        have htend := Tenancy.tend h hx ht
        rw [Seating.set_set] at htend
        show Tenancy given issued (live.set (.slot i) (Cell.leave _).value) _
        rw [Cell.value_leave]
        exact htend
  | status | register | takeWaker | wake | delay => exact h

theorem exec (h : SlotSettled given issued live i p) {α : Type} (script : SlotScript α) :
    SlotSettled given issued live i (p.1.exec p.2 script).2 := by
  unfold Slot.exec
  induction script generalizing p with
  | done value => exact h
  | ask a next ih => exact ih _ (h.answer a)

end SlotSettled

namespace Settled

theorem withSlot (h : b.Settled given issued) {α : Type} (vacant : α)
    {act : Slot → Machine → α × (Slot × Machine)}
    (hact : ∀ s, b.slot? i = some s → SlotSettled given issued b.tenants i (s, b.machine) →
      SlotSettled given issued b.tenants i (act s b.machine).2) :
    (b.withSlot i vacant act).2.Settled given issued := by
  unfold Bench.withSlot
  cases hs : b.slot? i with
  | none => exact h
  | some s =>
    show Tenancy given issued (b.setSlot i (act s b.machine).2.1).tenants (act s b.machine).2.2
    rw [tenants_setSlot (slot?_lt hs)]
    apply hact s hs
    show Tenancy given issued (b.tenants.set (.slot i) s.stream?) b.machine
    rw [Seating.set_eq_self (tenants_slot hs)]
    exact h

theorem arrive (h : b.Settled given issued) (event : TransferEvent) :
    (b.arrive i event).Settled given issued :=
  h.withSlot () fun _ _ hs => hs.exec _

/-! ## Events -/

theorem dispatchWithin (h : b.Settled given issued) (event : TransferEvent)
    (relays channel : Nat) :
    (Bench.dispatchWithin event relays channel b).2.Settled given issued := by
  induction relays generalizing channel b with
  | zero => exact h
  | succ relays ih =>
    unfold Bench.dispatchWithin
    cases hhandler : b.handlers.lookup channel with
    | none => exact h
    | some handler =>
      cases handler with
      | slot i => exact h.arrive event
      | log name => exact h.tell _
      | relay source target => exact (ih h target).tell _

theorem dispatch (h : b.Settled given issued) (channel : Nat) (event : TransferEvent) :
    (b.dispatch channel event).2.Settled given issued :=
  h.dispatchWithin event _ channel

end Settled

/-! ## Dropping -/

/-- The machine after whoever has a seat, if anybody, was dropped. -/
def without (b : Bench) (x : Seat) : Machine :=
  (b.tenants x).elim b.machine fun s => (b.machine.exec s.channel.hardware s.releaseIfBound).2

theorem letGo_eq (b : Bench) (i : Nat) :
    (b.letGo i).tenants = b.tenants.set (.object i) none ∧
      (b.letGo i).machine = b.without (.object i) := by
  unfold without
  cases ho : b.object? i with
  | none =>
    have hx : b.tenants (.object i) = none := by
      show (b.object? i).bind _ = _
      rw [ho]
      rfl
    have hgone : b.letGo i = b := by simp only [letGo, ho]
    rw [hgone, hx, Seating.set_eq_self hx]
    exact ⟨rfl, rfl⟩
  | some o =>
    rw [tenants_object ho]
    simp only [letGo, ho]
    cases o.ownStream? <;> exact ⟨tenants_setObject (object?_lt ho) none, rfl⟩

theorem letGo_of_le (hi : b.objects.size ≤ i) : b.letGo i = b := by
  unfold letGo object?
  simp [Array.getD_eq_getD_getElem?, hi]

@[simp] theorem size_letGo (b : Bench) (i : Nat) : (b.letGo i).objects.size = b.objects.size := by
  unfold letGo
  cases b.object? i with
  | none => rfl
  | some o =>
    dsimp only
    cases o.ownStream? <;> simp [setObject, dropStream, Bench.exec]

theorem emptySlot_eq (b : Bench) (i : Nat) :
    (b.emptySlot i).tenants = b.tenants.set (.slot i) none ∧
      (b.emptySlot i).machine = b.without (.slot i) := by
  unfold without
  cases hs : b.slot? i with
  | none =>
    have hx : b.tenants (.slot i) = none := by
      show (b.slot? i).bind _ = _
      rw [hs]
      rfl
    have hempty : b.emptySlot i = b := by simp only [emptySlot, hs]
    rw [hempty, hx, Seating.set_eq_self hx]
    exact ⟨rfl, rfl⟩
  | some s =>
    rw [tenants_slot hs]
    simp only [emptySlot, hs]
    cases s.stream? <;> exact ⟨tenants_setSlot (slot?_lt hs) _, rfl⟩

/-- An object that is dropped leaves its own seat empty, and if it is a slot the slot's as well. -/
theorem tenants_dropObject (b : Bench) (i : Nat) (x : Seat) :
    (b.dropObject i).tenants x =
      if x = .object i ∨ x = .slot i ∧ b.hasSlot i = true then none else b.tenants x := by
  unfold dropObject
  rw [(letGo_eq _ i).1]
  by_cases hx : x = .object i
  · subst hx
    rw [Seating.set_self, if_pos (Or.inl rfl)]
  · rw [Seating.set_of_ne hx]
    cases hslot : b.hasSlot i with
    | false => simp [hx]
    | true =>
      rw [if_pos rfl, (b.emptySlot_eq i).1]
      by_cases hx' : x = .slot i
      · subst hx'
        rw [Seating.set_self, if_pos (Or.inr ⟨rfl, rfl⟩)]
      · rw [Seating.set_of_ne hx', if_neg (by simp [hx, hx'])]

namespace Settled

theorem letGo (h : b.Settled given issued) (i : Nat) : (b.letGo i).Settled given issued := by
  unfold Settled
  rw [(b.letGo_eq i).1, (b.letGo_eq i).2]
  exact Tenancy.vacate h _

theorem emptySlot (h : b.Settled given issued) (i : Nat) :
    (b.emptySlot i).Settled given issued := by
  unfold Settled
  rw [(b.emptySlot_eq i).1, (b.emptySlot_eq i).2]
  exact Tenancy.vacate h _

theorem dropObject (h : b.Settled given issued) (i : Nat) :
    (b.dropObject i).Settled given issued := by
  unfold Bench.dropObject
  split
  · exact (h.emptySlot i).letGo i
  · exact h.letGo i

/-- An object takes the place of another, whose name is given up first. -/
theorem replaceObject {o : Object}
    (h : Tenancy given issued (b.tenants.set (.object i) o.ownStream?) (b.without (.object i)))
    (hi : i < b.objects.size) : Settled given issued ((b.letGo i).setObject i (some o)) := by
  have hsize : i < (b.letGo i).objects.size := by simpa using hi
  show Tenancy given issued ((b.letGo i).setObject i (some o)).tenants (b.letGo i).machine
  rw [tenants_setObject hsize, (b.letGo_eq i).1, (b.letGo_eq i).2, Seating.set_set]
  exact h

end Settled

end Bench

end ScatterGather
