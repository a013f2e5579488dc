import ScatterGather.Proofs.Footprint
import ScatterGather.Proofs.Operations

/-!
# ScatterGather.Proofs.Tenure — a stream among others

Many streams live on one machine, and some of them share a channel. This module says what an
operation of one of them may mean for the others. `Seated` is what holds of one stream at all times:
its flag and the ownership table agree, and while it is bound its controller walks inside a set of
its own descriptors that no link leads out of (`Fence`). `Tended` is what an operation may do: it
leaves the stream seated, touches no descriptor of another pool and no record of another owner, and
moves a controller only if nobody else holds the channel.

Nothing is assumed of what the accesses to the hardware answer. `Tends` says of a piece of driver
code that it does no more than that, and goes together along `bind`.
-/

namespace ScatterGather

/-! ## The ownership table -/

namespace Ownership

variable {t : Ownership} {channel : Nat} {owner : OwnerId}

theorem owner_set (hc : channel < maxChannels) (holder : Option OwnerId) (other : Nat) :
    ({ t with owners := t.owners.set channel holder } : Ownership).owner other =
      if other = channel then holder else t.owner other := by
  unfold Ownership.owner
  by_cases ho : other < maxChannels
  · rw [dif_pos ho, dif_pos ho]
    by_cases heq : other = channel
    · subst heq
      simp
    · rw [if_neg heq]
      exact Vector.getElem_set_ne hc ho (Ne.symm heq)
  · have hne : other ≠ channel := by omega
    rw [dif_neg ho, dif_neg ho, if_neg hne]

/-- What becomes of a claim. -/
theorem bind_cases (t : Ownership) (channel : Nat) (owner : OwnerId) :
    (∃ e, t.bind channel owner = (.error e, t)) ∨
    (∃ h : channel < maxChannels, t.owner channel = none ∧
      t.bind channel owner = (.ok (), { t with owners := t.owners.set channel (some owner) h })) ∨
    (t.owner channel = some owner ∧ t.bind channel owner = (.ok (), t)) := by
  unfold bind
  by_cases hc : channel < maxChannels
  · have hread : t.owner channel = t.owners[channel] := dif_pos hc
    rw [dif_pos hc]
    cases hholder : t.owners[channel] with
    | none => exact .inr (.inl ⟨hc, hread.trans hholder, rfl⟩)
    | some current =>
      by_cases hsame : current = owner
      · refine .inr (.inr ⟨?_, ?_⟩)
        · rw [hread, hholder, hsame]
        · simp [hsame]
      · exact .inl ⟨.dma .channelBusy, by simp [hsame]⟩
  · rw [dif_neg hc]
    exact .inl ⟨_, rfl⟩

/-- A claim that is refused changes nothing. -/
theorem bind_refused {e : Error} (h : (t.bind channel owner).1 = .error e) :
    (t.bind channel owner).2 = t := by
  rcases t.bind_cases channel owner with ⟨_, hb⟩ | ⟨_, _, hb⟩ | ⟨_, hb⟩
  · rw [hb]
  · rw [hb] at h
    cases h
  · rw [hb]

/-- A claim is granted on a channel that is free or held already, and is on record then. -/
theorem bind_granted (h : (t.bind channel owner).1 = .ok ()) :
    (t.owner channel = none ∨ t.owner channel = some owner) ∧
      (∀ other, (t.bind channel owner).2.owner other =
        if other = channel then some owner else t.owner other) := by
  rcases t.bind_cases channel owner with ⟨_, hb⟩ | ⟨hc, hnone, hb⟩ | ⟨hheld, hb⟩
  · rw [hb] at h
    cases h
  · rw [hb]
    exact ⟨.inl hnone, owner_set hc _⟩
  · rw [hb]
    refine ⟨.inr hheld, fun other => ?_⟩
    split
    · next heq => rw [heq, hheld]
    · rfl

/-- A claim leaves the records of other owners as they were. -/
theorem owner_bind_of_ne {o : OwnerId} (hne : o ≠ owner) (other : Nat) :
    (t.bind channel owner).2.owner other = some o ↔ t.owner other = some o := by
  rcases t.bind_cases channel owner with ⟨_, hb⟩ | ⟨hc, hnone, hb⟩ | ⟨_, hb⟩
  · rw [hb]
  · rw [hb, owner_set hc]
    by_cases heq : other = channel
    · simp [heq, hnone, Ne.symm hne]
    · rw [if_neg heq]
  · rw [hb]

theorem nextOwner_bind : (t.bind channel owner).2.nextOwner = t.nextOwner := by
  rcases t.bind_cases channel owner with ⟨_, hb⟩ | ⟨_, _, hb⟩ | ⟨_, hb⟩ <;> rw [hb]

/-- Giving a channel back takes the owner's own record away and no other. -/
theorem owner_release (other : Nat) :
    (t.release channel owner).2.owner other =
      if other = channel ∧ t.owner channel = some owner then none else t.owner other := by
  unfold release
  by_cases hc : channel < maxChannels
  · have hread : t.owner channel = t.owners[channel] := dif_pos hc
    rw [dif_pos hc, hread]
    by_cases hheld : t.owners[channel] = some owner
    · rw [if_pos hheld, owner_set hc]
      simp [hheld]
    · rw [if_neg hheld, if_neg (fun h => hheld h.2)]
  · have hread : t.owner channel = none := dif_neg hc
    rw [dif_neg hc, hread, if_neg (fun h => nomatch h.2)]

/-- So does giving a channel back. -/
theorem owner_release_of_ne {o : OwnerId} (hne : o ≠ owner) (other : Nat) :
    (t.release channel owner).2.owner other = some o ↔ t.owner other = some o := by
  rw [owner_release]
  by_cases hheld : other = channel ∧ t.owner channel = some owner
  · simp [hheld, Ne.symm hne]
  · rw [if_neg hheld]

theorem nextOwner_release : (t.release channel owner).2.nextOwner = t.nextOwner := by
  unfold release
  split
  · split <;> rfl
  · rfl

end Ownership

/-! ## Rows of descriptors -/

namespace Pool

variable {p : Pool} {t : DescriptorTable}

/-- The descriptor at an address is one of the pool's. -/
def InRow (p : Pool) (a : Nat) : Prop :=
  ∃ slot < p.capacity, p.addressOf slot = a

/-- The cursors of a pool, which may have no slots at all, are in range, and its row lies in the
table. -/
structure Fits (p : Pool) (t : DescriptorTable) : Prop where
  queued_le : p.queued ≤ p.capacity
  head_lt : 0 < p.capacity → p.head < p.capacity
  row : ∃ cell, p.base = DescriptorTable.address cell ∧ cell + p.capacity ≤ t.cells.size

theorem Fits.sits (h : p.Fits t) (hcap : 0 < p.capacity) : p.Sits t :=
  ⟨hcap, h.head_lt hcap, h.queued_le, h.row⟩

theorem Fits.capacity_pos (h : p.Fits t) (hq : p.queued ≠ 0) : 0 < p.capacity := by
  have := h.queued_le
  omega

theorem inRow_addressAt (hcap : 0 < p.capacity) (offset : Nat) : p.InRow (p.addressAt offset) :=
  ⟨p.slotAt offset, slotAt_lt hcap offset, rfl⟩

theorem Fits.hasCell (h : p.Fits t) {a : Nat} (ha : p.InRow a) : t.HasCell a := by
  obtain ⟨slot, hslot, rfl⟩ := ha
  exact (h.sits (by omega)).hasCell hslot

theorem Fits.mono {t' : DescriptorTable} (h : p.Fits t) (ht : t.cells.size ≤ t'.cells.size) :
    p.Fits t' := by
  obtain ⟨cell, hbase, hrow⟩ := h.row
  exact ⟨h.queued_le, h.head_lt, cell, hbase, by omega⟩

end Pool

namespace Stream

/-! ## Seats -/

/-- A set of descriptors of a stream's own that has the queued ones in it, that no link leads out
of, and in which the controller is unless it has stopped. -/
structure Fence (s : Stream) (m : Machine) (C : Nat → Prop) : Prop where
  row : ∀ a, C a → s.pool.InRow a
  closed : m.table.Closed C
  queued : ∀ offset < s.pool.queued, C (s.pool.addressAt offset)
  current : ∀ i, s.channel.hardware = .controller i →
    (m.controller i).current = 0 ∨ C (m.controller i).current

/-- What holds of each stream of a machine at all times. -/
structure Seated (s : Stream) (m : Machine) : Prop where
  number_lt : s.channel.number < maxChannels
  fits : s.pool.Fits m.table
  /-- A stream is on record as an owner exactly for its own channel while it is bound. -/
  recorded : ∀ channel, m.ownership.owner channel = some s.owner ↔
    channel = s.channel.number ∧ s.bound = true
  fenced : s.bound = true → ∃ C, s.Fence m C

/-- What an operation of a stream may do to the stream and to the machine. -/
structure Tended (s : Stream) (m : Machine) (s' : Stream) (m' : Machine) : Prop where
  channel : s'.channel = s.channel
  owner : s'.owner = s.owner
  base : s'.pool.base = s.pool.base
  capacity : s'.pool.capacity = s.pool.capacity
  seated : s'.Seated m'
  /-- Descriptors of other pools are as they were. -/
  outside : ∀ a, ¬s.pool.InRow a → m'.table.read a = m.table.read a
  size : m'.table.cells.size = m.table.cells.size
  /-- Records of other owners are as they were. -/
  owners : ∀ channel o, o ≠ s.owner →
    (m'.ownership.owner channel = some o ↔ m.ownership.owner channel = some o)
  nextOwner : m'.ownership.nextOwner = m.ownership.nextOwner
  number : ∀ i, (m'.controller i).number = (m.controller i).number
  /-- Other controllers stand where they stood. -/
  elsewhere : ∀ i, s.channel.hardware ≠ .controller i →
    (m'.controller i).current = (m.controller i).current
  /-- So does every controller if somebody else holds the channel. -/
  foreign : ∀ o, m.ownership.owner s.channel.number = some o → o ≠ s.owner →
    ∀ i, (m'.controller i).current = (m.controller i).current
  /-- A stream that is not bound in the end has stopped its controller or left it alone. -/
  rest : s'.bound = false → ∀ i, s.channel.hardware = .controller i →
    (m'.controller i).current = 0 ∨
      s.bound = false ∧ (m'.controller i).current = (m.controller i).current

variable {s s' s'' : Stream} {m m' m'' : Machine}

/-- Nobody else is on record for a channel that a stream holds. -/
theorem Seated.eq_owner (hs : s.Seated m) (hb : s.bound = true) {o : OwnerId}
    (ho : m.ownership.owner s.channel.number = some o) : o = s.owner := by
  rw [(hs.recorded _).mpr ⟨rfl, hb⟩] at ho
  exact (Option.some.inj ho).symm

/-- A stream keeps its place and its flag, and queues no block that was not queued before. -/
structure Recast (s s' : Stream) : Prop where
  channel : s'.channel = s.channel
  owner : s'.owner = s.owner
  bound : s'.bound = s.bound
  base : s'.pool.base = s.pool.base
  capacity : s'.pool.capacity = s.pool.capacity
  head_lt : 0 < s.pool.capacity → s.pool.head < s.pool.capacity → s'.pool.head < s.pool.capacity
  queued_le : s'.pool.queued ≤ s.pool.queued
  queued : ∀ offset < s'.pool.queued, ∃ o < s.pool.queued,
    s'.pool.addressAt offset = s.pool.addressAt o

theorem recast_of_pool (hchannel : s'.channel = s.channel) (howner : s'.owner = s.owner)
    (hbound : s'.bound = s.bound) (hpool : s'.pool = s.pool) : s.Recast s' := by
  refine ⟨hchannel, howner, hbound, ?_, ?_, ?_, ?_, ?_⟩
  · rw [hpool]
  · rw [hpool]
  · rw [hpool]
    exact fun _ hlt => hlt
  · exact Nat.le_of_eq (congrArg Pool.queued hpool)
  · rw [hpool]
    exact fun offset ho => ⟨offset, ho, rfl⟩

theorem Recast.refl (s : Stream) : s.Recast s :=
  recast_of_pool rfl rfl rfl rfl

theorem recast_retire (s : Stream) (count : Nat) :
    s.Recast { s with pool := s.pool.retire count } where
  channel := rfl
  owner := rfl
  bound := rfl
  base := rfl
  capacity := rfl
  head_lt hcap _ := Nat.mod_lt _ hcap
  queued_le := Nat.sub_le ..
  queued offset ho := by
    have hlt : offset < s.pool.queued - min count s.pool.queued := ho
    have hmin : s.pool.retire count = s.pool.retire (min count s.pool.queued) := by
      unfold Pool.retire
      rw [Nat.min_assoc, Nat.min_self]
    refine ⟨min count s.pool.queued + offset, by omega, ?_⟩
    show (s.pool.retire count).addressAt offset = _
    rw [hmin]
    exact Pool.addressAt_retire (Nat.min_le_right ..) offset

theorem recast_reset (s : Stream) (state : StreamState) (stalled : Option Nat) :
    s.Recast { s with pool := s.pool.reset, state, stalled } where
  channel := rfl
  owner := rfl
  bound := rfl
  base := rfl
  capacity := rfl
  head_lt hcap _ := hcap
  queued_le := Nat.zero_le _
  queued _ ho := absurd ho (Nat.not_lt_zero _)

theorem recast_discardFinished (s : Stream) : s.Recast s.discardFinished := by
  unfold discardFinished
  split
  · exact recast_reset s s.state none
  · exact .refl s

theorem Recast.inRow (h : s.Recast s') (a : Nat) : s'.pool.InRow a ↔ s.pool.InRow a := by
  unfold Pool.InRow Pool.addressOf
  rw [h.base, h.capacity]

theorem Recast.fence {C : Nat → Prop} (h : s.Recast s') (hf : s.Fence m C) : s'.Fence m C where
  row a ha := (h.inRow a).mpr (hf.row a ha)
  closed := hf.closed
  queued offset ho := by
    obtain ⟨o, hlt, heq⟩ := h.queued offset ho
    rw [heq]
    exact hf.queued o hlt
  current i hi := hf.current i (h.channel ▸ hi)

theorem Seated.recast (hs : s.Seated m) (h : s.Recast s') : s'.Seated m where
  number_lt := h.channel ▸ hs.number_lt
  fits := by
    refine ⟨?_, ?_, ?_⟩
    · rw [h.capacity]
      exact Nat.le_trans h.queued_le hs.fits.queued_le
    · rw [h.capacity]
      exact fun hcap => h.head_lt hcap (hs.fits.head_lt hcap)
    · rw [h.base, h.capacity]
      exact hs.fits.row
  recorded channel := by
    rw [h.owner, h.channel, h.bound]
    exact hs.recorded channel
  fenced hb := by
    obtain ⟨C, hC⟩ := hs.fenced (h.bound ▸ hb)
    exact ⟨C, h.fence hC⟩

/-! ## Putting operations together -/

theorem Seated.refl (h : s.Seated m) : s.Tended m s m where
  channel := rfl
  owner := rfl
  base := rfl
  capacity := rfl
  seated := h
  outside _ _ := rfl
  size := rfl
  owners _ _ _ := .rfl
  nextOwner := rfl
  number _ := rfl
  elsewhere _ _ := rfl
  foreign _ _ _ _ := rfl
  rest hb _ _ := .inr ⟨hb, rfl⟩

theorem Tended.trans (h : s.Tended m s' m') (h' : s'.Tended m' s'' m'') : s.Tended m s'' m'' where
  channel := h'.channel.trans h.channel
  owner := h'.owner.trans h.owner
  base := h'.base.trans h.base
  capacity := h'.capacity.trans h.capacity
  seated := h'.seated
  outside a ha := by
    have ha' : ¬s'.pool.InRow a := by
      unfold Pool.InRow Pool.addressOf at ha ⊢
      rwa [h.base, h.capacity]
    rw [h'.outside a ha', h.outside a ha]
  size := h'.size.trans h.size
  owners channel o ho := (h'.owners channel o (h.owner ▸ ho)).trans (h.owners channel o ho)
  nextOwner := h'.nextOwner.trans h.nextOwner
  number i := (h'.number i).trans (h.number i)
  elsewhere i hi := (h'.elsewhere i (h.channel ▸ hi)).trans (h.elsewhere i hi)
  foreign o ho hne i := by
    -- the other owner is still on record after the first operation
    have ho' : m'.ownership.owner s'.channel.number = some o := by
      rw [h.channel]
      exact (h.owners _ o hne).mpr ho
    rw [h'.foreign o ho' (h.owner ▸ hne) i, h.foreign o ho hne i]
  rest hb i hi := by
    rcases h'.rest hb i (h.channel ▸ hi) with hstop | ⟨hb', hsame⟩
    · exact .inl hstop
    · rw [hsame]
      exact h.rest hb' i hi

theorem Recast.tended (h : s.Recast s') (hs : s.Seated m) : s.Tended m s' m where
  channel := h.channel
  owner := h.owner
  base := h.base
  capacity := h.capacity
  seated := hs.recast h
  outside _ _ := rfl
  size := rfl
  owners _ _ _ := .rfl
  nextOwner := rfl
  number _ := rfl
  elsewhere _ _ := rfl
  foreign _ _ _ _ := rfl
  rest hb _ _ := .inr ⟨h.bound ▸ hb, rfl⟩

/-- Driver code that does no more than an operation of a stream may, whatever it finds. -/
def Tends {α : Type} (s : Stream) (x : DriverScript α) (stream : α → Stream) (Q : α → Prop) :
    Prop :=
  ∀ m, s.Seated m → Q (m.exec s.channel.hardware x).1 ∧
    s.Tended m (stream (m.exec s.channel.hardware x).1) (m.exec s.channel.hardware x).2

section Tends

variable {α β : Type} {x : DriverScript α} {g : α → DriverScript β} {stream : α → Stream}
  {stream' : β → Stream} {Q : α → Prop} {R : β → Prop}

theorem tends_pure {value : α} (h : s.Recast (stream value)) (hQ : Q value) :
    s.Tends (pure value) stream Q :=
  fun _ hs => ⟨hQ, h.tended hs⟩

theorem Tends.bind (hx : s.Tends x stream Q)
    (hg : ∀ value, Q value → (stream value).Tends (g value) stream' R) :
    s.Tends (x >>= g) stream' R := by
  intro m hs
  obtain ⟨hvalue, hfirst⟩ := hx m hs
  obtain ⟨hresult, hsecond⟩ := hg _ hvalue _ hfirst.seated
  rw [hfirst.channel] at hresult hsecond
  have hexec : m.exec s.channel.hardware (x >>= g) = _ := Machine.exec_bind m _ x g
  rw [hexec]
  exact ⟨hresult, hfirst.trans hsecond⟩

theorem Tends.recast (h : s.Recast s') (hx : s'.Tends x stream Q) : s.Tends x stream Q := by
  intro m hs
  obtain ⟨hvalue, htended⟩ := hx m (hs.recast h)
  rw [h.channel] at hvalue htended
  exact ⟨hvalue, (h.tended hs).trans htended⟩

end Tends

/-! ## Calm code, and controllers that go on -/

/-- A controller that goes on leaves no stream's set of descriptors. -/
theorem Seated.drifted (hs : s.Seated m) {i : Nat} (h : Machine.Drift i m m') : s.Seated m' where
  number_lt := hs.number_lt
  fits := h.table ▸ hs.fits
  recorded := h.ownership ▸ hs.recorded
  fenced := by
    intro hb
    obtain ⟨C, hC⟩ := hs.fenced hb
    refine ⟨C, hC.row, h.table ▸ hC.closed, hC.queued, ?_⟩
    intro j hj
    by_cases hji : j = i
    · subst hji
      exact h.led.inside C hC.closed (hC.current j hj)
    · rw [(h.others j hji).2]
      exact hC.current j hj

theorem Seated.undisturbed (hs : s.Seated m) (h : m.Undisturbed m') : s.Tended m s m' where
  channel := rfl
  owner := rfl
  base := rfl
  capacity := rfl
  seated := hs.drifted (h.drift 0)
  outside _ _ := by rw [h.table]
  size := by rw [h.table]
  owners _ _ _ := by rw [h.ownership]
  nextOwner := by rw [h.ownership]
  number := h.number
  elsewhere i _ := h.current i
  foreign _ _ _ i := h.current i
  rest hb i _ := .inr ⟨hb, h.current i⟩

theorem tends_calm {α : Type} {x : DriverScript α} {Q : α → Prop}
    (hx : x.Uses Access.Calm Q) : s.Tends x (fun _ => s) Q := by
  intro m hs
  obtain ⟨hvalue, hm⟩ := m.exec_calm hx s.channel.hardware
  exact ⟨hvalue, hs.undisturbed hm⟩

theorem tends_perform (a : Access) (h : a.Calm) :
    s.Tends (perform a) (fun _ => s) fun _ => True :=
  tends_calm (uses_perform a h)

/-- While a stream is bound its controller may go on. -/
theorem Seated.drift (hs : s.Seated m) (hb : s.bound = true) {i : Nat}
    (hi : s.channel.hardware = .controller i) (h : Machine.Drift i m m') : s.Tended m s m' where
  channel := rfl
  owner := rfl
  base := rfl
  capacity := rfl
  seated := hs.drifted h
  outside _ _ := by rw [h.table]
  size := by rw [h.table]
  owners _ _ _ := by rw [h.ownership]
  nextOwner := by rw [h.ownership]
  number := h.number
  elsewhere j hj := by
    refine (h.others j ?_).2
    rintro rfl
    exact hj hi
  foreign o ho hne := absurd (hs.eq_owner hb ho) hne
  rest hb' := by
    rw [hb] at hb'
    cases hb'

theorem tends_transferCount (hb : s.bound = true) :
    s.Tends (perform .transferCount) (fun _ => s) fun _ => True := by
  intro m hs
  refine ⟨trivial, ?_⟩
  show s.Tended m s (m.readCount s.channel.hardware).2
  cases hw : s.channel.hardware with
  | window i => exact hs.undisturbed (.refl m)
  | controller i => exact hs.drift hb hw (m.drift_readCount i)

end Stream

end ScatterGather
