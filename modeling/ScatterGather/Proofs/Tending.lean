import ScatterGather.Bench.Object
import ScatterGather.Proofs.Tenure

/-!
# ScatterGather.Proofs.Tending — every operation of a stream minds its own

Each operation of a stream is `Tends`: it does to the machine no more than an operation of that
stream may. Most are put together from pieces that do so themselves. Three are not, since they go
through states in between that are not in order, and are taken as one: queueing a block (`pushed`),
giving a channel back (`released`), and claiming one (`started`).
-/

namespace ScatterGather

/-! ## Code that writes descriptors -/

theorem tabular_setInterrupt (a : Nat) (on : Bool) :
    (setInterrupt a on).Uses Access.Tabular fun _ => True :=
  .bind (uses_perform (.fetch a) trivial) fun _ _ => uses_perform (.store ..) trivial

theorem tabular_push (p : Pool) (source destination : Nat) (control : UInt32)
    (closeLoop : Bool) :
    (p.push source destination control closeLoop).Uses Access.Tabular fun _ => True := by
  unfold Pool.push
  split
  · exact .done trivial
  · iterate 4 refine .bind (uses_perform (.store ..) trivial) fun _ _ => ?_
    refine .bind (.when _ (uses_perform (.store ..) trivial)) fun _ _ => ?_
    exact .bind (.when _ (uses_perform (.store ..) trivial)) fun _ _ => .done trivial

theorem tabular_relink (p : Pool) (closeLoop : Bool) :
    (p.relink closeLoop).Uses Access.Tabular fun _ => True :=
  .forEach (fun _ => uses_perform (.store ..) trivial) ..

theorem tabular_applyInterrupts (s : Stream) :
    s.applyInterrupts.Uses Access.Tabular fun _ => True :=
  .forEach (fun _ => tabular_setInterrupt ..) ..

/-! ## What the accesses of an operation do to a machine -/

namespace Machine

variable {m m' : Machine} {hw : Hardware}

/-- Only the controller behind one channel may stand elsewhere than before. -/
structure Steered (hw : Hardware) (m m' : Machine) : Prop where
  table : m'.table = m.table
  ownership : m'.ownership = m.ownership
  number : ∀ i, (m'.controller i).number = (m.controller i).number
  elsewhere : ∀ i, hw ≠ .controller i → (m'.controller i).current = (m.controller i).current

theorem steered_setController (m : Machine) {j : Nat} {c : Controller}
    (hn : c.number = (m.controller j).number) :
    Steered (.controller j) m (m.setController j c) where
  table := rfl
  ownership := rfl
  number i := by
    rw [controller_setController]
    split
    · next h => rw [hn, h.1]
    · rfl
  elsewhere i hi := by
    have hne : j ≠ i := by
      rintro rfl
      exact hi rfl
    rw [controller_setController_of_ne _ hne]

theorem steered_start (m : Machine) (hw : Hardware) (head : Nat) (priority : Priority) :
    Steered hw m (m.start hw head priority) := by
  cases hw with
  | controller j => exact m.steered_setController rfl
  | window j => exact ⟨rfl, rfl, fun _ => rfl, fun _ _ => rfl⟩

theorem steered_halt (m : Machine) (hw : Hardware) : Steered hw m (m.halt hw) := by
  cases hw with
  | controller j => exact m.steered_setController rfl
  | window j => exact ⟨rfl, rfl, fun _ => rfl, fun _ _ => rfl⟩

/-- A controller that is not there stands still. -/
theorem current_setController (m : Machine) (j : Nat) (c : Controller) :
    ((m.setController j c).controller j).current = c.current ∨
      ((m.setController j c).controller j).current = 0 := by
  by_cases hj : j < m.controllers.size
  · rw [controller_setController_self m hj]
    exact .inl rfl
  · refine .inr ?_
    simp [controller, setController, Array.getD_eq_getD_getElem?, hj]

theorem current_start (m : Machine) (j head : Nat) (priority : Priority) :
    ((m.start (.controller j) head priority).controller j).current = head ∨
      ((m.start (.controller j) head priority).controller j).current = 0 :=
  m.current_setController j _

theorem current_halt (m : Machine) (j : Nat) :
    ((m.halt (.controller j)).controller j).current = 0 :=
  (m.current_setController j _).elim id id

/-! ### Claims -/

theorem undisturbed_refused {channel : Nat} {owner : OwnerId} {e : Error}
    (h : (m.bind channel owner).1 = .error e) : m.Undisturbed (m.bind channel owner).2 := by
  have hsame : (m.ownership.bind channel owner).2 = m.ownership := Ownership.bind_refused h
  unfold bind
  rcases hbind : m.ownership.bind channel owner with ⟨result, ownership⟩
  rw [hbind] at hsame
  subst hsame
  show m.Undisturbed (if _ then _ else _)
  split <;> exact ⟨rfl, rfl, fun _ => rfl, fun _ => rfl⟩

theorem bind_of_granted {channel : Nat} {owner : OwnerId}
    (h : (m.bind channel owner).1 = .ok ()) :
    (m.bind channel owner).2 = { m with ownership := (m.ownership.bind channel owner).2 } := by
  have hresult : (m.ownership.bind channel owner).1 = .ok () := h
  unfold bind
  rcases hbind : m.ownership.bind channel owner with ⟨result, ownership⟩
  rw [hbind] at hresult
  cases hresult
  rfl

/-! ### Writes to descriptors -/

theorem exec_setInterrupt (m : Machine) (hw : Hardware) (a : Nat) (on : Bool) :
    m.exec hw (setInterrupt a on) = ((), { m with table := m.table.arm a on }) := rfl

variable (m) (hw) (p : Pool)

theorem exec_push (source destination : Nat) (control : UInt32) (closeLoop : Bool) :
    m.exec hw (p.push source destination control closeLoop) =
      if p.isFull then (none, m)
      else (some { p with queued := p.queued + 1 },
        { m with table := p.pushed m.table source destination control closeLoop }) := by
  rw [m.exec_tabular (tabular_push ..) hw (m.scene 0) rfl, Pool.exec_push]
  split <;> rfl

theorem exec_relink (closeLoop : Bool) :
    m.exec hw (p.relink closeLoop) =
      ((), { m with table := p.relinked m.table closeLoop }) := by
  rw [m.exec_tabular (tabular_relink ..) hw (m.scene 0) rfl, Pool.exec_relink]
  rfl

theorem exec_applyInterrupts (s : Stream) :
    m.exec hw s.applyInterrupts = ((), { m with table := s.rearmed m.table }) := by
  rw [m.exec_tabular (tabular_applyInterrupts s) hw (m.scene 0) rfl, Stream.exec_applyInterrupts]
  rfl

end Machine

namespace Stream

variable {s s' : Stream} {m m' : Machine}

/-! ## Writing descriptors -/

/-- Descriptors of the stream's own row are written, and its queue may change. -/
theorem Seated.rewrite {t : DescriptorTable} (hs : s.Seated m) (hchannel : s'.channel = s.channel)
    (howner : s'.owner = s.owner) (hbound : s'.bound = s.bound)
    (hbase : s'.pool.base = s.pool.base) (hcapacity : s'.pool.capacity = s.pool.capacity)
    (hfits : s'.pool.Fits t) (hsize : t.cells.size = m.table.cells.size)
    (houtside : ∀ a, ¬s.pool.InRow a → t.read a = m.table.read a)
    (hfence : s.bound = true → ∀ C, s.Fence m C → ∃ C', s'.Fence { m with table := t } C') :
    s.Tended m s' { m with table := t } where
  channel := hchannel
  owner := howner
  base := hbase
  capacity := hcapacity
  seated :=
    { number_lt := hchannel ▸ hs.number_lt
      fits := hfits
      recorded := by
        rw [howner, hchannel, hbound]
        exact hs.recorded
      fenced := by
        intro hb
        rw [hbound] at hb
        obtain ⟨C, hC⟩ := hs.fenced hb
        exact hfence hb C hC }
  outside := houtside
  size := hsize
  owners _ _ _ := .rfl
  nextOwner := rfl
  number _ := rfl
  elsewhere _ _ := rfl
  foreign _ _ _ _ := rfl
  rest hb _ _ := .inr ⟨hbound ▸ hb, rfl⟩

theorem tends_setInterrupt {a : Nat} (ha : s.pool.InRow a) (on : Bool) :
    s.Tends (setInterrupt a on) (fun _ => s) fun _ => True := by
  intro m hs
  refine ⟨trivial, ?_⟩
  rw [Machine.exec_setInterrupt]
  have hsize : (m.table.arm a on).cells.size = m.table.cells.size :=
    DescriptorTable.size_write ..
  refine hs.rewrite rfl rfl rfl rfl rfl (hs.fits.mono (Nat.le_of_eq hsize.symm)) hsize ?_ ?_
  · intro b hb
    refine DescriptorTable.read_write_of_ne _ ?_ _
    rintro rfl
    exact hb ha
  · -- flags lead nowhere
    intro _ C hC
    exact ⟨C, hC.row, hC.closed.write (fun _ h => nomatch h), hC.queued, hC.current⟩

theorem tends_when {x : DriverScript Unit} (condition : Bool)
    (hx : condition = true → s.Tends x (fun _ => s) fun _ => True) :
    s.Tends (Script.when condition x) (fun _ => s) fun _ => True := by
  unfold Script.when
  split
  · next h => exact hx h
  · exact tends_pure (.refl s) trivial

theorem tends_forEach {body : Nat → DriverScript Unit} (first count : Nat)
    (hbody : ∀ n, s.Tends (body n) (fun _ => s) fun _ => True) :
    s.Tends (Script.forEach body first count) (fun _ => s) fun _ => True := by
  induction count generalizing first with
  | zero => exact tends_pure (.refl s) trivial
  | succ count ih => exact (hbody first).bind fun _ _ => ih (first + 1)

theorem tends_applyInterrupts : s.Tends s.applyInterrupts (fun _ => s) fun _ => True := by
  intro m hs
  unfold applyInterrupts
  by_cases hq : s.pool.queued = 0
  · rw [hq]
    exact ⟨trivial, hs.refl⟩
  · have hcap := hs.fits.capacity_pos hq
    exact tends_forEach _ _ (fun _ => tends_setInterrupt (s.pool.inRow_addressAt hcap _) _) m hs

theorem tends_setCallback (callback : Option Callback) :
    s.Tends (s.setCallback callback) id fun _ => True := by
  have hrecast : s.Recast { s with callback } := recast_of_pool rfl rfl rfl rfl
  apply Tends.recast hrecast
  apply Tends.bind (tends_when _ fun _ => tends_applyInterrupts)
  intro _ _
  exact tends_pure (.refl _) trivial

/-! ## Reading the position -/

section Position

variable {P : Access → Prop} (s : Stream) (hnext : P .nextPointer) (hactive : P .isActive)

include hnext hactive

/-- The position is worked out from two readings. -/
theorem uses_executingOffset : s.executingOffset.Uses P fun _ => True := by
  unfold executingOffset
  split
  · exact .done trivial
  · refine .bind (uses_perform .nextPointer hnext) fun next _ => ?_
    cases s.pool.slotOf next with
    | some slot => exact .done trivial
    | none => exact .bind (uses_perform .isActive hactive) fun _ _ => .done trivial

theorem uses_queued : s.queued.Uses P fun _ => True := by
  unfold queued
  split
  · exact (s.uses_executingOffset hnext hactive).bind fun _ _ => .done trivial
  · exact .done trivial

theorem uses_linkedTooLate : s.linkedTooLate.Uses P fun _ => True := by
  unfold linkedTooLate
  split
  · refine .bind (uses_perform .isActive hactive) fun active _ => ?_
    split
    · exact .bind (uses_perform .nextPointer hnext) fun _ _ => .done trivial
    · exact .done trivial
  · exact .done trivial

end Position

theorem calm_executingOffset (s : Stream) : s.executingOffset.Uses Access.Calm fun _ => True :=
  s.uses_executingOffset trivial trivial

theorem calm_queued (s : Stream) : s.queued.Uses Access.Calm fun _ => True :=
  s.uses_queued trivial trivial

/-- The count of elements is read only while the channel is held. -/
theorem tends_residue : s.Tends s.residue (fun _ => s) fun _ => True := by
  unfold residue
  by_cases hb : s.bound = true
  · rw [if_neg (by simp [hb])]
    refine (tends_calm s.calm_executingOffset).bind fun offset _ => ?_
    split
    · exact tends_pure (.refl s) trivial
    · refine (tends_perform (.fetch _) trivial).bind fun current _ => ?_
      refine (tends_perform .nextPointer trivial).bind fun before _ => ?_
      split
      · exact tends_pure (.refl s) trivial
      · refine (tends_transferCount hb).bind fun count _ => ?_
        refine (tends_perform .nextPointer trivial).bind fun after _ => ?_
        split <;> exact tends_pure (.refl s) trivial
  · rw [if_pos (by simp [hb])]
    exact tends_pure (.refl s) trivial

/-! ## Queueing blocks -/

/-- A new block is linked behind the others, and leads to nothing but the head. -/
theorem Seated.pushed (hs : s.Seated m) (hroom : s.pool.queued < s.pool.capacity)
    (source destination : Nat) (control : UInt32) (closeLoop : Bool) :
    s.Tended m { s with pool := { s.pool with queued := s.pool.queued + 1 } }
      { m with table := s.pool.pushed m.table source destination control closeLoop } := by
  have hcap : 0 < s.pool.capacity := by omega
  have hsits := hs.fits.sits hcap
  have hread := hsits.read_pushed source destination control closeLoop hroom
  have hsize : (s.pool.pushed m.table source destination control closeLoop).cells.size =
      m.table.cells.size := Pool.size_pushed ..
  have hfits : Pool.Fits { s.pool with queued := s.pool.queued + 1 }
      (s.pool.pushed m.table source destination control closeLoop) :=
    ⟨hroom, hs.fits.head_lt, hsize ▸ hs.fits.row⟩
  refine hs.rewrite rfl rfl rfl rfl rfl hfits hsize ?_ ?_
  · intro a ha
    have hne (offset : Nat) : a ≠ s.pool.addressAt offset := by
      rintro rfl
      exact ha (Pool.inRow_addressAt hcap offset)
    rw [hread, if_neg (hne _), if_neg (fun h => hne _ h.2)]
  · intro _ C hC
    have hhead : C (s.pool.addressAt 0) ∨ s.pool.addressAt 0 = s.pool.addressAt s.pool.queued := by
      by_cases hq : s.pool.queued = 0
      · rw [hq]
        exact .inr rfl
      · exact .inl (hC.queued 0 (by omega))
    refine ⟨fun a => C a ∨ a = s.pool.addressAt s.pool.queued, ?_, ?_, ?_, ?_⟩
    · rintro a (ha | rfl)
      · exact hC.row a ha
      · exact Pool.inRow_addressAt hcap _
    · intro a ha
      show ((s.pool.pushed m.table source destination control closeLoop).read a).next = 0 ∨ _
      rw [hread]
      split
      · -- the new block leads to the head or nowhere
        simp only [Pool.entry]
        split
        · exact .inr hhead
        · exact .inl rfl
      · next hne =>
        split
        · exact .inr (.inr rfl)
        · exact (hC.closed a (ha.resolve_right hne)).imp_right .inl
    · intro offset ho
      rcases Nat.lt_succ_iff_lt_or_eq.mp ho with hlt | rfl
      · exact .inl (hC.queued offset hlt)
      · exact .inr rfl
    · intro i hi
      exact (hC.current i hi).imp_right .inl

theorem tends_push (source destination : Nat) (control : UInt32) (closeLoop : Bool) :
    s.Tends (s.pool.push source destination control closeLoop)
      (fun pushed => pushed.elim s ({ s with pool := · }))
      (fun pushed => ∀ pool ∈ pushed,
        0 < s.pool.capacity ∧ pool = { s.pool with queued := s.pool.queued + 1 }) := by
  intro m hs
  rw [Machine.exec_push]
  by_cases hfull : s.pool.isFull = true
  · rw [if_pos hfull]
    exact ⟨by simp, hs.refl⟩
  · have hroom : s.pool.queued < s.pool.capacity := by
      have hle := hs.fits.queued_le
      have hne : s.pool.queued ≠ s.pool.capacity := by simpa [Pool.isFull] using hfull
      omega
    rw [if_neg hfull]
    refine ⟨?_, hs.pushed hroom source destination control closeLoop⟩
    rintro pool ⟨⟩
    exact ⟨by omega, rfl⟩

theorem calm_linkedTooLate (s : Stream) : s.linkedTooLate.Uses Access.Calm fun _ => True :=
  s.uses_linkedTooLate trivial trivial

theorem tends_append (destination source size : Nat) :
    s.Tends (s.append destination source size) (·.2) fun _ => True := by
  unfold append
  cases s.checkBlock destination source size with
  | error e => exact tends_pure (.refl s) trivial
  | ok elements =>
    apply Tends.recast s.recast_discardFinished
    generalize s.discardFinished = s
    apply Tends.bind (tends_push _ _ _ _)
    intro pushed hpushed
    cases pushed with
    | none => exact tends_pure (.refl _) trivial
    | some pool =>
      obtain ⟨hcap, rfl⟩ := hpushed pool rfl
      apply Tends.bind (tends_calm (calm_linkedTooLate _))
      intro late _
      have hlast := tends_setInterrupt
        (s := { s with pool := { s.pool with queued := s.pool.queued + 1 } })
        (s.pool.inRow_addressAt hcap (s.pool.queued - 1)) false
      apply Tends.bind (tends_when _ fun _ => hlast)
      intro _ _
      exact tends_pure (recast_of_pool rfl rfl rfl rfl) trivial

/-! ## Setting the controller -/

/-- A stream that keeps its blocks sets its controller anew, while nobody else holds the channel,
and records or gives up its own claim. -/
theorem Seated.steered {ownership : Ownership} {bound : Bool} {stalled : Option Nat}
    {state : StreamState} (hs : s.Seated m)
    (h : Machine.Steered s.channel.hardware { m with ownership } m')
    (hrecorded : ∀ channel, ownership.owner channel = some s.owner ↔
      channel = s.channel.number ∧ bound = true)
    (howners : ∀ channel o, o ≠ s.owner →
      (ownership.owner channel = some o ↔ m.ownership.owner channel = some o))
    (hnext : ownership.nextOwner = m.ownership.nextOwner)
    (hfree : ∀ o, m.ownership.owner s.channel.number = some o → o = s.owner)
    (hfence : bound = true → ∃ C, s.Fence m' C)
    (hrest : bound = false → ∀ i, s.channel.hardware = .controller i →
      (m'.controller i).current = 0) :
    s.Tended m { s with bound, stalled, state } m' where
  channel := rfl
  owner := rfl
  base := rfl
  capacity := rfl
  seated :=
    { number_lt := hs.number_lt
      fits := by
        rw [h.table]
        exact hs.fits
      recorded := by
        rw [h.ownership]
        exact hrecorded
      fenced := by
        intro hb
        obtain ⟨C, hC⟩ := hfence hb
        exact ⟨C, hC.row, hC.closed, hC.queued, hC.current⟩ }
  outside a _ := by rw [h.table]
  size := by rw [h.table]
  owners := by
    rw [h.ownership]
    exact howners
  nextOwner := by
    rw [h.ownership]
    exact hnext
  number := h.number
  elsewhere := h.elsewhere
  foreign o ho hne := absurd (hfree o ho) hne
  rest hb i hi := .inl (hrest hb i hi)

/-! ## Giving the channel back -/

/-- The controller is stopped, and the record of the stream taken away. -/
theorem Seated.released (hs : s.Seated m) (hb : s.bound = true) :
    s.Tended m { s with bound := false, stalled := none }
      { m.halt s.channel.hardware with
        ownership :=
          ((m.halt s.channel.hardware).ownership.release s.channel.number s.owner).2 } := by
  have hsteer := m.steered_halt s.channel.hardware
  rw [hsteer.ownership]
  have hreleased : Machine.Steered s.channel.hardware
      { m with ownership := (m.ownership.release s.channel.number s.owner).2 }
      { m.halt s.channel.hardware with
        ownership := (m.ownership.release s.channel.number s.owner).2 } :=
    ⟨hsteer.table, rfl, hsteer.number, hsteer.elsewhere⟩
  refine hs.steered hreleased ?_ ?_ Ownership.nextOwner_release ?_ nofun ?_
  · intro channel
    rw [Ownership.owner_release]
    by_cases hc : channel = s.channel.number
    · simp [hc, (hs.recorded _).mpr ⟨rfl, hb⟩]
    · simp [hc, hs.recorded]
  · exact fun channel o hne => Ownership.owner_release_of_ne hne channel
  · exact fun o => hs.eq_owner hb
  · intro _ i hi
    rw [hi]
    exact m.current_halt i

theorem tends_releaseChannel (hb : s.bound = true) :
    s.Tends s.releaseChannel id fun _ => True :=
  fun _ hs => ⟨trivial, hs.released hb⟩

theorem tends_releaseIfBound : s.Tends s.releaseIfBound id fun s' => s'.bound = false := by
  unfold releaseIfBound
  split
  · next hb => exact fun _ hs => ⟨rfl, hs.released hb⟩
  · next hb => exact tends_pure (.refl s) (Bool.eq_false_iff.mpr hb)

theorem tends_disable : s.Tends s.disable id fun _ => True := by
  unfold disable
  split
  · exact tends_pure (.refl s) trivial
  · next hb =>
    apply Tends.bind (tends_releaseChannel (by simpa using hb))
    intro s' _
    apply Tends.bind (tends_perform (.log _) trivial)
    intro _ _
    exact tends_pure (recast_of_pool rfl rfl rfl rfl) trivial

theorem tends_clear : s.Tends s.clear id fun _ => True := by
  apply Tends.bind tends_releaseIfBound
  intro s' _
  exact tends_pure (recast_reset _ .idle s'.stalled) trivial

/-! ## Claiming the channel -/

/-- The chain is linked and armed anew while the channel is not held. -/
theorem Seated.relinked (hs : s.Seated m) (hb : s.bound = false) (hq : s.pool.queued ≠ 0) :
    s.Tended m s { m with table := s.startedTable m.table } := by
  have hcap := hs.fits.capacity_pos hq
  have hsize : (s.startedTable m.table).cells.size = m.table.cells.size := size_startedTable
  refine hs.rewrite rfl rfl rfl rfl rfl (hs.fits.mono (Nat.le_of_eq hsize.symm)) hsize ?_ ?_
  · intro a ha
    have hne (offset : Nat) : s.pool.addressAt offset ≠ a := by
      rintro rfl
      exact ha (s.pool.inRow_addressAt hcap offset)
    unfold startedTable rearmed Pool.relinked
    rw [DescriptorTable.read_updateEach_of_ne _ _ _ _ _ fun o _ _ => hne o,
      DescriptorTable.read_updateEach_of_ne _ _ _ _ _ fun o _ _ => hne o]
  · intro hb'
    rw [hb] at hb'
    cases hb'

/-- The channel is granted, and the controller set to the head of a linked chain. -/
theorem Seated.started (hs : s.Seated m) (hq : s.pool.queued ≠ 0)
    (hlinked : s.pool.Linked m.table s.isCircular)
    (hgranted : (m.ownership.bind s.channel.number s.owner).1 = .ok ()) (priority : Priority)
    (state : StreamState) :
    s.Tended m { s with bound := true, stalled := none, state }
      (Machine.start { m with ownership := (m.ownership.bind s.channel.number s.owner).2 }
        s.channel.hardware (s.pool.addressAt 0) priority) := by
  have hcap := hs.fits.capacity_pos hq
  obtain ⟨hfree, howner⟩ := Ownership.bind_granted hgranted
  have hsteer := Machine.steered_start
    { m with ownership := (m.ownership.bind s.channel.number s.owner).2 }
    s.channel.hardware (s.pool.addressAt 0) priority
  refine hs.steered hsteer ?_ ?_ Ownership.nextOwner_bind ?_ ?_ nofun
  · intro channel
    rw [howner]
    by_cases hc : channel = s.channel.number
    · simp [hc]
    · simp [hc, hs.recorded]
  · exact fun channel o hne => Ownership.owner_bind_of_ne hne channel
  · intro o ho
    rcases hfree with hfree | hfree
    · rw [hfree] at ho
      cases ho
    · rw [hfree] at ho
      exact (Option.some.inj ho).symm
  · -- the controller is at the head of the queue, if it is there at all
    intro _
    refine ⟨s.pool.Holds, ?_, ?_, ?_, ?_⟩
    · rintro a ⟨offset, -, rfl⟩
      exact s.pool.inRow_addressAt hcap offset
    · rw [hsteer.table]
      exact fun a ha => hlinked.next_queued ha
    · intro offset ho
      exact ⟨offset, ho, rfl⟩
    · intro i hi
      rw [hi]
      rcases Machine.current_start
        { m with ownership := (m.ownership.bind s.channel.number s.owner).2 } i
        (s.pool.addressAt 0) priority with hhead | hstop
      · exact .inr ⟨0, by omega, hhead⟩
      · exact .inl hstop

/-- What `enable` does on a stream that has blocks and does not hold its channel. -/
theorem exec_enable_machine (hb : s.bound = false) (hq : s.pool.queued ≠ 0) (m : Machine)
    (hw : Hardware) :
    m.exec hw s.enable =
      match m.bind s.channel.number s.owner with
      | (.error e, m) => ((.error e, { s with state := .error }), m)
      | (.ok (), m) =>
        ((.ok (), { s with bound := true, stalled := none, state := .busy }),
          ({ m with table := s.startedTable m.table }.record
            (.enabled s.channel.number s.pool.queued)).start hw (s.pool.addressAt 0)
            s.config.settings.priority) := by
  have hidle : ¬(s.bound || s.pool.isEmpty) = true := by simp [hb, Pool.isEmpty, hq]
  unfold enable
  rw [if_neg hidle]
  refine (Machine.exec_bind m hw (perform (.bind _ _)) _).trans ?_
  have hperform : m.exec hw (perform (.bind s.channel.number s.owner)) =
      m.bind s.channel.number s.owner := rfl
  rw [hperform]
  rcases m.bind s.channel.number s.owner with ⟨granted, m'⟩
  cases granted with
  | error e => rfl
  | ok u =>
    refine (Machine.exec_bind m' hw (s.pool.relink s.isCircular) _).trans ?_
    rw [Machine.exec_relink]
    refine (Machine.exec_bind _ hw (applyInterrupts _) _).trans ?_
    rw [Machine.exec_applyInterrupts]
    rfl

theorem tends_enable : s.Tends s.enable (·.2) fun _ => True := by
  intro m hs
  refine ⟨trivial, ?_⟩
  by_cases hidle : (s.bound || s.pool.isEmpty) = true
  · unfold enable
    rw [if_pos hidle]
    exact hs.refl
  · have hb : s.bound = false := by
      cases h : s.bound
      · rfl
      · simp [h] at hidle
    have hq : s.pool.queued ≠ 0 := by
      intro h
      simp [Pool.isEmpty, h] at hidle
    rw [exec_enable_machine hb hq]
    rcases hbind : m.bind s.channel.number s.owner with ⟨granted, m'⟩
    cases granted with
    | error e =>
      have hm : m.Undisturbed m' := by
        have h := Machine.undisturbed_refused (m := m) (congrArg Prod.fst hbind)
        rwa [hbind] at h
      have hrecast : s.Recast { s with state := .error } := recast_of_pool rfl rfl rfl rfl
      have hfirst := hs.undisturbed hm
      exact hfirst.trans (hrecast.tended hfirst.seated)
    | ok u =>
      have hgranted := congrArg Prod.fst hbind
      obtain rfl : _ = m' := (Machine.bind_of_granted hgranted).symm.trans (congrArg Prod.snd hbind)
      -- that links are written after the claim makes no difference
      have hlinks := hs.relinked hb hq
      have hlog : Machine.Undisturbed { m with table := s.startedTable m.table }
          ({ m with table := s.startedTable m.table }.record
            (.enabled s.channel.number s.pool.queued)) :=
        ⟨rfl, rfl, fun _ => rfl, fun _ => rfl⟩
      have hready := hlinks.trans (hlinks.seated.undisturbed hlog)
      have hsits := hs.fits.sits (hs.fits.capacity_pos hq)
      exact hready.trans (hready.seated.started hq (linked_startedTable hsits) hgranted _ _)

/-- A stream that holds its channel sets the controller to the head of its queue. -/
theorem tends_startAtHead (hb : s.bound = true) (hq : s.pool.queued ≠ 0) :
    s.Tends s.startAtHead (fun _ => s) fun _ => True := by
  intro m hs
  refine ⟨trivial, ?_⟩
  have hsteer := m.steered_start s.channel.hardware (s.pool.addressAt 0) s.config.settings.priority
  show s.Tended m s (m.start s.channel.hardware (s.pool.addressAt 0) s.config.settings.priority)
  refine hs.steered hsteer hs.recorded (fun _ _ _ => .rfl) rfl (fun o => hs.eq_owner hb) ?_ ?_
  · intro _
    obtain ⟨C, hC⟩ := hs.fenced hb
    refine ⟨C, hC.row, hsteer.table ▸ hC.closed, hC.queued, ?_⟩
    intro i hi
    rw [hi]
    rcases m.current_start i (s.pool.addressAt 0) s.config.settings.priority with hhead | hstop
    · rw [hhead]
      exact .inr (hC.queued 0 (by omega))
    · exact .inl hstop
  · simp [hb]

/-! ## Events -/

theorem tends_retirePassed : s.Tends s.retirePassed id fun s' => s'.bound = s.bound := by
  unfold retirePassed
  split
  · exact tends_pure (.refl s) rfl
  · apply Tends.bind (tends_calm s.calm_executingOffset)
    intro passed _
    exact tends_pure (s.recast_retire passed) rfl

theorem tends_onComplete (hb : s.bound = true) : s.Tends s.onComplete id fun _ => True := by
  apply Tends.bind tends_retirePassed
  intro s' hs'
  have hb' : s'.bound = true := hs'.trans hb
  show s'.Tends (if (!s'.isCircular && !s'.pool.isEmpty) = true then _ else _) _ _
  split
  · next hleft =>
    have hq : s'.pool.queued ≠ 0 := by
      intro h
      simp [Pool.isEmpty, h] at hleft
    apply Tends.bind (tends_perform (.log _) trivial)
    intro _ _
    apply Tends.bind (tends_startAtHead hb' hq)
    intro _ _
    exact tends_pure (recast_of_pool rfl rfl rfl rfl) trivial
  · apply Tends.bind (tends_releaseChannel hb')
    intro _ _
    exact tends_pure (recast_of_pool rfl rfl rfl rfl) trivial

theorem uses_awaitDrained {P : Access → Prop} (hpending : P .isPending) (spins : Nat) :
    (awaitDrained spins).Uses P fun _ => True := by
  induction spins with
  | zero => exact .bind (uses_perform .isPending hpending) fun _ _ => .done trivial
  | succ spins ih =>
    refine .bind (uses_perform .isPending hpending) fun pending _ => ?_
    split
    · exact ih
    · exact .done trivial

theorem uses_drainAndResume {P : Access → Prop} (s : Stream) (hpause : P .pause)
    (hpending : P .isPending) (hlog : P (.log (.notDrained s.channel.number)))
    (hresume : P .resume) : s.drainAndResume.Uses P fun _ => True := by
  refine .bind (uses_perform .pause hpause) fun _ _ => ?_
  refine (uses_awaitDrained hpending _).bind fun drained _ => ?_
  refine .bind (.when _ (uses_perform (.log _) hlog)) fun _ _ => ?_
  exact uses_perform .resume hresume

theorem calm_drainAndResume (s : Stream) : s.drainAndResume.Uses Access.Calm fun _ => True :=
  s.uses_drainAndResume trivial trivial trivial trivial

theorem tends_onTimeout (hb : s.bound = true) : s.Tends s.onTimeout id fun _ => True := by
  apply Tends.bind (tends_perform (.log _) trivial)
  intro _ _
  cases s.config.timeoutPolicy with
  | abort =>
    apply Tends.bind (tends_releaseChannel hb)
    intro _ _
    exact tends_pure (recast_of_pool rfl rfl rfl rfl) trivial
  | restart =>
    apply Tends.bind (tends_calm s.calm_drainAndResume)
    intro _ _
    exact tends_pure (recast_of_pool rfl rfl rfl rfl) trivial

theorem tends_react (hb : s.bound = true) (event : TransferEvent) :
    s.Tends (s.react event) id fun _ => True := by
  cases event with
  | progress =>
    apply Tends.bind tends_retirePassed
    intro _ _
    exact tends_pure (recast_of_pool rfl rfl rfl rfl) trivial
  | complete => exact tends_onComplete hb
  | busError =>
    apply Tends.bind (tends_perform (.log _) trivial)
    intro _ _
    apply Tends.bind (tends_releaseChannel hb)
    intro _ _
    exact tends_pure (recast_of_pool rfl rfl rfl rfl) trivial
  | timeout => exact tends_onTimeout hb

theorem uses_notify {P : Access → Prop} (s : Stream)
    (hreport : ∀ label, P (.report (.status label s.status))) :
    s.notify.Uses P fun _ => True := by
  unfold notify
  split
  · exact uses_perform (.report _) (hreport _)
  · exact .done trivial
  · exact .done trivial

theorem calm_notify (s : Stream) : s.notify.Uses Access.Calm fun _ => True :=
  s.uses_notify fun _ => trivial

theorem tends_onInterrupt (event : TransferEvent) :
    s.Tends (s.onInterrupt event) (·.2) fun _ => True := by
  unfold onInterrupt
  by_cases hb : s.bound = true
  · rw [if_neg (by simp [hb])]
    apply Tends.bind (tends_react hb event)
    intro s' _
    apply Tends.bind (tends_calm s'.calm_notify)
    intro _ _
    exact tends_pure (.refl s') trivial
  · rw [if_pos (by simp [hb])]
    exact tends_pure (.refl s) trivial

/-! ## Commands -/

theorem recast_configure (s : Stream) (settings : TransferSettings) :
    s.Recast (s.configure settings).2 := by
  unfold configure
  split
  · exact .refl s
  · split
    · exact .refl s
    · exact recast_of_pool rfl rfl rfl rfl

end Stream

/-- **Every command to a stream** does to the machine no more than the stream may. -/
theorem Bench.StreamCommand.tends (s : Stream) (label : Nat) (command : Bench.StreamCommand) :
    s.Tends (command.script s label) (·.2) fun _ => True := by
  cases command with
  | append destination source size =>
    exact (Stream.tends_append destination source size).bind fun _ _ =>
      Stream.tends_pure (.refl _) trivial
  | enable => exact Stream.tends_enable.bind fun _ _ => Stream.tends_pure (.refl _) trivial
  | disable => exact Stream.tends_disable.bind fun _ _ => Stream.tends_pure (.refl _) trivial
  | clear => exact Stream.tends_clear.bind fun _ _ => Stream.tends_pure (.refl _) trivial
  | configure settings => exact Stream.tends_pure (s.recast_configure settings) trivial
  | callback on =>
    exact (Stream.tends_setCallback _).bind fun _ _ => Stream.tends_pure (.refl _) trivial
  | interrupt event =>
    exact (Stream.tends_onInterrupt event).bind fun _ _ => Stream.tends_pure (.refl _) trivial
  | residue => exact Stream.tends_residue.bind fun _ _ => Stream.tends_pure (.refl _) trivial
  | queued =>
    exact (Stream.tends_calm s.calm_queued).bind fun _ _ => Stream.tends_pure (.refl _) trivial
  | info => exact Stream.tends_pure (.refl _) trivial
  | text => exact Stream.tends_pure (.refl _) trivial

end ScatterGather
