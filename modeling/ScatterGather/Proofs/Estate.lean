import ScatterGather.Proofs.Buffers
import ScatterGather.Proofs.Tending

/-!
# ScatterGather.Proofs.Estate — what a party sees of a machine, and what it changes

A party on a machine is whoever drives one channel: driver code on one side, the controller on the
other. Its `Estate` says what is its own (the hardware, the record of one channel, some descriptors,
the buffers that its controller writes), and what else it looks at. Driver code keeps to an estate
when all its accesses do (`Access.Within`); a controller does when the elements that it moves lie in
the buffers (`Buffers.admits`).

Whoever keeps to an estate changes nothing outside (`Estate.Spares`), and cannot tell two machines
apart that agree on what it sees (`Estate.Same`): it finds the same on both, and they agree again
afterwards.
-/

namespace ScatterGather

/-! ## Writes and claims -/

namespace DescriptorTable

variable {t t' : DescriptorTable}

/-- A descriptor that two tables agree on is the same after the same write. -/
theorem read_write_congr (hcells : t.cells.size = t'.cells.size) {a b : Nat}
    (ha : t.read a = t'.read a) (hb : t.read b = t'.read b) (w : Descriptor.Write) :
    (t.write a w).read b = (t'.write a w).read b := by
  by_cases hab : a = b
  · subst hab
    unfold DescriptorTable.write
    rw [← ha]
    cases hat : cellAt a with
    | none => simp [DescriptorTable.read, hat]
    | some cell =>
      simp only [DescriptorTable.read, put, hat, Array.getD_eq_getD_getElem?,
        Array.getElem?_setIfInBounds, hcells] at ha ⊢
      split
      · rfl
      · exact ha
  · rw [read_write_of_ne _ hab, read_write_of_ne _ hab, hb]

end DescriptorTable

namespace Ownership

variable {t t' : Ownership} {channel : Nat}

/-- What becomes of a claim depends on the record of that channel alone. -/
theorem bind_congr (h : t.owner channel = t'.owner channel) (owner : OwnerId) :
    (t.bind channel owner).1 = (t'.bind channel owner).1 ∧
      (t.bind channel owner).2.owner channel = (t'.bind channel owner).2.owner channel := by
  by_cases hc : channel < maxChannels
  · have hread : t.owners[channel] = t'.owners[channel] := by
      simpa [Ownership.owner, hc] using h
    unfold bind
    rw [dif_pos hc, dif_pos hc, hread]
    cases t'.owners[channel] with
    | none => exact ⟨rfl, by rw [owner_set hc, owner_set hc, if_pos rfl, if_pos rfl]⟩
    | some current => exact ⟨rfl, h⟩
  · unfold bind
    rw [dif_neg hc, dif_neg hc]
    exact ⟨rfl, h⟩

/-- A claim to one channel leaves the records of all others alone. -/
theorem owner_bind_of_channel_ne {other : Nat} (hne : other ≠ channel) (owner : OwnerId) :
    (t.bind channel owner).2.owner other = t.owner other := by
  rcases t.bind_cases channel owner with ⟨_, hb⟩ | ⟨hc, -, hb⟩ | ⟨-, hb⟩
  · rw [hb]
  · rw [hb, owner_set hc, if_neg hne]
  · rw [hb]

end Ownership

/-! ## Estates -/

/-- What belongs to one party of a machine, and what it looks at. -/
structure Estate where
  hardware : Hardware
  number : Nat
  /-- The descriptors that the party writes. -/
  own : Nat → Prop
  /-- The descriptors that it may look at. -/
  seen : Nat → Prop
  seen_of_own : ∀ a, own a → seen a
  buffers : Buffers

/-- An access that keeps to an estate. Elements are not counted: that may let a controller run on. -/
def Access.Within (e : Estate) : Access → Prop
  | .start head _ => e.own head
  | .bind channel _ | .release channel _ => channel = e.number
  | .fetch address | .store address _ => e.own address
  | .transferCount | .load .. | .save .. => False
  | .halt | .isActive | .nextPointer | .pause | .resume | .isPending | .log _ | .report _ => True

namespace Estate

variable {e : Estate} {l m n m' n' : Machine} {i : Nat}

/-- Two machines agree on what a party sees. -/
structure Same (e : Estate) (m n : Machine) : Prop where
  controllers : m.controllers.size = n.controllers.size
  windows : m.windows.size = n.windows.size
  controller : ∀ i, e.hardware = .controller i → m.controller i = n.controller i
  window : ∀ i, e.hardware = .window i → m.window i = n.window i
  owner : m.ownership.owner e.number = n.ownership.owner e.number
  cells : m.table.cells.size = n.table.cells.size
  descriptor : ∀ a, e.seen a → m.table.read a = n.table.read a
  bytes : m.memory.bytes.size = n.memory.bytes.size
  byte : ∀ b, e.buffers.has b = true → m.memory.read b = n.memory.read b
  log : m.log = n.log
  reports : m.reports = n.reports

/-- One machine has become another, and nothing has changed but what is a party's own. The trace is
nobody's. -/
structure Spares (e : Estate) (m n : Machine) : Prop where
  controllers : n.controllers.size = m.controllers.size
  windows : n.windows.size = m.windows.size
  controller : ∀ i, e.hardware ≠ .controller i → n.controller i = m.controller i
  window : ∀ i, e.hardware ≠ .window i → n.window i = m.window i
  owner : ∀ number, number ≠ e.number → n.ownership.owner number = m.ownership.owner number
  nextOwner : n.ownership.nextOwner = m.ownership.nextOwner
  cells : n.table.cells.size = m.table.cells.size
  descriptor : ∀ a, ¬e.own a → n.table.read a = m.table.read a
  bytes : n.memory.bytes.size = m.memory.bytes.size
  byte : ∀ b, e.buffers.writes b = false → n.memory.read b = m.memory.read b

/-- The party's controller is at a descriptor that the party sees, unless it has stopped. -/
def Inside (e : Estate) (m : Machine) : Prop :=
  ∀ i, e.hardware = .controller i →
    (m.controller i).current = 0 ∨ e.seen (m.controller i).current

/-- It also stays there when it goes on. -/
def Enclosed (e : Estate) (m : Machine) : Prop :=
  ∃ C, m.table.Closed C ∧ (∀ a, C a → e.seen a) ∧
    ∀ i, e.hardware = .controller i → (m.controller i).current = 0 ∨ C (m.controller i).current

theorem Enclosed.inside (h : e.Enclosed m) : e.Inside m := by
  obtain ⟨C, -, hseen, hcurrent⟩ := h
  intro i hi
  exact (hcurrent i hi).imp_right (hseen _)

/-- Wherever a controller is, it leads to a descriptor that the party sees, or nowhere. -/
theorem Enclosed.next (h : e.Enclosed m) (hi : e.hardware = .controller i)
    (hc : (m.controller i).current ≠ 0) :
    (m.table.read (m.controller i).current).next = 0 ∨
      e.seen (m.table.read (m.controller i).current).next := by
  obtain ⟨C, hclosed, hseen, hcurrent⟩ := h
  exact (hclosed _ ((hcurrent i hi).resolve_left hc)).imp_right (hseen _)

namespace Same

theorem refl (e : Estate) (m : Machine) : e.Same m m :=
  ⟨rfl, rfl, fun _ _ => rfl, fun _ _ => rfl, rfl, rfl, fun _ _ => rfl, rfl, fun _ _ => rfl, rfl,
    rfl⟩

theorem trans (h : e.Same l m) (h' : e.Same m n) : e.Same l n where
  controllers := h.controllers.trans h'.controllers
  windows := h.windows.trans h'.windows
  controller i hi := (h.controller i hi).trans (h'.controller i hi)
  window i hi := (h.window i hi).trans (h'.window i hi)
  owner := h.owner.trans h'.owner
  cells := h.cells.trans h'.cells
  descriptor a ha := (h.descriptor a ha).trans (h'.descriptor a ha)
  bytes := h.bytes.trans h'.bytes
  byte b hb := (h.byte b hb).trans (h'.byte b hb)
  log := h.log.trans h'.log
  reports := h.reports.trans h'.reports

/-! ### The same change on both sides -/

theorem setController (h : e.Same m n) (hi : e.hardware = .controller i) (c : Controller) :
    e.Same (m.setController i c) (n.setController i c) where
  controllers := by rw [Machine.size_setController, Machine.size_setController, h.controllers]
  windows := h.windows
  controller j hj := by
    simp only [Machine.controller_setController, h.controllers, h.controller j hj]
  window j hj := by
    rw [hi] at hj
    cases hj
  owner := h.owner
  cells := h.cells
  descriptor := h.descriptor
  bytes := h.bytes
  byte := h.byte
  log := h.log
  reports := h.reports

theorem setWindow (h : e.Same m n) (hi : e.hardware = .window i) (w : RegisterWindow) :
    e.Same (m.setWindow i w) (n.setWindow i w) where
  controllers := h.controllers
  windows := by simp only [Machine.setWindow, Array.size_setIfInBounds, h.windows]
  controller j hj := by
    rw [hi] at hj
    cases hj
  window j hj := by
    obtain rfl : i = j := by
      rw [hi] at hj
      exact Hardware.window.inj hj
    have hold := h.window i hi
    simp only [Machine.window, Machine.setWindow, Array.getD_eq_getD_getElem?,
      Array.getElem?_setIfInBounds, h.windows] at hold ⊢
    split
    · rfl
    · exact hold
  owner := h.owner
  cells := h.cells
  descriptor := h.descriptor
  bytes := h.bytes
  byte := h.byte
  log := h.log
  reports := h.reports

theorem setOwnership (h : e.Same m n) {t t' : Ownership}
    (ht : t.owner e.number = t'.owner e.number) :
    e.Same { m with ownership := t } { n with ownership := t' } :=
  { h with owner := ht }

theorem setMemory (h : e.Same m n) {memory memory' : Memory}
    (hbytes : memory.bytes.size = memory'.bytes.size)
    (hbyte : ∀ b, e.buffers.has b = true → memory.read b = memory'.read b) :
    e.Same { m with memory } { n with memory := memory' } :=
  { h with bytes := hbytes, byte := hbyte }

theorem record (h : e.Same m n) (r : LogRecord) : e.Same (m.record r) (n.record r) :=
  { h with log := congrArg (Array.push · r) h.log }

theorem tell (h : e.Same m n) (r : Report) : e.Same (m.tell r) (n.tell r) :=
  { h with reports := congrArg (Array.push · r) h.reports }

theorem write (h : e.Same m n) {a : Nat} (ha : e.seen a) (w : Descriptor.Write) :
    e.Same { m with table := m.table.write a w } { n with table := n.table.write a w } where
  controllers := h.controllers
  windows := h.windows
  controller := h.controller
  window := h.window
  owner := h.owner
  cells := by rw [DescriptorTable.size_write, DescriptorTable.size_write, h.cells]
  descriptor b hb :=
    DescriptorTable.read_write_congr h.cells (h.descriptor a ha) (h.descriptor b hb) w
  bytes := h.bytes
  byte := h.byte
  log := h.log
  reports := h.reports

/-! ### Accesses -/

theorem bind (h : e.Same m n) (owner : OwnerId) :
    (m.bind e.number owner).1 = (n.bind e.number owner).1 ∧
      e.Same (m.bind e.number owner).2 (n.bind e.number owner).2 := by
  obtain ⟨hresult, howner⟩ := Ownership.bind_congr h.owner owner
  have hclaimed := h.setOwnership howner
  refine ⟨hresult, ?_⟩
  unfold Machine.bind
  dsimp only
  rw [← hresult]
  split
  · exact hclaimed.record _
  · exact hclaimed

/-- What happens to the party's controller is the same on both sides if it does not depend on
anything that the party does not see. -/
theorem onController (h : e.Same m n) (hi : e.hardware = .controller i)
    (f f' : Controller → Controller) (hf : f (m.controller i) = f' (m.controller i)) :
    e.Same (m.setController i (f (m.controller i))) (n.setController i (f' (n.controller i))) := by
  rw [← h.controller i hi, ← hf]
  exact h.setController hi _

theorem onWindow (h : e.Same m n) (hi : e.hardware = .window i)
    (f : RegisterWindow → RegisterWindow) :
    e.Same (m.setWindow i (f (m.window i))) (n.setWindow i (f (n.window i))) := by
  rw [← h.window i hi]
  exact h.setWindow hi _

/-- The link is read where the controller is, and the party sees that. -/
theorem readNext (h : e.Same m n) (hin : e.Inside m) (hi : e.hardware = .controller i) :
    (m.controller i).readNext m.table = (m.controller i).readNext n.table := by
  have hlink : (m.controller i).nextLink m.table = (m.controller i).nextLink n.table := by
    unfold Controller.nextLink Controller.isRunning
    rcases hin i hi with hstop | hseen
    · simp [hstop]
    · rw [h.descriptor _ hseen]
  unfold Controller.readNext
  rw [hlink]

/-- **An access that keeps to an estate** answers the same wherever the party sees the same. -/
theorem answer (h : e.Same m n) {a : Access} (ha : a.Within e) (hin : e.Inside m) :
    (Machine.answer e.hardware a m).1 = (Machine.answer e.hardware a n).1 ∧
      e.Same (Machine.answer e.hardware a m).2 (Machine.answer e.hardware a n).2 := by
  cases a with
  | transferCount | load | save => exact ha.elim
  | bind channel owner =>
    obtain rfl : channel = e.number := ha
    exact h.bind owner
  | release channel owner =>
    obtain rfl : channel = e.number := ha
    refine ⟨rfl, h.setOwnership ?_⟩
    rw [Ownership.owner_release, Ownership.owner_release, h.owner]
  | fetch address => exact ⟨h.descriptor address (e.seen_of_own address ha), h⟩
  | store address w => exact ⟨rfl, h.write (e.seen_of_own address ha) w⟩
  | log r => exact ⟨rfl, h.record r⟩
  | report r => exact ⟨rfl, h.tell r⟩
  | start head priority =>
    refine ⟨rfl, ?_⟩
    have hhead := h.descriptor head (e.seen_of_own head ha)
    cases hhw : e.hardware with
    | window i => exact h.onWindow hhw fun w => w.start head priority
    | controller i =>
      refine h.onController hhw (·.start m.table head priority)
        (·.start n.table head priority) ?_
      simp only [Controller.start, Controller.load, hhead]
  | halt =>
    refine ⟨rfl, ?_⟩
    cases hhw : e.hardware with
    | window i => exact h.onWindow hhw RegisterWindow.halt
    | controller i =>
      exact h.onController hhw (·.halt m.table) (·.halt n.table) rfl
  | pause =>
    refine ⟨rfl, ?_⟩
    cases hhw : e.hardware with
    | window i => exact h.onWindow hhw RegisterWindow.pause
    | controller i => exact h.onController hhw Controller.pause Controller.pause rfl
  | resume =>
    refine ⟨rfl, ?_⟩
    cases hhw : e.hardware with
    | window i => exact h.onWindow hhw RegisterWindow.resume
    | controller i => exact h.onController hhw Controller.resume Controller.resume rfl
  | isActive =>
    refine ⟨?_, h⟩
    cases hhw : e.hardware with
    | window i => exact congrArg RegisterWindow.isActive (h.window i hhw)
    | controller i => exact congrArg Controller.isRunning (h.controller i hhw)
  | isPending =>
    cases hhw : e.hardware with
    | window i => exact ⟨congrArg RegisterWindow.isPending (h.window i hhw), h⟩
    | controller i =>
      have hsame := h.controller i hhw
      refine ⟨congrArg (·.poll.1) hsame, ?_⟩
      exact h.onController hhw (·.poll.2) (·.poll.2) rfl
  | nextPointer =>
    cases hhw : e.hardware with
    | window i => exact ⟨congrArg (·.next.toNat) (h.window i hhw), h⟩
    | controller i =>
      have hsame := h.controller i hhw
      have hread := h.readNext hin hhw
      refine ⟨?_, ?_⟩
      · show ((m.controller i).readNext m.table).1 = ((n.controller i).readNext n.table).1
        rw [← hsame, hread]
      · exact h.onController hhw (·.readNext m.table |>.2) (·.readNext n.table |>.2)
          (congrArg Prod.snd hread)

end Same

/-- Keeping to an estate leaves the controller at a descriptor that the party sees. -/
theorem Inside.answer (h : e.Inside m) {a : Access} (ha : a.Within e) :
    e.Inside (Machine.answer e.hardware a m).2 := by
  intro i hi
  rw [hi]
  cases a with
  | transferCount | load | save => exact ha.elim
  | start head priority =>
    rcases m.current_start i head priority with hhead | hstop
    · right
      show e.seen ((m.start (.controller i) head priority).controller i).current
      rw [hhead]
      exact e.seen_of_own head ha
    · exact .inl hstop
  | halt => exact .inl (m.current_halt i)
  | bind channel owner =>
    have hsame : (Machine.answer (.controller i) (.bind channel owner) m).2.controller i =
        m.controller i := by
      show (m.bind channel owner).2.controller i = _
      unfold Machine.bind
      dsimp only
      split <;> rfl
    rw [hsame]
    exact h i hi
  | release | store => exact h i hi
  | isActive | nextPointer | pause | resume | isPending | fetch | log | report =>
    rw [(Machine.undisturbed_answer (.controller i) (by trivial) m).current]
    exact h i hi

namespace Spares

theorem refl (e : Estate) (m : Machine) : e.Spares m m :=
  ⟨rfl, rfl, fun _ _ => rfl, fun _ _ => rfl, fun _ _ => rfl, rfl, rfl, fun _ _ => rfl, rfl,
    fun _ _ => rfl⟩

theorem trans (h : e.Spares l m) (h' : e.Spares m n) : e.Spares l n where
  controllers := h'.controllers.trans h.controllers
  windows := h'.windows.trans h.windows
  controller i hi := (h'.controller i hi).trans (h.controller i hi)
  window i hi := (h'.window i hi).trans (h.window i hi)
  owner number hn := (h'.owner number hn).trans (h.owner number hn)
  nextOwner := h'.nextOwner.trans h.nextOwner
  cells := h'.cells.trans h.cells
  descriptor a ha := (h'.descriptor a ha).trans (h.descriptor a ha)
  bytes := h'.bytes.trans h.bytes
  byte b hb := (h'.byte b hb).trans (h.byte b hb)

theorem setController (hi : e.hardware = .controller i) (m : Machine) (c : Controller) :
    e.Spares m (m.setController i c) :=
  { refl e m with
    controllers := m.size_setController i c
    controller := by
      intro j hj
      refine m.controller_setController_of_ne ?_ c
      rintro rfl
      exact hj hi }

theorem setWindow (hi : e.hardware = .window i) (m : Machine) (w : RegisterWindow) :
    e.Spares m (m.setWindow i w) :=
  { refl e m with
    windows := by simp only [Machine.setWindow, Array.size_setIfInBounds]
    window := by
      intro j hj
      have hne : i ≠ j := by
        rintro rfl
        exact hj hi
      simp [Machine.window, Machine.setWindow, Array.getD_eq_getD_getElem?, hne] }

/-- **An access that keeps to an estate** changes nothing outside. -/
theorem answer {a : Access} (ha : a.Within e) (m : Machine) :
    e.Spares m (Machine.answer e.hardware a m).2 := by
  cases a with
  | transferCount | load | save => exact ha.elim
  | isActive | fetch => exact refl e m
  | log | report => exact { refl e m with }
  | bind channel owner =>
    obtain rfl : channel = e.number := ha
    have hclaimed : e.Spares m { m with ownership := (m.ownership.bind e.number owner).2 } :=
      { refl e m with
        owner := fun _ hne => Ownership.owner_bind_of_channel_ne hne owner
        nextOwner := Ownership.nextOwner_bind }
    show e.Spares m (m.bind e.number owner).2
    unfold Machine.bind
    dsimp only
    split
    · exact { hclaimed with }
    · exact hclaimed
  | release channel owner =>
    obtain rfl : channel = e.number := ha
    refine { refl e m with owner := ?_, nextOwner := Ownership.nextOwner_release }
    intro number hne
    show (m.ownership.release e.number owner).2.owner number = _
    rw [Ownership.owner_release, if_neg fun h => hne h.1]
  | store address w =>
    refine { refl e m with cells := DescriptorTable.size_write .., descriptor := ?_ }
    intro b hb
    refine DescriptorTable.read_write_of_ne _ ?_ w
    rintro rfl
    exact hb ha
  | start | halt | pause | resume =>
    cases hhw : e.hardware with
    | window i => exact setWindow hhw m _
    | controller i => exact setController hhw m _
  | nextPointer | isPending =>
    cases hhw : e.hardware with
    | window i => exact refl e m
    | controller i => exact setController hhw m _

end Spares

/-! ## Driver code -/

section Exec

variable {α : Type} {Q : α → Prop} {x : DriverScript α}

/-- **Driver code that keeps to an estate** comes to the same wherever the party sees the same. -/
theorem Same.exec (hx : x.Uses (Access.Within e) Q) (h : e.Same m n)
    (hin : e.Inside m) :
    (m.exec e.hardware x).1 = (n.exec e.hardware x).1 ∧
      e.Same (m.exec e.hardware x).2 (n.exec e.hardware x).2 := by
  induction hx generalizing m n with
  | done hvalue => exact ⟨rfl, h⟩
  | @ask a next ha _ ih =>
    obtain ⟨hanswer, hsame⟩ := h.answer ha hin
    have hnext := ih (Machine.answer e.hardware a m).1 hsame (hin.answer ha)
    unfold Machine.exec at hnext ⊢
    rw [Script.run_ask, Script.run_ask, ← hanswer]
    exact hnext

/-- It changes nothing outside. -/
theorem Spares.exec (hx : x.Uses (Access.Within e) Q) (m : Machine) :
    e.Spares m (m.exec e.hardware x).2 :=
  (hx.run (S := e.Spares) (refl e) trans (fun _ ha m => answer ha m) m).2

end Exec

/-! ## Moves of the controller -/

section Moves

variable {count : Nat} (h : e.Same m n) (hi : e.hardware = .controller i)

include h hi

/-- What becomes of the controller and of the bytes is the same on both sides. -/
theorem Same.moved {c c' : Controller} {memory memory' : Memory} (hc : c = c')
    (hbytes : memory.bytes.size = memory'.bytes.size)
    (hbyte : ∀ b, e.buffers.has b = true → memory.read b = memory'.read b) :
    e.Same ({ m with memory }.setController i c)
      ({ n with memory := memory' }.setController i c') :=
  hc ▸ (h.setMemory hbytes hbyte).setController hi c

/-- A controller that moves elements within the buffers moves the same on both sides. -/
theorem Same.copied (hin : e.Inside m) (hadmits : e.buffers.admits m i count = true) :
    ((m.controller i).moveElements m.table m.memory count).1 =
        ((m.controller i).moveElements n.table n.memory count).1 ∧
      ∀ b, e.buffers.has b = true →
        ((m.controller i).moveElements m.table m.memory count).2.read b =
          ((m.controller i).moveElements n.table n.memory count).2.read b := by
  unfold Controller.moveElements
  by_cases hrun : (m.controller i).isRunning = true
  · have hseen : e.seen (m.controller i).current :=
      (hin i hi).resolve_left (by simpa [Controller.isRunning] using hrun)
    have hcovers : e.buffers.covers (m.table.read (m.controller i).current)
        ((m.table.read (m.controller i).current).elements - (m.controller i).remaining)
        (min count (m.controller i).remaining) = true := by
      simpa [Buffers.admits, hrun] using hadmits
    rw [if_pos hrun, if_pos hrun, ← h.descriptor _ hseen]
    exact ⟨rfl, fun b hb => Memory.read_copyElements_congr hcovers h.bytes h.byte hb⟩
  · rw [if_neg hrun, if_neg hrun]
    exact ⟨rfl, h.byte⟩

/-- **A controller that moves elements** does the same wherever the party sees the same. -/
theorem Same.moveElements (hin : e.Inside m) (hadmits : e.buffers.admits m i count = true) :
    e.Same (m.moveElements i count) (n.moveElements i count) := by
  obtain ⟨hc, hbyte⟩ := h.copied hi hin hadmits
  unfold Machine.moveElements
  rw [← h.controller i hi]
  have hbytes : ((m.controller i).moveElements m.table m.memory count).2.bytes.size =
      ((m.controller i).moveElements n.table n.memory count).2.bytes.size := by
    rw [Controller.size_moveElements, Controller.size_moveElements, h.bytes]
  exact h.moved hi hc hbytes hbyte

/-- **A controller that finishes a block** raises the same event and goes the same way. -/
theorem Same.finish (hin : e.Enclosed m)
    (hadmits : e.buffers.admits m i (m.controller i).remaining = true) :
    (m.finish i).1 = (n.finish i).1 ∧ e.Same (m.finish i).2 (n.finish i).2 := by
  unfold Machine.finish
  rw [← h.controller i hi]
  by_cases hrun : (m.controller i).current = 0
  · rw [Controller.finish_stopped _ _ hrun, Controller.finish_stopped _ _ hrun]
    exact ⟨rfl, h.moved hi rfl h.bytes h.byte⟩
  · obtain ⟨hc, hbyte⟩ := h.copied hi hin.inside hadmits
    have hd := h.descriptor _ ((hin.inside i hi).resolve_left hrun)
    rw [Controller.finish_running _ _ hrun, Controller.finish_running _ _ hrun, ← hd, ← hc]
    refine ⟨rfl, h.moved hi ?_ ?_ hbyte⟩
    · -- the next block is among those that the party sees
      rcases hin.next hi hrun with hend | hseen
      · simp [Controller.load, hend]
      · simp only [Controller.load, h.descriptor _ hseen]
    · rw [Controller.size_moveElements, Controller.size_moveElements, h.bytes]

end Moves

/-- A controller that moves elements within the buffers writes nothing else. -/
theorem read_moveElements {m : Machine} {count b : Nat}
    (hadmits : e.buffers.admits m i count = true) (hb : e.buffers.writes b = false) :
    ((m.controller i).moveElements m.table m.memory count).2.read b = m.memory.read b := by
  unfold Controller.moveElements
  split
  · next hrun =>
    refine Memory.read_copyElements_of_not_writes (D := e.buffers) ?_ hb
    simpa [Buffers.admits, hrun] using hadmits
  · rfl

theorem Spares.moved (hi : e.hardware = .controller i) (m : Machine) {memory : Memory}
    (c : Controller) (hbytes : memory.bytes.size = m.memory.bytes.size)
    (hbyte : ∀ b, e.buffers.writes b = false → memory.read b = m.memory.read b) :
    e.Spares m ({ m with memory }.setController i c) := by
  have hwritten : e.Spares m { m with memory } :=
    { refl e m with bytes := hbytes, byte := hbyte }
  exact hwritten.trans (setController hi _ c)

theorem Spares.moveElements (hi : e.hardware = .controller i) {count : Nat}
    (hadmits : e.buffers.admits m i count = true) : e.Spares m (m.moveElements i count) :=
  moved hi m _ (Controller.size_moveElements ..) fun _ hb => read_moveElements hadmits hb

theorem Spares.finish (hi : e.hardware = .controller i)
    (hadmits : e.buffers.admits m i (m.controller i).remaining = true) :
    e.Spares m (m.finish i).2 := by
  unfold Machine.finish
  refine moved hi m _ (Controller.size_finish ..) ?_
  intro b hb
  by_cases hrun : (m.controller i).current = 0
  · rw [Controller.finish_stopped _ _ hrun]
  · rw [Controller.finish_running _ _ hrun]
    exact read_moveElements hadmits hb

end Estate

end ScatterGather
