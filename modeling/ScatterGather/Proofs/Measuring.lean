import ScatterGather.Proofs.Interleaving
import ScatterGather.Proofs.Residue

/-!
# ScatterGather.Proofs.Measuring — a residue that is read while the controller goes on

To answer for its residue a stream reads its controller several times: the pointer for the position,
the pointer again, the count of elements, and the pointer once more. The controller can go on before
each of them. `Rig.residueAmid` runs the same code at a pace, and keeps the rig as it was at the
instant at which the count was read.

The positions of a controller that only goes on are in order (`Rig.Later`), and a link tells the
block that it belongs to (`Pool.linkAt_inj`). So a pointer that is still that of the block at which
the controller stood says that it stands there yet, unless a loop was run through once in between;
what has to be looked at apart is the end of a chain, where the last block and a controller that has
stopped show the same empty link. There the count itself tells them apart, since a controller that
has stopped has nothing left. `Rig.Asks` lists what can come of asking, and `Rig.Held.residueAmid_right`
takes each case by itself.
-/

namespace ScatterGather

namespace Pool

variable {p : Pool} {t : DescriptorTable} {closeLoop : Bool}

/-- A link tells the block that it belongs to. -/
theorem linkAt_inj (h : p.Sits t) {o o' : Nat} (ho : o < p.queued) (ho' : o' < p.queued)
    (heq : p.linkAt closeLoop o = p.linkAt closeLoop o') : o = o' := by
  have hle := h.queued_le
  have hinj {a b : Nat} (ha : a < p.queued) (hb : b < p.queued)
      (hab : p.addressAt a = p.addressAt b) : a = b :=
    addressAt_inj h.head_lt (by omega) (by omega) hab
  -- the last block leads to the head or nowhere, every other one to the block behind it
  have hback {a : Nat} (ha : a + 1 < p.queued)
      (hab : p.addressAt (a + 1) = if closeLoop then p.addressAt 0 else 0) : False := by
    split at hab
    · have := hinj ha (by omega) hab
      omega
    · exact h.addressAt_ne_zero _ hab
  unfold linkAt at heq
  by_cases hlast : o + 1 < p.queued <;> by_cases hlast' : o' + 1 < p.queued
  · rw [if_pos hlast, if_pos hlast'] at heq
    have := hinj hlast hlast' heq
    omega
  · rw [if_pos hlast, if_neg hlast'] at heq
    exact (hback hlast heq).elim
  · rw [if_neg hlast, if_pos hlast'] at heq
    exact (hback hlast' heq.symm).elim
  · omega

end Pool

namespace Stream

/-- The offset that a controller comes to from another one by finishing so many blocks. -/
def ahead (s : Stream) (k blocks : Nat) : Nat :=
  if s.isCircular then (k + blocks) % s.pool.queued else k + blocks

variable {s : Stream} {k : Nat}

theorem ahead_zero (hk : s.isCircular = true → k < s.pool.queued) : s.ahead k 0 = k := by
  unfold ahead
  split
  · next hm => exact Nat.mod_eq_of_lt (hk hm)
  · rfl

theorem ahead_one (hk : k < s.pool.queued) : s.ahead k 1 = s.follow k := by
  unfold ahead follow
  by_cases hm : s.isCircular = true
  · rw [if_pos hm]
    by_cases hlast : k + 1 = s.pool.queued
    · rw [if_pos ⟨hm, hlast⟩, hlast, Nat.mod_self]
    · rw [if_neg fun h => hlast h.2, Nat.mod_eq_of_lt (by omega)]
  · rw [if_neg hm, if_neg fun h => hm h.1]

theorem ahead_add (blocks more : Nat) :
    s.ahead (s.ahead k blocks) more = s.ahead k (blocks + more) := by
  unfold ahead
  split
  · rw [Nat.mod_add_mod, Nat.add_assoc]
  · exact Nat.add_assoc ..

/-- A controller that comes back to a block within one turn has not left it. -/
theorem eq_zero_of_ahead {blocks : Nat} (hk : k < s.pool.queued) (heq : s.ahead k blocks = k)
    (hlap : s.isCircular = true → blocks < s.pool.queued) : blocks = 0 := by
  unfold ahead at heq
  by_cases hm : s.isCircular = true
  · rw [if_pos hm] at heq
    have hlt := hlap hm
    by_cases hwrap : k + blocks < s.pool.queued
    · rw [Nat.mod_eq_of_lt hwrap] at heq
      omega
    · rw [Nat.mod_eq_sub_mod (by omega), Nat.mod_eq_of_lt (by omega)] at heq
      omega
  · rw [if_neg hm] at heq
    omega

end Stream

/-- Whether an access reads the count of elements left. -/
def Access.counts : Access → Bool
  | .transferCount => true
  | _ => false

namespace Rig

variable {r r' r'' : Rig} {pace : List (List Action)}

/-! ## A controller that only goes on -/

/-- The offset that the stream takes its controller to stand at. -/
def position (r : Rig) : Nat :=
  r.stream.standing r.scene

/-- A stream that holds its channel, on a rig to which anything may have happened. -/
structure Held (r : Rig) : Prop where
  attached : r.Attached
  bound : r.stream.bound = true
  sound : r.stream.Sound r.scene r.position
  spent : r.scene.Spent

theorem Poised.held {k : Nat} (h : r.Poised k) (hb : r.stream.bound = true) : r.Held := by
  have hk : r.position = k := h.sound.standing_eq hb
  exact ⟨h.attached, hb, hk ▸ h.sound, h.clean hb⟩

namespace Held

variable (h : r.Held)

include h

theorem engaged : r.stream.Engaged r.scene r.position :=
  h.sound.engaged h.bound

theorem position_lt (hc : r.scene.current ≠ 0) : r.position < r.stream.pool.queued :=
  (h.sound.executing hc).2.1

theorem position_lt_of_circular (hm : r.stream.isCircular = true) :
    r.position < r.stream.pool.queued :=
  h.position_lt (h.engaged.circular hm)

theorem nextLink_eq (hc : r.scene.current ≠ 0) :
    r.scene.nextLink = r.stream.pool.linkAt r.stream.isCircular r.position := by
  obtain ⟨-, hq, hcur⟩ := h.sound.executing hc
  rw [Scene.nextLink, if_neg hc, hcur, h.engaged.linked _ hq]

end Held

/-- A rig whose controller has done nothing but go on. -/
structure Later (r r' : Rig) : Prop where
  held : r'.Held
  stream : r'.stream = r.stream
  table : r'.machine.table = r.machine.table
  ahead : ∃ blocks, r'.executed.length = r.executed.length + blocks ∧
    r'.position = r.stream.ahead r.position blocks
  stopped : r.scene.current = 0 → r'.scene.current = 0

theorem Later.refl (h : r.Held) : r.Later r where
  held := h
  stream := rfl
  table := rfl
  ahead := ⟨0, rfl, (Stream.ahead_zero h.position_lt_of_circular).symm⟩
  stopped hc := hc

theorem Later.trans (h : r.Later r') (h' : r'.Later r'') : r.Later r'' where
  held := h'.held
  stream := h'.stream.trans h.stream
  table := h'.table.trans h.table
  ahead := by
    obtain ⟨blocks, hlen, hpos⟩ := h.ahead
    obtain ⟨more, hlen', hpos'⟩ := h'.ahead
    refine ⟨blocks + more, by omega, ?_⟩
    rw [hpos', hpos, h.stream, Stream.ahead_add]
  stopped hc := h'.stopped (h.stopped hc)

theorem Later.executed_le (h : r.Later r') : r.executed.length ≤ r'.executed.length := by
  obtain ⟨blocks, hlen, -⟩ := h.ahead
  omega

/-- Of the moves of a controller only the end of a block takes it further, by one place. -/
theorem Held.step (h : r.Held) {a : Action} (ha : a.autonomous = true) : r.Later (r.step a) := by
  have hpoised : r.Poised r.position := ⟨h.attached, h.sound, fun _ => h.spent⟩
  have hstep := hpoised.step a
  have hstream : (r.step a).stream = r.stream := by
    cases a with
    | moveElements | finish => rfl
    | _ => cases ha
  have hpos : (r.step a).position = r.offsetAfter r.position a :=
    hstep.sound.standing_eq (hstream ▸ h.bound)
  have hheld := hstep.held (hstream ▸ h.bound)
  have hzero := Stream.ahead_zero h.position_lt_of_circular
  refine ⟨hheld, hstream, ?_, ?_, fun hc => (h.attached.step_stopped hc ha).1⟩
  · cases a with
    | moveElements | finish => rfl
    | _ => cases ha
  · cases a with
    | moveElements count => exact ⟨0, rfl, hpos.trans hzero.symm⟩
    | finish =>
      by_cases hc : r.scene.current = 0
      · refine ⟨0, ?_, ?_⟩
        · rw [(h.attached.step_stopped hc ha).2]
          rfl
        · rw [hpos, offsetAfter, if_pos hc, hzero]
      · refine ⟨1, ?_, ?_⟩
        · have hone : r.executing = [(r.machine.table.read r.controller.current).block] :=
            if_pos (decide_eq_true hc)
          show (r.executed ++ r.executing).length = _
          rw [hone, List.length_append]
          rfl
        · rw [hpos, offsetAfter, if_neg hc, Stream.ahead_one (h.position_lt hc)]
    | _ => cases ha

theorem Held.run (h : r.Held) {moves : List Action} (hmoves : ∀ a ∈ moves, a.autonomous = true) :
    r.Later (r.run moves) := by
  induction moves generalizing r with
  | nil => exact .refl h
  | cons a moves ih =>
    have hstep := h.step (hmoves a List.mem_cons_self)
    exact hstep.trans (ih hstep.held fun b hb => hmoves b (List.mem_cons_of_mem a hb))

/-! ## Reading at a pace -/

/-- What the pace names are moves of the controller. -/
def Autonomous (pace : List (List Action)) : Prop :=
  ∀ moves ∈ pace, ∀ a ∈ moves, a.autonomous = true

/-- Makes one access at a pace, and keeps the rig as it was when a count of elements was read. -/
def answerCounted (a : Access) (p : (Rig × List (List Action)) × List Rig) :
    a.Answer × ((Rig × List (List Action)) × List Rig) :=
  let (answer, q) := answerAmid a p.1
  (answer, q, if a.counts then p.2 ++ [q.1] else p.2)

/-- Keeping a rig is not noticed by whoever makes the accesses. -/
theorem run_answerCounted {α : Type} (x : DriverScript α)
    (p : (Rig × List (List Action)) × List Rig) :
    (x.run answerCounted p).1 = (x.run answerAmid p.1).1 ∧
      (x.run answerCounted p).2.1 = (x.run answerAmid p.1).2 := by
  induction x generalizing p with
  | done value => exact ⟨rfl, rfl⟩
  | ask a next ih => exact ih (answerAmid a p.1).1 _

/-- What came of asking a stream for its residue while its controller went on. -/
structure Asked where
  answer : Except DmaError Nat
  /-- The rig when the call ended. -/
  after : Rig
  /-- The rig at each instant at which a count of elements was read. -/
  counted : List Rig

/-- A stream is asked for its residue while other things happen. -/
def residueAmid (r : Rig) (pace : List (List Action)) : Asked :=
  let (answer, (after, _), counted) := r.stream.residue.run answerCounted ((r, pace), [])
  { answer, after, counted }

theorem residueAmid_eq (r : Rig) (pace : List (List Action)) :
    ((r.residueAmid pace).answer, (r.residueAmid pace).after) =
      r.execAmid pace r.stream.residue := by
  obtain ⟨hanswer, hafter⟩ := run_answerCounted r.stream.residue ((r, pace), [])
  exact Prod.ext hanswer (congrArg Prod.fst hafter)

/-- An access that only reads, at a pace, answers for a rig that the controller has come to. -/
theorem Held.read (h : r.Held) (hpace : Autonomous pace) (counted : List Rig) {a : Access}
    (ha : a.Reading) :
    ∃ r' pace', answerCounted a ((r, pace), counted) =
        ((Scene.answer a r'.scene).1, (r', pace'), if a.counts then counted ++ [r'] else counted) ∧
      r.Later r' ∧ Autonomous pace' := by
  have hmoves : ∀ b ∈ pace.headD [], b.autonomous = true := by
    cases pace with
    | nil => exact nofun
    | cons moves rest => exact hpace moves List.mem_cons_self
  have htail : Autonomous pace.tail := fun moves hm => hpace moves (List.mem_of_mem_tail hm)
  have hlater := h.run hmoves
  have hattached := hlater.held.attached
  have hvalue := (Machine.Attached.exec hattached (perform a)).1
  have hleft : (Machine.answer (r.run (pace.headD [])).hardware a
      (r.run (pace.headD [])).machine).2 = (r.run (pace.headD [])).machine :=
    Machine.Attached.answer_reading hattached ha
  refine ⟨r.run (pace.headD []), pace.tail, ?_, hlater, htail⟩
  unfold answerCounted answerAmid
  refine Prod.ext hvalue ?_
  simp only [hleft]

/-- In a loop there is always a block that comes next. -/
theorem Held.slotOf_nextLink (h : r.Held) (hm : r.stream.isCircular = true) :
    ∃ slot, r.stream.pool.slotOf r.scene.nextLink = some slot := by
  have hslot (offset : Nat) : r.stream.pool.slotOf (r.stream.pool.addressAt offset) =
      some (r.stream.pool.slotAt offset) :=
    Pool.slotOf_addressOf (Pool.slotAt_lt h.sound.sits.capacity_pos offset)
  rw [h.nextLink_eq (h.engaged.circular hm), Pool.linkAt, hm]
  split
  · exact ⟨_, hslot _⟩
  · exact ⟨_, hslot 0⟩

/-- A controller that shows no next block and runs on is still at the last one. -/
theorem Later.position_of_last (h : r.Later r') (hr : r.Held)
    (hslot : r.stream.pool.slotOf r.scene.nextLink = none) (hc : r'.scene.current ≠ 0) :
    r'.position = r.stream.reachable - 1 := by
  have hrun : r.scene.current ≠ 0 := fun hz => hc (h.stopped hz)
  have hq := hr.position_lt hrun
  have hm : ¬r.stream.isCircular = true := by
    intro hm
    obtain ⟨slot, hsome⟩ := hr.slotOf_nextLink hm
    rw [hslot] at hsome
    cases hsome
  have hpos : r.position = r.stream.reachable - 1 := by
    unfold position Stream.standing
    rw [if_neg (by omega), hslot]
    exact if_neg hrun
  have hreach : r.stream.reachable = r.stream.pool.queued :=
    Stream.reachable_of_none (hr.engaged.stands.stalled_eq hrun)
  obtain ⟨blocks, -, hpos'⟩ := h.ahead
  have hq' := h.held.position_lt hc
  rw [h.stream] at hq'
  rw [Stream.ahead, if_neg hm] at hpos'
  omega

/-- The position that is worked out is where the controller stands once it has been worked out. -/
theorem Held.run_executingOffset (h : r.Held) (hpace : Autonomous pace) (counted : List Rig) :
    ∃ r' pace', r.stream.executingOffset.run answerCounted ((r, pace), counted) =
        (r'.position, (r', pace'), counted) ∧ r.Later r' ∧ Autonomous pace' := by
  unfold Stream.executingOffset
  by_cases hq : r.stream.pool.queued = 0
  · have hpos : r.position = 0 := if_pos hq
    rw [if_pos hq]
    exact ⟨r, pace, by rw [hpos]; rfl, .refl h, hpace⟩
  · rw [if_neg hq]
    obtain ⟨r₁, pace₁, hread, hlater, hpace₁⟩ := h.read hpace counted (a := .nextPointer) trivial
    have hnext : (Scene.answer .nextPointer r₁.scene).1 = r₁.scene.nextLink := rfl
    have hq₁ : ¬r₁.stream.pool.queued = 0 := by rwa [hlater.stream]
    cases hslot : r₁.stream.pool.slotOf r₁.scene.nextLink with
    | some slot =>
      have hpos : r₁.position = min (r₁.stream.pool.offsetOf (r₁.stream.predecessor slot))
          (r₁.stream.reachable - 1) := by
        unfold position Stream.standing
        rw [if_neg hq₁, hslot]
      rw [hlater.stream] at hslot hpos
      refine ⟨r₁, pace₁, ?_, hlater, hpace₁⟩
      simp only [Script.bind_eq, Script.access_bind, Script.run_ask, hread, hnext, hslot, hpos]
      rfl
    | none =>
      -- nothing comes next: whether the controller still runs is asked a moment later
      obtain ⟨r₂, pace₂, hread₂, hlater₂, hpace₂⟩ :=
        hlater.held.read hpace₁ counted (a := .isActive) trivial
      have hpos : r₂.position =
          if r₂.scene.current ≠ 0 then r₁.stream.reachable - 1 else r₁.stream.reachable := by
        split
        · next hc => exact hlater₂.position_of_last hlater.held hslot hc
        · next hc =>
          rw [← hlater₂.stream]
          exact hlater₂.held.engaged.stands.eq_reachable (Decidable.not_not.mp hc)
            hlater₂.held.sound.sits
      rw [hlater.stream] at hslot hpos
      refine ⟨r₂, pace₂, ?_, hlater.trans hlater₂, hpace₂⟩
      simp only [Script.bind_eq, Script.access_bind, Script.run_ask, hread, hnext, hslot,
        Access.counts, Bool.false_eq_true, if_false, hread₂, hpos]
      by_cases hc : r₂.scene.current = 0 <;> simp [Scene.answer, hc]

/-- What can come of asking a stream for its residue while its controller goes on. -/
inductive Asks (r : Rig) : Asked → Prop where
  /-- The controller is found behind the last block. -/
  | behind {found : Rig} (hfound : r.Later found)
      (hq : r.stream.pool.queued ≤ found.position) :
      Asks r { answer := .ok 0, after := found, counted := [] }
  /-- A pointer is not that of the block at which the controller was found. -/
  | moved (after : Rig) (counted : List Rig) :
      Asks r { answer := .error .residueUnstable, after, counted }
  /-- Both pointers are, and the count is read between them. -/
  | measured {found instant after : Rig} (hfound : r.Later found)
      (hq : found.position < found.stream.pool.queued) (hinstant : found.Later instant)
      (hafter : instant.Later after)
      (hnext : after.scene.nextLink =
        (found.machine.table.read (found.stream.pool.addressAt found.position)).next) :
      Asks r
        { answer := .ok (instant.scene.remaining *
            (found.machine.table.read (found.stream.pool.addressAt found.position)).elementBytes)
          after
          counted := [instant] }

theorem Held.asks (h : r.Held) (hpace : Autonomous pace) : r.Asks (r.residueAmid pace) := by
  obtain ⟨r₁, pace₁, hoff, hlater₁, hpace₁⟩ := h.run_executingOffset hpace []
  have hbound : ¬(!r.stream.bound) = true := by simp [h.bound]
  unfold residueAmid Stream.residue
  rw [if_neg hbound, Script.bind_eq, Script.run_bind, hoff]
  simp only
  by_cases hq : r.stream.pool.queued ≤ r₁.position
  · rw [if_pos hq]
    exact .behind hlater₁ hq
  · obtain ⟨r₂, pace₂, hread₂, hlater₂, hpace₂⟩ := hlater₁.held.read hpace₁ []
      (a := .fetch (r.stream.pool.addressAt r₁.position)) trivial
    obtain ⟨r₃, pace₃, hread₃, hlater₃, hpace₃⟩ :=
      hlater₂.held.read hpace₂ [] (a := .nextPointer) trivial
    obtain ⟨r₄, pace₄, hread₄, hlater₄, hpace₄⟩ :=
      hlater₃.held.read hpace₃ [] (a := .transferCount) trivial
    obtain ⟨r₅, pace₅, hread₅, hlater₅, hpace₅⟩ :=
      hlater₄.held.read hpace₄ [r₄] (a := .nextPointer) trivial
    -- the block at which the controller was found, as it is fetched a moment later
    have hfetch : (Scene.answer (.fetch (r.stream.pool.addressAt r₁.position)) r₂.scene).1 =
        r₁.machine.table.read (r₁.stream.pool.addressAt r₁.position) := by
      rw [hlater₁.stream, ← hlater₂.table]
      rfl
    simp only [if_neg hq, Script.bind_eq, Script.access_bind, Script.run_ask, hread₂, hfetch,
      Access.counts, Bool.false_eq_true, if_false, hread₃]
    by_cases hbefore : (Scene.answer .nextPointer r₃.scene).1 ≠
        (r₁.machine.table.read (r₁.stream.pool.addressAt r₁.position)).next
    · rw [if_pos hbefore]
      exact .moved ..
    · rw [if_neg hbefore]
      simp only [Script.run_ask, hread₄, Access.counts, if_true, List.nil_append, hread₅,
        Bool.false_eq_true, if_false]
      by_cases hafter : (Scene.answer .nextPointer r₅.scene).1 ≠
          (r₁.machine.table.read (r₁.stream.pool.addressAt r₁.position)).next
      · rw [if_pos hafter]
        exact .moved ..
      · rw [if_neg hafter]
        refine .measured hlater₁ ?_ ((hlater₂.trans hlater₃).trans hlater₄) hlater₅
          (Decidable.not_not.mp hafter)
        rw [hlater₁.stream]
        exact Nat.not_le.mp hq

/-! ## The answer -/

section Witness

variable (hr : r.Held) (h : r.Later r') (h' : r'.Later r'')
  (hq : r.position < r.stream.pool.queued)
  (hnext : r''.scene.nextLink =
    (r.machine.table.read (r.stream.pool.addressAt r.position)).next)
  (hlap : r.stream.isCircular = true →
    r''.executed.length < r.executed.length + r.stream.pool.queued)

include hr h h' hq hnext hlap

/-- A pointer that is still that of the block at which the controller stood says that it stands
there yet, if it runs at all. -/
theorem position_of_witness (hc : r'.scene.current ≠ 0) : r'.position = r.position := by
  have hlater := h.trans h'
  obtain ⟨blocks, hlen, hpos⟩ := h.ahead
  obtain ⟨more, hlen', hpos'⟩ := hlater.ahead
  have hle := h'.executed_le
  have hlinked : (r.machine.table.read (r.stream.pool.addressAt r.position)).next =
      r.stream.pool.linkAt r.stream.isCircular r.position := hr.engaged.linked _ hq
  rw [hlinked] at hnext
  by_cases hc'' : r''.scene.current = 0
  · -- the chain ended, so the block was its last one
    have hm : ¬r.stream.isCircular = true := by
      intro hm
      exact hlater.held.engaged.circular (hlater.stream ▸ hm) hc''
    have hzero : r''.scene.nextLink = 0 := if_pos hc''
    have hlast : ¬r.position + 1 < r.stream.pool.queued := by
      intro hlt
      rw [hzero, Pool.linkAt, if_pos hlt] at hnext
      exact hr.sound.sits.addressAt_ne_zero _ hnext.symm
    have hq' := h.held.position_lt hc
    rw [h.stream] at hq'
    rw [Stream.ahead, if_neg hm] at hpos
    omega
  · -- the same link is that of the same block, and in less than a turn it is not come back to
    have hlink := hlater.held.nextLink_eq hc''
    have hq'' := hlater.held.position_lt hc''
    rw [hlater.stream] at hlink hq''
    have hsame : r''.position = r.position :=
      Pool.linkAt_inj hr.sound.sits hq'' hq (hlink.symm.trans hnext)
    have hmore : more = 0 := by
      apply Stream.eq_zero_of_ahead hq (hpos'.symm.trans hsame)
      intro hm
      have := hlap hm
      omega
    have hblocks : blocks = 0 := by omega
    rw [hpos, hblocks]
    exact Stream.ahead_zero fun _ => hq

/-- The count belongs to that block, or to no block at all and is zero. -/
theorem bytesLeft_of_witness :
    r'.scene.remaining *
        (r.machine.table.read (r.stream.pool.addressAt r.position)).elementBytes =
      r'.bytesLeft := by
  unfold bytesLeft
  by_cases hc : r'.scene.current = 0
  · have hstop : r'.controller.isRunning = false :=
      decide_eq_false (not_not_intro (show r'.controller.current = 0 from hc))
    rw [hstop, h.held.spent hc, Nat.zero_mul]
    rfl
  · have hrun : r'.controller.isRunning = true := decide_eq_true hc
    have hcur : r'.controller.current = r.stream.pool.addressAt r.position := by
      rw [← position_of_witness hr h h' hq hnext hlap hc, ← h.stream]
      exact (h.held.sound.executing hc).2.2
    rw [if_pos hrun, hcur, h.table]
    rfl

end Witness

/-- What a stream that was asked while its controller went on may answer: what was left at the
instant at which the count was read, or nothing once the controller has stopped. -/
def Asked.Right (a : Asked) (bytes : Nat) : Prop :=
  (∃ instant, a.counted = [instant] ∧ bytes = instant.bytesLeft) ∨
    (a.counted = [] ∧ bytes = 0 ∧ a.after.controller.isRunning = false)

theorem Held.residueAmid_right (h : r.Held) (hpace : Autonomous pace)
    (hlap : r.stream.isCircular = true →
      (r.residueAmid pace).after.executed.length <
        r.executed.length + r.stream.pool.queued)
    {bytes : Nat} (hok : (r.residueAmid pace).answer = .ok bytes) :
    (r.residueAmid pace).Right bytes := by
  have hasks := h.asks hpace
  generalize r.residueAmid pace = asked at hasks hlap hok ⊢
  cases hasks with
  | behind hfound hq =>
    rw [← hfound.stream] at hq
    have hstop := hfound.held.engaged.stands.stopped_of_le hq
    exact .inr ⟨rfl, (Except.ok.inj hok).symm, decide_eq_false (not_not_intro hstop)⟩
  | moved after counted => cases hok
  | @measured found instant after hfound hq hinstant hafter hnext =>
    have hturn : found.stream.isCircular = true →
        after.executed.length < found.executed.length + found.stream.pool.queued := by
      intro hm
      rw [hfound.stream] at hm ⊢
      exact Nat.lt_of_lt_of_le (hlap hm) (Nat.add_le_add_right hfound.executed_le _)
    have hleft := bytesLeft_of_witness hfound.held hinstant hafter hq hnext hturn
    exact .inl ⟨instant, rfl, (Except.ok.inj hok).symm.trans hleft⟩

/-- **A residue that is returned is right.** A stream is made on a channel whose controller reads
truthfully and has stopped; operations, moves of the controller and events of any kind follow one
another in any order, until a stream that holds its channel is asked for its residue. While it is
asked its controller moves elements and finishes blocks at will, in a loop less than a turn of them.
If the answer is a number of bytes, it is what the controller had left at the instant at which the
count was read; or the count was not read, the answer is zero, and the controller has stopped. -/
theorem residueAmid_run {m : Machine} {number index capacity : Nat} {config : StreamConfig}
    (hcap : 0 < capacity) (hindex : index < m.controllers.size)
    (htruth : (m.controller index).Truthful) (hstop : (m.controller index).current = 0)
    (hr : m.rig number index capacity config = .ok r) (actions : List Action)
    (hb : (r.run actions).stream.bound = true) (hpace : Autonomous pace)
    (hlap : (r.run actions).stream.isCircular = true →
      ((r.run actions).residueAmid pace).after.executed.length <
        (r.run actions).executed.length + (r.run actions).stream.pool.queued)
    {bytes : Nat} (hok : ((r.run actions).residueAmid pace).answer = .ok bytes) :
    ((r.run actions).residueAmid pace).Right bytes := by
  obtain ⟨k, hpoised⟩ := poised_run hcap hindex htruth hstop hr actions
  exact (hpoised.held hb).residueAmid_right hpace hlap hok

/-- A loop of two blocks of different widths is asked while its controller goes on from the first
to the second and moves two elements there. -/
theorem residueAmid_run_loop :
    ∃ r, Machine.rig { controllers := #[{}] } 3 0 2 { mode := .circular } = .ok r ∧
      let asked := (r.run [.append 0 64 8, .configure { width := .word }, .append 8 72 12,
          .enable, .moveElements 1]).residueAmid
        [[.finish], [], [.moveElements 1], [.moveElements 1]]
      asked.Right 4 := by
  obtain ⟨r, hr⟩ : ∃ r, Machine.rig { controllers := #[{}] } 3 0 2 { mode := .circular } = .ok r :=
    ⟨_, rfl⟩
  refine ⟨r, hr, residueAmid_run (by decide) (by decide) ⟨rfl, rfl, rfl⟩ rfl hr _ ?_ ?_ ?_ ?_⟩
  · obtain rfl := Except.ok.inj hr
    decide +kernel
  · simp [Autonomous, Action.autonomous]
  · obtain rfl := Except.ok.inj hr
    decide +kernel
  · obtain rfl := Except.ok.inj hr
    decide +kernel

end Rig

end ScatterGather
