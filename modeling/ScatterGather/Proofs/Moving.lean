import ScatterGather.Bench.Command
import ScatterGather.Proofs.Copying
import ScatterGather.Proofs.Linkage
import ScatterGather.Proofs.Residue

/-!
# ScatterGather.Proofs.Moving — a stream that was moved is still the same

Between two transfers a stream may be moved. Its descriptors come to other addresses, with links
that lead to the old ones, or to still older ones. `Stream.Mirrors` compares such a stream with the
same stream left where it was: memory, registers and descriptors are alike, but for the addresses of
the descriptors and for the links. As long as neither holds its channel links can lead anywhere.
When both do, both are linked in the order of their blocks, so that their controllers stand at the
same offset, and that is all that is ever read from an address.

Each operation and each move of the controller keeps the comparison and gives the same result on
both sides. `Rig.Carried` is a run in which the stream is moved any number of times, and
`Rig.carried_same` says that it cannot be told from the run in which it stays.
-/

namespace ScatterGather

/-! ## Descriptors without their links -/

/-- A descriptor without its link. -/
def Descriptor.unlinked (d : Descriptor) : Descriptor :=
  { d with next := 0 }

namespace Descriptor

variable {d d' : Descriptor} (h : d.unlinked = d'.unlinked)

include h

theorem control_of_unlinked : d.control = d'.control := by
  injection h

theorem elements_of_unlinked : d.elements = d'.elements := by
  rw [elements, elements, control_of_unlinked h]

theorem elementBytes_of_unlinked : d.elementBytes = d'.elementBytes := by
  rw [elementBytes, elementBytes, control_of_unlinked h]

theorem interrupts_of_unlinked : d.interrupts = d'.interrupts := by
  rw [interrupts, interrupts, control_of_unlinked h]

/-- A link has no say in what a block is. -/
theorem block_of_unlinked : d.block = d'.block := by
  have hbody := congrArg body h
  exact block_congr hbody

/-- Descriptors that are armed or disarmed alike stay alike. -/
theorem arm_of_unlinked (on : Bool) :
    unlinked { d with control := armed d.control on } =
      unlinked { d' with control := armed d'.control on } := by
  obtain ⟨source, destination, control, next⟩ := d
  obtain ⟨source', destination', control', next'⟩ := d'
  injection h
  subst_vars
  rfl

end Descriptor

theorem Scene.nextLink_moveElements (v : Scene) (count : Nat) :
    (v.moveElements count).nextLink = v.nextLink := by
  rw [nextLink, nextLink, current_moveElements, table_moveElements]

/-! ## Streams at another base -/

/-- The stream, with its descriptors at another base. -/
def Stream.rebased (s : Stream) (base : Nat) : Stream :=
  { s with pool := { s.pool with base } }

/-- The last block of a line leads nowhere, and every other block to a descriptor. -/
theorem Pool.Sits.linkAt_eq_zero {p : Pool} {t : DescriptorTable} (h : p.Sits t)
    (closeLoop : Bool) (offset : Nat) :
    p.linkAt closeLoop offset = 0 ↔ p.queued ≤ offset + 1 ∧ closeLoop = false := by
  have hne := h.addressAt_ne_zero
  unfold linkAt
  split
  · next hlt => exact ⟨fun hz => absurd hz (hne _), fun hn => absurd hlt (by omega)⟩
  · next hge =>
    cases closeLoop with
    | false => exact ⟨fun _ => ⟨by omega, rfl⟩, fun _ => rfl⟩
    | true => exact ⟨fun hz => absurd hz (hne _), fun hn => nomatch hn.2⟩

/-! ## Copies of a queue -/

namespace Pool

variable {p : Pool} {t t' : DescriptorTable} {base : Nat}

/-- At another base, in another table, the queued descriptors are the same but for their links. -/
def Copied (p : Pool) (base : Nat) (t t' : DescriptorTable) : Prop :=
  ∀ offset < p.queued,
    (t'.read (addressAt { p with base } offset)).unlinked = (t.read (p.addressAt offset)).unlinked

theorem Copied.retire (h : p.Copied base t t') {count : Nat} (hc : count ≤ p.queued) :
    (p.retire count).Copied base t t' := by
  intro offset ho
  rw [queued_retire hc] at ho
  have hmoved : addressAt { p.retire count with base } offset =
      addressAt { p with base } (count + offset) :=
    addressAt_retire (p := { p with base }) hc offset
  rw [hmoved, addressAt_retire hc]
  exact h (count + offset) (by omega)

theorem copied_of_empty (hq : p.queued = 0) : p.Copied base t t' :=
  fun offset ho => absurd ho (by rw [hq]; exact Nat.not_lt_zero offset)

/-- Rewriting both queues alike, but for the links, leaves them alike. -/
theorem Copied.updateEach (h : p.Copied base t t') (hs : p.Sits t)
    (hs' : Pool.Sits { p with base } t') {w w' : Nat → Descriptor → Descriptor.Write}
    (hw : ∀ (offset : Nat) {d d' : Descriptor}, d'.unlinked = d.unlinked →
      (d'.apply (w' offset d')).unlinked = (d.apply (w offset d)).unlinked) :
    p.Copied base (t.updateEach p.addressAt w 0 p.queued)
      (t'.updateEach (addressAt { p with base }) w' 0 p.queued) := by
  intro offset ho
  have hread := hs'.read_updateEach w' (show offset < p.queued from ho)
  rw [show (t'.updateEach _ w' 0 p.queued).read _ = _ from hread, hs.read_updateEach w ho]
  exact hw offset (h offset ho)

theorem Copied.relinked (h : p.Copied base t t') (hs : p.Sits t)
    (hs' : Pool.Sits { p with base } t') (closeLoop : Bool) :
    p.Copied base (p.relinked t closeLoop) (Pool.relinked { p with base } t' closeLoop) :=
  h.updateEach hs hs' fun _ _ _ heq => heq

/-- Of the block that is queued nothing but the link depends on the base. -/
theorem Sits.unlinked_pushed (hs : p.Sits t) (hroom : p.queued < p.capacity)
    (source destination : Nat) (control : UInt32) (closeLoop : Bool) {offset : Nat}
    (ho : offset ≤ p.queued) :
    ((p.pushed t source destination control closeLoop).read (p.addressAt offset)).unlinked =
      if offset = p.queued then { source, destination, control }
      else (t.read (p.addressAt offset)).unlinked := by
  rw [hs.read_pushed _ _ _ _ hroom]
  by_cases hnew : offset = p.queued
  · rw [if_pos hnew, if_pos (by rw [hnew])]
    rfl
  · have hne : p.addressAt offset ≠ p.addressAt p.queued := fun heq =>
      hnew (addressAt_inj hs.head_lt (by omega) hroom heq)
    rw [if_neg hnew, if_neg hne]
    split <;> rfl

end Pool

namespace Stream

variable {s : Stream} {v v' : Scene} {base k : Nat}

theorem discardFinished_rebased :
    (s.rebased base).discardFinished = s.discardFinished.rebased base := by
  unfold discardFinished
  show (if (!s.bound && s.state.isFinal) = true then _ else _) = rebased (if _ then _ else _) base
  split <;> rfl

theorem configure_rebased (base : Nat) (settings : TransferSettings) :
    (s.rebased base).configure settings =
      ((s.configure settings).1, (s.configure settings).2.rebased base) := by
  unfold configure
  show (if s.bound = true then _ else _) = _
  split
  · rfl
  · split <;> rfl

theorem pool_configure (settings : TransferSettings) :
    (s.configure settings).2.pool = s.pool := by
  unfold configure
  split
  · rfl
  · split <;> rfl

/-! ## What two places have in common -/

/-- A controller has stopped if its stream rests, or if it stands in front of a block that it cannot
reach. -/
theorem Sound.current_eq_zero (h : s.Sound v k) :
    v.current = 0 ↔ (s.bound = true → k = s.reachable) := by
  cases hb : s.bound with
  | false => exact ⟨fun _ => nofun, fun _ => h.stopped hb⟩
  | true =>
    have hstands := (h.engaged hb).stands
    refine ⟨fun hc _ => hstands.eq_reachable hc h.sits, fun hk => Decidable.not_not.mp fun hc => ?_⟩
    obtain ⟨hq, -⟩ := hstands.executing hc
    rw [hk rfl, reachable_of_none (hstands.stalled_eq hc)] at hq
    exact Nat.lt_irrefl _ hq

theorem Sound.nextLink_eq (h : s.Sound v k) (hc : v.current ≠ 0) :
    v.nextLink = s.pool.linkAt s.isCircular k := by
  obtain ⟨hb, hq, hcur⟩ := h.executing hc
  rw [Scene.nextLink, if_neg hc, hcur, (h.engaged hb).linked k hq]

theorem Sound.nextLink_eq_zero (h : s.Sound v k) (hc : v.current ≠ 0) :
    v.nextLink = 0 ↔ s.pool.queued ≤ k + 1 ∧ s.isCircular = false := by
  rw [h.nextLink_eq hc, h.sits.linkAt_eq_zero]

/-- A block that is queued comes too late for a controller that stopped in front of it, and for no
other. -/
theorem Sound.tooLate_eq (h : s.Sound v k) (hroom : s.pool.queued < s.pool.capacity)
    (source destination elements : Nat) :
    s.tooLate (s.linkedScene v source destination elements) =
      (s.bound && !s.isCircular && s.stalled.isNone && decide (v.current = 0)) := by
  by_cases hc : v.current = 0
  · have hlinked : (s.linkedScene v source destination elements).current = 0 := hc
    simp [tooLate, hlinked, hc]
  · rw [tooLate_running h hroom source destination elements (h.executing hc).1 hc,
      decide_eq_false hc, Bool.and_false]

/-- A pointer to the next descriptor that is not the link of the block at which the controller
stands is that of a controller that stopped in front of a block with others behind it. -/
theorem Sound.unstable_iff (h : s.Sound v k) (hb : s.bound = true) (hq : k < s.pool.queued) :
    v.nextLink ≠ (v.table.read (s.pool.addressAt k)).next ↔
      v.current = 0 ∧ ¬(s.pool.queued ≤ k + 1 ∧ s.isCircular = false) := by
  rw [(h.engaged hb).linked k hq, ← h.sits.linkAt_eq_zero]
  by_cases hc : v.current = 0
  · rw [show v.nextLink = 0 from if_pos hc]
    exact ⟨fun hne => ⟨hc, Ne.symm hne⟩, fun hn => Ne.symm hn.2⟩
  · exact ⟨fun hne => absurd (h.nextLink_eq hc) hne, fun hn => absurd hn.1 hc⟩

variable {t t' : DescriptorTable}

theorem copied_rearmed (h : s.pool.Copied base t t') (hs : s.pool.Sits t)
    (hs' : (s.rebased base).pool.Sits t') :
    s.pool.Copied base (s.rearmed t) ((s.rebased base).rearmed t') :=
  h.updateEach hs hs' fun _ _ _ heq => Descriptor.arm_of_unlinked heq _

theorem copied_startedTable (h : s.pool.Copied base t t') (hs : s.pool.Sits t)
    (hs' : (s.rebased base).pool.Sits t') :
    s.pool.Copied base (s.startedTable t) ((s.rebased base).startedTable t') :=
  copied_rearmed (h.relinked hs hs' s.isCircular) (hs.relinked _) (hs'.relinked _)

theorem copied_appendedTable (h : s.pool.Copied base t t') (hs : s.pool.Sits t)
    (hs' : (s.rebased base).pool.Sits t') (hroom : s.pool.queued < s.pool.capacity)
    (source destination elements : Nat) :
    Pool.Copied { s.pool with queued := s.pool.queued + 1 } base
      (s.appendedTable t source destination elements)
      ((s.rebased base).appendedTable t' source destination elements) := by
  intro offset ho
  have ho : offset ≤ s.pool.queued := Nat.le_of_lt_succ ho
  have hpushed : (((s.rebased base).pool.pushed t' source destination
      ((s.rebased base).controlWord elements) (s.rebased base).isCircular).read
        ((s.rebased base).pool.addressAt offset)).unlinked =
      ((s.pool.pushed t source destination (s.controlWord elements) s.isCircular).read
        (s.pool.addressAt offset)).unlinked := by
    rw [hs.unlinked_pushed hroom _ _ _ _ ho, hs'.unlinked_pushed hroom _ _ _ _ ho]
    show (if offset = s.pool.queued then _ else _) = _
    split
    · rfl
    · exact h offset (by omega)
  show (((s.rebased base).appendedTable t' source destination elements).read
    ((s.rebased base).pool.addressAt offset)).unlinked =
      ((s.appendedTable t source destination elements).read (s.pool.addressAt offset)).unlinked
  rw [read_appendedTable hs source destination elements hroom ho rfl,
    read_appendedTable hs' source destination elements hroom ho rfl]
  show (if s.disarmsLast = true ∧ offset + 1 = s.pool.queued then _ else _ :
    Descriptor).unlinked = _
  split
  · exact Descriptor.arm_of_unlinked hpushed false
  · exact hpushed

/-- The scene of a stream, and the scene of the same stream at another base. They differ in where
the descriptors are, where their links lead, and what is found elsewhere in the table. -/
structure Mirrors (base : Nat) (s : Stream) (v v' : Scene) : Prop where
  memory : v'.memory = v.memory
  ownership : v'.ownership = v.ownership
  remaining : v'.remaining = v.remaining
  pendingPolls : v'.pendingPolls = v.pendingPolls
  starts : v'.starts = v.starts
  copied : s.pool.Copied base v.table v'.table

/-- Code that leaves a stream leaves the same one at the other base. -/
structure Echoes (base : Nat) (out out' : Stream × Scene) : Prop where
  stream : out'.1 = out.1.rebased base
  mirrors : Mirrors base out.1 out.2 out'.2

/-- Code that has a result has the same one at the other base. -/
structure Replies {β : Type} (base : Nat) (out out' : (β × Stream) × Scene) : Prop where
  result : out'.1.1 = out.1.1
  stream : out'.1.2 = out.1.2.rebased base
  mirrors : Mirrors base out.1.2 out.2 out'.2

namespace Mirrors

/-! ## Setting the controller -/

theorem load_zero (h : Mirrors base s v v') : Mirrors base s (v.load 0) (v'.load 0) :=
  { h with remaining := rfl }

/-- Both controllers are set to the same block. -/
theorem load_at (h : Mirrors base s v v') (hs : s.pool.Sits v.table)
    (hs' : (s.rebased base).pool.Sits v'.table) {offset : Nat} (ho : offset < s.pool.queued) :
    Mirrors base s (v.load (s.pool.addressAt offset))
      (v'.load ((s.rebased base).pool.addressAt offset)) := by
  refine { h with remaining := ?_ }
  show (if _ then _ else _) = (if _ then _ else _)
  rw [if_neg (hs.addressAt_ne_zero offset), if_neg (hs'.addressAt_ne_zero offset)]
  exact Descriptor.elements_of_unlinked (h.copied offset ho)

theorem start_at (h : Mirrors base s v v') (hs : s.pool.Sits v.table)
    (hs' : (s.rebased base).pool.Sits v'.table) (hq : s.pool.queued ≠ 0) :
    Mirrors base s (v.start (s.pool.addressAt 0))
      (v'.start ((s.rebased base).pool.addressAt 0)) :=
  { h.load_at hs hs' (Nat.pos_of_ne_zero hq) with starts := congrArg Nat.succ h.starts }

theorem released (h : Mirrors base s v v') (channel : Nat) (owner : OwnerId) :
    Mirrors base s (v.released channel owner) (v'.released channel owner) := by
  refine { h.load_zero with ownership := ?_ }
  show (v'.ownership.release channel owner).2 = (v.ownership.release channel owner).2
  rw [h.ownership]

theorem discardFinished (h : Mirrors base s v v') : Mirrors base s.discardFinished v v' := by
  refine { h with copied := ?_ }
  unfold Stream.discardFinished
  split
  · exact Pool.copied_of_empty rfl
  · exact h.copied

/-! ## Operations -/

theorem exec_disable (h : Mirrors base s v v') :
    Echoes base (v.exec s.disable) (v'.exec (s.rebased base).disable) := by
  rw [Stream.exec_disable, Stream.exec_disable]
  show Echoes base _ (if s.bound = true then _ else _)
  split
  · exact ⟨rfl, { h.released s.channel.number s.owner with }⟩
  · exact ⟨rfl, h⟩

theorem exec_clear (h : Mirrors base s v v') :
    Echoes base (v.exec s.clear) (v'.exec (s.rebased base).clear) := by
  rw [Stream.exec_clear, Stream.exec_clear]
  show Echoes base _ (if s.bound = true then _ else _)
  split
  · exact ⟨rfl, { h.released s.channel.number s.owner with copied := Pool.copied_of_empty rfl }⟩
  · exact ⟨rfl, { h with copied := Pool.copied_of_empty rfl }⟩

/-- How long data stays in the FIFO does not depend on descriptors. -/
theorem awaitDrained (h : Mirrors base s v v') (spins : Nat) :
    Mirrors base s (v.exec (awaitDrained spins)).2 (v'.exec (awaitDrained spins)).2 := by
  have hpoll : v'.pendingPolls - 1 = v.pendingPolls - 1 := by rw [h.pendingPolls]
  induction spins generalizing v v' with
  | zero => exact { h with pendingPolls := hpoll }
  | succ spins ih =>
    unfold Stream.awaitDrained
    rw [Scene.exec_bind, Scene.exec_bind]
    show Mirrors base s
      (Scene.exec { v with pendingPolls := v.pendingPolls - 1 }
        (if decide (v.pendingPolls ≠ 0) = true then _ else _)).2
      (Scene.exec { v' with pendingPolls := v'.pendingPolls - 1 }
        (if decide (v'.pendingPolls ≠ 0) = true then _ else _)).2
    rw [h.pendingPolls, Scene.exec_ite, Scene.exec_ite]
    have hnext : Mirrors base s { v with pendingPolls := v.pendingPolls - 1 }
        { v' with pendingPolls := v.pendingPolls - 1 } := { h with pendingPolls := rfl }
    split
    · exact ih hnext rfl
    · exact hnext

section Operations

variable (h : Mirrors base s v v') (hs : s.Sound v k) (hs' : (s.rebased base).Sound v' k)

include hs hs' in
theorem current_eq_zero : v'.current = 0 ↔ v.current = 0 :=
  hs'.current_eq_zero.trans hs.current_eq_zero.symm

include h hs hs'

theorem exec_setCallback (callback : Option Callback) :
    Echoes base (v.exec (s.setCallback callback))
      (v'.exec ((s.rebased base).setCallback callback)) := by
  rw [Stream.exec_setCallback, Stream.exec_setCallback]
  refine ⟨rfl, ?_⟩
  show Mirrors base _ _ (if (!s.bound || s.isCircular) = true then _ else _)
  split
  · exact { h with
      copied := copied_rearmed (s := { s with callback }) h.copied hs.sits hs'.sits }
  · exact { h with }

/-- A block that is queued comes too late for both controllers or for neither. -/
theorem appended (hroom : s.pool.queued < s.pool.capacity) (source destination elements : Nat) :
    let late := s.tooLate (s.linkedScene v source destination elements)
    let late' :=
      (s.rebased base).tooLate ((s.rebased base).linkedScene v' source destination elements)
    late' = late ∧
      Mirrors base (s.appended late)
        { v with table := s.appendedTable v.table source destination elements }
        { v' with
          table := (s.rebased base).appendedTable v'.table source destination elements } := by
  refine ⟨?_, { h with
    copied := copied_appendedTable h.copied hs.sits hs'.sits hroom source destination elements }⟩
  rw [hs'.tooLate_eq hroom, hs.tooLate_eq hroom, decide_eq_decide.mpr (current_eq_zero hs hs')]
  rfl

theorem exec_append (destination source size : Nat) :
    Replies base (v.exec (s.append destination source size))
      (v'.exec ((s.rebased base).append destination source size)) := by
  have hcheck : (s.rebased base).checkBlock destination source size =
      s.checkBlock destination source size := rfl
  rw [Stream.exec_append, Stream.exec_append, discardFinished_rebased, hcheck]
  cases s.checkBlock destination source size with
  | error e => exact ⟨rfl, rfl, h⟩
  | ok elements =>
    have hd := hs.discardFinished
    have hd' := hs'.discardFinished
    rw [discardFinished_rebased] at hd'
    show Replies base (if s.discardFinished.pool.isFull = true then _ else _)
      (if s.discardFinished.pool.isFull = true then _ else _)
    split
    · exact ⟨rfl, rfl, h.discardFinished⟩
    · next hroom =>
      obtain ⟨hlate, hmirrors⟩ := h.discardFinished.appended hd hd'
        (hd.sits.room (Bool.eq_false_iff.mpr hroom)) source destination elements
      exact ⟨rfl, congrArg (fun late => (s.discardFinished.appended late).rebased base) hlate,
        hmirrors⟩

theorem exec_enable : Replies base (v.exec s.enable) (v'.exec (s.rebased base).enable) := by
  have hbind : v'.ownership.bind (s.rebased base).channel.number (s.rebased base).owner =
      v.ownership.bind s.channel.number s.owner := by
    rw [h.ownership]
    rfl
  rw [Stream.exec_enable, Stream.exec_enable, hbind]
  show Replies base (if s.bound = true ∨ s.pool.queued = 0 then _ else _)
    (if s.bound = true ∨ s.pool.queued = 0 then _ else _)
  split
  · exact ⟨rfl, rfl, h⟩
  · next hno =>
    rcases v.ownership.bind s.channel.number s.owner with ⟨granted, ownership⟩
    cases granted with
    | error e => exact ⟨rfl, rfl, { h with ownership := rfl }⟩
    | ok u =>
      have hstarted : Mirrors base s { v with ownership, table := s.startedTable v.table }
          { v' with ownership, table := (s.rebased base).startedTable v'.table } :=
        { h with ownership := rfl, copied := copied_startedTable h.copied hs.sits hs'.sits }
      have hstart := hstarted.start_at (hs.sits.mono (Nat.le_of_eq size_startedTable.symm))
        (hs'.sits.mono (Nat.le_of_eq size_startedTable.symm)) (not_or.mp hno).2
      exact ⟨rfl, rfl, { hstart with }⟩

/-! ## Events -/

/-- Both streams forget the same blocks. -/
theorem retired (hb : s.bound = true) :
    Echoes base (s.retired v, v) ((s.rebased base).retired v', v') := by
  have hk := (hs.engaged hb).stands.le
  cases hm : s.isCircular with
  | true =>
    have hstay : s.retired v = s := by rw [Stream.retired, hm]; rfl
    have hstay' : (s.rebased base).retired v' = s.rebased base := by
      rw [Stream.retired, show (s.rebased base).isCircular = true from hm]
      rfl
    rw [hstay, hstay']
    exact ⟨rfl, h⟩
  | false =>
    rw [hs.retired_oneShot hb hm, hs'.retired_oneShot hb hm]
    exact ⟨rfl, { h with copied := h.copied.retire hk }⟩

theorem react (hb : s.bound = true) (event : TransferEvent) :
    Echoes base (v.exec (s.react event)) (v'.exec ((s.rebased base).react event)) := by
  obtain ⟨hretired, hmirrors⟩ := h.retired hs hs' hb
  change (s.rebased base).retired v' = (s.retired v).rebased base at hretired
  cases event with
  | progress =>
    rw [exec_react_progress, exec_react_progress, hretired]
    exact ⟨rfl, { hmirrors with }⟩
  | complete =>
    have hsits' := (hs'.retired hb).sits
    rw [hretired] at hsits'
    rw [exec_react_complete, exec_react_complete, hretired]
    show Echoes base _ (if s.isCircular = false ∧ (s.retired v).pool.queued ≠ 0 then _ else _)
    split
    · next hgo => exact ⟨rfl, { hmirrors.start_at (hs.retired hb).sits hsits' hgo.2 with }⟩
    · exact ⟨rfl, { hmirrors.released s.channel.number s.owner with }⟩
  | busError => exact ⟨rfl, { h.released s.channel.number s.owner with }⟩
  | timeout =>
    rw [exec_react_timeout_eq, exec_react_timeout_eq]
    show Echoes base _ (if s.config.timeoutPolicy = .abort then _ else _)
    split
    · exact ⟨rfl, { h.released s.channel.number s.owner with }⟩
    · exact ⟨rfl, { h.awaitDrained drainSpinLimit with }⟩

theorem exec_onInterrupt (event : TransferEvent) :
    Replies base (v.exec (s.onInterrupt event))
      (v'.exec ((s.rebased base).onInterrupt event)) := by
  rw [Stream.exec_onInterrupt, Stream.exec_onInterrupt]
  show Replies base _ (if s.bound = true then _ else _)
  split
  · next hb =>
    have hreact := h.react hs hs' hb event
    have hstatus := congrArg Stream.status hreact.stream
    exact ⟨congrArg some hstatus, hreact.stream, hreact.mirrors⟩
  · exact ⟨rfl, rfl, h⟩

/-! ## Moves of the controller -/

/-- Controllers that run execute the same block. -/
theorem executing (hc : v.current ≠ 0) :
    (v'.table.read v'.current).unlinked = (v.table.read v.current).unlinked := by
  obtain ⟨-, hq, hcur⟩ := hs.executing hc
  obtain ⟨-, -, hcur'⟩ := hs'.executing fun hc' => hc ((current_eq_zero hs hs').mp hc')
  rw [hcur, hcur']
  exact h.copied k hq

theorem moveElements (count : Nat) :
    Mirrors base s (v.moveElements count) (v'.moveElements count) := by
  by_cases hc : v.current = 0
  · rw [Scene.moveElements, if_pos hc, Scene.moveElements, if_pos ((current_eq_zero hs hs').mpr hc)]
    exact h
  · have hc' : v'.current ≠ 0 := fun hc' => hc ((current_eq_zero hs hs').mp hc')
    have hsame := h.executing hs hs' hc
    rw [Scene.moveElements, if_neg hc, Scene.moveElements, if_neg hc']
    refine { h with memory := ?_, remaining := ?_ }
    · show v'.memory.copyElements (v'.table.read v'.current)
          ((v'.table.read v'.current).elements - v'.remaining) (min count v'.remaining) = _
      rw [Memory.copyElements_congr _ (Descriptor.block_of_unlinked hsame),
        Descriptor.elements_of_unlinked hsame, h.memory, h.remaining]
    · show v'.remaining - min count v'.remaining = _
      rw [h.remaining]

/-- Both controllers go on to the same block, or both stop. -/
theorem load_nextLink (hc : v.current ≠ 0) :
    Mirrors base s (v.load v.nextLink) (v'.load v'.nextLink) := by
  have hc' : v'.current ≠ 0 := fun hc' => hc ((current_eq_zero hs hs').mp hc')
  obtain ⟨-, hq, -⟩ := hs.executing hc
  rw [hs.nextLink_eq hc, hs'.nextLink_eq hc']
  unfold Pool.linkAt
  show Mirrors base s _
    (v'.load (if k + 1 < s.pool.queued then (s.rebased base).pool.addressAt (k + 1)
      else if s.isCircular = true then (s.rebased base).pool.addressAt 0 else 0))
  split
  · next hlt => exact h.load_at hs.sits hs'.sits hlt
  · split
    · exact h.load_at hs.sits hs'.sits (Nat.zero_lt_of_lt hq)
    · exact h.load_zero

theorem finish : v'.finishEvent = v.finishEvent ∧ Mirrors base s v.finish v'.finish := by
  by_cases hc : v.current = 0
  · have hc' := (current_eq_zero hs hs').mpr hc
    rw [Scene.finish_stopped hc, Scene.finish_stopped hc', Scene.finishEvent, Scene.finishEvent,
      if_pos (.inl hc'), if_pos (.inl hc)]
    exact ⟨rfl, h⟩
  · have hc' : v'.current ≠ 0 := fun hc' => hc ((current_eq_zero hs hs').mp hc')
    have hlast : v'.nextLink = 0 ↔ v.nextLink = 0 :=
      (hs'.nextLink_eq_zero hc').trans (hs.nextLink_eq_zero hc).symm
    constructor
    · rw [Scene.finishEvent, Scene.finishEvent,
        Descriptor.interrupts_of_unlinked (h.executing hs hs' hc)]
      simp only [hc, hc', hlast]
    · -- what was moved has no say in where the link leads
      have hload := (h.moveElements hs hs' v.remaining).load_nextLink (hs.moveElements _)
        (hs'.moveElements _) (by rwa [Scene.current_moveElements])
      rw [Scene.nextLink_moveElements, Scene.nextLink_moveElements] at hload
      rw [Scene.finish_running hc, Scene.finish_running hc', h.remaining]
      exact hload

/-! ## What is reported -/

omit h in
theorem exec_queued : (v'.exec (s.rebased base).queued).1 = (v.exec s.queued).1 := by
  rw [Stream.exec_queued, Stream.exec_queued]
  show (if s.bound = true then s.pool.queued - _ else s.pool.queued) = _
  split
  · next hb => rw [hs'.standing_eq hb, hs.standing_eq hb]
  · rfl

theorem leftover : (s.rebased base).leftover v' = s.leftover v := by
  cases hb : s.bound with
  | false =>
    rw [Stream.leftover, Stream.leftover, if_pos (.inl hb), if_pos (.inl hb)]
  | true =>
    rw [Stream.leftover, Stream.leftover, hs'.standing_eq hb, hs.standing_eq hb]
    show (if s.bound = false ∨ s.pool.queued ≤ k then _ else _) = _
    by_cases hle : s.bound = false ∨ s.pool.queued ≤ k
    · rw [if_pos hle, if_pos hle]
    · have hq : k < s.pool.queued := Nat.not_le.mp (not_or.mp hle).2
      have hwidth := Descriptor.elementBytes_of_unlinked (h.copied k hq)
      rw [if_neg hle, if_neg hle, h.remaining]
      refine ite_congr (propext ?_) (fun _ => rfl) fun _ =>
        congrArg (fun n => Except.ok (v.remaining * n)) hwidth
      exact (hs'.unstable_iff hb hq).trans
        ((and_congr_left' (current_eq_zero hs hs')).trans (hs.unstable_iff hb hq).symm)

end Operations

end Mirrors

end Stream

/-! ## Rigs -/

namespace Rig

/-- What is replied to an action. -/
def reply (r : Rig) : Action → Bench.Reply
  | .append destination source size =>
    .dma (r.machine.exec r.hardware (r.stream.append destination source size)).1.1
  | .configure settings => .config (r.stream.configure settings).1
  | .enable => .result (r.machine.exec r.hardware r.stream.enable).1.1
  | .deliver =>
    match r.raised with
    | [] => .empty
    | event :: _ => .status? (r.machine.exec r.hardware (r.stream.onInterrupt event)).1.1
  | .interrupt event => .status? (r.machine.exec r.hardware (r.stream.onInterrupt event)).1.1
  | .finish => .event? (r.machine.finish r.index).1
  | _ => .done

/-- What is replied to actions, one after another. -/
def replies (r : Rig) : List Action → List Bench.Reply
  | [] => []
  | a :: actions => r.reply a :: (r.step a).replies actions

/-- The rig with its stream at another base, on another machine. -/
def rebased (r : Rig) (base : Nat) (machine : Machine) : Rig :=
  { r with machine, stream := r.stream.rebased base }

/-- The stream is moved to a row of another table in which its descriptors read as they did. -/
structure Vacates (r : Rig) (base : Nat) (table : DescriptorTable) : Prop where
  unbound : r.stream.bound = false
  sits : (r.stream.rebased base).pool.Sits table
  copied : ∀ slot < r.stream.pool.capacity,
    table.read ((r.stream.rebased base).pool.addressOf slot) =
      r.machine.table.read (r.stream.pool.addressOf slot)

/-- From a rig actions lead to these replies and another rig, with the stream moved in between. -/
inductive Carried : Rig → List Action → List Bench.Reply → Rig → Prop
  | done (r : Rig) : Carried r [] [] r
  | act {r r' : Rig} {a : Action} {actions : List Action} {replies : List Bench.Reply}
    (ha : a.moves = false) (h : Carried (r.step a) actions replies r') :
    Carried r (a :: actions) (r.reply a :: replies) r'
  | move {r r' : Rig} {base : Nat} {table : DescriptorTable} {actions : List Action}
    {replies : List Bench.Reply} (hmove : r.Vacates base table)
    (h : Carried (r.rebased base { r.machine with table }) actions replies r') :
    Carried r actions replies r'

variable {r r' : Rig} {base k : Nat} {m' : Machine}

/-! ## Two places -/

/-- A rig, and the same rig with its stream at another base. -/
structure Twin (r : Rig) (base : Nat) (m' : Machine) (k : Nat) : Prop where
  attached : r.Attached
  attached' : (r.rebased base m').Attached
  sound : r.stream.Sound r.scene k
  sound' : (r.rebased base m').stream.Sound (r.rebased base m').scene k
  mirrors : Stream.Mirrors base r.stream r.scene (r.rebased base m').scene

theorem Twin.refl (ha : r.Attached) (hs : r.stream.Sound r.scene k) :
    r.Twin r.stream.pool.base r.machine k :=
  ⟨ha, ha, hs, hs, ⟨rfl, rfl, rfl, rfl, rfl, fun _ _ => rfl⟩⟩

/-- What code comes to on both scenes it comes to on both machines. -/
theorem Twin.driven {α : Type} (h : r.Twin base m' k) {x x' : DriverScript α}
    {R : α × Scene → α × Scene → Prop}
    (hx : R (r.scene.exec x) ((r.rebased base m').scene.exec x')) :
    R ((r.machine.exec r.hardware x).1, (r.machine.exec r.hardware x).2.scene r.index)
      ((m'.exec r.hardware x').1, (m'.exec r.hardware x').2.scene r.index) := by
  obtain ⟨hresult, hscene⟩ := Machine.Attached.exec h.attached x
  obtain ⟨hresult', hscene'⟩ := Machine.Attached.exec h.attached' x'
  have hout : ((r.machine.exec r.hardware x).1, (r.machine.exec r.hardware x).2.scene r.index) =
      r.scene.exec x := Prod.ext hresult hscene
  have hout' : ((m'.exec r.hardware x').1, (m'.exec r.hardware x').2.scene r.index) =
      (r.rebased base m').scene.exec x' := Prod.ext hresult' hscene'
  rwa [hout, hout']

theorem eq_rebased {s' : Stream} {accepted : List Block} (hs : s' = r.stream.rebased base)
    (haccepted : accepted = r.accepted) :
    { r with machine := m', stream := s', accepted } = r.rebased base m' := by
  rw [hs, haccepted]
  rfl

/-- An event does the same at both places. -/
theorem Twin.interrupt (h : r.Twin base m' k) (event : TransferEvent) :
    ∃ m₁, (r.rebased base m').interrupt event = (r.interrupt event).rebased base m₁ ∧
      (r.rebased base m').reply (.interrupt event) = r.reply (.interrupt event) ∧
      Stream.Mirrors base (r.interrupt event).stream (r.interrupt event).scene
        (m₁.scene r.index) := by
  have hout := h.driven (R := Stream.Replies base)
    (h.mirrors.exec_onInterrupt h.sound h.sound' event)
  exact ⟨_, eq_rebased (r := r.interrupt event) hout.stream rfl,
    congrArg Bench.Reply.status? hout.result, hout.mirrors⟩

/-- Both controllers execute the same block. -/
theorem Twin.executing (h : r.Twin base m' k) :
    (r.rebased base m').executing = r.executing := by
  have hiff := Stream.Mirrors.current_eq_zero h.sound h.sound'
  unfold Rig.executing
  by_cases hc : r.scene.current = 0
  · have hrun : r.controller.isRunning = false := decide_eq_false (not_not_intro hc)
    have hrun' : (r.rebased base m').controller.isRunning = false :=
      decide_eq_false (not_not_intro (hiff.mpr hc))
    rw [hrun, hrun']
    rfl
  · have hrun : r.controller.isRunning = true := decide_eq_true hc
    have hrun' : (r.rebased base m').controller.isRunning = true :=
      decide_eq_true (mt hiff.mp hc)
    rw [hrun, hrun']
    have hblock := Descriptor.block_of_unlinked (h.mirrors.executing h.sound h.sound' hc)
    exact congrArg (fun block => [block]) hblock

/-- **Every action but a move does the same at both places**, and is replied to alike. -/
theorem Twin.step_eq (h : r.Twin base m' k) {a : Action} (ha : a.moves = false) :
    ∃ m₁, (r.rebased base m').step a = (r.step a).rebased base m₁ ∧
      (r.rebased base m').reply a = r.reply a ∧
      Stream.Mirrors base (r.step a).stream (r.step a).scene (m₁.scene r.index) := by
  cases a with
  | append destination source size =>
    have hout := h.driven (R := Stream.Replies base)
      (h.mirrors.exec_append h.sound h.sound' destination source size)
    have haccepted := congrArg (fun result =>
      r.accepted ++ r.stream.requested destination source size result) hout.result
    exact ⟨_, eq_rebased (r := r.step (.append destination source size)) hout.stream haccepted,
      congrArg Bench.Reply.dma hout.result, hout.mirrors⟩
  | configure settings =>
    have hout := r.stream.configure_rebased base settings
    have hresult := congrArg Prod.fst hout
    have hmirrors : Stream.Mirrors base (r.stream.configure settings).2 r.scene
        (m'.scene r.index) := by
      refine { h.mirrors with copied := ?_ }
      rw [Stream.pool_configure]
      exact h.mirrors.copied
    exact ⟨m', eq_rebased (r := r.step (.configure settings)) (congrArg Prod.snd hout) rfl,
      congrArg Bench.Reply.config hresult, hmirrors⟩
  | setCallback callback =>
    have hout := h.driven (R := Stream.Echoes base)
      (h.mirrors.exec_setCallback h.sound h.sound' callback)
    exact ⟨_, eq_rebased (r := r.step (.setCallback callback)) hout.stream rfl, rfl, hout.mirrors⟩
  | enable =>
    have hout := h.driven (R := Stream.Replies base) (h.mirrors.exec_enable h.sound h.sound')
    exact ⟨_, eq_rebased (r := r.step .enable) hout.stream rfl,
      congrArg Bench.Reply.result hout.result, hout.mirrors⟩
  | disable =>
    have hout := h.driven (R := Stream.Echoes base) h.mirrors.exec_disable
    exact ⟨_, eq_rebased (r := r.step .disable) hout.stream rfl, rfl, hout.mirrors⟩
  | clear =>
    have hout := h.driven (R := Stream.Echoes base) h.mirrors.exec_clear
    exact ⟨_, eq_rebased (r := r.step .clear) hout.stream rfl, rfl, hout.mirrors⟩
  | deliver =>
    cases hraised : r.raised with
    | nil =>
      have hraised' : (r.rebased base m').raised = [] := hraised
      rw [step_deliver_nil hraised, step_deliver_nil hraised', reply, reply, hraised, hraised']
      exact ⟨m', rfl, rfl, h.mirrors⟩
    | cons event raised =>
      have hraised' : (r.rebased base m').raised = event :: raised := hraised
      obtain ⟨m₁, hstep, hreply, hmirrors⟩ := h.interrupt event
      rw [step_deliver_cons hraised, step_deliver_cons hraised', hstep, reply, reply, hraised,
        hraised']
      exact ⟨m₁, rfl, hreply, hmirrors⟩
  | interrupt event => exact h.interrupt event
  | moveElements count =>
    have hmirrors := h.mirrors.moveElements h.sound h.sound' count
    refine ⟨m'.moveElements r.index count, rfl, rfl, ?_⟩
    rwa [scene, scene, ← Machine.Attached.scene_moveElements h.attached,
      ← Machine.Attached.scene_moveElements h.attached'] at hmirrors
  | finish =>
    obtain ⟨hevent, hmirrors⟩ := h.mirrors.finish h.sound h.sound'
    have hraised : (m'.finish r.index).1 = (r.machine.finish r.index).1 :=
      (Machine.Attached.finish_event h.attached').trans
        (hevent.trans (Machine.Attached.finish_event h.attached).symm)
    rw [scene, scene, ← Machine.Attached.scene_finish h.attached,
      ← Machine.Attached.scene_finish h.attached'] at hmirrors
    refine ⟨(m'.finish r.index).2, ?_, congrArg Bench.Reply.event? hraised, hmirrors⟩
    show ({ r.rebased base (m'.finish r.index).2 with
      raised := r.raised ++ (m'.finish r.index).1.toList
      executed := r.executed ++ (r.rebased base m').executing } : Rig) = _
    rw [hraised, h.executing]
    rfl
  | fillFifo polls =>
    have hscene := Machine.Attached.scene_setController h.attached
      { r.controller with pendingPolls := polls }
    have hscene' := Machine.Attached.scene_setController h.attached'
      { (r.rebased base m').controller with pendingPolls := polls }
    refine ⟨_, rfl, rfl, ?_⟩
    show Stream.Mirrors base r.stream
      ((r.machine.setController r.index { r.controller with pendingPolls := polls }).scene r.index)
      (((r.rebased base m').machine.setController (r.rebased base m').index
        { (r.rebased base m').controller with pendingPolls := polls }).scene
          (r.rebased base m').index)
    rw [hscene, hscene']
    exact { h.mirrors with pendingPolls := rfl }
  | relocate => cases ha
  | contend ownership =>
    exact ⟨{ m' with ownership }, rfl, rfl, { h.mirrors with ownership := rfl }⟩

theorem Twin.offsetAfter (h : r.Twin base m' k) (a : Action) :
    (r.rebased base m').offsetAfter k a = r.offsetAfter k a := by
  cases a with
  | finish =>
    exact ite_congr (propext (Stream.Mirrors.current_eq_zero h.sound h.sound')) (fun _ => rfl)
      fun _ => rfl
  | _ => rfl

theorem index_step (r : Rig) (a : Action) : (r.step a).index = r.index := by
  cases a with
  | deliver =>
    cases hraised : r.raised with
    | nil => rw [step_deliver_nil hraised]
    | cons event raised => rw [step_deliver_cons hraised]; rfl
  | relocate =>
    by_cases hb : r.stream.bound = true
    · rw [step_relocate_bound hb]
    · rw [step_relocate_unbound (Bool.eq_false_iff.mpr hb)]
  | _ => rfl

/-- Two places stay two places of the same rig. -/
theorem Twin.step (h : r.Twin base m' k) {a : Action} (ha : a.moves = false) :
    ∃ m₁, (r.rebased base m').step a = (r.step a).rebased base m₁ ∧
      (r.rebased base m').reply a = r.reply a ∧
      (r.step a).Twin base m₁ (r.offsetAfter k a) := by
  obtain ⟨m₁, hstep, hreply, hmirrors⟩ := h.step_eq ha
  have hattached' := h.attached'.step a
  have hsound' := h.attached'.sound_step h.sound' a
  rw [hstep] at hattached' hsound'
  rw [h.offsetAfter] at hsound'
  refine ⟨m₁, hstep, hreply, h.attached.step a, hattached', h.attached.sound_step h.sound a,
    hsound', ?_⟩
  show Stream.Mirrors base (r.step a).stream (r.step a).scene (m₁.scene (r.step a).index)
  rwa [r.index_step a]

/-- A stream that rests may be moved once more. -/
theorem Twin.move (h : r.Twin base m' k) {base' : Nat} {table : DescriptorTable}
    (hmove : (r.rebased base m').Vacates base' table) :
    r.Twin base' { m' with table } k := by
  have hs' := h.sound'
  obtain ⟨hc, hst, rfl⟩ := hs'.resting hmove.unbound
  refine ⟨h.attached, ⟨h.attached'.hardware, h.attached'.index_lt, h.attached'.truthful⟩, h.sound,
    .atRest hmove.sits hs'.head_zero hs'.template hmove.unbound hst hc,
    { h.mirrors with copied := fun offset ho => ?_ }⟩
  have hcopied := hmove.copied (r.stream.pool.slotAt offset)
    (Pool.slotAt_lt h.sound.sits.capacity_pos offset)
  exact (congrArg Descriptor.unlinked hcopied).trans (h.mirrors.copied offset ho)

/-- A run with moves in between comes to where the run without them comes, at another base. -/
theorem Carried.twin {q q' : Rig} {actions : List Action} {replies : List Bench.Reply}
    (hrun : Carried q actions replies q') (h : r.Twin base m' k) (hq : q = r.rebased base m') :
    replies = r.replies actions ∧
      ∃ base₁ m₁ k₁, q' = (r.run actions).rebased base₁ m₁ ∧ (r.run actions).Twin base₁ m₁ k₁ := by
  induction hrun generalizing r base m' k with
  | done q => exact ⟨rfl, base, m', k, hq, h⟩
  | act ha hrun ih =>
    subst hq
    obtain ⟨m₁, hstep, hreply, htwin⟩ := h.step ha
    obtain ⟨hreplies, hend⟩ := ih htwin hstep
    exact ⟨by rw [hreply, hreplies]; rfl, hend⟩
  | move hmove hrun ih =>
    subst hq
    exact ih (h.move hmove) rfl

theorem Twin.reported (h : r.Twin base m' k) : (r.rebased base m').reported = r.reported :=
  ((Machine.Attached.exec h.attached' _).1.trans
    (Stream.Mirrors.exec_queued h.sound h.sound')).trans (Machine.Attached.exec h.attached _).1.symm

theorem Twin.residue (h : r.Twin base m' k) : (r.rebased base m').residue = r.residue := by
  rw [h.attached'.residue_eq, h.attached.residue_eq]
  exact h.mirrors.leftover h.sound h.sound'

/-- The bench moves a stream to a row of fresh descriptors. -/
theorem Carried.relocate {actions : List Action} {replies : List Bench.Reply}
    (hs : r.stream.pool.Sits r.machine.table)
    (hrun : Carried (r.step .relocate) actions replies r') : Carried r actions replies r' := by
  by_cases hb : r.stream.bound = true
  · rwa [step_relocate_bound hb] at hrun
  · have hb := Bool.eq_false_iff.mpr hb
    rw [step_relocate_unbound hb] at hrun
    exact .move ⟨hb, hs.relocated, fun _ hslot => hs.read_relocated hslot⟩ hrun

/-- A run of actions is a run of those that are no moves, with moves in between. -/
theorem Moored.carried_run (h : r.Moored) (actions : List Action) :
    ∃ replies, Carried r (actions.filter fun a => !a.moves) replies (r.run actions) := by
  induction actions generalizing r with
  | nil => exact ⟨[], .done r⟩
  | cons a actions ih =>
    obtain ⟨replies, hrun⟩ := ih (h.step a)
    cases hmoves : a.moves with
    | false =>
      rw [List.filter_cons_of_pos (by rw [hmoves]; rfl)]
      exact ⟨_, .act hmoves hrun⟩
    | true =>
      obtain rfl : a = .relocate := by
        cases a with
        | relocate => rfl
        | _ => cases hmoves
      exact ⟨replies, .relocate h.sits hrun⟩

/-- **Moving a stream that rests is harmless.** A stream is made on a channel whose controller reads
truthfully and has stopped. Operations, moves of the controller and events follow one another in any
order, and whenever the stream does not hold its channel it may be moved, any number of times, to
any row in which its descriptors read as before. Everything is as in the run in which the stream
stays where it was made: what is replied to each action, memory, the events that are raised, the
blocks that are taken and carried out, the stream but for its base, how many blocks it reports and
what it answers when it is asked for its residue. -/
theorem carried_same {m : Machine} {number index capacity : Nat} {config : StreamConfig}
    {r r' : Rig} {actions : List Action} {replies : List Bench.Reply} (hcap : 0 < capacity)
    (hindex : index < m.controllers.size) (htruth : (m.controller index).Truthful)
    (hstop : (m.controller index).current = 0) (hr : m.rig number index capacity config = .ok r)
    (hrun : Carried r actions replies r') :
    let q := r.run actions
    replies = r.replies actions ∧ r'.machine.memory = q.machine.memory ∧ r'.raised = q.raised ∧
      r'.accepted = q.accepted ∧ r'.executed = q.executed ∧
      r'.stream = { q.stream with pool := { q.stream.pool with base := r'.stream.pool.base } } ∧
      r'.reported = q.reported ∧ r'.residue = q.residue := by
  obtain ⟨ha, hs⟩ := sound_make hcap hindex htruth hstop hr
  obtain ⟨hreplies, base, m₁, k, rfl, htwin⟩ := hrun.twin (Twin.refl ha hs) rfl
  exact ⟨hreplies, htwin.mirrors.memory, rfl, rfl, rfl, rfl, htwin.reported, htwin.residue⟩

/-- A chain of three is queued at three places and started at the last; none of the links that were
made on the way leads into the row where it runs. -/
theorem carried_same_stale :
    ∃ r r' replies, Machine.rig { controllers := #[{}] } 3 0 3 {} = .ok r ∧
      Carried r [.append 8 0 4, .append 12 4 4, .append 16 0 8, .enable, .finish, .deliver, .finish,
        .finish] replies r' ∧
      r'.stream.pool.base ≠ r.stream.pool.base ∧ r'.executed.length = 3 ∧
      r'.machine.memory = (r.run [.append 8 0 4, .append 12 4 4, .append 16 0 8, .enable, .finish,
        .deliver, .finish, .finish]).machine.memory := by
  obtain ⟨r, hr⟩ : ∃ r, Machine.rig { controllers := #[{}] } 3 0 3 {} = .ok r := ⟨_, rfl⟩
  have hfacts : ((Machine.rig { controllers := #[{}] } 3 0 3 {}).toOption.map fun r =>
      let r' := r.run [.append 8 0 4, .relocate, .append 12 4 4, .relocate, .append 16 0 8,
        .relocate, .enable, .finish, .deliver, .finish, .finish]
      (r'.stream.pool.base == r.stream.pool.base, r'.executed.length)) = some (false, 3) := by
    decide +kernel
  rw [hr] at hfacts
  obtain ⟨hbase, hexecuted⟩ := Prod.mk.inj (Option.some.inj hfacts)
  obtain ⟨replies, hrun⟩ := (moored_make (by decide) (by decide) hr).carried_run
    [.append 8 0 4, .relocate, .append 12 4 4, .relocate, .append 16 0 8, .relocate, .enable,
      .finish, .deliver, .finish, .finish]
  generalize r.run _ = r' at hbase hexecuted hrun
  have hcarried : Carried r [.append 8 0 4, .append 12 4 4, .append 16 0 8, .enable, .finish,
      .deliver, .finish, .finish] replies r' := hrun
  exact ⟨r, r', replies, hr, hcarried, ne_of_beq_false hbase, hexecuted,
    (carried_same (by decide) (by decide) ⟨rfl, rfl, rfl⟩ rfl hr hcarried).2.1⟩

end Rig

end ScatterGather
