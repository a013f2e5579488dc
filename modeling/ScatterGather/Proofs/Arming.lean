import ScatterGather.Proofs.Course

/-!
# ScatterGather.Proofs.Arming — which queued blocks raise an event

The completion interrupt of a descriptor is written when its block is queued, when another block is
queued behind it, when the callback of its stream changes, and when its chain is started, and each
of these has conditions of its own. What they come to is one layout: a queued block is armed exactly
if its completion is wanted (`Stream.wantsInterrupt`). The one exception is a silent one-shot chain
that runs or ran, where blocks that were queued last once may still be armed (`Stream.Lenient`).

`Course.Arranged` says this, and every change that an action can make of a course keeps it.
`Rig.armed_run` reads it off for each kind of stream, and adds that nothing but bit 31 of a control
word is ever touched.
-/

namespace ScatterGather

/-! ## The interrupt bit -/

namespace Descriptor

/-- A descriptor is armed as its control word was. -/
theorem interrupts_arm (d : Descriptor) (on : Bool) :
    { d with control := armed d.control on }.interrupts = on := by
  cases on with
  | true => exact d.interrupts_armed
  | false =>
    show (d.control &&& ~~~Control.interruptOnComplete &&& Control.interruptOnComplete != 0) = false
    rw [UInt32.and_assoc]
    show (d.control &&& 0 != 0) = false
    rw [UInt32.and_zero]
    rfl

/-- Descriptors of one body differ in no bit of their control words but the interrupt bit. -/
theorem testBit_of_body {d d' : Descriptor} (h : d.body = d'.body) {bit : Nat} (hbit : bit ≠ 31) :
    d.control.toNat.testBit bit = d'.control.toNat.testBit bit := by
  have hmask (control : UInt32) :
      (armed control false).toNat.testBit bit = control.toNat.testBit bit := by
    show (control &&& ~~~Control.interruptOnComplete).toNat.testBit bit = _
    rw [UInt32.toNat_and, show (~~~Control.interruptOnComplete).toNat = 2 ^ 31 - 1 from rfl,
      Nat.and_two_pow_sub_one_eq_mod, Nat.testBit_mod_two_pow]
    by_cases hlow : bit < 31
    · rw [decide_eq_true hlow, Bool.true_and]
    · -- above the interrupt bit there is nothing
      have hsmall : control.toNat < 2 ^ bit := Nat.lt_of_lt_of_le control.toNat_lt
        (Nat.pow_le_pow_right (by decide) (by omega))
      rw [Nat.testBit_lt_two_pow hsmall, Bool.and_false]
  rw [← hmask d.control, ← hmask d'.control,
    show armed d.control false = armed d'.control false from congrArg Descriptor.control h]

end Descriptor

namespace Stream

variable {s : Stream} {t : DescriptorTable}

theorem interrupts_rearmed_eq (hs : s.pool.Sits t) {offset : Nat} (ho : offset < s.pool.queued) :
    ((s.rearmed t).read (s.pool.addressAt offset)).interrupts =
      s.wantsInterrupt (offset + 1 = s.pool.queued) := by
  rw [rearmed, hs.read_updateEach _ ho]
  exact Descriptor.interrupts_arm ..

section Appended

variable (hs : s.pool.Sits t) (hroom : s.pool.queued < s.pool.capacity)
  (source destination elements : Nat)

include hs hroom

theorem interrupts_pushed (ht : s.template = s.config.settings.controlTemplate) {offset : Nat}
    (ho : offset ≤ s.pool.queued) :
    ((s.pool.pushed t source destination (s.controlWord elements) s.isCircular).read
        (s.pool.addressAt offset)).interrupts =
      if offset = s.pool.queued then s.wantsInterrupt true
      else (t.read (s.pool.addressAt offset)).interrupts := by
  rw [hs.read_pushed _ _ _ _ hroom]
  by_cases hnew : offset = s.pool.queued
  · rw [if_pos hnew, if_pos (by rw [hnew])]
    exact interrupts_controlWord s ht elements source destination _
  · have hne : s.pool.addressAt offset ≠ s.pool.addressAt s.pool.queued := fun heq =>
      hnew (Pool.addressAt_inj hs.head_lt (by omega) hroom heq)
    rw [if_neg hnew, if_neg hne]
    -- a link is not a flag
    split <;> rfl

/-- Queueing arms or disarms the new block, and may disarm the one before. -/
theorem interrupts_appendedTable (ht : s.template = s.config.settings.controlTemplate)
    {offset : Nat} (ho : offset ≤ s.pool.queued) :
    ((s.appendedTable t source destination elements).read (s.pool.addressAt offset)).interrupts =
      if offset = s.pool.queued then s.wantsInterrupt true
      else if s.disarmsLast = true ∧ offset + 1 = s.pool.queued then false
      else (t.read (s.pool.addressAt offset)).interrupts := by
  rw [read_appendedTable hs source destination elements hroom ho rfl]
  by_cases hdisarmed : s.disarmsLast = true ∧ offset + 1 = s.pool.queued
  · rw [if_pos hdisarmed, if_pos hdisarmed, if_neg (by omega)]
    exact Descriptor.interrupts_arm ..
  · rw [if_neg hdisarmed, if_neg hdisarmed]
    exact interrupts_pushed hs hroom source destination elements ht ho

end Appended

/-- A silent one-shot chain that runs or ran. What is armed in front of its last block is left as it
is. -/
def Lenient (s : Stream) : Prop :=
  s.config.silent = true ∧ s.isCircular = false ∧ s.state ≠ .ready

/-- Every queued block is armed exactly if its completion is wanted. -/
def Arranged (s : Stream) (t : DescriptorTable) : Prop :=
  ∀ offset < s.pool.queued, offset + 1 = s.pool.queued ∨ ¬s.Lenient →
    (t.read (s.pool.addressAt offset)).interrupts =
      s.wantsInterrupt (offset + 1 = s.pool.queued)

theorem arranged_of_empty (h : s.pool.queued = 0) : s.Arranged t := by
  intro offset ho
  omega

theorem Arranged.discardFinished (h : s.Arranged t) : s.discardFinished.Arranged t := by
  unfold Stream.discardFinished
  split
  · exact arranged_of_empty rfl
  · exact h

/-- A chain that is done with is forgotten when the next block comes. -/
theorem discardFinished_final (h : s.discardFinished.state.isFinal = true) :
    s.discardFinished.bound = true ∨ s.discardFinished.pool.queued = 0 := by
  unfold discardFinished at h ⊢
  split
  · exact .inr rfl
  · next hkept =>
    rw [if_neg hkept] at h
    refine .inl ?_
    simpa [h] using hkept

/-- What decides about arming is the same, and so are the flags. -/
theorem Arranged.congr {s' : Stream} {t' : DescriptorTable} (h : s.Arranged t)
    (hpool : s'.pool = s.pool) (hlenient : s.Lenient → s'.Lenient)
    (hwants : ∀ isLast, s'.wantsInterrupt isLast = s.wantsInterrupt isLast)
    (ht : ∀ offset < s.pool.queued, (t'.read (s.pool.addressAt offset)).interrupts =
      (t.read (s.pool.addressAt offset)).interrupts) : s'.Arranged t' := by
  intro offset ho hsure
  rw [hpool] at ho hsure ⊢
  rw [hwants, ht offset ho]
  exact h offset ho (hsure.imp_right fun hno hyes => hno (hlenient hyes))

/-- A chain that was armed anew is armed as it should be. -/
theorem arranged_rearmed (hs : s.pool.Sits t) : s.Arranged (s.rearmed t) :=
  fun _ ho _ => interrupts_rearmed_eq hs ho

/-- Blocks that leave at the head leave the others armed as they were. -/
theorem Arranged.retire (h : s.Arranged t) {count : Nat} (hcount : count ≤ s.pool.queued)
    {s' : Stream} (hpool : s'.pool = s.pool.retire count)
    (hwants : ∀ isLast, s'.wantsInterrupt isLast = s.wantsInterrupt isLast)
    (hlenient : s.Lenient → s'.Lenient) : s'.Arranged t := by
  intro offset ho hsure
  have hqueued := Pool.queued_retire hcount
  rw [hpool] at ho hsure ⊢
  rw [hqueued] at ho hsure ⊢
  have hlast : (offset + 1 = s.pool.queued - count) ↔ (count + offset + 1 = s.pool.queued) := by
    omega
  rw [hwants, Pool.addressAt_retire hcount, decide_eq_decide.mpr hlast]
  exact h (count + offset) (by omega) (hsure.imp hlast.mp fun hno hyes => hno (hlenient hyes))

/-- On a silent stream only the last completion is wanted. -/
theorem wantsInterrupt_silent (hsilent : s.config.silent = true) (isLast : Bool) :
    s.wantsInterrupt isLast = isLast :=
  if_pos hsilent

/-- On any other stream all completions are wanted, or none. -/
theorem wantsInterrupt_loud (hsilent : s.config.silent = false) (isLast isLast' : Bool) :
    s.wantsInterrupt isLast = s.wantsInterrupt isLast' := by
  unfold wantsInterrupt
  rw [hsilent]
  rfl

/-- A silent stream that is shown no leniency when a block comes is a loop, or was not started. -/
theorem Coherent.loops_or_ready (h : s.Coherent) (hsilent : s.config.silent = true)
    (hq : s.pool.queued ≠ 0)
    (hnew : s.state.isFinal = true → s.bound = true ∨ s.pool.queued = 0) {late : Bool}
    (hstrict : ¬(s.appended late).Lenient) :
    s.isCircular = true ∨ s.state = .ready ∧ s.bound = false := by
  cases hm : s.isCircular with
  | true => exact .inl rfl
  | false =>
    refine .inr ?_
    have hready : (s.appended late).state = .ready :=
      Decidable.byContradiction fun hne => hstrict ⟨hsilent, hm, hne⟩
    change (if s.bound then s.state else .ready) = .ready at hready
    cases hb : s.bound with
    | true =>
      rw [hb] at hready
      exact absurd hready (h.active hb).2
    | false =>
      have hbusy := h.busy
      have hidle := h.idle
      rw [hb] at hbusy
      cases hstate : s.state with
      | ready => exact ⟨rfl, rfl⟩
      | idle => exact absurd (hidle hstate) hq
      | busy => exact nomatch hbusy hstate
      | done | error | timeout =>
        rcases hnew (by rw [hstate]; rfl) with hb' | hzero
        · exact nomatch hb.symm.trans hb'
        · exact absurd hzero hq

/-- Queueing a block behind others that are armed as they should be leaves them so. -/
theorem Arranged.behind (h : s.Arranged t) (hcoherent : s.Coherent)
    (hnew : s.state.isFinal = true → s.bound = true ∨ s.pool.queued = 0) {late : Bool}
    (hstrict : ¬(s.appended late).Lenient) {offset : Nat} (ho : offset < s.pool.queued) :
    (if s.disarmsLast = true ∧ offset + 1 = s.pool.queued then false
      else (t.read (s.pool.addressAt offset)).interrupts) = s.wantsInterrupt false := by
  have hq : s.pool.queued ≠ 0 := by omega
  cases hsilent : s.config.silent with
  | false =>
    have hno : s.disarmsLast = false := by simp [disarmsLast, hsilent]
    have hstrict' : ¬s.Lenient := by
      rintro ⟨hsilent', -⟩
      rw [hsilent] at hsilent'
      cases hsilent'
    rw [hno, if_neg (fun hyes => Bool.false_ne_true hyes.1), h offset ho (.inr hstrict')]
    exact wantsInterrupt_loud hsilent _ _
  | true =>
    rw [wantsInterrupt_silent hsilent]
    have hfresh := hcoherent.loops_or_ready hsilent hq hnew hstrict
    have hdisarms : s.disarmsLast = true := by
      rcases hfresh with hm | ⟨-, hb⟩
      · simp [disarmsLast, hsilent, hm, hq]
      · simp [disarmsLast, hsilent, hb, hq]
    by_cases hlast : offset + 1 = s.pool.queued
    · rw [if_pos ⟨hdisarms, hlast⟩]
    · have hstrict' : ¬s.Lenient := by
        rintro ⟨-, hm, hstate⟩
        rcases hfresh with hm' | ⟨hready, -⟩
        · rw [hm] at hm'
          cases hm'
        · exact hstate hready
      rw [if_neg (fun hyes => hlast hyes.2), h offset ho (.inr hstrict'),
        wantsInterrupt_silent hsilent, decide_eq_false hlast]

theorem Arranged.appended (h : s.Arranged t) (hcoherent : s.Coherent) (hs : s.pool.Sits t)
    (hroom : s.pool.queued < s.pool.capacity)
    (hnew : s.state.isFinal = true → s.bound = true ∨ s.pool.queued = 0) (late : Bool)
    (source destination elements : Nat) :
    (s.appended late).Arranged (s.appendedTable t source destination elements) := by
  intro offset ho hsure
  have ho : offset ≤ s.pool.queued := Nat.le_of_lt_succ ho
  have hsure : offset + 1 = s.pool.queued + 1 ∨ ¬(s.appended late).Lenient := hsure
  show ((s.appendedTable t source destination elements).read (s.pool.addressAt offset)).interrupts =
    s.wantsInterrupt (offset + 1 = s.pool.queued + 1)
  rw [interrupts_appendedTable hs hroom source destination elements hcoherent.template ho]
  by_cases hlast : offset = s.pool.queued
  · rw [if_pos hlast, decide_eq_true (congrArg Nat.succ hlast)]
  · have hstrict := hsure.resolve_left fun heq => hlast (Nat.succ.inj heq)
    rw [if_neg hlast, decide_eq_false fun heq => hlast (Nat.succ.inj heq)]
    exact h.behind hcoherent hnew hstrict (by omega)

end Stream

namespace Course

variable {a : Action} {c c' : Course}

/-- **Every change of a course keeps its blocks armed as they should be.** -/
theorem Shift.arranged (h : c.Shift a c') (hs : c.stream.pool.Sits c.table)
    (hcoherent : c.stream.Coherent) (harranged : c.stream.Arranged c.table) :
    c'.stream.Arranged c'.table := by
  cases h with
  | stay => exact harranged
  | configured | advanced => exact harranged.congr rfl id (fun _ => rfl) fun _ _ => rfl
  | informed _ callback =>
    split
    · exact Stream.arranged_rearmed (s := { c.stream with callback }) hs
    · next hrun =>
      obtain ⟨hb, hm⟩ : c.stream.bound = true ∧ c.stream.isCircular = false := by
        simpa using hrun
      have hmode : c.stream.config.mode = .oneShot := by
        cases hmode : c.stream.config.mode with
        | oneShot => rfl
        | circular => simp [Stream.isCircular, hmode] at hm
      refine harranged.congr rfl id (fun isLast => ?_) fun _ _ => rfl
      unfold Stream.wantsInterrupt
      rw [hmode]
  | queued hcheck hroom hlate =>
    exact harranged.discardFinished.appended hcoherent.discardFinished
      (Stream.sits_discardFinished hs) hroom Stream.discardFinished_final _ _ _ _
  | denied hb =>
    exact harranged.congr rfl (fun hl => ⟨hl.1, hl.2.1, by rintro ⟨⟩⟩) (fun _ => rfl) fun _ _ => rfl
  | started hb hq =>
    exact Stream.arranged_rearmed
      (s := { c.stream with bound := true, stalled := none, state := .busy })
      (hs.relinked c.stream.isCircular)
  | passed hb hcount hloop hstate =>
    exact harranged.retire (Nat.le_trans hcount Stream.reachable_le) rfl (fun _ => rfl)
      fun hl => ⟨hl.1, hl.2.1, hstate⟩
  | restarted hb hcount =>
    exact harranged.retire (Nat.le_trans hcount Stream.reachable_le) rfl (fun _ => rfl)
      fun hl => ⟨hl.1, hl.2.1, by rintro ⟨⟩⟩
  | released hb hcount hloop hfinal =>
    refine harranged.retire (Nat.le_trans hcount Stream.reachable_le) rfl (fun _ => rfl)
      fun hl => ⟨hl.1, hl.2.1, ?_⟩
    rintro rfl
    cases hfinal
  | cleared => exact Stream.arranged_of_empty rfl
  | replaced hb hsits hcopy =>
    intro offset ho hsure
    have hread := hcopy (c.stream.pool.slotAt offset) (Pool.slotAt_lt hs.capacity_pos offset)
    exact (congrArg Descriptor.interrupts hread).trans (harranged offset ho hsure)

/-- Whatever is done to a course but queueing and moving, no descriptor changes but in its link and
its flag. -/
theorem Shift.body_eq (h : c.Shift a c') (hs : c.stream.pool.Sits c.table)
    (ha : a.programs = false) (address : Nat) :
    (c'.table.read address).body = (c.table.read address).body := by
  cases h with
  | informed _ callback =>
    split
    · exact Stream.body_rearmed (s := { c.stream with callback }) hs address
    · rfl
  | queued => cases ha
  | started => exact Stream.body_startedTable hs address
  | replaced => cases ha
  | _ => rfl

end Course

/-! ## The layout -/

/-- Which of the queued blocks are armed. -/
structure Stream.Layout (s : Stream) (t : DescriptorTable) : Prop where
  oneShot : s.config.silent = false → s.config.mode = .oneShot → ∀ offset < s.pool.queued,
    (t.read (s.pool.addressAt offset)).interrupts = true
  circular : s.config.silent = false → s.config.mode = .circular → ∀ offset < s.pool.queued,
    (t.read (s.pool.addressAt offset)).interrupts = s.callback.isSome
  last : s.config.silent = true → ∀ offset, offset + 1 = s.pool.queued →
    (t.read (s.pool.addressAt offset)).interrupts = true
  others : s.config.silent = true → s.config.mode = .circular ∨ s.state = .ready →
    ∀ offset, offset + 1 < s.pool.queued →
      (t.read (s.pool.addressAt offset)).interrupts = false

theorem Stream.Arranged.layout {s : Stream} {t : DescriptorTable} (h : s.Arranged t) :
    s.Layout t where
  oneShot hsilent hmode offset ho := by
    have hstrict : ¬s.Lenient := fun hl => nomatch hsilent.symm.trans hl.1
    rw [h offset ho (.inr hstrict), wantsInterrupt, hsilent, hmode]
    rfl
  circular hsilent hmode offset ho := by
    have hstrict : ¬s.Lenient := fun hl => nomatch hsilent.symm.trans hl.1
    rw [h offset ho (.inr hstrict), wantsInterrupt, hsilent, hmode]
    rfl
  last hsilent offset hlast := by
    rw [h offset (by omega) (.inl hlast), wantsInterrupt_silent hsilent, decide_eq_true hlast]
  others hsilent hwhen offset ho := by
    have hstrict : ¬s.Lenient := by
      rintro ⟨-, hm, hstate⟩
      rcases hwhen with hmode | hready
      · simp [isCircular, hmode] at hm
      · exact hstate hready
    rw [h offset (by omega) (.inr hstrict), wantsInterrupt_silent hsilent,
      decide_eq_false (by omega)]

namespace Rig

variable {r : Rig}

/-- A chain that was just started is armed anew, whatever was left armed in it. -/
theorem Moored.armed_enable (h : r.Moored) (hb : r.stream.bound = false) {c' : Course}
    (hc' : (r.step .enable).course = c') (hgo : c'.stream.bound = true) {offset : Nat}
    (ho : offset < c'.stream.pool.queued) :
    (c'.table.read (c'.stream.pool.addressAt offset)).interrupts =
      c'.stream.wantsInterrupt (offset + 1 = c'.stream.pool.queued) := by
  have hshift := h.shift .enable
  rw [hc'] at hshift
  cases hshift with
  | started _ hq => exact Stream.interrupts_rearmed_eq (h.sits.relinked r.stream.isCircular) ho
  | stay | denied => exact nomatch hb.symm.trans hgo
  | passed hb' | restarted hb' | released hb' => exact nomatch hb.symm.trans hb'

/-- Queueing a block programs its own descriptor, and touches others in link and flag only. -/
theorem Moored.body_append (h : r.Moored) {destination source size : Nat} {c' : Course}
    (hc' : (r.step (.append destination source size)).course = c') {address : Nat}
    (ha : address ≠ c'.stream.pool.addressAt (c'.stream.pool.queued - 1)) :
    (c'.table.read address).body = (r.machine.table.read address).body := by
  rcases h.shift_append destination source size with
    ⟨e, -, hcourse⟩ | ⟨elements, late, -, -, hroom, -, hcourse⟩
  · rw [← hc', hcourse]
    rfl
  · rw [← hc', hcourse] at ha ⊢
    exact Stream.body_appendedTable_of_ne (v := Machine.scene r.machine r.index)
      (Stream.sits_discardFinished h.sits) address hroom source destination elements ha

/-- **The completion interrupts match the configuration.** After any run every queued block of a
one-shot stream is armed, of a circular one if there is a callback; of a silent stream the last one
is armed, and no other while the stream loops or waits to be started, or when it was just started.
No action but queueing and moving changes any other bit of any control word, and queueing none of
any descriptor but the new one. -/
theorem armed_run {m : Machine} {number index capacity : Nat} {config : StreamConfig}
    (hcap : 0 < capacity) (hindex : index < m.controllers.size)
    (hr : m.rig number index capacity config = .ok r) (actions : List Action) :
    let r' := r.run actions
    let started := r'.step .enable
    r'.stream.Layout r'.machine.table ∧
      (r'.stream.bound = false → started.stream.bound = true →
        started.stream.config.silent = true → ∀ offset, offset + 1 < started.stream.pool.queued →
          (started.machine.table.read (started.stream.pool.addressAt offset)).interrupts = false) ∧
      (∀ a : Action, a.programs = false → ∀ address bit, bit ≠ 31 →
        ((r'.step a).machine.table.read address).control.toNat.testBit bit =
          (r'.machine.table.read address).control.toNat.testBit bit) ∧
      ∀ destination source size,
        let r'' := r'.step (.append destination source size)
        ∀ address, address ≠ r''.stream.pool.addressAt (r''.stream.pool.queued - 1) →
          ∀ bit, bit ≠ 31 → (r''.machine.table.read address).control.toNat.testBit bit =
            (r'.machine.table.read address).control.toNat.testBit bit := by
  have hempty : r.stream.pool.queued = 0 := by
    obtain ⟨-, rfl⟩ := Machine.rig_ok hr
    rfl
  obtain ⟨hmoored, harranged⟩ := (moored_make hcap hindex hr).run
    (P := fun r => r.stream.Arranged r.machine.table) (Stream.arranged_of_empty hempty)
    (fun r a h harranged => (h.shift a).arranged h.sits h.coherent harranged) actions
  intro r' started
  refine ⟨harranged.layout, ?_, ?_, ?_⟩
  · intro hb hgo hsilent offset ho
    have hcourse : (r'.step .enable).course = started.course := rfl
    refine (hmoored.armed_enable hb hcourse hgo (Nat.lt_of_succ_lt ho)).trans ?_
    show started.stream.wantsInterrupt (offset + 1 = started.stream.pool.queued) = false
    rw [Stream.wantsInterrupt_silent hsilent, decide_eq_false (by omega)]
  · intro a ha address bit hbit
    exact Descriptor.testBit_of_body ((hmoored.shift a).body_eq hmoored.sits ha address) hbit
  · intro destination source size r'' address hne bit hbit
    exact Descriptor.testBit_of_body (hmoored.body_append rfl hne) hbit

/-- A silent chain that runs keeps the block armed that was last when it was started. -/
theorem armed_run_silent :
    ∃ r, Machine.rig { controllers := #[{}] } 3 0 4 { silent := true } = .ok r ∧
      let r' := r.run [.append 0 64 8, .append 8 72 8, .enable, .append 16 80 8]
      r'.stream.Layout r'.machine.table ∧
        (r'.stream.pool.addresses.map fun a => (r'.machine.table.read a).interrupts) =
          [false, true, true] := by
  obtain ⟨r, hr⟩ : ∃ r, Machine.rig { controllers := #[{}] } 3 0 4 { silent := true } = .ok r :=
    ⟨_, rfl⟩
  have hflags : ((Machine.rig { controllers := #[{}] } 3 0 4 { silent := true }).toOption.map
      fun r =>
        let r' := r.run [.append 0 64 8, .append 8 72 8, .enable, .append 16 80 8]
        r'.stream.pool.addresses.map fun a => (r'.machine.table.read a).interrupts) =
      some [false, true, true] := by decide +kernel
  rw [hr] at hflags
  exact ⟨r, hr, (armed_run (by decide) (by decide) hr _).1, Option.some.inj hflags⟩

end Rig

end ScatterGather
