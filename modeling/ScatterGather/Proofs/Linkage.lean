import ScatterGather.Proofs.Requests

/-!
# ScatterGather.Proofs.Linkage — the ring is linked in the order of its blocks

Every queued descriptor leads to the one behind it, and the last to nothing or back to the head. A
link is written when a block is queued behind its own, and all links of a chain when the chain is
started. Moving a stream copies its descriptors as they are, so the links of blocks that were queued
before lead to the old row until the chain is started. `Pool.Tied` is what holds in the meantime:
the links of the blocks that were queued since are right.

A `Survey` counts these blocks (`fresh`), and follows a circular controller on its laps from head to
head. What holds of a survey (`Survey.Charted`) is kept by every action, with nothing assumed about
the readings of the controller. `Rig.Stayed` says of the run itself when so many blocks are fresh,
and `Survey.linked_run` reads off what a follower of links finds then: the queued blocks in the
order in which they were taken, each once, and in a loop lap after lap without a stop, until an
action that halts it (`Rig.halts`). Blocks from before a move do lead elsewhere, as
`Survey.linked_stale` shows.
-/

namespace ScatterGather

/-- Whether an action moves a stream. -/
def Action.moves : Action → Bool
  | .relocate => true
  | _ => false

/-! ## Following links -/

/-- The descriptors that are met on the way along links, from an address on. -/
def DescriptorTable.path (t : DescriptorTable) : (address count : Nat) → List Nat
  | _, 0 => []
  | address, count + 1 => address :: t.path (t.read address).next count

namespace Pool

variable {p : Pool} {t t' : DescriptorTable} {closeLoop : Bool} {fresh : Nat}

/-- In a linked queue the way from a block on leads over the blocks behind it. -/
theorem Linked.path_from (h : p.Linked t closeLoop) {offset count : Nat}
    (ho : offset + count = p.queued) :
    t.path (p.addressAt offset) count = (List.range' offset count).map p.addressAt := by
  induction count generalizing offset with
  | zero => rfl
  | succ count ih =>
    rw [DescriptorTable.path, List.range'_succ, List.map_cons, h offset (by omega), linkAt]
    congr 1
    by_cases hlast : offset + 1 < p.queued
    · rw [if_pos hlast]
      exact ih (by omega)
    · obtain rfl : count = 0 := by omega
      rfl

theorem Linked.path (h : p.Linked t closeLoop) : t.path (p.addressAt 0) p.queued = p.addresses := by
  rw [h.path_from (Nat.zero_add _), addresses_eq, List.range_eq_range']

/-- No two queued blocks share a descriptor. -/
theorem nodup_addresses (hhead : p.head < p.capacity) (hqueued : p.queued ≤ p.capacity) :
    p.addresses.Nodup := by
  rw [addresses_eq]
  refine List.pairwise_map.mpr (List.nodup_range.imp_of_mem ?_)
  intro o o' ho ho' hne heq
  have ho := List.mem_range.mp ho
  have ho' := List.mem_range.mp ho'
  exact hne (addressAt_inj hhead (by omega) (by omega) heq)

/-! ## Links that are right -/

/-- So many blocks, counted from the last, and the one in front of them are linked as they should
be. -/
def Tied (p : Pool) (t : DescriptorTable) (closeLoop : Bool) (fresh : Nat) : Prop :=
  ∀ offset < p.queued, fresh ≠ 0 → p.queued ≤ offset + 1 + fresh →
    (t.read (p.addressAt offset)).next = p.linkAt closeLoop offset

theorem tied_zero : p.Tied t closeLoop 0 :=
  fun _ _ hne => absurd rfl hne

theorem Tied.mono (h : p.Tied t closeLoop fresh) {blocks : Nat}
    (hle : min p.queued blocks ≤ fresh) : p.Tied t closeLoop blocks :=
  fun offset ho hne hlate => h offset ho (by omega) (by omega)

theorem tied_queued : p.Tied t closeLoop p.queued ↔ p.Linked t closeLoop := by
  refine ⟨fun h offset ho => h offset ho (by omega) (by omega), fun h offset ho _ _ => h offset ho⟩

theorem Tied.congr (h : p.Tied t closeLoop fresh)
    (hnext : ∀ a, (t'.read a).next = (t.read a).next) : p.Tied t' closeLoop fresh := by
  intro offset ho hne hlate
  rw [hnext]
  exact h offset ho hne hlate

/-- A block that is queued behind others ties itself to the last of them. -/
theorem Tied.push (h : p.Tied t closeLoop fresh) (hs : p.Sits t) (hroom : p.queued < p.capacity)
    (source destination : Nat) (control : UInt32) :
    Tied { p with queued := p.queued + 1 } (p.pushed t source destination control closeLoop)
      closeLoop (fresh + 1) := by
  intro offset ho _ hlate
  have hlate : p.queued ≤ offset + 1 + fresh := Nat.le_of_succ_le_succ hlate
  refine (hs.next_pushed source destination control closeLoop hroom (Nat.le_of_lt_succ ho)).trans ?_
  split
  · next hlt => rw [h offset (by omega) (by omega) hlate, linkAt_succ closeLoop hlt]
  · rfl

end Pool

namespace Stream

variable {s : Stream} {t : DescriptorTable} {fresh : Nat}

theorem isCircular_of_retire {count : Nat} (hloop : s.isCircular = true → count = 0)
    (hhead : s.pool.head < s.pool.capacity) :
    s.isCircular = false ∨ s.pool.retire count = s.pool := by
  cases hm : s.isCircular with
  | false => exact .inl rfl
  | true => exact .inr (by rw [hloop hm, Pool.retire_zero hhead])

/-- Blocks that leave at the head leave the others linked. A loop keeps its blocks. -/
theorem linked_retire_all (h : s.pool.Linked t s.isCircular) {count : Nat}
    (hcount : count ≤ s.pool.queued) (hloop : s.isCircular = true → count = 0)
    (hhead : s.pool.head < s.pool.capacity) : (s.pool.retire count).Linked t s.isCircular := by
  rcases isCircular_of_retire hloop hhead with hline | hsame
  · rw [hline] at h ⊢
    exact linked_retire h hcount
  · rwa [hsame]

theorem tied_discardFinished (h : s.pool.Tied t s.isCircular fresh)
    (hle : fresh ≤ s.pool.queued) :
    s.discardFinished.pool.Tied t s.discardFinished.isCircular
      (min s.discardFinished.pool.queued fresh) := by
  unfold discardFinished
  split
  · exact fun offset ho => nomatch ho
  · rwa [Nat.min_eq_right hle]

/-- A block that is queued is fresh. -/
theorem tied_appended (h : s.pool.Tied t s.isCircular fresh) (hs : s.pool.Sits t)
    (hroom : s.pool.queued < s.pool.capacity) (late : Bool) (source destination elements : Nat) :
    (s.appended late).pool.Tied (s.appendedTable t source destination elements)
      (s.appended late).isCircular (fresh + 1) :=
  (h.push hs hroom source destination (s.controlWord elements)).congr
    (next_appendedTable hs source destination elements)

end Stream

namespace Course

variable {a : Action} {c c' : Course} {fresh : Nat}

/-- How many blocks are fresh after an action, if so many were before: all that are queued while the
channel is held, and none of a stream that was just moved. -/
def freshAfter (c' : Course) (a : Action) (fresh : Nat) : Nat :=
  if c'.stream.bound then c'.stream.pool.queued
  else if a.moves then 0
  else min c'.stream.pool.queued fresh

/-- The links of the fresh blocks are right, and while the channel is held all blocks are fresh. -/
structure Tied (c : Course) (fresh : Nat) : Prop where
  fresh_le : fresh ≤ c.stream.pool.queued
  bound : c.stream.bound = true → fresh = c.stream.pool.queued
  tied : c.stream.pool.Tied c.table c.stream.isCircular fresh

theorem Tied.linked (h : c.Tied fresh) (hb : c.stream.bound = true) :
    c.stream.pool.Linked c.table c.stream.isCircular :=
  Pool.tied_queued.mp (h.bound hb ▸ h.tied)

theorem tied_freshAfter
    (hbound : c'.stream.bound = true → c'.stream.pool.Linked c'.table c'.stream.isCircular)
    (hrest : c'.stream.bound = false → a.moves = false →
      c'.stream.pool.Tied c'.table c'.stream.isCircular (min c'.stream.pool.queued fresh)) :
    c'.Tied (c'.freshAfter a fresh) := by
  unfold freshAfter
  cases hb : c'.stream.bound with
  | true => exact ⟨Nat.le_refl _, fun _ => rfl, Pool.tied_queued.mpr (hbound hb)⟩
  | false =>
    have hno {n : Nat} (hyes : c'.stream.bound = true) : n = c'.stream.pool.queued :=
      nomatch hb.symm.trans hyes
    cases hmoves : a.moves with
    | true => exact ⟨Nat.zero_le _, hno, Pool.tied_zero⟩
    | false => exact ⟨Nat.min_le_left .., hno, hrest hb hmoves⟩

/-- What leaves queue and links alone leaves the fresh blocks tied. -/
theorem Tied.kept (h : c.Tied fresh) (hpool : c'.stream.pool = c.stream.pool)
    (hm : c'.stream.isCircular = c.stream.isCircular)
    (hb : c'.stream.bound = true → c.stream.bound = true)
    (hnext : ∀ a, (c'.table.read a).next = (c.table.read a).next) :
    c'.Tied (c'.freshAfter a fresh) := by
  have hmin : min c'.stream.pool.queued fresh = fresh := by
    rw [hpool]
    exact Nat.min_eq_right h.fresh_le
  refine tied_freshAfter (fun hb' => ?_) fun _ _ => ?_
  · intro offset ho
    rw [hpool] at ho ⊢
    rw [hnext, hm]
    exact h.linked (hb hb') offset ho
  · rw [hmin, hpool, hm]
    exact h.tied.congr hnext

/-- A bound stream that forgets blocks at its head is linked as before. -/
theorem Tied.retired (h : c.Tied fresh) (hb : c.stream.bound = true) {count : Nat}
    (hcount : count ≤ c.stream.reachable) (hloop : c.stream.isCircular = true → count = 0)
    (hhead : c.stream.pool.head < c.stream.pool.capacity)
    (hpool : c'.stream.pool = c.stream.pool.retire count)
    (hm : c'.stream.isCircular = c.stream.isCircular) (htable : c'.table = c.table) :
    c'.Tied (c'.freshAfter a fresh) := by
  have hlinked : c'.stream.pool.Linked c'.table c'.stream.isCircular := by
    rw [hpool, hm, htable]
    exact Stream.linked_retire_all (h.linked hb) (Nat.le_trans hcount Stream.reachable_le) hloop
      hhead
  exact tied_freshAfter (fun _ => hlinked) fun _ _ offset ho _ _ => hlinked offset ho

/-- **Every change of a course but queueing keeps the fresh blocks tied.** -/
theorem Shift.tied (h : c.Shift a c') (hs : c.stream.pool.Sits c.table) (ht : c.Tied fresh)
    (ha : ∀ destination source size, a ≠ .append destination source size) :
    c'.Tied (c'.freshAfter a fresh) := by
  cases h with
  | stay | configured | denied | advanced => exact ht.kept rfl rfl id fun _ => rfl
  | informed _ callback =>
    refine ht.kept rfl rfl id fun address => ?_
    split
    · exact Stream.next_rearmed (s := { c.stream with callback }) hs address
    · rfl
  | queued => exact absurd rfl (ha _ _ _)
  | started hb hq =>
    exact tied_freshAfter (fun _ => Stream.linked_startedTable hs) fun hb' => nomatch hb'
  | passed hb hcount hloop => exact ht.retired hb hcount hloop hs.head_lt rfl rfl rfl
  | restarted hb hcount hline =>
    exact ht.retired hb hcount (fun hm => nomatch hline.symm.trans hm) hs.head_lt rfl rfl rfl
  | released hb hcount hloop => exact ht.retired hb hcount hloop hs.head_lt rfl rfl rfl
  | cleared =>
    exact tied_freshAfter (fun hb' => nomatch hb') fun _ _ offset ho => nomatch ho
  | replaced hb hsits hcopy =>
    exact tied_freshAfter (fun hb' => nomatch hb.symm.trans hb') fun _ hmoves => nomatch hmoves

end Course

namespace Rig

variable {r : Rig} {fresh : Nat}

/-- Only a request can be taken. -/
theorem accepted_step {a : Action}
    (ha : ∀ destination source size, a ≠ .append destination source size) :
    (r.step a).accepted = r.accepted := by
  cases a with
  | append destination source size => exact absurd rfl (ha _ _ _)
  | deliver =>
    cases hraised : r.raised with
    | nil => rw [step_deliver_nil hraised]
    | cons event raised => rw [step_deliver_cons hraised]; rfl
  | relocate =>
    by_cases hb : r.stream.bound = true
    · rw [step_relocate_bound hb]
    · rw [step_relocate_unbound (Bool.eq_false_iff.mpr hb)]
  | _ => rfl

/-- A request that is taken adds a fresh block, and one that is refused nothing. -/
theorem Moored.tied_append (h : r.Moored) (ht : r.course.Tied fresh)
    (destination source size : Nat) :
    let r' := r.step (.append destination source size)
    r'.course.Tied (r'.course.freshAfter (.append destination source size)
      (fresh + (r'.accepted.length - r.accepted.length))) := by
  intro r'
  have haccepted : r'.accepted.length = r.accepted.length +
      (r.stream.requested destination source size
        (r.machine.exec r.hardware (r.stream.append destination source size)).1.1).length :=
    List.length_append
  rcases h.shift_append destination source size with
    ⟨e, hresult, hcourse⟩ | ⟨elements, late, hresult, -, hroom, -, hcourse⟩
  · rw [hresult, Stream.requested, List.length_nil, Nat.add_zero] at haccepted
    rw [haccepted, Nat.sub_self, Nat.add_zero, show r'.course = r.course from hcourse]
    exact ht.kept rfl rfl id fun _ => rfl
  · rw [hresult, Stream.requested, List.length_singleton] at haccepted
    have hone : fresh + (r'.accepted.length - r.accepted.length) = fresh + 1 := by omega
    have hsits := Stream.sits_discardFinished h.sits
    have htied := Stream.tied_appended
      (Stream.tied_discardFinished ht.tied ht.fresh_le) hsits hroom late source destination elements
    rw [hone, show r'.course = _ from hcourse]
    refine Course.tied_freshAfter (fun hb => ?_) fun _ _ => ?_
    · -- the chain of a bound stream is not forgotten
      have hb' : r.stream.bound = true := Stream.bound_discardFinished.symm.trans hb
      have hall : min r.stream.discardFinished.pool.queued fresh + 1 =
          (r.stream.discardFinished.appended late).pool.queued := by
        rw [Stream.discardFinished_bound hb', ht.bound hb']
        exact congrArg Nat.succ (Nat.min_self _)
      exact Pool.tied_queued.mp (hall ▸ htied)
    · have hmin : min (r.stream.discardFinished.appended late).pool.queued (fresh + 1) =
          min r.stream.discardFinished.pool.queued fresh + 1 := Nat.succ_min_succ _ _
      rw [show min _ (fresh + 1) = _ from hmin]
      exact htied

/-- Every action keeps the fresh blocks tied. -/
theorem Moored.tied_step (h : r.Moored) (ht : r.course.Tied fresh) (a : Action) :
    (r.step a).course.Tied ((r.step a).course.freshAfter a
      (fresh + ((r.step a).accepted.length - r.accepted.length))) := by
  have hother (ha : ∀ destination source size, a ≠ .append destination source size) :
      (r.step a).course.Tied ((r.step a).course.freshAfter a
        (fresh + ((r.step a).accepted.length - r.accepted.length))) := by
    rw [accepted_step ha, Nat.sub_self]
    exact (h.shift a).tied h.sits ht ha
  cases a with
  | append destination source size => exact h.tied_append ht destination source size
  | _ => exact hother nofun

/-! ## The order of the blocks -/

/-- The queued blocks are the last ones that were taken, in the order in which they were taken. -/
def Ordered (r : Rig) : Prop :=
  ∃ earlier, r.accepted = earlier ++ r.course.rows.map fun row => row.2.block

/-- Blocks that leave the queue were taken before the others. -/
theorem Ordered.dropped (h : r.Ordered) (count : Nat) :
    ∃ earlier, r.accepted =
      earlier ++ (r.course.rows.drop count).map fun row => row.2.block := by
  obtain ⟨earlier, haccepted⟩ := h
  refine ⟨earlier ++ (r.course.rows.take count).map fun row => row.2.block, ?_⟩
  rw [List.append_assoc, ← List.map_append, List.take_append_drop, haccepted]

theorem Moored.ordered_step (h : r.Moored) (ho : r.Ordered) (a : Action) : (r.step a).Ordered := by
  have hother (ha : ∀ destination source size, a ≠ .append destination source size) :
      (r.step a).Ordered := by
    obtain ⟨count, hrows⟩ := (h.shift a).rows_dropped h.sits ha
    obtain ⟨earlier, haccepted⟩ := ho.dropped count
    exact ⟨earlier, by rw [accepted_step ha, hrows, haccepted]⟩
  cases a with
  | append destination source size =>
    have haccepted : (r.step (.append destination source size)).accepted = r.accepted ++
        r.stream.requested destination source size
          (r.machine.exec r.hardware (r.stream.append destination source size)).1.1 := rfl
    rcases h.rows_append destination source size with
      ⟨e, hresult, hcourse⟩ | ⟨hresult, hchecked, count, hrows⟩
    · rw [hresult, Stream.requested, List.append_nil] at haccepted
      obtain ⟨earlier, hearlier⟩ := ho
      exact ⟨earlier, by rw [haccepted, hcourse, hearlier]⟩
    · rw [hresult, Stream.requested] at haccepted
      obtain ⟨earlier, hearlier⟩ := ho.dropped count
      refine ⟨earlier, ?_⟩
      rw [haccepted, hearlier, hrows, List.map_append, List.append_assoc]
      exact congrArg (fun block => earlier ++ (_ ++ [block])) hchecked.block.symm
  | _ => exact hother fun _ _ _ h => by cases h

/-- No more blocks come to the queue than are taken. -/
theorem Moored.queued_step (h : r.Moored) (a : Action) :
    (r.step a).stream.pool.queued ≤
      r.stream.pool.queued + ((r.step a).accepted.length - r.accepted.length) := by
  have hlength : r.course.rows.length = r.stream.pool.queued := Pool.length_rows
  have hlength' : (r.step a).course.rows.length = (r.step a).stream.pool.queued :=
    Pool.length_rows
  have hother (ha : ∀ destination source size, a ≠ .append destination source size) :
      (r.step a).stream.pool.queued ≤
        r.stream.pool.queued + ((r.step a).accepted.length - r.accepted.length) := by
    obtain ⟨count, hrows⟩ := (h.shift a).rows_dropped h.sits ha
    rw [hrows, List.length_drop] at hlength'
    omega
  cases a with
  | append destination source size =>
    have haccepted : (r.step (.append destination source size)).accepted.length =
        r.accepted.length + (r.stream.requested destination source size
          (r.machine.exec r.hardware (r.stream.append destination source size)).1.1).length :=
      List.length_append
    rcases h.rows_append destination source size with
      ⟨e, -, hcourse⟩ | ⟨hresult, -, count, hrows⟩
    · rw [hcourse] at hlength'
      omega
    · rw [hresult, Stream.requested, List.length_singleton] at haccepted
      rw [hrows, List.length_append, List.length_drop, List.length_singleton] at hlength'
      omega
  | _ => exact hother fun _ _ _ h => by cases h

/-! ## Moves -/

/-- After these actions the stream was not moved since the last so many of its blocks were taken, or
since it held its channel. A stream that holds its channel stays where it is, so it was not moved
then since it was last started. -/
def Stayed (r : Rig) (actions : List Action) (blocks : Nat) : Prop :=
  ∃ before after, actions = before ++ after ∧ (∀ a ∈ after, a.moves = false) ∧
    ((r.run before).stream.bound = true ∨
      (r.run before).accepted.length + blocks ≤ (r.run actions).accepted.length)

theorem stayed_of_bound {actions : List Action} (hb : (r.run actions).stream.bound = true)
    (blocks : Nat) : r.Stayed actions blocks :=
  ⟨actions, [], (List.append_nil _).symm, nofun, .inl hb⟩

theorem accepted_le_step (r : Rig) (a : Action) :
    r.accepted.length ≤ (r.step a).accepted.length := by
  cases a with
  | append destination source size =>
    have haccepted : (r.step (.append destination source size)).accepted.length =
        r.accepted.length + _ := List.length_append
    omega
  | _ => exact Nat.le_of_eq (congrArg List.length (accepted_step fun _ _ _ h => by cases h).symm)

theorem accepted_le_run (r : Rig) (actions : List Action) :
    r.accepted.length ≤ (r.run actions).accepted.length := by
  induction actions generalizing r with
  | nil => exact Nat.le_refl _
  | cons a actions ih => exact Nat.le_trans (r.accepted_le_step a) (ih _)

/-! ## Laps -/

/-- The descriptor that an action of the controller completes. -/
def completed (r : Rig) : Action → List Nat
  | .finish => if r.controller.current = 0 then [] else [r.controller.current]
  | _ => []

/-- Whether an action takes the controller of a loop from a block back to the head. -/
def closes (r : Rig) (a : Action) : Bool :=
  r.stream.bound && r.stream.isCircular && !(r.completed a).isEmpty &&
    decide ((r.step a).controller.current = r.stream.pool.addressAt 0)

end Rig

namespace Course

variable {a : Action} {c c' : Course}

/-- A loop that goes on keeps its blocks in their places and its controller where it is. -/
theorem Shift.loop (h : c.Shift a c') (hb : c.stream.bound = true)
    (hm : c.stream.isCircular = true) (hhead : c.stream.pool.head < c.stream.pool.capacity)
    (ha : a ≠ .finish) (hb' : c'.stream.bound = true) :
    c'.current = c.current ∧ c.stream.pool.queued ≤ c'.stream.pool.queued ∧
      ∀ offset, c'.stream.pool.addressAt offset = c.stream.pool.addressAt offset := by
  cases h with
  | stay | informed => exact ⟨rfl, Nat.le_refl _, fun _ => rfl⟩
  | queued =>
    rw [Stream.discardFinished_bound hb]
    exact ⟨rfl, Nat.le_succ _, fun _ => rfl⟩
  | passed _ _ hloop =>
    rw [hloop hm, Pool.retire_zero hhead]
    exact ⟨rfl, Nat.le_refl _, fun _ => rfl⟩
  | restarted _ _ hline => exact nomatch hline.symm.trans hm
  | advanced => exact absurd rfl ha
  | configured hb₀ | denied hb₀ | started hb₀ | replaced hb₀ => exact nomatch hb₀.symm.trans hb
  | released | cleared => exact nomatch hb'

/-- Only the start of a chain binds a stream, and it sets the controller to the head. -/
theorem Shift.bound (h : c.Shift a c') (hb : c.stream.bound = false)
    (hb' : c'.stream.bound = true) :
    c'.stream.pool.queued ≠ 0 ∧ c'.current = c'.stream.pool.addressAt 0 := by
  cases h with
  | started _ hq => exact ⟨hq, rfl⟩
  | queued =>
    have hno : c.stream.bound = true := Stream.bound_discardFinished.symm.trans hb'
    exact nomatch hb.symm.trans hno
  | released | cleared => exact nomatch hb'
  | passed hb₁ | restarted hb₁ => exact nomatch hb.symm.trans hb₁
  | stay | configured | informed | denied | replaced | advanced => exact nomatch hb.symm.trans hb'

end Course

/-! ## What halts a loop -/

namespace Stream

variable {s : Stream}

/-- Whether the stream of a loop gives up its channel when it is told of an event. -/
def breaksOff (s : Stream) : TransferEvent → Bool
  | .progress => false
  | .complete | .busError => true
  | .timeout => s.config.timeoutPolicy = .abort

theorem yields_react_loop (hb : s.bound = true) (hm : s.isCircular = true) {event : TransferEvent}
    (he : s.breaksOff event = false) : (s.react event).Yields fun s' => s'.bound = true := by
  cases event with
  | progress =>
    have hkeeps : s.retirePassed = pure s := if_pos hm
    unfold react
    rw [hkeeps]
    exact Script.yields_done hb
  | complete | busError => cases he
  | timeout =>
    refine Script.yields_bind fun _ => ?_
    split
    · next hpolicy => simp [breaksOff, hpolicy] at he
    · exact Script.yields_bind fun _ => Script.yields_done hb

theorem yields_onInterrupt_loop (hb : s.bound = true) (hm : s.isCircular = true)
    {event : TransferEvent} (he : s.breaksOff event = false) :
    (s.onInterrupt event).Yields fun r => r.2.bound = true := by
  unfold onInterrupt
  rw [hb, if_neg (by decide)]
  exact (yields_react_loop hb hm he).bind fun s' h =>
    Script.yields_bind fun _ => Script.yields_done h

end Stream

namespace Rig

variable {r : Rig}

/-- Whether an action halts the controller of a loop. -/
def halts (r : Rig) : Action → Bool
  | .disable | .clear => true
  | .deliver => r.raised.head?.any r.stream.breaksOff
  | .interrupt event => r.stream.breaksOff event
  | _ => false

/-- The stream of a loop that runs keeps its channel, unless it is disabled or cleared or takes an
event that ends it. -/
theorem Moored.bound_step (h : r.Moored) (hb : r.stream.bound = true)
    (hm : r.stream.isCircular = true) {a : Action} (ha : r.halts a = false) :
    (r.step a).stream.bound = true := by
  have hinterrupt {event : TransferEvent} (he : r.stream.breaksOff event = false) :
      (r.interrupt event).stream.bound = true :=
    (Stream.yields_onInterrupt_loop hb hm he).run (Machine.answer r.hardware) r.machine
  cases a with
  | append destination source size =>
    rcases h.shift_append destination source size with
      ⟨e, -, hcourse⟩ | ⟨elements, late, -, -, -, -, hcourse⟩
    · exact (congrArg (fun c : Course => c.stream.bound) hcourse).trans hb
    · refine (congrArg (fun c : Course => c.stream.bound) hcourse).trans ?_
      exact Stream.bound_discardFinished.trans hb
  | configure settings =>
    have hrefused : r.stream.configure settings = (.error .streamActive, r.stream) := if_pos hb
    show (r.stream.configure settings).2.bound = true
    rwa [hrefused]
  | setCallback callback =>
    have hkept : (r.stream.setCallback callback).Yields fun s => s.bound = true :=
      Script.yields_bind fun _ => Script.yields_done hb
    exact hkept.run (Machine.answer r.hardware) r.machine
  | enable =>
    have hrefused : r.stream.enable = pure (.error (.io .invalidState), r.stream) :=
      if_pos (by rw [hb]; rfl)
    show (r.machine.exec r.hardware r.stream.enable).1.2.bound = true
    rw [hrefused]
    exact hb
  | disable | clear => cases ha
  | deliver =>
    cases hraised : r.raised with
    | nil => rwa [step_deliver_nil hraised]
    | cons event raised =>
      rw [step_deliver_cons hraised]
      refine hinterrupt ?_
      simpa [halts, hraised] using ha
  | interrupt event => exact hinterrupt ha
  | relocate => rwa [step_relocate_bound hb]
  | moveElements | finish | fillFifo | contend => exact hb

end Rig

/-! ## A survey of the ring -/

/-- One lap of a controller around a loop. -/
structure Lap where
  /-- The descriptors that it completed, in order. -/
  completed : List Nat
  /-- The descriptors that were queued when it came back to the head. -/
  queued : List Nat

/-- A rig, how many of its blocks are linked as they should be, and the laps of its controller. -/
structure Survey where
  rig : Rig
  /-- How many blocks, counted from the last, were queued or started since the stream was moved. -/
  fresh : Nat := 0
  /-- The descriptors that the controller of a loop completed since it was last at the head. -/
  lap : List Nat := []
  laps : List Lap := []

namespace Survey

def step (w : Survey) (a : Action) : Survey :=
  let r' := w.rig.step a
  let lap := w.lap ++ w.rig.completed a
  { rig := r'
    fresh := r'.course.freshAfter a (w.fresh + (r'.accepted.length - w.rig.accepted.length))
    lap := if !w.rig.stream.bound || w.rig.closes a then [] else lap
    laps :=
      if w.rig.closes a then
        w.laps ++ [{ completed := lap, queued := w.rig.stream.pool.addresses }]
      else w.laps }

def run (w : Survey) (actions : List Action) : Survey :=
  actions.foldl step w

theorem rig_run (w : Survey) (actions : List Action) :
    (w.run actions).rig = w.rig.run actions := by
  induction actions generalizing w with
  | nil => rfl
  | cons a actions ih => exact ih (w.step a)

/-- The controller of a loop is as far from the head as its lap is long, and every lap went over all
blocks. -/
structure Lapped (w : Survey) : Prop where
  lap : w.rig.stream.bound = true → w.rig.stream.isCircular = true →
    ∃ done < w.rig.stream.pool.queued,
      w.rig.controller.current = w.rig.stream.pool.addressAt done ∧
        w.lap = (List.range done).map w.rig.stream.pool.addressAt
  laps : ∀ lap ∈ w.laps, lap.completed = lap.queued

/-- What holds of a survey at all times. -/
structure Charted (w : Survey) : Prop where
  moored : w.rig.Moored
  tied : w.rig.course.Tied w.fresh
  ordered : w.rig.Ordered
  lapped : w.Lapped

variable {w : Survey}

/-- As long as the controller does not come back to the head, its lap goes on. -/
theorem step_open {a : Action} (h : w.rig.closes a = false) :
    (w.step a).lap = (if w.rig.stream.bound then w.lap ++ w.rig.completed a else []) ∧
      (w.step a).laps = w.laps := by
  unfold step
  rw [h]
  cases w.rig.stream.bound <;> exact ⟨rfl, rfl⟩

/-- A controller that comes back to the head begins a new lap. -/
theorem step_closed {a : Action} (h : w.rig.closes a = true) :
    (w.step a).lap = [] ∧
      (w.step a).laps = w.laps ++
        [{ completed := w.lap ++ w.rig.completed a, queued := w.rig.stream.pool.addresses }] := by
  unfold step
  rw [h]
  cases w.rig.stream.bound <;> exact ⟨rfl, rfl⟩

/-- From a block of a loop the controller goes to the next one, and from the last to the head. -/
theorem Charted.current_finish (h : w.Charted) (hb : w.rig.stream.bound = true)
    (hm : w.rig.stream.isCircular = true) {done : Nat} (hdone : done < w.rig.stream.pool.queued)
    (hcurrent : w.rig.controller.current = w.rig.stream.pool.addressAt done) :
    (w.rig.step .finish).controller.current =
      if done + 1 < w.rig.stream.pool.queued then w.rig.stream.pool.addressAt (done + 1)
      else w.rig.stream.pool.addressAt 0 := by
  have hne : w.rig.controller.current ≠ 0 := hcurrent ▸ h.moored.sits.addressAt_ne_zero done
  have hcourse := h.moored.course_finish
  rw [if_neg hne] at hcourse
  have hnext : (w.rig.step .finish).controller.current =
      (w.rig.machine.table.read w.rig.controller.current).next :=
    congrArg (fun c : Course => c.current) hcourse
  have hlink : (w.rig.machine.table.read (w.rig.stream.pool.addressAt done)).next =
      w.rig.stream.pool.linkAt w.rig.stream.isCircular done := h.tied.linked hb done hdone
  rw [hnext, hcurrent, hlink, hm]
  rfl

/-- At the end of a block the lap gets one block longer, or is over. -/
theorem Charted.lapped_finish (h : w.Charted) (hb : w.rig.stream.bound = true)
    (hm : w.rig.stream.isCircular = true) : (w.step .finish).Lapped := by
  obtain ⟨done, hdone, hcurrent, hlap⟩ := h.lapped.lap hb hm
  have hne : w.rig.controller.current ≠ 0 := hcurrent ▸ h.moored.sits.addressAt_ne_zero done
  have hnext := h.current_finish hb hm hdone hcurrent
  have hcompleted : w.lap ++ w.rig.completed .finish =
      (List.range (done + 1)).map w.rig.stream.pool.addressAt := by
    rw [Rig.completed, if_neg hne, hcurrent, hlap, List.range_succ, List.map_append]
    rfl
  have hcloses : w.rig.closes .finish =
      decide ((w.rig.step .finish).controller.current = w.rig.stream.pool.addressAt 0) := by
    rw [Rig.closes, hb, hm, Rig.completed, if_neg hne]
    rfl
  by_cases hlast : done + 1 < w.rig.stream.pool.queued
  · rw [if_pos hlast] at hnext
    have hopen : w.rig.closes .finish = false := by
      rw [hcloses, hnext]
      refine decide_eq_false fun heq => ?_
      have hsame : done + 1 = 0 := Pool.addressAt_inj h.moored.sits.head_lt
        (Nat.lt_of_lt_of_le hlast h.moored.sits.queued_le) h.moored.sits.capacity_pos heq
      exact nomatch hsame
    obtain ⟨hlap', hlaps'⟩ := step_open hopen
    rw [if_pos hb, hcompleted] at hlap'
    exact ⟨fun _ _ => ⟨done + 1, hlast, hnext, hlap'⟩, hlaps' ▸ h.lapped.laps⟩
  · -- the last block of the loop leads back to the head
    rw [if_neg hlast] at hnext
    obtain ⟨hlap', hlaps'⟩ := step_closed (hcloses.trans (decide_eq_true hnext))
    have hall : done + 1 = w.rig.stream.pool.queued := by omega
    rw [hall, ← Pool.addresses_eq] at hcompleted
    refine ⟨fun _ _ => ⟨0, Nat.zero_lt_of_lt hdone, hnext, hlap'⟩, ?_⟩
    rw [hlaps']
    intro lap hlap
    rcases List.mem_append.mp hlap with hlap | hlap
    · exact h.lapped.laps lap hlap
    · rw [List.mem_singleton.mp hlap]
      exact hcompleted

/-- What is no end of a block leaves a lap as it is, or is the beginning of the first. -/
theorem Charted.lapped_other (h : w.Charted) {a : Action} (ha : a ≠ .finish) :
    (w.step a).Lapped := by
  have hcompleted : w.rig.completed a = [] := by
    cases a with
    | finish => exact absurd rfl ha
    | _ => rfl
  have hopen : w.rig.closes a = false := by
    rw [Rig.closes, hcompleted]
    simp
  obtain ⟨hlap', hlaps'⟩ := step_open hopen
  rw [hcompleted, List.append_nil] at hlap'
  have hshift := h.moored.shift a
  refine ⟨fun hb' hm' => ?_, hlaps' ▸ h.lapped.laps⟩
  cases hb : w.rig.stream.bound with
  | false =>
    obtain ⟨hq, hcurrent⟩ := hshift.bound hb hb'
    rw [hb] at hlap'
    exact ⟨0, Nat.pos_of_ne_zero hq, hcurrent, hlap'⟩
  | true =>
    have hm : w.rig.stream.isCircular = true := hshift.same.isCircular.symm.trans hm'
    obtain ⟨done, hdone, hcurrent, hlap⟩ := h.lapped.lap hb hm
    obtain ⟨hstill, hmore, hplaces⟩ := hshift.loop hb hm h.moored.sits.head_lt ha hb'
    rw [if_pos hb, hlap] at hlap'
    refine ⟨done, Nat.lt_of_lt_of_le hdone hmore, ?_, ?_⟩
    · exact hstill.trans (hcurrent.trans (hplaces done).symm)
    · exact hlap'.trans (List.map_congr_left fun offset _ => (hplaces offset).symm)

theorem Charted.lapped_step (h : w.Charted) (a : Action) : (w.step a).Lapped := by
  cases a with
  | finish =>
    by_cases hloop : w.rig.stream.bound = true ∧ w.rig.stream.isCircular = true
    · exact h.lapped_finish hloop.1 hloop.2
    · -- the stream stays as it is, and there is no lap to speak of
      have hopen : w.rig.closes .finish = false := by
        rw [Rig.closes, show (w.rig.stream.bound && w.rig.stream.isCircular) = false by
          simpa using hloop, Bool.false_and, Bool.false_and]
      exact ⟨fun hb hm => absurd ⟨hb, hm⟩ hloop, (step_open hopen).2 ▸ h.lapped.laps⟩
  | _ => exact h.lapped_other nofun

theorem Charted.step (h : w.Charted) (a : Action) : (w.step a).Charted where
  moored := h.moored.step a
  tied := h.moored.tied_step h.tied a
  ordered := h.moored.ordered_step h.ordered a
  lapped := h.lapped_step a

theorem Charted.run (h : w.Charted) (actions : List Action) : (w.run actions).Charted := by
  induction actions generalizing w with
  | nil => exact h
  | cons a actions ih => exact ih (h.step a)

/-- Blocks that are fresh, or no longer queued, stay so as long as the stream is not moved, and
those that it takes are fresh. -/
theorem Charted.fresh_run (h : w.Charted) (blocks : Nat)
    (hfresh : min w.rig.stream.pool.queued blocks ≤ w.fresh) {actions : List Action}
    (hstill : ∀ a ∈ actions, a.moves = false) :
    min (w.rig.run actions).stream.pool.queued
        (blocks + ((w.rig.run actions).accepted.length - w.rig.accepted.length)) ≤
      (w.run actions).fresh := by
  induction actions generalizing w blocks with
  | nil =>
    show min _ (blocks + (w.rig.accepted.length - w.rig.accepted.length)) ≤ _
    rwa [Nat.sub_self]
  | cons a actions ih =>
    have hqueued := h.moored.queued_step a
    have hfirst := Rig.accepted_le_step w.rig a
    have hrest := Rig.accepted_le_run (w.rig.step a) actions
    have hnext : min (w.rig.step a).stream.pool.queued
        (blocks + ((w.rig.step a).accepted.length - w.rig.accepted.length)) ≤ (w.step a).fresh := by
      show _ ≤ (w.rig.step a).course.freshAfter a _
      unfold Course.freshAfter
      rw [hstill a List.mem_cons_self]
      split
      · exact Nat.min_le_left ..
      · show _ ≤ min (w.rig.step a).stream.pool.queued _
        omega
    have hrun := ih (h.step a) _ hnext fun b hb => hstill b (List.mem_cons_of_mem a hb)
    have hboth : blocks + ((w.rig.step a).accepted.length - w.rig.accepted.length) +
        (((w.rig.step a).run actions).accepted.length - (w.rig.step a).accepted.length) =
          blocks + (((w.rig.step a).run actions).accepted.length - w.rig.accepted.length) := by
      omega
    exact hboth ▸ hrun

/-- As many blocks are fresh as were taken, or started, since the last move. -/
theorem Charted.fresh_of_stayed (h : w.Charted) {actions : List Action} {blocks : Nat}
    (hstayed : w.rig.Stayed actions blocks) :
    min (w.rig.run actions).stream.pool.queued blocks ≤ (w.run actions).fresh := by
  obtain ⟨before, after, rfl, hstill, hsince⟩ := hstayed
  have hw : (w.run before).rig = w.rig.run before := w.rig_run before
  have hrun : (w.run (before ++ after)).fresh = ((w.run before).run after).fresh :=
    congrArg Survey.fresh List.foldl_append
  have hcharted := h.run before
  rw [Rig.run_append] at hsince ⊢
  rw [hrun]
  rcases hsince with hb | hcount
  · -- all blocks are fresh while the channel is held
    have hall : (w.run before).fresh = (w.run before).rig.stream.pool.queued :=
      hcharted.tied.bound (by rwa [← hw] at hb)
    have hfresh := hcharted.fresh_run blocks (by omega) hstill
    rw [hw] at hfresh
    omega
  · have hfresh := hcharted.fresh_run 0 (by omega) hstill
    rw [hw] at hfresh
    omega

/-- A stream that was just made has no blocks. -/
theorem charted_make {m : Machine} {number index capacity : Nat} {config : StreamConfig}
    {r : Rig} (hcap : 0 < capacity) (hindex : index < m.controllers.size)
    (hr : m.rig number index capacity config = .ok r) : Charted { rig := r } := by
  have hmoored := Rig.moored_make hcap hindex hr
  obtain ⟨-, rfl⟩ := Machine.rig_ok hr
  exact
    { moored := hmoored
      tied := ⟨Nat.le_refl _, fun _ => rfl, Pool.tied_zero⟩
      ordered := ⟨[], rfl⟩
      lapped := ⟨nofun, nofun⟩ }

/-- The queued blocks, as their descriptors say them, are the last ones that were taken. -/
theorem Charted.accepted (h : w.Charted) :
    ∃ earlier, w.rig.accepted = earlier ++
      w.rig.stream.pool.addresses.map fun a => (w.rig.machine.table.read a).block := by
  obtain ⟨earlier, haccepted⟩ := h.ordered
  refine ⟨earlier, haccepted.trans (congrArg (earlier ++ ·) ?_)⟩
  show List.map _ (List.map _ _) = _
  rw [Pool.addresses_eq, List.map_map, List.map_map]
  exact List.map_congr_left fun offset _ =>
    (w.rig.machine.table.read (w.rig.stream.pool.addressAt offset)).block_body

/-- No more blocks are queued than were taken. -/
theorem Charted.queued_le_accepted (h : w.Charted) :
    w.rig.stream.pool.queued ≤ w.rig.accepted.length := by
  obtain ⟨earlier, haccepted⟩ := h.accepted
  rw [haccepted, List.length_append, List.length_map, Pool.addresses_eq, List.length_map,
    List.length_range]
  omega

/-- **The ring is linked in the order of its blocks.** If a stream was not moved since the last so
many of its blocks were taken, or since it was last started, then each of them and the block in
front of them leads to the block behind it, and the last one to nothing, or in a loop to the head.
If it was not moved since the oldest queued block was taken, or since it was last started, a
follower of links meets every queued block once, in the order in which the blocks were taken. It was
not if it holds its channel, or if it was never moved. The controller of a loop that runs does not
stop until the stream is disabled or cleared or takes an event that ends it. It has completed the
blocks in front of the one at which it stands, and each time that it came back to the head it had
completed all that were queued by then, those included that came while it ran. -/
theorem linked_run {m : Machine} {number index capacity : Nat} {config : StreamConfig} {r : Rig}
    (hcap : 0 < capacity) (hindex : index < m.controllers.size)
    (hr : m.rig number index capacity config = .ok r) (actions : List Action) :
    let w : Survey := run { rig := r } actions
    let s := w.rig.stream
    let p := s.pool
    let t := w.rig.machine.table
    w.rig = r.run actions ∧
      (∀ blocks ≠ 0, r.Stayed actions blocks →
        ∀ offset < p.queued, p.queued ≤ offset + 1 + blocks →
          (t.read (p.addressAt offset)).next =
            if offset + 1 < p.queued then p.addressAt (offset + 1)
            else if s.isCircular then p.addressAt 0 else 0) ∧
      (s.bound = true ∨ (∀ a ∈ actions, a.moves = false) → r.Stayed actions p.queued) ∧
      (r.Stayed actions p.queued → t.path (p.addressAt 0) p.queued = p.addresses) ∧
      p.addresses.Nodup ∧
      (∃ earlier, w.rig.accepted = earlier ++ p.addresses.map fun a => (t.read a).block) ∧
      (s.bound = true → s.isCircular = true →
        w.rig.controller.current ≠ 0 ∧
          (∀ a, w.rig.halts a = false → (w.rig.step a).stream.bound = true) ∧
          ∃ done < p.queued,
            w.rig.controller.current = p.addressAt done ∧ w.lap = p.addresses.take done) ∧
      ∀ lap ∈ w.laps, lap.completed = lap.queued := by
  have hmade := charted_make hcap hindex hr
  intro w s p t
  have h : w.Charted := hmade.run actions
  have hrig : w.rig = r.run actions := rig_run _ actions
  have hfresh {blocks : Nat} (hstayed : r.Stayed actions blocks) :
      min p.queued blocks ≤ w.fresh := by
    have := hmade.fresh_of_stayed hstayed
    rwa [← hrig] at this
  refine ⟨hrig, ?_, ?_, fun hstayed => ?_, ?_, h.accepted, ?_, h.lapped.laps⟩
  · intro blocks hne hstayed offset ho hlate
    exact h.tied.tied.mono (hfresh hstayed) offset ho hne hlate
  · rintro (hb | hstill)
    · exact Rig.stayed_of_bound (hrig ▸ hb) _
    · refine ⟨[], actions, rfl, hstill, .inr ?_⟩
      have hnone : r.accepted = [] := by
        obtain ⟨-, rfl⟩ := Machine.rig_ok hr
        rfl
      have hle := h.queued_le_accepted
      show r.accepted.length + p.queued ≤ _
      rw [← hrig, hnone]
      exact (Nat.zero_add _).symm ▸ hle
  · exact (Pool.tied_queued.mp (h.tied.tied.mono (hfresh hstayed))).path
  · exact Pool.nodup_addresses h.moored.sits.head_lt h.moored.sits.queued_le
  · intro hb hm
    obtain ⟨done, hdone, hcurrent, hlap⟩ := h.lapped.lap hb hm
    refine ⟨hcurrent ▸ h.moored.sits.addressAt_ne_zero done, fun a => h.moored.bound_step hb hm,
      done, hdone, hcurrent, ?_⟩
    rw [hlap, Pool.addresses_eq, ← List.map_take, List.take_range,
      Nat.min_eq_left (Nat.le_of_lt hdone)]

/-- A loop that was moved between its second block and its third: the first block still leads to
where the second was. Once started the loop is linked as it should be, and it goes around until it
is disabled. -/
theorem linked_stale :
    ∃ r, Machine.rig { controllers := #[{}] } 3 0 4 { mode := .circular } = .ok r ∧
      let moved := r.run [.append 0 64 8, .append 8 72 8, .relocate, .append 16 80 8]
      let started := moved.run [.enable, .finish]
      moved.stream.pool.queued = 3 ∧
        (moved.machine.table.read (moved.stream.pool.addressAt 0)).next =
          r.stream.pool.addressOf 1 ∧
        r.stream.pool.addressOf 1 ≠ moved.stream.pool.addressAt 1 ∧
        started.controller.current = started.stream.pool.addressAt 1 ∧
        (started.step .disable).controller.current = 0 := by
  obtain ⟨r, hr⟩ : ∃ r, Machine.rig { controllers := #[{}] } 3 0 4 { mode := .circular } = .ok r :=
    ⟨_, rfl⟩
  refine ⟨r, hr, ?_⟩
  obtain rfl := Except.ok.inj hr
  decide +kernel

/-- A loop of two blocks gets a third on its second lap, and goes around three times. -/
theorem linked_run_growing :
    ∃ r w, Machine.rig { controllers := #[{}] } 3 0 4 { mode := .circular } = .ok r ∧
      w = run { rig := r }
        [.append 0 64 8, .append 8 72 8, .enable, .finish, .finish, .finish, .append 16 80 8,
          .finish, .finish, .finish, .finish, .finish] ∧
      w.laps.map (fun lap => lap.completed.length) = [2, 3, 3] ∧
      ∀ lap ∈ w.laps, lap.completed = lap.queued := by
  obtain ⟨r, hr⟩ : ∃ r, Machine.rig { controllers := #[{}] } 3 0 4 { mode := .circular } = .ok r :=
    ⟨_, rfl⟩
  have hlaps : ((Machine.rig { controllers := #[{}] } 3 0 4 { mode := .circular }).toOption.map
      fun r => (run { rig := r }
        [.append 0 64 8, .append 8 72 8, .enable, .finish, .finish, .finish, .append 16 80 8,
          .finish, .finish, .finish, .finish, .finish]).laps.map
        fun lap => lap.completed.length) = some [2, 3, 3] := by decide +kernel
  rw [hr] at hlaps
  exact ⟨r, _, hr, rfl, Option.some.inj hlaps,
    (linked_run (by decide) (by decide) hr _).2.2.2.2.2.2.2⟩

end Survey

end ScatterGather
