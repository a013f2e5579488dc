import ScatterGather.Proofs.Course

/-!
# ScatterGather.Proofs.Requests — a queued descriptor is what was asked for

A descriptor is written once, when its block is queued, and its interrupt flag and its link many
times after that. `Pool.rows` is the queue without these two: the slot of each block and the body of
its descriptor. Blocks leave it at the head (`Course.Shift.rows_dropped`) and enter it at the tail
(`Pool.rows_appended`), and nothing else happens to it.

A `Journal` keeps every request that a stream took, with the settings that were in force. What is
queued is the end of the journal, each request in its slot and word for word in its descriptor.
Neither callbacks, later settings, later blocks nor moves can be seen in it (`Journal.decodes_run`).
-/

namespace ScatterGather

/-! ## The queue without links and flags -/

namespace Pool

variable {p : Pool} {t t' : DescriptorTable}

/-- The slot of each queued block, and its descriptor without link and flag. -/
def rows (p : Pool) (t : DescriptorTable) : List (Nat × Descriptor) :=
  (List.range p.queued).map fun offset =>
    (p.slotAt offset, (t.read (p.addressAt offset)).body)

theorem length_rows : (p.rows t).length = p.queued := by
  rw [rows, List.length_map, List.length_range]

theorem getElem?_rows {offset : Nat} (ho : offset < p.queued) :
    (p.rows t)[offset]? = some (p.slotAt offset, (t.read (p.addressAt offset)).body) := by
  simp [rows, ho]

theorem rows_congr (h : ∀ offset < p.queued,
    (t'.read (p.addressAt offset)).body = (t.read (p.addressAt offset)).body) :
    p.rows t' = p.rows t := by
  refine List.map_congr_left fun offset ho => ?_
  rw [h offset (List.mem_range.mp ho)]

theorem rows_of_empty (h : p.queued = 0) : p.rows t = [] := by
  rw [rows, h]
  rfl

/-- Retiring takes rows away at the head. -/
theorem rows_retire {count : Nat} (hc : count ≤ p.queued) :
    (p.retire count).rows t = (p.rows t).drop count := by
  have hright : (p.rows t).drop count = (List.range' count (p.queued - count)).map fun offset =>
      (p.slotAt offset, (t.read (p.addressAt offset)).body) := by
    rw [rows, ← List.map_drop, List.range_eq_range', List.drop_range', Nat.mul_one, Nat.zero_add]
  rw [hright, rows, queued_retire hc, List.range'_eq_map_range, List.map_map]
  refine List.map_congr_left fun offset _ => ?_
  show ((p.retire count).slotAt offset, (t.read ((p.retire count).addressAt offset)).body) = _
  rw [slotAt_retire hc, addressAt_retire hc]
  rfl

/-- In another row in which the descriptors read the same, the queue is the same. -/
theorem rows_moved {base : Nat} (hcap : 0 < p.capacity)
    (hcopy : ∀ slot < p.capacity,
      t'.read (addressOf { p with base } slot) = t.read (p.addressOf slot)) :
    rows { p with base } t' = p.rows t := by
  refine List.map_congr_left fun offset _ => ?_
  have hread := hcopy (p.slotAt offset) (slotAt_lt hcap offset)
  exact congrArg (fun d : Descriptor => (p.slotAt offset, d.body)) hread

theorem rows_succ :
    rows { p with queued := p.queued + 1 } t =
      p.rows t ++ [(p.tail, (t.read (p.addressAt p.queued)).body)] := by
  rw [rows, List.range_succ, List.map_append]
  rfl

end Pool

namespace Stream

variable {s : Stream} {t : DescriptorTable}

/-- A new block enters the queue at the tail, as it was programmed. -/
theorem rows_appended (hs : s.pool.Sits t) (hroom : s.pool.queued < s.pool.capacity)
    (late : Bool) (source destination elements : Nat) :
    (s.appended late).pool.rows (s.appendedTable t source destination elements) =
      s.pool.rows t ++ [(s.pool.tail,
        Descriptor.body { source, destination, control := s.controlWord elements })] := by
  refine Pool.rows_succ.trans ?_
  congr 1
  · refine Pool.rows_congr fun offset ho => ?_
    apply body_appendedTable_of_ne (v := Machine.scene { table := t } 0) hs _ hroom source
      destination
    intro heq
    have := Pool.addressAt_inj hs.head_lt (by omega) hroom heq
    omega
  · rw [body_appendedTable hs, hs.read_pushed _ _ _ _ hroom, if_pos rfl]
    rfl

end Stream

namespace Course

variable {a : Action} {c c' : Course}

def rows (c : Course) : List (Nat × Descriptor) :=
  c.stream.pool.rows c.table

/-- Whatever happens to a queue but queueing, blocks at its head leave, and the rest stays. -/
theorem Shift.rows_dropped (h : c.Shift a c') (hs : c.stream.pool.Sits c.table)
    (ha : ∀ destination source size, a ≠ .append destination source size) :
    ∃ count, c'.rows = c.rows.drop count := by
  cases h with
  | stay | configured | denied | advanced => exact ⟨0, rfl⟩
  | informed _ callback =>
    refine ⟨0, Pool.rows_congr fun offset _ => ?_⟩
    split
    · exact Stream.body_rearmed (s := { c.stream with callback }) hs _
    · rfl
  | queued => exact absurd rfl (ha _ _ _)
  | started hb hq =>
    exact ⟨0, Pool.rows_congr fun offset _ => Stream.body_startedTable hs _⟩
  | passed hb hcount | restarted hb hcount | released hb hcount =>
    exact ⟨_, Pool.rows_retire (Nat.le_trans hcount Stream.reachable_le)⟩
  | cleared =>
    refine ⟨c.rows.length, ?_⟩
    rw [List.drop_length]
    exact Pool.rows_of_empty rfl
  | replaced hb hsits hcopy => exact ⟨0, Pool.rows_moved hs.capacity_pos hcopy⟩

end Course

/-! ## Requests -/

/-- Bits 24 to 30 of a control word, which mean nothing. -/
def Control.reserved : UInt32 := 0x7F000000

/-- A request that a stream took: the slot that its block went to, what was asked for, and the
settings that were in force. -/
structure Request where
  slot : Nat
  destination : Nat
  source : Nat
  size : Nat
  settings : TransferSettings

namespace Request

def elements (q : Request) : Nat :=
  q.size / q.settings.width.bytes

/-- What is checked of a request before it is taken. -/
structure Checked (q : Request) : Prop where
  whole : q.size % q.settings.width.bytes = 0
  elements_pos : 0 < q.elements
  elements_le : q.elements ≤ maxTransfer

/-- The descriptor that says a request, with no link and no flag. -/
def body (q : Request) : Descriptor where
  source := q.source
  destination := q.destination
  control := q.settings.controlTemplate ||| Control.encodeCount (UInt32.ofNat q.elements)

def row (q : Request) : Nat × Descriptor :=
  (q.slot, q.body)

end Request

namespace Descriptor

/-- What a descriptor says is the request. -/
structure Decodes (d : Descriptor) (q : Request) : Prop where
  source : d.source = q.source
  destination : d.destination = q.destination
  size : d.elements * d.elementBytes = q.size
  width : d.elementBytes = q.settings.width.bytes
  sourceFixed : d.sourceFixed = !q.settings.sourceIncrement
  destinationFixed : d.destinationFixed = !q.settings.destinationIncrement
  burst : d.control &&& Control.burstMask = q.settings.burst.bits <<< Control.burstShift
  reserved : d.control &&& Control.reserved = 0

/-- Link and flag have no say in what a descriptor says. -/
theorem Decodes.of_body {d : Descriptor} {q : Request} (h : d.body.Decodes q) : d.Decodes q := by
  have hblock := d.block_body
  have helements : d.body.elements = d.elements := congrArg Block.elements hblock
  have hbytes : d.body.elementBytes = d.elementBytes := congrArg Block.elementBytes hblock
  have hburst := armed_and d.control Control.burstMask false (by decide) (by decide)
  have hreserved := armed_and d.control Control.reserved false (by decide) (by decide)
  exact
    { source := h.source
      destination := h.destination
      size := by rw [← helements, ← hbytes, h.size]
      width := hbytes ▸ h.width
      sourceFixed := (congrArg Block.sourceFixed hblock).symm.trans h.sourceFixed
      destinationFixed := (congrArg Block.destinationFixed hblock).symm.trans h.destinationFixed
      burst := hburst.symm.trans h.burst
      reserved := hreserved.symm.trans h.reserved }

end Descriptor

/-- The burst field of the settings. -/
theorem TransferSettings.controlTemplate_burst (t : TransferSettings) :
    t.controlTemplate &&& Control.burstMask = t.burst.bits <<< Control.burstShift := by
  obtain ⟨width, burst, source, destination, priority⟩ := t
  cases width <;> cases burst <;> cases source <;> cases destination <;> cases priority <;> decide

namespace Request

variable {q : Request}

/-- The count takes up its own field and no other. -/
theorem control_and {mask : UInt32} (hmask : Control.countMask &&& mask = 0) :
    q.body.control &&& mask = q.settings.controlTemplate &&& mask := by
  show (_ ||| (UInt32.ofNat q.elements - 1) &&& Control.countMask) &&& mask = _
  rw [and_or_mask, UInt32.and_assoc, hmask, UInt32.and_zero, UInt32.or_zero]

/-- A request is carried out as the block that it stands for, up to the largest count. -/
theorem Checked.block (h : q.Checked) :
    q.body.block = q.settings.block q.destination q.source q.elements := by
  obtain ⟨hcount, hwidth, hsource, hdestination⟩ := Stream.controlTemplate_fields q.settings
  have hfield : q.body.control &&& Control.countMask =
      (UInt32.ofNat q.elements - 1) &&& Control.countMask := by
    show (_ ||| (UInt32.ofNat q.elements - 1) &&& Control.countMask) &&& Control.countMask = _
    rw [and_or_mask, hcount, UInt32.zero_or, UInt32.and_assoc, UInt32.and_self]
  have helements : q.body.elements = q.elements := by
    rw [Descriptor.elements, Control.decodeCount, hfield]
    exact Stream.decodeCount_encodeCount h.elements_pos h.elements_le
  have hbytes : q.body.elementBytes = q.settings.width.bytes := by
    rw [← hwidth, Descriptor.elementBytes, control_and (by decide)]
  have hsourceFixed : q.body.sourceFixed = !q.settings.sourceIncrement := by
    rw [← hsource, Descriptor.sourceFixed, control_and (by decide)]
  have hdestinationFixed : q.body.destinationFixed = !q.settings.destinationIncrement := by
    rw [← hdestination, Descriptor.destinationFixed, control_and (by decide)]
  rw [Descriptor.block, helements, hbytes, hsourceFixed, hdestinationFixed]
  rfl

/-- **Decoding is the inverse of programming.** -/
theorem Checked.decodes (h : q.Checked) : q.body.Decodes q := by
  have helements : q.body.elements = q.elements := congrArg Block.elements h.block
  have hbytes : q.body.elementBytes = q.settings.width.bytes := congrArg Block.elementBytes h.block
  have hreserved : q.settings.controlTemplate &&& Control.reserved = 0 := by
    rw [← Stream.controlTemplate_own, UInt32.and_assoc]
    exact UInt32.and_zero
  exact
    { source := rfl
      destination := rfl
      size := by
        rw [helements, hbytes]
        exact Nat.div_mul_cancel (Nat.dvd_of_mod_eq_zero h.whole)
      width := hbytes
      sourceFixed := congrArg Block.sourceFixed h.block
      destinationFixed := congrArg Block.destinationFixed h.block
      burst := (control_and (by decide)).trans q.settings.controlTemplate_burst
      reserved := (control_and (by decide)).trans hreserved }

end Request

namespace Stream

variable {s : Stream}

/-- The request that a stream takes now, if it takes it. -/
def request (s : Stream) (destination source size : Nat) : Request where
  slot := s.discardFinished.pool.tail
  destination := destination
  source := source
  size := size
  settings := s.config.settings

theorem checked_request {destination source size elements : Nat}
    (hcheck : s.checkBlock destination source size = .ok elements) :
    (s.request destination source size).elements = elements ∧
      (s.request destination source size).Checked := by
  obtain ⟨rfl, hpos, hmax⟩ := checkBlock_ok hcheck
  refine ⟨rfl, ?_, hpos, hmax⟩
  unfold checkBlock at hcheck
  by_cases hsize : size = 0 ∨ size % s.config.settings.width.bytes ≠ 0
  · rw [if_pos hsize] at hcheck
    cases hcheck
  · exact Decidable.not_not.mp (not_or.mp hsize).2

/-- What a stream programs is the request, but for the flag. -/
theorem body_controlWord (ht : s.template = s.config.settings.controlTemplate)
    (q : Request) (hq : q.settings = s.config.settings) :
    Descriptor.body
        { source := q.source
          destination := q.destination
          control := s.controlWord q.elements } = q.body := by
  have htemplate : s.config.settings.controlTemplate &&& ~~~Control.interruptOnComplete =
      s.config.settings.controlTemplate := by
    rw [← controlTemplate_own, UInt32.and_assoc]
    rfl
  have hirq : (if s.wantsInterrupt true then Control.interruptOnComplete else 0) &&&
      ~~~Control.interruptOnComplete = 0 := by
    split <;> decide
  have hcount : Control.encodeCount (UInt32.ofNat q.elements) &&& ~~~Control.interruptOnComplete =
      Control.encodeCount (UInt32.ofNat q.elements) := by
    rw [Control.encodeCount, UInt32.and_assoc]
    rfl
  have hword : Descriptor.armed (s.controlWord q.elements) false = q.body.control := by
    show s.controlWord q.elements &&& ~~~Control.interruptOnComplete =
      q.settings.controlTemplate ||| _
    rw [controlWord, and_or_mask, and_or_mask, hirq, hcount, ht, htemplate, UInt32.or_zero, hq]
  rw [Descriptor.body, hword]
  rfl

theorem rows_discardFinished (t : DescriptorTable) :
    ∃ count, s.discardFinished.pool.rows t = (s.pool.rows t).drop count := by
  unfold discardFinished
  split
  · exact ⟨(s.pool.rows t).length, by rw [List.drop_length]; exact Pool.rows_of_empty rfl⟩
  · exact ⟨0, rfl⟩

end Stream

/-- A request is refused and changes nothing, or comes to the end of the queue. -/
theorem Rig.Moored.rows_append {r : Rig} (h : r.Moored) (destination source size : Nat) :
    let result := (r.machine.exec r.hardware (r.stream.append destination source size)).1.1
    let c' := (r.step (.append destination source size)).course
    (∃ e, result = .error e ∧ c' = r.course) ∨
      result = .ok () ∧ (r.stream.request destination source size).Checked ∧
        ∃ count, c'.rows =
          r.course.rows.drop count ++ [(r.stream.request destination source size).row] := by
  rcases h.shift_append destination source size with
    hrefused | ⟨elements, late, hresult, hcheck, hroom, -, hcourse⟩
  · exact .inl hrefused
  · obtain ⟨helements, hchecked⟩ := Stream.checked_request hcheck
    obtain ⟨count, hcount⟩ := r.stream.rows_discardFinished r.machine.table
    have hbody := Stream.body_controlWord h.coherent.discardFinished.template
      (r.stream.request destination source size)
      (congrArg StreamConfig.settings Stream.config_discardFinished.symm)
    rw [helements] at hbody
    refine .inr ⟨hresult, hchecked, count, ?_⟩
    rw [hcourse]
    refine (Stream.rows_appended (Stream.sits_discardFinished h.sits) hroom late source destination
      elements).trans ?_
    rw [hcount]
    exact congrArg (fun d => r.course.rows.drop count ++ [(_, d)]) hbody

/-! ## Keeping a journal -/

/-- The request that an action makes, if it is one and is taken. -/
def Rig.taken (r : Rig) : Action → List Request
  | .append destination source size =>
    match (r.machine.exec r.hardware (r.stream.append destination source size)).1.1 with
    | .ok () => [r.stream.request destination source size]
    | .error _ => []
  | _ => []

/-- A rig, and every request that its stream took. -/
structure Journal where
  rig : Rig
  requests : List Request := []

namespace Journal

def step (j : Journal) (a : Action) : Journal where
  rig := j.rig.step a
  requests := j.requests ++ j.rig.taken a

def run (j : Journal) (actions : List Action) : Journal :=
  actions.foldl step j

theorem rig_run (j : Journal) (actions : List Action) :
    (j.run actions).rig = j.rig.run actions := by
  induction actions generalizing j with
  | nil => rfl
  | cons a actions ih => exact ih (j.step a)

/-- What is queued is the end of the journal. -/
structure Faithful (j : Journal) : Prop where
  moored : j.rig.Moored
  checked : ∀ q ∈ j.requests, q.Checked
  kept : ∃ earlier kept, j.requests = earlier ++ kept ∧ j.rig.course.rows = kept.map Request.row

variable {j : Journal}

/-- Rows that leave the queue stay in the journal. -/
theorem Faithful.dropped (h : j.Faithful) (count : Nat) :
    ∃ earlier kept, j.requests = earlier ++ kept ∧
      j.rig.course.rows.drop count = kept.map Request.row := by
  obtain ⟨earlier, kept, hrequests, hrows⟩ := h.kept
  refine ⟨earlier ++ kept.take count, kept.drop count, ?_, ?_⟩
  · rw [List.append_assoc, List.take_append_drop, hrequests]
  · rw [hrows, List.map_drop]

/-- A request that is taken comes to the end of queue and journal alike. -/
theorem Faithful.append (h : j.Faithful) (destination source size : Nat) :
    (j.step (.append destination source size)).Faithful := by
  have hmoored := h.moored.step (.append destination source size)
  have htaken : (j.step (.append destination source size)).requests = j.requests ++
      match (j.rig.machine.exec j.rig.hardware
        (j.rig.stream.append destination source size)).1.1 with
      | .ok () => [j.rig.stream.request destination source size]
      | .error _ => [] := rfl
  rcases h.moored.rows_append destination source size with
    ⟨e, hresult, hcourse⟩ | ⟨hresult, hchecked, count, hrows'⟩
  · rw [hresult, List.append_nil] at htaken
    refine ⟨hmoored, htaken ▸ h.checked, ?_⟩
    rw [htaken, show (j.step _).rig.course = j.rig.course from hcourse]
    exact h.kept
  · rw [hresult] at htaken
    obtain ⟨earlier, kept, hrequests, hrows⟩ := h.dropped count
    refine ⟨hmoored, ?_, earlier, kept ++ [j.rig.stream.request destination source size], ?_, ?_⟩
    · rw [htaken]
      intro q hq
      rcases List.mem_append.mp hq with hq | hq
      · exact h.checked q hq
      · rw [List.mem_singleton.mp hq]
        exact hchecked
    · rw [htaken, hrequests, List.append_assoc]
    · rw [List.map_append, ← hrows]
      exact hrows'

/-- Every action keeps the journal faithful. -/
theorem Faithful.step (h : j.Faithful) (a : Action) : (j.step a).Faithful := by
  have hother (ha : ∀ destination source size, a ≠ .append destination source size)
      (htaken : j.rig.taken a = []) : (j.step a).Faithful := by
    obtain ⟨count, hrows⟩ := (h.moored.shift a).rows_dropped h.moored.sits ha
    obtain ⟨earlier, kept, hrequests, hkept⟩ := h.dropped count
    have hsame : (j.step a).requests = j.requests := by
      show j.requests ++ _ = _
      rw [htaken, List.append_nil]
    exact ⟨h.moored.step a, hsame ▸ h.checked, earlier, kept, hsame.trans hrequests,
      hrows.trans hkept⟩
  cases a with
  | append destination source size => exact h.append destination source size
  | _ => exact hother nofun rfl

theorem Faithful.run (h : j.Faithful) (actions : List Action) : (j.run actions).Faithful := by
  induction actions generalizing j with
  | nil => exact h
  | cons a actions ih => exact ih (h.step a)

/-- A stream that was just made took nothing and holds nothing. -/
theorem faithful_make {m : Machine} {number index capacity : Nat} {config : StreamConfig}
    {r : Rig} (hcap : 0 < capacity) (hindex : index < m.controllers.size)
    (hr : m.rig number index capacity config = .ok r) : Faithful { rig := r } where
  moored := Rig.moored_make hcap hindex hr
  checked := nofun
  kept := by
    obtain ⟨-, rfl⟩ := Machine.rig_ok hr
    exact ⟨[], [], rfl, rfl⟩

/-- In a faithful journal the request of a queued block is what its descriptor says. -/
theorem Faithful.decodes (h : j.Faithful) :
    ∃ earlier kept, j.requests = earlier ++ kept ∧ kept.length = j.rig.stream.pool.queued ∧
      ∀ offset q, kept[offset]? = some q →
        q.slot = j.rig.stream.pool.slotAt offset ∧
          (j.rig.machine.table.read (j.rig.stream.pool.addressAt offset)).Decodes q := by
  obtain ⟨earlier, kept, hrequests, hrows⟩ := h.kept
  have hlength : kept.length = j.rig.stream.pool.queued := by
    rw [← List.length_map (f := Request.row), ← hrows]
    exact Pool.length_rows
  refine ⟨earlier, kept, hrequests, hlength, fun offset q hq => ?_⟩
  have hlt : offset < j.rig.stream.pool.queued := hlength ▸ (List.getElem?_eq_some_iff.mp hq).1
  have hrow := Pool.getElem?_rows (t := j.rig.machine.table) hlt
  change j.rig.course.rows[offset]? = _ at hrow
  rw [hrows, List.getElem?_map, hq] at hrow
  obtain ⟨hslot, hbody⟩ := Prod.mk.inj (Option.some.inj hrow)
  have hchecked : q.Checked := by
    refine h.checked q ?_
    rw [hrequests]
    exact List.mem_append_right _ (List.mem_of_getElem? hq)
  exact ⟨hslot, .of_body (hbody ▸ hchecked.decodes)⟩

/-- **A queued descriptor decodes to exactly the request that was taken.** Whatever happened since,
the queue is the end of the journal: each queued block lies in the slot that its request went to,
and its descriptor says source, destination, bytes, width, fixed sides and burst of the request as
they were when it was taken, with nothing in the reserved bits. Callbacks that come and go, chains
that start, later blocks, later settings, events of any kind and moves cannot be seen in it, and
the readings of the controller need not be true. -/
theorem decodes_run {m : Machine} {number index capacity : Nat} {config : StreamConfig} {r : Rig}
    (hcap : 0 < capacity) (hindex : index < m.controllers.size)
    (hr : m.rig number index capacity config = .ok r) (actions : List Action) :
    let j : Journal := run { rig := r } actions
    let p := j.rig.stream.pool
    j.rig = r.run actions ∧
      ∃ earlier kept, j.requests = earlier ++ kept ∧ kept.length = p.queued ∧
        ∀ offset q, kept[offset]? = some q →
          q.slot = p.slotAt offset ∧
            (j.rig.machine.table.read (p.addressAt offset)).Decodes q :=
  ⟨rig_run _ actions, ((faithful_make hcap hindex hr).run actions).decodes⟩

/-- Two blocks of the largest count, of bytes and then of words, in a chain that was started. -/
theorem decodes_run_largest :
    ∃ r j, Machine.rig { controllers := #[{}] } 3 0 2 {} = .ok r ∧
      j = run { rig := r }
        [.append 0 64 65536, .configure { width := .word }, .append 8 128 262144,
          .setCallback (some .ignore), .enable] ∧
      j.requests.map (fun q => (q.size, q.elements)) = [(65536, 65536), (262144, 65536)] ∧
      ∀ offset q, j.requests[offset]? = some q →
        (j.rig.machine.table.read (j.rig.stream.pool.addressAt offset)).Decodes q := by
  obtain ⟨r, hr⟩ : ∃ r, Machine.rig { controllers := #[{}] } 3 0 2 {} = .ok r := ⟨_, rfl⟩
  have hfacts : ((Machine.rig { controllers := #[{}] } 3 0 2 {}).toOption.map fun r =>
      (run { rig := r }
        [.append 0 64 65536, .configure { width := .word }, .append 8 128 262144,
          .setCallback (some .ignore), .enable]).requests.map fun q => (q.size, q.elements)) =
      some [(65536, 65536), (262144, 65536)] := by decide +kernel
  have hqueued : ((Machine.rig { controllers := #[{}] } 3 0 2 {}).toOption.map fun r =>
      (run { rig := r }
        [.append 0 64 65536, .configure { width := .word }, .append 8 128 262144,
          .setCallback (some .ignore), .enable]).rig.stream.pool.queued) =
      some 2 := by decide +kernel
  rw [hr] at hfacts hqueued
  have hsizes := Option.some.inj hfacts
  have hqueued := Option.some.inj hqueued
  dsimp only at hsizes hqueued
  obtain ⟨-, earlier, kept, hrequests, hlength, hdecodes⟩ :=
    decodes_run (by decide) (by decide) hr
      [.append 0 64 65536, .configure { width := .word }, .append 8 128 262144,
        .setCallback (some .ignore), .enable]
  generalize hj : run { rig := r } _ = j at hsizes hqueued hrequests hlength hdecodes
  refine ⟨r, j, hr, hj.symm, hsizes, fun offset q hq => ?_⟩
  have htotal : j.requests.length = 2 := by
    rw [← List.length_map (f := fun q : Request => (q.size, q.elements)), hsizes]
    rfl
  have hearlier : earlier = [] := by
    rw [hrequests, List.length_append, hlength, hqueued] at htotal
    exact List.eq_nil_of_length_eq_zero (by omega)
  rw [hearlier, List.nil_append] at hrequests
  exact (hdecodes offset q (hrequests ▸ hq)).2

end Journal

end ScatterGather
