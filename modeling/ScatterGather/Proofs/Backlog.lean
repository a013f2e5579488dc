import ScatterGather.Proofs.Soundness

/-!
# ScatterGather.Proofs.Backlog — the blocks that a queue still holds

`Pool.blocksFrom` are the queued blocks from an offset on, as they stand in memory. Queueing adds
the block that was asked for at the end (`Stream.Sound.blocksFrom_appended`), and retiring changes
the offsets of the blocks but not their list (`blocksFrom_retire`). -/

namespace ScatterGather

/-! ## The blocks that are left -/

namespace Pool

/-- The queued blocks from an offset on, as they stand in memory. -/
def blocksFrom (p : Pool) (t : DescriptorTable) (k : Nat) : List Block :=
  (List.range' k (p.queued - k)).map fun offset => (t.read (p.addressAt offset)).block

variable {p : Pool} {t t' : DescriptorTable} {k : Nat}

theorem blocksFrom_congr (h : ∀ offset < p.queued,
      (t'.read (p.addressAt offset)).body = (t.read (p.addressAt offset)).body) :
    p.blocksFrom t' k = p.blocksFrom t k := by
  apply List.map_congr_left
  intro offset ho
  have hlt : offset < p.queued := by
    have := List.mem_range'_1.mp ho
    omega
  exact Descriptor.block_congr (h offset hlt)

theorem blocksFrom_of_empty (h : p.queued = 0) : p.blocksFrom t k = [] := by
  simp [blocksFrom, h]

theorem blocksFrom_cons (h : k < p.queued) :
    p.blocksFrom t k = (t.read (p.addressAt k)).block :: p.blocksFrom t (k + 1) := by
  obtain ⟨n, hn⟩ : ∃ n, p.queued - k = n + 1 := ⟨p.queued - k - 1, by omega⟩
  have hn' : p.queued - (k + 1) = n := by omega
  rw [blocksFrom, blocksFrom, hn, hn', List.range'_succ, List.map_cons]

/-- A block that is queued comes last. -/
theorem blocksFrom_succ (h : k ≤ p.queued) :
    blocksFrom { p with queued := p.queued + 1 } t k =
      p.blocksFrom t k ++ [(t.read (p.addressAt p.queued)).block] := by
  have hn : p.queued + 1 - k = p.queued - k + 1 := by omega
  have hk : k + 1 * (p.queued - k) = p.queued := by omega
  show List.map _ (List.range' k (p.queued + 1 - k)) = _
  rw [hn, List.range'_concat, List.map_append, hk]
  rfl

/-- A queue that holds two blocks holds each in its place. -/
theorem blocksFrom_pair {first second : Block} (h : p.blocksFrom t 0 = [first, second]) :
    p.queued = 2 ∧ (t.read (p.addressAt 0)).block = first ∧
      (t.read (p.addressAt 1)).block = second := by
  have hqueued : p.queued = 2 := by
    have hlen := congrArg List.length h
    simpa [blocksFrom] using hlen
  rw [blocksFrom, hqueued] at h
  obtain ⟨hfirst, hrest⟩ := List.cons.inj h
  exact ⟨hqueued, hfirst, (List.cons.inj hrest).1⟩

/-- Retiring changes the offsets of the blocks that are left, and nothing else. -/
theorem blocksFrom_retire (h : k ≤ p.queued) : (p.retire k).blocksFrom t 0 = p.blocksFrom t k := by
  rw [blocksFrom, blocksFrom, queued_retire h, Nat.sub_zero]
  have hr : List.range' k (p.queued - k) = (List.range' 0 (p.queued - k)).map (k + ·) := by
    rw [List.map_add_range', Nat.add_zero]
  rw [hr, List.map_map]
  apply List.map_congr_left
  intro offset _
  rw [addressAt_retire h]
  rfl

end Pool

namespace Stream

variable {s : Stream} {v : Scene} {k : Nat}

theorem Sound.offset_le (h : s.Sound v k) : k ≤ s.pool.queued := by
  by_cases hb : s.bound = true
  · exact (h.engaged hb).stands.le
  · rw [(h.resting (Bool.eq_false_iff.mpr hb)).2.2]
    exact Nat.zero_le _

/-! ## Taking a block -/

/-- The block that a request stands for, if the stream took it. -/
def requested (s : Stream) (destination source size : Nat) :
    Except DmaError Unit → List Block
  | .error _ => []
  | .ok () =>
    [s.config.settings.block destination source (size / s.config.settings.width.bytes)]

theorem checkBlock_ok {destination source size elements : Nat}
    (h : s.checkBlock destination source size = .ok elements) :
    elements = size / s.config.settings.width.bytes ∧ 0 < elements ∧ elements ≤ maxTransfer := by
  unfold checkBlock at h
  by_cases hsize : size = 0 ∨ size % s.config.settings.width.bytes ≠ 0
  · rw [if_pos hsize] at h
    cases h
  · rw [if_neg hsize] at h
    split at h
    · cases h
    · split at h
      · cases h
      · next hmax =>
        obtain rfl := Except.ok.inj h
        obtain ⟨hne, hmod⟩ := not_or.mp hsize
        refine ⟨rfl, Nat.pos_of_ne_zero ?_, Nat.not_lt.mp hmax⟩
        intro hz
        have := Nat.div_add_mod size s.config.settings.width.bytes
        rw [hz, Nat.mul_zero, Nat.zero_add] at this
        exact hne (by omega)

@[simp] theorem config_discardFinished : s.discardFinished.config = s.config := by
  unfold discardFinished
  split <;> rfl

@[simp] theorem bound_discardFinished : s.discardFinished.bound = s.bound := by
  unfold discardFinished
  split <;> rfl

/-- The chain of a bound stream is not finished. -/
theorem discardFinished_bound (hb : s.bound = true) : s.discardFinished = s := by
  simp [discardFinished, hb]

/-- The block that was queued is the block that was asked for. -/
theorem Sound.blocksFrom_appended (h : s.Sound v k) (hroom : s.pool.queued < s.pool.capacity)
    (hk : k ≤ s.pool.queued) {destination source size elements : Nat}
    (hcheck : s.checkBlock destination source size = .ok elements) :
    Pool.blocksFrom { s.pool with queued := s.pool.queued + 1 }
        (s.appendedTable v.table source destination elements) k =
      s.pool.blocksFrom v.table k ++ s.requested destination source size (.ok ()) := by
  obtain ⟨rfl, hpos, hmax⟩ := checkBlock_ok hcheck
  rw [Pool.blocksFrom_succ hk]
  congr 1
  · apply Pool.blocksFrom_congr
    intro offset ho
    apply body_appendedTable_of_ne h.sits _ hroom source destination _
    intro heq
    have := Pool.addressAt_inj h.sits.head_lt (by omega) hroom heq
    omega
  · have hentry := Descriptor.block_congr
      (body_appendedTable h.sits source destination (size / s.config.settings.width.bytes)
        (s.pool.addressAt s.pool.queued))
    rw [hentry, h.sits.read_pushed _ _ _ _ hroom, if_pos rfl]
    exact congrArg (· :: []) (block_controlWord s h.template hpos hmax source destination _)

/-! ## Queueing at rest -/

/-- Queueing touches descriptors only. -/
theorem Sound.append_scene (h : s.Sound v k) (destination source size : Nat) :
    ∃ table, (v.exec (s.append destination source size)).2 = { v with table } := by
  rcases h.append_cases destination source size with ⟨e, s', hexec, -⟩ | ⟨elements, -, -, hexec⟩
  · exact ⟨v.table, by rw [hexec]⟩
  · exact ⟨_, by rw [hexec]⟩

theorem Sound.bound_append (h : s.Sound v k) (destination source size : Nat) :
    (v.exec (s.append destination source size)).1.2.bound = s.bound := by
  rcases h.append_cases destination source size with
    ⟨e, s', hexec, rfl | rfl⟩ | ⟨elements, -, -, hexec⟩
  · rw [hexec]
  · rw [hexec]
    exact bound_discardFinished
  · rw [hexec]
    exact bound_discardFinished

/-- What is left behind when a stream that is not bound takes a block. -/
theorem Sound.append_ok (h : s.Sound v k) (hb : s.bound = false) (destination source size : Nat)
    (hok : (v.exec (s.append destination source size)).1.1 = .ok ()) :
    ∃ table, v.exec (s.append destination source size) =
        ((.ok (), { s.discardFinished with
          pool := { s.discardFinished.pool with queued := s.discardFinished.pool.queued + 1 },
          state := .ready }), { v with table }) ∧
      s.discardFinished.pool.queued < s.pool.capacity ∧
      Pool.blocksFrom { s.discardFinished.pool with queued := s.discardFinished.pool.queued + 1 }
          table 0 =
        s.discardFinished.pool.blocksFrom v.table 0 ++
          [s.config.settings.block destination source (size / s.config.settings.width.bytes)] := by
  rcases h.append_cases destination source size with
    ⟨e, s', hexec, -⟩ | ⟨elements, hcheck, hroom, hexec⟩
  · rw [hexec] at hok
    cases hok
  · have hb' : s.discardFinished.bound = false := bound_discardFinished.trans hb
    have hlate (v' : Scene) : s.discardFinished.tooLate v' = false := by
      rw [tooLate, hb']
      rfl
    have hcheck' : s.discardFinished.checkBlock destination source size = .ok elements := by
      rw [checkBlock, config_discardFinished]
      exact hcheck
    have hblocks := (h.unbound hb).discardFinished.blocksFrom_appended hroom (Nat.zero_le _) hcheck'
    rw [requested, config_discardFinished] at hblocks
    rw [(kept_discardFinished s).capacity] at hroom
    refine ⟨_, ?_, hroom, hblocks⟩
    have hstate : (if s.discardFinished.bound then s.discardFinished.state else .ready) =
        StreamState.ready := if_neg (by rw [hb']; exact Bool.false_ne_true)
    rw [hexec, hlate, Stream.appended, hstate]
    rfl

/-- A stream at rest that holds these blocks, and adds the next one to them. -/
structure Holds (s : Stream) (v : Scene) (blocks : List Block) : Prop where
  sound : s.Sound v 0
  unbound : s.bound = false
  unfinished : s.state.isFinal = false
  blocks : s.pool.blocksFrom v.table 0 = blocks

theorem Sound.holds_clear (h : s.Sound v k) :
    (v.exec s.clear).1.Holds (v.exec s.clear).2 [] := by
  have hsound := h.exec_clear
  rw [Stream.exec_clear] at hsound ⊢
  by_cases hb : s.bound = true
  · rw [if_pos hb] at hsound ⊢
    exact ⟨hsound, rfl, rfl, Pool.blocksFrom_of_empty rfl⟩
  · rw [if_neg hb] at hsound ⊢
    exact ⟨hsound, Bool.eq_false_iff.mpr hb, rfl, Pool.blocksFrom_of_empty rfl⟩

theorem Holds.append {blocks : List Block} (h : s.Holds v blocks) (destination source size : Nat)
    (hok : (v.exec (s.append destination source size)).1.1 = .ok ()) :
    (v.exec (s.append destination source size)).1.2.Holds
      (v.exec (s.append destination source size)).2 (blocks ++
        [s.config.settings.block destination source (size / s.config.settings.width.bytes)]) := by
  obtain ⟨table, hexec, -, hblocks⟩ := h.sound.append_ok h.unbound destination source size hok
  have hsound := h.sound.exec_append destination source size
  have hdiscard : s.discardFinished = s := by
    have hfinal : (!s.bound && s.state.isFinal) = false := by rw [h.unfinished, Bool.and_false]
    rw [discardFinished, if_neg (by rw [hfinal]; exact Bool.false_ne_true)]
  rw [hdiscard] at hexec hblocks
  rw [h.blocks] at hblocks
  rw [hexec] at hsound ⊢
  exact ⟨hsound, h.unbound, rfl, hblocks⟩

/-- The blocks that a stream holds are those that its controller is set to. -/
theorem Holds.enable {blocks : List Block} (h : s.Holds v blocks)
    (hok : (v.exec s.enable).1.1 = .ok ()) :
    (∃ ownership, v.exec s.enable =
      ((.ok (), { s with bound := true, stalled := none, state := .busy }),
        { v with ownership, table := s.startedTable v.table }.start (s.pool.addressAt 0))) ∧
      s.pool.blocksFrom (s.startedTable v.table) 0 = blocks := by
  refine ⟨?_, (Pool.blocksFrom_congr fun _ _ => body_startedTable h.sound.sits _).trans h.blocks⟩
  by_cases hq : s.pool.queued = 0
  · rw [exec_enable, if_pos (.inr hq)] at hok
    cases hok
  · rcases enable_cases (v := v) h.unbound hq with ⟨e, ownership, hexec⟩ | hstarted
    · rw [hexec] at hok
      cases hok
    · exact hstarted

end Stream

end ScatterGather
