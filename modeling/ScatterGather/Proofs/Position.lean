import ScatterGather.Proofs.Rig

/-!
# ScatterGather.Proofs.Position — what a stream reports of its progress

`Stream.queued` is worked out from the next pointer alone, with a case for each chain mode, for the
end of the chain and for a block that was linked too late. Whether the figure is right can be said
without any of this, by watching the controller. A `Watch` is a rig with a `Trail`: the descriptors
that the controller came to since each of them was last programmed, and how many blocks were queued
since it was last seen to run.

`Stream.Traced` ties the trail to the position at which the controller stands. While the controller
runs, it came to every block up to its own; once it has stopped, it came to the blocks in front of
its position and to no other. Every action keeps this (`Watch.Tracked.step`), so whatever happens to
a stream, what it reports is what a watcher would count (`Watch.reports_run`).
-/

namespace ScatterGather

/-! ## The addresses of a queue -/

namespace Pool

variable {p : Pool} {k : Nat}

/-- The descriptors that are queued, in order. -/
def addresses (p : Pool) : List Nat :=
  p.queuedSlots.map p.addressOf

theorem addresses_eq : p.addresses = (List.range p.queued).map p.addressAt :=
  List.map_map

theorem length_addresses : p.addresses.length = p.queued := by
  rw [addresses_eq, List.length_map, List.length_range]

theorem mem_addresses {a : Nat} :
    a ∈ p.addresses ↔ ∃ offset < p.queued, p.addressAt offset = a := by
  simp [addresses_eq]

/-- The queue up to an offset, and from there on. -/
theorem addresses_split (hk : k ≤ p.queued) :
    p.addresses =
      (List.range k).map p.addressAt ++ (List.range' k (p.queued - k)).map p.addressAt := by
  have happend := List.range'_append_1 (s := 0) (m := k) (n := p.queued - k)
  rw [Nat.zero_add, Nat.add_sub_cancel' hk] at happend
  rw [addresses_eq, ← List.map_append, List.range_eq_range', List.range_eq_range', happend]

/-- From the block at an offset to the last one there are as many blocks as lie behind the
offset. -/
theorem length_dropWhile_addresses (hh : p.head < p.capacity) (hle : p.queued ≤ p.capacity)
    (hk : k < p.queued) :
    (p.addresses.dropWhile (· ≠ p.addressAt k)).length = p.queued - k := by
  have hbefore : ∀ a ∈ (List.range k).map p.addressAt, decide (a ≠ p.addressAt k) = true := by
    intro a ha
    obtain ⟨offset, ho, rfl⟩ := List.mem_map.mp ha
    have hlt : offset < k := List.mem_range.mp ho
    apply decide_eq_true
    intro heq
    have := addressAt_inj hh (by omega) (by omega) heq
    omega
  obtain ⟨n, hn⟩ : ∃ n, p.queued - k = n + 1 := ⟨p.queued - k - 1, by omega⟩
  rw [addresses_split (Nat.le_of_lt hk), List.dropWhile_append_of_pos hbefore, hn,
    List.range'_succ, List.map_cons, List.dropWhile_cons_of_neg (by simp)]
  simp

/-- If a property singles out the blocks from an offset on, it leaves these. -/
theorem filter_addresses {P : Nat → Bool} (hk : k ≤ p.queued)
    (h : ∀ offset < p.queued, (P (p.addressAt offset) = true ↔ k ≤ offset)) :
    p.addresses.filter P = (List.range' k (p.queued - k)).map p.addressAt := by
  have hbefore : ((List.range k).map p.addressAt).filter P = [] := by
    apply List.filter_eq_nil_iff.mpr
    intro a ha
    obtain ⟨offset, ho, rfl⟩ := List.mem_map.mp ha
    have hlt : offset < k := List.mem_range.mp ho
    rw [h offset (by omega)]
    omega
  have hbehind : ((List.range' k (p.queued - k)).map p.addressAt).filter P =
      (List.range' k (p.queued - k)).map p.addressAt := by
    apply List.filter_eq_self.mpr
    intro a ha
    obtain ⟨offset, ho, rfl⟩ := List.mem_map.mp ha
    obtain ⟨hge, hlt⟩ := List.mem_range'_1.mp ho
    exact (h offset (by omega)).mpr hge
  rw [addresses_split hk, List.filter_append, hbefore, hbehind, List.nil_append]

theorem length_filter_addresses {P : Nat → Bool} (hk : k ≤ p.queued)
    (h : ∀ offset < p.queued, (P (p.addressAt offset) = true ↔ k ≤ offset)) :
    (p.addresses.filter P).length = p.queued - k := by
  rw [filter_addresses hk h, List.length_map, List.length_range']

/-- What is left when the first blocks are forgotten. -/
theorem addresses_retire (hk : k ≤ p.queued) :
    (p.retire k).addresses = (List.range' k (p.queued - k)).map p.addressAt := by
  rw [addresses_eq, queued_retire hk, List.range'_eq_map_range, List.map_map]
  exact List.map_congr_left fun offset _ => addressAt_retire hk offset

end Pool

/-! ## Watching a controller -/

/-- What a watcher of a controller remembers. -/
structure Trail where
  /-- Descriptors that the controller came to since they were last programmed. -/
  fetched : List Nat := []
  /-- How many blocks were queued since the controller was last seen to run. -/
  late : Nat := 0

namespace Trail

/-- An action programmed some descriptors, and left the controller at an address. Nothing that
happens takes a controller further than to one other descriptor. -/
def note (t : Trail) (current : Nat) (programmed : List Nat) : Trail where
  fetched := (if current = 0 then [] else [current]) ++ t.fetched.filter (· ∉ programmed)
  late := if current = 0 then t.late + programmed.length else 0

theorem mem_note {t : Trail} {current a : Nat} {programmed : List Nat} :
    a ∈ (t.note current programmed).fetched ↔
      (current ≠ 0 ∧ a = current) ∨ (a ∈ t.fetched ∧ a ∉ programmed) := by
  unfold note
  by_cases hc : current = 0 <;> simp [hc]

end Trail

namespace Stream

variable {s : Stream} {v : Scene} {k : Nat} {t : Trail}

/-- The trail of a controller that stands at an offset of the queue. -/
structure Traced (s : Stream) (v : Scene) (k : Nat) (t : Trail) : Prop where
  running : v.current ≠ 0 → t.late = 0 ∧ ∀ offset ≤ k, s.pool.addressAt offset ∈ t.fetched
  stopped : s.bound = true → v.current = 0 →
    t.late = s.pool.queued - k ∧
      ∀ offset < s.pool.queued, (s.pool.addressAt offset ∈ t.fetched ↔ offset < k)

/-- Of a stream at rest, or one that was started at its head, nothing has to be known. -/
theorem Sound.traced_fresh (h : s.Sound v 0) (hfresh : s.bound = false ∨ v.current ≠ 0)
    (t : Trail) (programmed : List Nat) : s.Traced v 0 (t.note v.current programmed) where
  running hc := by
    refine ⟨if_neg hc, ?_⟩
    intro offset ho
    obtain ⟨-, -, hcur⟩ := h.executing hc
    rw [Nat.eq_zero_of_le_zero ho, ← hcur]
    exact Trail.mem_note.mpr (.inl ⟨hc, rfl⟩)
  stopped hb hc := by
    rcases hfresh with hb' | hc'
    · rw [hb] at hb'
      cases hb'
    · exact absurd hc hc'

/-- What leaves queue and controller alone leaves the trail. -/
theorem Traced.still {s' : Stream} {v' : Scene} (h : s.Traced v k t) (hp : s'.pool = s.pool)
    (hb : s'.bound = s.bound) (hc : v'.current = v.current) :
    s'.Traced v' k (t.note v'.current []) where
  running hc' := by
    obtain ⟨-, hmem⟩ := h.running (hc ▸ hc')
    refine ⟨if_neg hc', ?_⟩
    intro offset ho
    rw [hp]
    exact Trail.mem_note.mpr (.inr ⟨hmem offset ho, List.not_mem_nil⟩)
  stopped hb' hc' := by
    obtain ⟨hlate, hmem⟩ := h.stopped (hb ▸ hb') (hc ▸ hc')
    rw [hp]
    refine ⟨(if_pos hc').trans hlate, ?_⟩
    intro offset ho
    rw [Trail.mem_note, ← hmem offset ho]
    simp [hc']

/-- A block that is queued takes a descriptor that the controller has not come to. -/
theorem Traced.appended (h : s.Traced v k t) (hs : s.Sound v k)
    (hroom : s.pool.queued < s.pool.capacity) (late : Bool) {v' : Scene}
    (hc : v'.current = v.current) :
    (s.appended late).Traced v' k (t.note v'.current [s.pool.addressAt s.pool.queued]) where
  running hc' := by
    have hrun : v.current ≠ 0 := hc ▸ hc'
    obtain ⟨-, hq, -⟩ := hs.executing hrun
    refine ⟨if_neg hc', ?_⟩
    intro offset ho
    apply Trail.mem_note.mpr
    refine .inr ⟨(h.running hrun).2 offset ho, ?_⟩
    intro heq
    have := Pool.addressAt_inj hs.sits.head_lt (by omega) hroom (List.mem_singleton.mp heq)
    omega
  stopped hb hc' := by
    obtain ⟨hlate, hmem⟩ := h.stopped hb (hc ▸ hc')
    have hk : k ≤ s.pool.queued := hs.offset_le
    constructor
    · show (if v'.current = 0 then t.late + 1 else 0) = s.pool.queued + 1 - k
      rw [if_pos hc', hlate]
      omega
    · intro offset ho
      rw [Trail.mem_note]
      show _ ∨ s.pool.addressAt offset ∈ _ ∧ s.pool.addressAt offset ∉ _ ↔ _
      by_cases hnew : offset = s.pool.queued
      · -- the new block itself
        subst hnew
        simp [hc', hk]
      · have hlt : offset < s.pool.queued := Nat.lt_of_le_of_ne (Nat.le_of_lt_succ ho) hnew
        have hne : s.pool.addressAt offset ≠ s.pool.addressAt s.pool.queued := by
          intro heq
          exact hnew (Pool.addressAt_inj hs.sits.head_lt (by omega) hroom heq)
        simp [hc', hmem offset hlt, hne]

/-- The blocks that are left are those from the controller's position on. -/
theorem Traced.retire (h : s.Traced v k t) (hs : s.Sound v k) (state : StreamState) :
    Traced { s with pool := s.pool.retire k, state } v 0 (t.note v.current []) where
  running hc := by
    refine ⟨if_neg hc, ?_⟩
    intro offset ho
    obtain ⟨-, -, hcur⟩ := hs.executing hc
    show (s.pool.retire k).addressAt offset ∈ _
    rw [Nat.eq_zero_of_le_zero ho, Pool.addressAt_retire hs.offset_le, Nat.add_zero, ← hcur]
    exact Trail.mem_note.mpr (.inl ⟨hc, rfl⟩)
  stopped hb hc := by
    obtain ⟨hlate, hmem⟩ := h.stopped hb hc
    have hq : (s.pool.retire k).queued = s.pool.queued - k := Pool.queued_retire hs.offset_le
    refine ⟨(if_pos hc).trans (hlate.trans hq.symm), ?_⟩
    intro offset ho
    have ho' : offset < (s.pool.retire k).queued := ho
    show (s.pool.retire k).addressAt offset ∈ _ ↔ _
    rw [Trail.mem_note, Pool.addressAt_retire hs.offset_le, hmem (k + offset) (by omega)]
    simp [hc]

/-- A controller that has stopped stands at the first block that it cannot reach. -/
theorem StandsAt.eq_reachable (h : s.StandsAt v k) (hc : v.current = 0)
    (hs : s.pool.Sits v.table) : k = s.reachable := by
  cases h with
  | running _ hcur _ => exact absurd (hcur ▸ hc) (hs.addressAt_ne_zero k)
  | stopped _ => rfl

theorem follow_le (s : Stream) (k : Nat) : s.follow k ≤ k + 1 := by
  unfold follow
  split <;> omega

/-- A controller that finishes a block comes to the next, or has come to all. -/
theorem Traced.finish (h : s.Traced v k t) (hs : s.Sound v k) :
    s.Traced v.finish (if v.current = 0 then k else s.follow k)
      (t.note v.finish.current []) := by
  have hs' := hs.finish
  by_cases hc : v.current = 0
  · rw [if_pos hc, Scene.finish_stopped hc]
    exact h.still rfl rfl rfl
  · rw [if_neg hc] at hs' ⊢
    obtain ⟨hb, hq, hcurrent⟩ := hs.executing hc
    obtain ⟨hlate, hmem⟩ := h.running hc
    constructor
    · intro hc'
      obtain ⟨-, -, hcurrent'⟩ := hs'.executing hc'
      refine ⟨if_neg hc', ?_⟩
      intro offset ho
      apply Trail.mem_note.mpr
      by_cases hlast : offset = s.follow k
      · exact .inl ⟨hc', by rw [hcurrent', hlast]⟩
      · have hle := s.follow_le k
        exact .inr ⟨hmem offset (by omega), List.not_mem_nil⟩
    · intro _ hc'
      -- the chain ended behind its last block
      have hk : s.follow k = s.pool.queued := by
        have hst := (hs.engaged hb).stands.stalled_eq hc
        rw [(hs'.engaged hb).stands.eq_reachable hc' hs'.sits, reachable_of_none hst]
      have hle := s.follow_le k
      refine ⟨?_, ?_⟩
      · show (if v.finish.current = 0 then t.late + 0 else 0) = _
        rw [if_pos hc', hlate, hk, Nat.sub_self]
      · intro offset ho
        rw [Trail.mem_note]
        simp [hc', hk, ho, hmem offset (by omega)]

/-! ## Operations and events -/

theorem Traced.configure (h : s.Traced v k t) (settings : TransferSettings) :
    (s.configure settings).2.Traced v k (t.note v.current []) := by
  unfold Stream.configure
  split
  · exact h.still rfl rfl rfl
  · split <;> exact h.still rfl rfl rfl

theorem Traced.exec_setCallback (h : s.Traced v k t) (callback : Option Callback) :
    (v.exec (s.setCallback callback)).1.Traced (v.exec (s.setCallback callback)).2 k
      (t.note (v.exec (s.setCallback callback)).2.current []) := by
  rw [Stream.exec_setCallback]
  exact h.still rfl rfl (by split <;> rfl)

/-- The descriptor that queueing programmed: that of the block queued last. -/
def programmed : Except DmaError Unit × Stream → List Nat
  | (.ok (), s) => [s.pool.addressAt (s.pool.queued - 1)]
  | (.error _, _) => []

theorem Traced.exec_append (h : s.Traced v k t) (hs : s.Sound v k)
    (destination source size : Nat) :
    (v.exec (s.append destination source size)).1.2.Traced
      (v.exec (s.append destination source size)).2 k
      (t.note (v.exec (s.append destination source size)).2.current
        (programmed (v.exec (s.append destination source size)).1)) := by
  by_cases hb : s.bound = true
  · rcases hs.append_cases destination source size with
      ⟨e, s', hexec, hrefused⟩ | ⟨elements, -, hroom, hexec⟩
    · rw [discardFinished_bound hb, or_self] at hrefused
      rw [hexec, hrefused]
      exact h.still rfl rfl rfl
    · rw [hexec, discardFinished_bound hb]
      rw [discardFinished_bound hb] at hroom
      exact h.appended hs hroom _ rfl
  · have hs' := hs.exec_append destination source size
    have hb' := (hs.bound_append destination source size).trans (Bool.eq_false_iff.mpr hb)
    obtain ⟨-, -, rfl⟩ := hs.resting (Bool.eq_false_iff.mpr hb)
    exact hs'.traced_fresh (.inl hb') t _

theorem Traced.exec_enable (h : s.Traced v k t) (hs : s.Sound v k) :
    (v.exec s.enable).1.2.Traced (v.exec s.enable).2 k
      (t.note (v.exec s.enable).2.current []) := by
  by_cases hb : s.bound ∨ s.pool.queued = 0
  · rw [Stream.exec_enable, if_pos hb]
    exact h.still rfl rfl rfl
  · obtain ⟨hb', hq⟩ := not_or.mp hb
    have hs' := hs.exec_enable
    rcases enable_cases (v := v) (Bool.eq_false_iff.mpr hb') hq with
      ⟨e, ownership, hexec⟩ | ⟨ownership, hexec⟩
    · rw [hexec]
      exact h.still rfl rfl rfl
    · rw [hexec] at hs' ⊢
      obtain ⟨-, -, rfl⟩ := hs.resting (Bool.eq_false_iff.mpr hb')
      exact hs'.traced_fresh (.inr (hs.sits.addressAt_ne_zero 0)) t _

theorem Sound.traced_disable (hs : s.Sound v k) (t : Trail) :
    (v.exec s.disable).1.Traced (v.exec s.disable).2 0
      (t.note (v.exec s.disable).2.current []) := by
  apply hs.exec_disable.traced_fresh (.inl ?_)
  rw [Stream.exec_disable]
  split
  · rfl
  · next hb => exact Bool.eq_false_iff.mpr hb

theorem Sound.traced_clear (hs : s.Sound v k) (t : Trail) :
    (v.exec s.clear).1.Traced (v.exec s.clear).2 0 (t.note (v.exec s.clear).2.current []) := by
  apply hs.exec_clear.traced_fresh (.inl ?_)
  rw [Stream.exec_clear]
  split
  · rfl
  · next hb => exact Bool.eq_false_iff.mpr hb

/-- A completion starts the chain anew or gives the channel back. -/
theorem Sound.traced_complete (hs : s.Sound v k) (hb : s.bound = true) (t : Trail) :
    (v.exec (s.react .complete)).1.Traced (v.exec (s.react .complete)).2 0
      (t.note (v.exec (s.react .complete)).2.current []) := by
  apply (hs.complete hb).traced_fresh ?_
  rw [exec_react_complete]
  split
  · exact .inr ((hs.retired hb).sits.addressAt_ne_zero 0)
  · exact .inl rfl

theorem Traced.progress (h : s.Traced v k t) (hs : s.Sound v k) (hb : s.bound = true) :
    Traced { s.retired v with state := .busy } v (s.retiredOffset k) (t.note v.current []) := by
  unfold retiredOffset
  by_cases hm : s.isCircular = true
  · rw [if_pos hm, Stream.retired, if_pos hm]
    exact h.still rfl rfl rfl
  · rw [if_neg hm, hs.retired_oneShot hb (Bool.eq_false_iff.mpr hm)]
    exact h.retire hs .busy

theorem Traced.exec_onInterrupt (h : s.Traced v k t) (hs : s.Sound v k) (event : TransferEvent) :
    (v.exec (s.onInterrupt event)).1.2.Traced (v.exec (s.onInterrupt event)).2
      (s.offsetAfter event k) (t.note (v.exec (s.onInterrupt event)).2.current []) := by
  rw [Stream.exec_onInterrupt]
  unfold offsetAfter
  by_cases hb : s.bound = true
  · rw [if_pos hb, if_pos hb]
    cases event with
    | progress =>
      rw [exec_react_progress]
      exact h.progress hs hb
    | complete => exact hs.traced_complete hb t
    | busError =>
      rw [exec_react_busError]
      exact (hs.released .error).traced_fresh (.inl rfl) t _
    | timeout =>
      obtain ⟨left, hleft⟩ := exec_react_timeout s v
      rw [hleft]
      by_cases hp : s.config.timeoutPolicy = .abort
      · simp only [hp, if_true]
        exact (hs.released .timeout).traced_fresh (.inl rfl) t _
      · simp only [hp, if_false]
        exact h.still rfl rfl rfl
  · rw [if_neg hb, if_neg hb]
    exact h.still rfl rfl rfl

/-! ## What is reported -/

variable (h : s.Traced v k t) (hs : s.Sound v k) (hb : s.bound = true)

include hs hb in
theorem Sound.exec_queued : (v.exec s.queued).1 = s.pool.queued - k := by
  rw [Stream.exec_queued, if_pos hb, hs.standing_eq hb]

include hs in
/-- A controller that runs is at a queued descriptor, and the blocks from there on are reported. -/
theorem Sound.reports_running (hc : v.current ≠ 0) :
    v.current ∈ s.pool.addresses ∧
      (v.exec s.queued).1 = (s.pool.addresses.dropWhile (· ≠ v.current)).length := by
  obtain ⟨hb, hq, hcur⟩ := hs.executing hc
  rw [hs.exec_queued hb, hcur]
  exact ⟨Pool.mem_addresses.mpr ⟨k, hq, rfl⟩,
    (Pool.length_dropWhile_addresses hs.sits.head_lt hs.sits.queued_le hq).symm⟩

include h hs hb in
/-- Once the controller has stopped, the blocks that it never came to are reported, and these are
the blocks that were queued after it stopped. -/
theorem Traced.reports_stopped (hc : v.current = 0) :
    (v.exec s.queued).1 = (s.pool.addresses.filter (· ∉ t.fetched)).length ∧
      (v.exec s.queued).1 = t.late := by
  obtain ⟨hlate, hmem⟩ := h.stopped hb hc
  rw [hs.exec_queued hb, hlate]
  refine ⟨(Pool.length_filter_addresses hs.offset_le ?_).symm, rfl⟩
  intro offset ho
  simp [hmem offset ho]

include hs in
/-- A controller that finishes a block of a one-shot chain leaves one less. -/
theorem Sound.reports_finish (hm : s.isCircular = false) (hc : v.current ≠ 0) :
    (v.finish.exec s.queued).1 + 1 = (v.exec s.queued).1 := by
  obtain ⟨hb, hq, -⟩ := hs.executing hc
  have hs' := hs.finish
  rw [if_neg hc, follow_oneShot hm] at hs'
  rw [hs'.exec_queued hb, hs.exec_queued hb]
  omega

end Stream

/-! ## Runs -/

/-- A rig and what a watcher of its controller remembers. -/
structure Watch where
  rig : Rig
  trail : Trail := {}

/-- The descriptors that an action programs. -/
def Rig.programmed (r : Rig) : Action → List Nat
  | .append destination source size =>
    Stream.programmed (r.machine.exec r.hardware (r.stream.append destination source size)).1
  | _ => []

/-- What a stream reports of its progress. -/
def Rig.reported (r : Rig) : Nat :=
  (r.machine.exec r.hardware r.stream.queued).1

namespace Watch

variable {w : Watch} {k : Nat}

/-- An action happens under the eyes of the watcher. -/
def step (w : Watch) (a : Action) : Watch where
  rig := w.rig.step a
  trail := w.trail.note (w.rig.step a).controller.current (w.rig.programmed a)

def run (w : Watch) (actions : List Action) : Watch :=
  actions.foldl step w

theorem rig_run (w : Watch) (actions : List Action) : (w.run actions).rig = w.rig.run actions := by
  induction actions generalizing w with
  | nil => rfl
  | cons a actions ih => exact ih (w.step a)

/-- What holds of a rig that was watched since its stream was made. -/
structure Tracked (w : Watch) (k : Nat) : Prop where
  attached : w.rig.Attached
  sound : w.rig.stream.Sound w.rig.scene k
  traced : w.rig.stream.Traced w.rig.scene k w.trail

theorem Tracked.interrupt (h : w.Tracked k) (event : TransferEvent) :
    (w.rig.interrupt event).stream.Traced (w.rig.interrupt event).scene
      (w.rig.stream.offsetAfter event k)
      (w.trail.note (w.rig.interrupt event).controller.current []) :=
  h.attached.driven (P := fun s v => s.Traced v _ (w.trail.note v.current [])) _ Prod.snd
    (h.traced.exec_onInterrupt h.sound event)

/-- Every action leaves a trail that tells the position of the controller. -/
theorem Tracked.step (h : w.Tracked k) (a : Action) :
    (w.step a).Tracked (w.rig.offsetAfter k a) := by
  refine ⟨h.attached.step a, h.attached.sound_step h.sound a, ?_⟩
  have hdriven {α : Type} (k' : Nat) :=
    h.attached.driven (P := fun s v => s.Traced v k' (w.trail.note v.current [])) (α := α)
  have hstill : w.rig.stream.Traced w.rig.scene k (w.trail.note w.rig.scene.current []) :=
    h.traced.still rfl rfl rfl
  cases a with
  | append destination source size =>
    exact Machine.Attached.driven h.attached
      (P := fun (out : Except DmaError Unit × Stream) v =>
        out.2.Traced v k (w.trail.note v.current (Stream.programmed out))) _ id
      (h.traced.exec_append h.sound destination source size)
  | configure settings => exact h.traced.configure settings
  | setCallback callback => exact hdriven k _ id (h.traced.exec_setCallback callback)
  | enable => exact hdriven k _ Prod.snd (h.traced.exec_enable h.sound)
  | disable => exact hdriven 0 _ id (h.sound.traced_disable w.trail)
  | clear => exact hdriven 0 _ id (h.sound.traced_clear w.trail)
  | interrupt event => exact h.interrupt event
  | deliver =>
    show (w.rig.step .deliver).stream.Traced (w.rig.step .deliver).scene _
      (w.trail.note (w.rig.step .deliver).scene.current [])
    cases hraised : w.rig.raised with
    | nil =>
      rw [Rig.step_deliver_nil hraised, Rig.offsetAfter, hraised]
      exact hstill
    | cons event raised =>
      rw [Rig.step_deliver_cons hraised, Rig.offsetAfter, hraised]
      exact h.interrupt event
  | moveElements count =>
    apply h.traced.still rfl rfl
    show ((w.rig.machine.moveElements w.rig.index count).scene w.rig.index).current = _
    rw [h.attached.scene_moveElements, Scene.current_moveElements]
    rfl
  | finish =>
    have hscene : (w.rig.step .finish).scene = w.rig.scene.finish := h.attached.scene_finish
    show w.rig.stream.Traced (w.rig.step .finish).scene _
      (w.trail.note (w.rig.step .finish).scene.current [])
    rw [hscene]
    exact h.traced.finish h.sound
  | fillFifo polls =>
    apply h.traced.still rfl rfl
    show ((w.rig.machine.setController w.rig.index _).scene w.rig.index).current = _
    rw [h.attached.scene_setController]
    rfl
  | relocate =>
    show (w.rig.step .relocate).stream.Traced (w.rig.step .relocate).scene _
      (w.trail.note (w.rig.step .relocate).scene.current [])
    have hs := h.attached.sound_step h.sound .relocate
    by_cases hb : w.rig.stream.bound = true
    · rw [Rig.step_relocate_bound hb]
      exact hstill
    · obtain ⟨-, -, rfl⟩ := h.sound.resting (Bool.eq_false_iff.mpr hb)
      rw [Rig.step_relocate_unbound (Bool.eq_false_iff.mpr hb)] at hs ⊢
      exact hs.traced_fresh (.inl (Bool.eq_false_iff.mpr hb)) w.trail _
  | contend ownership => exact h.traced.still rfl rfl rfl

theorem Tracked.run (h : w.Tracked k) (actions : List Action) : ∃ k, (w.run actions).Tracked k := by
  induction actions generalizing w k with
  | nil => exact ⟨k, h⟩
  | cons a actions ih => exact ih (h.step a)

/-- What a stream that holds its channel reports is what a watcher of its controller counts. -/
structure Reports (w : Watch) : Prop where
  /-- While the controller runs: the queued descriptors from the one that it executes to the
  last. -/
  running : w.rig.controller.isRunning = true →
    w.rig.controller.current ∈ w.rig.stream.pool.addresses ∧
      w.rig.reported =
        (w.rig.stream.pool.addresses.dropWhile (· ≠ w.rig.controller.current)).length
  /-- Once it has stopped: the queued descriptors that it never came to, which are those that were
  queued after it stopped. -/
  stopped : w.rig.controller.isRunning = false →
    w.rig.reported = (w.rig.stream.pool.addresses.filter (· ∉ w.trail.fetched)).length ∧
      w.rig.reported = w.trail.late
  /-- One less after each completion of a one-shot chain. -/
  completion : w.rig.stream.isCircular = false → w.rig.controller.isRunning = true →
    (w.rig.step .finish).reported + 1 = w.rig.reported

theorem Tracked.reports (h : w.Tracked k) (hb : w.rig.stream.bound = true) : w.Reports := by
  have hreported : w.rig.reported = (w.rig.scene.exec w.rig.stream.queued).1 :=
    (Machine.Attached.exec h.attached _).1
  constructor
  · intro hrun
    rw [hreported]
    exact h.sound.reports_running (of_decide_eq_true hrun)
  · intro hstop
    rw [hreported]
    exact h.traced.reports_stopped h.sound hb (Decidable.not_not.mp (of_decide_eq_false hstop))
  · intro hm hrun
    have hscene : (w.rig.step .finish).scene = w.rig.scene.finish := h.attached.scene_finish
    have hfinished : (w.rig.step .finish).reported =
        (w.rig.scene.finish.exec w.rig.stream.queued).1 := by
      rw [← hscene]
      exact (Machine.Attached.exec (h.attached.step .finish) _).1
    rw [hreported, hfinished]
    exact h.sound.reports_finish hm (of_decide_eq_true hrun)

/-- **A stream reports where its controller is.** A stream is made on a channel whose controller
reads truthfully and has stopped, and is watched from then on; operations, moves of the controller
and events of any kind follow one another in any order. Whenever the stream holds its channel, it
reports what the watcher counts. -/
theorem reports_run {m : Machine} {number index capacity : Nat} {config : StreamConfig} {r : Rig}
    (hcap : 0 < capacity) (hindex : index < m.controllers.size)
    (htruth : (m.controller index).Truthful) (hstop : (m.controller index).current = 0)
    (hr : m.rig number index capacity config = .ok r) (actions : List Action)
    (hb : (r.run actions).stream.bound = true) : (run { rig := r } actions).Reports := by
  obtain ⟨ha, hs⟩ := Rig.sound_make hcap hindex htruth hstop hr
  obtain ⟨-, hmade⟩ := Machine.rig_ok hr
  have hunbound : r.stream.bound = false := by rw [hmade]; rfl
  have h : Tracked { rig := r } 0 :=
    ⟨ha, hs, fun hc => absurd (hs.stopped hunbound) hc,
      fun hb' => by rw [hunbound] at hb'; cases hb'⟩
  obtain ⟨k, hk⟩ := h.run actions
  apply hk.reports
  rw [rig_run]
  exact hb

/-- A chain of two slots wraps; its controller stops, and a block is queued behind its back. -/
theorem reports_run_late :
    ∃ r, Machine.rig { controllers := #[{}] } 3 0 2 {} = .ok r ∧
      (run { rig := r } [.append 0 64 8, .append 8 64 8, .enable, .finish, .deliver,
        .append 16 64 8, .finish, .finish, .deliver, .append 24 64 8]).Reports := by
  obtain ⟨r, hr⟩ : ∃ r, Machine.rig { controllers := #[{}] } 3 0 2 {} = .ok r := ⟨_, rfl⟩
  refine ⟨r, hr, reports_run (by decide) (by decide) ⟨rfl, rfl, rfl⟩ rfl hr _ ?_⟩
  obtain rfl := Except.ok.inj hr
  decide +kernel

end Watch

end ScatterGather
