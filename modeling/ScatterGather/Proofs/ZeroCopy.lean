import ScatterGather.Proofs.Fifo

/-!
# ScatterGather.Proofs.ZeroCopy — writing in place comes to the same as copying

A user of a byte queue can have its bytes copied in and out (`pushArray`, `popArray`), or be shown
runs of cells, write and read there, and say afterwards how much of them was used (`pushRun`,
`advance`, `popRun`, `abandon`). `ByteQueue.ZeroCopy` says how the two fit together: what is shown
for writing is free and in order, writing alone queues nothing, and the loop over runs does what the
copy does, except that it counts nothing as dropped.

The loop needs at most two runs, whatever writing means to its user (`Ring.Valid.fill_eq`): up to
the end of the store, and from its start on (`Ring.pieces`).
-/

namespace ScatterGather

namespace Ring

variable {r : Ring}

/-! ## Positions and their cells -/

/-- The cell of a position, counted from the oldest byte on. -/
def cellAt (r : Ring) (position : Nat) : Nat :=
  (r.head + position) % r.capacity

theorem Valid.wrap_position (h : r.Valid) {position : Nat} (hp : position ≤ r.capacity) :
    r.wrap (r.head + position) = r.cellAt position := by
  have hlt := h.head_lt
  exact wrap_eq_mod (by omega)

/-- Two positions of one turn have two cells. -/
theorem Valid.cellAt_inj (h : r.Valid) {p p' : Nat} (hp : p < r.capacity) (hp' : p' < r.capacity)
    (heq : r.cellAt p = r.cellAt p') : p = p' := by
  have hlt := h.head_lt
  rw [← h.wrap_position (Nat.le_of_lt hp), ← h.wrap_position (Nat.le_of_lt hp')] at heq
  unfold wrap at heq
  split at heq <;> split at heq <;> omega

/-- The free run behind an offset starts at the cell of its first position. -/
theorem Valid.pushRun_eq (h : r.Valid) {offset : Nat} (hoffset : offset < r.available) :
    r.pushRun offset = ⟨r.cellAt (r.size + offset),
      min (r.available - offset) (r.capacity - r.cellAt (r.size + offset))⟩ := by
  have hlt := h.head_lt
  have hav : r.available = r.capacity - r.size := rfl
  have hstart : r.wrap (r.tail + offset) = r.cellAt (r.size + offset) := by
    rw [h.tail_eq, wrap_wrap_add (by omega), Nat.add_assoc, h.wrap_position (by omega)]
  rw [pushRun, if_neg (by omega), hstart]

theorem pushRun_none {offset : Nat} (hoffset : r.available ≤ offset) :
    r.pushRun offset = ⟨0, 0⟩ :=
  if_pos hoffset

theorem cellAt_lt (h : r.Valid) (position : Nat) : r.cellAt position < r.capacity :=
  Nat.mod_lt _ h.capacity_pos

theorem Valid.pushRun_pos (h : r.Valid) {offset : Nat} (hoffset : offset < r.available) :
    0 < (r.pushRun offset).length := by
  have hcell := cellAt_lt h (r.size + offset)
  rw [h.pushRun_eq hoffset]
  show 0 < min _ _
  omega

theorem Valid.pushRun_end_le (h : r.Valid) (offset : Nat) :
    (r.pushRun offset).start + (r.pushRun offset).length ≤ r.capacity := by
  by_cases hoffset : offset < r.available
  · have hcell := cellAt_lt h (r.size + offset)
    rw [h.pushRun_eq hoffset]
    show r.cellAt _ + min _ _ ≤ _
    omega
  · rw [pushRun_none (Nat.not_lt.mp hoffset)]
    exact Nat.zero_le _

/-- **What is shown for writing is free, and in order**: cell by cell the positions that follow the
queued ones. -/
theorem Valid.cell_of_pushRun (h : r.Valid) {offset i : Nat} (hi : i < (r.pushRun offset).length) :
    r.size + offset + i < r.capacity ∧
      (r.pushRun offset).start + i = r.cellAt (r.size + offset + i) := by
  by_cases hoffset : offset < r.available
  · have hav : r.available = r.capacity - r.size := rfl
    have hend := h.pushRun_end_le offset
    rw [h.pushRun_eq hoffset] at hi hend ⊢
    have hlength : i < r.available - offset := Nat.lt_of_lt_of_le hi (Nat.min_le_left ..)
    refine ⟨by omega, ?_⟩
    -- the run ends before the store does, so nothing wraps inside it
    have hin : r.cellAt (r.size + offset) + i < r.capacity :=
      Nat.lt_of_lt_of_le (Nat.add_lt_add_left hi _) hend
    show r.cellAt (r.size + offset) + i = (r.head + (r.size + offset + i)) % r.capacity
    rw [← Nat.add_assoc, ← Nat.mod_add_mod]
    exact (Nat.mod_eq_of_lt hin).symm
  · rw [pushRun_none (Nat.not_lt.mp hoffset)] at hi
    exact absurd hi (Nat.not_lt_zero i)

/-- No cell that is shown for writing holds a queued byte. -/
theorem Valid.pushRun_free (h : r.Valid) {offset i position : Nat}
    (hi : i < (r.pushRun offset).length) (hp : position < r.size) :
    (r.pushRun offset).start + i ≠ r.cellAt position := by
  obtain ⟨hlt, hcell⟩ := h.cell_of_pushRun hi
  rw [hcell]
  intro heq
  have := h.cellAt_inj hlt (by omega) heq
  omega

/-! ## The loop over runs -/

/-- The writes that bring data into the free cells, as far as it fits: up to the end of the store,
and from its start on. -/
def pieces (r : Ring) (data : List UInt8) : List (Nat × List UInt8) :=
  let count := min data.length r.available
  let first := min count (r.capacity - r.tail)
  [(r.tail, data.take first), (0, (data.drop first).take (count - first))].filter
    fun piece => !piece.2.isEmpty

/-- The ring after so many bytes were queued. Where there is nothing to queue, not even the level is
recorded. -/
def grown (r : Ring) (count : Nat) : Ring :=
  if count = 0 then r else r.advance count

theorem length_pieces_le (data : List UInt8) : (r.pieces data).length ≤ 2 :=
  List.length_filter_le ..

theorem pieces_ne_nil {data : List UInt8} {piece : Nat × List UInt8} (h : piece ∈ r.pieces data) :
    piece.2 ≠ [] := by
  have hpiece := (List.mem_filter.mp h).2
  simpa using hpiece

section Fill

variable {m : Type → Type} [Monad m] [LawfulMonad m] (write : Nat → List UInt8 → m Unit)

/-- Where the free cells do not wrap too early, one run takes all. -/
theorem Valid.fill_contiguous (h : r.Valid) {data : List UInt8} {count : Nat}
    (hcount : min data.length r.available = count) (hpos : 0 < count)
    (hfits : count ≤ r.capacity - r.tail) :
    r.fill write data = (do
      write r.tail (data.take count)
      pure (count, r.advance count)) := by
  have hdata : data ≠ [] := by
    rintro rfl
    rw [List.length_nil, Nat.zero_min] at hcount
    omega
  have hlength : (r.chunk data).length = count := by
    rw [chunk, List.length_take]
    omega
  have hchunk : r.chunk data = data.take count := by
    rw [← hlength, take_chunk]
  -- nothing is left over, or there is no room for it
  have hnone : data.drop count = [] ∨ (r.advance count).available = 0 := by
    rw [available_advance (by omega), List.drop_eq_nil_iff]
    omega
  rw [h.fill_step write (by omega) hdata, hlength, hchunk, fill_none write hnone]
  simp

/-- **The loop over runs** makes at most two writes, whatever writing means, and then it has queued
as much as there is room for. -/
theorem Valid.fill_eq (h : r.Valid) (data : List UInt8) :
    r.fill write data = (do
      (r.pieces data).forM fun piece => write piece.1 piece.2
      pure (min data.length r.available, r.grown (min data.length r.available))) := by
  have htail := h.tail_lt
  have hsize := h.size_le
  have hav : r.available = r.capacity - r.size := rfl
  obtain ⟨count, hcount⟩ : ∃ count, min data.length r.available = count := ⟨_, rfl⟩
  rw [pieces, hcount]
  by_cases hzero : count = 0
  · have hnone : data = [] ∨ r.available = 0 := by
      rw [← List.length_eq_zero_iff]
      omega
    rw [fill_none write hnone, hzero]
    simp [grown]
  · have hlen : (data.take count).length = count := by
      rw [List.length_take]
      omega
    have hdata : data ≠ [] := by
      rintro rfl
      rw [List.length_nil, Nat.zero_min] at hcount
      omega
    rw [grown, if_neg hzero]
    by_cases hfits : count ≤ r.capacity - r.tail
    · have hne : data.take count ≠ [] := List.ne_nil_of_length_pos (by omega)
      rw [h.fill_contiguous write hcount (by omega) hfits, Nat.min_eq_left hfits, Nat.sub_self,
        List.take_zero]
      simp [hne]
    · -- the first run ends with the last cell, and the second begins at the first one
      obtain ⟨first, hfirst⟩ : ∃ first, r.capacity - r.tail = first := ⟨_, rfl⟩
      have hlength : (r.chunk data).length = first := by
        rw [chunk, List.length_take]
        omega
      have hchunk : r.chunk data = data.take first := by
        rw [← hlength, take_chunk]
      have hfit : first ≤ r.available := by omega
      have hleft : min (data.drop first).length (r.advance first).available = count - first := by
        rw [available_advance hfit, List.length_drop]
        omega
      have hwrap : (r.advance first).tail = 0 := by
        show r.wrap (r.tail + min first r.available) = 0
        rw [Nat.min_eq_left hfit, wrap, if_pos (by omega)]
        omega
      have hsecond := (h.advance hfit).fill_contiguous write hleft (by omega) (by
        rw [hwrap]
        show _ ≤ r.capacity - 0
        omega)
      have hone : data.take first ≠ [] := List.ne_nil_of_length_pos (by
        rw [List.length_take]
        omega)
      have htwo : (data.drop first).take (count - first) ≠ [] := List.ne_nil_of_length_pos (by
        rw [List.length_take, List.length_drop]
        omega)
      have hsum : first + (count - first) = count := by omega
      rw [advance_advance h (by omega), hsum, hwrap] at hsecond
      rw [h.fill_step write (by omega) hdata, hlength, hchunk, hsecond, hfirst,
        Nat.min_eq_right (by omega)]
      simp [hone, htwo, hsum]

end Fill

/-- Releasing in two steps is releasing at once. -/
theorem Valid.abandon_abandon (h : r.Valid) {count : Nat} (hc : count ≤ r.size) (more : Nat) :
    (r.abandon count).abandon more = r.abandon (count + more) := by
  have hlt := h.head_lt
  have hle := h.size_le
  obtain ⟨left, hleft⟩ : ∃ left, min more (r.size - count) = left := ⟨_, rfl⟩
  have hfirst : min count r.size = count := Nat.min_eq_left hc
  have hboth : min (count + more) r.size = count + left := by omega
  have hhead : r.wrap (r.wrap (r.head + count) + left) = r.wrap (r.head + (count + left)) := by
    rw [wrap_wrap_add (by omega), Nat.add_assoc]
  rw [Ring.abandon, Ring.abandon, Ring.abandon, hfirst, hboth]
  show { r with
    head := r.wrap (r.wrap (r.head + count) + min more (r.size - count))
    size := r.size - count - min more (r.size - count) } = _
  rw [hleft, hhead, Nat.sub_sub]

end Ring

namespace ByteQueue

variable {q : ByteQueue}

/-! ## Writing in place -/

theorem Valid.toList_cells (h : q.Valid) :
    q.toList = (List.range q.ring.size).map fun i => q.store.getD (q.ring.cellAt i) 0 := by
  have hle := h.ring.size_le
  apply List.map_congr_left
  intro i hi
  have hi := List.mem_range.mp hi
  rw [h.ring.wrap_position (by omega)]

theorem valid_writeAt (h : q.Valid) (start : Nat) (data : List UInt8) :
    (q.writeAt start data).Valid := by
  refine ⟨h.ring, ?_, h.dropped_le⟩
  show q.ring.capacity ≤ (overwrite q.store start data).size
  rw [overwrite_eq, Memory.size_writeList]
  exact h.store

/-- **Writing into what is shown queues nothing** and changes no queued byte. -/
theorem Valid.toList_writeAt (h : q.Valid) {offset : Nat} {data : List UInt8}
    (hdata : data.length ≤ (q.ring.pushRun offset).length) :
    (q.writeAt (q.ring.pushRun offset).start data).toList = q.toList := by
  rw [(valid_writeAt h _ _).toList_cells, h.toList_cells]
  apply List.map_congr_left
  intro position hp
  have hp := List.mem_range.mp hp
  show (overwrite q.store _ data).getD (q.ring.cellAt position) 0 = _
  rw [Array.getD_eq_getD_getElem?, Array.getD_eq_getD_getElem?, overwrite_outside]
  -- a cell inside the data would be one that was shown
  rcases Nat.lt_or_ge (q.ring.cellAt position) (q.ring.pushRun offset).start with hlt | hge
  · exact .inl hlt
  · obtain ⟨i, hi⟩ := Nat.exists_eq_add_of_le hge
    have hout : ¬i < (q.ring.pushRun offset).length := fun hin =>
      h.ring.pushRun_free hin hp hi.symm
    omega

/-- **Bytes that were written in place and are then queued** come in at the end. -/
theorem Valid.toList_advance (h : q.Valid) {data : List UInt8} {count : Nat}
    (hdata : data.length ≤ (q.ring.pushRun 0).length) (hcount : count ≤ data.length) :
    toList { q.writeAt (q.ring.pushRun 0).start data with ring := q.ring.advance count } =
      q.toList ++ data.take count := by
  have htail := h.ring.tail_lt
  have hwritten := h.toList_writeAt hdata
  by_cases hroom : 0 < q.ring.available
  · have hrun := h.ring.pushRun_zero hroom
    rw [hrun] at hdata hwritten ⊢
    have hlength : data.length ≤ min q.ring.available (q.ring.capacity - q.ring.tail) := hdata
    have hlen : (data.take count).length = count := by
      rw [List.length_take]
      omega
    have hstore := h.store
    have hwrites : q.ring.Writes ((q.writeAt q.ring.tail data).memory.cells 0)
        ((q.writeAt q.ring.tail data).memory.cells 0) (data.take count) := by
      refine ⟨by omega, by omega, ?_, fun _ _ _ => rfl⟩
      intro i hi
      rw [hlen] at hi
      have hfits : q.ring.tail + data.length ≤ q.memory.bytes.size := by
        show _ ≤ q.store.size
        omega
      have hi' : i < data.length := by omega
      have hread := q.memory.read_writeList hfits hi'
      rw [List.getElem_take, ← hread, Memory.cells, Nat.zero_add]
      show Memory.read ⟨overwrite q.store q.ring.tail data⟩ _ = _
      rw [overwrite_eq]
      rfl
    have hadvance := h.ring.contents_advance hwrites
    rw [hlen] at hadvance
    rw [← hwritten, toList_eq, toList_eq]
    exact hadvance
  · have hnil : data = [] := by
      rw [Ring.pushRun_none (by omega)] at hdata
      exact List.eq_nil_of_length_eq_zero (Nat.le_zero.mp hdata)
    subst hnil
    obtain rfl : count = 0 := Nat.le_zero.mp hcount
    have hwrites : q.ring.Writes (q.memory.cells 0) (q.memory.cells 0) [] :=
      ⟨Nat.zero_le _, Nat.le_of_lt htail, fun i hi => absurd hi (Nat.not_lt_zero i),
        fun _ _ _ => rfl⟩
    have hadvance := h.ring.contents_advance hwrites
    rw [List.take_nil, toList_eq, toList_eq]
    exact hadvance

/-! ## The loops and the copies -/

/-- The store after the writes that bring in data. -/
def placed (store : Array UInt8) (pieces : List (Nat × List UInt8)) : Array UInt8 :=
  pieces.foldl (fun store piece => overwrite store piece.1 piece.2) store

theorem run_forM_overwrite (pieces : List (Nat × List UInt8)) (store : Array UInt8) :
    (pieces.forM fun piece => (modify fun store => overwrite store piece.1 piece.2 :
      StateM (Array UInt8) Unit)).run store = ((), placed store pieces) := by
  induction pieces generalizing store with
  | nil => rfl
  | cons piece pieces ih => exact ih (overwrite store piece.1 piece.2)

theorem Valid.fill_queue (h : q.Valid) (data : List UInt8) :
    q.fill data = (min data.length q.ring.available,
      { ring := q.ring.grown (min data.length q.ring.available)
        store := placed q.store (q.ring.pieces data) }) := by
  unfold ByteQueue.fill
  dsimp only
  rw [h.ring.fill_eq, StateT.run_bind, run_forM_overwrite]
  rfl

/-- Empty pieces write nothing. -/
theorem placed_filter (store : Array UInt8) (pieces : List (Nat × List UInt8)) :
    placed store (pieces.filter fun piece => !piece.2.isEmpty) = placed store pieces := by
  induction pieces generalizing store with
  | nil => rfl
  | cons piece pieces ih =>
    obtain ⟨start, data⟩ := piece
    cases data with
    | nil => exact ih store
    | cons value rest => exact ih (overwrite store start (value :: rest))

/-- **The loop over runs is the copy**, but for the count of dropped bytes. -/
theorem Valid.fill_eq_pushArray (h : q.Valid) (data : List UInt8) :
    q.fill data = ((q.pushArray data).1,
      { (q.pushArray data).2 with
        ring := { (q.pushArray data).2.ring with dropped := q.ring.dropped } }) := by
  rw [h.fill_queue, Ring.pieces, placed_filter]
  unfold ByteQueue.pushArray Ring.grown
  by_cases hzero : min data.length q.ring.available = 0
  · rw [if_pos hzero, if_pos hzero, hzero]
    simp [placed, overwrite, Ring.recordDrop]
  · rw [if_neg hzero, if_neg hzero]
    rfl

/-- The loop over queued runs takes the oldest bytes, as many as it may or as there are. -/
theorem Valid.drain_eq (h : q.Valid) (limit : Nat) :
    q.drain limit = (q.toList.take limit, { q with ring := q.ring.abandon limit }) := by
  -- every run takes at least one byte
  induction limit using Nat.strongRecOn generalizing q with
  | _ limit ih =>
    cases limit with
    | zero => rw [drain, h.ring.abandon_zero, List.take_zero]
    | succ limit =>
      by_cases hempty : q.ring.size = 0
      · have hrun : q.ring.popRun 0 = ⟨0, 0⟩ := if_pos (Nat.le_of_eq hempty)
        have hnil : q.toList = [] := List.eq_nil_of_length_eq_zero (q.length_toList.trans hempty)
        have hmin : min (limit + 1) q.ring.size = 0 := by omega
        have hring : q.ring.abandon (limit + 1) = q.ring := by
          rw [Ring.abandon, hmin, Nat.add_zero, Ring.wrap_of_lt h.ring.head_lt]
          rfl
        rw [drain, hrun, hnil, hring]
        rfl
      · have hhead := h.ring.head_lt
        obtain ⟨n, hn⟩ :
            ∃ n, min (min q.ring.size (q.ring.capacity - q.ring.head)) (limit + 1) = n := ⟨_, rfl⟩
        have hrun := h.ring.popRun_zero (Nat.pos_of_ne_zero hempty)
        have hfirst : min n (q.ring.capacity - q.ring.head) = n := by omega
        have hslice : slice q.store q.ring.head n = q.toList.take n := by
          have hn_le : n ≤ q.ring.size := by omega
          have hslices := h.slices hn_le hfirst
          rw [Nat.sub_self] at hslices
          exact (List.append_nil _).symm.trans hslices
        have hvalid : Valid { q with ring := q.ring.abandon n } :=
          ⟨h.ring.abandon n, h.store, h.dropped_le⟩
        have hrest := ih (limit + 1 - n) (by omega) hvalid
        have hsum : n + (limit + 1 - n) = limit + 1 := by omega
        have hring : (q.ring.abandon n).abandon (limit + 1 - n) = q.ring.abandon (limit + 1) := by
          rw [h.ring.abandon_abandon (by omega), hsum]
        have htake : q.toList.take (limit + 1) =
            q.toList.take n ++ (q.toList.drop n).take (limit + 1 - n) := by
          rw [← List.take_add, hsum]
        rw [drain, hrun]
        dsimp only
        rw [dif_neg (by omega), hn, hrest, hslice, htake, hring, h.toList_abandon]

/-! ## Agreement -/

/-- A queue that was made, and then used through copies and in place. -/
inductive Reachable : ByteQueue → Prop
  | ofCapacity {capacity : Nat} (h : 0 < capacity) : Reachable (ofCapacity capacity)
  | overStore {requested : Nat} {store : Array UInt8} {q : ByteQueue}
      (h : overStore requested store = .ok q) : Reachable q
  | serve {q : ByteQueue} (h : Reachable q) (request : Request) : Reachable (q.serve request).2
  /-- Bytes are written into a run of free cells. -/
  | writeAt {q : ByteQueue} (h : Reachable q) {offset : Nat} {data : List UInt8}
      (hdata : data.length ≤ (q.ring.pushRun offset).length) :
      Reachable (q.writeAt (q.ring.pushRun offset).start data)
  | advance {q : ByteQueue} (h : Reachable q) (count : Nat) :
      Reachable { q with ring := q.ring.advance count }

/-- A queue over a store that was already there has nothing in it, and fits the store. -/
theorem overStore_ok {requested : Nat} {store : Array UInt8}
    (h : overStore requested store = .ok q) :
    0 < q.ring.capacity ∧ q.ring.capacity ≤ store.size ∧
      q = { ring := { capacity := q.ring.capacity }, store } := by
  unfold overStore at h
  cases hcap : Ring.resolveCapacity requested with
  | error e =>
    rw [hcap] at h
    cases h
  | ok capacity =>
    rw [hcap] at h
    by_cases hshort : store.size < capacity
    · exact nomatch (if_pos hshort).symm.trans h
    · obtain rfl := Except.ok.inj ((if_neg hshort).symm.trans h)
      exact ⟨Ring.resolveCapacity_pos hcap, Nat.not_lt.mp hshort, rfl⟩

theorem valid_overStore {requested : Nat} {store : Array UInt8}
    (h : overStore requested store = .ok q) : q.Valid := by
  obtain ⟨hpos, hstore, hq⟩ := overStore_ok h
  rw [hq]
  exact ⟨Ring.valid_empty hpos, hstore, Nat.zero_le _⟩

/-- However many bytes are to be committed, no more are than there is room for. -/
theorem Valid.advance (h : q.Valid) (count : Nat) :
    Valid { q with ring := q.ring.advance count } := by
  have hmin : q.ring.advance count = q.ring.advance (min count q.ring.available) := by
    rw [Ring.advance, Ring.advance, Nat.min_assoc, Nat.min_self]
  refine ⟨?_, h.store, h.dropped_le⟩
  rw [hmin]
  exact h.ring.advance (Nat.min_le_right ..)

theorem Reachable.valid (h : q.Reachable) : q.Valid := by
  induction h with
  | ofCapacity h => exact valid_ofCapacity h
  | overStore h => exact valid_overStore h
  | @serve q _ request ih =>
    have hover : Over q.ring.capacity q.store q := ⟨ih, rfl, fun _ _ => rfl⟩
    exact (hover.serve request).2.valid
  | writeAt _ _ ih => exact valid_writeAt ih _ _
  | advance _ count ih => exact ih.advance count

/-- Reading and writing in place and copying are two ways to one thing. -/
structure ZeroCopy (q : ByteQueue) : Prop where
  /-- The queued bytes lie in the cells of the first positions. -/
  toList_eq : q.toList =
    (List.range q.ring.size).map fun position => q.store.getD (q.ring.cellAt position) 0
  /-- What is shown for writing are cells of the store, -/
  inside : ∀ offset, (q.ring.pushRun offset).start + (q.ring.pushRun offset).length ≤
    q.ring.capacity ∧ q.ring.capacity ≤ q.store.size
  /-- one after another those of the free positions from the offset on, -/
  in_order : ∀ offset, ∀ i < (q.ring.pushRun offset).length,
    q.ring.size + offset + i < q.ring.capacity ∧
      (q.ring.pushRun offset).start + i = q.ring.cellAt (q.ring.size + offset + i)
  /-- at least one if there is any, -/
  nonempty : ∀ offset < q.ring.available, 0 < (q.ring.pushRun offset).length
  /-- and none that holds a queued byte. -/
  free : ∀ offset, ∀ i < (q.ring.pushRun offset).length, ∀ position < q.ring.size,
    (q.ring.pushRun offset).start + i ≠ q.ring.cellAt position
  /-- Writing there queues nothing. -/
  write : ∀ offset data, data.length ≤ (q.ring.pushRun offset).length →
    (q.writeAt (q.ring.pushRun offset).start data).toList = q.toList
  /-- Bytes that were written at the write cursor can be queued, as many as one likes. -/
  advance : ∀ data, data.length ≤ (q.ring.pushRun 0).length → ∀ count ≤ data.length,
    toList { q.writeAt (q.ring.pushRun 0).start data with ring := q.ring.advance count } =
      q.toList ++ data.take count
  /-- The loop over runs makes at most two writes, none of them empty, whatever writing means. -/
  runs : ∀ data, ∃ pieces : List (Nat × List UInt8),
    pieces.length ≤ 2 ∧ (∀ piece ∈ pieces, piece.2 ≠ []) ∧
      ∀ {m : Type → Type} [Monad m] [LawfulMonad m] (write : Nat → List UInt8 → m Unit),
        q.ring.fill write data = (do
          pieces.forM fun piece => write piece.1 piece.2
          pure (min data.length q.ring.available,
            q.ring.grown (min data.length q.ring.available)))
  /-- It leaves what the copy leaves, but counts nothing as dropped. -/
  fill : ∀ data, q.fill data = ((q.pushArray data).1,
    { (q.pushArray data).2 with
      ring := { (q.pushArray data).2.ring with dropped := q.ring.dropped } })
  /-- The loop over queued runs takes the bytes that the copy takes, and leaves what it leaves. -/
  drain : ∀ buffer, q.popArray buffer =
    ((q.drain buffer.length).1.length,
      (q.drain buffer.length).1 ++ buffer.drop (q.drain buffer.length).1.length,
      (q.drain buffer.length).2)

theorem Valid.popArray_eq_drain (h : q.Valid) (buffer : List UInt8) :
    q.popArray buffer =
      ((q.drain buffer.length).1.length,
        (q.drain buffer.length).1 ++ buffer.drop (q.drain buffer.length).1.length,
        (q.drain buffer.length).2) := by
  have hlength : (q.toList.take buffer.length).length = min buffer.length q.ring.size := by
    rw [List.length_take, length_toList]
  have htake : q.toList.take (min buffer.length q.ring.size) = q.toList.take buffer.length := by
    rw [← q.length_toList]
    exact List.take_eq_take_min.symm
  have hring : q.ring.abandon (min buffer.length q.ring.size) = q.ring.abandon buffer.length := by
    rw [Ring.abandon, Ring.abandon, Nat.min_assoc, Nat.min_self]
  rw [h.popArray_eq, h.drain_eq, hlength, htake, hring]

/-- **Using a queue in place agrees with copying**, at every point of every use of it. -/
theorem zero_copy_agrees (h : q.Reachable) : q.ZeroCopy where
  toList_eq := h.valid.toList_cells
  inside offset := ⟨h.valid.ring.pushRun_end_le offset, h.valid.store⟩
  in_order _ _ hi := h.valid.ring.cell_of_pushRun hi
  nonempty _ hoffset := h.valid.ring.pushRun_pos hoffset
  free _ _ hi _ hp := h.valid.ring.pushRun_free hi hp
  write _ _ hdata := h.valid.toList_writeAt hdata
  advance _ hdata _ hcount := h.valid.toList_advance hdata hcount
  runs data := ⟨q.ring.pieces data, Ring.length_pieces_le data, fun _ => Ring.pieces_ne_nil,
    fun write => h.valid.ring.fill_eq write data⟩
  fill data := h.valid.fill_eq_pushArray data
  drain buffer := h.valid.popArray_eq_drain buffer

/-- Two free cells on either side of the end of a store are shown one at a time, and the loop fills
both of them. What lies beyond the capacity stays as it is. -/
theorem zero_copy_agrees_wrapping :
    ∃ q : ByteQueue, q.Reachable ∧ q.ZeroCopy ∧ q.toList = [2] ∧ q.ring.pushRun 0 = ⟨2, 1⟩ ∧
      q.ring.pushRun 1 = ⟨0, 1⟩ ∧
        ((q.fill [3, 4, 5]).1, (q.fill [3, 4, 5]).2.store, (q.fill [3, 4, 5]).2.toList) =
          (2, #[4, 2, 3, 9], [2, 3, 4]) := by
  have hmade : overStore 3 #[0, 0, 0, 9] =
      .ok { ring := { capacity := 3 }, store := #[0, 0, 0, 9] } := rfl
  have hq := ((Reachable.overStore hmade).serve (.pushArray [1, 2])).serve (.popArray [0])
  have hagrees := zero_copy_agrees hq
  refine ⟨_, hq, hagrees, by decide, by decide, by decide, ?_⟩
  rw [hagrees.fill]
  decide

end ByteQueue

end ScatterGather
