import ScatterGather.ByteQueue
import ScatterGather.Proofs.Copying

/-!
# ScatterGather.Proofs.Contents — the bytes that a ring holds

A ring knows cells, its users know bytes. `Ring.contents` is the list of bytes that a ring holds,
oldest first, in cells that are kept somewhere: in main memory for a transmit pump, in a store of
its own for a byte queue. Every operation on a ring is an operation on this list. Bytes that are
written to the free cells and queued are appended (`Valid.push`), and released bytes are dropped
(`Valid.abandon`); the ring may wrap in between.

`Ring.Valid` says that the cursors fit together.
-/

namespace ScatterGather

namespace Ring

/-- The cursors of a ring fit together. -/
structure Valid (r : Ring) : Prop where
  capacity_pos : 0 < r.capacity
  head_lt : r.head < r.capacity
  size_le : r.size ≤ r.capacity
  tail_eq : r.tail = r.wrap (r.head + r.size)

/-- The bytes that a ring holds, oldest first. -/
def contents (r : Ring) (cell : Nat → UInt8) : List UInt8 :=
  (List.range r.size).map fun i => cell (r.wrap (r.head + i))

variable {r : Ring} {cell : Nat → UInt8}

/-! ## Cursors -/

theorem wrap_lt {index : Nat} (h : index < 2 * r.capacity) : r.wrap index < r.capacity := by
  unfold wrap
  split <;> omega

theorem wrap_of_lt {index : Nat} (h : index < r.capacity) : r.wrap index = index :=
  if_neg (Nat.not_le.mpr h)

/-- A cursor that wraps on its way arrives where it would have wrapped at the end. -/
theorem wrap_wrap_add {index more : Nat} (h : index + more < 2 * r.capacity) :
    r.wrap (r.wrap index + more) = r.wrap (index + more) := by
  unfold wrap
  by_cases hi : r.capacity ≤ index
  · rw [if_pos hi, if_neg (by omega), if_pos (by omega)]
    omega
  · rw [if_neg hi]

theorem resolveCapacity_pos {requested capacity : Nat}
    (h : resolveCapacity requested = .ok capacity) : 0 < capacity := by
  obtain ⟨asked, hasked⟩ :
      ∃ asked, (if requested = 0 then defaultQueueCapacity else requested) = asked := ⟨_, rfl⟩
  have hpos : 0 < asked := by
    rw [← hasked]
    split
    · exact Nat.zero_lt_succ 63
    · next hne => exact Nat.pos_of_ne_zero hne
  simp only [resolveCapacity, hasked] at h
  split at h
  · cases h
  · exact Except.ok.inj h ▸ hpos

theorem valid_empty {capacity : Nat} (h : 0 < capacity) : Valid { capacity } where
  capacity_pos := h
  head_lt := h
  size_le := Nat.zero_le _
  tail_eq := (wrap_of_lt (r := { capacity }) h).symm

theorem Valid.tail_lt (h : r.Valid) : r.tail < r.capacity := by
  have hlt := h.head_lt
  have hle := h.size_le
  rw [h.tail_eq]
  exact wrap_lt (by omega)

@[simp] theorem length_contents : (r.contents cell).length = r.size := by
  simp [contents]

theorem Valid.contents_congr (h : r.Valid) {cell' : Nat → UInt8}
    (hcell : ∀ i < r.capacity, cell' i = cell i) : r.contents cell' = r.contents cell := by
  apply List.map_congr_left
  intro i hi
  have hsize := List.mem_range.mp hi
  have hlt := h.head_lt
  have hle := h.size_le
  exact hcell _ (wrap_lt (by omega))

/-! ## Releasing -/

theorem Valid.abandon (h : r.Valid) (count : Nat) : (r.abandon count).Valid where
  capacity_pos := h.capacity_pos
  head_lt := by
    have hlt := h.head_lt
    have hle := h.size_le
    exact wrap_lt (r := r) (by omega)
  size_le := Nat.le_trans (Nat.sub_le ..) h.size_le
  tail_eq := by
    have hlt := h.head_lt
    have hle := h.size_le
    have hsum : r.head + min count r.size + (r.size - min count r.size) = r.head + r.size := by
      omega
    show r.tail = r.wrap (r.wrap (r.head + min count r.size) + (r.size - min count r.size))
    rw [wrap_wrap_add (by omega), hsum]
    exact h.tail_eq

theorem Valid.abandon_zero (h : r.Valid) : r.abandon 0 = r := by
  have hhead : r.wrap (r.head + 0) = r.head := wrap_of_lt h.head_lt
  rw [Ring.abandon, Nat.zero_min, hhead]
  rfl

/-- Bytes that are released leave at the front. -/
theorem Valid.contents_abandon (h : r.Valid) (count : Nat) :
    (r.abandon count).contents cell = (r.contents cell).drop count := by
  have hlt := h.head_lt
  have hle := h.size_le
  have hsize : (r.abandon count).size = r.size - count := by
    show r.size - min count r.size = r.size - count
    omega
  apply List.ext_getElem (by simp [hsize])
  intro i hi _
  rw [length_contents, hsize] at hi
  have hmin : min count r.size = count := by omega
  simp only [contents, List.getElem_map, List.getElem_range, List.getElem_drop]
  show cell (r.wrap (r.wrap (r.head + min count r.size) + i)) = _
  rw [hmin, wrap_wrap_add (by omega), Nat.add_assoc]

/-! ## Queueing -/

theorem Valid.advance (h : r.Valid) {count : Nat} (hc : count ≤ r.available) :
    (r.advance count).Valid where
  capacity_pos := h.capacity_pos
  head_lt := h.head_lt
  size_le := by
    have hle := h.size_le
    have hc' : count ≤ r.capacity - r.size := hc
    show r.size + min count r.available ≤ r.capacity
    omega
  tail_eq := by
    have hlt := h.head_lt
    have hle := h.size_le
    have hc' : count ≤ r.capacity - r.size := hc
    have hmin : min count r.available = count := Nat.min_eq_left hc
    show r.wrap (r.tail + min count r.available) =
      r.wrap (r.head + (r.size + min count r.available))
    rw [hmin, h.tail_eq, wrap_wrap_add (by omega), Nat.add_assoc]

theorem size_advance {count : Nat} (hc : count ≤ r.available) :
    (r.advance count).size = r.size + count := by
  show r.size + min count r.available = r.size + count
  rw [Nat.min_eq_left hc]

theorem available_advance {count : Nat} (hc : count ≤ r.available) :
    (r.advance count).available = r.available - count := by
  show r.capacity - (r.advance count).size = r.capacity - r.size - count
  rw [size_advance hc]
  omega

/-- The cells that are written before bytes are queued. -/
structure Writes (r : Ring) (cell cell' : Nat → UInt8) (chunk : List UInt8) : Prop where
  room : chunk.length ≤ r.available
  contiguous : r.tail + chunk.length ≤ r.capacity
  new : ∀ i (h : i < chunk.length), cell' (r.tail + i) = chunk[i]
  old : ∀ i < r.capacity, i < r.tail ∨ r.tail + chunk.length ≤ i → cell' i = cell i

/-- Bytes that are written to the free cells and queued come in at the end. -/
theorem Valid.contents_advance (h : r.Valid) {cell' : Nat → UInt8} {chunk : List UInt8}
    (hw : r.Writes cell cell' chunk) :
    (r.advance chunk.length).contents cell' = r.contents cell ++ chunk := by
  have hlt := h.head_lt
  have hle := h.size_le
  have htail := h.tail_eq
  have hroom : chunk.length ≤ r.capacity - r.size := hw.room
  have hcontiguous := hw.contiguous
  have hwrap (i : Nat) : (r.advance chunk.length).wrap i = r.wrap i := rfl
  have hhead : (r.advance chunk.length).head = r.head := rfl
  rw [contents, size_advance hw.room, List.range_add, List.map_append, List.map_map]
  congr 1
  · -- queued cells are not among those that are written, wherever the ring wraps
    apply List.map_congr_left
    intro i hi
    have hi := List.mem_range.mp hi
    rw [hwrap, hhead]
    apply hw.old _ (wrap_lt (by omega))
    unfold wrap at htail ⊢
    split at htail <;> split <;> omega
  · apply List.ext_getElem (by simp)
    intro i hi _
    rw [List.length_map, List.length_range] at hi
    have hcell : r.wrap (r.head + (r.size + i)) = r.tail + i := by
      rw [← Nat.add_assoc, ← wrap_wrap_add (by omega), ← htail, wrap_of_lt (by omega)]
    simp only [List.getElem_map, List.getElem_range, Function.comp_apply, hwrap, hhead, hcell]
    exact hw.new i hi

theorem advance_advance (h : r.Valid) {count more : Nat} (hc : count + more ≤ r.available) :
    (r.advance count).advance more = r.advance (count + more) := by
  have hlt := h.tail_lt
  have hc' : count + more ≤ r.capacity - r.size := hc
  have hle := h.size_le
  have hfirst : min count r.available = count := by omega
  have hboth : min (count + more) r.available = count + more := Nat.min_eq_left hc
  have hsecond : min more (r.advance count).available = more := by
    rw [available_advance (by omega)]
    omega
  -- the tail, the size and the watermark each end where one step would have brought them
  have htail : r.wrap (r.wrap (r.tail + count) + more) = r.wrap (r.tail + (count + more)) := by
    rw [wrap_wrap_add (by omega), Nat.add_assoc]
  have hmax : max (max r.watermark (r.size + count)) (r.size + count + more) =
      max r.watermark (r.size + (count + more)) := by omega
  rw [advance, hsecond, advance, advance, hfirst, hboth]
  simp only [recordLevel, mk.injEq, true_and, and_true]
  exact ⟨htail, Nat.add_assoc .., hmax⟩

/-! ## Runs of cells -/

theorem Valid.pushRun_zero (h : r.Valid) (hroom : 0 < r.available) :
    r.pushRun 0 = ⟨r.tail, min r.available (r.capacity - r.tail)⟩ := by
  rw [pushRun, if_neg (by omega), Nat.add_zero, wrap_of_lt h.tail_lt, Nat.sub_zero]

theorem Valid.popRun_zero (h : r.Valid) (hsize : 0 < r.size) :
    r.popRun 0 = ⟨r.head, min r.size (r.capacity - r.head)⟩ := by
  rw [popRun, if_neg (by omega), Nat.add_zero, wrap_of_lt h.head_lt, Nat.sub_zero]

/-- What goes to the first run of free cells. -/
def chunk (r : Ring) (data : List UInt8) : List UInt8 :=
  data.take (min r.available (r.capacity - r.tail))

theorem Valid.chunk_bounds (h : r.Valid) (data : List UInt8) :
    (r.chunk data).length ≤ r.available ∧ r.tail + (r.chunk data).length ≤ r.capacity ∧
      (r.chunk data).length ≤ data.length := by
  have htail := h.tail_lt
  rw [chunk, List.length_take]
  omega

theorem Valid.chunk_pos (h : r.Valid) (hroom : 0 < r.available) {data : List UInt8}
    (hdata : data ≠ []) : 0 < (r.chunk data).length := by
  have htail := h.tail_lt
  have hpos := List.length_pos_iff.mpr hdata
  rw [chunk, List.length_take]
  omega

theorem take_chunk (data : List UInt8) : data.take (r.chunk data).length = r.chunk data := by
  rw [chunk, List.length_take, ← List.take_eq_take_min]

section Fill

variable {m : Type → Type} [Monad m] (write : Nat → List UInt8 → m Unit)

theorem fill_none {data : List UInt8} (hnone : data = [] ∨ r.available = 0) :
    r.fill write data = pure (0, r) := by
  cases data with
  | nil => rw [fill]
  | cons value rest =>
    have hfull := hnone.resolve_left (List.cons_ne_nil value rest)
    have hrun : (r.pushRun 0).length = 0 := by rw [pushRun, if_pos (by omega)]
    rw [fill]
    exact if_pos hrun

/-- A ring is filled run by run: a first run, and then the data that it left over. -/
theorem Valid.fill_step (h : r.Valid) (hroom : 0 < r.available) {data : List UInt8}
    (hdata : data ≠ []) :
    r.fill write data = (do
      write r.tail (r.chunk data)
      let (count, r') ← (r.advance (r.chunk data).length).fill write
        (data.drop (r.chunk data).length)
      pure ((r.chunk data).length + count, r')) := by
  cases data with
  | nil => exact absurd rfl hdata
  | cons value rest =>
    have htail := h.tail_lt
    have hrun := h.pushRun_zero hroom
    have hlength : (r.pushRun 0).length = min r.available (r.capacity - r.tail) := by rw [hrun]
    have hleft : rest.drop ((r.pushRun 0).length - 1) =
        (value :: rest).drop (r.chunk (value :: rest)).length := by
      rw [hlength, chunk]
      obtain ⟨more, hmore⟩ : ∃ more, min r.available (r.capacity - r.tail) = more + 1 :=
        ⟨min r.available (r.capacity - r.tail) - 1, by omega⟩
      rw [hmore, List.take_succ_cons, List.length_cons, List.drop_succ_cons, Nat.add_sub_cancel,
        List.length_take]
      -- a chunk that is shorter than its run was all the data
      by_cases hle : more ≤ rest.length
      · rw [Nat.min_eq_left hle]
      · rw [Nat.min_eq_right (by omega), List.drop_length, List.drop_eq_nil_of_le (by omega)]
    have hchunk : (value :: rest).take (r.pushRun 0).length = r.chunk (value :: rest) := by
      rw [hlength]
      rfl
    have hne : ¬(r.pushRun 0).length = 0 := by omega
    have hstart : (r.pushRun 0).start = r.tail := by rw [hrun]
    rw [fill]
    apply (if_neg hne).trans
    rw [hstart, hchunk, hleft]

end Fill

/-- As far as the cells do not wrap, the oldest bytes lie side by side. -/
theorem take_contents {count : Nat} (hsize : count ≤ r.size)
    (hcontiguous : r.head + count ≤ r.capacity) :
    (r.contents cell).take count = (List.range count).map fun i => cell (r.head + i) := by
  apply List.ext_getElem (by simp [hsize])
  intro i hi _
  rw [List.length_take, length_contents] at hi
  simp only [contents, List.getElem_take, List.getElem_map, List.getElem_range]
  rw [wrap_of_lt (by omega)]

end Ring

/-! ## Rings over main memory -/

/-- The cells of a store in main memory. -/
def Memory.cells (m : Memory) (base : Nat) (index : Nat) : UInt8 :=
  m.read (base + index)

namespace Ring

variable {r : Ring} {m : Memory} {base : Nat}

theorem readList_eq {count : Nat} (hsize : count ≤ r.size)
    (hcontiguous : r.head + count ≤ r.capacity) :
    m.readList (base + r.head) count = (r.contents (m.cells base)).take count := by
  rw [take_contents hsize hcontiguous]
  apply List.map_congr_left
  intro i _
  exact congrArg m.read (Nat.add_assoc ..)

/-- What becomes of a ring in main memory and of its bytes when data is queued. -/
structure Filled (r : Ring) (m : Memory) (base : Nat) (data : List UInt8) (r' : Ring)
    (m' : Memory) : Prop where
  valid : r'.Valid
  capacity : r'.capacity = r.capacity
  head : r'.head = r.head
  contents : r'.contents (m'.cells base) = r.contents (m.cells base) ++ data
  size : m'.bytes.size = m.bytes.size
  outside : ∀ a, a < base ∨ base + r.capacity ≤ a → m'.read a = m.read a

theorem Filled.size_eq {r' : Ring} {m' : Memory} {data : List UInt8}
    (h : r.Filled m base data r' m') : r'.size = r.size + data.length := by
  have hlen := congrArg List.length h.contents
  simpa using hlen

theorem Valid.filled_nil (h : r.Valid) : r.Filled m base [] r m :=
  ⟨h, rfl, rfl, (List.append_nil _).symm, rfl, fun _ _ => rfl⟩

theorem Filled.trans {r' r'' : Ring} {m' m'' : Memory} {data more : List UInt8}
    (h : r.Filled m base data r' m') (h' : r'.Filled m' base more r'' m'') :
    r.Filled m base (data ++ more) r'' m'' where
  valid := h'.valid
  capacity := h'.capacity.trans h.capacity
  head := h'.head.trans h.head
  contents := by rw [h'.contents, h.contents, List.append_assoc]
  size := h'.size.trans h.size
  outside a ha := by
    rw [h'.outside a (h.capacity ▸ ha), h.outside a ha]

/-- One run of free cells is filled. -/
theorem Valid.filled_run (h : r.Valid) (hstore : base + r.capacity ≤ m.bytes.size)
    {chunk : List UInt8} (hroom : chunk.length ≤ r.available)
    (hcontiguous : r.tail + chunk.length ≤ r.capacity) :
    r.Filled m base chunk (r.advance chunk.length) (m.writeList (base + r.tail) chunk) where
  valid := h.advance hroom
  capacity := rfl
  head := rfl
  contents := by
    refine h.contents_advance ⟨hroom, hcontiguous, ?_, ?_⟩
    · intro i hi
      rw [Memory.cells, ← Nat.add_assoc]
      exact m.read_writeList (by omega) hi
    · intro i _ hout
      exact m.read_writeList_of_outside (by omega)
  size := m.size_writeList _ _
  outside a ha := m.read_writeList_of_outside (by omega)

/-- **Data is queued as far as it fits**, in one run of cells or in two. -/
theorem Valid.exec_fill (h : r.Valid) (v : Scene) (hstore : base + r.capacity ≤ v.memory.bytes.size)
    (data : List UInt8) :
    ∃ r' m', v.exec (r.fill (fun start chunk => perform (.save (base + start) chunk)) data) =
        ((min data.length r.available, r'), { v with memory := m' }) ∧
      r.Filled v.memory base (data.take (min data.length r.available)) r' m' := by
  -- every run takes at least one byte
  induction hn : data.length using Nat.strongRecOn generalizing r v data with
  | _ n ih =>
    by_cases hnone : data = [] ∨ r.available = 0
    · have hzero : min n r.available = 0 := by
        rcases hnone with rfl | hfull
        · rw [← hn, List.length_nil, Nat.zero_min]
        · rw [hfull, Nat.min_zero]
      refine ⟨r, v.memory, ?_, ?_⟩
      · rw [fill_none _ hnone, hzero]
        rfl
      · rw [hzero, List.take_zero]
        exact h.filled_nil
    · obtain ⟨hdata, hfull⟩ := not_or.mp hnone
      have hav := Nat.pos_of_ne_zero hfull
      obtain ⟨hroom, hcontiguous, hlen⟩ := h.chunk_bounds data
      have hpos := h.chunk_pos hav hdata
      have hfirst := h.filled_run hstore hroom hcontiguous
      have hstore' : base + (r.advance (r.chunk data).length).capacity ≤
          (v.memory.writeList (base + r.tail) (r.chunk data)).bytes.size := by
        rw [Memory.size_writeList]
        exact hstore
      have hdrop : (data.drop (r.chunk data).length).length = n - (r.chunk data).length := by
        rw [List.length_drop, hn]
      obtain ⟨r', m', hexec, hrest⟩ := ih (n - (r.chunk data).length) (by omega) hfirst.valid
        { v with memory := v.memory.writeList (base + r.tail) (r.chunk data) } hstore' _ hdrop
      have hcount : (r.chunk data).length +
          min (n - (r.chunk data).length) (r.advance (r.chunk data).length).available =
            min n r.available := by
        rw [available_advance hroom]
        omega
      refine ⟨r', m', ?_, ?_⟩
      · rw [h.fill_step _ hav hdata, Scene.exec_bind]
        show Scene.exec { v with memory := v.memory.writeList (base + r.tail) (r.chunk data) }
          (_ >>= _) = _
        rw [Scene.exec_bind, hexec, ← hcount]
        rfl
      · have hall := hfirst.trans hrest
        rw [← hcount, List.take_add, take_chunk]
        exact hall

end Ring

end ScatterGather
