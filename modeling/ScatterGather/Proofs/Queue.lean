import ScatterGather.Proofs.Contents

/-!
# ScatterGather.Proofs.Queue — a byte queue is a list of bounded length

The bytes of a byte queue are kept in a store of its own, which is a memory like any other; so the
contents of its ring are what `Ring.contents` says, over cells that start at zero. Arrays go in and
out in at most two runs of cells. On the list of bytes (`ByteQueue.toList`) they are simple: an
array is appended as far as it fits, and what does not fit is counted (`Valid.pushArray`); bytes are
taken from the front (`Valid.popArray`). -/

namespace ScatterGather

theorem overwrite_eq (store : Array UInt8) (start : Nat) (data : List UInt8) :
    overwrite store start data = (Memory.writeList ⟨store⟩ start data).bytes := by
  induction data generalizing store start with
  | nil => rfl
  | cons value rest ih => exact ih (store.setIfInBounds start value) (start + 1)

namespace Ring

variable {r : Ring}

theorem Valid.recordDrop (h : r.Valid) (count : Nat) : (r.recordDrop count).Valid :=
  ⟨h.capacity_pos, h.head_lt, h.size_le, h.tail_eq⟩

end Ring

namespace ByteQueue

/-- The cursors of a queue fit together, its store is long enough, and its counter of drops is a
word of the machine. -/
structure Valid (q : ByteQueue) : Prop where
  ring : q.ring.Valid
  store : q.ring.capacity ≤ q.store.size
  dropped_le : q.ring.dropped ≤ counterLimit

/-- The store of a queue, as a memory. -/
def memory (q : ByteQueue) : Memory :=
  ⟨q.store⟩

theorem toList_eq (q : ByteQueue) : q.toList = q.ring.contents (q.memory.cells 0) := by
  apply List.map_congr_left
  intro i _
  exact congrArg q.memory.read (Nat.zero_add _).symm

@[simp] theorem length_toList (q : ByteQueue) : q.toList.length = q.ring.size := by
  simp [toList]

theorem slice_eq (q : ByteQueue) (start length : Nat) :
    slice q.store start length = q.memory.readList start length := rfl

variable {q : ByteQueue}

theorem valid_ofCapacity {capacity : Nat} (hpos : 0 < capacity) : (ofCapacity capacity).Valid :=
  ⟨Ring.valid_empty hpos, Nat.le_of_eq Array.size_replicate.symm, Nat.zero_le _⟩

theorem valid_allocate {requested : Nat} (h : allocate requested = .ok q) : q.Valid := by
  unfold allocate at h
  cases hcap : Ring.resolveCapacity requested with
  | error e =>
    rw [hcap] at h
    cases h
  | ok capacity =>
    rw [hcap] at h
    obtain rfl := Except.ok.inj h
    exact valid_ofCapacity (Ring.resolveCapacity_pos hcap)

/-- Two runs of cells are filled, the second from the first cell of the store on. -/
theorem Valid.filled_runs (h : q.Valid) {data : List UInt8} (hroom : data.length ≤ q.ring.available)
    {first : Nat} (hfirst : min data.length (q.ring.capacity - q.ring.tail) = first) :
    q.ring.Filled q.memory 0 data (q.ring.advance data.length)
      ((q.memory.writeList q.ring.tail (data.take first)).writeList 0 (data.drop first)) := by
  have htail := h.ring.tail_lt
  have hav : q.ring.available = q.ring.capacity - q.ring.size := rfl
  have hstore : 0 + q.ring.capacity ≤ q.memory.bytes.size := by
    rw [Nat.zero_add]
    exact h.store
  have hlen : (data.take first).length = first := by
    rw [List.length_take]
    omega
  have hfit : (data.take first).length ≤ q.ring.available := by omega
  have hone := h.ring.filled_run hstore hfit (by omega)
  rw [hlen, Nat.zero_add] at hone
  by_cases hall : data.length ≤ first
  · have hdata : data.length = first := by omega
    rw [List.drop_eq_nil_of_le hall, hdata]
    rwa [List.take_of_length_le hall] at hone ⊢
  · -- the first run ends with the last cell
    have hwrap : (q.ring.advance first).tail = 0 := by
      have hmin : min first q.ring.available = first := by omega
      show q.ring.wrap (q.ring.tail + min first q.ring.available) = 0
      rw [hmin, Ring.wrap, if_pos (by omega)]
      omega
    have hrest : (data.drop first).length = data.length - first := List.length_drop
    have hsize : (q.ring.advance first).size = q.ring.size + first := Ring.size_advance (by omega)
    have hfit' : (data.drop first).length ≤ (q.ring.advance first).available := by
      show _ ≤ q.ring.capacity - (q.ring.advance first).size
      omega
    have hstore' : 0 + q.ring.capacity ≤
        (q.memory.writeList q.ring.tail (data.take first)).bytes.size := by
      rw [Memory.size_writeList]
      exact hstore
    have htwo := hone.valid.filled_run hstore' hfit' (by
      show _ ≤ q.ring.capacity
      omega)
    rw [hrest, hwrap, Ring.advance_advance h.ring (by omega)] at htwo
    have hboth := hone.trans htwo
    rw [List.take_append_drop] at hboth
    have hsum : first + (data.length - first) = data.length := by omega
    rwa [hsum] at hboth

/-- What becomes of a queue that takes `count` bytes of an array and drops the rest. -/
structure Pushed (q : ByteQueue) (data : List UInt8) (count : Nat) (q' : ByteQueue) : Prop where
  valid : q'.Valid
  toList : q'.toList = q.toList ++ data.take count
  dropped : q'.ring.dropped = min (q.ring.dropped + (data.length - count)) counterLimit

/-- **An array is queued as far as it fits**, and what does not fit is counted. -/
theorem Valid.pushArray (h : q.Valid) (data : List UInt8) :
    q.Pushed data (min data.length q.ring.available) (q.pushArray data).2 := by
  obtain ⟨count, hcount⟩ : ∃ count, min data.length q.ring.available = count := ⟨_, rfl⟩
  unfold ByteQueue.pushArray
  rw [hcount]
  by_cases hzero : count = 0
  · rw [if_pos hzero, hzero]
    exact ⟨⟨h.ring.recordDrop _, h.store, Nat.min_le_right ..⟩, (List.append_nil _).symm, rfl⟩
  · rw [if_neg hzero]
    obtain ⟨first, hfirst⟩ : ∃ first, min count (q.ring.capacity - q.ring.tail) = first := ⟨_, rfl⟩
    -- drops are counted before the bytes are written, and do not touch the cursors
    have hlen : (data.take count).length = count := by
      rw [List.length_take]
      omega
    have hroom : (data.take count).length ≤ q.ring.available := by omega
    have hvalid : Valid { q with ring := q.ring.recordDrop (data.length - count) } :=
      ⟨h.ring.recordDrop _, h.store, Nat.min_le_right ..⟩
    have hfilled := hvalid.filled_runs hroom (hlen.symm ▸ hfirst)
    have hone : (data.take count).take first = data.take first := by
      rw [List.take_take]
      congr 1
      omega
    rw [hlen, hone, List.drop_take] at hfilled
    have hstore : overwrite (overwrite q.store q.ring.tail (data.take first)) 0
        ((data.drop first).take (count - first)) =
          ((q.memory.writeList q.ring.tail (data.take first)).writeList 0
            ((data.drop first).take (count - first))).bytes := by
      rw [overwrite_eq, overwrite_eq]
      rfl
    show q.Pushed data count
      { ring := (q.ring.recordDrop (data.length - count)).advance count
        store := overwrite (overwrite q.store q.ring.tail
          (data.take (min count (q.ring.capacity - q.ring.tail)))) 0
            ((data.drop (min count (q.ring.capacity - q.ring.tail))).take
              (count - min count (q.ring.capacity - q.ring.tail))) }
    rw [hfirst, hstore]
    refine ⟨⟨hfilled.valid, ?_, Nat.min_le_right ..⟩, ?_, rfl⟩
    · show q.ring.capacity ≤ _
      rw [Memory.size_writeList, Memory.size_writeList]
      exact h.store
    · rw [toList_eq, toList_eq]
      exact hfilled.contents

theorem Valid.pushed_nil (h : q.Valid) : q.Pushed [] 0 q :=
  ⟨h, (List.append_nil _).symm, (Nat.min_eq_left h.dropped_le).symm⟩

/-- What becomes of a queue that takes all of an array that it has room for. -/
def Takes (q : ByteQueue) (data : List UInt8) (q' : ByteQueue) : Prop :=
  q.Pushed data (min data.length q.ring.available) q'

theorem Takes.valid {data : List UInt8} {q' : ByteQueue} (h : q.Takes data q') : q'.Valid :=
  Pushed.valid h

theorem Takes.toList {data : List UInt8} {q' : ByteQueue} (h : q.Takes data q') :
    q'.toList = q.toList ++ data.take q.ring.available := by
  rw [Pushed.toList h, Nat.min_comm, ← List.take_eq_take_min]

/-- The front of a queue lies in at most two runs of cells. -/
theorem Valid.slices (h : q.Valid) {count : Nat} (hcount : count ≤ q.ring.size) {first : Nat}
    (hfirst : min count (q.ring.capacity - q.ring.head) = first) :
    slice q.store q.ring.head first ++ slice q.store 0 (count - first) = q.toList.take count := by
  have hhead := h.ring.head_lt
  have hone : q.memory.readList (0 + q.ring.head) first =
      (q.ring.contents (q.memory.cells 0)).take first := Ring.readList_eq (by omega) (by omega)
  rw [Nat.zero_add] at hone
  have hsplit : q.toList.take count =
      q.toList.take first ++ (q.toList.drop first).take (count - first) := by
    rw [← List.take_add]
    congr 1
    omega
  rw [hsplit, slice_eq, slice_eq, hone, toList_eq]
  congr 1
  by_cases hall : count ≤ first
  · rw [Nat.sub_eq_zero_of_le hall]
    rfl
  · -- the first run ends with the last cell
    have hwrap : (q.ring.abandon first).head = 0 := by
      have hmin : min first q.ring.size = first := by omega
      show q.ring.wrap (q.ring.head + min first q.ring.size) = 0
      rw [hmin, Ring.wrap, if_pos (by omega)]
      omega
    have hsize : (q.ring.abandon first).size = q.ring.size - first := by
      show q.ring.size - min first q.ring.size = q.ring.size - first
      omega
    have hle := h.ring.size_le
    have hcontiguous : (q.ring.abandon first).head + (count - first) ≤
        (q.ring.abandon first).capacity := by
      show _ ≤ q.ring.capacity
      omega
    have htwo : q.memory.readList (0 + (q.ring.abandon first).head) (count - first) =
        ((q.ring.abandon first).contents (q.memory.cells 0)).take (count - first) :=
      Ring.readList_eq (by omega) hcontiguous
    rw [hwrap, h.ring.contents_abandon] at htwo
    exact htwo

/-- Bytes are copied to the front of a buffer, and what is left of the buffer is not touched. -/
theorem Valid.popArray_eq (h : q.Valid) (buffer : List UInt8) :
    q.popArray buffer = (min buffer.length q.ring.size,
      q.toList.take (min buffer.length q.ring.size) ++
        buffer.drop (min buffer.length q.ring.size),
      { q with ring := q.ring.abandon (min buffer.length q.ring.size) }) := by
  obtain ⟨count, hcount⟩ : ∃ count, min buffer.length q.ring.size = count := ⟨_, rfl⟩
  unfold ByteQueue.popArray
  rw [hcount]
  by_cases hzero : count = 0
  · rw [if_pos hzero, hzero, h.ring.abandon_zero]
    rfl
  · rw [if_neg hzero]
    show (count, slice q.store q.ring.head _ ++ slice q.store 0 _ ++ _, _) = _
    rw [h.slices (by omega) rfl]

theorem Valid.toList_abandon (h : q.Valid) (count : Nat) :
    toList { q with ring := q.ring.abandon count } = q.toList.drop count := by
  rw [toList_eq, toList_eq]
  exact h.ring.contents_abandon count

/-- **Bytes are taken from the front**, as many as there are and as fit into the buffer. -/
theorem Valid.popArray (h : q.Valid) (buffer : List UInt8) :
    (q.popArray buffer).2.2.Valid ∧
      (q.popArray buffer).2.1.take (q.popArray buffer).1 ++ (q.popArray buffer).2.2.toList =
        q.toList ∧
      (q.popArray buffer).2.2.ring.dropped = q.ring.dropped := by
  rw [h.popArray_eq]
  refine ⟨⟨h.ring.abandon _, h.store, h.dropped_le⟩, ?_, rfl⟩
  have hlen : (q.toList.take (min buffer.length q.ring.size)).length =
      min buffer.length q.ring.size := by
    rw [List.length_take, length_toList]
    omega
  show List.take _ (q.toList.take _ ++ _) ++ toList { q with ring := _ } = q.toList
  rw [List.take_left' hlen, h.toList_abandon, List.take_append_drop]

end ByteQueue

end ScatterGather
