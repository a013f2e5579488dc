import ScatterGather.Proofs.Queue

/-!
# ScatterGather.Proofs.Fifo — a byte queue serves as a bounded list

`ByteQueue.Request` is everything that can be asked of a byte queue, one byte or many at a time.
`Serves` says how a plain list of at most `capacity` bytes answers: what is pushed is appended as
far as it fits, what is popped leaves at the front. The list knows no cells and no cursors, and the
queue knows nothing else: every request is served as the list serves it (`Over.serve`), and so is
every sequence of requests (`refines_list`).

A view of the queued bytes (`Request.view`) is the one answer that the list does not determine. It
ends where the store does, so the list allows any part that begins at the right byte and is not
empty without need.
-/

namespace ScatterGather

/-! ## Cursors -/

namespace Ring

variable {r : Ring} {cell : Nat → UInt8}

theorem Valid.clear (h : r.Valid) : r.clear.Valid where
  capacity_pos := h.capacity_pos
  head_lt := h.capacity_pos
  size_le := Nat.zero_le _
  tail_eq := (wrap_of_lt (r := r) h.capacity_pos).symm

theorem Valid.resetStats (h : r.Valid) : r.resetStats.Valid :=
  ⟨h.capacity_pos, h.head_lt, h.size_le, h.tail_eq⟩

theorem wrap_eq_mod {index : Nat} (h : index < 2 * r.capacity) :
    r.wrap index = index % r.capacity := by
  unfold wrap
  by_cases hpast : r.capacity ≤ index
  · rw [if_pos hpast, Nat.mod_eq_sub_mod hpast, Nat.mod_eq_of_lt (by omega)]
  · rw [if_neg hpast, Nat.mod_eq_of_lt (Nat.not_le.mp hpast)]

theorem Valid.tail_eq_mod (h : r.Valid) : r.tail = (r.head + r.size) % r.capacity := by
  have hlt := h.head_lt
  have hle := h.size_le
  rw [h.tail_eq]
  exact wrap_eq_mod (by omega)

/-- The cells behind an offset are the first cells once so many bytes are released. -/
theorem Valid.popRun_abandon (h : r.Valid) {offset : Nat} (hoffset : offset < r.size) :
    r.popRun offset = (r.abandon offset).popRun 0 := by
  have hmin : min offset r.size = offset := by omega
  have hhead : (r.abandon offset).head = r.wrap (r.head + offset) := by
    show r.wrap (r.head + min offset r.size) = _
    rw [hmin]
  have hsize : (r.abandon offset).size = r.size - offset := by
    show r.size - min offset r.size = _
    rw [hmin]
  rw [(h.abandon offset).popRun_zero (by omega), hhead, hsize, popRun, if_neg (by omega)]
  rfl

end Ring

/-! ## Cells outside a run -/

theorem overwrite_outside {store : Array UInt8} {start i : Nat} {data : List UInt8}
    (h : i < start ∨ start + data.length ≤ i) : (overwrite store start data)[i]? = store[i]? := by
  induction data generalizing store start with
  | nil => rfl
  | cons value rest ih =>
    rw [List.length_cons] at h
    show (overwrite (store.setIfInBounds start value) (start + 1) rest)[i]? = store[i]?
    rw [ih (by omega), Array.getElem?_setIfInBounds_ne (by omega)]

namespace ByteQueue

variable {q : ByteQueue}

/-! ## One byte -/

/-- One byte is queued as an array of one byte is. -/
theorem Valid.pushByte_eq (h : q.Valid) (value : UInt8) :
    q.pushByte value = (q.pushArray [value]).2 := by
  have htail := h.ring.tail_lt
  have hle := h.ring.size_le
  have hav : q.ring.available = q.ring.capacity - q.ring.size := rfl
  unfold pushByte ByteQueue.pushArray Ring.isFull
  by_cases hfull : q.ring.size = q.ring.capacity
  · have hzero : min [value].length q.ring.available = 0 := by
      rw [List.length_singleton]
      omega
    rw [hzero, if_pos (by simpa using hfull), if_pos rfl]
    rfl
  · have hone : min [value].length q.ring.available = 1 := by
      rw [List.length_singleton]
      omega
    have hfirst : min 1 (q.ring.capacity - q.ring.tail) = 1 := by omega
    have hdrop : q.ring.recordDrop 0 = q.ring := by
      rw [Ring.recordDrop, Nat.add_zero, Nat.min_eq_left h.dropped_le]
    rw [hone, if_neg (by simpa using hfull), if_neg Nat.one_ne_zero, List.length_singleton,
      Nat.sub_self, hdrop, hfirst]
    rfl

theorem Valid.peekByte_eq (h : q.Valid) : q.peekByte = q.toList.headD 0 := by
  unfold peekByte Ring.isEmpty
  by_cases hempty : q.ring.size = 0
  · rw [if_pos (by simpa using hempty), toList, hempty]
    rfl
  · obtain ⟨n, hn⟩ := Nat.exists_eq_succ_of_ne_zero hempty
    rw [if_neg (by simpa using hempty), toList, hn, List.range_succ_eq_map, List.map_cons,
      List.headD_cons, Nat.add_zero, Ring.wrap_of_lt h.ring.head_lt]

/-! ## Views -/

/-- **A view shows queued bytes**, as many as lie side by side. -/
theorem Valid.runBytes_popRun (h : q.Valid) {offset : Nat} (hoffset : offset < q.ring.size) :
    q.runBytes (q.ring.popRun offset) =
      (q.toList.drop offset).take (q.ring.popRun offset).length := by
  have hvalid := h.ring.abandon offset
  have hsize : 0 < (q.ring.abandon offset).size := by
    show 0 < q.ring.size - min offset q.ring.size
    omega
  rw [h.ring.popRun_abandon hoffset, hvalid.popRun_zero hsize, ← h.toList_abandon, toList_eq,
    runBytes, slice_eq]
  have hhead := hvalid.head_lt
  obtain ⟨count, hcount⟩ : ∃ count, min (q.ring.abandon offset).size
      ((q.ring.abandon offset).capacity - (q.ring.abandon offset).head) = count := ⟨_, rfl⟩
  have hread : q.memory.readList (0 + (q.ring.abandon offset).head) count =
      ((q.ring.abandon offset).contents (q.memory.cells 0)).take count :=
    Ring.readList_eq (by omega) (by omega)
  rw [hcount]
  rwa [Nat.zero_add] at hread

theorem Valid.popRun_pos (h : q.Valid) {offset : Nat} (hoffset : offset < q.ring.size) :
    0 < (q.ring.popRun offset).length := by
  have hhead := (h.ring.abandon offset).head_lt
  have hsize : (q.ring.abandon offset).size = q.ring.size - min offset q.ring.size := rfl
  rw [h.ring.popRun_abandon hoffset, (h.ring.abandon offset).popRun_zero (by omega)]
  show 0 < min _ _
  omega

/-! ## Requests -/

/-- What can be asked of a byte queue. -/
inductive Request
  | pushByte (value : UInt8)
  | popByte
  | peekByte
  | pushArray (data : List UInt8)
  | popArray (buffer : List UInt8)
  /-- The queued bytes from an offset on, as far as they are contiguous. -/
  | view (offset : Nat)
  | abandon (count : Nat)
  | clear
  | resetStats
  | size
  | available
  | isFull
  | isEmpty
  deriving DecidableEq

/-- What a byte queue answers. -/
inductive Answer
  | done
  | byte (value : UInt8)
  | count (count : Nat)
  /-- The number of bytes that were taken, and the buffer that they were put into. -/
  | buffer (count : Nat) (buffer : List UInt8)
  | view (bytes : List UInt8)
  | flag (flag : Bool)
  deriving DecidableEq

/-- The answer of a queue to a request, and the queue afterwards. -/
def serve (q : ByteQueue) : Request → Answer × ByteQueue
  | .pushByte value => (.done, q.pushByte value)
  | .popByte =>
    let (value, q) := q.popByte
    (.byte value, q)
  | .peekByte => (.byte q.peekByte, q)
  | .pushArray data =>
    let (count, q) := q.pushArray data
    (.count count, q)
  | .popArray buffer =>
    let (count, buffer, q) := q.popArray buffer
    (.buffer count buffer, q)
  | .view offset => (.view (q.runBytes (q.ring.popRun offset)), q)
  | .abandon count => (.done, { q with ring := q.ring.abandon count })
  | .clear => (.done, { q with ring := q.ring.clear })
  | .resetStats => (.done, { q with ring := q.ring.resetStats })
  | .size => (.count q.ring.size, q)
  | .available => (.count q.ring.available, q)
  | .isFull => (.flag q.ring.isFull, q)
  | .isEmpty => (.flag q.ring.isEmpty, q)

/-- The answers of a queue to one request after the other, and the queue afterwards. -/
def serveAll (q : ByteQueue) : List Request → List Answer × ByteQueue
  | [] => ([], q)
  | request :: requests =>
    let (answer, q) := q.serve request
    let (answers, q) := serveAll q requests
    (answer :: answers, q)

/-! ## The bounded list -/

/-- How a list of at most `capacity` bytes answers a request, and the list afterwards. -/
inductive Serves (capacity : Nat) (l : List UInt8) : Request → Answer → List UInt8 → Prop
  | pushByte (value : UInt8) :
      Serves capacity l (.pushByte value) .done (l ++ [value].take (capacity - l.length))
  | popByte : Serves capacity l .popByte (.byte (l.headD 0)) (l.drop 1)
  | peekByte : Serves capacity l .peekByte (.byte (l.headD 0)) l
  | pushArray (data : List UInt8) :
      Serves capacity l (.pushArray data) (.count (data.take (capacity - l.length)).length)
        (l ++ data.take (capacity - l.length))
  | popArray (buffer : List UInt8) :
      Serves capacity l (.popArray buffer)
        (.buffer (min buffer.length l.length)
          (l.take buffer.length ++ buffer.drop (min buffer.length l.length)))
        (l.drop (min buffer.length l.length))
  | view {offset : Nat} {bytes : List UInt8} (front : bytes <+: l.drop offset)
      (some : offset < l.length → bytes ≠ []) : Serves capacity l (.view offset) (.view bytes) l
  | abandon (count : Nat) :
      Serves capacity l (.abandon count) .done (l.drop (min count l.length))
  | clear : Serves capacity l .clear .done []
  | resetStats : Serves capacity l .resetStats .done l
  | size : Serves capacity l .size (.count l.length) l
  | available : Serves capacity l .available (.count (capacity - l.length)) l
  | isFull : Serves capacity l .isFull (.flag (decide (l.length = capacity))) l
  | isEmpty : Serves capacity l .isEmpty (.flag (decide (l = []))) l

/-- How a list of at most `capacity` bytes answers one request after the other. -/
inductive ServesAll (capacity : Nat) :
    List UInt8 → List Request → List Answer → List UInt8 → Prop
  | done (l : List UInt8) : ServesAll capacity l [] [] l
  | next {l l' l'' : List UInt8} {request : Request} {answer : Answer} {requests : List Request}
      {answers : List Answer} (first : Serves capacity l request answer l')
      (rest : ServesAll capacity l' requests answers l'') :
      ServesAll capacity l (request :: requests) (answer :: answers) l''

/-- A queue of some capacity over a store, of which it uses the first cells only. -/
structure Over (capacity : Nat) (store : Array UInt8) (q : ByteQueue) : Prop where
  valid : q.Valid
  capacity_eq : q.ring.capacity = capacity
  beyond : ∀ i, capacity ≤ i → q.store[i]? = store[i]?

variable {capacity : Nat} {store : Array UInt8}

theorem over_overStore (hpos : 0 < capacity) (hmax : capacity ≤ maxQueueCapacity)
    (hstore : capacity ≤ store.size) :
    overStore capacity store = .ok { ring := { capacity }, store } ∧
      Over capacity store { ring := { capacity }, store } := by
  have hcapacity : Ring.resolveCapacity capacity = .ok capacity := by
    rw [Ring.resolveCapacity, if_neg (Nat.pos_iff_ne_zero.mp hpos)]
    exact if_neg (Nat.not_lt.mpr hmax)
  constructor
  · rw [overStore, hcapacity]
    exact if_neg (Nat.not_lt.mpr hstore)
  · exact ⟨⟨Ring.valid_empty hpos, hstore, Nat.zero_le _⟩, rfl, fun _ _ => rfl⟩

theorem Over.abandon (h : Over capacity store q) (count : Nat) :
    Over capacity store { q with ring := q.ring.abandon count } :=
  ⟨⟨h.valid.ring.abandon count, h.valid.store, h.valid.dropped_le⟩, h.capacity_eq, h.beyond⟩

theorem Over.pushArray (h : Over capacity store q) (data : List UInt8) :
    Over capacity store (q.pushArray data).2 := by
  have htail := h.valid.ring.tail_lt
  have hle := h.valid.ring.size_le
  have hav : q.ring.available = q.ring.capacity - q.ring.size := rfl
  refine ⟨(h.valid.pushArray data).valid, ?_, ?_⟩
  · rw [← h.capacity_eq]
    unfold ByteQueue.pushArray
    by_cases hzero : min data.length q.ring.available = 0
    · rw [if_pos hzero]
      rfl
    · rw [if_neg hzero]
      rfl
  · intro i hi
    rw [← h.beyond i hi]
    have hcapacity := h.capacity_eq
    unfold ByteQueue.pushArray
    by_cases hzero : min data.length q.ring.available = 0
    · rw [if_pos hzero]
    · -- both runs end at the last cell of the ring at the latest
      rw [if_neg hzero]
      show (overwrite (overwrite _ q.ring.tail _) 0 _)[i]? = _
      rw [overwrite_outside, overwrite_outside]
      · right
        rw [List.length_take]
        show q.ring.tail + min (min _ (q.ring.capacity - q.ring.tail)) _ ≤ i
        omega
      · right
        rw [List.length_take]
        omega

/-! ## Refinement -/

/-- **A queue serves every request as the list of its bytes does**, and stays in its cells. -/
theorem Over.serve (h : Over capacity store q) (request : Request) :
    Serves capacity q.toList request (q.serve request).1 (q.serve request).2.toList ∧
      Over capacity store (q.serve request).2 := by
  have hlen := q.length_toList
  have hav : q.ring.available = capacity - q.toList.length := by
    rw [hlen, ← h.capacity_eq]
    rfl
  have htake (data : List UInt8) : data.take (min data.length q.ring.available) =
      data.take (capacity - q.toList.length) := by
    rw [hav, Nat.min_comm, ← List.take_eq_take_min]
  cases request with
  | pushByte value =>
    have hpushed := (h.valid.pushArray [value]).toList
    rw [htake, ← h.valid.pushByte_eq] at hpushed
    have hover := h.pushArray [value]
    rw [← h.valid.pushByte_eq] at hover
    refine ⟨?_, hover⟩
    show Serves capacity q.toList _ .done (q.pushByte value).toList
    rw [hpushed]
    exact .pushByte value
  | popByte =>
    refine ⟨?_, h.abandon 1⟩
    show Serves capacity q.toList _ (.byte q.peekByte) (toList { q with ring := _ })
    rw [h.valid.peekByte_eq, h.valid.toList_abandon]
    exact .popByte
  | peekByte =>
    refine ⟨?_, h⟩
    show Serves capacity q.toList _ (.byte q.peekByte) q.toList
    rw [h.valid.peekByte_eq]
    exact .peekByte
  | pushArray data =>
    refine ⟨?_, h.pushArray data⟩
    have hcount : (q.pushArray data).1 = (data.take (capacity - q.toList.length)).length := by
      rw [List.length_take, Nat.min_comm, ← hav]
      unfold ByteQueue.pushArray
      by_cases hzero : min data.length q.ring.available = 0
      · rw [if_pos hzero, hzero]
      · rw [if_neg hzero]
    show Serves capacity q.toList _ (.count (q.pushArray data).1) (q.pushArray data).2.toList
    rw [hcount, (h.valid.pushArray data).toList, htake]
    exact .pushArray data
  | popArray buffer =>
    show Serves capacity q.toList _
        (.buffer (q.popArray buffer).1 (q.popArray buffer).2.1) (q.popArray buffer).2.2.toList ∧
      Over capacity store (q.popArray buffer).2.2
    rw [h.valid.popArray_eq, ← hlen, h.valid.toList_abandon]
    refine ⟨?_, h.abandon _⟩
    have htook : q.toList.take (min buffer.length q.toList.length) = q.toList.take buffer.length :=
      List.take_eq_take_min.symm
    rw [htook]
    exact .popArray buffer
  | view offset =>
    refine ⟨.view ?_ ?_, h⟩
    · by_cases hoffset : offset < q.ring.size
      · rw [h.valid.runBytes_popRun hoffset]
        exact List.take_prefix ..
      · have hnone : q.ring.popRun offset = ⟨0, 0⟩ := if_pos (Nat.not_lt.mp hoffset)
        rw [hnone]
        exact List.nil_prefix
    · intro hoffset hnil
      rw [hlen] at hoffset
      have hpos := h.valid.popRun_pos hoffset
      have hlength := congrArg List.length hnil
      rw [runBytes, slice, List.length_map, List.length_range, List.length_nil] at hlength
      omega
  | abandon count =>
    refine ⟨?_, h.abandon count⟩
    show Serves capacity q.toList _ .done (toList { q with ring := _ })
    have hdrop : q.toList.drop count = q.toList.drop (min count q.toList.length) := by
      by_cases hle : count ≤ q.toList.length
      · rw [Nat.min_eq_left hle]
      · rw [Nat.min_eq_right (by omega), List.drop_length, List.drop_eq_nil_of_le (by omega)]
    rw [h.valid.toList_abandon, hdrop]
    exact .abandon count
  | clear =>
    exact ⟨.clear, ⟨h.valid.ring.clear, h.valid.store, h.valid.dropped_le⟩, h.capacity_eq, h.beyond⟩
  | resetStats =>
    exact ⟨.resetStats, ⟨h.valid.ring.resetStats, h.valid.store, Nat.zero_le _⟩, h.capacity_eq,
      h.beyond⟩
  | size =>
    refine ⟨?_, h⟩
    show Serves capacity q.toList _ (.count q.ring.size) q.toList
    rw [← hlen]
    exact .size
  | available =>
    refine ⟨?_, h⟩
    show Serves capacity q.toList _ (.count q.ring.available) q.toList
    rw [hav]
    exact .available
  | isFull =>
    refine ⟨?_, h⟩
    show Serves capacity q.toList _ (.flag (decide (q.ring.size = q.ring.capacity))) q.toList
    rw [← hlen, h.capacity_eq]
    exact .isFull
  | isEmpty =>
    refine ⟨?_, h⟩
    have hnil : decide (q.ring.size = 0) = decide (q.toList = []) := by
      rw [← hlen]
      exact decide_eq_decide.mpr List.length_eq_zero_iff
    show Serves capacity q.toList _ (.flag (decide (q.ring.size = 0))) q.toList
    rw [hnil]
    exact .isEmpty

theorem Over.serveAll (h : Over capacity store q) (requests : List Request) :
    ServesAll capacity q.toList requests (q.serveAll requests).1 (q.serveAll requests).2.toList ∧
      Over capacity store (q.serveAll requests).2 := by
  induction requests generalizing q with
  | nil => exact ⟨.done _, h⟩
  | cons request requests ih =>
    obtain ⟨hfirst, hover⟩ := h.serve request
    obtain ⟨hrest, hover'⟩ := ih hover
    exact ⟨.next hfirst hrest, hover'⟩

/-- What a queue over a store answers to a sequence of requests, and what becomes of it. -/
structure Refines (capacity : Nat) (store : Array UInt8) (requests : List Request)
    (answers : List Answer) (q : ByteQueue) : Prop where
  /-- The answers are those of a list of bytes that is empty at first. -/
  serves : ServesAll capacity [] requests answers q.toList
  /-- The list never grows longer than the capacity. -/
  length_le : q.toList.length ≤ capacity
  head_lt : q.ring.head < capacity
  tail_lt : q.ring.tail < capacity
  tail_eq : q.ring.tail = (q.ring.head + q.ring.size) % capacity
  /-- What lies beyond the capacity is never touched. -/
  beyond : ∀ i, capacity ≤ i → q.store[i]? = store[i]?

theorem Over.refines (h : Over capacity store q) {requests : List Request}
    {answers : List Answer} (hserves : ServesAll capacity [] requests answers q.toList) :
    Refines capacity store requests answers q := by
  obtain ⟨hvalid, rfl, hbeyond⟩ := h
  exact
    { serves := hserves
      length_le := by
        rw [length_toList]
        exact hvalid.ring.size_le
      head_lt := hvalid.ring.head_lt
      tail_lt := hvalid.ring.tail_lt
      tail_eq := hvalid.ring.tail_eq_mod
      beyond := hbeyond }

/-- **A byte queue is a bounded list.** -/
theorem refines_list (hpos : 0 < capacity) (hmax : capacity ≤ maxQueueCapacity)
    (hstore : capacity ≤ store.size) :
    ∃ q, overStore capacity store = .ok q ∧
      ∀ requests, Refines capacity store requests (q.serveAll requests).1
        (q.serveAll requests).2 := by
  obtain ⟨hmade, hover⟩ := over_overStore hpos hmax hstore
  refine ⟨_, hmade, ?_⟩
  intro requests
  obtain ⟨hserves, hover'⟩ := hover.serveAll requests
  exact hover'.refines hserves

/-- A queue of three bytes over a store of four takes three of five bytes, gives back two of them,
wraps around and still answers in order. -/
theorem refines_list_wrapping :
    ∃ q, Refines 3 #[0, 0, 0, 9]
      [.pushArray [1, 2, 3, 4, 5], .popArray [0, 0], .pushArray [6, 7], .view 0, .view 1,
        .abandon 9, .popByte]
      [.count 3, .buffer 2 [1, 2], .count 2, .view [3], .view [6, 7], .done, .byte 0] q := by
  obtain ⟨q, hmade, hrefines⟩ := @refines_list 3 #[0, 0, 0, 9] (by decide) (by decide) (by decide)
  obtain rfl := Except.ok.inj hmade
  exact ⟨_, hrefines [.pushArray [1, 2, 3, 4, 5], .popArray [0, 0], .pushArray [6, 7], .view 0,
    .view 1, .abandon 9, .popByte]⟩

end ByteQueue

end ScatterGather
