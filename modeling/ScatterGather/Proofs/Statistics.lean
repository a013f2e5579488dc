import ScatterGather.Proofs.ZeroCopy

/-!
# ScatterGather.Proofs.Statistics — a byte queue accounts for every byte

Beside its bytes a queue keeps two statistics, the highest level that it has had and the number of
bytes that found no room. `ByteQueue.Use` is everything that can be done to a queue, by copying or
in place, and `Books` is what an observer writes down who follows every use: how many bytes went
which way, and the levels since the statistics were last started anew. After any uses the queue and
the books agree (`books_balance`): the watermark is the highest of the levels, and every byte that
came is still there, left, was discarded, or was counted as dropped.

The counter of drops stops at its limit. The books remember whether a count was ever cut short
there; until then nothing is missing from the balance.
-/

namespace ScatterGather

namespace ByteQueue

variable {q : ByteQueue}

/-! ## Uses -/

/-- What can be done to a queue. -/
inductive Use
  | ask (request : Request)
  /-- Bytes are written over the front of a run of free cells, as far as it reaches. -/
  | write (offset : Nat) (data : List UInt8)
  | advance (count : Nat)
  deriving DecidableEq

/-- The queue after a use. -/
def use (q : ByteQueue) : Use → ByteQueue
  | .ask request => (q.serve request).2
  | .write offset data =>
    let run := q.ring.pushRun offset
    q.writeAt run.start (data.take run.length)
  | .advance count => { q with ring := q.ring.advance count }

/-- How many bytes go which way. -/
structure Flow where
  /-- Bytes that are to be pushed, whether or not there is room for them. -/
  offered : Nat := 0
  /-- Bytes that were written in place and are now queued. -/
  committed : Nat := 0
  /-- Bytes that are popped or abandoned. -/
  taken : Nat := 0
  /-- Bytes that are forgotten when the queue is cleared. -/
  discarded : Nat := 0

/-- The flow of bytes in a use of a queue. What is committed or taken is what there is room for or
what there is, not what is asked for. -/
def flow (q : ByteQueue) : Use → Flow
  | .ask (.pushByte _) => { offered := 1 }
  | .ask (.pushArray data) => { offered := data.length }
  | .advance count => { committed := min count q.ring.available }
  | .ask .popByte => { taken := min 1 q.ring.size }
  | .ask (.popArray buffer) => { taken := (q.popArray buffer).1 }
  | .ask (.abandon count) => { taken := min count q.ring.size }
  | .ask .clear => { discarded := q.ring.size }
  | .ask .peekByte | .ask (.view _) | .ask .resetStats | .ask .size | .ask .available
  | .ask .isFull | .ask .isEmpty | .write _ _ => {}

/-- Bytes that are to be pushed in a use and find no room. -/
def excess (q : ByteQueue) (u : Use) : Nat :=
  (q.flow u).offered - q.ring.available

/-! ## What a use does to the ring -/

theorem ring_pushArray (q : ByteQueue) (data : List UInt8) :
    (q.pushArray data).2.ring =
      (q.ring.recordDrop (data.length - min data.length q.ring.available)).grown
        (min data.length q.ring.available) := by
  unfold ByteQueue.pushArray Ring.grown
  by_cases hzero : min data.length q.ring.available = 0
  · rw [if_pos hzero, if_pos hzero]
  · rw [if_neg hzero, if_neg hzero]

theorem Valid.size_pushArray (h : q.Valid) (data : List UInt8) :
    (q.pushArray data).2.ring.size = q.ring.size + min data.length q.ring.available := by
  have hlist := congrArg List.length (h.pushArray data).toList
  rw [List.length_append, length_toList, length_toList, List.length_take] at hlist
  omega

theorem watermark_pushArray (hlevel : q.ring.size ≤ q.ring.watermark) (h : q.Valid)
    (data : List UInt8) :
    (q.pushArray data).2.ring.watermark =
      max q.ring.watermark (q.pushArray data).2.ring.size := by
  rw [h.size_pushArray, ring_pushArray, Ring.grown]
  by_cases hzero : min data.length q.ring.available = 0
  · rw [if_pos hzero, hzero]
    exact (Nat.max_eq_left hlevel).symm
  · rw [if_neg hzero]
    show max q.ring.watermark (q.ring.size + min (min data.length q.ring.available)
      q.ring.available) = _
    rw [Nat.min_assoc, Nat.min_self]

theorem Valid.use (h : q.Valid) (u : Use) : (q.use u).Valid := by
  cases u with
  | ask request =>
    have hover : Over q.ring.capacity q.store q := ⟨h, rfl, fun _ _ => rfl⟩
    exact (hover.serve request).2.valid
  | write offset data => exact valid_writeAt h _ _
  | advance count => exact h.advance count

/-- **No use loses a byte**: what comes and what was there is what leaves, what stays and what finds
no room. -/
theorem Valid.size_use (h : q.Valid) (u : Use) :
    (q.flow u).offered + (q.flow u).committed + q.ring.size =
      (q.flow u).taken + (q.flow u).discarded + (q.use u).ring.size + q.excess u := by
  have hav : q.ring.available = q.ring.capacity - q.ring.size := rfl
  have hle := h.ring.size_le
  cases u with
  | write offset data =>
    show 0 + 0 + q.ring.size = 0 + 0 + q.ring.size + (0 - q.ring.available)
    omega
  | advance count =>
    show 0 + min count q.ring.available + q.ring.size =
      0 + 0 + (q.ring.size + min count q.ring.available) + (0 - q.ring.available)
    omega
  | ask request =>
    cases request with
    | pushByte value =>
      have hsize := h.size_pushArray [value]
      rw [← h.pushByte_eq, List.length_singleton] at hsize
      show 1 + 0 + q.ring.size = 0 + 0 + (q.pushByte value).ring.size + (1 - q.ring.available)
      omega
    | pushArray data =>
      have hsize := h.size_pushArray data
      show data.length + 0 + q.ring.size =
        0 + 0 + (q.pushArray data).2.ring.size + (data.length - q.ring.available)
      omega
    | popByte =>
      show 0 + 0 + q.ring.size =
        min 1 q.ring.size + 0 + (q.ring.size - min 1 q.ring.size) + (0 - q.ring.available)
      omega
    | popArray buffer =>
      show 0 + 0 + q.ring.size =
        (q.popArray buffer).1 + 0 + (q.popArray buffer).2.2.ring.size + (0 - q.ring.available)
      rw [h.popArray_eq]
      show _ = min buffer.length q.ring.size + 0 +
        (q.ring.size - min (min buffer.length q.ring.size) q.ring.size) + _
      omega
    | abandon count =>
      show 0 + 0 + q.ring.size =
        min count q.ring.size + 0 + (q.ring.size - min count q.ring.size) + (0 - q.ring.available)
      omega
    | clear =>
      show 0 + 0 + q.ring.size = 0 + q.ring.size + 0 + (0 - q.ring.available)
      omega
    | peekByte | view | resetStats | size | available | isFull | isEmpty =>
      show 0 + 0 + q.ring.size = 0 + 0 + q.ring.size + (0 - q.ring.available)
      omega

/-- What finds no room is counted, up to the limit of the counter. -/
theorem Valid.dropped_use (h : q.Valid) {u : Use} (hu : u ≠ .ask .resetStats) :
    (q.use u).ring.dropped = min (q.ring.dropped + q.excess u) counterLimit := by
  have hsame : q.ring.dropped = min (q.ring.dropped + (0 - q.ring.available)) counterLimit := by
    rw [Nat.zero_sub, Nat.add_zero, Nat.min_eq_left h.dropped_le]
  have hpush (data : List UInt8) : (q.pushArray data).2.ring.dropped =
      min (q.ring.dropped + (data.length - q.ring.available)) counterLimit := by
    rw [(h.pushArray data).dropped]
    congr 2
    omega
  cases u with
  | write | advance => exact hsame
  | ask request =>
    cases request with
    | pushByte value =>
      show (q.pushByte value).ring.dropped = _
      rw [h.pushByte_eq]
      exact hpush [value]
    | pushArray data => exact hpush data
    | popArray buffer =>
      show (q.popArray buffer).2.2.ring.dropped = _
      rw [h.popArray_eq]
      exact hsame
    | resetStats => exact absurd rfl hu
    | popByte | peekByte | view | abandon | clear | size | available | isFull | isEmpty =>
      exact hsame

/-- The watermark follows the level up, and never down. -/
theorem Valid.watermark_use (h : q.Valid) (hlevel : q.ring.size ≤ q.ring.watermark) {u : Use}
    (hu : u ≠ .ask .resetStats) :
    (q.use u).ring.watermark = max q.ring.watermark (q.use u).ring.size := by
  have hdown {size : Nat} (hsize : size ≤ q.ring.size) :
      q.ring.watermark = max q.ring.watermark size :=
    (Nat.max_eq_left (Nat.le_trans hsize hlevel)).symm
  cases u with
  | write => exact hdown (Nat.le_refl _)
  | advance => rfl
  | ask request =>
    cases request with
    | pushByte value =>
      show (q.pushByte value).ring.watermark = max _ (q.pushByte value).ring.size
      rw [h.pushByte_eq]
      exact watermark_pushArray hlevel h [value]
    | pushArray data => exact watermark_pushArray hlevel h data
    | popArray buffer =>
      show (q.popArray buffer).2.2.ring.watermark = max _ (q.popArray buffer).2.2.ring.size
      rw [h.popArray_eq]
      exact hdown (Nat.sub_le ..)
    | popByte | abandon => exact hdown (Nat.sub_le ..)
    | clear => exact hdown (Nat.zero_le _)
    | resetStats => exact absurd rfl hu
    | peekByte | view | size | available | isFull | isEmpty => exact hdown (Nat.le_refl _)

/-! ## Books -/

/-- What an observer of a queue has written down since it was made. -/
structure Books where
  queue : ByteQueue
  total : Flow := {}
  /-- The levels since the statistics were last started anew, the latest first. -/
  levels : List Nat
  /-- What the counter of drops stood at whenever the statistics were started anew, in all. -/
  wiped : Nat := 0
  /-- No count of drops has been cut short at the limit of the counter. -/
  whole : Bool := true

namespace Books

/-- The books of a queue that nothing has been done to. -/
def opened (q : ByteQueue) : Books where
  queue := q
  levels := [q.ring.size]

/-- Writes down a use. -/
def enter (b : Books) (u : Use) : Books :=
  let queue := b.queue.use u
  let flow := b.queue.flow u
  { queue
    total :=
      { offered := b.total.offered + flow.offered
        committed := b.total.committed + flow.committed
        taken := b.total.taken + flow.taken
        discarded := b.total.discarded + flow.discarded }
    levels :=
      if u = .ask .resetStats then [queue.ring.size] else queue.ring.size :: b.levels
    wiped := if u = .ask .resetStats then b.wiped + b.queue.ring.dropped else b.wiped
    whole := b.whole && decide (b.queue.ring.dropped + b.queue.excess u ≤ counterLimit) }

def run : Books → List Use → Books :=
  List.foldl enter

/-- The queue agrees with its books. -/
structure Balanced (b : Books) : Prop where
  valid : b.queue.Valid
  latest : b.queue.ring.size ∈ b.levels
  reached : b.queue.ring.watermark ∈ b.levels
  highest : ∀ level ∈ b.levels, level ≤ b.queue.ring.watermark
  balance : b.whole = true → b.total.offered + b.total.committed =
    b.total.taken + b.total.discarded + b.queue.ring.size + (b.queue.ring.dropped + b.wiped)

variable {b : Books}

/-- The balance after a use. A count that is wiped is in the books, so starting the statistics anew
changes nothing about the balance. -/
theorem Balanced.balance_enter (h : b.Balanced) (u : Use) (hwhole : (b.enter u).whole = true) :
    (b.enter u).total.offered + (b.enter u).total.committed =
      (b.enter u).total.taken + (b.enter u).total.discarded + (b.enter u).queue.ring.size +
        ((b.enter u).queue.ring.dropped + (b.enter u).wiped) := by
  have hparts := Bool.and_eq_true_iff.mp hwhole
  have hbefore := h.balance hparts.1
  have hfits : b.queue.ring.dropped + b.queue.excess u ≤ counterLimit := of_decide_eq_true hparts.2
  have hsize := h.valid.size_use u
  by_cases hu : u = .ask .resetStats
  · subst hu
    show b.total.offered + 0 + (b.total.committed + 0) =
      b.total.taken + 0 + (b.total.discarded + 0) + b.queue.ring.size +
        (0 + (b.wiped + b.queue.ring.dropped))
    omega
  · have hdropped := h.valid.dropped_use hu
    rw [Nat.min_eq_left hfits] at hdropped
    have hwiped : (b.enter u).wiped = b.wiped := if_neg hu
    rw [hwiped]
    show b.total.offered + (b.queue.flow u).offered +
        (b.total.committed + (b.queue.flow u).committed) =
      b.total.taken + (b.queue.flow u).taken + (b.total.discarded + (b.queue.flow u).discarded) +
        (b.queue.use u).ring.size + ((b.queue.use u).ring.dropped + b.wiped)
    omega

theorem Balanced.enter (h : b.Balanced) (u : Use) : (b.enter u).Balanced := by
  have hbalance := h.balance_enter u
  by_cases hu : u = .ask .resetStats
  · -- the mark is put at the level, which is the only one since
    subst hu
    have hvalid := h.valid.use (.ask .resetStats)
    refine ⟨hvalid, List.mem_singleton_self _, List.mem_singleton_self _, ?_, hbalance⟩
    intro level hlevel
    exact Nat.le_of_eq (List.mem_singleton.mp hlevel)
  · have hlevels : (b.enter u).levels = (b.queue.use u).ring.size :: b.levels := if_neg hu
    have hmark : (b.enter u).queue.ring.watermark =
        max b.queue.ring.watermark (b.queue.use u).ring.size :=
      h.valid.watermark_use (h.highest _ h.latest) hu
    refine ⟨h.valid.use u, ?_, ?_, ?_, hbalance⟩
    · rw [hlevels]
      exact List.mem_cons_self
    · rw [hlevels, hmark]
      rcases Nat.le_total b.queue.ring.watermark (b.queue.use u).ring.size with hle | hle
      · rw [Nat.max_eq_right hle]
        exact List.mem_cons_self
      · rw [Nat.max_eq_left hle]
        exact List.mem_cons_of_mem _ h.reached
    · intro level hlevel
      rw [hlevels] at hlevel
      rw [hmark]
      rcases List.mem_cons.mp hlevel with rfl | hearlier
      · exact Nat.le_max_right ..
      · exact Nat.le_trans (h.highest level hearlier) (Nat.le_max_left ..)

theorem Balanced.run (h : b.Balanced) (uses : List Use) : (b.run uses).Balanced := by
  induction uses generalizing b with
  | nil => exact h
  | cons u uses ih => exact ih (h.enter u)

end Books

/-! ## Agreement -/

/-- A queue as it is made, over a store of its own or over one that is already there. -/
inductive Made : ByteQueue → Prop
  | ofCapacity {capacity : Nat} (h : 0 < capacity) : Made (ofCapacity capacity)
  | overStore {requested : Nat} {store : Array UInt8} {q : ByteQueue}
      (h : overStore requested store = .ok q) : Made q

theorem Made.valid (h : q.Made) : q.Valid := by
  cases h with
  | ofCapacity h => exact valid_ofCapacity h
  | overStore h => exact valid_overStore h

/-- A queue that was just made has nothing in it and nothing on record. -/
theorem Made.ring_eq (h : q.Made) : q.ring = { capacity := q.ring.capacity } := by
  cases h with
  | ofCapacity h => rfl
  | overStore h => exact congrArg ByteQueue.ring (overStore_ok h).2.2

theorem Made.balanced (h : q.Made) : (Books.opened q).Balanced := by
  have hsize : q.ring.size = 0 := by rw [h.ring_eq]
  have hmark : q.ring.watermark = 0 := by rw [h.ring_eq]
  have hdropped : q.ring.dropped = 0 := by rw [h.ring_eq]
  refine ⟨h.valid, List.mem_singleton_self _, ?_, ?_, ?_⟩
  · show q.ring.watermark ∈ [q.ring.size]
    rw [hmark, hsize]
    exact List.mem_singleton_self _
  · intro level hlevel
    rw [List.mem_singleton.mp hlevel]
    show q.ring.size ≤ q.ring.watermark
    omega
  · intro _
    show 0 = 0 + 0 + q.ring.size + (q.ring.dropped + 0)
    rw [hsize, hdropped]

/-- **A byte queue accounts for every byte**, whatever is done to it. Its watermark is the highest
level since its statistics were last started anew, or since it was made. While no count of drops has
been cut short, the bytes that were offered or committed are those that were taken or discarded,
those that are queued, and those that are or were counted as dropped. -/
theorem books_balance (h : q.Made) (uses : List Use) :
    let b := (Books.opened q).run uses
    (b.queue.ring.watermark ∈ b.levels ∧ ∀ level ∈ b.levels, level ≤ b.queue.ring.watermark) ∧
      (b.whole = true → b.total.offered + b.total.committed =
        b.total.taken + b.total.discarded + b.queue.ring.size +
          (b.queue.ring.dropped + b.wiped)) := by
  intro b
  have hbalanced := h.balanced.run uses
  exact ⟨⟨hbalanced.reached, hbalanced.highest⟩, hbalanced.balance⟩

/-- A queue of three bytes overflows and starts its statistics anew; more is committed than there is
room for, a byte is dropped, and the queue is cleared. The mark stays at three, and seven bytes came
of which one was taken, three were discarded, one is queued and two were dropped. -/
theorem books_balance_overflowing :
    ∃ q, ByteQueue.Made q ∧
      let b := (Books.opened q).run
        [.ask (.pushArray [1, 2, 3, 4]), .ask .popByte, .ask .resetStats, .write 0 [9], .advance 7,
          .ask (.pushByte 5), .ask .clear, .ask (.pushByte 6)]
      b.levels = [1, 0, 3, 3, 2, 2] ∧ b.queue.ring.watermark = 3 ∧ b.whole = true ∧
        b.total.offered + b.total.committed = 6 + 1 ∧
        b.total.taken + b.total.discarded + b.queue.ring.size +
          (b.queue.ring.dropped + b.wiped) = 1 + 3 + 1 + (1 + 1) ∧
        b.queue.ring.watermark ∈ b.levels ∧ (∀ level ∈ b.levels, level ≤ b.queue.ring.watermark) ∧
        b.total.offered + b.total.committed =
          b.total.taken + b.total.discarded + b.queue.ring.size +
            (b.queue.ring.dropped + b.wiped) := by
  have hmade : overStore 3 #[0, 0, 0, 9] =
      .ok { ring := { capacity := 3 }, store := #[0, 0, 0, 9] } := rfl
  refine ⟨_, .overStore hmade, ?_⟩
  intro b
  obtain ⟨⟨hreached, hhighest⟩, hbalance⟩ := books_balance (.overStore hmade)
    [.ask (.pushArray [1, 2, 3, 4]), .ask .popByte, .ask .resetStats, .write 0 [9], .advance 7,
      .ask (.pushByte 5), .ask .clear, .ask (.pushByte 6)]
  have hwhole : b.whole = true := by decide
  exact ⟨by decide, by decide, hwhole, by decide, by decide, hreached, hhighest, hbalance hwhole⟩

end ByteQueue

end ScatterGather
