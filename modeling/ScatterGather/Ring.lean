import ScatterGather.Error

/-!
# ScatterGather.Ring — the bookkeeping of a byte queue

A ring is the bookkeeping of a byte queue without its bytes: two cursors into a store of `capacity`
cells, the number of bytes between them, and two statistics. Reads and writes go to contiguous runs
of cells, which end where the queue (or the free space) ends or where the store does; the ring says
where the runs lie (`pushRun`, `popRun`) and is told how much of them was used (`advance`,
`abandon`).
-/

namespace ScatterGather

/-- The capacity of a queue that asks for none. -/
def defaultQueueCapacity : Nat := 64

/-- The largest capacity of a queue. -/
def maxQueueCapacity : Nat := 65535

/-- The largest count of a counter of machine size, at which it stays. -/
def counterLimit : Nat := 0xFFFFFFFFFFFFFFFF

/-- Contiguous cells of a store. -/
structure Run where
  start : Nat
  length : Nat
  deriving DecidableEq

/-- The cursors and statistics of a queue. -/
structure Ring where
  capacity : Nat
  head : Nat := 0
  tail : Nat := 0
  size : Nat := 0
  watermark : Nat := 0
  dropped : Nat := 0
  deriving DecidableEq

namespace Ring

/-- The capacity that a request stands for. -/
def resolveCapacity (requested : Nat) : Except ConfigError Nat :=
  let capacity := if requested = 0 then defaultQueueCapacity else requested
  if maxQueueCapacity < capacity then .error .invalidCapacity else .ok capacity

def available (r : Ring) : Nat :=
  r.capacity - r.size

def isEmpty (r : Ring) : Bool :=
  r.size = 0

def isFull (r : Ring) : Bool :=
  r.size = r.capacity

/-- A cell index that ran past the end of the store by less than the store's length. -/
def wrap (r : Ring) (index : Nat) : Nat :=
  if r.capacity ≤ index then index - r.capacity else index

def recordLevel (r : Ring) : Ring :=
  { r with watermark := max r.watermark r.size }

def recordDrop (r : Ring) (count : Nat) : Ring :=
  { r with dropped := min (r.dropped + count) counterLimit }

/-- The free cells from `offset` bytes behind the write cursor on, as far as they are contiguous. -/
def pushRun (r : Ring) (offset : Nat) : Run :=
  if r.available ≤ offset then ⟨0, 0⟩
  else
    let start := r.wrap (r.tail + offset)
    ⟨start, min (r.available - offset) (r.capacity - start)⟩

/-- The queued cells from `offset` bytes behind the read cursor on, as far as they are
contiguous. -/
def popRun (r : Ring) (offset : Nat) : Run :=
  if r.size ≤ offset then ⟨0, 0⟩
  else
    let start := r.wrap (r.head + offset)
    ⟨start, min (r.size - offset) (r.capacity - start)⟩

/-- Queues bytes that were written to the free cells, at most as many as there are. -/
def advance (r : Ring) (count : Nat) : Ring :=
  let count := min count r.available
  recordLevel { r with tail := r.wrap (r.tail + count), size := r.size + count }

/-- Releases bytes at the read cursor, at most as many as are queued. -/
def abandon (r : Ring) (count : Nat) : Ring :=
  let count := min count r.size
  { r with head := r.wrap (r.head + count), size := r.size - count }

/-- Forgets all bytes and goes back to the first cell. -/
def clear (r : Ring) : Ring :=
  { r with head := 0, tail := 0, size := 0 }

/-- Starts the statistics anew from the present level. -/
def resetStats (r : Ring) : Ring :=
  { r with watermark := r.size, dropped := 0 }

/-- Queues as much of `data` as fits, run by run: `write` puts bytes into the cells from an index
on, wherever the cells are kept. Gives the number of bytes queued; bytes that do not fit are not
counted as dropped. -/
def fill {m : Type → Type} [Monad m] (write : Nat → List UInt8 → m Unit) (r : Ring) :
    List UInt8 → m (Nat × Ring)
  | [] => pure (0, r)
  | value :: rest => do
    let run := r.pushRun 0
    if run.length = 0 then pure (0, r)
    else
      let chunk := (value :: rest).take run.length
      write run.start chunk
      let (count, r) ← fill write (r.advance chunk.length) (rest.drop (run.length - 1))
      pure (chunk.length + count, r)
termination_by data => data.length
decreasing_by simp only [List.length_drop, List.length_cons]; omega

end Ring

end ScatterGather
