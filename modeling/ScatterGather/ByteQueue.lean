import ScatterGather.Ring
import ScatterGather.Text

/-!
# ScatterGather.ByteQueue — a bounded queue of bytes in a store

A byte queue is a ring together with the store that its bytes are kept in. The store may be longer
than the ring's capacity; what lies beyond is never touched. Removing bytes moves a cursor and
leaves the cells as they are.

The view of a queue is the list of its bytes, oldest first: `ByteQueue.toList`.
-/

namespace ScatterGather

/-- Writes bytes into the cells of a store from `start` up. -/
def overwrite (store : Array UInt8) (start : Nat) : List UInt8 → Array UInt8
  | [] => store
  | value :: rest => overwrite (store.setIfInBounds start value) (start + 1) rest

/-- The bytes in `length` cells of a store from `start` up. -/
def slice (store : Array UInt8) (start length : Nat) : List UInt8 :=
  (List.range length).map fun i => store.getD (start + i) 0

/-- A bounded queue of bytes. -/
structure ByteQueue where
  ring : Ring
  store : Array UInt8
  deriving DecidableEq

namespace ByteQueue

/-- An empty queue over a store of its own. -/
def ofCapacity (capacity : Nat) : ByteQueue where
  ring := { capacity }
  store := Array.replicate capacity 0

/-- An empty queue over a fresh store of the requested capacity. -/
def allocate (requested : Nat) : Except ConfigError ByteQueue :=
  (Ring.resolveCapacity requested).map ofCapacity

/-- An empty queue over a store that is already there, and that has to be long enough. -/
def overStore (requested : Nat) (store : Array UInt8) : Except ConfigError ByteQueue :=
  match Ring.resolveCapacity requested with
  | .error e => .error e
  | .ok capacity =>
    if store.size < capacity then .error .invalidCapacity
    else .ok { ring := { capacity }, store }

/-- The queued bytes, oldest first. -/
def toList (q : ByteQueue) : List UInt8 :=
  (List.range q.ring.size).map fun i => q.store.getD (q.ring.wrap (q.ring.head + i)) 0

/-- Queues one byte; a full queue drops it. -/
def pushByte (q : ByteQueue) (value : UInt8) : ByteQueue :=
  if q.ring.isFull then { q with ring := q.ring.recordDrop 1 }
  else { ring := q.ring.advance 1, store := q.store.setIfInBounds q.ring.tail value }

/-- The oldest byte, or zero when there is none. -/
def peekByte (q : ByteQueue) : UInt8 :=
  if q.ring.isEmpty then 0 else q.store.getD q.ring.head 0

/-- Takes the oldest byte, or gives zero when there is none. -/
def popByte (q : ByteQueue) : UInt8 × ByteQueue :=
  (q.peekByte, { q with ring := q.ring.abandon 1 })

/-- Queues as many bytes as fit and drops the rest. Gives the number queued. -/
def pushArray (q : ByteQueue) (data : List UInt8) : Nat × ByteQueue :=
  let count := min data.length q.ring.available
  let ring := q.ring.recordDrop (data.length - count)
  if count = 0 then (0, { q with ring })
  else
    let first := min count (ring.capacity - ring.tail)
    let store := overwrite q.store ring.tail (data.take first)
    let store := overwrite store 0 ((data.drop first).take (count - first))
    (count, { ring := ring.advance count, store })

/-- Takes bytes into the front of a buffer, as many as it holds or are queued. Gives their number
and the buffer. -/
def popArray (q : ByteQueue) (buffer : List UInt8) : Nat × List UInt8 × ByteQueue :=
  let count := min buffer.length q.ring.size
  if count = 0 then (0, buffer, q)
  else
    let first := min count (q.ring.capacity - q.ring.head)
    let taken := slice q.store q.ring.head first ++ slice q.store 0 (count - first)
    (count, taken ++ buffer.drop count, { q with ring := q.ring.abandon count })

/-- The bytes now in a run of cells. -/
def runBytes (q : ByteQueue) (run : Run) : List UInt8 :=
  slice q.store run.start run.length

/-- Writes bytes into the cells from an index on, without queueing them. -/
def writeAt (q : ByteQueue) (start : Nat) (data : List UInt8) : ByteQueue :=
  { q with store := overwrite q.store start data }

/-- Queues as much of `data` as fits, through the runs of free cells. -/
def fill (q : ByteQueue) (data : List UInt8) : Nat × ByteQueue :=
  let write (start : Nat) (chunk : List UInt8) : StateM (Array UInt8) Unit :=
    modify fun store => overwrite store start chunk
  let ((count, ring), store) := (q.ring.fill write data).run q.store
  (count, { ring, store })

/-- Takes up to `limit` bytes, through the runs of queued cells. -/
def drain (q : ByteQueue) : (limit : Nat) → List UInt8 × ByteQueue
  | 0 => ([], q)
  | limit + 1 =>
    match q.ring.popRun 0 with
    | ⟨start, length⟩ =>
      if _h : length = 0 then ([], q)
      else
        let (rest, q') :=
          drain { q with ring := q.ring.abandon (min length (limit + 1)) }
            (limit + 1 - min length (limit + 1))
        (slice q.store start (min length (limit + 1)) ++ rest, q')
termination_by limit => limit
decreasing_by omega

def text (q : ByteQueue) : String :=
  Text.record "RingQueue"
    [("capacity", toString q.ring.capacity), ("size", toString q.ring.size),
      ("head", toString q.ring.head), ("tail", toString q.ring.tail)]

end ByteQueue

end ScatterGather
