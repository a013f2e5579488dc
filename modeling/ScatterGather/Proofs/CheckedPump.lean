import ScatterGather.Proofs.Checked
import ScatterGather.Proofs.PumpCoherence

/-!
# ScatterGather.Proofs.CheckedPump — pumps that look before every step that can fail

Rings, byte queues and pumps with the checks of `ScatterGather.Proofs.Checked`. A ring insists on
having the room that is filled and the bytes that are released; slices of a store, of a buffer and
of the staging area must lie inside. On a coherent pump every checked operation agrees with the
plain one.
-/

namespace ScatterGather

open CheckedScript Script

/-! ## Rings -/

namespace Ring

variable {r : Ring}

def available? (r : Ring) : Option Nat :=
  minus? r.capacity r.size

def wrap? (r : Ring) (index : Nat) : Option Nat :=
  if r.capacity ≤ index then minus? index r.capacity else pure index

/-- Of `count` cells behind a cursor, those from an offset on, as far as they are contiguous. -/
def run? (r : Ring) (cursor count offset : Nat) : Option Run :=
  if count ≤ offset then pure ⟨0, 0⟩
  else do
    let start ← r.wrap? (cursor + offset)
    let left ← minus? count offset
    let contiguous ← minus? r.capacity start
    let length := min left contiguous
    span? r.capacity start (start + length)
    pure ⟨start, length⟩

def pushRun? (r : Ring) (offset : Nat) : Option Run := do
  let free ← r.available?
  r.run? r.tail free offset

def popRun? (r : Ring) (offset : Nat) : Option Run :=
  r.run? r.head r.size offset

def advance? (r : Ring) (count : Nat) : Option Ring := do
  let free ← r.available?
  ensure? (count ≤ free)
  let tail ← r.wrap? (r.tail + count)
  pure (recordLevel { r with tail, size := r.size + count })

def abandon? (r : Ring) (count : Nat) : Option Ring := do
  ensure? (count ≤ r.size)
  let head ← r.wrap? (r.head + count)
  let size ← minus? r.size count
  pure { r with head, size }

/-- Queues as much of `data` as fits, of which `written` bytes are queued already. -/
def fill? (write : Nat → List UInt8 → DriverScript Unit) (r : Ring) (data : List UInt8)
    (written : Nat) : CheckedScript (Nat × Ring) :=
  if _more : written < data.length then do
    let run ← r.pushRun? 0
    if _run : run.length = 0 then pure (written, r)
    else
      match _left : minus? data.length written with
      | none => failure
      | some left => do
        let count := min run.length left
        span? run.length 0 count
        span? data.length written (written + count)
        write run.start ((data.drop written).take count)
        let r ← r.advance? count
        fill? write r data (written + count)
  else pure (written, r)
termination_by data.length - written
decreasing_by
  have hleft := eq_of_minus? ‹_›
  omega

theorem wrap?_eq (index : Nat) : r.wrap? index = some (r.wrap index) := by
  unfold wrap? wrap
  split
  · next h => exact minus?_of_le h
  · rfl

theorem run?_eq {cursor count : Nat} (hcursor : cursor < r.capacity) (hcount : count ≤ r.capacity)
    (offset : Nat) :
    r.run? cursor count offset =
      some (if count ≤ offset then ⟨0, 0⟩ else
        ⟨r.wrap (cursor + offset),
          min (count - offset) (r.capacity - r.wrap (cursor + offset))⟩) := by
  unfold run?
  split
  · rfl
  · have hstart : r.wrap (cursor + offset) < r.capacity := wrap_lt (by omega)
    simp [wrap?_eq, minus?_of_le (show offset ≤ count by omega), minus?_of_le (Nat.le_of_lt hstart),
      span?_of_le (Nat.le_add_right ..)
        (show r.wrap (cursor + offset) +
          min (count - offset) (r.capacity - r.wrap (cursor + offset)) ≤ r.capacity by omega)]

theorem abandon?_eq {count : Nat} (hc : count ≤ r.size) :
    r.abandon? count = some (r.abandon count) := by
  simp [abandon?, abandon, ensure?_of hc, wrap?_eq, minus?_of_le hc, Nat.min_eq_left hc]

namespace Valid

theorem available?_eq (h : r.Valid) : r.available? = some r.available :=
  minus?_of_le h.size_le

theorem pushRun?_eq (h : r.Valid) (offset : Nat) : r.pushRun? offset = some (r.pushRun offset) := by
  rw [pushRun?, h.available?_eq]
  exact run?_eq h.tail_lt (Nat.sub_le ..) offset

theorem popRun?_eq (h : r.Valid) (offset : Nat) : r.popRun? offset = some (r.popRun offset) :=
  run?_eq h.head_lt h.size_le offset

theorem advance?_eq (h : r.Valid) {count : Nat} (hc : count ≤ r.available) :
    r.advance? count = some (r.advance count) := by
  simp [advance?, Ring.advance, h.available?_eq, ensure?_of hc, wrap?_eq, Nat.min_eq_left hc]

/-- One turn of the loop. The data left over goes to the first run of free cells. -/
theorem fill?_step (h : r.Valid) (hroom : 0 < r.available)
    (write : Nat → List UInt8 → DriverScript Unit) {data : List UInt8} {written : Nat}
    (hmore : written < data.length) :
    r.fill? write data written = (do
      write r.tail (r.chunk (data.drop written))
      (r.advance (r.chunk (data.drop written)).length).fill? write data
        (written + (r.chunk (data.drop written)).length)) := by
  have htail := h.tail_lt
  obtain ⟨hfit, hcontiguous, -⟩ := h.chunk_bounds (data.drop written)
  have hrun := h.pushRun_zero hroom
  have hlength : (r.pushRun 0).length = min r.available (r.capacity - r.tail) := by rw [hrun]
  have hcount : min (r.pushRun 0).length (data.length - written) =
      (r.chunk (data.drop written)).length := by
    rw [chunk, List.length_take, List.length_drop, hlength]
  rw [fill?, dif_pos hmore, h.pushRun?_eq 0]
  show (if _run : (r.pushRun 0).length = 0 then _ else _) = _
  rw [dif_neg (by omega)]
  split
  · next hnone =>
    rw [minus?_of_le (Nat.le_of_lt hmore)] at hnone
    cases hnone
  · next left hleft =>
    obtain rfl := eq_of_minus? hleft
    have hspan := span?_of_le (Nat.zero_le _) (Nat.min_le_left (r.pushRun 0).length
      (data.length - written))
    have hspan' : span? data.length written
        (written + min (r.pushRun 0).length (data.length - written)) = some () :=
      span?_of_le (Nat.le_add_right ..) (by omega)
    have hstart : (r.pushRun 0).start = r.tail := by rw [hrun]
    dsimp only
    rw [hspan, hspan', hcount, h.advance?_eq hfit, hstart, take_chunk]
    rfl

/-- What is left over when a part of the data is queued is queued as it would be on its own. -/
theorem agrees_fill_from (h : r.Valid) (write : Nat → List UInt8 → DriverScript Unit)
    (data : List UInt8) (written : Nat) :
    Agrees (r.fill? write data written)
      (do
        let (count, r') ← r.fill write (data.drop written)
        pure (written + count, r')) := by
  -- every turn takes at least one byte
  induction hn : data.length - written using Nat.strongRecOn generalizing r written with
  | _ n ih =>
    by_cases hmore : written < data.length
    · by_cases hfull : r.available = 0
      · have hrun : (r.pushRun 0).length = 0 := by rw [pushRun, if_pos (by omega)]
        rw [fill?, dif_pos hmore, fill_none _ (.inr hfull)]
        refine agrees_some (h.pushRun?_eq 0) ?_
        rw [dif_pos hrun]
        exact agrees_pure _
      · have hroom := Nat.pos_of_ne_zero hfull
        have hdata : data.drop written ≠ [] := fun hnil =>
          absurd (List.drop_eq_nil_iff.mp hnil) (Nat.not_le.mpr hmore)
        obtain ⟨hfit, -, -⟩ := h.chunk_bounds (data.drop written)
        have hpos := h.chunk_pos hroom hdata
        rw [h.fill?_step hroom write hmore, h.fill_step write hroom hdata, bind_eq, bind_eq,
          bind_assoc]
        refine Agrees.next (agrees_lift _) fun _ => ?_
        have hrest := ih _ (by omega) (h.advance hfit)
          (written + (r.chunk (data.drop written)).length) rfl
        simp only [bind_eq, bind_assoc, List.drop_drop, Nat.add_assoc] at hrest ⊢
        exact hrest
    · have hnone : data.drop written = [] := List.drop_eq_nil_of_le (Nat.not_lt.mp hmore)
      rw [fill?, dif_neg hmore, fill_none _ (.inl hnone)]
      exact agrees_pure _

theorem agrees_fill (h : r.Valid) (write : Nat → List UInt8 → DriverScript Unit)
    (data : List UInt8) : Agrees (r.fill? write data 0) (r.fill write data) := by
  have hfrom := h.agrees_fill_from write data 0
  simp only [List.drop_zero, Nat.zero_add] at hfrom
  change Agrees _ (Script.bind _ done) at hfrom
  rwa [bind_done] at hfrom

end Valid

end Ring

/-! ## Byte queues -/

namespace ByteQueue

variable {q : ByteQueue}

/-- Splits `count` cells from a cursor on into those up to the last and those from the first on, and
as many bytes of an array along with them. -/
def split? (q : ByteQueue) (cursor count : Nat) (array : List UInt8) : Option (Nat × Nat) := do
  let contiguous ← minus? q.ring.capacity cursor
  let first := min count contiguous
  let second ← minus? count first
  span? q.store.size 0 q.ring.capacity
  span? q.ring.capacity cursor (cursor + first)
  span? q.ring.capacity 0 second
  span? array.length 0 first
  span? array.length first count
  pure (first, second)

def pushArray? (q : ByteQueue) (data : List UInt8) : Option (Nat × ByteQueue) := do
  let free ← q.ring.available?
  let count := min data.length free
  let excess ← minus? data.length count
  let ring := q.ring.recordDrop excess
  if count = 0 then pure (0, { q with ring })
  else do
    let (first, second) ← q.split? q.ring.tail count data
    let store := overwrite q.store q.ring.tail (data.take first)
    let store := overwrite store 0 ((data.drop first).take second)
    let ring ← ring.advance? count
    pure (count, { ring, store })

def popArray? (q : ByteQueue) (buffer : List UInt8) : Option (Nat × List UInt8 × ByteQueue) := do
  let count := min buffer.length q.ring.size
  if count = 0 then pure (0, buffer, q)
  else do
    let (first, second) ← q.split? q.ring.head count buffer
    let taken := slice q.store q.ring.head first ++ slice q.store 0 second
    let ring ← q.ring.abandon? count
    pure (count, taken ++ buffer.drop count, { q with ring })

/-- The bytes from an offset on, as far as they are contiguous. -/
def peek? (q : ByteQueue) (offset : Nat) : Option (List UInt8) := do
  let run ← q.ring.popRun? offset
  span? q.store.size 0 q.ring.capacity
  pure (q.runBytes run)

namespace Valid

theorem split?_eq (h : q.Valid) {cursor count : Nat} {array : List UInt8}
    (hcursor : cursor < q.ring.capacity) (hcount : count ≤ q.ring.capacity)
    (harray : count ≤ array.length) :
    q.split? cursor count array =
      some (min count (q.ring.capacity - cursor),
        count - min count (q.ring.capacity - cursor)) := by
  obtain ⟨first, hfirst⟩ : ∃ first, min count (q.ring.capacity - cursor) = first := ⟨_, rfl⟩
  have hle : first ≤ count := by omega
  simp [split?, minus?_of_le (Nat.le_of_lt hcursor), hfirst, minus?_of_le hle,
    span?_of_le (Nat.zero_le _) h.store,
    span?_of_le (Nat.le_add_right cursor first) (show _ ≤ q.ring.capacity by omega),
    span?_of_le (Nat.zero_le (count - first)) (show _ ≤ q.ring.capacity by omega),
    span?_of_le (Nat.zero_le first) (show _ ≤ array.length by omega), span?_of_le hle harray]

theorem pushArray?_eq (h : q.Valid) (data : List UInt8) :
    q.pushArray? data = some (q.pushArray data) := by
  obtain ⟨count, hcount⟩ : ∃ count, min data.length q.ring.available = count := ⟨_, rfl⟩
  have hav : q.ring.available = q.ring.capacity - q.ring.size := rfl
  have hdata : count ≤ data.length := by omega
  -- counting drops does not touch the cursors
  have hadvance := Ring.Valid.advance?_eq (h.ring.recordDrop (data.length - count))
    (show count ≤ q.ring.available by omega)
  simp only [pushArray?, ByteQueue.pushArray, h.ring.available?_eq, Option.bind_eq_bind,
    Option.bind_some, hcount, minus?_of_le hdata]
  split
  · rfl
  · rw [h.split?_eq h.ring.tail_lt (by omega) hdata, Option.bind_some]
    dsimp only
    rw [hadvance]
    rfl

theorem popArray?_eq (h : q.Valid) (buffer : List UInt8) :
    q.popArray? buffer = some (q.popArray buffer) := by
  obtain ⟨count, hcount⟩ : ∃ count, min buffer.length q.ring.size = count := ⟨_, rfl⟩
  have hle := h.ring.size_le
  simp only [popArray?, ByteQueue.popArray, Option.bind_eq_bind, hcount]
  split
  · rfl
  · rw [h.split?_eq h.ring.head_lt (by omega) (by omega), Option.bind_some]
    dsimp only
    rw [Ring.abandon?_eq (by omega)]
    rfl

theorem peek?_eq (h : q.Valid) (offset : Nat) :
    q.peek? offset = some (q.runBytes (q.ring.popRun offset)) := by
  simp [peek?, h.ring.popRun?_eq, span?_of_le (Nat.zero_le _) h.store]

end Valid

end ByteQueue

/-! ## Transmit pumps -/

namespace TransmitPump

variable {p : TransmitPump}

def startRun? (p : TransmitPump) : CheckedScript (Except Error Unit × TransmitPump) := do
  let run ← p.ring.popRun? 0
  let length := min run.length maxTransfer
  let (appended, stream) ← p.stream.append? p.target (p.storage + run.start) length
  let p := { p with stream }
  match appended with
  | .error e => pure (.error (.dma e), p)
  | .ok () => do
    let (enabled, stream) ← p.stream.enable?
    let p := { p with stream }
    match enabled with
    | .error e => pure (.error e, p)
    | .ok () => pure (.ok (), { p with inFlight := length })

def kick? (p : TransmitPump) : CheckedScript TransmitPump := do
  let (started, p) ← p.startRun?
  match started with
  | .ok () => pure { p with error := none }
  | .error e => do
    perform (.log (.notStarted p.stream.channel.number e))
    pure { p with error := some e }

def write? (p : TransmitPump) (data : List UInt8) : CheckedScript (Nat × TransmitPump) := do
  let save (start : Nat) (chunk : List UInt8) : DriverScript Unit :=
    perform (.save (p.storage + start) chunk)
  let (count, ring) ← p.ring.fill? save data 0
  let p := { p with ring }
  if p.isIdle && !p.ring.isEmpty then do
    let p ← p.kick?
    pure (count, p)
  else pure (count, p)

/-- What is left of the queue when a transfer is over. -/
def remaining? (p : TransmitPump) (status : Status) : Option Ring :=
  if status = .error then pure p.ring else p.ring.abandon? p.inFlight

def onInterrupt? (p : TransmitPump) (event : TransferEvent) :
    CheckedScript (Option Status × TransmitPump) := do
  let (result, stream) ← p.stream.onInterrupt? event
  let p := { p with stream }
  match result with
  | none => pure (none, p)
  | some status =>
    if p.stream.bound then pure (some status, p)
    else do
      let ring ← p.remaining? status
      let p := { p with ring, inFlight := 0 }
      if p.ring.isEmpty then do
        p.notify
        pure (some status, p)
      else do
        let p ← p.kick?
        pure (some status, p)

namespace Coherent

theorem agrees_startRun (h : p.Coherent) : Agrees p.startRun? p.startRun := by
  refine agrees_some (h.ring.popRun?_eq 0) ?_
  refine (h.stream.agrees_append _ _ _).bind (h.stream.append _ _ _) fun ⟨appended, stream⟩ hs => ?_
  cases appended with
  | error e => exact agrees_pure _
  | ok _ =>
    refine (Stream.Coherent.agrees_enable hs).next fun ⟨enabled, stream⟩ => ?_
    cases enabled with
    | error e => exact agrees_pure _
    | ok _ => exact agrees_pure _

theorem agrees_kick (h : p.Coherent) : Agrees p.kick? p.kick := by
  refine h.agrees_startRun.next fun ⟨started, p⟩ => ?_
  cases started with
  | ok _ => exact agrees_pure _
  | error e => exact (agrees_lift _).next fun _ => agrees_pure _

theorem agrees_write (h : p.Coherent) (data : List UInt8) :
    Agrees (p.write? data) (p.write data) := by
  refine (h.ring.agrees_fill _ data).bind (h.ring.yields_fill _ data)
    fun ⟨count, ring⟩ ⟨hring, hsize⟩ => ?_
  have h : Coherent { p with ring } :=
    { h with ring := hring, inFlight_le := Nat.le_trans h.inFlight_le hsize }
  exact .ite (fun _ => h.agrees_kick.next fun _ => agrees_pure _) fun _ => agrees_pure _

/-- No more bytes are released than are queued. -/
theorem remaining?_eq (h : p.Coherent) (status : Status) :
    p.remaining? status =
      some (if status = .error then p.ring else p.ring.abandon p.inFlight) := by
  unfold remaining?
  split
  · rfl
  · exact Ring.abandon?_eq h.inFlight_le

theorem agrees_onInterrupt (h : p.Coherent) (event : TransferEvent) :
    Agrees (p.onInterrupt? event) (p.onInterrupt event) := by
  refine (h.stream.agrees_onInterrupt event).bind (h.stream.onInterrupt event)
    fun ⟨result, stream⟩ hs => ?_
  have h : Coherent { p with stream } := { h with stream := hs }
  cases result with
  | none => exact agrees_pure _
  | some status =>
    refine .ite (fun _ => agrees_pure _) fun _ => agrees_some (h.remaining?_eq status) ?_
    refine .ite (fun _ => (agrees_lift _).next fun _ => agrees_pure _) fun _ => ?_
    exact (h.finished status).agrees_kick.next fun _ => agrees_pure _

end Coherent

end TransmitPump

/-! ## Receive pumps -/

namespace ReceivePump

variable {p : ReceivePump}

def start? (p : ReceivePump) : CheckedScript (Except Error Unit × ReceivePump) := do
  let stream ← p.stream.clear
  let (first, stream) ← stream.append? p.staging p.source p.half
  let p := { p with stream, position := 0 }
  match first with
  | .error e => pure (.error (.dma e), p)
  | .ok () => do
    let (second, stream) ← p.stream.append? (p.staging + p.half) p.source p.half
    let p := { p with stream }
    match second with
    | .error e => pure (.error (.dma e), p)
    | .ok () => do
      let (enabled, stream) ← p.stream.enable?
      pure (enabled, { p with stream })

def executingHalf? (p : ReceivePump) : CheckedScript Nat := do
  let queued ← p.stream.queued?
  pure (if queued = 2 then 0 else 1)

/-- What is moved is a slice of the staging area. -/
def pushStaged? (p : ReceivePump) (upTo : Nat) : CheckedScript (Nat × ReceivePump) :=
  if upTo ≤ p.position then pure (0, p)
  else do
    span? (2 * p.half) p.position upTo
    let length ← minus? upTo p.position
    let data ← perform (.load (p.staging + p.position) length)
    let (count, queue) ← p.queue.pushArray? data
    let p := { p with queue }
    CheckedScript.when (count ≠ 0) p.notify
    pure (count, p)

def onInterrupt? (p : ReceivePump) (event : TransferEvent) :
    CheckedScript (Option Status × ReceivePump) := do
  let (result, stream) ← p.stream.onInterrupt? event
  let p := { p with stream }
  match result with
  | none => pure (none, p)
  | some status =>
    if event = .progress then do
      let half ← p.executingHalf?
      let upTo := if half = 1 then p.half else 2 * p.half
      let (_, p) ← p.pushStaged? upTo
      let position ← rem? upTo (2 * p.half)
      pure (some status, { p with position })
    else pure (some status, p)

def onIdle? (p : ReceivePump) : CheckedScript (Except DmaError Nat × ReceivePump) :=
  if !p.stream.bound then pure (.ok 0, p)
  else do
    let half ← p.executingHalf?
    let residue ← p.stream.residue?
    match residue with
    | .error e => pure (.error e, p)
    | .ok residue => do
      let again ← p.executingHalf?
      let place ← quot? p.position p.half
      if again ≠ half ∨ place ≠ half then pure (.ok 0, p)
      else do
        let upTo ← minus? ((half + 1) * p.half) (min residue p.half)
        let (count, p) ← p.pushStaged? upTo
        pure (.ok count, { p with position := max p.position upTo })

def read? (p : ReceivePump) (buffer : List UInt8) : Option (Nat × List UInt8 × ReceivePump) := do
  let (count, buffer, queue) ← p.queue.popArray? buffer
  pure (count, buffer, { p with queue })

namespace Coherent

theorem agrees_start (h : p.Coherent) : Agrees p.start? p.start := by
  refine (agrees_lift _).bind h.stream.clear fun stream hs => ?_
  refine (Stream.Coherent.agrees_append hs _ _ _).bind (Stream.Coherent.append hs _ _ _)
    fun ⟨first, stream⟩ hs => ?_
  cases first with
  | error e => exact agrees_pure _
  | ok _ =>
    refine (Stream.Coherent.agrees_append hs _ _ _).bind (Stream.Coherent.append hs _ _ _)
      fun ⟨second, stream⟩ hs => ?_
    cases second with
    | error e => exact agrees_pure _
    | ok _ => exact (Stream.Coherent.agrees_enable hs).next fun _ => agrees_pure _

theorem agrees_executingHalf (h : p.Coherent) : Agrees p.executingHalf? p.executingHalf :=
  h.stream.agrees_queued.next fun _ => agrees_pure _

theorem agrees_pushStaged (h : p.Coherent) {upTo : Nat} (hupTo : upTo ≤ 2 * p.half) :
    Agrees (p.pushStaged? upTo) (p.pushStaged upTo) := by
  refine .ite (fun _ => agrees_pure _) fun hmore => ?_
  have hle : p.position ≤ upTo := Nat.le_of_lt (Nat.not_le.mp hmore)
  refine agrees_some (span?_of_le hle hupTo) (agrees_some (minus?_of_le hle) ?_)
  refine (agrees_lift _).next fun data => agrees_some (h.queue.pushArray?_eq data) ?_
  exact Agrees.next (.when fun _ => agrees_lift _) fun _ => agrees_pure _

theorem agrees_onInterrupt (h : p.Coherent) (event : TransferEvent) :
    Agrees (p.onInterrupt? event) (p.onInterrupt event) := by
  refine (h.stream.agrees_onInterrupt event).bind (h.stream.onInterrupt event)
    fun ⟨result, stream⟩ hs => ?_
  have h : Coherent { p with stream } := { h with stream := hs }
  cases result with
  | none => exact agrees_pure _
  | some status =>
    refine .ite (fun _ => ?_) fun _ => agrees_pure _
    refine h.agrees_executingHalf.next fun half => ?_
    have hupTo : (if half = 1 then p.half else 2 * p.half) ≤ 2 * p.half := by
      split <;> omega
    refine (h.agrees_pushStaged hupTo).bind (h.pushStaged _) fun ⟨count, p'⟩ ⟨h', _⟩ => ?_
    exact agrees_some (rem?_of_pos (Nat.mul_pos Nat.two_pos h'.half_pos)) (agrees_pure _)

theorem agrees_onIdle (h : p.Coherent) : Agrees p.onIdle? p.onIdle := by
  refine .ite (fun _ => agrees_pure _) fun _ => ?_
  refine h.agrees_executingHalf.bind (yields_executingHalf p) fun half hone => ?_
  refine h.stream.agrees_residue.next fun residue => ?_
  cases residue with
  | error e => exact agrees_pure _
  | ok residue =>
    refine h.agrees_executingHalf.next fun again => ?_
    refine agrees_some (quot?_of_pos h.half_pos) (.ite (fun _ => agrees_pure _) fun _ => ?_)
    have hhalf : p.half ≤ (half + 1) * p.half := Nat.le_mul_of_pos_left _ (Nat.succ_pos half)
    refine agrees_some (minus?_of_le (Nat.le_trans (Nat.min_le_right ..) hhalf)) ?_
    exact (h.agrees_pushStaged (upTo_le hone residue p)).next fun _ => agrees_pure _

theorem read?_eq (h : p.Coherent) (buffer : List UInt8) :
    p.read? buffer = some (p.read buffer) := by
  rw [read?, h.queue.popArray?_eq]
  rfl

end Coherent

end ReceivePump

end ScatterGather
