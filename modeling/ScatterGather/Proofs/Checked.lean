import ScatterGather.Proofs.Backlog
import ScatterGather.Proofs.Coherence

/-!
# ScatterGather.Proofs.Checked — streams that look before every step that can fail

Subtraction, remainder, division, indexing and slicing each have operands for which machine code
stops. The operations of a pool and a stream are given here a second time, with a question mark, as
`CheckedScript`s: each such step looks at its operands first and fails on bad ones, and retiring
insists on having as many blocks as it is to forget.

A checked script `Agrees` with a plain one if no answer whatsoever makes it fail and it does the
same otherwise. On a coherent stream every checked operation agrees with the plain one.
-/

namespace ScatterGather

/-! ## Steps that can fail -/

section Steps

variable {a b length i start stop : Nat}

/-- A difference that must not become negative. -/
def minus? (a b : Nat) : Option Nat :=
  if b ≤ a then some (a - b) else none

def quot? (a b : Nat) : Option Nat :=
  if b ≠ 0 then some (a / b) else none

def rem? (a b : Nat) : Option Nat :=
  if b ≠ 0 then some (a % b) else none

/-- A place in a row of so many entries. -/
def index? (length i : Nat) : Option Nat :=
  if i < length then some i else none

/-- An assertion. -/
def ensure? (c : Prop) [Decidable c] : Option Unit :=
  if c then some () else none

/-- A slice of a row of so many entries, from one place up to another. -/
def span? (length start stop : Nat) : Option Unit :=
  ensure? (start ≤ stop ∧ stop ≤ length)

theorem minus?_of_le (h : b ≤ a) : minus? a b = some (a - b) := if_pos h

theorem eq_of_minus? {c : Nat} (h : minus? a b = some c) : c = a - b := by
  unfold minus? at h
  split at h
  · exact (Option.some.inj h).symm
  · cases h

theorem quot?_of_pos (h : 0 < b) : quot? a b = some (a / b) := if_pos (Nat.ne_of_gt h)

theorem rem?_of_pos (h : 0 < b) : rem? a b = some (a % b) := if_pos (Nat.ne_of_gt h)

theorem index?_of_lt (h : i < length) : index? length i = some i := if_pos h

theorem ensure?_of {c : Prop} [Decidable c] (h : c) : ensure? c = some () := if_pos h

theorem span?_of_le (h : start ≤ stop) (h' : stop ≤ length) : span? length start stop = some () :=
  if_pos ⟨h, h'⟩

end Steps

/-- Driver code that can fail. -/
abbrev CheckedScript : Type → Type :=
  OptionT DriverScript

instance : MonadLift Option CheckedScript where
  monadLift outcome := OptionT.mk (pure outcome)

namespace CheckedScript

/-- A script that is there only under a condition. -/
def when (condition : Bool) (script : CheckedScript Unit) : CheckedScript Unit :=
  if condition then script else pure ()

/-- Runs `body` on `count` consecutive numbers from `first` up. -/
def forEach (body : Nat → CheckedScript Unit) : (first count : Nat) → CheckedScript Unit
  | _, 0 => pure ()
  | first, count + 1 => do
    body first
    forEach body (first + 1) count

variable {α β : Type}

/-- Whatever is answered, a checked script does not fail, and it does what a plain one does. -/
def Agrees (x' : CheckedScript α) (x : DriverScript α) : Prop :=
  x'.run = x.bind fun value => .done (some value)

variable {x' : CheckedScript α} {x : DriverScript α}

theorem agrees_pure (value : α) : Agrees (pure value) (.done value) := rfl

/-- Plain code has nothing to check. -/
theorem agrees_lift (x : DriverScript α) : Agrees (liftM x) x := rfl

/-- The rest of a script need agree only for values that its first part can have. -/
theorem Agrees.bind {Q : α → Prop} {f' : α → CheckedScript β} {f : α → DriverScript β}
    (hx : Agrees x' x) (hq : x.Yields Q) (hf : ∀ value, Q value → Agrees (f' value) (f value)) :
    Agrees (x' >>= f') (x >>= f) := by
  show x'.run.bind _ = (x.bind f).bind _
  rw [hx, Script.bind_assoc, Script.bind_assoc]
  clear hx
  induction hq with
  | done h => exact hf _ h
  | ask _ _ ih => exact congrArg (Script.ask _) (funext ih)

theorem Agrees.next {f' : α → CheckedScript β} {f : α → DriverScript β} (hx : Agrees x' x)
    (hf : ∀ value, Agrees (f' value) (f value)) : Agrees (x' >>= f') (x >>= f) :=
  hx.bind (Script.yields_any x) fun value _ => hf value

/-- A script goes on with the outcome of a step that does not fail. -/
theorem agrees_some {outcome : Option α} {value : α} {f' : α → CheckedScript β}
    {y : DriverScript β} (h : outcome = some value) (hf : Agrees (f' value) y) :
    Agrees (liftM outcome >>= f') y := by
  subst h
  exact hf

theorem Agrees.ite {c : Prop} [Decidable c] {y' : CheckedScript α} {y : DriverScript α}
    (hx : c → Agrees x' x) (hy : ¬c → Agrees y' y) :
    Agrees (if c then x' else y') (if c then x else y) := by
  split
  · next h => exact hx h
  · next h => exact hy h

theorem Agrees.when {x' : CheckedScript Unit} {x : DriverScript Unit} {condition : Bool}
    (hx : condition = true → Agrees x' x) :
    Agrees (CheckedScript.when condition x') (Script.when condition x) :=
  .ite hx fun _ => agrees_pure ()

theorem agrees_forEach {body' : Nat → CheckedScript Unit} {body : Nat → DriverScript Unit}
    (h : ∀ n, Agrees (body' n) (body n)) (first count : Nat) :
    Agrees (forEach body' first count) (Script.forEach body first count) := by
  induction count generalizing first with
  | zero => exact agrees_pure ()
  | succ count ih => exact (h first).next fun _ => ih (first + 1)

end CheckedScript

open CheckedScript Script

/-! ## Pools -/

namespace Pool

variable {p : Pool}

/-- The slot of an offset, as an index into the row. -/
def slotAt? (p : Pool) (offset : Nat) : Option Nat := do
  let slot ← rem? (p.head + offset) p.capacity
  index? p.capacity slot

def addressAt? (p : Pool) (offset : Nat) : Option Nat := do
  let slot ← p.slotAt? offset
  pure (p.addressOf slot)

def offsetOf? (p : Pool) (slot : Nat) : Option Nat := do
  let distance ← minus? (slot + p.capacity) p.head
  rem? distance p.capacity

def push? (p : Pool) (source destination : Nat) (control : UInt32) (closeLoop : Bool) :
    CheckedScript (Option Pool) :=
  if p.isFull then pure none
  else do
    let entry ← p.addressAt? p.queued
    perform (.store entry (.source source))
    perform (.store entry (.destination destination))
    perform (.store entry (.control control))
    perform (.store entry (.next 0))
    CheckedScript.when closeLoop do
      let first ← p.addressAt? 0
      perform (.store entry (.next first))
    CheckedScript.when (p.queued ≠ 0) do
      let offset ← minus? p.queued 1
      let last ← p.addressAt? offset
      perform (.store last (.next entry))
    pure (some { p with queued := p.queued + 1 })

/-- Forgets exactly so many blocks at the head. -/
def retire? (p : Pool) (count : Nat) : Option Pool := do
  ensure? (count ≤ p.queued)
  let head ← rem? (p.head + count) p.capacity
  let queued ← minus? p.queued count
  pure { p with head, queued }

def linkAt? (p : Pool) (closeLoop : Bool) (offset : Nat) : Option Nat :=
  if offset + 1 < p.queued then p.addressAt? (offset + 1)
  else if closeLoop then p.addressAt? 0
  else pure 0

def relink? (p : Pool) (closeLoop : Bool) : CheckedScript Unit :=
  CheckedScript.forEach
    (fun offset => do
      let next ← p.linkAt? closeLoop offset
      let entry ← p.addressAt? offset
      perform (.store entry (.next next)))
    0 p.queued

theorem slotAt?_eq (h : 0 < p.capacity) (offset : Nat) :
    p.slotAt? offset = some (p.slotAt offset) := by
  rw [slotAt?, rem?_of_pos h]
  exact index?_of_lt (slotAt_lt h offset)

theorem addressAt?_eq (h : 0 < p.capacity) (offset : Nat) :
    p.addressAt? offset = some (p.addressAt offset) := by
  rw [addressAt?, slotAt?_eq h]
  rfl

theorem offsetOf?_eq (h : p.head < p.capacity) (slot : Nat) :
    p.offsetOf? slot = some (p.offsetOf slot) := by
  rw [offsetOf?, minus?_of_le (by omega)]
  exact rem?_of_pos (by omega)

theorem retire?_eq (h : 0 < p.capacity) {count : Nat} (hc : count ≤ p.queued) :
    p.retire? count = some (p.retire count) := by
  simp [retire?, ensure?_of hc, rem?_of_pos h, minus?_of_le hc, retire, Nat.min_eq_left hc]

theorem linkAt?_eq (h : 0 < p.capacity) (closeLoop : Bool) (offset : Nat) :
    p.linkAt? closeLoop offset = some (p.linkAt closeLoop offset) := by
  unfold linkAt? linkAt
  split
  · exact addressAt?_eq h _
  · split
    · exact addressAt?_eq h 0
    · rfl

theorem agrees_push (h : 0 < p.capacity) (source destination : Nat) (control : UInt32)
    (closeLoop : Bool) :
    Agrees (p.push? source destination control closeLoop)
      (p.push source destination control closeLoop) := by
  refine .ite (fun _ => agrees_pure none) fun _ => agrees_some (addressAt?_eq h _) ?_
  refine (agrees_lift _).next fun _ => (agrees_lift _).next fun _ => ?_
  refine (agrees_lift _).next fun _ => (agrees_lift _).next fun _ => ?_
  refine Agrees.next (.when fun _ => agrees_some (addressAt?_eq h 0) (agrees_lift _)) fun _ => ?_
  refine Agrees.next (.when fun hq => ?_) fun _ => agrees_pure _
  refine agrees_some (minus?_of_le (Nat.pos_of_ne_zero (by simpa using hq))) ?_
  exact agrees_some (addressAt?_eq h _) (agrees_lift _)

theorem agrees_relink (h : 0 < p.capacity) (closeLoop : Bool) :
    Agrees (p.relink? closeLoop) (p.relink closeLoop) :=
  agrees_forEach
    (fun offset => agrees_some (linkAt?_eq h closeLoop offset)
      (agrees_some (addressAt?_eq h offset) (agrees_lift _)))
    0 p.queued

end Pool

/-! ## Streams -/

namespace Stream

variable {s : Stream}

def applyInterrupts? (s : Stream) : CheckedScript Unit :=
  CheckedScript.forEach
    (fun offset => do
      let entry ← s.pool.addressAt? offset
      setInterrupt entry (s.wantsInterrupt (offset + 1 = s.pool.queued)))
    0 s.pool.queued

def setCallback? (s : Stream) (callback : Option Callback) : CheckedScript Stream := do
  let s := { s with callback }
  CheckedScript.when (!s.bound || s.isCircular) s.applyInterrupts?
  pure s

def reachable? (s : Stream) : Option Nat :=
  match s.stalled with
  | none => pure s.pool.queued
  | some slot => do
    let offset ← s.pool.offsetOf? slot
    pure (min offset s.pool.queued)

def predecessor? (s : Stream) (slot : Nat) : Option Nat :=
  match s.config.mode with
  | .oneShot => do
    let before ← minus? (slot + s.pool.capacity) 1
    rem? before s.pool.capacity
  | .circular => if slot = 0 then minus? s.pool.queued 1 else minus? slot 1

/-- One less than reachable is the one difference that saturates, and so cannot fail. -/
def executingOffset? (s : Stream) : CheckedScript Nat :=
  if s.pool.queued = 0 then pure 0
  else do
    let reachable ← s.reachable?
    let next ← perform .nextPointer
    match s.pool.slotOf next with
    | some slot => do
      let executing ← s.predecessor? slot
      let offset ← s.pool.offsetOf? executing
      pure (min offset (reachable - 1))
    | none => do
      let active ← perform .isActive
      pure (if active then reachable - 1 else reachable)

def queued? (s : Stream) : CheckedScript Nat :=
  if s.bound then do
    let offset ← s.executingOffset?
    minus? s.pool.queued offset
  else pure s.pool.queued

def residue? (s : Stream) : CheckedScript (Except DmaError Nat) :=
  if !s.bound then pure (.ok 0)
  else do
    let offset ← s.executingOffset?
    if s.pool.queued ≤ offset then pure (.ok 0)
    else do
      let executing ← s.pool.addressAt? offset
      let current ← perform (.fetch executing)
      let before ← perform .nextPointer
      if before ≠ current.next then pure (.error .residueUnstable)
      else do
        let count ← perform .transferCount
        let after ← perform .nextPointer
        if after ≠ current.next then pure (.error .residueUnstable)
        else pure (.ok (count * current.elementBytes))

def checkBlock? (s : Stream) (destination source size : Nat) : Option (Except DmaError Nat) := do
  let width := s.config.settings.width.bytes
  let rest ← rem? size width
  let destinationRest ← rem? destination width
  let sourceRest ← rem? source width
  let elements ← quot? size width
  pure
    (if size = 0 ∨ rest ≠ 0 then .error .invalidLength
    else if destinationRest ≠ 0 ∨ sourceRest ≠ 0 then .error .misaligned
    else if maxTransfer < elements then .error .transferTooLarge
    else .ok elements)

def controlWord? (s : Stream) (elements : Nat) : Option UInt32 := do
  let count ← minus? elements 1
  pure (s.template ||| (UInt32.ofNat count &&& Control.countMask) |||
    (if s.wantsInterrupt true then Control.interruptOnComplete else 0))

def append? (s : Stream) (destination source size : Nat) :
    CheckedScript (Except DmaError Unit × Stream) := do
  let checked ← s.checkBlock? destination source size
  match checked with
  | .error e => pure (.error e, s)
  | .ok elements => do
    let s := s.discardFinished
    let control ← s.controlWord? elements
    let slot ← s.pool.slotAt? s.pool.queued
    let pushed ← s.pool.push? source destination control s.isCircular
    match pushed with
    | none => pure (.error .poolFull, s)
    | some pool => do
      let late ← s.linkedTooLate
      CheckedScript.when (s.pool.queued ≠ 0 && s.config.silent && (!s.bound || s.isCircular)) do
        let offset ← minus? s.pool.queued 1
        let last ← s.pool.addressAt? offset
        setInterrupt last false
      pure (.ok (),
        { s with
          pool
          stalled := if late then some slot else s.stalled
          state := if s.bound then s.state else .ready })

def startAtHead? (s : Stream) : CheckedScript Unit := do
  let first ← s.pool.addressAt? 0
  perform (.start first s.config.settings.priority)

def enable? (s : Stream) : CheckedScript (Except Error Unit × Stream) :=
  if s.bound || s.pool.isEmpty then pure (.error (.io .invalidState), s)
  else do
    let granted ← perform (.bind s.channel.number s.owner)
    match granted with
    | .error e => pure (.error e, { s with state := .error })
    | .ok () => do
      let s := { s with bound := true, stalled := none }
      s.pool.relink? s.isCircular
      s.applyInterrupts?
      perform (.log (.enabled s.channel.number s.pool.queued))
      s.startAtHead?
      pure (.ok (), { s with state := .busy })

def retirePassed? (s : Stream) : CheckedScript Stream :=
  if s.isCircular then pure s
  else do
    let passed ← s.executingOffset?
    let pool ← s.pool.retire? passed
    pure { s with pool }

def onComplete? (s : Stream) : CheckedScript Stream := do
  let s ← s.retirePassed?
  if !s.isCircular && !s.pool.isEmpty then do
    perform (.log (.underrun s.channel.number s.pool.queued))
    s.startAtHead?
    pure { s with stalled := none, state := .busy }
  else do
    let s ← s.releaseChannel
    pure { s with state := .done }

def react? (s : Stream) : TransferEvent → CheckedScript Stream
  | .progress => do
    let s ← s.retirePassed?
    pure { s with state := .busy }
  | .complete => s.onComplete?
  | .busError => s.react .busError
  | .timeout => s.react .timeout

def onInterrupt? (s : Stream) (event : TransferEvent) : CheckedScript (Option Status × Stream) :=
  if !s.bound then pure (none, s)
  else do
    let s ← s.react? event
    s.notify
    pure (some s.status, s)

/-! ## Streams need not look -/

theorem agrees_applyInterrupts (h : 0 < s.pool.capacity) :
    Agrees s.applyInterrupts? s.applyInterrupts :=
  agrees_forEach (fun offset => agrees_some (Pool.addressAt?_eq h offset) (agrees_lift _)) 0
    s.pool.queued

theorem agrees_setCallback (h : 0 < s.pool.capacity) (callback : Option Callback) :
    Agrees (s.setCallback? callback) (s.setCallback callback) :=
  Agrees.next (.when fun _ => agrees_applyInterrupts h) fun _ => agrees_pure _

namespace Coherent

theorem reachable?_eq (h : s.Coherent) : s.reachable? = some s.reachable := by
  unfold reachable? reachable
  cases s.stalled with
  | none => rfl
  | some slot =>
    simp only [Pool.offsetOf?_eq h.head_lt]
    rfl

theorem predecessor?_eq (h : s.Coherent) (hq : s.pool.queued ≠ 0) (slot : Nat) :
    s.predecessor? slot = some (s.predecessor slot) := by
  have hcapacity := h.capacity_pos
  unfold predecessor? predecessor
  cases s.config.mode with
  | oneShot =>
    simp only [minus?_of_le (show 1 ≤ slot + s.pool.capacity by omega)]
    exact rem?_of_pos hcapacity
  | circular =>
    by_cases hslot : slot = 0
    · simp only [if_pos hslot]
      exact minus?_of_le (Nat.pos_of_ne_zero hq)
    · simp only [if_neg hslot]
      exact minus?_of_le (Nat.pos_of_ne_zero hslot)

theorem agrees_executingOffset (h : s.Coherent) :
    Agrees s.executingOffset? s.executingOffset := by
  refine .ite (fun _ => agrees_pure 0) fun hq => agrees_some h.reachable?_eq ?_
  refine (agrees_lift _).next fun next => ?_
  cases s.pool.slotOf next with
  | some slot =>
    refine agrees_some (h.predecessor?_eq hq slot) ?_
    exact agrees_some (Pool.offsetOf?_eq h.head_lt _) (agrees_pure _)
  | none => exact (agrees_lift _).next fun active => agrees_pure _

theorem agrees_queued (h : s.Coherent) : Agrees s.queued? s.queued := by
  refine .ite (fun _ => ?_) fun _ => agrees_pure _
  refine h.agrees_executingOffset.bind (yields_executingOffset_le s) fun offset hoffset => ?_
  exact congrArg (fun outcome => Script.done outcome) (minus?_of_le hoffset)

theorem agrees_residue (h : s.Coherent) : Agrees s.residue? s.residue := by
  refine .ite (fun _ => agrees_pure _) fun _ => h.agrees_executingOffset.next fun offset => ?_
  refine .ite (fun _ => agrees_pure _) fun _ => ?_
  refine agrees_some (Pool.addressAt?_eq h.capacity_pos offset) ?_
  refine (agrees_lift _).next fun current => (agrees_lift _).next fun before => ?_
  refine .ite (fun _ => agrees_pure _) fun _ => ?_
  refine (agrees_lift _).next fun count => (agrees_lift _).next fun after => ?_
  exact .ite (fun _ => agrees_pure _) fun _ => agrees_pure _

/-! ### Queueing -/

theorem checkBlock?_eq (s : Stream) (destination source size : Nat) :
    s.checkBlock? destination source size = some (s.checkBlock destination source size) := by
  have hwidth : 0 < s.config.settings.width.bytes := by
    cases s.config.settings.width <;> decide
  simp [checkBlock?, checkBlock, rem?_of_pos hwidth, quot?_of_pos hwidth]

/-- A count of elements that was checked fits its field. -/
theorem controlWord?_eq {elements : Nat} (h : 0 < elements) :
    s.controlWord? elements = some (s.controlWord elements) := by
  simp [controlWord?, controlWord, minus?_of_le (show 1 ≤ elements from h), Control.encodeCount,
    UInt32.ofNat_sub (show 1 ≤ elements from h)]

theorem agrees_append (h : s.Coherent) (destination source size : Nat) :
    Agrees (s.append? destination source size) (s.append destination source size) := by
  unfold append? Stream.append
  refine agrees_some (checkBlock?_eq ..) ?_
  cases hcheck : s.checkBlock destination source size with
  | error e => exact agrees_pure _
  | ok elements =>
    have hcapacity := h.discardFinished.capacity_pos
    refine agrees_some (controlWord?_eq (checkBlock_ok hcheck).2.1) ?_
    refine agrees_some (Pool.slotAt?_eq hcapacity _) ?_
    refine (Pool.agrees_push hcapacity _ _ _ _).next fun pushed => ?_
    cases pushed with
    | none => exact agrees_pure _
    | some pool =>
      refine (agrees_lift _).next fun late => ?_
      refine Agrees.next (.when fun hrearm => ?_) fun _ => agrees_pure _
      have hq : s.discardFinished.pool.queued ≠ 0 := by
        simp only [Bool.and_eq_true, decide_eq_true_eq] at hrearm
        exact hrearm.1.1
      refine agrees_some (minus?_of_le (Nat.pos_of_ne_zero hq)) ?_
      exact agrees_some (Pool.addressAt?_eq hcapacity _) (agrees_lift _)

/-! ### Running -/

theorem agrees_startAtHead (h : 0 < s.pool.capacity) :
    Agrees s.startAtHead? s.startAtHead :=
  agrees_some (Pool.addressAt?_eq h 0) (agrees_lift _)

theorem agrees_enable (h : s.Coherent) : Agrees s.enable? s.enable := by
  refine .ite (fun _ => agrees_pure _) fun _ => (agrees_lift _).next fun granted => ?_
  cases granted with
  | error e => exact agrees_pure _
  | ok _ =>
    refine (Pool.agrees_relink h.capacity_pos _).next fun _ => ?_
    refine (agrees_applyInterrupts h.capacity_pos).next fun _ => (agrees_lift _).next fun _ => ?_
    exact (agrees_startAtHead h.capacity_pos).next fun _ => agrees_pure _

theorem agrees_retirePassed (h : s.Coherent) : Agrees s.retirePassed? s.retirePassed := by
  refine .ite (fun _ => agrees_pure _) fun _ => ?_
  refine h.agrees_executingOffset.bind (yields_executingOffset_le s) fun passed hpassed => ?_
  exact agrees_some (Pool.retire?_eq h.capacity_pos hpassed) (agrees_pure _)

theorem agrees_onComplete (h : s.Coherent) (hb : s.bound = true) :
    Agrees s.onComplete? s.onComplete := by
  refine h.agrees_retirePassed.bind (h.retirePassed hb) fun s' ⟨h', _⟩ => ?_
  refine .ite (fun _ => (agrees_lift _).next fun _ => ?_) fun _ => ?_
  · exact (agrees_startAtHead h'.capacity_pos).next fun _ => agrees_pure _
  · exact (agrees_lift _).next fun _ => agrees_pure _

theorem agrees_onInterrupt (h : s.Coherent) (event : TransferEvent) :
    Agrees (s.onInterrupt? event) (s.onInterrupt event) := by
  refine .ite (fun _ => agrees_pure _) fun hbound => ?_
  have hb : s.bound = true := by simpa using hbound
  have hreact : Agrees (s.react? event) (s.react event) := by
    cases event with
    | progress => exact h.agrees_retirePassed.next fun _ => agrees_pure _
    | complete => exact h.agrees_onComplete hb
    | busError => exact agrees_lift _
    | timeout => exact agrees_lift _
  exact hreact.next fun s' => (agrees_lift _).next fun _ => agrees_pure _

end Coherent

end Stream

end ScatterGather
