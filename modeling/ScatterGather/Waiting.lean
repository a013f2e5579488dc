import ScatterGather.Event
import ScatterGather.Script

/-!
# ScatterGather.Waiting — waiting for a stream that interrupts drive

A slot holds at most one stream and is shared between foreground code and the interrupt handler of
its channel. Foreground code waits for the stream in one of three ways: it spins, it spins with a
bound on the delays, or it leaves a waker and is woken by the next event.

Code that uses a slot is a script of `SlotAccess`es, each of them one critical section, or a step
outside of any. Other parties may come in between two accesses, **never within one**. That is why
`poll` reads the status twice.
-/

namespace ScatterGather

/-- Microseconds from one poll of a bounded wait to the next. -/
def waitPollInterval : Nat := 10

/-- The bound on a wait whose caller has no other. -/
def defaultWaitTimeout : Nat := 100000

/-- The task that is to be woken, if any. -/
structure Waker where
  registered : Option Nat := none
  deriving DecidableEq

namespace Waker

/-- Leaves a task to be woken, in place of any other. -/
def register (_ : Waker) (task : Nat) : Waker :=
  ⟨some task⟩

/-- Takes the task out, so that it is woken once. -/
def take (w : Waker) : Option Nat × Waker :=
  (w.registered, {})

def isRegistered (w : Waker) : Bool :=
  w.registered.isSome

/-- Takes the task out and wakes it. `wakes` counts how often each task has been woken. -/
def wake (w : Waker) (wakes : Array Nat) : Waker × Array Nat :=
  match w.take with
  | (none, w) => (w, wakes)
  | (some task, w) => (w, wakes.modify task (· + 1))

end Waker

/-- One access to a slot. -/
inductive SlotAccess where
  /-- Reads the status of the stream. -/
  | status
  /-- Hands an event to the stream, unless somebody is at it. -/
  | deliver (event : TransferEvent)
  | register (task : Nat)
  | takeWaker
  | wake (task : Nat)
  | delay (microseconds : Nat)
  deriving DecidableEq

/-- What an access to a slot answers. -/
@[reducible] def SlotAccess.Answer : SlotAccess → Type
  | status => Option Status
  | takeWaker => Option Nat
  | deliver _ | register _ | wake _ | delay _ => Unit

/-- What an access answers where there is no slot at all. -/
def SlotAccess.vacant : (a : SlotAccess) → a.Answer
  | status => none
  | takeWaker => none
  | deliver _ | register _ | wake _ | delay _ => ()

/-- Code that uses a slot. -/
abbrev SlotScript : Type → Type :=
  Script SlotAccess SlotAccess.Answer

namespace SlotScript

abbrev access (a : SlotAccess) : SlotScript a.Answer :=
  Script.access a

/-- What a waiting task learns from the status of the stream, if anything. An empty slot is not
worth waiting for. -/
def outcome : Option Status → Option (Except Error Unit)
  | none => some (.error (.io .invalidState))
  | some .busy => none
  | some status => some status.toResult

/-- An event arrives: the stream is told, then whoever waits is woken. -/
def onEvent (event : TransferEvent) : SlotScript Unit := do
  access (.deliver event)
  let waiting ← access .takeWaker
  match waiting with
  | none => pure ()
  | some task => access (.wake task)

/-- Polls for the end of the transfer on behalf of a task. The waker is left before the status is
read a second time, so an event between the two readings is not missed. -/
def poll (task : Nat) : SlotScript (Option (Except Error Unit)) := do
  let first ← access .status
  match outcome first with
  | some result => pure (some result)
  | none => do
    access (.register task)
    let second ← access .status
    pure (outcome second)

/-- Waits until the stream is no longer busy, or until the delays add up to `timeout` microseconds.
The sum is a 32-bit word, so it wraps. The wait is followed for at most `polls` polls; beyond that
there is no result. -/
def waitTimeout (timeout : UInt32) :
    (polls : Nat) → (elapsed : UInt32) → SlotScript (Option (Except Error Unit))
  | 0, _ => pure none
  | polls + 1, elapsed => do
    let status ← access .status
    match outcome status with
    | some result => pure (some result)
    | none =>
      if timeout ≤ elapsed then pure (some (.error (.io .timeout)))
      else do
        access (.delay waitPollInterval)
        waitTimeout timeout polls (elapsed + UInt32.ofNat waitPollInterval)

/-- The polls after which a bounded wait that is still going on has seen every value of its sum. -/
def pollLimit : Nat := 0x100000000

/-- A bounded wait carried out on a state that only the delays change: `waitTimeout` as a plain
loop. -/
@[specialize] def waitAmid {σ : Type} (status : σ → Option Status) (delay : σ → σ)
    (timeout : UInt32) : (polls : Nat) → (elapsed : UInt32) → σ → Option (Except Error Unit) × σ
  | 0, _, s => (none, s)
  | polls + 1, elapsed, s =>
    match outcome (status s) with
    | some result => (some result, s)
    | none =>
      if timeout ≤ elapsed then (some (.error (.io .timeout)), s)
      else
        waitAmid status delay timeout polls (elapsed + UInt32.ofNat waitPollInterval) (delay s)

/-- One round of a bounded wait, whoever answers it. -/
theorem run_waitTimeout_succ {σ : Type} (handle : (a : SlotAccess) → σ → a.Answer × σ)
    (timeout : UInt32) (polls : Nat) (elapsed : UInt32) (s : σ) :
    (waitTimeout timeout (polls + 1) elapsed).run handle s =
      match outcome (handle .status s).1 with
      | some result => (some result, (handle .status s).2)
      | none =>
        if timeout ≤ elapsed then (some (.error (.io .timeout)), (handle .status s).2)
        else
          (waitTimeout timeout polls (elapsed + UInt32.ofNat waitPollInterval)).run handle
            (handle (.delay waitPollInterval) (handle .status s).2).2 := by
  rw [waitTimeout, Script.bind_eq, Script.access_bind, Script.run_ask]
  cases outcome (handle .status s).1 with
  | some result => rfl
  | none =>
    dsimp only
    by_cases htimeout : timeout ≤ elapsed
    · rw [if_pos htimeout, if_pos htimeout]
      rfl
    · rw [if_neg htimeout, if_neg htimeout]
      rfl

/-- The loop is the script, wherever reading the status changes nothing. -/
theorem run_waitTimeout {σ : Type} {handle : (a : SlotAccess) → σ → a.Answer × σ}
    {status : σ → Option Status} (hstatus : ∀ s, handle .status s = (status s, s))
    (timeout : UInt32) (polls : Nat) (elapsed : UInt32) (s : σ) :
    (waitTimeout timeout polls elapsed).run handle s =
      waitAmid status (fun s => (handle (.delay waitPollInterval) s).2) timeout polls elapsed
        s := by
  induction polls generalizing elapsed s with
  | zero => rfl
  | succ polls ih => rw [run_waitTimeout_succ, waitAmid, hstatus, ih]

end SlotScript

end ScatterGather
