/-!
# ScatterGather.Script — driver code as trees of single accesses

Driver code does two things in turn: it computes, and it touches something that moves on its own (a
controller, memory that a controller reads, a table shared with interrupt handlers). A `Script`
keeps the two apart. It is a finite tree whose nodes are single accesses and whose leaves are
results; what an access answers is decided by whoever runs the script.

One script therefore has many readings. `Script.run` answers every access from a state, with nothing
in between; the same tree can be given **any** answers, or be run with other parties moving between
two accesses.

`Script.run_bind` says that running is compositional.
-/

namespace ScatterGather

/-- A script over the accesses `A` ends with a value, or makes one access and goes on with its
answer. -/
inductive Script (A : Type) (Answer : A → Type) (α : Type) where
  | done (value : α)
  | ask (access : A) (next : Answer access → Script A Answer α)

namespace Script

variable {A : Type} {Answer : A → Type} {α β γ σ : Type}

/-- One script after another: the second starts from the value of the first. -/
def bind : Script A Answer α → (α → Script A Answer β) → Script A Answer β
  | done value, f => f value
  | ask a next, f => ask a fun answer => (next answer).bind f

instance : Monad (Script A Answer) where
  pure := done
  bind := bind

/-- The script of one access, whose value is the answer. -/
def access (a : A) : Script A Answer (Answer a) :=
  ask a done

/-- A script that is there only under a condition. -/
def when (condition : Bool) (script : Script A Answer Unit) : Script A Answer Unit :=
  if condition then script else pure ()

/-- Runs `body` on `count` consecutive numbers from `first` up. -/
def forEach (body : Nat → Script A Answer Unit) : (first count : Nat) → Script A Answer Unit
  | _, 0 => pure ()
  | first, count + 1 => do
    body first
    forEach body (first + 1) count

/-- Answers every access of a script from a state that only the accesses change. -/
def run (handle : (a : A) → σ → Answer a × σ) : Script A Answer α → σ → α × σ
  | done value, s => (value, s)
  | ask a next, s =>
    match handle a s with
    | (answer, s') => (next answer).run handle s'

@[simp] theorem bind_eq (x : Script A Answer α) (f : α → Script A Answer β) :
    x >>= f = x.bind f := rfl

@[simp] theorem pure_eq (a : α) : (pure a : Script A Answer α) = done a := rfl

@[simp] theorem done_bind (a : α) (f : α → Script A Answer β) : (done a).bind f = f a := rfl

@[simp] theorem ask_bind (a : A) (next : Answer a → Script A Answer α)
    (f : α → Script A Answer β) :
    (ask a next).bind f = ask a fun answer => (next answer).bind f := rfl

@[simp] theorem access_bind (a : A) (f : Answer a → Script A Answer β) :
    (access a : Script A Answer (Answer a)).bind f = ask a f := rfl

theorem bind_done (x : Script A Answer α) : x.bind done = x := by
  induction x with
  | done value => rfl
  | ask a next ih => simp [ih]

theorem bind_assoc (x : Script A Answer α) (f : α → Script A Answer β)
    (g : β → Script A Answer γ) :
    (x.bind f).bind g = x.bind fun a => (f a).bind g := by
  induction x with
  | done value => rfl
  | ask a next ih => simp [ih]

@[simp] theorem run_done (handle : (a : A) → σ → Answer a × σ) (value : α) (s : σ) :
    (done value : Script A Answer α).run handle s = (value, s) := rfl

@[simp] theorem run_ask (handle : (a : A) → σ → Answer a × σ) (a : A)
    (next : Answer a → Script A Answer α) (s : σ) :
    (ask a next).run handle s = (next (handle a s).1).run handle (handle a s).2 := rfl

@[simp] theorem run_access (handle : (a : A) → σ → Answer a × σ) (a : A) (s : σ) :
    (access a : Script A Answer (Answer a)).run handle s = handle a s := rfl

/-- The state after the first script is the state before the second. -/
theorem run_bind (handle : (a : A) → σ → Answer a × σ) (x : Script A Answer α)
    (f : α → Script A Answer β) (s : σ) :
    (x.bind f).run handle s = (f (x.run handle s).1).run handle (x.run handle s).2 := by
  induction x generalizing s with
  | done value => rfl
  | ask a next ih => simp [ih]

end Script

end ScatterGather
