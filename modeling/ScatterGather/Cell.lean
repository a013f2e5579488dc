/-!
# ScatterGather.Cell — values that are entered for the length of a call

What foreground code and interrupt handlers both touch lives in a cell that is entered for the
length of a call. A cell admits one exclusive call, or any number of shared ones, at a time. A call
that is not admitted either gives up (`attempt`) or fails; either way it does nothing. A cell is
free again after every call that was admitted, also after one that failed midway.

`Call` is a tree of such calls on a cell that holds a word, and `Call.run` carries it out.
-/

namespace ScatterGather

/-- Who is inside a cell. -/
inductive Occupancy where
  | free
  | shared (others : Nat)
  | exclusive
  deriving DecidableEq

/-- A value that is reached through calls only. -/
structure Cell (α : Type) where
  value : α
  occupancy : Occupancy := .free

namespace Cell

variable {α : Type}

/-- Enters a cell for an exclusive call, if nobody is inside. -/
def enter? (c : Cell α) : Option (Cell α) :=
  match c.occupancy with
  | .free => some { c with occupancy := .exclusive }
  | .shared _ | .exclusive => none

/-- Enters a cell for a shared call, unless an exclusive one is inside. -/
def enterShared? (c : Cell α) : Option (Cell α) :=
  match c.occupancy with
  | .free => some { c with occupancy := .shared 0 }
  | .shared others => some { c with occupancy := .shared (others + 1) }
  | .exclusive => none

/-- Leaves a cell after the latest call that entered it. -/
def leave (c : Cell α) : Cell α :=
  match c.occupancy with
  | .shared (others + 1) => { c with occupancy := .shared others }
  | .shared 0 | .exclusive | .free => { c with occupancy := .free }

@[simp] theorem value_leave (c : Cell α) : c.leave.value = c.value := by
  unfold leave
  split <;> rfl

/-- Whoever enters alone leaves the cell free. -/
theorem leave_of_enter? {c entered : Cell α} (h : c.enter? = some entered) :
    entered.leave = c := by
  cases c with
  | mk value occupancy =>
    cases occupancy with
    | free =>
      cases h
      rfl
    | shared others => cases h
    | exclusive => cases h

theorem value_of_enter? {c entered : Cell α} (h : c.enter? = some entered) :
    entered.value = c.value := by
  rw [← value_leave entered, leave_of_enter? h]

/-- Leaving takes back one shared entry. -/
theorem leave_of_enterShared? {c entered : Cell α} (h : c.enterShared? = some entered) :
    entered.leave = c := by
  cases c with
  | mk value occupancy =>
    cases occupancy with
    | free =>
      cases h
      rfl
    | shared others =>
      cases h
      rfl
    | exclusive => cases h

/-- Uses the value from an exclusive call, if it is admitted. -/
def use {β : Type} (c : Cell α) (act : α → β × α) : Option (β × Cell α) :=
  c.enter?.map fun entered =>
    let (result, value) := act entered.value
    (result, { entered with value }.leave)

end Cell

/-- How a call enters a cell, and what it does when it is not admitted. -/
inductive CallKind where
  /-- An exclusive call that fails when it is not admitted. -/
  | exclusive
  /-- An exclusive call that gives up when it is not admitted. -/
  | attempt
  /-- A shared call that fails when it is not admitted. -/
  | shared
  /-- An exclusive call that enters the cell once more from inside, and so fails midway. -/
  | reentrant
  deriving DecidableEq

/-- A call on a cell that holds a word, with the calls made inside it. Exclusive calls add to the
word. -/
inductive Call where
  | call (kind : CallKind) (amount : UInt32) (inner : List Call)

/-- What became of a call. -/
inductive CallResult where
  | finished (value : UInt32) (inner : List CallResult)
  | gaveUp
  | failed

namespace Call

mutual

/-- Carries out a call and the calls inside it. -/
def run : Call → Cell UInt32 → CallResult × Cell UInt32
  | .call kind amount inner, c =>
    match kind with
    | .exclusive =>
      match c.enter? with
      | none => (.failed, c)
      | some c =>
        let (results, c) := runAll inner { c with value := c.value + amount }
        (.finished c.value results, c.leave)
    | .attempt =>
      match c.enter? with
      | none => (.gaveUp, c)
      | some c =>
        let (results, c) := runAll inner { c with value := c.value + amount }
        (.finished c.value results, c.leave)
    | .shared =>
      match c.enterShared? with
      | none => (.failed, c)
      | some c =>
        let (results, c) := runAll inner c
        (.finished c.value results, c.leave)
    | .reentrant =>
      match c.enter? with
      | none => (.failed, c)
      | some c =>
        let (_, c) := runAll inner { c with value := c.value + amount }
        (.failed, c.leave)

/-- Carries out calls one after another. -/
def runAll : List Call → Cell UInt32 → List CallResult × Cell UInt32
  | [], c => ([], c)
  | first :: rest, c =>
    let (result, c) := first.run c
    let (results, c) := runAll rest c
    (result :: results, c)

end

end Call

end ScatterGather
