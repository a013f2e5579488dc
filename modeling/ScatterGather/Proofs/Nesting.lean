import ScatterGather.Cell

/-!
# ScatterGather.Proofs.Nesting — a cell admits calls by their nesting

Who is inside a cell is kept in the cell and changes with every entry and every leave. What it comes
to is a matter of nesting only: an exclusive call is admitted when no call that was admitted is
around it, a shared one when all that are around it are shared (`CallKind.Admitted`). `Call.fate`
follows a call and tells at which entries the cell was entered; `Call.nested` tells it from the text
of the call alone, and the two are the same (`runAll_nested`). Nothing else that calls answer or
leave behind depends on more: the answers can be read off the fate, the cell is free after any
calls, whatever failed inside them, and its word has grown by what the admitted exclusive calls add.
-/

namespace ScatterGather

namespace CallKind

/-- A call of this kind is admitted inside the calls `around` it, which are those that were admitted
themselves. -/
def Admitted (around : List CallKind) (kind : CallKind) : Prop :=
  match kind with
  | .shared => ∀ outer ∈ around, outer = .shared
  | .exclusive | .attempt | .reentrant => around = []

instance (around : List CallKind) : DecidablePred (Admitted around) := fun kind =>
  match kind with
  | .shared => inferInstanceAs (Decidable (∀ outer ∈ around, outer = .shared))
  | .exclusive | .attempt | .reentrant => inferInstanceAs (Decidable (around = []))

/-- Enters a cell as calls of this kind do. -/
def enter? {α : Type} (kind : CallKind) (c : Cell α) : Option (Cell α) :=
  match kind with
  | .shared => c.enterShared?
  | .exclusive | .attempt | .reentrant => c.enter?

/-- What a call of this kind adds to the word of a cell that admits it. -/
def added (kind : CallKind) (amount : UInt32) : Nat :=
  match kind with
  | .shared => 0
  | .exclusive | .attempt | .reentrant => amount.toNat

/-- The answer of a call that is not admitted. -/
def refusal : CallKind → CallResult
  | .attempt => .gaveUp
  | .exclusive | .shared | .reentrant => .failed

/-- The answer of a call that was admitted and found this value when everything inside it was
done. -/
def answer (value : UInt32) (inner : List CallResult) : CallKind → CallResult
  | .reentrant => .failed
  | .exclusive | .attempt | .shared => .finished value inner

end CallKind

namespace Call

/-- The four kinds of calls differ in how they enter, what they add and what they answer. -/
theorem run_call (kind : CallKind) (amount : UInt32) (inner : List Call) (c : Cell UInt32) :
    (Call.call kind amount inner).run c =
      match kind.enter? c with
      | none => (kind.refusal, c)
      | some entered =>
        let (results, c) := runAll inner
          { entered with value := entered.value + UInt32.ofNat (kind.added amount) }
        (kind.answer c.value results, c.leave) := by
  cases kind with
  | shared =>
    unfold run CallKind.enter?
    cases c.enterShared? with
    | none => rfl
    | some entered =>
      have hsame : entered.value + UInt32.ofNat (CallKind.added .shared amount) = entered.value :=
        UInt32.add_zero _
      simp only [hsame]
      rfl
  | exclusive | attempt | reentrant =>
    unfold run CallKind.enter? CallKind.added
    simp only [UInt32.ofNat_toNat]
    cases c.enter? <;> rfl

end Call

/-! ## Fates -/

/-- What a call comes to: it is refused, and nothing inside it is done, or it is granted, and the
calls inside it come to something in turn. -/
inductive Fate where
  | refused (kind : CallKind)
  | granted (kind : CallKind) (amount : UInt32) (inner : List Fate)

namespace Fate

mutual

/-- What all granted calls add to the word. -/
def total : Fate → Nat
  | .refused _ => 0
  | .granted kind amount inner => kind.added amount + totalAll inner

def totalAll : List Fate → Nat
  | [] => 0
  | first :: rest => first.total + totalAll rest

end

mutual

/-- The answer of a call that starts when the word is `value`. -/
def reply (value : UInt32) : Fate → CallResult
  | .refused kind => kind.refusal
  | .granted kind amount inner =>
    let before := value + UInt32.ofNat (kind.added amount)
    kind.answer (before + UInt32.ofNat (totalAll inner)) (replies before inner)

/-- The answers of calls that are made one after another. -/
def replies (value : UInt32) : List Fate → List CallResult
  | [] => []
  | first :: rest => first.reply value :: replies (value + UInt32.ofNat first.total) rest

end

end Fate

namespace Call

mutual

/-- What a call on a cell comes to, told from its entry and those of the calls inside it. -/
def fate : Call → Cell UInt32 → Fate
  | .call kind amount inner, c =>
    match kind.enter? c with
    | none => .refused kind
    | some entered =>
      .granted kind amount (fates inner
        { entered with value := entered.value + UInt32.ofNat (kind.added amount) })

/-- What calls come to that are made one after another. -/
def fates : List Call → Cell UInt32 → List Fate
  | [], _ => []
  | first :: rest, c => first.fate c :: fates rest (first.run c).2

end

mutual

/-- What a call comes to inside the granted calls `around` it, told from the nesting alone. -/
def nested (around : List CallKind) : Call → Fate
  | .call kind amount inner =>
    if kind.Admitted around then .granted kind amount (nestedAll (kind :: around) inner)
    else .refused kind

def nestedAll (around : List CallKind) : List Call → List Fate
  | [] => []
  | first :: rest => first.nested around :: nestedAll around rest

end

end Call

/-! ## What a call leaves behind -/

namespace Cell

variable {α : Type} {c : Cell α}

/-- Whoever leaves a cell does not look at its value. -/
theorem leave_set (value : α) : { c with value }.leave = { c.leave with value } := by
  cases c with
  | mk old occupancy =>
    rcases occupancy with _ | (_ | others) | _ <;> rfl

/-- Leaving takes back an entry of any kind. -/
theorem leave_of_entered {kind : CallKind} {entered : Cell α} (h : kind.enter? c = some entered) :
    entered.leave = c := by
  cases kind with
  | shared => exact leave_of_enterShared? h
  | exclusive | attempt | reentrant => exact leave_of_enter? h

end Cell

namespace Call

theorem add_ofNat_add (value : UInt32) (m n : Nat) :
    value + UInt32.ofNat m + UInt32.ofNat n = value + UInt32.ofNat (m + n) := by
  rw [UInt32.add_assoc, UInt32.ofNat_add]

mutual

/-- **A call is its fate**: the answer is the one of the fate, and all that the call leaves
behind is what the fate adds to the word. -/
theorem run_eq (call : Call) (c : Cell UInt32) :
    call.run c =
      ((call.fate c).reply c.value,
        { c with value := c.value + UInt32.ofNat (call.fate c).total }) := by
  cases call with
  | call kind amount inner =>
    rw [run_call, fate]
    cases hentered : kind.enter? c with
    | none =>
      show (kind.refusal, c) = (kind.refusal, { c with value := c.value + 0 })
      rw [UInt32.add_zero]
    | some entered =>
      have hleave := Cell.leave_of_entered hentered
      have hvalue : entered.value = c.value := by rw [← Cell.value_leave entered, hleave]
      have hinner := runAll_eq inner
        { entered with value := entered.value + UInt32.ofNat (kind.added amount) }
      simp only [hinner, Fate.reply, Fate.total]
      rw [Cell.leave_set, hleave, hvalue, add_ofNat_add]

theorem runAll_eq (calls : List Call) (c : Cell UInt32) :
    runAll calls c =
      (Fate.replies c.value (fates calls c),
        { c with value := c.value + UInt32.ofNat (Fate.totalAll (fates calls c)) }) := by
  cases calls with
  | nil =>
    show ([], c) = ([], { c with value := c.value + 0 })
    rw [UInt32.add_zero]
  | cons first rest =>
    have hfirst := run_eq first c
    have hrest := runAll_eq rest (first.run c).2
    simp only [runAll, hrest]
    simp only [fates, hfirst, Fate.replies, Fate.totalAll, add_ofNat_add]

end

end Call

/-! ## Who is inside -/

/-- The calls `around` are all that are inside a cell of this occupancy. -/
def Occupancy.Holds (around : List CallKind) : Occupancy → Prop
  | .free => around = []
  | .shared others => around = List.replicate (others + 1) .shared
  | .exclusive => ∃ outer ∈ around, outer ≠ .shared

/-- A call enters exactly when it is admitted, and then it is one more that is inside. -/
theorem Cell.enter?_of_holds {α : Type} {c : Cell α} {around : List CallKind}
    (h : c.occupancy.Holds around) (kind : CallKind) :
    (kind.Admitted around →
      ∃ entered, kind.enter? c = some entered ∧ entered.occupancy.Holds (kind :: around)) ∧
      (¬ kind.Admitted around → kind.enter? c = none) := by
  obtain ⟨value, occupancy⟩ := c
  cases occupancy with
  | free =>
    obtain rfl : around = [] := h
    cases kind with
    | shared => exact ⟨fun _ => ⟨_, rfl, rfl⟩, fun hn => absurd (by simp [CallKind.Admitted]) hn⟩
    | exclusive | attempt | reentrant =>
      exact ⟨fun _ => ⟨_, rfl, _, List.mem_cons_self, nofun⟩, fun hn => absurd rfl hn⟩
  | shared others =>
    obtain rfl : around = List.replicate (others + 1) .shared := h
    cases kind with
    | shared =>
      exact ⟨fun _ => ⟨_, rfl, rfl⟩, fun hn => absurd (fun _ => List.eq_of_mem_replicate) hn⟩
    | exclusive | attempt | reentrant => exact ⟨nofun, fun _ => rfl⟩
  | exclusive =>
    obtain ⟨outer, hmem, hne⟩ := h
    cases kind with
    | shared => exact ⟨fun hall => absurd (hall outer hmem) hne, fun _ => rfl⟩
    | exclusive | attempt | reentrant =>
      refine ⟨fun hnil => ?_, fun _ => rfl⟩
      obtain rfl : around = [] := hnil
      exact nomatch hmem

namespace Call

mutual

theorem fate_eq_nested (c : Cell UInt32) {around : List CallKind}
    (h : c.occupancy.Holds around) (call : Call) : call.fate c = call.nested around := by
  cases call with
  | call kind amount inner =>
    rw [fate, nested]
    obtain ⟨hgranted, hrefused⟩ := Cell.enter?_of_holds h kind
    by_cases hadmitted : kind.Admitted around
    · obtain ⟨entered, hentered, hholds⟩ := hgranted hadmitted
      rw [if_pos hadmitted, hentered, ← fates_eq_nestedAll
        { entered with value := entered.value + UInt32.ofNat (kind.added amount) } hholds inner]
    · rw [if_neg hadmitted, hrefused hadmitted]

theorem fates_eq_nestedAll (c : Cell UInt32) {around : List CallKind}
    (h : c.occupancy.Holds around) (calls : List Call) :
    fates calls c = nestedAll around calls := by
  cases calls with
  | nil => rfl
  | cons first rest =>
    -- whatever became of the first call, the same calls are inside as before
    have hafter : (first.run c).2.occupancy = c.occupancy := by rw [run_eq]
    rw [fates, nestedAll, fate_eq_nested c h first,
      fates_eq_nestedAll (first.run c).2 (hafter ▸ h) rest]

end

/-- **A cell admits calls by their nesting.** Whatever calls are made on a free cell, one after
another and inside each other, and whatever fails in them: each call is granted exactly when it is
admitted inside the granted calls around it, and a refused one does nothing. What the calls answer
follows from that, and afterwards the cell is free, and its word has grown by what the granted
exclusive calls add. -/
theorem runAll_nested (calls : List Call) (value : UInt32) :
    fates calls { value } = nestedAll [] calls ∧
      runAll calls { value } =
        (Fate.replies value (nestedAll [] calls),
          { value := value + UInt32.ofNat (Fate.totalAll (nestedAll [] calls))
            occupancy := .free }) := by
  have hfates : fates calls { value } = nestedAll [] calls :=
    fates_eq_nestedAll { value } rfl calls
  refine ⟨hfates, ?_⟩
  rw [runAll_eq, hfates]

/-- A call that fails midway keeps what it added, and whoever comes later is admitted. -/
example :
    (runAll [.call .reentrant 5 [.call .attempt 1 []],
      .call .shared 0 [.call .exclusive 1 [], .call .shared 0 []]] { value := 3 }).1 =
      [.failed, .finished 8 [.failed, .finished 8 []]] := by
  rfl

end Call

end ScatterGather
