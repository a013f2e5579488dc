import ScatterGather.Bench
import ScatterGather.Proofs.Waking

/-!
# ScatterGather.Proofs.BoundedWait — how long a bounded wait lasts

A bounded wait reads the status of a stream, gives up if its delays add up to the timeout, and
otherwise lets one more delay pass. What others do during the delays is open: they may serve events,
empty the slot, or put another stream there. The wait itself only looks, so all that depends on them
is when the first status comes that is not busy.

The delays add up in a 32-bit word. Up to a timeout of 4294967290, the largest multiple of the
interval that the word holds, a wait gives up after the least number of delays that are as long as
the timeout. Beyond that the sum wraps before it gets there: `patience` is then about twice what it
should be, and without bound for the largest timeout, which is odd while the sum is always even.
`waitTimeout_ends` says how a wait ends in each case, and `Bench.wait_eq` that the waits of a bench
are such waits.
-/

namespace ScatterGather

namespace SlotScript

/-! ## The sum of the delays -/

/-- The sum that a wait has reached after so many delays. -/
def elapsed (delays : Nat) : UInt32 :=
  UInt32.ofNat (waitPollInterval * delays)

theorem elapsed_succ (delays : Nat) :
    elapsed (delays + 1) = elapsed delays + UInt32.ofNat waitPollInterval := by
  rw [elapsed, Nat.mul_succ, UInt32.ofNat_add, elapsed]

theorem toNat_elapsed (delays : Nat) :
    (elapsed delays).toNat = waitPollInterval * delays % 4294967296 :=
  UInt32.toNat_ofNat'

/-- The number of delays after which a wait gives up, if there is one. -/
def patience (timeout : UInt32) : Option Nat :=
  if timeout ≤ 4294967290 then
    some ((timeout.toNat + (waitPollInterval - 1)) / waitPollInterval)
  else if timeout ≤ 4294967294 then some 858993459
  else none

/-- After that many delays, and not before, the sum is as large as the timeout. -/
theorem elapsed_of_patience {timeout : UInt32} {bound : Nat} (h : patience timeout = some bound) :
    timeout ≤ elapsed bound ∧ ∀ delays < bound, elapsed delays < timeout := by
  simp only [UInt32.le_iff_toNat_le, UInt32.lt_iff_toNat_lt, toNat_elapsed]
  unfold patience at h
  unfold waitPollInterval at *
  by_cases hfits : timeout ≤ 4294967290
  · rw [if_pos hfits] at h
    have hfits : timeout.toNat ≤ 4294967290 := UInt32.le_iff_toNat_le.mp hfits
    obtain rfl := Option.some.inj h
    exact ⟨by omega, fun delays hlt => by omega⟩
  · rw [if_neg hfits] at h
    have hfits : ¬ timeout.toNat ≤ 4294967290 := fun hle => hfits (UInt32.le_iff_toNat_le.mpr hle)
    by_cases heven : timeout ≤ 4294967294
    · -- the first time around the sum stops short of the timeout, the second time it comes to
      -- 4294967294
      rw [if_pos heven] at h
      have heven : timeout.toNat ≤ 4294967294 := UInt32.le_iff_toNat_le.mp heven
      obtain rfl := Option.some.inj h
      refine ⟨by omega, fun delays hlt => ?_⟩
      obtain hfirst | hsecond := Nat.lt_or_ge delays 429496730
      · rw [Nat.mod_eq_of_lt (by omega)]
        omega
      · rw [Nat.mod_eq_sub_mod (by omega), Nat.mod_eq_of_lt (by omega)]
        omega
    · rw [if_neg heven] at h
      cases h

/-- An even sum never comes to the largest word. -/
theorem elapsed_of_impatience {timeout : UInt32} (h : patience timeout = none) (delays : Nat) :
    elapsed delays < timeout := by
  unfold patience at h
  by_cases hfits : timeout ≤ 4294967290
  · rw [if_pos hfits] at h
    cases h
  · rw [if_neg hfits] at h
    by_cases heven : timeout ≤ 4294967294
    · rw [if_pos heven] at h
      cases h
    · rw [UInt32.lt_iff_toNat_lt, toNat_elapsed]
      unfold waitPollInterval
      have heven : ¬ timeout.toNat ≤ 4294967294 := fun hle => heven (UInt32.le_iff_toNat_le.mpr hle)
      omega

/-! ## The loop -/

section Loop

variable {σ : Type} {status : σ → Option Status} {delay : σ → σ} {timeout : UInt32} {s : σ}

/-- The state after so many delays, if nothing else changes it. -/
def delayed (delay : σ → σ) (s : σ) : Nat → σ
  | 0 => s
  | delays + 1 => delay (delayed delay s delays)

/-- While the stream is busy and there is time left, a wait goes from one delay to the next. -/
theorem waitAmid_delayed {k : Nat} (hbusy : ∀ j < k, status (delayed delay s j) = some .busy)
    (htime : ∀ j < k, elapsed j < timeout) (polls : Nat) :
    waitAmid status delay timeout (polls + k) 0 s =
      waitAmid status delay timeout polls (elapsed k) (delayed delay s k) := by
  induction k generalizing polls with
  | zero => rfl
  | succ k ih =>
    have hnone : outcome (status (delayed delay s k)) = none :=
      outcome_eq_none.mpr (hbusy k (Nat.lt_succ_self k))
    have hleft : ¬ timeout ≤ elapsed k := UInt32.not_le.mpr (htime k (Nat.lt_succ_self k))
    have hbefore := ih (fun j hj => hbusy j (Nat.lt_succ_of_lt hj))
      (fun j hj => htime j (Nat.lt_succ_of_lt hj)) (polls + 1)
    rw [show polls + (k + 1) = polls + 1 + k by omega, hbefore, waitAmid, hnone]
    dsimp only
    rw [if_neg hleft, ← elapsed_succ]
    rfl

/-- A wait that is followed for no longer than that has no result yet. -/
theorem waitAmid_going {k : Nat} (hbusy : ∀ j < k, status (delayed delay s j) = some .busy)
    (htime : ∀ j < k, elapsed j < timeout) :
    waitAmid status delay timeout k 0 s = (none, delayed delay s k) := by
  have hgone := waitAmid_delayed hbusy htime 0
  rw [Nat.zero_add] at hgone
  rw [hgone, waitAmid]

/-- What a wait reports that ends when it sees this status. -/
def verdict : Option Status → Except Error Unit
  | none => .error (.io .invalidState)
  | some .busy => .error (.io .timeout)
  | some status => status.toResult

/-- A wait that has gone through so many delays ends when the stream is not busy or its time is
up. -/
theorem waitAmid_end {k : Nat} (hbusy : ∀ j < k, status (delayed delay s j) = some .busy)
    (htime : ∀ j < k, elapsed j < timeout)
    (hend : status (delayed delay s k) = some .busy → timeout ≤ elapsed k) (polls : Nat) :
    waitAmid status delay timeout polls 0 s =
      if polls ≤ k then (none, delayed delay s polls)
      else (some (verdict (status (delayed delay s k))), delayed delay s k) := by
  by_cases hle : polls ≤ k
  · rw [if_pos hle]
    exact waitAmid_going (fun j hj => hbusy j (Nat.lt_of_lt_of_le hj hle))
      fun j hj => htime j (Nat.lt_of_lt_of_le hj hle)
  · obtain ⟨rest, rfl⟩ : ∃ rest, polls = rest + 1 + k := ⟨polls - k - 1, by omega⟩
    rw [if_neg hle, waitAmid_delayed hbusy htime, waitAmid]
    cases hstatus : status (delayed delay s k) with
    | none => rfl
    | some status =>
      cases status with
      | busy =>
        have hup : timeout ≤ elapsed k := hend hstatus
        simp only [outcome, if_pos hup]
        rfl
      | _ => rfl

/-- There is a first status that is not busy, unless all are busy as far as one looks. -/
theorem exists_first_idle (seen : Nat → Option Status) (bound : Nat) :
    ∃ k ≤ bound, (∀ j < k, seen j = some .busy) ∧ (seen k = some .busy → k = bound) := by
  induction bound with
  | zero => exact ⟨0, Nat.le_refl 0, nofun, fun _ => rfl⟩
  | succ bound ih =>
    obtain ⟨k, hle, hbusy, hlast⟩ := ih
    by_cases hk : seen k = some .busy
    · obtain rfl := hlast hk
      refine ⟨k + 1, Nat.le_refl _, fun j hj => ?_, fun _ => rfl⟩
      obtain hlt | rfl := Nat.lt_succ_iff_lt_or_eq.mp hj
      · exact hbusy j hlt
      · exact hk
    · exact ⟨k, Nat.le_succ_of_le hle, hbusy, fun h => absurd h hk⟩

end Loop

/-! ## Waiting amid others -/

section Others

variable {σ : Type} (slot : σ → Slot) (others : (a : SlotAccess) → σ → a.Answer × σ)

/-- Answers with the status of a slot, and leaves all else to others. -/
def answerAmid : (a : SlotAccess) → σ → a.Answer × σ
  | .status, s => ((slot s).status, s)
  | .deliver event, s => others (.deliver event) s
  | .register task, s => others (.register task) s
  | .takeWaker, s => others .takeWaker s
  | .wake task, s => others (.wake task) s
  | .delay microseconds, s => others (.delay microseconds) s

/-- What others do during one delay of a wait. -/
def meanwhile (s : σ) : σ :=
  (others (.delay waitPollInterval) s).2

/-- A bounded wait that is followed for so many polls. -/
def waitFor (timeout : UInt32) (s : σ) (polls : Nat) : Option (Except Error Unit) × σ :=
  (waitTimeout timeout polls 0).run (answerAmid slot others) s

theorem waitFor_eq (timeout : UInt32) (s : σ) (polls : Nat) :
    waitFor slot others timeout s polls =
      waitAmid (fun s => (slot s).status) (meanwhile others) timeout polls 0 s :=
  run_waitTimeout (fun _ => rfl) timeout polls 0 s

/-- The status that a wait sees once so many delays have passed. -/
def seen (s : σ) (delays : Nat) : Option Status :=
  (slot (delayed (meanwhile others) s delays)).status

/-- A wait makes exactly so many delays and one poll more. Before the last poll it has seen nothing
but a busy stream, the last one decides what it reports, and whatever has changed has been changed
during the delays. -/
structure EndsAfter (timeout : UInt32) (s : σ) (delays : Nat) : Prop where
  busy : ∀ j < delays, seen slot others s j = some .busy
  course : ∀ polls, waitFor slot others timeout s polls =
    if polls ≤ delays then (none, delayed (meanwhile others) s polls)
    else (some (verdict (seen slot others s delays)), delayed (meanwhile others) s delays)

variable {slot others}

theorem endsAfter {timeout : UInt32} {s : σ} {delays : Nat}
    (hbusy : ∀ j < delays, seen slot others s j = some .busy)
    (htime : ∀ j < delays, elapsed j < timeout)
    (hend : seen slot others s delays = some .busy → timeout ≤ elapsed delays) :
    EndsAfter slot others timeout s delays where
  busy := hbusy
  course polls := by
    rw [waitFor_eq]
    exact waitAmid_end hbusy htime hend polls

/-- A wait makes one number of delays and no other. -/
theorem EndsAfter.le {timeout : UInt32} {s : σ} {delays delays' : Nat}
    (h : EndsAfter slot others timeout s delays) (h' : EndsAfter slot others timeout s delays') :
    delays ≤ delays' := by
  refine Nat.not_lt.mp fun hlt => ?_
  have hgoes := h.course delays
  rw [if_pos (Nat.le_refl _)] at hgoes
  have hends := h'.course delays
  rw [if_neg (Nat.not_le.mpr hlt), hgoes] at hends
  cases hends

/-- **How a bounded wait ends**, whatever others do during its delays. If its patience has a bound,
it ends with the first status that is not busy, or with a timeout at the bound, once all its polls
have seen a busy stream. Otherwise it ends with the first status that is not busy, or never. -/
theorem waitTimeout_ends (slot : σ → Slot) (others : (a : SlotAccess) → σ → a.Answer × σ)
    (timeout : UInt32) (s : σ) :
    match patience timeout with
    | some bound => ∃ delays ≤ bound, EndsAfter slot others timeout s delays ∧
        (seen slot others s delays = some .busy → delays = bound)
    | none =>
      (∃ delays, EndsAfter slot others timeout s delays ∧
        seen slot others s delays ≠ some .busy) ∨
      ∀ polls, seen slot others s polls = some .busy ∧
        waitFor slot others timeout s polls = (none, delayed (meanwhile others) s polls) := by
  cases hpatience : patience timeout with
  | some bound =>
    obtain ⟨hup, htime⟩ := elapsed_of_patience hpatience
    obtain ⟨delays, hle, hbusy, hlast⟩ := exists_first_idle (seen slot others s) bound
    refine ⟨delays, hle, endsAfter hbusy (fun j hj => htime j (Nat.lt_of_lt_of_le hj hle)) ?_,
      hlast⟩
    intro hdelays
    rw [hlast hdelays]
    exact hup
  | none =>
    have htime := elapsed_of_impatience hpatience
    by_cases hidle : ∃ n, seen slot others s n ≠ some .busy
    · obtain ⟨n, hn⟩ := hidle
      obtain ⟨delays, -, hbusy, hlast⟩ := exists_first_idle (seen slot others s) n
      have hdelays : seen slot others s delays ≠ some .busy := fun h => hn (hlast h ▸ h)
      exact .inl ⟨delays, endsAfter hbusy (fun j _ => htime j) fun h => absurd h hdelays, hdelays⟩
    · have hbusy (n : Nat) : seen slot others s n = some .busy :=
        Decidable.not_not.mp fun hn => hidle ⟨n, hn⟩
      refine .inr fun polls => ⟨hbusy polls, ?_⟩
      rw [waitFor_eq]
      exact waitAmid_going (fun j _ => hbusy j) fun j _ => htime j

end Others

end SlotScript

/-! ## Waiting on a bench -/

namespace Bench

/-- The slot at a place, or an empty one if there is none. -/
def slotAt (i : Nat) (p : Bench × Nat) : Slot :=
  (p.1.slot? i).getD {}

/-- The others on a bench are the hooks of a wait. -/
def answerHooks (i : Nat) (hooks : List Hook) :
    (a : SlotAccess) → Bench × Nat → a.Answer × (Bench × Nat)
  | .delay _, p => ((), runDelay i hooks p)
  | a, p => (a.vacant, p)

theorem status_slotAt (i : Nat) (p : Bench × Nat) :
    (slotAt i p).status = (p.1.slot? i).bind Slot.status := by
  unfold slotAt
  cases p.1.slot? i <;> rfl

/-- A wait on a bench is a bounded wait amid the hooks. -/
theorem wait_eq (b : Bench) (i : Nat) (timeout : UInt32) (hooks : List Hook) :
    b.wait i timeout hooks =
      let last := SlotScript.waitFor (slotAt i) (answerHooks i hooks) timeout (b, 0)
        SlotScript.pollLimit
      (.waited last.1 last.2.2, last.2.1) := by
  unfold wait
  generalize SlotScript.pollLimit = polls
  simp only [SlotScript.waitFor_eq, status_slotAt]
  rfl

end Bench

namespace SlotScript

/-! ## An event during a delay -/

/-- Others serve one event, during the delay of this number. -/
def serveDuring (number : Nat) (event : TransferEvent) :
    (a : SlotAccess) → Nat × Slot × Machine → a.Answer × (Nat × Slot × Machine)
  | .delay _, (delays, p) =>
    ((), delays + 1, if delays + 1 = number then ((onEvent event).run Slot.answer p).2 else p)
  | a, (delays, p) => ((Slot.answer a p).1, delays, (Slot.answer a p).2)

theorem delayed_serveDuring {number : Nat} (hnumber : 0 < number) (event : TransferEvent)
    (p : Slot × Machine) (delays : Nat) :
    delayed (meanwhile (serveDuring number event)) (0, p) delays =
      (delays, if delays < number then p else ((onEvent event).run Slot.answer p).2) := by
  induction delays with
  | zero => rw [if_pos hnumber, delayed]
  | succ delays ih =>
    rw [delayed, ih]
    show (delays + 1, if delays + 1 = number then _ else _) = _
    by_cases hnow : delays + 1 = number
    · rw [if_pos hnow, if_pos (by omega), if_neg (by omega)]
    · rw [if_neg hnow]
      congr 1
      by_cases hlater : delays + 1 < number
      · rw [if_pos (by omega), if_pos hlater]
      · rw [if_neg (by omega), if_neg hlater]

/-- A wait for a stream that runs into a bus error during one delay ends right after it, unless its
patience ends before. -/
theorem endsAfter_serveDuring {number : Nat} (hnumber : 0 < number) {p : Slot × Machine}
    (hbusy : p.1.status = some .busy)
    (herror : ((onEvent .busError).run Slot.answer p).2.1.status = some .error)
    (timeout : UInt32) (hpatience : ∀ bound ∈ patience timeout, number ≤ bound) :
    (∀ delays < number,
      seen (fun p => p.2.1) (serveDuring number .busError) (0, p) delays = some .busy) ∧
      seen (fun p => p.2.1) (serveDuring number .busError) (0, p) number = some .error ∧
      EndsAfter (fun p => p.2.1) (serveDuring number .busError) timeout (0, p) number := by
  have hbefore (delays : Nat) (hlt : delays < number) :
      seen (fun p => p.2.1) (serveDuring number .busError) (0, p) delays = some .busy := by
    rw [seen, delayed_serveDuring hnumber, if_pos hlt]
    exact hbusy
  have hafter : seen (fun p => p.2.1) (serveDuring number .busError) (0, p) number =
      some .error := by
    rw [seen, delayed_serveDuring hnumber, if_neg (Nat.lt_irrefl number)]
    exact herror
  refine ⟨hbefore, hafter, endsAfter hbefore ?_ fun h => ?_⟩
  · cases hbound : patience timeout with
    | some bound =>
      intro j hj
      exact (elapsed_of_patience hbound).2 j (Nat.lt_of_lt_of_le hj (hpatience bound hbound))
    | none => exact fun j _ => elapsed_of_impatience hbound j
  · rw [hafter] at h
    cases h

/-- A stream on a controller that has just been started, in a slot of its own: it is busy, and a bus
error will end that. -/
theorem exists_busy_slot :
    ∃ r, Machine.rig { controllers := #[{}] } 3 0 2 {} = .ok r ∧
      let live := r.run [.append 0 64 4, .enable]
      let p : Slot × Machine := ({ cell := { value := some live.stream } }, live.machine)
      p.1.status = some .busy ∧
        ((onEvent .busError).run Slot.answer p).2.1.status = some .error := by
  obtain ⟨r, hr⟩ : ∃ r, Machine.rig { controllers := #[{}] } 3 0 2 {} = .ok r := ⟨_, rfl⟩
  have hstatuses : ((Machine.rig { controllers := #[{}] } 3 0 2 {}).toOption.map fun r =>
      let live := r.run [.append 0 64 4, .enable]
      let p : Slot × Machine := ({ cell := { value := some live.stream } }, live.machine)
      (p.1.status, ((onEvent .busError).run Slot.answer p).2.1.status)) =
      some (some .busy, some .error) := by decide +kernel
  rw [hr] at hstatuses
  obtain ⟨hbusy, herror⟩ := Prod.mk.inj (Option.some.inj hstatuses)
  exact ⟨r, hr, hbusy, herror⟩

/-- With a timeout of 25 microseconds three delays are allowed; a bus error during the second ends
the wait there. -/
theorem waitTimeout_ends_early :
    ∃ r, Machine.rig { controllers := #[{}] } 3 0 2 {} = .ok r ∧
      let live := r.run [.append 0 64 4, .enable]
      let start : Nat × Slot × Machine :=
        (0, { cell := { value := some live.stream } }, live.machine)
      let others := serveDuring 2 .busError
      patience 25 = some 3 ∧ EndsAfter (fun p => p.2.1) others 25 start 2 ∧
        seen (fun p => p.2.1) others start 2 = some .error := by
  obtain ⟨r, hr, hbusy, herror⟩ := exists_busy_slot
  refine ⟨r, hr, ?_⟩
  intro live start others
  have hpatience : patience 25 = some 3 := by decide
  have hbound (bound : Nat) (hbound : bound ∈ patience 25) : 2 ≤ bound := by
    obtain rfl := Option.some.inj (hpatience.symm.trans hbound)
    decide
  obtain ⟨-, hlast, hserved⟩ :=
    endsAfter_serveDuring (by decide : 0 < 2) hbusy herror 25 hbound
  have hends := waitTimeout_ends (fun p => p.2.1) others 25 start
  rw [hpatience] at hends
  obtain ⟨delays, -, hends, -⟩ := hends
  obtain rfl : delays = 2 := Nat.le_antisymm (hends.le hserved) (hserved.le hends)
  exact ⟨hpatience, hends, hlast⟩

/-- **The largest timeout is never up.** A wait for a stream that is busy all along should end after
429496730 delays, when 4294967300 microseconds have passed. It does not: it goes on until a bus
error comes during the next delay, and reports that. -/
theorem wait_outlasts_timeout :
    ∃ r, Machine.rig { controllers := #[{}] } 3 0 2 {} = .ok r ∧
      let live := r.run [.append 0 64 4, .enable]
      let start : Nat × Slot × Machine :=
        (0, { cell := { value := some live.stream } }, live.machine)
      let others := serveDuring 429496731 .busError
      (∀ delays ≤ (4294967295 + 9) / 10,
        seen (fun p => p.2.1) others start delays = some .busy ∧
          ¬ EndsAfter (fun p => p.2.1) others 4294967295 start delays) ∧
        EndsAfter (fun p => p.2.1) others 4294967295 start 429496731 ∧
        verdict (seen (fun p => p.2.1) others start 429496731) = .error (.dma .busError) := by
  obtain ⟨r, hr, hbusy, herror⟩ := exists_busy_slot
  refine ⟨r, hr, ?_⟩
  intro live start others
  have hpatience : patience 4294967295 = none := by decide
  have hbound : ∀ bound ∈ patience 4294967295, 429496731 ≤ bound := by
    rw [hpatience]
    exact nofun
  obtain ⟨hbefore, hlast, hends⟩ :=
    endsAfter_serveDuring (by decide : 0 < 429496731) hbusy herror 4294967295 hbound
  refine ⟨fun delays hle => ⟨hbefore delays (by omega), fun hearly => ?_⟩, hends, ?_⟩
  · have hlong := hends.le hearly
    omega
  · rw [hlast]
    rfl

end SlotScript

end ScatterGather
