import ScatterGather.Bench.Object
import ScatterGather.Machine.Setup
import ScatterGather.Proofs.Footprint
import ScatterGather.Proofs.Standing

/-!
# ScatterGather.Proofs.Coherence — the fields of a stream fit together, whatever it is told

State, `bound` flag, stalled slot, cursors and template of a stream are written by different
operations, some of which end early. `Stream.Coherent` says how they fit together, and every
operation keeps it (`Coherent.script`), with any events at any time.

Nothing is assumed about the machine. A script `Yields` what its value always fulfils, whatever its
accesses answer, and `Script.serveAll` runs commands against anyone who answers: a controller as it
should be, one that lies, or one that answers each reading anew.
-/

namespace ScatterGather

namespace Script

variable {A : Type} {Answer : A → Type} {γ δ ρ σ : Type}

/-! ## Commands in a row -/

/-- Serves commands one after another. Whoever answers the accesses goes on from where it was. -/
def serveAll (handle : (a : A) → σ → Answer a × σ) (script : δ → γ → Script A Answer (ρ × δ)) :
    List γ → δ × σ → δ × σ
  | [], now => now
  | command :: rest, (d, t) =>
    let ((_, d), t) := (script d command).run handle t
    serveAll handle script rest (d, t)

/-- What every command keeps holds after any commands. -/
theorem serveAll_keeps {I : δ → Prop} {script : δ → γ → Script A Answer (ρ × δ)}
    (hstep : ∀ d command, I d → (script d command).Yields fun r => I r.2)
    (handle : (a : A) → σ → Answer a × σ) (commands : List γ) {d : δ} (h : I d) (t : σ) :
    I (serveAll handle script commands (d, t)).1 := by
  induction commands generalizing d t with
  | nil => exact h
  | cons command rest ih => exact ih ((hstep d command h).run handle t) _

end Script

/-- A machine that answers every reading as it likes, here from the number of accesses so far. It
grants every claim. -/
def Access.fickle : (a : Access) → Nat → a.Answer × Nat
  | .isActive, n => (n % 3 = 0, n + 1)
  | .isPending, n => (n % 2 = 0, n + 1)
  | .nextPointer, n => (if n % 3 = 0 then 0 else DescriptorTable.address (n % 4), n + 1)
  | .transferCount, n => (n * n, n + 1)
  | .bind .., n => (.ok (), n + 1)
  | .fetch _, n => ({ next := n }, n + 1)
  | .load _ length, n => (List.replicate length (UInt8.ofNat n), n + 1)
  | .start .., n | .halt, n | .pause, n | .resume, n | .release .., n => ((), n + 1)
  | .store .., n | .save .., n | .log _, n | .report _, n => ((), n + 1)

open Script

namespace Stream

variable {s : Stream}

/-! ## Coherent streams -/

/-- The fields of a stream fit together. -/
structure Coherent (s : Stream) : Prop where
  capacity_pos : 0 < s.pool.capacity
  head_lt : s.pool.head < s.pool.capacity
  queued_le : s.pool.queued ≤ s.pool.capacity
  busy : s.state = .busy → s.bound = true
  bound : s.bound = true →
    s.state = .busy ∨ s.state = .timeout ∧ s.config.timeoutPolicy = .restart
  idle : s.state = .idle → s.pool.queued = 0
  ready : s.state = .ready → s.pool.queued ≠ 0 ∧ s.bound = false
  unbound : s.bound = false → s.stalled = none
  circular : s.isCircular = true → s.pool.head = 0 ∧ s.stalled = none
  stalled : ∀ slot, s.stalled = some slot →
    slot < s.pool.capacity ∧ s.pool.offsetOf slot < s.pool.queued
  valid : s.config.settings.validate fifoSize = .ok ()
  template : s.template = s.config.settings.controlTemplate

/-- A stream that was made holds nothing yet. -/
theorem coherent_made {m : Machine} {channel : Channel} {capacity : Nat} {config : StreamConfig}
    (hcapacity : 0 < capacity) (hmade : (m.createStream channel capacity config).1 = .ok s) :
    s.Coherent := by
  unfold Machine.createStream at hmade
  split at hmade
  · cases hmade
  · next hadmissible =>
    obtain rfl := Except.ok.inj hmade
    exact
      { capacity_pos := hcapacity
        head_lt := hcapacity
        queued_le := Nat.zero_le _
        busy := fun h => nomatch h
        bound := fun h => nomatch h
        idle := fun _ => rfl
        ready := fun h => nomatch h
        unbound := fun _ => rfl
        circular := fun _ => ⟨rfl, rfl⟩
        stalled := fun _ h => nomatch h
        valid := by
          unfold admissible at hadmissible
          split at hadmissible
          · cases hadmissible
          · exact hadmissible
        template := rfl }

namespace Coherent

/-- A bound stream is neither idle nor ready. -/
theorem active (h : s.Coherent) (hb : s.bound = true) : s.state ≠ .idle ∧ s.state ≠ .ready := by
  rcases h.bound hb with hs | ⟨hs, -⟩ <;> rw [hs] <;> decide

/-! ## States that a stream is put into -/

/-- A stream that gives back its channel comes to rest in a final state. -/
theorem released (h : s.Coherent) {state : StreamState} (hstate : state.isFinal = true) :
    ({ s with bound := false, stalled := none, state } : Stream).Coherent :=
  { h with
    busy := by rintro rfl; cases hstate
    bound := fun hb => nomatch hb
    idle := by rintro rfl; cases hstate
    ready := by rintro rfl; cases hstate
    unbound := fun _ => rfl
    circular := fun hc => ⟨(h.circular hc).1, rfl⟩
    stalled := fun _ hslot => nomatch hslot }

/-- A stream that sets its channel to the head is busy, and nothing is stalled any more. -/
theorem started (h : s.Coherent) :
    ({ s with bound := true, stalled := none, state := .busy } : Stream).Coherent :=
  { h with
    busy := fun _ => rfl
    bound := fun _ => .inl rfl
    idle := fun hidle => nomatch hidle
    ready := fun hready => nomatch hready
    unbound := fun _ => rfl
    circular := fun hc => ⟨(h.circular hc).1, rfl⟩
    stalled := fun _ hslot => nomatch hslot }

/-- A bound stream may change between the states of a bound stream. -/
theorem inState (h : s.Coherent) (hb : s.bound = true) {state : StreamState}
    (hstate : state = .busy ∨ state = .timeout ∧ s.config.timeoutPolicy = .restart) :
    ({ s with state } : Stream).Coherent :=
  { h with
    busy := fun _ => hb
    bound := fun _ => hstate
    idle := by rintro rfl; simp at hstate
    ready := by rintro rfl; simp at hstate }

/-! ## Operations -/

theorem configure (h : s.Coherent) (settings : TransferSettings) :
    (s.configure settings).2.Coherent := by
  unfold Stream.configure
  split
  · exact h
  · split
    · exact h
    · next hvalid => exact { h with valid := hvalid, template := rfl }

theorem setCallback (h : s.Coherent) (callback : Option Callback) :
    (s.setCallback callback).Yields Coherent :=
  yields_bind fun _ => yields_done { h with }

theorem discardFinished (h : s.Coherent) : s.discardFinished.Coherent := by
  unfold Stream.discardFinished
  split
  · next hfinished =>
    obtain ⟨hb, hfinal⟩ : s.bound = false ∧ s.state.isFinal = true := by simpa using hfinished
    exact
      { h with
        head_lt := h.capacity_pos
        queued_le := Nat.zero_le _
        idle := fun _ => rfl
        ready := fun hready => by rw [hready] at hfinal; cases hfinal
        unbound := fun _ => rfl
        circular := fun _ => ⟨rfl, rfl⟩
        stalled := fun _ hslot => nomatch hslot }
  · exact h

/-- One block more at the tail. If it came too late, it is the tail that is stalled. -/
theorem appended (h : s.Coherent) (hroom : s.pool.queued < s.pool.capacity) {late : Bool}
    (hlate : late = true → s.bound = true ∧ s.isCircular = false) :
    ({ s with
        pool := { s.pool with queued := s.pool.queued + 1 }
        stalled := if late then some s.pool.tail else s.stalled
        state := if s.bound then s.state else .ready } : Stream).Coherent where
  capacity_pos := h.capacity_pos
  head_lt := h.head_lt
  queued_le := hroom
  busy hbusy := by
    by_cases hb : s.bound = true
    · exact hb
    · simp [hb] at hbusy
  bound hb := by
    have hb : s.bound = true := hb
    simpa [hb] using h.bound hb
  idle hidle := by
    -- a bound stream is not idle, and one that is not bound is ready
    by_cases hb : s.bound = true
    · exact absurd (by simpa [hb] using hidle) (h.active hb).1
    · simp [hb] at hidle
  ready hready := by
    refine ⟨Nat.succ_ne_zero _, ?_⟩
    by_cases hb : s.bound = true
    · exact absurd (by simpa [hb] using hready) (h.active hb).2
    · exact Bool.eq_false_iff.mpr hb
  unbound hb := by
    cases late
    · exact h.unbound hb
    · exact nomatch (hlate rfl).1.symm.trans hb
  circular hc := by
    refine ⟨(h.circular hc).1, ?_⟩
    cases late
    · exact (h.circular hc).2
    · exact nomatch (hlate rfl).2.symm.trans hc
  stalled slot hslot := by
    cases late
    · obtain ⟨hlt, hqueued⟩ := h.stalled slot hslot
      exact ⟨hlt, Nat.lt_succ_of_lt hqueued⟩
    · obtain rfl : s.pool.tail = slot := Option.some.inj hslot
      refine ⟨Pool.slotAt_lt h.capacity_pos _, Nat.lt_succ_of_le (Nat.le_of_eq ?_)⟩
      exact Pool.offsetOf_slotAt h.head_lt hroom
  valid := h.valid
  template := h.template

end Coherent

/-- Only a one-shot chain that runs is linked to too late. -/
theorem yields_linkedTooLate (s : Stream) :
    s.linkedTooLate.Yields fun late => late = true → s.bound = true ∧ s.isCircular = false := by
  unfold linkedTooLate
  split
  · next hrun => exact (yields_any _).mono fun _ _ _ => by simp_all
  · exact yields_done fun hlate => nomatch hlate

theorem Coherent.append (h : s.Coherent) (destination source size : Nat) :
    (s.append destination source size).Yields fun r => r.2.Coherent := by
  unfold Stream.append
  split
  · exact yields_done h
  · have h := h.discardFinished
    refine (yields_push ..).bind fun pushed hpushed => ?_
    cases pushed with
    | none => exact yields_done h
    | some pool =>
      obtain ⟨hroom, rfl⟩ := hpushed
      refine (yields_linkedTooLate _).bind fun late hlate => yields_bind fun _ => yields_done ?_
      exact h.appended (Nat.lt_of_le_of_ne h.queued_le hroom) hlate

/-- A claim that is refused leaves the stream in the error state. -/
theorem Coherent.enable (h : s.Coherent) : s.enable.Yields fun r => r.2.Coherent := by
  unfold Stream.enable
  split
  · exact yields_done h
  · next hrefused =>
    have hb : s.bound = false := by
      simp only [Bool.or_eq_true, not_or, Bool.not_eq_true] at hrefused
      exact hrefused.1
    refine yields_bind fun granted => ?_
    cases granted with
    | error e =>
      have hreleased :
          ({ s with bound := false, stalled := none, state := .error } : Stream).Coherent :=
        h.released rfl
      rw [← hb, ← h.unbound hb] at hreleased
      exact yields_done hreleased
    | ok _ =>
      refine yields_bind fun _ => yields_bind fun _ => yields_bind fun _ => yields_bind fun _ => ?_
      exact yields_done h.started

theorem Coherent.disable (h : s.Coherent) : s.disable.Yields Coherent := by
  unfold Stream.disable
  split
  · exact yields_done h
  · next hbound =>
    have hb : s.bound = true := by simpa using hbound
    refine (yields_releaseChannel s).bind fun s' hs' => yields_bind fun _ => yields_done ?_
    subst hs'
    -- a bound stream is busy or timed out, so its state becomes final
    have hactive : s.state = .busy ∨ s.state = .timeout := (h.bound hb).imp_right And.left
    rw [if_pos hactive]
    exact h.released rfl

theorem Coherent.clear (h : s.Coherent) : s.clear.Yields Coherent := by
  have hempty (s' : Stream) (hs' : s' = { s with bound := false, stalled := none }) :
      ({ s' with pool := s'.pool.reset, state := .idle } : Stream).Coherent := by
    subst hs'
    exact
      { h with
        head_lt := h.capacity_pos
        queued_le := Nat.zero_le _
        busy := fun hbusy => nomatch hbusy
        bound := fun hb => nomatch hb
        idle := fun _ => rfl
        ready := fun hready => nomatch hready
        unbound := fun _ => rfl
        circular := fun _ => ⟨rfl, rfl⟩
        stalled := fun _ hslot => nomatch hslot }
  unfold Stream.clear releaseIfBound
  split
  · exact (yields_releaseChannel s).bind fun s' hs' => yields_done (hempty s' hs')
  · next hb =>
    have hb : s.bound = false := Bool.eq_false_iff.mpr hb
    exact yields_done (hempty s (by rw [← h.unbound hb, ← hb]))

/-! ## Events -/

/-- **The position never lies behind what the controller can reach**, whatever it answers. -/
theorem yields_executingOffset (s : Stream) : s.executingOffset.Yields (· ≤ s.reachable) := by
  unfold executingOffset
  split
  · exact yields_done (Nat.zero_le _)
  · refine yields_bind fun next => ?_
    split
    · exact yields_done (Nat.le_trans (Nat.min_le_right ..) (Nat.sub_le ..))
    · refine yields_bind fun active => yields_done ?_
      split
      · exact Nat.sub_le ..
      · exact Nat.le_refl _

theorem yields_executingOffset_le (s : Stream) : s.executingOffset.Yields (· ≤ s.pool.queued) :=
  (yields_executingOffset s).mono fun _ h => Nat.le_trans h reachable_le

/-- Blocks in front of a stalled one are all that can be retired, so it stays queued. -/
theorem Coherent.stalled_retire (h : s.Coherent) {passed slot : Nat} (hp : passed ≤ s.reachable)
    (hslot : s.stalled = some slot) :
    (s.pool.retire passed).offsetOf slot < (s.pool.retire passed).queued := by
  obtain ⟨hlt, hqueued⟩ := h.stalled slot hslot
  have hle : passed ≤ s.pool.queued := Nat.le_trans hp reachable_le
  rw [reachable_of_some hslot hqueued] at hp
  rw [Pool.offsetOf_retire h.head_lt hle hlt hp, Pool.queued_retire hle]
  omega

theorem Coherent.retire (h : s.Coherent) (hb : s.bound = true) (hm : s.isCircular = false)
    {passed : Nat} (hp : passed ≤ s.reachable) :
    ({ s with pool := s.pool.retire passed } : Stream).Coherent :=
  { h with
    head_lt := Nat.mod_lt _ h.capacity_pos
    queued_le := Nat.le_trans (Nat.sub_le ..) h.queued_le
    idle := fun hidle => absurd hidle (h.active hb).1
    ready := fun hready => absurd hready (h.active hb).2
    circular := fun hc => nomatch hm.symm.trans hc
    stalled := fun slot hslot => ⟨(h.stalled slot hslot).1, h.stalled_retire hp hslot⟩ }

theorem Coherent.retirePassed (h : s.Coherent) (hb : s.bound = true) :
    s.retirePassed.Yields fun s' => s'.Coherent ∧ s'.bound = true := by
  unfold Stream.retirePassed
  split
  · exact yields_done ⟨h, hb⟩
  · next hm =>
    refine (yields_executingOffset s).bind fun passed hp => yields_done ⟨?_, hb⟩
    exact h.retire hb (Bool.eq_false_iff.mpr hm) hp

theorem Coherent.onComplete (h : s.Coherent) (hb : s.bound = true) :
    s.onComplete.Yields Coherent := by
  refine (h.retirePassed hb).bind fun s' ⟨h, hb⟩ => ?_
  split
  · have hstarted := h.started
    rw [← hb] at hstarted
    exact yields_bind fun _ => yields_bind fun _ => yields_done hstarted
  · refine (yields_releaseChannel s').bind fun s'' hs'' => yields_done ?_
    subst hs''
    exact h.released rfl

theorem Coherent.react (h : s.Coherent) (hb : s.bound = true) (event : TransferEvent) :
    (s.react event).Yields Coherent := by
  cases event with
  | progress =>
    exact (h.retirePassed hb).bind fun s' ⟨h, hb⟩ => yields_done (h.inState hb (.inl rfl))
  | complete => exact h.onComplete hb
  | busError =>
    refine yields_bind fun _ => (yields_releaseChannel s).bind fun s' hs' => yields_done ?_
    subst hs'
    exact h.released rfl
  | timeout =>
    refine yields_bind fun _ => ?_
    split
    · refine (yields_releaseChannel s).bind fun s' hs' => yields_done ?_
      subst hs'
      exact h.released rfl
    · next hpolicy =>
      exact yields_bind fun _ => yields_done (h.inState hb (.inr ⟨rfl, hpolicy⟩))

theorem Coherent.onInterrupt (h : s.Coherent) (event : TransferEvent) :
    (s.onInterrupt event).Yields fun r => r.2.Coherent := by
  unfold Stream.onInterrupt
  split
  · exact yields_done h
  · next hbound =>
    have hb : s.bound = true := by simpa using hbound
    exact (h.react hb event).bind fun s' h => yields_bind fun _ => yields_done h

/-! ## Commands -/

/-- Every command keeps a stream coherent, whatever the machine answers. -/
theorem Coherent.script (h : s.Coherent) (label : Nat) (command : Bench.StreamCommand) :
    (command.script s label).Yields fun r => r.2.Coherent := by
  cases command with
  | append destination source size =>
    exact (h.append destination source size).bind fun _ h => yields_done h
  | enable => exact h.enable.bind fun _ h => yields_done h
  | disable => exact h.disable.bind fun _ h => yields_done h
  | clear => exact h.clear.bind fun _ h => yields_done h
  | configure settings => exact yields_done (h.configure settings)
  | callback on => exact (h.setCallback _).bind fun _ h => yields_done h
  | interrupt event => exact (h.onInterrupt event).bind fun _ h => yields_done h
  | residue => exact yields_bind fun _ => yields_done h
  | queued => exact yields_bind fun _ => yields_done h
  | info => exact yields_done h
  | text => exact yields_done h

/-- Serves a stream any commands; each installs its callback under a label of its own. -/
def serve {σ : Type} (handle : (a : Access) → σ → a.Answer × σ)
    (commands : List (Nat × Bench.StreamCommand)) (s : Stream) (t : σ) : Stream × σ :=
  Script.serveAll handle (fun s c => c.2.script s c.1) commands (s, t)

/-- **The fields of a stream stay coherent.** After any commands, with any events among them and
whatever the machine answers, state, `bound` flag, stalled slot, cursors and template of a stream
fit together. -/
theorem coherent_serve {m : Machine} {channel : Channel} {capacity : Nat} {config : StreamConfig}
    {s : Stream} (hcapacity : 0 < capacity)
    (hmade : (m.createStream channel capacity config).1 = .ok s) {σ : Type}
    (handle : (a : Access) → σ → a.Answer × σ) (commands : List (Nat × Bench.StreamCommand))
    (t : σ) : (s.serve handle commands t).1.Coherent :=
  Script.serveAll_keeps (fun _ c h => h.script c.1 c.2) handle commands
    (coherent_made hcapacity hmade) t

/-- A machine that answers as it likes makes a chain wrap, links a block too late and times out. -/
theorem coherent_serve_fickle :
    ∃ s, (Machine.createStream {} ⟨3, .controller 0⟩ 3 {}).1 = .ok s ∧
      let s' := (s.serve Access.fickle
        [(0, .append 0 64 8), (0, .append 8 64 8), (0, .enable), (0, .interrupt .progress),
          (0, .append 16 64 8), (0, .append 24 64 8), (0, .interrupt .timeout)] 0).1
      s'.Coherent ∧ s'.bound = true ∧ s'.state = .timeout ∧ s'.stalled = some 0 := by
  obtain ⟨s, hmade⟩ : ∃ s, (Machine.createStream {} ⟨3, .controller 0⟩ 3 {}).1 = .ok s := ⟨_, rfl⟩
  refine ⟨s, hmade, coherent_serve (by decide) hmade Access.fickle _ 0, ?_⟩
  obtain rfl := Except.ok.inj hmade
  decide +kernel

end Stream

end ScatterGather
