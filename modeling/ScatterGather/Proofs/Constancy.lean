import ScatterGather.Proofs.Footprint
import ScatterGather.Proofs.Operations

/-!
# ScatterGather.Proofs.Constancy — what a stream keeps, whatever it is told

Channel, owner, settings, callback and the number of slots are settled before an operation and are
the same after it (`Stream.Kept`). No answer of the machine has a say in that, so it is shown of
driver code as such (`Script.Yields`), and holds on a scene as on any machine.
-/

namespace ScatterGather

open Script

namespace Stream

/-! ## Steps of operations -/

/-- A pool takes a block, or is full. -/
theorem yields_push (p : Pool) (source destination : Nat) (control : UInt32) (closeLoop : Bool) :
    (p.push source destination control closeLoop).Yields fun
      | none => p.queued = p.capacity
      | some pool => p.queued ≠ p.capacity ∧ pool = { p with queued := p.queued + 1 } := by
  unfold Pool.push
  split
  · next hfull => exact yields_done (by simpa [Pool.isFull] using hfull)
  · next hroom =>
    refine yields_bind fun _ => yields_bind fun _ => yields_bind fun _ => yields_bind fun _ => ?_
    refine yields_bind fun _ => yields_bind fun _ => yields_done ⟨?_, rfl⟩
    simpa [Pool.isFull] using hroom

theorem yields_releaseChannel (s : Stream) :
    s.releaseChannel.Yields fun s' => s' = { s with bound := false, stalled := none } :=
  yields_bind fun _ => yields_bind fun _ => yields_done rfl

/-! ## Operations and events -/

theorem yields_kept_append (s : Stream) (destination source size : Nat) :
    (s.append destination source size).Yields fun r => s.Kept r.2 := by
  unfold append
  cases s.checkBlock destination source size with
  | error e => exact yields_done (.refl s)
  | ok elements =>
    have hkept := s.kept_discardFinished
    refine (yields_push ..).bind fun pushed hpushed => ?_
    cases pushed with
    | none => exact yields_done hkept
    | some pool =>
      obtain ⟨-, rfl⟩ := hpushed
      exact yields_bind fun late => yields_bind fun _ =>
        yields_done ⟨hkept.channel, hkept.owner, hkept.config, hkept.callback, hkept.capacity⟩

theorem yields_kept_releaseChannel (s : Stream) : s.releaseChannel.Yields s.Kept :=
  (yields_releaseChannel s).mono fun _ hs' => by
    subst hs'
    exact ⟨rfl, rfl, rfl, rfl, rfl⟩

theorem Kept.inState {s s' : Stream} (h : s.Kept s') (state : StreamState) :
    s.Kept { s' with state } :=
  ⟨h.channel, h.owner, h.config, h.callback, h.capacity⟩

theorem yields_kept_enable (s : Stream) : s.enable.Yields fun r => s.Kept r.2 := by
  unfold enable
  split
  · exact yields_done (.refl s)
  · refine yields_bind fun granted => ?_
    cases granted with
    | error e => exact yields_done ((Kept.refl s).inState _)
    | ok _ =>
      refine yields_bind fun _ => yields_bind fun _ => yields_bind fun _ => yields_bind fun _ => ?_
      exact yields_done ⟨rfl, rfl, rfl, rfl, rfl⟩

theorem yields_kept_disable (s : Stream) : s.disable.Yields s.Kept := by
  unfold disable
  split
  · exact yields_done (.refl s)
  · exact (yields_kept_releaseChannel s).bind fun s' h =>
      yields_bind fun _ => yields_done (h.inState _)

theorem yields_kept_clear (s : Stream) : s.clear.Yields s.Kept := by
  have hrelease : s.releaseIfBound.Yields s.Kept := by
    unfold releaseIfBound
    split
    · exact yields_kept_releaseChannel s
    · exact yields_done (.refl s)
  exact hrelease.bind fun s' h =>
    yields_done ⟨h.channel, h.owner, h.config, h.callback, h.capacity⟩

theorem yields_kept_retirePassed (s : Stream) : s.retirePassed.Yields s.Kept := by
  unfold retirePassed
  split
  · exact yields_done (.refl s)
  · exact yields_bind fun passed => yields_done ⟨rfl, rfl, rfl, rfl, rfl⟩

theorem yields_kept_react (s : Stream) (event : TransferEvent) :
    (s.react event).Yields s.Kept := by
  cases event with
  | progress =>
    exact (yields_kept_retirePassed s).bind fun s' h => yields_done (h.inState _)
  | complete =>
    refine (yields_kept_retirePassed s).bind fun s' h => ?_
    split
    · exact yields_bind fun _ => yields_bind fun _ =>
        yields_done ⟨h.channel, h.owner, h.config, h.callback, h.capacity⟩
    · exact (yields_kept_releaseChannel s').bind fun s'' h' =>
        yields_done ((h.trans h').inState _)
  | busError =>
    exact yields_bind fun _ => (yields_kept_releaseChannel s).bind fun s' h =>
      yields_done (h.inState _)
  | timeout =>
    refine yields_bind fun _ => ?_
    split
    · exact (yields_kept_releaseChannel s).bind fun s' h => yields_done (h.inState _)
    · exact yields_bind fun _ => yields_done ((Kept.refl s).inState _)

theorem yields_kept_onInterrupt (s : Stream) (event : TransferEvent) :
    (s.onInterrupt event).Yields fun r => s.Kept r.2 := by
  unfold onInterrupt
  split
  · exact yields_done (.refl s)
  · exact (yields_kept_react s event).bind fun s' h => yields_bind fun _ => yields_done h

/-! ## On a scene -/

variable (s : Stream) (v : Scene)

theorem kept_append (destination source size : Nat) :
    s.Kept (v.exec (s.append destination source size)).1.2 :=
  (yields_kept_append s destination source size).run Scene.answer v

theorem kept_enable : s.Kept (v.exec s.enable).1.2 :=
  (yields_kept_enable s).run Scene.answer v

theorem kept_disable : s.Kept (v.exec s.disable).1 :=
  (yields_kept_disable s).run Scene.answer v

theorem kept_clear : s.Kept (v.exec s.clear).1 :=
  (yields_kept_clear s).run Scene.answer v

theorem kept_onInterrupt (event : TransferEvent) :
    s.Kept (v.exec (s.onInterrupt event)).1.2 :=
  (yields_kept_onInterrupt s event).run Scene.answer v

end Stream

end ScatterGather
