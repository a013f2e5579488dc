import ScatterGather.Proofs.Tending

/-!
# ScatterGather.Proofs.PumpTending — pumps touch the machine through their streams

Beside the operations of its stream a pump makes calm accesses only, and changes books of its own.
Its commands are therefore as harmless to other streams as commands to its stream.
-/

open ScatterGather.Stream

namespace ScatterGather

/-! ## Transmit pumps -/

/-- Bytes are put into the cells of a ring by accesses of one kind, if each chunk is. -/
theorem Ring.uses_fill {P : Access → Prop} (r : Ring)
    (save : Nat → List UInt8 → DriverScript Unit)
    (hsave : ∀ start chunk, (save start chunk).Uses P fun _ => True)
    (data : List UInt8) : (r.fill save data).Uses P fun _ => True := by
  -- every chunk takes at least one byte off the data
  induction hlength : data.length using Nat.strongRecOn generalizing data r with
  | ind n ih =>
    cases data with
    | nil =>
      rw [fill]
      exact .done trivial
    | cons value rest =>
      rw [fill]
      split
      · exact .done trivial
      · refine (hsave _ _).bind fun _ _ => ?_
        refine (ih _ ?_ _ _ rfl).bind fun _ _ => .done trivial
        simp only [← hlength, List.length_drop, List.length_cons]
        omega

namespace TransmitPump

variable {p : TransmitPump}

theorem tends_startRun (p : TransmitPump) :
    p.stream.Tends p.startRun (·.2.stream) fun _ => True := by
  apply Tends.bind (tends_append _ _ _)
  rintro ⟨appended, stream⟩ _
  cases appended with
  | error e => exact tends_pure (.refl stream) trivial
  | ok u =>
    apply Tends.bind tends_enable
    rintro ⟨enabled, stream⟩ _
    cases enabled <;> exact tends_pure (.refl stream) trivial

theorem tends_kick (p : TransmitPump) : p.stream.Tends p.kick (·.stream) fun _ => True := by
  apply Tends.bind p.tends_startRun
  rintro ⟨started, p⟩ _
  cases started with
  | ok u => exact tends_pure (.refl p.stream) trivial
  | error e =>
    apply Tends.bind (tends_perform (.log _) trivial)
    intro _ _
    exact tends_pure (.refl p.stream) trivial

theorem tends_write (data : List UInt8) :
    p.stream.Tends (p.write data) (·.2.stream) fun _ => True := by
  have hfill := p.ring.uses_fill (P := Access.Calm)
    (fun start chunk => perform (.save (p.storage + start) chunk))
    (fun _ _ => uses_perform (.save _ _) trivial) data
  apply Tends.bind (tends_calm hfill)
  rintro ⟨count, ring⟩ _
  show p.stream.Tends (if _ then _ else _) _ _
  split
  · apply Tends.bind (tends_kick { p with ring })
    intro p _
    exact tends_pure (.refl p.stream) trivial
  · exact tends_pure (.refl p.stream) trivial

theorem uses_notify {P : Access → Prop} (p : TransmitPump)
    (hreport : ∀ label, P (.report (.pump label))) : p.notify.Uses P fun _ => True := by
  unfold notify
  split
  · exact uses_perform (.report _) (hreport _)
  · exact .done trivial

theorem calm_notify (p : TransmitPump) : p.notify.Uses Access.Calm fun _ => True :=
  p.uses_notify fun _ => trivial

theorem tends_onInterrupt (event : TransferEvent) :
    p.stream.Tends (p.onInterrupt event) (·.2.stream) fun _ => True := by
  apply Tends.bind (Stream.tends_onInterrupt event)
  rintro ⟨result, stream⟩ _
  cases result with
  | none => exact tends_pure (.refl stream) trivial
  | some status =>
    show stream.Tends (if _ then _ else _) _ _
    split
    · exact tends_pure (.refl stream) trivial
    · generalize (if status = .error then p.ring else p.ring.abandon p.inFlight) = ring
      show stream.Tends (if ring.isEmpty then _ else _) _ _
      split
      · apply Tends.bind (tends_calm (calm_notify _))
        intro _ _
        exact tends_pure (.refl stream) trivial
      · apply Tends.bind (tends_kick { p with stream, ring, inFlight := 0 })
        intro p _
        exact tends_pure (.refl p.stream) trivial

end TransmitPump

/-- **Every command to a transmit pump** does to the machine no more than its stream may. -/
theorem Bench.TransmitCommand.tends (p : TransmitPump) (label : Nat)
    (command : Bench.TransmitCommand) :
    p.stream.Tends (command.script p label) (·.2.stream) fun _ => True := by
  cases command with
  | write data =>
    exact (TransmitPump.tends_write data).bind fun _ _ => tends_pure (.refl _) trivial
  | interrupt event =>
    exact (TransmitPump.tends_onInterrupt event).bind fun _ _ => tends_pure (.refl _) trivial
  | callback on => exact tends_pure (.refl _) trivial
  | peek offset =>
    exact (tends_perform (.load _ _) trivial).bind fun _ _ => tends_pure (.refl _) trivial
  | residue => exact tends_residue.bind fun _ _ => tends_pure (.refl _) trivial
  | info => exact tends_pure (.refl _) trivial

/-! ## Receive pumps -/

namespace ReceivePump

variable {p : ReceivePump}

theorem tends_start : p.stream.Tends p.start (·.2.stream) fun _ => True := by
  apply Tends.bind tends_clear
  intro stream _
  apply Tends.bind (tends_append _ _ _)
  rintro ⟨first, stream⟩ _
  cases first with
  | error e => exact tends_pure (.refl stream) trivial
  | ok u =>
    apply Tends.bind (tends_append _ _ _)
    rintro ⟨second, stream⟩ _
    cases second with
    | error e => exact tends_pure (.refl stream) trivial
    | ok u =>
      apply Tends.bind tends_enable
      rintro ⟨enabled, stream⟩ _
      exact tends_pure (.refl stream) trivial

theorem tends_stop : p.stream.Tends p.stop (·.stream) fun _ => True :=
  tends_disable.bind fun _ _ => tends_pure (.refl _) trivial

theorem calm_executingHalf (p : ReceivePump) : p.executingHalf.Uses Access.Calm fun _ => True :=
  p.stream.calm_queued.bind fun _ _ => .done trivial

theorem uses_notify {P : Access → Prop} (p : ReceivePump)
    (hreport : ∀ label, P (.report (.pump label))) : p.notify.Uses P fun _ => True := by
  unfold notify
  split
  · exact uses_perform (.report _) (hreport _)
  · exact .done trivial

theorem calm_notify (p : ReceivePump) : p.notify.Uses Access.Calm fun _ => True :=
  p.uses_notify fun _ => trivial

/-- Staged bytes are moved without the stream. -/
theorem calm_pushStaged (p : ReceivePump) (upTo : Nat) :
    (p.pushStaged upTo).Uses Access.Calm fun r => r.2.stream = p.stream := by
  unfold pushStaged
  split
  · exact .done rfl
  · refine .bind (uses_perform (.load _ _) trivial) fun data _ => ?_
    exact .bind (.when _ (calm_notify _)) fun _ _ => .done rfl

theorem tends_pushStaged (upTo : Nat) :
    p.stream.Tends (p.pushStaged upTo) (fun _ => p.stream) fun r => r.2.stream = p.stream :=
  tends_calm (p.calm_pushStaged upTo)

theorem tends_onInterrupt (event : TransferEvent) :
    p.stream.Tends (p.onInterrupt event) (·.2.stream) fun _ => True := by
  apply Tends.bind (Stream.tends_onInterrupt event)
  rintro ⟨result, stream⟩ _
  cases result with
  | none => exact tends_pure (.refl stream) trivial
  | some status =>
    show stream.Tends (if _ then _ else _) _ _
    split
    · apply Tends.bind (tends_calm (calm_executingHalf _))
      intro half _
      apply Tends.bind (tends_pushStaged (p := { p with stream }) _)
      rintro ⟨_, p'⟩ hp
      have hp : p'.stream = stream := hp
      exact tends_pure (hp ▸ .refl stream) trivial
    · exact tends_pure (.refl stream) trivial

theorem tends_onIdle : p.stream.Tends p.onIdle (·.2.stream) fun _ => True := by
  unfold onIdle
  split
  · exact tends_pure (.refl _) trivial
  · apply Tends.bind (tends_calm p.calm_executingHalf)
    intro half _
    apply Tends.bind tends_residue
    intro residue _
    cases residue with
    | error e => exact tends_pure (.refl _) trivial
    | ok residue =>
      apply Tends.bind (tends_calm p.calm_executingHalf)
      intro again _
      split
      · exact tends_pure (.refl _) trivial
      · apply Tends.bind (tends_pushStaged _)
        rintro ⟨count, p'⟩ hp
        have hp : p'.stream = p.stream := hp
        exact tends_pure (hp ▸ .refl p.stream) trivial

end ReceivePump

/-- **Every command to a receive pump** does to the machine no more than its stream may. -/
theorem Bench.ReceiveCommand.tends (p : ReceivePump) (label : Nat)
    (command : Bench.ReceiveCommand) :
    p.stream.Tends (command.script p label) (·.2.stream) fun _ => True := by
  cases command with
  | start => exact ReceivePump.tends_start.bind fun _ _ => tends_pure (.refl _) trivial
  | stop => exact ReceivePump.tends_stop.bind fun _ _ => tends_pure (.refl _) trivial
  | idle => exact ReceivePump.tends_onIdle.bind fun _ _ => tends_pure (.refl _) trivial
  | read buffer => exact tends_pure (.refl _) trivial
  | interrupt event =>
    exact (ReceivePump.tends_onInterrupt event).bind fun _ _ => tends_pure (.refl _) trivial
  | callback on => exact tends_pure (.refl _) trivial
  | peek offset => exact tends_pure (.refl _) trivial
  | residue => exact tends_residue.bind fun _ _ => tends_pure (.refl _) trivial
  | info => exact tends_pure (.refl _) trivial

end ScatterGather
