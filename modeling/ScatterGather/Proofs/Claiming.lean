import ScatterGather.Proofs.PumpTending

/-!
# ScatterGather.Proofs.Claiming — no claim, no start

A stream that does not hold its channel has no business with the controller. All its operations but
`enable` are quiet then, whatever their accesses answer: they neither start nor halt (`Script.Uses`
with `Access.Quiet`). `enable`, and with it the pumps, may start the controller, but only after the
stream's own claim to its own channel was granted in the same piece of code (`ClaimsFirst`).
-/

namespace ScatterGather

/-- No start and no halt comes before an owner was granted a channel. -/
inductive ClaimsFirst (number : Nat) (owner : OwnerId) {α : Type} : DriverScript α → Prop
  | done (value : α) : ClaimsFirst number owner (.done value)
  | claim {next : Except Error Unit → DriverScript α}
      (refused : ∀ e, ClaimsFirst number owner (next (.error e))) :
      ClaimsFirst number owner (.ask (.bind number owner) next)
  | other {a : Access} {next : a.Answer → DriverScript α} (h : a.Quiet)
      (rest : ∀ answer, ClaimsFirst number owner (next answer)) :
      ClaimsFirst number owner (.ask a next)

section ClaimsFirst

variable {number : Nat} {owner : OwnerId} {α β : Type} {x : DriverScript α}
  {f : α → DriverScript β} {Q : α → Prop}

theorem ClaimsFirst.bind (hx : ClaimsFirst number owner x)
    (hf : ∀ value, ClaimsFirst number owner (f value)) : ClaimsFirst number owner (x >>= f) := by
  induction hx with
  | done value => exact hf value
  | claim _ ih => exact .claim ih
  | other h _ ih => exact .other h ih

namespace Script.Uses

/-- Quiet code comes before anything that claims first. -/
theorem andThen (hx : x.Uses Access.Quiet Q)
    (hf : ∀ value, Q value → ClaimsFirst number owner (f value)) :
    ClaimsFirst number owner (x >>= f) := by
  induction hx with
  | done h => exact hf _ h
  | ask h _ ih => exact .other h ih

theorem claimsFirst (hx : x.Uses Access.Quiet Q) : ClaimsFirst number owner x := by
  induction hx with
  | done _ => exact .done _
  | ask h _ ih => exact .other h ih

theorem ofCalm (hx : x.Uses Access.Calm Q) : x.Uses Access.Quiet Q :=
  hx.mono (fun _ => Access.Calm.quiet) fun _ h => h

theorem ofTabular (hx : x.Uses Access.Tabular Q) : x.Uses Access.Quiet Q :=
  hx.mono (fun _ => Access.Tabular.quiet) fun _ h => h

end Script.Uses

end ClaimsFirst

/-! ## Streams -/

namespace Stream

variable {s : Stream}

/-- A stream that does not hold its channel, and is the same owner of the same channel. -/
def Idles (s s' : Stream) : Prop :=
  s'.bound = false ∧ s'.channel = s.channel ∧ s'.owner = s.owner

variable (hb : s.bound = false)

include hb

theorem quiet_setCallback (callback : Option Callback) :
    (s.setCallback callback).Uses Access.Quiet (Idles s) := by
  refine .bind (.when _ (Script.Uses.ofTabular (tabular_applyInterrupts _))) fun _ _ => ?_
  exact .done ⟨hb, rfl, rfl⟩

theorem quiet_append (destination source size : Nat) :
    (s.append destination source size).Uses Access.Quiet fun r => s.Idles r.2 := by
  unfold append
  cases s.checkBlock destination source size with
  | error e => exact .done ⟨hb, rfl, rfl⟩
  | ok elements =>
    have hidle : s.Idles s.discardFinished := by
      unfold discardFinished
      split <;> exact ⟨hb, rfl, rfl⟩
    generalize s.discardFinished = s' at hidle
    refine .bind (Script.Uses.ofTabular (tabular_push ..)) fun pushed _ => ?_
    cases pushed with
    | none => exact .done hidle
    | some pool =>
      refine (calm_linkedTooLate s').ofCalm.bind fun late _ => ?_
      refine .bind (.when _ (Script.Uses.ofTabular (tabular_setInterrupt ..))) fun _ _ => ?_
      exact .done hidle

theorem quiet_releaseIfBound : s.releaseIfBound.Uses Access.Quiet (Idles s) := by
  unfold releaseIfBound
  rw [if_neg (by simp [hb])]
  exact .done ⟨hb, rfl, rfl⟩

theorem quiet_disable : s.disable.Uses Access.Quiet (Idles s) := by
  unfold disable
  rw [if_pos (by simp [hb])]
  exact .done ⟨hb, rfl, rfl⟩

theorem quiet_clear : s.clear.Uses Access.Quiet (Idles s) :=
  (quiet_releaseIfBound hb).bind fun _ h => .done h

theorem quiet_onInterrupt (event : TransferEvent) :
    (s.onInterrupt event).Uses Access.Quiet fun r => r.1 = none ∧ s.Idles r.2 := by
  unfold onInterrupt
  rw [if_pos (by simp [hb])]
  exact .done ⟨rfl, hb, rfl, rfl⟩

theorem quiet_residue : s.residue.Uses Access.Quiet fun _ => True := by
  unfold residue
  rw [if_pos (by simp [hb])]
  exact .done trivial

theorem idles_configure (settings : TransferSettings) : s.Idles (s.configure settings).2 := by
  unfold configure
  split
  · exact ⟨hb, rfl, rfl⟩
  · split <;> exact ⟨hb, rfl, rfl⟩

omit hb in
/-- Only a claim that is granted lets `enable` start the controller. -/
theorem claimsFirst_enable : ClaimsFirst s.channel.number s.owner s.enable := by
  unfold enable
  split
  · exact .done _
  · exact .claim fun e => .done _

end Stream

open ScatterGather.Stream

/-- **A command other than `enable`** to a stream that does not hold its channel neither starts nor
halts. -/
theorem Bench.StreamCommand.quiet {s : Stream} (hb : s.bound = false) (label : Nat)
    {command : Bench.StreamCommand} (hc : command ≠ .enable) :
    (command.script s label).Uses Access.Quiet fun r => s.Idles r.2 := by
  cases command with
  | append destination source size =>
    exact (quiet_append hb destination source size).bind fun _ h => .done h
  | enable => exact absurd rfl hc
  | disable => exact (quiet_disable hb).bind fun _ h => .done h
  | clear => exact (quiet_clear hb).bind fun _ h => .done h
  | configure settings => exact .done (idles_configure hb settings)
  | callback on => exact (quiet_setCallback hb _).bind fun _ h => .done h
  | interrupt event => exact (quiet_onInterrupt hb event).bind fun _ h => .done h.2
  | residue => exact (quiet_residue hb).bind fun _ _ => .done ⟨hb, rfl, rfl⟩
  | queued => exact s.calm_queued.ofCalm.bind fun _ _ => .done ⟨hb, rfl, rfl⟩
  | info => exact .done ⟨hb, rfl, rfl⟩
  | text => exact .done ⟨hb, rfl, rfl⟩

/-! ## Pumps -/

namespace TransmitPump

variable {p : TransmitPump} (hb : p.stream.bound = false)

include hb

theorem claimsFirst_kick :
    ClaimsFirst p.stream.channel.number p.stream.owner p.kick := by
  apply ClaimsFirst.bind
  · apply (quiet_append hb _ _ _).andThen
    rintro ⟨appended, stream⟩ ⟨-, hchannel, howner⟩
    cases appended with
    | error e => exact .done _
    | ok u =>
      have henable := claimsFirst_enable (s := stream)
      rw [hchannel, howner] at henable
      refine henable.bind fun ⟨enabled, stream⟩ => ?_
      cases enabled <;> exact .done _
  · rintro ⟨started, p'⟩
    cases started with
    | ok u => exact .done _
    | error e => exact .other (a := .log _) trivial fun _ => .done _

theorem claimsFirst_write (data : List UInt8) :
    ClaimsFirst p.stream.channel.number p.stream.owner (p.write data) := by
  have hfill := p.ring.uses_fill (P := Access.Calm)
    (fun start chunk => perform (.save (p.storage + start) chunk))
    (fun _ _ => uses_perform (.save _ _) trivial) data
  apply hfill.ofCalm.andThen
  rintro ⟨count, ring⟩ _
  show ClaimsFirst _ _ (if _ then _ else _)
  split
  · exact (claimsFirst_kick (p := { p with ring }) hb).bind fun _ => .done _
  · exact .done _

theorem quiet_onInterrupt (event : TransferEvent) :
    (p.onInterrupt event).Uses Access.Quiet fun _ => True := by
  apply (Stream.quiet_onInterrupt hb event).bind
  rintro ⟨result, stream⟩ ⟨rfl, -⟩
  exact .done trivial

end TransmitPump

/-- **A command to a transmit pump** whose stream does not hold its channel claims first. -/
theorem Bench.TransmitCommand.claimsFirst {p : TransmitPump} (hb : p.stream.bound = false)
    (label : Nat) (command : Bench.TransmitCommand) :
    ClaimsFirst p.stream.channel.number p.stream.owner (command.script p label) := by
  cases command with
  | write data => exact (TransmitPump.claimsFirst_write hb data).bind fun _ => .done _
  | interrupt event =>
    exact (TransmitPump.quiet_onInterrupt hb event).claimsFirst.bind fun _ => .done _
  | callback on => exact .done _
  | peek offset => exact .other (a := .load _ _) trivial fun _ => .done _
  | residue => exact (quiet_residue hb).claimsFirst.bind fun _ => .done _
  | info => exact .done _

namespace ReceivePump

variable {p : ReceivePump} (hb : p.stream.bound = false)

include hb

theorem claimsFirst_start : ClaimsFirst p.stream.channel.number p.stream.owner p.start := by
  apply (quiet_clear hb).andThen
  rintro stream ⟨hb, hchannel, howner⟩
  apply (quiet_append hb _ _ _).andThen
  rintro ⟨first, stream'⟩ ⟨hb, hchannel', howner'⟩
  cases first with
  | error e => exact .done _
  | ok u =>
    apply (quiet_append hb _ _ _).andThen
    rintro ⟨second, stream''⟩ ⟨hb, hchannel'', howner''⟩
    cases second with
    | error e => exact .done _
    | ok u =>
      have henable := claimsFirst_enable (s := stream'')
      rw [hchannel'', howner'', hchannel', howner', hchannel, howner] at henable
      exact henable.bind fun _ => .done _

theorem quiet_onIdle : p.onIdle.Uses Access.Quiet fun _ => True := by
  unfold onIdle
  rw [if_pos (by simp [hb])]
  exact .done trivial

theorem quiet_onInterrupt (event : TransferEvent) :
    (p.onInterrupt event).Uses Access.Quiet fun _ => True := by
  apply (Stream.quiet_onInterrupt hb event).bind
  rintro ⟨result, stream⟩ ⟨rfl, -⟩
  exact .done trivial

end ReceivePump

/-- **A command to a receive pump** whose stream does not hold its channel claims first. -/
theorem Bench.ReceiveCommand.claimsFirst {p : ReceivePump} (hb : p.stream.bound = false)
    (label : Nat) (command : Bench.ReceiveCommand) :
    ClaimsFirst p.stream.channel.number p.stream.owner (command.script p label) := by
  cases command with
  | start => exact (ReceivePump.claimsFirst_start hb).bind fun _ => .done _
  | stop =>
    have hstop : p.stop.Uses Access.Quiet fun _ => True :=
      (quiet_disable hb).bind fun _ _ => .done trivial
    exact hstop.claimsFirst.bind fun _ => .done _
  | idle => exact (ReceivePump.quiet_onIdle hb).claimsFirst.bind fun _ => .done _
  | read buffer => exact .done _
  | interrupt event =>
    exact (ReceivePump.quiet_onInterrupt hb event).claimsFirst.bind fun _ => .done _
  | callback on => exact .done _
  | peek offset => exact .done _
  | residue => exact (quiet_residue hb).claimsFirst.bind fun _ => .done _
  | info => exact .done _

end ScatterGather
