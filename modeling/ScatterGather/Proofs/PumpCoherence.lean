import ScatterGather.Proofs.Coherence
import ScatterGather.Proofs.Queue

/-!
# ScatterGather.Proofs.PumpCoherence — the counts of a pump stay in range, whatever it is told

A pump adds a count of its own to a stream and a queue: the bytes in flight of a transmit pump, and
the place in the staging area of a receive pump. Both are worked out from what the controller shows,
and still they stay in range (`TransmitPump.Coherent.script`, `ReceivePump.Coherent.script`) when
every reading is a lie.
-/

namespace ScatterGather

open Script

/-! ## Rings -/

namespace Ring

variable {r : Ring}

theorem popRun_length_le (r : Ring) (offset : Nat) : (r.popRun offset).length ≤ r.size := by
  unfold popRun
  split
  · exact Nat.zero_le _
  · exact Nat.le_trans (Nat.min_le_left ..) (Nat.sub_le ..)

/-- Filling a ring takes nothing away. -/
theorem Valid.yields_fill (h : r.Valid) (write : Nat → List UInt8 → DriverScript Unit)
    (data : List UInt8) :
    (r.fill write data).Yields fun out => out.2.Valid ∧ r.size ≤ out.2.size := by
  -- every run takes at least one byte
  induction hn : data.length using Nat.strongRecOn generalizing r data with
  | _ n ih =>
    by_cases hnone : data = [] ∨ r.available = 0
    · rw [fill_none _ hnone]
      exact yields_done ⟨h, Nat.le_refl _⟩
    · obtain ⟨hdata, hfull⟩ := not_or.mp hnone
      have hroom := Nat.pos_of_ne_zero hfull
      obtain ⟨hfit, -, -⟩ := h.chunk_bounds data
      have hpos := h.chunk_pos hroom hdata
      have hlength := List.length_pos_iff.mpr hdata
      have hrest : (data.drop (r.chunk data).length).length < n := by
        rw [List.length_drop]
        omega
      rw [h.fill_step _ hroom hdata]
      refine yields_bind fun _ => (ih _ hrest (h.advance hfit) _ rfl).bind fun out hout => ?_
      rw [size_advance hfit] at hout
      exact yields_done ⟨hout.1, Nat.le_trans (Nat.le_add_right ..) hout.2⟩

end Ring

/-! ## Transmit pumps -/

namespace TransmitPump

variable {p : TransmitPump}

/-- No more bytes are in flight than are queued. -/
structure Coherent (p : TransmitPump) : Prop where
  stream : p.stream.Coherent
  ring : p.ring.Valid
  inFlight_le : p.inFlight ≤ p.ring.size

/-- A pump that was made is coherent, whatever its queue holds already. -/
theorem coherent_made {m : Machine} {channel : Channel} {target requested : Nat}
    (hmade : (m.createTransmitPump channel target requested).1 = .ok p) {ring : Ring}
    (hring : ring.Valid) : Coherent { p with ring } := by
  unfold Machine.createTransmitPump at hmade
  split at hmade
  · cases hmade
  · split at hmade
    · cases hmade
    · next hstream =>
      obtain rfl := Except.ok.inj hmade
      have hs := Stream.coherent_made Nat.one_pos (congrArg Prod.fst hstream)
      exact ⟨hs, hring, Nat.zero_le _⟩

namespace Coherent

/-- The transfer covers bytes at the front of the queue. -/
theorem startRun (h : p.Coherent) : p.startRun.Yields fun r => r.2.Coherent := by
  refine (h.stream.append _ _ _).bind fun ⟨appended, stream⟩ hs => ?_
  cases appended with
  | error e => exact yields_done { h with stream := hs }
  | ok _ =>
    refine (Stream.Coherent.enable hs).bind fun ⟨enabled, stream⟩ hs => ?_
    cases enabled with
    | error e => exact yields_done { h with stream := hs }
    | ok _ =>
      refine yields_done { h with stream := hs, inFlight_le := ?_ }
      exact Nat.le_trans (Nat.min_le_left ..) (p.ring.popRun_length_le 0)

theorem kick (h : p.Coherent) : p.kick.Yields Coherent := by
  refine h.startRun.bind fun ⟨started, p⟩ h => ?_
  cases started with
  | ok _ => exact yields_done { h with }
  | error e => exact yields_bind fun _ => yields_done { h with }

theorem write (h : p.Coherent) (data : List UInt8) :
    (p.write data).Yields fun r => r.2.Coherent := by
  refine (h.ring.yields_fill _ data).bind fun ⟨count, ring⟩ ⟨hring, hsize⟩ => ?_
  have h : Coherent { p with ring } :=
    { h with ring := hring, inFlight_le := Nat.le_trans h.inFlight_le hsize }
  dsimp only
  split
  · exact h.kick.bind fun p h => yields_done h
  · exact yields_done h

/-- When a transfer is over its bytes are released, unless they were not sent. -/
theorem finished (h : p.Coherent) (status : Status) :
    Coherent { p with
      ring := if status = .error then p.ring else p.ring.abandon p.inFlight
      inFlight := 0 } where
  stream := h.stream
  ring := by
    show (if status = .error then p.ring else p.ring.abandon p.inFlight).Valid
    split
    · exact h.ring
    · exact h.ring.abandon _
  inFlight_le := Nat.zero_le _

theorem onInterrupt (h : p.Coherent) (event : TransferEvent) :
    (p.onInterrupt event).Yields fun r => r.2.Coherent := by
  refine (h.stream.onInterrupt event).bind fun ⟨result, stream⟩ hs => ?_
  have h : Coherent { p with stream } := { h with stream := hs }
  cases result with
  | none => exact yields_done h
  | some status =>
    have hfinished := h.finished status
    dsimp only at hfinished ⊢
    generalize (if status = .error then p.ring else p.ring.abandon p.inFlight) = ring at hfinished ⊢
    split
    · exact yields_done h
    · split
      · exact yields_bind fun _ => yields_done hfinished
      · exact hfinished.kick.bind fun p h => yields_done h

/-- Every command keeps a transmit pump coherent, whatever the machine answers. -/
theorem script (h : p.Coherent) (label : Nat) (command : Bench.TransmitCommand) :
    (command.script p label).Yields fun r => r.2.Coherent := by
  cases command with
  | write data => exact (h.write data).bind fun _ h => yields_done h
  | interrupt event => exact (h.onInterrupt event).bind fun _ h => yields_done h
  | callback on => exact yields_done { h with }
  | peek offset => exact yields_bind fun _ => yields_done h
  | residue => exact yields_bind fun _ => yields_done h
  | info => exact yields_done h

end Coherent

end TransmitPump

/-! ## Receive pumps -/

namespace ReceivePump

variable {p : ReceivePump}

/-- The position lies in the staging area or at its end. -/
structure Coherent (p : ReceivePump) : Prop where
  stream : p.stream.Coherent
  queue : p.queue.Valid
  half_pos : 0 < p.half
  position_le : p.position ≤ 2 * p.half

/-- A pump that was made is coherent, whatever its queue holds already. -/
theorem coherent_made {m : Machine} {channel : Channel} {half source requested : Nat}
    (hmade : (m.createReceivePump channel half source requested).1 = .ok p) {queue : ByteQueue}
    (hqueue : queue.Valid) : Coherent { p with queue } := by
  unfold Machine.createReceivePump at hmade
  split at hmade
  · cases hmade
  · split at hmade
    · cases hmade
    · next hhalf =>
      split at hmade
      · cases hmade
      · next hstream =>
        obtain rfl := Except.ok.inj hmade
        have hs := Stream.coherent_made Nat.two_pos (congrArg Prod.fst hstream)
        exact ⟨{ hs with }, hqueue, (bounds_of_admissible hhalf).1, Nat.zero_le _⟩

theorem yields_executingHalf (p : ReceivePump) : p.executingHalf.Yields (· ≤ 1) :=
  yields_bind fun queued => yields_done (by split <;> decide)

/-- The end of what is staged in a half lies in the staging area. -/
theorem upTo_le {half : Nat} (h : half ≤ 1) (residue : Nat) (p : ReceivePump) :
    (half + 1) * p.half - min residue p.half ≤ 2 * p.half :=
  Nat.le_trans (Nat.sub_le ..) (Nat.mul_le_mul_right _ (Nat.succ_le_succ h))

namespace Coherent

theorem start (h : p.Coherent) : p.start.Yields fun r => r.2.Coherent := by
  refine h.stream.clear.bind fun stream hs => ?_
  refine (Stream.Coherent.append hs _ _ _).bind fun ⟨first, stream⟩ hs => ?_
  have h : Coherent { p with stream, position := 0 } :=
    { h with stream := hs, position_le := Nat.zero_le _ }
  cases first with
  | error e => exact yields_done h
  | ok _ =>
    refine (Stream.Coherent.append hs _ _ _).bind fun ⟨second, stream⟩ hs => ?_
    cases second with
    | error e => exact yields_done { h with stream := hs }
    | ok _ =>
      refine (Stream.Coherent.enable hs).bind fun ⟨enabled, stream⟩ hs => ?_
      exact yields_done { h with stream := hs }

theorem stop (h : p.Coherent) : p.stop.Yields Coherent :=
  h.stream.disable.bind fun _ hs => yields_done { h with stream := hs }

theorem pushStaged (h : p.Coherent) (upTo : Nat) :
    (p.pushStaged upTo).Yields fun r => r.2.Coherent ∧ r.2.half = p.half := by
  unfold ReceivePump.pushStaged
  split
  · exact yields_done ⟨h, rfl⟩
  · refine yields_bind fun data => yields_bind fun _ => yields_done ⟨?_, rfl⟩
    exact { h with queue := (h.queue.pushArray data).valid }

theorem onInterrupt (h : p.Coherent) (event : TransferEvent) :
    (p.onInterrupt event).Yields fun r => r.2.Coherent := by
  refine (h.stream.onInterrupt event).bind fun ⟨result, stream⟩ hs => ?_
  have h : Coherent { p with stream } := { h with stream := hs }
  cases result with
  | none => exact yields_done h
  | some status =>
    dsimp only
    split
    · refine yields_bind fun half => (h.pushStaged _).bind fun ⟨count, p'⟩ ⟨h', hhalf⟩ => ?_
      refine yields_done { h' with position_le := ?_ }
      have hpos := h'.half_pos
      exact Nat.le_of_lt (Nat.mod_lt _ (by omega))
    · exact yields_done h

theorem onIdle (h : p.Coherent) : p.onIdle.Yields fun r => r.2.Coherent := by
  unfold ReceivePump.onIdle
  split
  · exact yields_done h
  · refine (yields_executingHalf p).bind fun half hone => yields_bind fun residue => ?_
    cases residue with
    | error e => exact yields_done h
    | ok residue =>
      refine yields_bind fun again => ?_
      split
      · exact yields_done h
      · refine (h.pushStaged _).bind fun ⟨count, p'⟩ ⟨h', hhalf⟩ => ?_
        refine yields_done { h' with position_le := Nat.max_le.mpr ⟨h'.position_le, ?_⟩ }
        show _ ≤ 2 * p'.half
        rw [hhalf]
        exact upTo_le hone residue p

/-- Every command keeps a receive pump coherent, whatever the machine answers. -/
theorem script (h : p.Coherent) (label : Nat) (command : Bench.ReceiveCommand) :
    (command.script p label).Yields fun r => r.2.Coherent := by
  cases command with
  | start => exact h.start.bind fun _ h => yields_done h
  | stop => exact h.stop.bind fun _ h => yields_done h
  | idle => exact h.onIdle.bind fun _ h => yields_done h
  | read buffer => exact yields_done { h with queue := (h.queue.popArray buffer).1 }
  | interrupt event => exact (h.onInterrupt event).bind fun _ h => yields_done h
  | callback on => exact yields_done { h with }
  | peek offset => exact yields_done h
  | residue => exact yields_bind fun _ => yields_done h
  | info => exact yields_done h

end Coherent

end ReceivePump

end ScatterGather
