import ScatterGather.Proofs.LateService

/-!
# ScatterGather.Proofs.EarlyIdle — an idle line while a completion waits

A receive pump that is told of an idle line first compares the half in which it looks for bytes with
the half that is being filled, and moves nothing if they differ: then a completion is still to be
handled, and its handler will move the rest of the finished half. The comparison divides `position`
by the size of a half. A half that an idle line has consumed to its end before the controller went
on leaves `position` at that end, and the end of the first half is the start of the second. There
the two halves seem to agree although the completion still waits.

`Timely` holds of a pump whose completions are delivered before the next half is finished, with idle
lines at any time. It bounds `position` from both sides, and `idle_while_waiting` reads off it when
an idle line moves nothing, and which bytes it moves otherwise. These are moved once more when the
second half is full, since the completion sets `position` back to its start
(`idle_moves_while_waiting`).
-/

namespace ScatterGather

namespace ReceivePump

variable {p : ReceivePump} {v : Scene} {received : List UInt8} {finished : Nat}

/-! ## An idle line -/

/-- Nothing is moved if the pump looks for bytes in another half than the one being filled. -/
theorem exec_onIdle_elsewhere (hb : p.stream.bound = true) {residue : Nat}
    (hleft : p.stream.leftover v = .ok residue) (hhalf : p.position / p.half ≠ p.fillingHalf v) :
    v.exec p.onIdle = ((.ok 0, p), v) := by
  unfold onIdle
  rw [Scene.exec_ite, if_neg (by simp [hb]), Scene.exec_bind, exec_executingHalf, Scene.exec_bind,
    Stream.exec_residue, hleft]
  show v.exec (p.executingHalf >>= _) = _
  rw [Scene.exec_bind, exec_executingHalf]
  show v.exec (if p.fillingHalf v ≠ p.fillingHalf v ∨ p.position / p.half ≠ p.fillingHalf v then _
    else _) = _
  rw [if_pos (.inr hhalf)]
  rfl

theorem Fills.exec_onIdle_still (h : p.Fills v received finished)
    (hhalf : p.position / p.half ≠ finished % 2) : v.exec p.onIdle = ((.ok 0, p), v) := by
  have hbound : p.stream.bound = true := h.bound
  have hleft : p.stream.leftover v = .ok v.remaining := h.leftover_eq
  have hfilling : p.fillingHalf v = finished % 2 := h.fillingHalf_eq
  exact exec_onIdle_elsewhere hbound hleft (hfilling ▸ hhalf)

/-- From a place in the half being filled all that has arrived there is moved. -/
theorem Fills.exec_onIdle_moves (h : p.Fills v received finished) {x : Nat} (hx : x < p.half)
    (hposition : p.position = finished % 2 * p.half + x) (hle : x ≤ p.half - v.remaining) :
    ∃ n queue, v.exec p.onIdle = ((.ok n, { p with
        queue, position := finished % 2 * p.half + (p.half - v.remaining) }), v) ∧
      p.queue.Takes (received.drop (finished * p.half + x)) queue := by
  have hbound : p.stream.bound = true := h.bound
  have hq : p.queue.Valid := h.fit.queue
  have hleft : p.stream.leftover v = .ok v.remaining := h.leftover_eq
  have hfilling : p.fillingHalf v = finished % 2 := h.fillingHalf_eq
  have hrest : v.remaining ≤ p.half := h.remaining_le
  have hstored : v.memory.readList (p.halfAddress finished) (p.half - v.remaining) =
      received.drop (finished * p.half) := h.filling
  have hquot : p.position / p.half = p.fillingHalf v := by
    rw [hfilling, hposition, Nat.mul_comm, Nat.mul_add_div (by omega), Nat.div_eq_of_lt hx,
      Nat.add_zero]
  have hupTo : (p.fillingHalf v + 1) * p.half - min v.remaining p.half =
      finished % 2 * p.half + (p.half - v.remaining) := by
    rw [hfilling, Nat.min_eq_left hrest, Nat.succ_mul]
    omega
  have hstaged : p.staged v.memory (finished % 2 * p.half + (p.half - v.remaining)) =
      received.drop (finished * p.half + x) := by
    have hlength : finished % 2 * p.half + (p.half - v.remaining) - (finished % 2 * p.half + x) =
        p.half - v.remaining - x := by omega
    rw [staged, hposition, hlength, ← Nat.add_assoc]
    show v.memory.readList (p.halfAddress finished + x) _ = _
    rw [← Memory.drop_readList _ _ hle, hstored, List.drop_drop]
  obtain ⟨n, queue, hresult, htakes⟩ := ReceivePump.exec_onIdle_moves hq hbound hleft hquot hupTo
  have hmax : max p.position (finished % 2 * p.half + (p.half - v.remaining)) =
      finished % 2 * p.half + (p.half - v.remaining) := by
    rw [hposition]
    omega
  rw [hmax] at hresult
  rw [hstaged] at htakes
  exact ⟨n, queue, hresult, htakes⟩

/-! ## Where the pump looks for bytes -/

/-- A pump whose completions are handled before the next half is finished, and that may be told of
an idle line at any time. -/
structure Timely (p : ReceivePump) (v : Scene) (received : List UInt8) (finished handled : Nat) :
    Prop where
  fills : p.Fills v received finished
  lag : finished = handled ∨ finished = handled + 1
  /-- When nothing waits, it looks among the bytes of the half being filled, or behind the last. -/
  served : finished = handled →
    finished % 2 * p.half ≤ p.position ∧
      p.position ≤ finished % 2 * p.half + (p.half - v.remaining)
  /-- When the second half waits, it looks in that half or behind it. -/
  second : finished = handled + 1 → finished % 2 = 0 →
    p.half ≤ p.position ∧ p.position ≤ 2 * p.half
  /-- When the first half waits, it looks in that half, or among the bytes of the second. -/
  first : finished = handled + 1 → finished % 2 = 1 →
    p.position ≤ p.half + (p.half - v.remaining)

variable {handled : Nat}

theorem Timely.congr (h : p.Timely v received finished handled) {v' : Scene} {state : StreamState}
    {queue : ByteQueue} (hq : queue.Valid) (hmemory : v'.memory = v.memory)
    (htable : v'.table = v.table) (hcurrent : v'.current = v.current)
    (hremaining : v'.remaining = v.remaining) :
    Timely { p with stream := { p.stream with state }, queue } v' received finished handled where
  fills := h.fills.congr hq p.position hmemory htable hcurrent hremaining
  lag := h.lag
  served := by
    rw [hremaining]
    exact h.served
  second := h.second
  first := by
    rw [hremaining]
    exact h.first

theorem Timely.outside (h : p.Timely v received finished handled) {m : Memory}
    (hsize : m.bytes.size = v.memory.bytes.size)
    (hout : ∀ a, p.staging ≤ a → a < p.staging + 2 * p.half → m.read a = v.memory.read a) :
    p.Timely { v with memory := m } received finished handled :=
  ⟨Receiving.outside h.fills hsize hout, h.lag, h.served, h.second, h.first⟩

/-- The half being filled gets no smaller. -/
theorem Timely.moveElements (h : p.Timely v received finished handled) (count : Nat) :
    p.Timely (v.moveElements count) (received ++ (v.writes count).map Prod.snd) finished
      handled := by
  have hremaining := Receiving.remaining_moveElements h.fills count
  refine ⟨Receiving.moveElements h.fills count, h.lag, ?_, h.second, ?_⟩
  · intro heq
    obtain ⟨hlow, hhigh⟩ := h.served heq
    omega
  · intro heq hodd
    have hhigh := h.first heq hodd
    omega

/-- At the end of a half the pump still looks for its bytes. -/
theorem Timely.finish (h : p.Timely v received finished finished) :
    v.finishEvent = some .progress ∧
      p.Timely v.finish (received ++ (v.writes v.remaining).map Prod.snd) (finished + 1)
        finished := by
  obtain ⟨hevent, hreceiving⟩ := Receiving.finish h.fills
  obtain ⟨hlow, hhigh⟩ := h.served rfl
  refine ⟨hevent, hreceiving.fills, .inr rfl, ?_, ?_, ?_⟩
  · intro heq
    omega
  · intro _ heven
    have hodd : finished % 2 = 1 := by omega
    rw [hodd] at hlow hhigh
    omega
  · intro _ hodd
    have heven : finished % 2 = 0 := by omega
    rw [heven] at hhigh
    omega

/-- The completion brings the pump to the start of the half being filled, wherever it was. -/
theorem Timely.exec_onInterrupt (h : p.Timely v received (handled + 1) handled) :
    (v.exec (p.onInterrupt .progress)).1.2.Timely (v.exec (p.onInterrupt .progress)).2 received
        (handled + 1) (handled + 1) ∧
      (v.exec (p.onInterrupt .progress)).1.2.position = (handled + 1) % 2 * p.half := by
  obtain ⟨queue, hexec, htakes⟩ := h.fills.exec_onInterrupt
  rw [hexec]
  refine ⟨⟨h.fills.congr htakes.valid _ rfl rfl rfl rfl, .inl rfl, ?_, ?_, ?_⟩, rfl⟩
  · intro _
    exact ⟨Nat.le_refl _, Nat.le_add_right ..⟩
  · intro heq
    omega
  · intro heq
    omega

/-- What an idle line comes to while a completion waits. -/
theorem Timely.exec_onIdle_waiting (h : p.Timely v received (handled + 1) handled) :
    (handled % 2 = 1 ∨ p.position < p.half ∨ 2 * p.half ≤ p.position →
        v.exec p.onIdle = ((.ok 0, p), v)) ∧
      (handled % 2 = 0 → p.half ≤ p.position → p.position < 2 * p.half →
        ∃ n queue, v.exec p.onIdle = ((.ok n, { p with
            queue, position := received.length - handled * p.half }), v) ∧
          p.queue.Takes (received.drop (handled * p.half + p.position)) queue) := by
  have hpos : 0 < p.half := h.fills.fit.half_pos
  refine ⟨?_, ?_⟩
  · intro hbehind
    apply h.fills.exec_onIdle_still
    rcases hbehind with hodd | hlt | hall
    · -- the second half waits, and the pump looks in it or behind it
      obtain ⟨hlow, -⟩ := h.second rfl (by omega)
      have hquot : 1 ≤ p.position / p.half := (Nat.le_div_iff_mul_le hpos).mpr (by omega)
      omega
    · rcases Nat.mod_two_eq_zero_or_one handled with heven | hodd
      · -- the first half waits and is not consumed to its end
        rw [Nat.div_eq_of_lt hlt]
        omega
      · obtain ⟨hlow, -⟩ := h.second rfl (by omega)
        omega
    · have hquot : 2 ≤ p.position / p.half := (Nat.le_div_iff_mul_le hpos).mpr hall
      omega
  · intro heven hlow hhigh
    have hodd : (handled + 1) % 2 = 1 := by omega
    have hlast := h.first rfl hodd
    have hlength := h.fills.length_eq
    rw [Nat.succ_mul] at hlength
    obtain ⟨x, hx⟩ := Nat.exists_eq_add_of_le hlow
    obtain ⟨n, queue, hresult, htakes⟩ := h.fills.exec_onIdle_moves (x := x) (by omega)
      (by rw [hodd, Nat.one_mul, hx]) (by omega)
    have hplace : (handled + 1) % 2 * p.half + (p.half - v.remaining) =
        received.length - handled * p.half := by
      rw [hodd]
      omega
    have hfrom : (handled + 1) * p.half + x = handled * p.half + p.position := by
      rw [Nat.succ_mul]
      omega
    rw [hplace] at hresult
    rw [hfrom] at htakes
    exact ⟨n, queue, hresult, htakes⟩

/-- An idle line moves the pump on among the bytes of the half being filled, or not at all. -/
theorem Timely.exec_onIdle (h : p.Timely v received finished handled) :
    (v.exec p.onIdle).1.2.Timely (v.exec p.onIdle).2 received finished handled := by
  by_cases hhalf : p.position / p.half = finished % 2
  · have hpos : 0 < p.half := h.fills.fit.half_pos
    obtain ⟨x, hrest⟩ : ∃ x, p.position % p.half = x := ⟨_, rfl⟩
    have hx : x < p.half := hrest ▸ Nat.mod_lt _ hpos
    have hposition : p.position = finished % 2 * p.half + x := by
      rw [← hhalf, ← hrest, Nat.div_add_mod']
    -- a half that waits is another than the one being filled, or the pump is behind its end
    have hnot : ¬(finished = handled + 1 ∧ finished % 2 = 0) := by
      rintro ⟨heq, heven⟩
      have hlow := (h.second heq heven).1
      rw [hposition, heven] at hlow
      omega
    have hle : x ≤ p.half - v.remaining := by
      rcases h.lag with heq | heq
      · have hhigh := (h.served heq).2
        omega
      · have hodd : finished % 2 = 1 := by omega
        have hhigh := h.first heq hodd
        rw [hposition, hodd] at hhigh
        omega
    obtain ⟨n, queue, hexec, htakes⟩ := h.fills.exec_onIdle_moves hx hposition hle
    rw [hexec]
    refine ⟨h.fills.congr htakes.valid _ rfl rfl rfl rfl, h.lag, ?_, ?_, ?_⟩
    · intro _
      exact ⟨Nat.le_add_right .., Nat.le_refl _⟩
    · intro heq heven
      exact absurd ⟨heq, heven⟩ hnot
    · intro _ hodd
      show finished % 2 * p.half + (p.half - v.remaining) ≤ p.half + (p.half - v.remaining)
      exact Nat.le_of_eq (by rw [hodd, Nat.one_mul])
  · rw [h.fills.exec_onIdle_still hhalf]
    exact h

end ReceivePump

/-! ## Runs -/

namespace ReceiveRig

variable {r : ReceiveRig} {finished : Nat}

/-- Whether an action can happen while the pump receives, if the line may be said to be idle at any
time. -/
def admitsIdle (r : ReceiveRig) : ReceiveAction → Bool
  | .idle => true
  | action => r.admits action

/-- Whether actions can happen one after another while the pump receives, with idle lines at any
time. -/
def admitsIdleAll (r : ReceiveRig) : List ReceiveAction → Bool
  | [] => true
  | action :: rest => r.admitsIdle action && (r.step action).admitsIdleAll rest

/-- What holds of a rig while its pump receives and is served in time. -/
structure InTime (r : ReceiveRig) (finished : Nat) : Prop where
  ready : r.Ready
  timely : r.pump.Timely r.scene r.received finished r.delivered
  raised : r.raised = if finished = r.delivered then [] else [.progress]

theorem InTime.finished_eq (h : r.InTime finished) (hraised : r.raised = []) :
    finished = r.delivered := by
  by_cases heq : finished = r.delivered
  · exact heq
  · rw [h.raised, if_neg heq] at hraised
    cases hraised

theorem InTime.finished_succ (h : r.InTime finished) (hraised : r.raised = [.progress]) :
    finished = r.delivered + 1 := by
  apply h.timely.lag.resolve_left
  intro heq
  rw [h.raised, if_pos heq] at hraised
  cases hraised

/-- A completion is delivered. -/
theorem InTime.deliver (h : r.InTime finished) (hraised : r.raised = [.progress]) :
    (r.step .deliver).InTime finished ∧
      (r.step .deliver).pump.position = finished % 2 * r.pump.half := by
  obtain rfl := h.finished_succ hraised
  obtain ⟨htimely, hposition⟩ := h.ready.driven
    (P := fun p v => p.Timely v r.received (r.delivered + 1) (r.delivered + 1) ∧
      p.position = (r.delivered + 1) % 2 * r.pump.half) _ Prod.snd h.timely.exec_onInterrupt
  have hready := h.ready.step .deliver
  rw [step_deliver_cons hraised] at hready ⊢
  exact ⟨⟨hready, htimely, (if_pos rfl).symm⟩, hposition⟩

/-- What changes no more than memory outside the staging area, the queue and the record of what was
read leaves the pump served in time. -/
theorem InTime.still (h : r.InTime finished) {a : ReceiveAction}
    (htimely : (r.step a).pump.Timely (r.step a).scene r.received finished r.delivered)
    (hreceived : (r.step a).received = r.received) (hdelivered : (r.step a).delivered = r.delivered)
    (hraised : (r.step a).raised = r.raised) : (r.step a).InTime finished where
  ready := h.ready.step a
  timely := by
    rw [hreceived, hdelivered]
    exact htimely
  raised := by
    rw [hraised, hdelivered]
    exact h.raised

theorem InTime.step (h : r.InTime finished) {a : ReceiveAction} (ha : r.admitsIdle a = true) :
    ∃ finished', (r.step a).InTime finished' := by
  have hq : r.pump.queue.Valid := h.timely.fills.fit.queue
  cases a with
  | start => cases ha
  | stop => cases ha
  | deliver =>
    by_cases heq : finished = r.delivered
    · have hraised := h.raised
      rw [if_pos heq] at hraised
      rw [step_deliver_nil hraised]
      exact ⟨finished, h⟩
    · exact ⟨finished, (h.deliver (h.raised.trans (if_neg heq))).1⟩
  | interrupt event =>
    obtain rfl : event = .timeout := of_decide_eq_true ha
    have hbound : r.pump.stream.bound = true := h.timely.fills.bound
    obtain ⟨left, hexec⟩ := h.ready.fit.exec_timeout hbound
    refine ⟨finished, h.still ?_ rfl rfl rfl⟩
    refine h.ready.driven (P := fun p v => p.Timely v r.received finished r.delivered) _ Prod.snd ?_
    rw [hexec]
    exact h.timely.congr hq rfl rfl rfl rfl
  | idle =>
    refine ⟨finished, h.still ?_ rfl rfl rfl⟩
    exact h.ready.driven (P := fun p v => p.Timely v r.received finished r.delivered) _ Prod.snd
      h.timely.exec_onIdle
  | read buffer =>
    obtain ⟨hvalid, -, -⟩ := hq.popArray buffer
    have htimely : (r.pump.read buffer).2.2.Timely r.scene r.received finished r.delivered :=
      h.timely.congr hvalid rfl rfl rfl rfl
    exact ⟨finished, h.still htimely rfl rfl rfl⟩
  | moveElements count =>
    have hscene : (r.step (.moveElements count)).scene = r.scene.moveElements count :=
      h.ready.attached.scene_moveElements count
    refine ⟨finished, h.ready.step _, ?_, h.raised⟩
    rw [hscene]
    exact h.timely.moveElements count
  | finish =>
    have hnone : r.raised = [] := List.isEmpty_iff.mp ha
    obtain rfl := h.finished_eq hnone
    obtain ⟨hevent, htimely⟩ := h.timely.finish
    have hscene : (r.step .finish).scene = r.scene.finish := h.ready.attached.scene_finish
    refine ⟨r.delivered + 1, h.ready.step _, ?_, ?_⟩
    · rw [hscene]
      exact htimely
    · show r.raised ++ (r.machine.finish r.index).1.toList = _
      rw [hnone, h.ready.attached.finish_event]
      show [] ++ r.scene.finishEvent.toList = _
      rw [hevent]
      exact (if_neg (Nat.succ_ne_self r.delivered)).symm
  | present value =>
    have hapart : r.pump.source < r.pump.staging ∨
        r.pump.staging + 2 * r.pump.half ≤ r.pump.source := h.timely.fills.fit.apart
    have htimely := h.timely.outside (m := r.machine.memory.write r.pump.source value)
      (r.machine.memory.size_write _ _) (by
        intro a hlow hhigh
        rw [Memory.read_write, if_neg (by omega)]
        rfl)
    exact ⟨finished, h.still htimely rfl rfl rfl⟩
  | fillFifo polls =>
    have hscene : (r.step (.fillFifo polls)).scene = { r.scene with pendingPolls := polls } :=
      h.ready.attached.scene_setController _
    refine ⟨finished, h.still ?_ rfl rfl rfl⟩
    rw [hscene]
    exact h.timely.congr hq rfl rfl rfl rfl
  | contend ownership =>
    exact ⟨finished, h.still (h.timely.congr hq rfl rfl rfl rfl) rfl rfl rfl⟩

theorem InTime.run (h : r.InTime finished) {actions : List ReceiveAction}
    (hok : r.admitsIdleAll actions = true) : ∃ finished', (r.run actions).InTime finished' := by
  induction actions generalizing r finished with
  | nil => exact ⟨finished, h⟩
  | cons a actions ih =>
    obtain ⟨ha, hrest⟩ := Bool.and_eq_true_iff.mp hok
    obtain ⟨finished', hstep⟩ := h.step ha
    exact ih hstep hrest

/-- A start that succeeds finds the pump at the start of the first half. -/
theorem Ready.inTime (h : r.Ready) (hstart : r.starts = true) : (r.step .start).InTime 0 := by
  have hreceiving := h.attached.driven
    (P := fun (x : Except Error Unit × ReceivePump) v => x.1 = .ok () → x.2.Receiving v [] 0 0 0)
    _ id h.fit.exec_start.2.2
  have hok : (r.machine.exec r.hardware r.pump.start).1.1 = .ok () := by
    unfold starts at hstart
    cases hresult : (r.machine.exec r.hardware r.pump.start).1.1 with
    | error e =>
      rw [hresult] at hstart
      cases hstart
    | ok u => rfl
  have hstarted := hreceiving hok
  have hplace : (r.step .start).pump.position = 0 := by
    refine hstarted.position.trans ?_
    rw [Nat.zero_mod, Nat.zero_mul]
  refine ⟨h.step .start, ⟨hstarted.fills, .inl rfl, ?_, nofun, nofun⟩, rfl⟩
  intro _
  rw [hplace, Nat.zero_mod, Nat.zero_mul]
  exact ⟨Nat.le_refl 0, Nat.zero_le _⟩

/-- What a pump answers when the line falls idle. -/
def idled (r : ReceiveRig) : Except DmaError Nat :=
  (r.machine.exec r.hardware r.pump.onIdle).1.1

/-- What an idle line comes to while the completion of one half waits. -/
structure IdleWaiting (r : ReceiveRig) : Prop where
  /-- Nothing is moved if it is the second half, or if the pump has not consumed the first to its
  end, or has consumed both, -/
  still : r.delivered % 2 = 1 ∨ r.pump.position < r.pump.half ∨ 2 * r.pump.half ≤ r.pump.position →
    r.idled = .ok 0 ∧ (r.step .idle).pump = r.pump
  /-- and but for the last case no byte of the half being filled has been consumed. -/
  within : r.delivered % 2 = 1 ∨ r.pump.position < r.pump.half →
    r.pump.position ≤ (r.delivered % 2 + 1) * r.pump.half
  /-- From the end of the first half on, the bytes of the second that have arrived are moved, -/
  moves : r.delivered % 2 = 0 → r.pump.half ≤ r.pump.position →
    r.pump.position < 2 * r.pump.half →
    r.pump.queue.Takes (r.received.drop (r.delivered * r.pump.half + r.pump.position))
        (r.step .idle).pump.queue ∧
      (r.step .idle).pump.position = r.received.length - r.delivered * r.pump.half
  /-- and the completion sets the pump back to the start of the half being filled. -/
  goesBack : (r.step .deliver).pump.position = (r.delivered + 1) % 2 * r.pump.half

theorem InTime.idleWaiting (h : r.InTime finished) (hraised : r.raised = [.progress]) :
    r.IdleWaiting := by
  obtain ⟨-, hposition⟩ := h.deliver hraised
  obtain rfl := h.finished_succ hraised
  obtain ⟨hstill, hmoves⟩ := h.timely.exec_onIdle_waiting
  refine ⟨?_, ?_, ?_, hposition⟩
  · intro hbehind
    have hexec := hstill hbehind
    refine h.ready.attached.driven (P := fun (x : Except DmaError Nat × ReceivePump) _ =>
      x.1 = .ok 0 ∧ x.2 = r.pump) _ id ?_
    have hscene : (r.machine.scene r.index).exec r.pump.onIdle =
      ((.ok 0, r.pump), r.machine.scene r.index) := hexec
    rw [hscene]
    exact ⟨rfl, rfl⟩
  · intro hbehind
    rcases Nat.mod_two_eq_zero_or_one r.delivered with heven | hodd
    · have hlt := hbehind.resolve_left (by omega)
      rw [heven]
      omega
    · obtain ⟨-, hhigh⟩ := h.timely.second rfl (by omega)
      rw [hodd]
      exact hhigh
  · intro heven hlow hhigh
    obtain ⟨n, queue, hexec, htakes⟩ := hmoves heven hlow hhigh
    refine h.ready.driven (P := fun p _ =>
      r.pump.queue.Takes (r.received.drop (r.delivered * r.pump.half + r.pump.position)) p.queue ∧
        p.position = r.received.length - r.delivered * r.pump.half) _ Prod.snd ?_
    rw [hexec]
    exact ⟨htakes, rfl⟩

/-- **An idle line moves nothing while a completion waits, but behind a half that was consumed to
its end.** A pump was started, whatever happened before, and each completion is delivered before the
next half is finished; the line may fall idle at any time. When one completion waits, an idle line
leaves the pump as it is, unless the waiting half is the first and an idle line had consumed it to
its end before the controller went on. In that case what has arrived in the second half is moved,
and the completion, when it is delivered, makes the pump go back to the start of that half. -/
theorem idle_while_waiting {m : Machine} {number index half source requested : Nat}
    (hindex : index < m.controllers.size) (htruth : (m.controller index).Truthful)
    (hstop : (m.controller index).current = 0)
    (hr : m.receiveRig number index half source requested = .ok r)
    (hout : source < r.pump.staging ∨ r.pump.staging + 2 * half ≤ source)
    (earlier actions : List ReceiveAction) (hstart : (r.run earlier).starts = true)
    (hok : ((r.run earlier).step .start).admitsIdleAll actions = true)
    (hraised : (r.run (earlier ++ .start :: actions)).raised = [.progress]) :
    (r.run (earlier ++ .start :: actions)).IdleWaiting := by
  have hsplit : r.run (earlier ++ .start :: actions) = ((r.run earlier).step .start).run actions :=
    List.foldl_append
  obtain ⟨hready, -⟩ := ready_make hindex htruth hstop hr hout
  obtain ⟨finished, h⟩ := ((hready.run earlier).1.inTime hstart).run hok
  rw [hsplit] at hraised ⊢
  exact h.idleWaiting hraised

/-- The first half is consumed to its end while it is still being filled; an idle line has moved a
byte of the second when another one arrives. -/
theorem idle_while_waiting_twice :
    ∃ r, Machine.receiveRig { memory := ⟨#[7]⟩, controllers := #[{}] } 3 0 2 0 16 = .ok r ∧
      (r.run [.start, .moveElements 2, .idle, .finish, .moveElements 1, .idle, .present 9,
        .moveElements 1]).IdleWaiting := by
  obtain ⟨r, hr⟩ :
      ∃ r, Machine.receiveRig { memory := ⟨#[7]⟩, controllers := #[{}] } 3 0 2 0 16 = .ok r :=
    ⟨_, rfl⟩
  have hbefore :
      ((Machine.receiveRig { memory := ⟨#[7]⟩, controllers := #[{}] } 3 0 2 0 16).toOption.map
        fun r => (r.pump.staging, r.starts,
          (r.step .start).admitsIdleAll [.moveElements 2, .idle, .finish, .moveElements 1, .idle,
            .present 9, .moveElements 1])) = some (1, true, true) := by decide +kernel
  have hwaiting :
      ((Machine.receiveRig { memory := ⟨#[7]⟩, controllers := #[{}] } 3 0 2 0 16).toOption.map
        fun r => (r.run [.start, .moveElements 2, .idle, .finish, .moveElements 1, .idle,
          .present 9, .moveElements 1]).raised) = some [.progress] := by decide +kernel
  rw [hr] at hbefore hwaiting
  replace hbefore := Option.some.inj hbefore
  simp only [Prod.mk.injEq] at hbefore
  obtain ⟨hstaging, hstart, hok⟩ := hbefore
  exact ⟨r, hr, idle_while_waiting (by decide) ⟨rfl, rfl, rfl⟩ rfl hr (.inl (by omega)) []
    [.moveElements 2, .idle, .finish, .moveElements 1, .idle, .present 9, .moveElements 1]
    hstart hok (Option.some.inj hwaiting)⟩

/-- One byte of the second half arrives while the completion of the first waits. The idle line moves
it, and when the second half is full it is moved once more. -/
theorem idle_moves_while_waiting :
    ∃ r, Machine.receiveRig { memory := ⟨#[7]⟩, controllers := #[{}] } 3 0 2 0 16 = .ok r ∧
      let waiting := r.run [.start, .present 1, .moveElements 1, .present 2, .moveElements 1, .idle,
        .finish, .present 3, .moveElements 1]
      waiting.raised = [.progress] ∧ waiting.queued = [1, 2] ∧ waiting.pump.position = 2 ∧
        waiting.idled = .ok 1 ∧ (waiting.step .idle).queued = [1, 2, 3] ∧
        (waiting.step .idle).pump.position = 3 ∧
        (waiting.run [.idle, .deliver]).pump.position = 2 ∧
        (waiting.run [.idle, .deliver, .present 4, .finish, .deliver]).received = [1, 2, 3, 4] ∧
        (waiting.run [.idle, .deliver, .present 4, .finish, .deliver]).queued =
          [1, 2, 3, 3, 4] := by
  refine ⟨_, rfl, ?_⟩
  decide +kernel

end ReceiveRig

end ScatterGather
