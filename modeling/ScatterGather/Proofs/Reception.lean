import ScatterGather.Proofs.Backlog
import ScatterGather.Proofs.Queue

/-!
# ScatterGather.Proofs.Reception — what a receive pump takes in

A receive pump moves bytes out of its staging area on two occasions: a half is full
(`exec_onInterrupt_progress`), or the line is idle (`exec_onIdle_moves`, `exec_onIdle_still`). Each
says which staged bytes go to the queue and where the next ones are to be looked for.

`Fit` is what holds of a pump whatever happens, also when it does not receive, or was not stopped
before it is started again. It says nothing about bytes; `Staging` adds those.
-/

namespace ScatterGather

namespace ReceivePump

variable (p : ReceivePump) (v : Scene)

/-! ## Parts of a pump -/

/-- The half that the controller is filling, as the pump works it out. -/
def fillingHalf : Nat :=
  if (if p.stream.bound then p.stream.pool.queued - p.stream.standing v
      else p.stream.pool.queued) = 2
  then 0 else 1

theorem exec_executingHalf : v.exec p.executingHalf = (p.fillingHalf v, v) := by
  unfold executingHalf
  rw [Scene.exec_bind, Stream.exec_queued]
  rfl

/-- The staged bytes from the first one not yet moved up to a place. -/
def staged (m : Memory) (upTo : Nat) : List UInt8 :=
  m.readList (p.staging + p.position) (upTo - p.position)

theorem exec_notify : v.exec p.notify = ((), v) := by
  unfold notify
  cases p.callback <;> rfl

variable {p v}

/-- Staged bytes are queued as far as they fit, and nothing else changes. -/
theorem exec_pushStaged (hq : p.queue.Valid) (upTo : Nat) :
    ∃ n queue, v.exec (p.pushStaged upTo) = ((n, { p with queue }), v) ∧
      p.queue.Takes (p.staged v.memory upTo) queue := by
  unfold pushStaged
  rw [Scene.exec_ite]
  by_cases hle : upTo ≤ p.position
  · rw [if_pos hle, staged, Nat.sub_eq_zero_of_le hle]
    refine ⟨0, p.queue, rfl, ?_⟩
    show p.queue.Pushed [] (min 0 _) p.queue
    rw [Nat.zero_min]
    exact hq.pushed_nil
  · rw [if_neg hle, Scene.exec_bind]
    have hpushed := hq.pushArray (p.staged v.memory upTo)
    rcases hpush : p.queue.pushArray (p.staged v.memory upTo) with ⟨n, queue⟩
    rw [hpush] at hpushed
    refine ⟨n, queue, ?_, hpushed⟩
    let finish (r : Nat × ByteQueue) : DriverScript (Nat × ReceivePump) := do
      Script.when (r.1 ≠ 0) (notify { p with queue := r.2 })
      pure (r.1, { p with queue := r.2 })
    show v.exec (finish (p.queue.pushArray (p.staged v.memory upTo))) = _
    rw [hpush]
    show v.exec (Script.when (n ≠ 0) (notify { p with queue }) >>= fun _ =>
      pure (n, { p with queue })) = _
    rw [Scene.exec_bind, Scene.exec_when, exec_notify]
    split <;> rfl

/-! ## Events and idle lines -/

/-- The end of the half in front of the one being filled. -/
def filledPlace (p : ReceivePump) (v : Scene) : Nat :=
  if p.fillingHalf v = 1 then p.half else 2 * p.half

section OnInterrupt

variable {event : TransferEvent} {status : Option Status} {stream : Stream} {v' : Scene}

theorem exec_onInterrupt_other
    (hexec : v.exec (p.stream.onInterrupt event) = ((status, stream), v'))
    (hother : status = none ∨ event ≠ .progress) :
    v.exec (p.onInterrupt event) = ((status, { p with stream }), v') := by
  unfold onInterrupt
  rw [Scene.exec_bind, hexec]
  cases status with
  | none => rfl
  | some status =>
    have hne : event ≠ .progress := hother.resolve_left nofun
    show v'.exec (if event = .progress then _ else _) = _
    rw [if_neg hne]
    rfl

theorem exec_onInterrupt_progress {status : Status} (hq : p.queue.Valid)
    (hexec : v.exec (p.stream.onInterrupt .progress) = ((some status, stream), v')) :
    ∃ queue, v.exec (p.onInterrupt .progress) = ((some status, { p with
        stream, queue, position := filledPlace { p with stream } v' % (2 * p.half) }), v') ∧
      p.queue.Takes (p.staged v'.memory (filledPlace { p with stream } v')) queue := by
  obtain ⟨n, queue, hpush, hpushed⟩ :=
    exec_pushStaged (p := { p with stream }) (v := v') hq (filledPlace { p with stream } v')
  refine ⟨queue, ?_, hpushed⟩
  unfold onInterrupt
  rw [Scene.exec_bind, hexec]
  show v'.exec (executingHalf { p with stream } >>= _) = _
  rw [Scene.exec_bind, exec_executingHalf]
  show v'.exec (pushStaged { p with stream } (filledPlace { p with stream } v') >>= _) = _
  rw [Scene.exec_bind, hpush]
  rfl

end OnInterrupt

theorem exec_onIdle_unbound (hb : p.stream.bound = false) :
    v.exec p.onIdle = ((.ok 0, p), v) := by
  unfold onIdle
  rw [hb]
  rfl

/-- On an idle line nothing is moved if the residue cannot be read, or if the controller has gone on
to a half that the pump has not reached. -/
theorem exec_onIdle_still (hb : p.stream.bound = true)
    (hres : ∀ residue, p.stream.leftover v = .ok residue → p.position / p.half ≠ p.fillingHalf v) :
    ∃ result, v.exec p.onIdle = ((result, p), v) := by
  unfold onIdle
  rw [Scene.exec_ite, if_neg (by simp [hb]), Scene.exec_bind, exec_executingHalf, Scene.exec_bind,
    Stream.exec_residue]
  cases hleft : p.stream.leftover v with
  | error e => exact ⟨_, rfl⟩
  | ok residue =>
    show ∃ result, v.exec (p.executingHalf >>= _) = _
    rw [Scene.exec_bind, exec_executingHalf]
    show ∃ result, v.exec (if p.fillingHalf v ≠ p.fillingHalf v ∨
      p.position / p.half ≠ p.fillingHalf v then _ else _) = _
    -- the half is read twice; on a controller that does not move it is the same
    rw [if_pos (.inr (hres residue hleft))]
    exact ⟨_, rfl⟩

/-- Otherwise what has arrived in the half being filled is moved. -/
theorem exec_onIdle_moves (hq : p.queue.Valid) (hb : p.stream.bound = true) {residue upTo : Nat}
    (hleft : p.stream.leftover v = .ok residue) (hhalf : p.position / p.half = p.fillingHalf v)
    (hupTo : (p.fillingHalf v + 1) * p.half - min residue p.half = upTo) :
    ∃ n queue, v.exec p.onIdle =
        ((.ok n, { p with queue, position := max p.position upTo }), v) ∧
      p.queue.Takes (p.staged v.memory upTo) queue := by
  obtain ⟨n, queue, hpush, hpushed⟩ := exec_pushStaged (v := v) hq upTo
  refine ⟨n, queue, ?_, hpushed⟩
  unfold onIdle
  rw [Scene.exec_ite, if_neg (by simp [hb]), Scene.exec_bind, exec_executingHalf, Scene.exec_bind,
    Stream.exec_residue, hleft]
  show v.exec (p.executingHalf >>= _) = _
  rw [Scene.exec_bind, exec_executingHalf]
  show v.exec (if p.fillingHalf v ≠ p.fillingHalf v ∨ p.position / p.half ≠ p.fillingHalf v then _
    else _) = _
  rw [if_neg (not_or.mpr ⟨fun hne => hne rfl, fun hne => hne hhalf⟩)]
  show v.exec (p.pushStaged ((p.fillingHalf v + 1) * p.half - min residue p.half) >>= _) = _
  rw [hupTo, Scene.exec_bind, hpush]
  rfl

/-! ## What holds at any time -/

/-- What holds of a receive pump at any time. -/
structure Fit (p : ReceivePump) (v : Scene) : Prop where
  sound : ∃ k, p.stream.Sound v k
  pair : p.stream.pool.capacity = 2
  config : p.stream.config = ReceivePump.config
  callback : p.stream.callback = some .ignore
  queue : p.queue.Valid
  half_pos : 0 < p.half
  half_le : p.half ≤ maxTransfer
  staging : p.staging + 2 * p.half ≤ v.memory.bytes.size
  apart : p.source < p.staging ∨ p.staging + 2 * p.half ≤ p.source

/-- A pump that is made is fit. -/
theorem Fit.made (v : Scene) (channel : Channel) (owner : OwnerId) (ownership : Ownership)
    {queue : ByteQueue} {half source : Nat} (hq : queue.Valid) (hhalf : admissible half = .ok ())
    (hc : v.current = 0)
    (hout : source < (v.memory.allocate (2 * half)).1 ∨
      (v.memory.allocate (2 * half)).1 + 2 * half ≤ source) :
    Fit
      { stream :=
          { Stream.idle channel owner (v.table.allocate 2).1 2 ReceivePump.config with
            callback := some .ignore }
        queue, half, staging := (v.memory.allocate (2 * half)).1, source }
      { v with
        ownership, table := (v.table.allocate 2).2
        memory := (v.memory.allocate (2 * half)).2 } := by
  have hidle := Stream.Sound.idle v Nat.two_pos hc channel owner ReceivePump.config ownership
  have hbounds := bounds_of_admissible hhalf
  exact
    { sound := ⟨0, hidle.congr rfl rfl rfl rfl rfl rfl rfl fun _ => rfl⟩
      pair := rfl
      config := rfl
      callback := rfl
      queue := hq
      half_pos := hbounds.1
      half_le := hbounds.2
      staging := v.memory.allocate_le (2 * half)
      apart := hout }

/-- What becomes of a pump by an operation: it is fit, on its channel, with halves of the same
size. -/
structure Stays (p p' : ReceivePump) (v' : Scene) : Prop where
  fit : p'.Fit v'
  channel : p'.stream.channel = p.stream.channel
  half : p'.half = p.half

/-- What the stream does, and what is queued or taken, keeps a pump fit. -/
theorem Fit.change (h : p.Fit v) {stream : Stream} {v' : Scene} {k : Nat} (hs : stream.Sound v' k)
    (hkept : p.stream.Kept stream) (hsize : v'.memory.bytes.size = v.memory.bytes.size)
    {queue : ByteQueue} (hq : queue.Valid) (position : Nat) :
    p.Stays { p with stream, queue, position } v' where
  fit :=
    { sound := ⟨k, hs⟩
      pair := hkept.capacity.trans h.pair
      config := hkept.config.trans h.config
      callback := hkept.callback.trans h.callback
      queue := hq
      half_pos := h.half_pos
      half_le := h.half_le
      staging := by
        rw [hsize]
        exact h.staging
      apart := h.apart }
  channel := hkept.channel
  half := rfl

theorem Fit.exec_stop (h : p.Fit v) : p.Stays (v.exec p.stop).1 (v.exec p.stop).2 := by
  obtain ⟨k, hk⟩ := h.sound
  unfold stop
  rw [Scene.exec_bind]
  exact h.change hk.exec_disable (p.stream.kept_disable v) (v.size_exec _) h.queue p.position

theorem Fit.exec_onInterrupt (h : p.Fit v) (event : TransferEvent) :
    p.Stays (v.exec (p.onInterrupt event)).1.2 (v.exec (p.onInterrupt event)).2 := by
  obtain ⟨k, hk⟩ := h.sound
  have hsound := hk.exec_onInterrupt event
  have hkept := p.stream.kept_onInterrupt v event
  have hsize := v.size_exec (p.stream.onInterrupt event)
  rcases hexec : v.exec (p.stream.onInterrupt event) with ⟨⟨status, stream⟩, v'⟩
  rw [hexec] at hsound hkept hsize
  by_cases hother : status = none ∨ event ≠ .progress
  · rw [exec_onInterrupt_other hexec hother]
    exact h.change hsound hkept hsize h.queue p.position
  · -- a completion on a pump that receives
    obtain ⟨hsome, hevent⟩ := not_or.mp hother
    obtain rfl := Decidable.not_not.mp hevent
    obtain ⟨status, rfl⟩ := Option.ne_none_iff_exists'.mp hsome
    obtain ⟨queue, hresult, hpushed⟩ := exec_onInterrupt_progress h.queue hexec
    rw [hresult]
    exact h.change hsound hkept hsize hpushed.valid _

theorem Fit.exec_onIdle (h : p.Fit v) : p.Stays (v.exec p.onIdle).1.2 (v.exec p.onIdle).2 := by
  obtain ⟨k, hk⟩ := h.sound
  by_cases hb : p.stream.bound = true
  · by_cases hres : ∀ residue, p.stream.leftover v = .ok residue →
        p.position / p.half ≠ p.fillingHalf v
    · obtain ⟨result, hresult⟩ := exec_onIdle_still hb hres
      rw [hresult]
      exact ⟨h, rfl, rfl⟩
    · obtain ⟨residue, hres⟩ := Classical.not_forall.mp hres
      obtain ⟨hleft, hhalf⟩ := Classical.not_imp.mp hres
      obtain ⟨n, queue, hresult, hpushed⟩ :=
        exec_onIdle_moves h.queue hb hleft (Decidable.not_not.mp hhalf) rfl
      rw [hresult]
      exact h.change hk (.refl _) rfl hpushed.valid _
  · rw [exec_onIdle_unbound (Bool.eq_false_iff.mpr hb)]
    exact ⟨h, rfl, rfl⟩

theorem Fit.read (h : p.Fit v) (buffer : List UInt8) : p.Stays (p.read buffer).2.2 v := by
  obtain ⟨k, hk⟩ := h.sound
  exact h.change hk (.refl _) rfl (h.queue.popArray buffer).1 p.position

/-- What leaves the stream sound and the amount of memory as it is keeps a pump fit. -/
theorem Fit.congr (h : p.Fit v) {v' : Scene}
    (hs : ∀ k, p.stream.Sound v k → ∃ k', p.stream.Sound v' k')
    (hsize : v'.memory.bytes.size = v.memory.bytes.size) : p.Fit v' := by
  obtain ⟨k, hk⟩ := h.sound
  obtain ⟨k', hk'⟩ := hs k hk
  exact (h.change hk' (.refl _) hsize h.queue p.position).fit

end ReceivePump

end ScatterGather
