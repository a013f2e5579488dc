import ScatterGather.Proofs.ReceiveRig

/-!
# ScatterGather.Proofs.LateService — two completions that wait at once

A receive pump infers which half was filled from the half that is being filled now, on the premise
that the controller has gone on by one half since the last completion was handled. When both halves
were filled before the first completion is handled, the controller fills the first of the two again,
and the premise is wrong.

`Fills` is what `Receiving` says of the controller alone, wherever the pump looks for bytes, and
`Overtaken` adds what the staging area holds when two completions wait: the last `2 * half` bytes
received, part of which the controller is about to overwrite. From there `Fills.exec_onInterrupt`
says what each completion moves, and `ReceiveRig.late_service` what comes of it. The outcome depends
on the half that the pump has reached. If it is the first, one completion moves all that waits, and
every further one moves the whole staging area again. If it is the second, completions move nothing.
-/

namespace ScatterGather

namespace ReceivePump

variable {p : ReceivePump} {v : Scene} {received : List UInt8} {finished handled consumed : Nat}

/-! ## A controller that fills a half -/

/-- The controller fills a half, wherever the pump looks for bytes: with its position at the start
of that half, it would be receiving. -/
def Fills (p : ReceivePump) (v : Scene) (received : List UInt8) (finished : Nat) : Prop :=
  Receiving { p with position := finished % 2 * p.half } v received finished finished
    (finished * p.half)

theorem Receiving.fills (h : p.Receiving v received finished handled consumed) :
    p.Fills v received finished := by
  have hcount := h.count
  have hle := h.remaining_le
  rw [Nat.succ_mul] at hcount
  refine ⟨(h.fit.change h.sound (.refl _) rfl h.fit.queue _).fit, h.sound, h.bound, h.queued,
    h.blocks, h.armed, h.remaining_le, h.count, h.filling,
    fun hlate => absurd hlate (Nat.ne_of_lt (Nat.lt_succ_self _)), .inl rfl, Nat.le_refl _, ?_, ?_,
    ?_⟩
  · exact Nat.mul_le_mul_right _ (Nat.le_succ _)
  · show finished * p.half ≤ received.length
    omega
  · show _ = finished % 2 * p.half + (finished * p.half - finished * p.half)
    rw [Nat.sub_self]
    rfl

/-- Two halves on, it is the same half. -/
theorem halfAddress_add_two (p : ReceivePump) (n : Nat) :
    p.halfAddress (n + 2) = p.halfAddress n := by
  rw [halfAddress, halfAddress, Nat.add_mod_right]

/-- How many bytes the half being filled has. -/
theorem Fills.length_eq (h : p.Fills v received finished) :
    received.length = finished * p.half + (p.half - v.remaining) := by
  have hcount : received.length + v.remaining = (finished + 1) * p.half := h.count
  have hle : v.remaining ≤ p.half := h.remaining_le
  rw [Nat.succ_mul] at hcount
  omega

/-- What is queued or taken, and what the stream notes of an event, leaves the controller alone. -/
theorem Fills.congr (h : p.Fills v received finished) {v' : Scene} {state : StreamState}
    {queue : ByteQueue} (hq : queue.Valid) (position : Nat) (hmemory : v'.memory = v.memory)
    (htable : v'.table = v.table) (hcurrent : v'.current = v.current)
    (hremaining : v'.remaining = v.remaining) :
    Fills { p with stream := { p.stream with state }, queue, position } v' received finished :=
  Receiving.congr h hq hmemory htable hcurrent hremaining

/-- The place up to which a completion moves staged bytes: the end of the half in front of the one
that is being filled. -/
def endInFront (p : ReceivePump) (finished : Nat) : Nat :=
  if finished % 2 = 0 then 2 * p.half else p.half

/-- **A completion moves the staged bytes up to the end of the half in front**, and leaves the pump
at the start of the half that is being filled. -/
theorem Fills.exec_onInterrupt (h : p.Fills v received finished) :
    ∃ queue, v.exec (p.onInterrupt .progress) =
        ((some .busy, { p with
          stream := { p.stream with state := .busy }, queue
          position := finished % 2 * p.half }), v) ∧
      p.queue.Takes (p.staged v.memory (p.endInFront finished)) queue := by
  have hexec : v.exec (p.stream.onInterrupt .progress) =
      ((some .busy, { p.stream with state := .busy }), v) := by
    have hbound : p.stream.bound = true := h.bound
    have hcircular : p.stream.isCircular = true := h.circular
    rw [Stream.exec_onInterrupt, if_pos hbound, Stream.exec_react_progress, Stream.retired,
      if_pos hcircular]
    rfl
  have hfilling : p.fillingHalf v = finished % 2 := h.fillingHalf_eq
  have hplace : filledPlace { p with stream := { p.stream with state := .busy } } v =
      p.endInFront finished := by
    show (if p.fillingHalf v = 1 then p.half else 2 * p.half) = _
    rw [hfilling, endInFront]
    rcases Nat.mod_two_eq_zero_or_one finished with hm | hm <;> rw [hm] <;> rfl
  have hwrap : p.endInFront finished % (2 * p.half) = finished % 2 * p.half := by
    have hpos : 0 < p.half := h.fit.half_pos
    rw [endInFront]
    rcases Nat.mod_two_eq_zero_or_one finished with hm | hm
    · rw [hm, if_pos rfl, Nat.mod_self, Nat.zero_mul]
    · rw [hm, if_neg (by decide), Nat.mod_eq_of_lt (by omega), Nat.one_mul]
  have hq : p.queue.Valid := h.fit.queue
  obtain ⟨queue, hresult, hpushed⟩ := exec_onInterrupt_progress hq hexec
  rw [hplace] at hresult hpushed
  rw [hwrap] at hresult
  exact ⟨queue, hresult, hpushed⟩

/-! ## A pump that was overtaken -/

/-- What memory holds while the completions of two halves wait. The controller fills the first of
the two again. -/
structure Overtaken (p : ReceivePump) (v : Scene) (received : List UInt8) (handled : Nat) :
    Prop where
  fills : p.Fills v received (handled + 2)
  /-- What is not overwritten yet of the half that was filled first. -/
  left : v.memory.readList (p.halfAddress handled + (p.half - v.remaining)) v.remaining =
    (received.drop (handled * p.half + (p.half - v.remaining))).take v.remaining
  waiting : v.memory.readList (p.halfAddress (handled + 1)) p.half =
    (received.drop ((handled + 1) * p.half)).take p.half

/-- The controller finishes a half while the completion of the other waits. -/
theorem Receiving.overtake (h : p.Receiving v received (handled + 1) handled consumed) :
    v.finishEvent = some .progress ∧
      p.Overtaken v.finish (received ++ (v.writes v.remaining).map Prod.snd) handled := by
  obtain ⟨hevent, hreceiving⟩ := Receiving.finish h.fills
  obtain ⟨-, hne⟩ := h.current_eq
  have hmemory : v.finish.memory = (v.moveElements v.remaining).memory := by
    rw [Scene.finish_running hne]
    rfl
  have hremaining : v.finish.remaining = p.half := h.goesOn.2.2
  refine ⟨hevent, ?_, ?_, hreceiving.waiting rfl⟩
  · exact hreceiving.fills
  · rw [hremaining, Nat.sub_self, Nat.add_zero, Nat.add_zero, hmemory]
    exact h.waiting_moveElements v.remaining rfl

/-- Received bytes go over those that were received two halves before. -/
theorem Overtaken.moveElements (h : p.Overtaken v received handled) (count : Nat) :
    p.Overtaken (v.moveElements count) (received ++ (v.writes count).map Prod.snd) handled := by
  have hmoved : p.Fills (v.moveElements count) _ (handled + 2) :=
    Receiving.moveElements h.fills count
  have hmemory : (v.moveElements count).memory =
      v.memory.writeList (p.halfAddress (handled + 2) + (p.half - v.remaining)) _ :=
    Receiving.memory_moveElements h.fills count
  have hremaining := Receiving.remaining_moveElements h.fills count
  have hlen := Receiving.arriving_le h.fills count
  have hlength := h.fills.length_eq
  have hle : v.remaining ≤ p.half := h.fills.remaining_le
  have hhalves := p.halfAddress_succ handled
  rw [halfAddress_add_two] at hmemory
  rw [Nat.succ_mul, Nat.succ_mul] at hlength
  generalize (v.writes count).map Prod.snd = bytes at hmoved hmemory hremaining hlen ⊢
  obtain ⟨left, hleft⟩ := Nat.exists_eq_add_of_le hlen
  have hstart : p.half - left = p.half - v.remaining + bytes.length := by omega
  refine ⟨hmoved, ?_, ?_⟩
  · -- the bytes that arrive take the place of the first that were left
    have hold := congrArg (List.drop bytes.length) h.left
    rw [Memory.drop_readList _ _ hlen, List.drop_take, List.drop_drop] at hold
    have hrest : v.remaining - bytes.length = left := by omega
    rw [hremaining, hrest, hstart, hmemory, ← Nat.add_assoc, ← Nat.add_assoc,
      v.memory.readList_writeList_of_apart (.inr (Nat.le_refl _)),
      List.drop_append_of_le_length (by omega), List.take_append_of_le_length]
    · rw [hrest] at hold
      exact hold
    · rw [List.length_drop]
      omega
  · rw [hmemory, v.memory.readList_writeList_of_apart (by omega), h.waiting,
      List.drop_append_of_le_length (by rw [Nat.succ_mul]; omega), List.take_append_of_le_length]
    rw [List.length_drop, Nat.succ_mul]
    omega

/-- The register, and all other memory outside the staging area, can change at any time. -/
theorem Overtaken.outside (h : p.Overtaken v received handled) {m : Memory}
    (hsize : m.bytes.size = v.memory.bytes.size)
    (hout : ∀ a, p.staging ≤ a → a < p.staging + 2 * p.half → m.read a = v.memory.read a) :
    p.Overtaken { v with memory := m } received handled := by
  have hle : v.remaining ≤ p.half := h.fills.remaining_le
  refine ⟨Receiving.outside h.fills hsize hout, ?_, ?_⟩
  · refine Eq.trans (Memory.readList_congr ?_) h.left
    intro i hi
    have hi' : i < v.remaining := hi
    have hbounds := p.halfAddress_bounds handled
    exact hout _ (by omega) (by omega)
  · refine Eq.trans (Memory.readList_congr ?_) h.waiting
    intro i hi
    have hbounds := p.halfAddress_bounds (handled + 1)
    exact hout _ (by omega) (by omega)

theorem Overtaken.congr (h : p.Overtaken v received handled) {v' : Scene} {state : StreamState}
    {queue : ByteQueue} (hq : queue.Valid) (position : Nat) (hmemory : v'.memory = v.memory)
    (htable : v'.table = v.table) (hcurrent : v'.current = v.current)
    (hremaining : v'.remaining = v.remaining) :
    Overtaken { p with stream := { p.stream with state }, queue, position } v' received
      handled where
  fills := h.fills.congr hq position hmemory htable hcurrent hremaining
  left := by
    rw [hmemory, hremaining]
    exact h.left
  waiting := by
    rw [hmemory]
    exact h.waiting

/-! ## What the staging area holds -/

/-- All that the staging area holds. -/
def area (p : ReceivePump) (m : Memory) : List UInt8 :=
  m.readList p.staging (2 * p.half)

/-- Behind a place in the half that was filled first, at which the controller has not arrived yet,
the staging area holds what followed there. -/
theorem Overtaken.readList_behind (h : p.Overtaken v received handled) (heven : handled % 2 = 0)
    {x : Nat} (hlow : p.half - v.remaining ≤ x) (hhigh : x ≤ p.half) :
    v.memory.readList (p.staging + x) (2 * p.half - x) =
      (received.drop (handled * p.half + x)).take (2 * p.half - x) := by
  have hle : v.remaining ≤ p.half := h.fills.remaining_le
  have hfirst : p.halfAddress handled = p.staging := by
    rw [halfAddress, heven, Nat.zero_mul, Nat.add_zero]
  have hsecond : p.halfAddress (handled + 1) = p.staging + p.half := by
    have hodd : (handled + 1) % 2 = 1 := by omega
    rw [halfAddress, hodd, Nat.one_mul]
  have hsplit : 2 * p.half - x = (p.half - x) + p.half := by omega
  have hskip : x - (p.half - v.remaining) ≤ v.remaining := by omega
  -- what is left of the first half, from the place on
  have hleft := congrArg (List.drop (x - (p.half - v.remaining))) h.left
  rw [Memory.drop_readList _ _ hskip, List.drop_take, List.drop_drop, hfirst, Nat.add_assoc,
    Nat.add_assoc, Nat.add_sub_cancel' hlow] at hleft
  have hrest : v.remaining - (x - (p.half - v.remaining)) = p.half - x := by omega
  rw [hrest] at hleft
  have hwaiting := h.waiting
  rw [hsecond, Nat.succ_mul] at hwaiting
  have hnext : p.staging + x + (p.half - x) = p.staging + p.half := by omega
  have hdrop : handled * p.half + x + (p.half - x) = handled * p.half + p.half := by omega
  rw [hsplit, Memory.readList_add, hleft, hnext, hwaiting, List.take_add, List.drop_drop, hdrop]

/-- The staging area holds what the half being filled has got, and behind it the last bytes of the
two halves before. -/
theorem Overtaken.area_eq (h : p.Overtaken v received handled) (heven : handled % 2 = 0) :
    p.area v.memory =
      received.drop ((handled + 2) * p.half) ++
        (received.drop (received.length - 2 * p.half)).take
          ((handled + 2) * p.half - (received.length - 2 * p.half)) := by
  have hle : v.remaining ≤ p.half := h.fills.remaining_le
  have hlength := h.fills.length_eq
  have hfirst : p.halfAddress (handled + 2) = p.staging := by
    rw [halfAddress_add_two, halfAddress, heven, Nat.zero_mul, Nat.add_zero]
  have hfilling : v.memory.readList (p.halfAddress (handled + 2)) (p.half - v.remaining) =
      received.drop ((handled + 2) * p.half) := h.fills.filling
  rw [hfirst] at hfilling
  have hbehind := h.readList_behind heven (Nat.le_refl _) (Nat.sub_le ..)
  have hsum : (handled + 2) * p.half = handled * p.half + 2 * p.half := Nat.add_mul ..
  have hsplit : 2 * p.half = (p.half - v.remaining) + (2 * p.half - (p.half - v.remaining)) := by
    omega
  have hplace : received.length - 2 * p.half = handled * p.half + (p.half - v.remaining) := by omega
  have hcount : (handled + 2) * p.half - (received.length - 2 * p.half) =
      2 * p.half - (p.half - v.remaining) := by omega
  rw [hcount, hplace, ← hbehind, ← hfilling, area, ← Memory.readList_add, ← hsplit]

/-- The staged bytes from a place in the half that was filled first to the end of the other are the
next bytes of both, as long as none of them is overwritten. -/
theorem Overtaken.staged_eq (h : p.Overtaken v received handled) (heven : handled % 2 = 0)
    (hge : handled * p.half ≤ consumed) (hle : consumed ≤ (handled + 1) * p.half)
    (hposition : p.position = handled % 2 * p.half + (consumed - handled * p.half))
    (hkept : received.length ≤ consumed + 2 * p.half) :
    p.staged v.memory (2 * p.half) =
      (received.drop consumed).take ((handled + 2) * p.half - consumed) := by
  obtain ⟨x, rfl⟩ := Nat.exists_eq_add_of_le hge
  have hlength := h.fills.length_eq
  have hsum : (handled + 2) * p.half = handled * p.half + 2 * p.half := Nat.add_mul ..
  rw [Nat.succ_mul] at hle
  rw [heven, Nat.zero_mul, Nat.zero_add, Nat.add_sub_cancel_left] at hposition
  have hcount : (handled + 2) * p.half - (handled * p.half + x) = 2 * p.half - x := by omega
  rw [staged, hposition, hcount]
  exact h.readList_behind heven (by omega) (by omega)

end ReceivePump

/-! ## Runs -/

/-- Whether an action leaves waiting completions to wait: no event but a timeout, and the controller
does not finish a further half. -/
def ReceiveAction.waits : ReceiveAction → Bool
  | .read _ | .moveElements _ | .present _ | .fillFifo _ | .contend _ => true
  | .interrupt event => event = .timeout
  | .start | .stop | .deliver | .idle | .finish => false

namespace ReceiveRig

variable {r : ReceiveRig} {before consumed handled : Nat}

/-- A rig whose pump has two completions to handle. -/
structure Late (before : Nat) (r : ReceiveRig) (consumed : Nat) : Prop where
  ready : r.Ready
  overtaken : r.pump.Overtaken r.scene r.received r.delivered
  consumed_ge : r.delivered * r.pump.half ≤ consumed
  consumed_le : consumed ≤ (r.delivered + 1) * r.pump.half
  position :
    r.pump.position = r.delivered % 2 * r.pump.half + (consumed - r.delivered * r.pump.half)
  raised : r.raised = [.progress, .progress]
  ledger : Ledger before r.received consumed r.queued r.dropped

/-- A second half is finished while the completion of the first waits. -/
theorem Session.overtake {finished : Nat} (h : r.Session before finished consumed)
    (hraised : r.raised = [.progress]) : (r.step .finish).Late before consumed := by
  obtain rfl : finished = r.delivered + 1 := by
    apply h.receiving.lag.resolve_left
    intro heq
    have hnone := h.raised
    rw [hraised, if_pos heq] at hnone
    cases hnone
  obtain ⟨hevent, hovertaken⟩ := h.receiving.overtake
  have hscene : (r.step .finish).scene = r.scene.finish := h.ready.attached.scene_finish
  have hraised' : (r.step .finish).raised = [.progress, .progress] := by
    show r.raised ++ (r.machine.finish r.index).1.toList = _
    rw [hraised, h.ready.attached.finish_event]
    show [TransferEvent.progress] ++ r.scene.finishEvent.toList = _
    rw [hevent]
    rfl
  refine ⟨h.ready.step .finish, ?_, h.receiving.consumed_ge, h.receiving.consumed_le,
    h.receiving.position, hraised', h.ledger.receive _⟩
  rw [hscene]
  exact hovertaken

/-- What touches neither queue nor record leaves the account. -/
theorem Late.still (h : r.Late before consumed) {a : ReceiveAction}
    (hovertaken : (r.step a).pump.Overtaken (r.step a).scene r.received r.delivered)
    (hhalf : (r.step a).pump.half = r.pump.half)
    (hposition : (r.step a).pump.position = r.pump.position)
    (hqueued : (r.step a).queued = r.queued) (hdropped : (r.step a).dropped = r.dropped)
    (hreceived : (r.step a).received = r.received) (hdelivered : (r.step a).delivered = r.delivered)
    (hraised : (r.step a).raised = r.raised) : (r.step a).Late before consumed := by
  refine ⟨h.ready.step a, ?_, ?_, ?_, ?_, hraised.trans h.raised, ?_⟩
  · rw [hreceived, hdelivered]
    exact hovertaken
  · rw [hdelivered, hhalf]
    exact h.consumed_ge
  · rw [hdelivered, hhalf]
    exact h.consumed_le
  · rw [hposition, hdelivered, hhalf]
    exact h.position
  · rw [hreceived, hqueued, hdropped]
    exact h.ledger

theorem Late.read (h : r.Late before consumed) (buffer : List UInt8) :
    (r.step (.read buffer)).Late before consumed := by
  have hq : r.pump.queue.Valid := h.overtaken.fills.fit.queue
  obtain ⟨hvalid, hlist, hdropped⟩ := hq.popArray buffer
  have hovertaken : (r.pump.read buffer).2.2.Overtaken r.scene r.received r.delivered :=
    h.overtaken.congr hvalid r.pump.position rfl rfl rfl rfl
  have hqueued : (r.step (.read buffer)).queued = r.queued := by
    show r.taken ++ _ ++ _ = r.taken ++ _
    rw [List.append_assoc]
    exact congrArg (r.taken ++ ·) hlist
  exact h.still hovertaken rfl rfl hqueued hdropped rfl rfl rfl

theorem Late.timeout (h : r.Late before consumed) :
    (r.step (.interrupt .timeout)).Late before consumed := by
  have hbound : r.pump.stream.bound = true := h.overtaken.fills.bound
  obtain ⟨left, hexec⟩ := h.ready.fit.exec_timeout hbound
  obtain ⟨hpump, hscene⟩ := h.ready.driven
    (P := fun p v =>
      p = { r.pump with stream := { r.pump.stream with state := .timeout } } ∧
        v = { r.scene with pendingPolls := left })
    (r.pump.onInterrupt .timeout) Prod.snd (by
      rw [hexec]
      exact ⟨rfl, rfl⟩)
  replace hpump : (r.step (.interrupt .timeout)).pump = _ := hpump
  replace hscene : (r.step (.interrupt .timeout)).scene = _ := hscene
  have hqueue : (r.step (.interrupt .timeout)).pump.queue = r.pump.queue := by rw [hpump]
  refine h.still ?_ (by rw [hpump]) (by rw [hpump]) ?_ ?_ rfl rfl rfl
  · rw [hpump, hscene]
    exact h.overtaken.congr h.overtaken.fills.fit.queue r.pump.position rfl rfl rfl rfl
  · rw [queued, hqueue]
    rfl
  · rw [dropped, hqueue]
    rfl

theorem Late.step (h : r.Late before consumed) {a : ReceiveAction} (ha : a.waits = true) :
    (r.step a).Late before consumed := by
  have hq : r.pump.queue.Valid := h.overtaken.fills.fit.queue
  cases a with
  | read buffer => exact h.read buffer
  | interrupt event =>
    obtain rfl : event = .timeout := of_decide_eq_true ha
    exact h.timeout
  | moveElements count =>
    have hscene : (r.step (.moveElements count)).scene = r.scene.moveElements count :=
      h.ready.attached.scene_moveElements count
    refine ⟨h.ready.step _, ?_, h.consumed_ge, h.consumed_le, h.position, h.raised,
      h.ledger.receive _⟩
    rw [hscene]
    exact h.overtaken.moveElements count
  | present value =>
    have hapart : r.pump.source < r.pump.staging ∨
        r.pump.staging + 2 * r.pump.half ≤ r.pump.source := h.overtaken.fills.fit.apart
    have hovertaken := h.overtaken.outside (m := r.machine.memory.write r.pump.source value)
      (r.machine.memory.size_write _ _) (by
        intro a hlow hhigh
        rw [Memory.read_write, if_neg (by omega)]
        rfl)
    exact h.still hovertaken rfl rfl rfl rfl rfl rfl rfl
  | fillFifo polls =>
    have hscene : (r.step (.fillFifo polls)).scene = { r.scene with pendingPolls := polls } :=
      h.ready.attached.scene_setController _
    refine h.still ?_ rfl rfl rfl rfl rfl rfl rfl
    rw [hscene]
    exact h.overtaken.congr hq r.pump.position rfl rfl rfl rfl
  | contend ownership =>
    exact h.still (h.overtaken.congr hq r.pump.position rfl rfl rfl rfl) rfl rfl rfl rfl rfl rfl rfl
  | start | stop | deliver | idle | finish => cases ha

theorem Late.run (h : r.Late before consumed) {actions : List ReceiveAction}
    (hwaits : ∀ a ∈ actions, a.waits = true) : (r.run actions).Late before consumed := by
  induction actions generalizing r with
  | nil => exact h
  | cons a actions ih =>
    exact ih (h.step (hwaits a List.mem_cons_self)) fun b hb => hwaits b (List.mem_cons_of_mem a hb)

/-! ## Delivery -/

/-- What the delivery of a completion does to a rig whose pump was overtaken. -/
structure Served (r : ReceiveRig) (handled : Nat) (r' : ReceiveRig) : Prop where
  ready : r'.Ready
  overtaken : r'.pump.Overtaken r'.scene r.received handled
  /-- The pump expects the next bytes at the start of the half that is being filled. -/
  position : r'.pump.position = handled % 2 * r.pump.half
  half : r'.pump.half = r.pump.half
  queue : r.pump.queue.Takes
    (r.pump.staged r.scene.memory (r.pump.endInFront (handled + 2))) r'.pump.queue
  taken : r'.taken = r.taken
  received : r'.received = r.received

theorem Ready.served (hready : r.Ready) (h : r.pump.Overtaken r.scene r.received handled)
    {rest : List TransferEvent} (hraised : r.raised = .progress :: rest) :
    r.Served handled (r.step .deliver) ∧ (r.step .deliver).raised = rest := by
  obtain ⟨queue, hexec, htakes⟩ := h.fills.exec_onInterrupt
  obtain ⟨hpump, hscene⟩ := hready.driven
    (P := fun p v =>
      p = { r.pump with
        stream := { r.pump.stream with state := .busy }, queue
        position := (handled + 2) % 2 * r.pump.half } ∧ v = r.scene)
    (r.pump.onInterrupt .progress) Prod.snd (by
      rw [hexec]
      exact ⟨rfl, rfl⟩)
  have hstep := step_deliver_cons hraised
  have hpump' : (r.step .deliver).pump = { r.pump with
      stream := { r.pump.stream with state := .busy }, queue
      position := (handled + 2) % 2 * r.pump.half } := by
    rw [hstep]
    exact hpump
  have hscene' : (r.step .deliver).scene = r.scene := by
    rw [hstep]
    exact hscene
  refine ⟨⟨hready.step .deliver, ?_, ?_, ?_, ?_, ?_, ?_⟩, ?_⟩
  · rw [hpump', hscene']
    exact h.congr htakes.valid _ rfl rfl rfl rfl
  · rw [hpump', Nat.add_mod_right]
  · rw [hpump']
  · rw [hpump']
    exact htakes
  · rw [hstep]
    rfl
  · rw [hstep]
    rfl
  · rw [hstep]

/-- What comes of two completions that wait at once. -/
structure LateService (before : Nat) (r : ReceiveRig) (consumed : Nat) : Prop where
  waiting : r.raised = [.progress, .progress]
  /-- So far each byte consumed was queued once, in order, or counted once as dropped, -/
  ledger : Ledger before r.received consumed r.queued r.dropped
  /-- and the next byte to be consumed is at the pump's position. -/
  position : r.delivered * r.pump.half ≤ consumed ∧ consumed ≤ (r.delivered + 1) * r.pump.half ∧
    r.pump.position = r.delivered % 2 * r.pump.half + (consumed - r.delivered * r.pump.half)
  /-- Each delivery makes the pump go on at the start of the half that is being filled. -/
  goesOn : (r.step .deliver).pump.position = r.delivered % 2 * r.pump.half ∧
    ((r.step .deliver).step .deliver).pump.position = r.delivered % 2 * r.pump.half
  /-- A pump that has reached the first half moves with one delivery all that waits, provided that
  nothing of it was overwritten; -/
  folded : r.delivered % 2 = 0 → r.received.length ≤ consumed + 2 * r.pump.half →
    r.pump.queue.Takes
      ((r.received.drop consumed).take ((r.delivered + 2) * r.pump.half - consumed))
      (r.step .deliver).pump.queue
  /-- and with a second delivery the whole staging area: first what has arrived since, which will be
  moved once more when its half is full, then the last bytes that were moved already. -/
  repeated : r.delivered % 2 = 0 →
    (r.step .deliver).pump.queue.Takes
      (r.received.drop ((r.delivered + 2) * r.pump.half) ++
        (r.received.drop (r.received.length - 2 * r.pump.half)).take
          ((r.delivered + 2) * r.pump.half - (r.received.length - 2 * r.pump.half)))
      ((r.step .deliver).step .deliver).pump.queue
  /-- A pump that has reached the second half moves nothing. -/
  skipped : r.delivered % 2 = 1 → (r.step .deliver).queued = r.queued ∧
    ((r.step .deliver).step .deliver).queued = r.queued

/-- No staged bytes lie between the second half and the end of the first. -/
theorem Served.skips {r' : ReceiveRig} (h : r.Served handled r') (hodd : handled % 2 = 1)
    (hposition : r.pump.half ≤ r.pump.position) : r'.queued = r.queued := by
  have hend : r.pump.endInFront (handled + 2) = r.pump.half := by
    rw [ReceivePump.endInFront, if_neg (by omega)]
  have htakes := h.queue
  rw [hend, ReceivePump.staged, Nat.sub_eq_zero_of_le hposition] at htakes
  rw [queued, queued, h.taken, htakes.toList]
  show r.taken ++ (r.pump.queue.toList ++ List.take _ []) = _
  rw [List.take_nil, List.append_nil]

theorem Late.service (h : r.Late before consumed) : r.LateService before consumed := by
  have hhalves : (r.delivered + 2) % 2 = r.delivered % 2 := Nat.add_mod_right ..
  obtain ⟨hfirst, hraised⟩ := h.ready.served h.overtaken h.raised
  have hovertaken := hfirst.overtaken
  rw [← hfirst.received] at hovertaken
  obtain ⟨hsecond, -⟩ := hfirst.ready.served hovertaken hraised
  have hposition := h.position
  refine ⟨h.raised, h.ledger, ⟨h.consumed_ge, h.consumed_le, h.position⟩, ⟨hfirst.position, ?_⟩,
    ?_, ?_, ?_⟩
  · rw [hsecond.position, hfirst.half]
  · intro heven hkept
    have hqueue := hfirst.queue
    rw [ReceivePump.endInFront, if_pos (hhalves.trans heven),
      h.overtaken.staged_eq heven h.consumed_ge h.consumed_le h.position hkept] at hqueue
    exact hqueue
  · intro heven
    have hqueue := hsecond.queue
    have hstart : (r.step .deliver).pump.position = 0 := by
      rw [hfirst.position, heven, Nat.zero_mul]
    have harea := hovertaken.area_eq heven
    rw [hfirst.received, hfirst.half] at harea
    rw [ReceivePump.endInFront, if_pos (hhalves.trans heven), ReceivePump.staged, hstart] at hqueue
    rw [← harea]
    exact hqueue
  · intro hodd
    have hone := hfirst.skips hodd (by
      rw [hposition, hodd]
      omega)
    have htwo := hsecond.skips hodd (by
      rw [hfirst.position, hfirst.half, hodd]
      omega)
    exact ⟨hone, htwo.trans hone⟩

/-- **Late service of completions is not made up for.** A pump was started on an empty queue and
served in time, until both halves are finished before the first completion is delivered. If the pump
has reached the first half, one delivery moves every byte of both halves once and in order, and the
other moves the staging area again; if it has reached the second half, neither moves a byte. -/
theorem late_service {m : Machine} {number index half source requested : Nat}
    (hindex : index < m.controllers.size) (htruth : (m.controller index).Truthful)
    (hstop : (m.controller index).current = 0)
    (hr : m.receiveRig number index half source requested = .ok r)
    (hout : source < r.pump.staging ∨ r.pump.staging + 2 * half ≤ source)
    (earlier actions meanwhile : List ReceiveAction) (hstart : (r.run earlier).starts = true)
    (hempty : (r.run earlier).pump.queue.ring.isEmpty = true)
    (hok : ((r.run earlier).step .start).admitsAll actions = true)
    (hraised : (r.run (earlier ++ .start :: actions)).raised = [.progress])
    (hwaits : ∀ a ∈ meanwhile, a.waits = true) :
    ∃ consumed, LateService (r.run earlier).dropped
      (r.run (earlier ++ .start :: (actions ++ .finish :: meanwhile))) consumed := by
  have hbefore : r.run (earlier ++ .start :: actions) =
      ((r.run earlier).step .start).run actions := List.foldl_append
  have hsplit : r.run (earlier ++ .start :: (actions ++ .finish :: meanwhile)) =
      ((((r.run earlier).step .start).run actions).step .finish).run meanwhile := by
    show List.foldl step r _ = _
    rw [List.foldl_append, List.foldl_cons, List.foldl_append, List.foldl_cons]
    rfl
  obtain ⟨hready, -⟩ := ready_make hindex htruth hstop hr hout
  have hsession := (hready.run earlier).1.start hstart hempty
  obtain ⟨finished, consumed, h⟩ := hsession.run hok
  rw [hbefore] at hraised
  rw [hsplit]
  exact ⟨consumed, ((h.overtake hraised).run hwaits).service⟩

/-- An idle line has consumed one byte when both halves are finished, and another byte arrives
before the completions are delivered. -/
theorem late_service_idle :
    ∃ r, Machine.receiveRig { memory := ⟨#[7]⟩, controllers := #[{}] } 3 0 2 0 8 = .ok r ∧
      ∃ consumed, LateService 0 (r.run [.start, .moveElements 1, .idle, .present 8, .finish,
        .present 9, .finish, .interrupt .timeout, .moveElements 1]) consumed := by
  obtain ⟨r, hr⟩ :
      ∃ r, Machine.receiveRig { memory := ⟨#[7]⟩, controllers := #[{}] } 3 0 2 0 8 = .ok r :=
    ⟨_, rfl⟩
  have hbefore :
      ((Machine.receiveRig { memory := ⟨#[7]⟩, controllers := #[{}] } 3 0 2 0 8).toOption.map
        fun r => (r.pump.staging, r.starts, r.pump.queue.ring.isEmpty, r.dropped,
          (r.step .start).admitsAll [.moveElements 1, .idle, .present 8, .finish, .present 9])) =
        some (1, true, true, 0, true) := by decide +kernel
  have hwaiting :
      ((Machine.receiveRig { memory := ⟨#[7]⟩, controllers := #[{}] } 3 0 2 0 8).toOption.map
        fun r =>
          (r.run [.start, .moveElements 1, .idle, .present 8, .finish, .present 9]).raised) =
        some [.progress] := by decide +kernel
  rw [hr] at hbefore hwaiting
  replace hbefore := Option.some.inj hbefore
  have hraised := Option.some.inj hwaiting
  simp only [Prod.mk.injEq] at hbefore
  obtain ⟨hstaging, hstart, hempty, hzero, hok⟩ := hbefore
  obtain ⟨consumed, hlate⟩ :=
    late_service (by decide) ⟨rfl, rfl, rfl⟩ rfl hr (.inl (by omega)) []
      [.moveElements 1, .idle, .present 8, .finish, .present 9]
      [.interrupt .timeout, .moveElements 1]
      hstart hempty hok hraised (by decide)
  have hdropped : (r.run []).dropped = 0 := hzero
  rw [hdropped] at hlate
  exact ⟨r, hr, consumed, hlate⟩

/-- Both halves are filled before a completion is delivered. From the first half, two deliveries
queue each byte twice; from the second half, they queue none of the four bytes that wait. -/
theorem repeated_or_skipped :
    ∃ r, Machine.receiveRig { memory := ⟨#[7]⟩, controllers := #[{}] } 3 0 2 0 16 = .ok r ∧
      let fill (first second : UInt8) : List ReceiveAction :=
        [.present first, .moveElements 1, .present second, .finish]
      let ahead := r.run (.start :: (fill 1 2 ++ fill 3 4))
      let behind := r.run (.start :: (fill 1 2 ++ .deliver :: (fill 3 4 ++ fill 5 6)))
      (ahead.received = [1, 2, 3, 4] ∧ ahead.raised = [.progress, .progress] ∧
        (ahead.run [.deliver, .deliver]).queued = [1, 2, 3, 4, 1, 2, 3, 4]) ∧
      behind.received = [1, 2, 3, 4, 5, 6] ∧ behind.raised = [.progress, .progress] ∧
        (behind.run [.deliver, .deliver]).queued = [1, 2] := by
  refine ⟨_, rfl, ?_⟩
  decide +kernel

end ReceiveRig

end ScatterGather
