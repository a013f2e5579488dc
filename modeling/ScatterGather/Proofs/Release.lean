import ScatterGather.Proofs.Transmission

/-!
# ScatterGather.Proofs.Release — when a transmit pump lets its bytes go

The bytes of a transfer stay queued until an event ends it, and leave the queue all at once. Events
may be delivered that the controller never raised, and at any time. `Working.exec_onInterrupt` says
what no event can do: whatever leaves the queue was written to the register by the controller since
it was last started (`Handled.copied`).

An event that ends a transfer is a completion after the controller stopped, or a bus error, which
releases nothing. A completion that comes while the controller executes starts the transfer again.
-/

namespace ScatterGather

namespace TransmitPump

variable {p : TransmitPump} {v : Scene} {moved : List (Nat × UInt8)}

/-! ## The end of a transfer -/

/-- The pump when its transfer is over: its bytes leave the queue unless they were not sent. -/
def freed (p : TransmitPump) (stream : Stream) (status : Status) : TransmitPump :=
  { p with
    stream, inFlight := 0, ring := if status = .error then p.ring else p.ring.abandon p.inFlight }

theorem exec_notify (p : TransmitPump) (v : Scene) : v.exec p.notify = ((), v) := by
  unfold notify
  cases p.callback <;> rfl

section OnInterrupt

variable (p) {event : TransferEvent} {stream : Stream} {v' : Scene}

theorem exec_onInterrupt_none (hexec : v.exec (p.stream.onInterrupt event) = ((none, stream), v')) :
    v.exec (p.onInterrupt event) = ((none, { p with stream }), v') := by
  unfold onInterrupt
  rw [Scene.exec_bind, hexec]
  rfl

theorem exec_onInterrupt_some {status : Status}
    (hexec : v.exec (p.stream.onInterrupt event) = ((some status, stream), v')) :
    v.exec (p.onInterrupt event) =
      if stream.bound then ((some status, { p with stream }), v')
      else if (p.freed stream status).ring.size = 0 then ((some status, p.freed stream status), v')
      else
        ((some status, (v'.exec (p.freed stream status).kick).1),
          (v'.exec (p.freed stream status).kick).2) := by
  unfold onInterrupt
  rw [Scene.exec_bind, hexec]
  show v'.exec (if stream.bound then _ else _) = _
  rw [Scene.exec_ite]
  by_cases hb : stream.bound = true
  · rw [if_pos hb, if_pos hb]
    rfl
  · rw [if_neg hb, if_neg hb]
    show v'.exec (if (p.freed stream status).ring.isEmpty then _ else _) = _
    rw [Scene.exec_ite]
    by_cases hz : (p.freed stream status).ring.size = 0
    · rw [if_pos (by simpa [Ring.isEmpty] using hz), if_pos hz, Scene.exec_bind, exec_notify]
      rfl
    · rw [if_neg (by simpa [Ring.isEmpty] using hz), if_neg hz, Scene.exec_bind]
      rfl

/-- A pump whose stream does not hold the channel takes no notice of events. -/
theorem exec_onInterrupt_unbound (hb : p.stream.bound = false) (event : TransferEvent) :
    v.exec (p.onInterrupt event) = ((none, p), v) := by
  have hexec : v.exec (p.stream.onInterrupt event) = ((none, p.stream), v) := by
    rw [Stream.exec_onInterrupt, hb]
    rfl
  exact p.exec_onInterrupt_none hexec

end OnInterrupt

/-- What an event leaves behind, if `gone` bytes left the queue. The bytes that left are those that
the controller wrote since its last start. -/
structure Handled (p : TransmitPump) (v : Scene) (moved : List (Nat × UInt8)) (gone : Nat)
    (p' : TransmitPump) (v' : Scene) : Prop where
  working : p'.Working v' (if v'.starts = v.starts then moved else [])
  channel : p'.stream.channel = p.stream.channel
  target : p'.target = p.target
  gone_le : gone ≤ p.ring.size
  contents : p'.contents v'.memory = (p.contents v.memory).drop gone
  copied : gone ≠ 0 → moved = ((p.contents v.memory).take gone).map (p.target, ·)

/-- How many bytes leave the queue when a transfer ends: none if it failed, else all that it
covered. -/
def freedCount (p : TransmitPump) (status : Status) : Nat :=
  if status = .error then 0 else p.inFlight

section Freed

variable {stream : Stream} {status : Status} {v' : Scene}

theorem Working.ring_freed (h : p.Working v moved) :
    (p.freed stream status).ring = p.ring.abandon (p.freedCount status) := by
  show (if status = .error then p.ring else p.ring.abandon p.inFlight) = _
  unfold freedCount
  split
  · exact h.ring.abandon_zero.symm
  · rfl

theorem Working.freedCount_le (h : p.Working v moved) (hb : p.stream.bound = true) :
    p.freedCount status ≤ p.ring.size := by
  have hle := (h.busy hb).le_size
  unfold freedCount
  split <;> omega

/-- Bytes that leave the queue were written, since a transfer that did not fail ends only after the
controller has stopped. -/
theorem Working.copied_freed (h : p.Working v moved) (hb : p.stream.bound = true)
    (hfull : status ≠ .error → v.current = 0) (hne : p.freedCount status ≠ 0) :
    moved = ((p.contents v.memory).take (p.freedCount status)).map (p.target, ·) := by
  have hf := h.busy hb
  have hstatus : status ≠ .error := fun hst => hne (if_pos hst)
  have hmoved := hf.moved
  rw [hf.stopped (hfull hstatus), Nat.sub_zero] at hmoved
  rw [freedCount, if_neg hstatus]
  exact hmoved

theorem Working.contents_freed (h : p.Working v moved) (hmemory : v'.memory = v.memory) :
    (p.freed stream status).contents v'.memory =
      (p.contents v.memory).drop (p.freedCount status) := by
  rw [contents, h.ring_freed, hmemory]
  exact h.ring.contents_abandon (p.freedCount status)

theorem Working.freed (h : p.Working v moved) (hs : stream.Sound v' 0) (hb : stream.bound = false)
    (hcap : stream.pool.capacity = 1) (hconfig : stream.config = TransmitPump.config)
    (hmemory : v'.memory = v.memory) : (p.freed stream status).Working v' moved := by
  have hring : (p.freed stream status).ring = p.ring.abandon (p.freedCount status) := h.ring_freed
  have hvalid := h.ring.abandon (p.freedCount status)
  rw [← hring] at hvalid
  have hspace : (p.freed stream status).ring.capacity = p.ring.capacity := by
    rw [hring]
    rfl
  exact h.rest (p.freed stream status) v' hvalid hspace rfl rfl hs hb hcap hconfig rfl hmemory moved

end Freed

/-- A pump whose transfer an event has ended goes on with what is left in the queue. -/
theorem Working.exec_over (h : p.Working v moved) (hbound : p.stream.bound = true)
    {event : TransferEvent} {status : Status} {stream : Stream} {v' : Scene}
    (hexec : v.exec (p.stream.onInterrupt event) = ((some status, stream), v'))
    (hs : stream.Sound v' 0) (hb : stream.bound = false) (hcap : stream.pool.capacity = 1)
    (hconfig : stream.config = TransmitPump.config) (hmemory : v'.memory = v.memory)
    (hstarts : v'.starts = v.starts) (hfull : status ≠ .error → v.current = 0) :
    p.Handled v moved (p.freedCount status) (v.exec (p.onInterrupt event)).1.2
        (v.exec (p.onInterrupt event)).2 ∧
      (v.exec (p.onInterrupt event)).1.2.inFlight ≤ (v.exec (p.onInterrupt event)).2.remaining := by
  have hrest : (p.freed stream status).Working v' moved := h.freed hs hb hcap hconfig hmemory
  have hcontents : (p.freed stream status).contents v'.memory = _ := h.contents_freed hmemory
  have hle : p.freedCount status ≤ p.ring.size := h.freedCount_le hbound
  have hcopied := h.copied_freed hbound hfull
  have hunbound : ¬stream.bound = true := by
    rw [hb]
    exact Bool.false_ne_true
  have hchannel : stream.channel = p.stream.channel := by
    have hkept := p.stream.kept_onInterrupt v event
    rw [hexec] at hkept
    exact hkept.channel
  rw [p.exec_onInterrupt_some hexec, if_neg hunbound]
  -- either nothing is left to send, or the next transfer starts at once
  by_cases hz : (p.freed stream status).ring.size = 0
  · rw [if_pos hz]
    refine ⟨⟨?_, hchannel, rfl, hle, hcontents, hcopied⟩, Nat.zero_le _⟩
    rw [if_pos hstarts]
    exact hrest
  · rw [if_neg hz]
    have hkicked := hrest.exec_kick hb (Nat.pos_of_ne_zero hz)
    refine ⟨⟨hstarts ▸ hkicked.working, hkicked.channel.trans hchannel, hkicked.target, hle, ?_,
      hcopied⟩, hkicked.fresh⟩
    rw [← hcontents, contents, contents, hkicked.ring, hkicked.storage, hkicked.memory]

/-- An event that releases nothing and starts nothing. -/
theorem Handled.still {p' : TransmitPump} {v' : Scene} (h : p'.Working v' moved)
    (hchannel : p'.stream.channel = p.stream.channel) (htarget : p'.target = p.target)
    (hcontents : p'.contents v'.memory = p.contents v.memory) (hstarts : v'.starts = v.starts) :
    p.Handled v moved 0 p' v' where
  working := (if_pos hstarts).symm ▸ h
  channel := hchannel
  target := htarget
  gone_le := Nat.zero_le _
  contents := hcontents
  copied hne := absurd rfl hne

/-! ## Events -/

section Events

variable (h : p.Working v moved)

include h

theorem Working.exec_timeout (hb : p.stream.bound = true) :
    ∃ left, v.exec (p.onInterrupt .timeout) =
      ((some .timeout, { p with stream := { p.stream with state := .timeout } }),
        { v with pendingPolls := left }) := by
  obtain ⟨left, hleft⟩ := p.stream.exec_react_timeout v
  have hpolicy : ¬p.stream.config.timeoutPolicy = .abort := by
    rw [h.config]
    exact nofun
  rw [if_neg hpolicy] at hleft
  have hexec : v.exec (p.stream.onInterrupt .timeout) =
      ((some .timeout, { p.stream with state := .timeout }), { v with pendingPolls := left }) := by
    rw [Stream.exec_onInterrupt, if_pos hb, hleft]
    rfl
  refine ⟨left, ?_⟩
  rw [p.exec_onInterrupt_some hexec]
  exact if_pos hb

/-- The stream forgets as many blocks as its controller has moved past. -/
theorem Working.retired_eq (hb : p.stream.bound = true) {k : Nat} (hk : p.stream.Sound v k) :
    p.stream.retired v = { p.stream with pool := p.stream.pool.retire k } := by
  have hm : ¬p.stream.isCircular = true := by
    rw [h.oneShot]
    exact Bool.false_ne_true
  rw [Stream.retired, if_neg hm, hk.standing_eq hb]

/-- A completion after the controller has stopped releases the bytes that were sent. -/
theorem Working.exec_complete (hb : p.stream.bound = true) (hc : v.current = 0) :
    p.Handled v moved p.inFlight (v.exec (p.onInterrupt .complete)).1.2
        (v.exec (p.onInterrupt .complete)).2 ∧
      (v.exec (p.onInterrupt .complete)).1.2.inFlight ≤
        (v.exec (p.onInterrupt .complete)).2.remaining := by
  obtain ⟨k, hk⟩ := h.sound
  -- the controller has moved past every block
  have hk' : k = p.stream.pool.queued := by
    cases (hk.engaged hb).stands with
    | running _ hcur _ => exact absurd (hcur ▸ hc) (hk.sits.addressAt_ne_zero k)
    | stopped _ => exact Stream.reachable_of_none h.stalled
  have hretired := h.retired_eq hb hk
  have hempty : (p.stream.pool.retire k).queued = 0 := by
    rw [Pool.queued_retire (Nat.le_of_eq hk'), hk', Nat.sub_self]
  have hsound := (hk.retired hb).released .done
  rw [hretired] at hsound
  have hexec : v.exec (p.stream.onInterrupt .complete) =
      ((some .ok, { p.stream with
          pool := p.stream.pool.retire k, bound := false, stalled := none, state := .done }),
        v.released p.stream.channel.number p.stream.owner) := by
    rw [Stream.exec_onInterrupt, if_pos hb, Stream.exec_react_complete, hretired,
      if_neg (fun hgo => hgo.2 hempty)]
    rfl
  have hover := h.exec_over hb hexec hsound rfl h.single h.config rfl rfl fun _ => hc
  rwa [freedCount, if_neg (nofun : ¬Status.ok = .error)] at hover

/-- On a completion that comes while the controller executes, the stream starts it once more at its
one descriptor. -/
theorem Working.exec_again (hb : p.stream.bound = true) (hc : v.current ≠ 0) :
    v.exec (p.stream.onInterrupt .complete) =
        ((some .busy, { p.stream with
            pool := p.stream.pool.retire 0, stalled := none, state := .busy }),
          v.start (p.stream.pool.addressOf 0)) ∧
      Stream.Sound
        { p.stream with pool := p.stream.pool.retire 0, stalled := none, state := .busy }
        (v.start (p.stream.pool.addressOf 0)) 0 := by
  obtain ⟨k, hk⟩ := h.sound
  obtain ⟨-, -, hqueued⟩ := h.executing hc
  -- one block is queued, so the controller stands at the head
  obtain rfl : k = 0 := by
    obtain ⟨-, hq, -⟩ := hk.executing hc
    omega
  have hretired := h.retired_eq hb hk
  have hleft : (p.stream.pool.retire 0).queued ≠ 0 := by
    rw [Pool.queued_retire (Nat.zero_le _), hqueued]
    exact Nat.one_ne_zero
  have haddress : (p.stream.pool.retire 0).addressAt 0 = p.stream.pool.addressOf 0 :=
    Pool.addressAt_single (p := p.stream.pool.retire 0) h.single 0
  have hr := hk.retired hb
  rw [hretired] at hr
  have hsound := Stream.Sound.restarted hr hb h.oneShot hleft
  rw [haddress] at hsound
  refine ⟨?_, hsound⟩
  rw [Stream.exec_onInterrupt, if_pos hb, Stream.exec_react_complete, hretired,
    if_pos ⟨h.oneShot, hleft⟩, haddress]
  rfl

/-- A completion that comes while the controller executes starts the transfer again. -/
theorem Working.exec_restart (hb : p.stream.bound = true) (hc : v.current ≠ 0) :
    p.Handled v moved 0 (v.exec (p.onInterrupt .complete)).1.2
      (v.exec (p.onInterrupt .complete)).2 := by
  have hf := h.busy hb
  obtain ⟨hexec, hsound⟩ := h.exec_again hb hc
  have hne : p.stream.pool.addressOf 0 ≠ 0 := by
    obtain ⟨-, hcur, -⟩ := h.executing hc
    exact hcur ▸ hc
  have hremaining : (v.start (p.stream.pool.addressOf 0)).remaining = p.inFlight :=
    (if_neg hne).trans (congrArg Block.elements hf.block)
  rw [p.exec_onInterrupt_some hexec, if_pos hb]
  refine ⟨?_, rfl, rfl, Nat.zero_le _, rfl, fun hgone => absurd rfl hgone⟩
  -- the controller was started once more, so its record begins anew
  show Working _ _ (if v.starts + 1 = v.starts then moved else [])
  rw [if_neg (Nat.succ_ne_self v.starts)]
  exact h.flying _ _ rfl rfl rfl hsound hb h.single h.config rfl rfl hf.pos hf.le_size
    hf.contiguous hf.block hne hremaining

/-- **Whatever event is delivered, at whatever time**, the pump goes on working, and the bytes that
leave its queue are those that the controller has written. -/
theorem Working.exec_onInterrupt (event : TransferEvent) :
    ∃ gone, p.Handled v moved gone (v.exec (p.onInterrupt event)).1.2
      (v.exec (p.onInterrupt event)).2 := by
  by_cases hb : p.stream.bound = true
  · obtain ⟨k, hk⟩ := h.sound
    cases event with
    | progress =>
      have hexec : v.exec (p.stream.onInterrupt .progress) =
          ((some .busy, { p.stream with pool := p.stream.pool.retire k, state := .busy }), v) := by
        rw [Stream.exec_onInterrupt, if_pos hb, Stream.exec_react_progress, h.retired_eq hb hk]
        rfl
      have hsound := hk.progress hb
      rw [h.retired_eq hb hk] at hsound
      have hstill := h.still hsound rfl rfl h.single h.config h.stalled rfl rfl rfl rfl
      rw [p.exec_onInterrupt_some hexec, if_pos hb]
      exact ⟨0, .still hstill rfl rfl rfl rfl⟩
    | complete =>
      by_cases hc : v.current = 0
      · exact ⟨_, (h.exec_complete hb hc).1⟩
      · exact ⟨0, h.exec_restart hb hc⟩
    | busError =>
      have hexec : v.exec (p.stream.onInterrupt .busError) =
          ((some .error, { p.stream with bound := false, stalled := none, state := .error }),
            v.released p.stream.channel.number p.stream.owner) := by
        rw [Stream.exec_onInterrupt, if_pos hb, Stream.exec_react_busError]
        rfl
      exact ⟨_, (h.exec_over hb hexec (hk.released .error) rfl h.single h.config rfl rfl
        fun hne => absurd rfl hne).1⟩
    | timeout =>
      obtain ⟨left, hexec⟩ := h.exec_timeout hb
      have hsound : Stream.Sound { p.stream with state := .timeout }
          { v with pendingPolls := left } k :=
        hk.congr rfl rfl hk.template rfl rfl rfl rfl fun _ => rfl
      rw [hexec]
      exact ⟨0, .still (h.still hsound rfl rfl h.single h.config h.stalled rfl rfl rfl rfl)
        rfl rfl rfl rfl⟩
  · rw [p.exec_onInterrupt_unbound (Bool.eq_false_iff.mpr hb) event]
    exact ⟨0, .still h rfl rfl rfl rfl⟩

end Events

end TransmitPump

end ScatterGather
